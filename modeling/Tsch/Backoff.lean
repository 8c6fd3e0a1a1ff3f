import Tsch.System

/-!
# The backoff bounds

Each neighbor queue keeps a backoff exponent `BE_value` and a backoff counter `BW_value`.
`add_queue` starts them at `macMinBE` and 0, a shared slot with a packet to send counts the
counter down, a failed attempt in a shared unicast cell draws a new counter below
`2^BE_value` and raises the exponent up to `macMaxBE`, and a success clears the counter.

**Results.**
* `QueueOk.backoff`: the draw of a failed attempt stays below the old window.
* `backoff_bounds`: every queue of every reachable state is within the bounds.
-/

namespace Tsch

/-- `macMinBE ≤ BE_value ≤ macMaxBE` and `BW_value < 2^BE_value`. -/
def QueueOk (q : NeighborQueue) : Prop :=
  macMinBE ≤ q.beValue ∧ q.beValue ≤ macMaxBE ∧ q.bwValue < 2 ^ q.beValue

namespace QueueOk

theorem of_eq {q q' : NeighborQueue} (h : QueueOk q) (hbe : q'.beValue = q.beValue)
    (hbw : q'.bwValue = q.bwValue) : QueueOk q' := by
  unfold QueueOk at *
  rw [hbe, hbw]
  exact h

theorem init (B : BufferSize) (q : NeighborQueue) : QueueOk (q.init B) := by
  simp [QueueOk, NeighborQueue.init, macMinBE, macMaxBE]

theorem resetBackoff (q : NeighborQueue) : QueueOk (Store.resetBackoff q) := by
  simp [QueueOk, Store.resetBackoff, macMinBE, macMaxBE]

theorem countDown {q : NeighborQueue} (h : QueueOk q) : QueueOk (Mac.countDown q) :=
  ⟨h.1, h.2.1, lt_of_le_of_lt (Nat.sub_le _ _) h.2.2⟩

theorem addPacket (B : BufferSize) {q : NeighborQueue} (h : QueueOk q) (pkt : Option QueueBuf)
    (sent ptr uid : Nat) : QueueOk (q.addPacket B pkt sent ptr uid).2 := by
  unfold NeighborQueue.addPacket
  split
  · exact h
  · exact h.of_eq rfl rfl

theorem removePacket (B : BufferSize) {q : NeighborQueue} (h : QueueOk q) :
    QueueOk (q.removePacket B).2.2 := by
  unfold NeighborQueue.removePacket
  split
  · exact h.of_eq rfl rfl
  · exact h

/-- The window of a failed attempt is `2^BE_value`, so the new counter stays below it, and
the exponent does not shrink. -/
theorem backoff {q : NeighborQueue} (h : QueueOk q) (random : Nat) :
    QueueOk (Store.backoff random q) := by
  obtain ⟨h₁, h₂, -⟩ := h
  have h₁ : 1 ≤ q.beValue := h₁
  have h₂ : q.beValue ≤ 4 := h₂
  have hpow : 2 ≤ 2 ^ q.beValue ∧ 2 ^ q.beValue ≤ 16 :=
    ⟨le_trans (by decide) (Nat.pow_le_pow_right (by decide) h₁),
      le_trans (Nat.pow_le_pow_right (by decide) h₂) (by decide)⟩
  have hwin : uint8 (uint8 (1 <<< q.beValue) + 255) = 2 ^ q.beValue - 1 := by
    rw [Nat.shiftLeft_eq, one_mul, uint8, uint8]
    omega
  have hbe : uint8 (q.beValue + 1) = q.beValue + 1 := uint8_of_lt (by omega)
  have hbw : generateRandomByte random (2 ^ q.beValue - 1) < 2 ^ q.beValue :=
    lt_of_le_of_lt Nat.and_le_right (by omega)
  simp only [QueueOk, Store.backoff, hwin, hbe, macMinBE, macMaxBE]
  split_ifs
  · exact ⟨by decide, le_refl _, lt_of_lt_of_le hbw (Nat.pow_le_pow_right (by decide) h₂)⟩
  · exact ⟨by omega, by omega,
      lt_of_lt_of_le hbw (Nat.pow_le_pow_right (by decide) (Nat.le_succ _))⟩

end QueueOk

namespace Store

/-- Every queue of the table is within the backoff bounds. -/
def BackoffOk (s : Store) : Prop :=
  ∀ e ∈ s.neighborList, QueueOk e.2

variable {B : BufferSize} {s : Store}

namespace BackoffOk

theorem updateQueue (h : BackoffOk s) {a : RimeAddr} {f : NeighborQueue → NeighborQueue}
    (hf : ∀ q, QueueOk q → QueueOk (f q)) : BackoffOk (s.updateQueue a f) :=
  forall_modifyQueue hf h

theorem updateSlot (h : BackoffOk s) (p : SlotRef) (f : TschPacket → TschPacket) :
    BackoffOk (s.updateSlot p f) :=
  h.updateQueue fun _ hq => hq.of_eq rfl rfl

theorem addQueue (h : BackoffOk s) (k : Nat) (a : RimeAddr) : BackoffOk (s.addQueue B k a).2 := by
  cases hq : s.neighborQueueFromAddr a with
  | some q =>
      rw [addQueue_of_some hq]
      exact h.updateQueue fun q _ => QueueOk.init B q
  | none =>
      rw [addQueue_of_none hq]
      split_ifs
      · intro e he
        rcases List.mem_append.1 he with he | he
        · exact h e he
        · rw [List.mem_singleton.1 he]
          exact QueueOk.init B _
      · exact h

theorem addPacketToQueue (h : BackoffOk s) (sent ptr : Nat) (a : RimeAddr)
    (pkt : Option QueueBuf) : BackoffOk (s.addPacketToQueue B sent ptr a pkt).2 := by
  unfold Store.addPacketToQueue
  split
  · exact h.updateQueue fun q hq => hq.addPacket B _ _ _ _
  · exact h

theorem removePacketFromQueue (h : BackoffOk s) (a : RimeAddr) :
    BackoffOk (s.removePacketFromQueue B a).2 := by
  unfold Store.removePacketFromQueue
  split
  · exact h.updateQueue fun q hq => hq.removePacket B
  · exact h

theorem sendOnePacket (h : BackoffOk s) (k : Nat) (framer : Packetbuf → Option (List UInt8))
    (sent ptr : Nat) (pb : Packetbuf) (alloc : Option Nat) :
    BackoffOk (s.sendOnePacket B k framer sent ptr pb alloc).2 := by
  have h' : BackoffOk { s with dsn := nextDsn s.dsn } := h
  unfold Store.sendOnePacket
  dsimp only
  split
  · exact h
  · split
    · exact h'.addPacketToQueue _ _ _ _
    · split
      · rename_i heq
        have := h'.addQueue (B := B) k pb.receiver
        rw [heq] at this
        exact this
      · rename_i heq
        have := h'.addQueue (B := B) k pb.receiver
        rw [heq] at this
        exact this.addPacketToQueue _ _ _ _

theorem sendList {k : Nat} {framer : Packetbuf → Option (List UInt8)} {sent ptr : Nat}
    (bufs : List (Packetbuf × Option Nat)) (h : BackoffOk s) :
    BackoffOk (s.sendList B k framer sent ptr bufs) := by
  induction bufs generalizing s with
  | nil => exact h
  | cons b bufs ih =>
      unfold Store.sendList
      split_ifs
      · exact ih (h.sendOnePacket _ _ _ _ _ _)
      · exact h.sendOnePacket _ _ _ _ _ _

theorem getNextPacketForSharedSlotTx (h : BackoffOk s) :
    BackoffOk (s.getNextPacketForSharedSlotTx B).2 := by
  unfold Store.getNextPacketForSharedSlotTx
  split <;> exact h

theorem attemptOutcome (h : BackoffOk s) {p : SlotRef} {n cellAddr : RimeAddr} {backoffOn : Bool}
    {success random : Nat} {s' : Store} {ret : MacStatus}
    (ho : s.attemptOutcome B p n cellAddr backoffOn success random = some (s', ret)) :
    BackoffOk s' := by
  rcases attemptOutcome_cases ho with ⟨-, hf⟩ | ⟨-, hs⟩
  · obtain ⟨pk, s₁, -, h₁, rfl⟩ := failedAttempt_spec hf
    have hs₁ : BackoffOk s₁ := by
      rcases h₁ with ⟨-, b, -, rfl⟩ | ⟨-, rfl⟩
      · exact ((h.updateSlot _ _).removePacketFromQueue _).updateQueue
          fun q _ => QueueOk.resetBackoff q
      · exact h.updateSlot _ _
    split
    · exact hs₁.updateQueue fun q hq => hq.backoff random
    · exact hs₁
  · obtain ⟨pk, b, -, -, rfl | rfl⟩ := succeededAttempt_spec hs
    · exact (h.removePacketFromQueue _).updateQueue fun q _ => QueueOk.resetBackoff q
    · exact (h.removePacketFromQueue _).updateQueue fun q hq => ⟨hq.1, hq.2.1, Nat.two_pow_pos _⟩

end BackoffOk

end Store

namespace Mac

variable {cfg : Config}

theorem slotSetup_backoffOk {m : Mac} (h : m.store.BackoffOk) (cell : Cell) :
    (slotSetup cfg m cell).store.BackoffOk := by
  have hsel : (selectPacket cfg m.store cell).2.2.BackoffOk := by
    rcases @selectPacket_store cfg m.store cell with h' | h' <;> rw [h']
    · exact h
    · exact h.getNextPacketForSharedSlotTx
  rcases @slotSetup_store cfg m cell with h' | ⟨a, h'⟩ <;> rw [h']
  · exact hsel
  · exact hsel.updateQueue fun _ hq => hq.countDown

theorem step_backoffOk {m m' : Mac} {e : Event} (h : m.store.BackoffOk)
    (hs : step cfg m e = some m') : m'.store.BackoffOk := by
  cases e with
  | sendPacket => cases hs; exact h.sendOnePacket _ _ _ _ _ _
  | sendList _ _ bufs => cases hs; exact Store.BackoffOk.sendList bufs h
  | dispatch =>
      obtain ⟨p, rest, pk, -, -, rfl⟩ := tschTxCallback_spec hs
      exact h
  | powercycle r =>
      have hres : ∀ {x}, resume cfg m r = some x → x.mac.store.BackoffOk := fun hx => by
        rcases resume_store hx with h' | ⟨cell, h'⟩ <;> rw [h']
        · exact h
        · exact slotSetup_backoffOk h cell
      rcases powercycle_cases hs with h₁ | ⟨m₁, s, m₂, h₁, h₂, rfl⟩ | ⟨m₁, h₁, rfl⟩
      · exact hres h₁
      · obtain ⟨p, n, cell, pk, st, ret, -, -, -, -, ho, rfl⟩ := txOutcome_spec h₂
        rw [endOfSlot_store]
        exact ((hres h₁).attemptOutcome ho).updateSlot _ _
      · rw [endOfSlot_store]
        exact hres h₁
  | softAck => cases hs; exact h
  | interruptExit => cases hs; exact h

theorem associateLink_backoffOk {s : Store} (h : s.BackoffOk) (c : Cell) :
    (associateLink cfg s c).BackoffOk := by
  have hf : (findOrAddQueue cfg s c.nodeAddress).2.BackoffOk := by
    unfold findOrAddQueue
    split
    · exact h
    · exact h.addQueue _ _
  unfold associateLink
  split_ifs
  · split
    · rename_i heq
      rw [heq] at hf
      exact hf.updateQueue fun _ hq => hq.of_eq rfl rfl
    · rename_i heq
      rw [heq] at hf
      exact hf
  · exact h

theorem reachable_backoffOk {m : Mac} (hm : Reachable cfg m) : m.store.BackoffOk := by
  induction hm with
  | init now =>
      show (cfg.links.foldl (associateLink cfg) Store.empty).BackoffOk
      suffices ∀ (l : List Cell) (s : Store), s.BackoffOk → (l.foldl (associateLink cfg) s).BackoffOk
        from this _ _ fun _ he => nomatch he
      intro l
      induction l with
      | nil => exact fun _ h => h
      | cons c l ih => exact fun s h => ih _ (associateLink_backoffOk h c)
  | step e _ h ih => exact step_backoffOk ih h

/-- In every reachable state, every queue of the neighbor table has
`macMinBE ≤ BE_value ≤ macMaxBE` and `BW_value < 2^BE_value`. -/
theorem backoff_bounds (cfg : Config) {m : Mac} (hm : Reachable cfg m) :
    ∀ e ∈ m.store.neighborList,
      macMinBE ≤ e.2.beValue ∧ e.2.beValue ≤ macMaxBE ∧ e.2.bwValue < 2 ^ e.2.beValue :=
  reachable_backoffOk hm

/-- After `noackTrace`'s failed attempt in a shared cell, the broadcast queue has drawn a
backoff with `BE_value` 2, and the bounds hold of every queue. -/
theorem backoff_bounds_after_noack :
    (run shipped (init shipped 0) noackTrace).map
        (fun m => (m.store.neighborQueueFromAddr broadcastCellAddress).map (·.beValue)) =
      some (some 2) ∧
    ∀ m, run shipped (init shipped 0) noackTrace = some m →
      ∀ e ∈ m.store.neighborList,
        macMinBE ≤ e.2.beValue ∧ e.2.beValue ≤ macMaxBE ∧ e.2.bwValue < 2 ^ e.2.beValue :=
  ⟨by decide, fun _ hm => backoff_bounds shipped (reachable_of_run shipped (.init 0) hm)⟩

end Mac

end Tsch
