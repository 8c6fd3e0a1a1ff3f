import Tsch.Faults
import Tsch.Delivery

/-!
# Whose backoff a failed attempt charges

The outcome of a `CELL_TX` slot (lines 802-873) works on the queue `n` of the slot's cell,
not on the queue of the packet's receiver: a shared broadcast cell takes a unicast packet
from another ring through `get_next_packet_for_shared_slot_tx`, and when that packet fails
the backoff is drawn for the broadcast queue.  The slot start counts down `BW_value` of the
cell's queue too, and every other write leaves `BE_value` and `BW_value` alone or resets
them.

**Results.**
* `Store.FreshOn`: every store operation, and a TX outcome on another queue, keeps the
  backoff state `add_queue` gives a set of queues.
* `unscheduled_queue_never_backs_off`: the queue of a neighbor no cell is addressed to never
  backs off.
-/

namespace Tsch

/-- `BE_value = macMinBE` and `BW_value = 0`, as `add_queue` leaves a queue. -/
def NeighborQueue.Fresh (q : NeighborQueue) : Prop :=
  q.beValue = macMinBE ∧ q.bwValue = 0

namespace NeighborQueue

variable {B : BufferSize} {q : NeighborQueue}

theorem Fresh.addPacket (h : q.Fresh) (pkt : Option QueueBuf) (sent ptr uid : Nat) :
    (q.addPacket B pkt sent ptr uid).2.Fresh := by
  unfold NeighborQueue.addPacket
  split <;> exact h

theorem Fresh.removePacket (h : q.Fresh) : (q.removePacket B).2.2.Fresh := by
  unfold NeighborQueue.removePacket
  split <;> exact h

end NeighborQueue

theorem Slotframe.mem_cells_of_getCell {sf : Slotframe} {t : Nat} {c : Cell}
    (h : sf.getCell t = some c) : c ∈ sf.cells := by
  unfold Slotframe.getCell at h
  split_ifs at h
  exact List.getElem?_mem h

namespace Store

/-- Every queue of an address in `U` is `Fresh`. -/
def FreshOn (U : RimeAddr → Prop) (s : Store) : Prop :=
  ∀ a q, U a → s.neighborQueueFromAddr a = some q → q.Fresh

namespace FreshOn

variable {B : BufferSize} {U : RimeAddr → Prop} {s : Store}

/-- A write through the pointer to the queue of `a`, which keeps a fresh queue fresh when `a`
is in `U`. -/
theorem updateQueue (h : FreshOn U s) {a : RimeAddr} {f : NeighborQueue → NeighborQueue}
    (hf : U a → ∀ q, q.Fresh → (f q).Fresh) : FreshOn U (s.updateQueue a f) := by
  intro b q hb hq
  rw [neighborQueueFromAddr_updateQueue] at hq
  split_ifs at hq with hba
  · subst hba
    obtain ⟨q₀, h₀, rfl⟩ := Option.map_eq_some'.1 hq
    exact hf hb q₀ (h b q₀ hb h₀)
  · exact h b q hb hq

theorem updateSlot (h : FreshOn U s) (p : SlotRef) (f : TschPacket → TschPacket) :
    FreshOn U (s.updateSlot p f) :=
  h.updateQueue fun _ _ hq => hq

theorem addQueue (h : FreshOn U s) (k : Nat) (a : RimeAddr) : FreshOn U (s.addQueue B k a).2 := by
  cases hn : s.neighborQueueFromAddr a with
  | some _ =>
      rw [Store.addQueue_of_some hn]
      exact h.updateQueue fun _ _ _ => ⟨rfl, rfl⟩
  | none =>
      rw [Store.addQueue_of_none hn]
      split_ifs
      · intro b q hb hq
        simp only [neighborQueueFromAddr, lookup_append_singleton hn] at hq
        split_ifs at hq
        · cases hq
          exact ⟨rfl, rfl⟩
        · exact h b q hb hq
      · exact h

theorem addPacketToQueue (h : FreshOn U s) (sent ptr : Nat) (a : RimeAddr)
    (pkt : Option QueueBuf) : FreshOn U (s.addPacketToQueue B sent ptr a pkt).2 := by
  unfold Store.addPacketToQueue
  split
  · exact h.updateQueue fun _ _ hq => hq.addPacket _ _ _ _
  · exact h

theorem removePacketFromQueue (h : FreshOn U s) (a : RimeAddr) :
    FreshOn U (s.removePacketFromQueue B a).2 := by
  unfold Store.removePacketFromQueue
  split
  · exact h.updateQueue fun _ _ hq => hq.removePacket
  · exact h

theorem sendOnePacket (h : FreshOn U s) (k : Nat) (framer : Packetbuf → Option (List UInt8))
    (sent ptr : Nat) (pb : Packetbuf) (alloc : Option Nat) :
    FreshOn U (s.sendOnePacket B k framer sent ptr pb alloc).2 := by
  have h' : FreshOn U { s with dsn := nextDsn s.dsn } := h
  unfold Store.sendOnePacket
  dsimp only
  split
  · exact h
  · split
    · exact h'.addPacketToQueue _ _ _ _
    · have hq := h'.addQueue (B := B) k pb.receiver
      split <;> rename_i heq <;> rw [heq] at hq
      · exact hq
      · exact hq.addPacketToQueue _ _ _ _

theorem sendList (h : FreshOn U s) (k : Nat) (framer : Packetbuf → Option (List UInt8))
    (sent ptr : Nat) (bufs : List (Packetbuf × Option Nat)) :
    FreshOn U (s.sendList B k framer sent ptr bufs) := by
  induction bufs generalizing s with
  | nil => exact h
  | cons b bufs ih =>
      unfold Store.sendList
      split_ifs
      · exact ih (h.sendOnePacket _ _ _ _ _ _)
      · exact h.sendOnePacket _ _ _ _ _ _

theorem getNextPacketForSharedSlotTx (h : FreshOn U s) :
    FreshOn U (s.getNextPacketForSharedSlotTx B).2 := by
  unfold Store.getNextPacketForSharedSlotTx
  split <;> exact h

/-- The outcome of an attempt: a success clears `BW_value` and maybe resets the queue `n`,
the last failure resets it, and only the backoff of a failure draws new values, for `n`. -/
theorem attemptOutcome (h : FreshOn U s) {p : SlotRef} {n cellAddr : RimeAddr}
    {backoffOn : Bool} {success random : Nat} {s' : Store} {ret : MacStatus} (hn : ¬U n)
    (ho : s.attemptOutcome B p n cellAddr backoffOn success random = some (s', ret)) :
    FreshOn U s' := by
  have reset : ∀ {s₀ : Store}, FreshOn U s₀ → FreshOn U (s₀.updateQueue n resetBackoff) :=
    fun h₀ => h₀.updateQueue fun _ _ _ => ⟨rfl, rfl⟩
  rcases attemptOutcome_cases ho with ⟨-, hf⟩ | ⟨-, hs⟩
  · obtain ⟨pk, s₁, -, h₁, rfl⟩ := failedAttempt_spec hf
    have hs₁ : FreshOn U s₁ := by
      rcases h₁ with ⟨-, b, -, rfl⟩ | ⟨-, rfl⟩
      · exact reset ((h.updateSlot _ _).removePacketFromQueue _)
      · exact h.updateSlot _ _
    split
    · exact hs₁.updateQueue fun hu => absurd hu hn
    · exact hs₁
  · obtain ⟨pk, b, -, -, rfl | rfl⟩ := succeededAttempt_spec hs
    · exact reset (h.removePacketFromQueue _)
    · exact (h.removePacketFromQueue _).updateQueue fun _ _ hq => ⟨hq.1, rfl⟩

end FreshOn

end Store

namespace Mac

open Store

variable {cfg : Config} {m m' : Mac} {r : Radio} {x : Resumed}

/-- No cell of the slotframe is addressed to `a`. -/
def Unscheduled (cfg : Config) (a : RimeAddr) : Prop :=
  ∀ c ∈ cfg.slotframe.cells, c.nodeAddress ≠ a

/-- The queues of unscheduled neighbors are fresh, and the slot's cell is a cell of the
slotframe. -/
structure BackoffIdle (cfg : Config) (m : Mac) : Prop where
  fresh : m.store.FreshOn (Unscheduled cfg)
  cell : ∀ c, m.cell = some c → c ∈ cfg.slotframe.cells

/-- The end of a slot touches neither the table nor the cell. -/
theorem BackoffIdle.endOfSlot (h : BackoffIdle cfg m) (now : Nat) :
    BackoffIdle cfg (Mac.endOfSlot cfg m now) :=
  ⟨by rw [endOfSlot_store]; exact h.fresh,
    fun c hc => h.cell c (by rwa [(endOfSlot_waiting_cell _ _).2] at hc)⟩

theorem slotSetup_freshOn {U : RimeAddr → Prop} (h : m.store.FreshOn U) (cell : Cell) :
    (slotSetup cfg m cell).store.FreshOn U := by
  have hsel : (selectPacket cfg m.store cell).2.2.FreshOn U := by
    rcases @selectPacket_store cfg m.store cell with h' | h' <;> rw [h']
    · exact h
    · exact h.getNextPacketForSharedSlotTx
  rcases @slotSetup_store cfg m cell with h' | ⟨a, h'⟩ <;> rw [h']
  · exact hsel
  · exact hsel.updateQueue fun _ _ hq => ⟨hq.1, by simp [countDown, hq.2]⟩

theorem loopHead_cell (h : loopHead cfg m = some x) :
    x.mac.cell = m.cell ∨ x.mac.cell = cfg.slotframe.getCell m.timeslot := by
  rcases loopHead_cases h with rfl | rfl | ⟨cell, hc, h⟩
  · exact .inl rfl
  · exact .inr rfl
  · refine .inr (hc ▸ ?_)
    rcases slotStartOn_cases h with ⟨m', hm', rfl⟩ | rfl | rfl
    · obtain ⟨-, -, -, -, -, -, rfl⟩ := txBegin_spec hm'
      rfl
    · rfl
    · rfl

theorem resume_backoffIdle (h : BackoffIdle cfg m) (hx : resume cfg m r = some x) :
    BackoffIdle cfg x.mac := by
  refine ⟨?_, fun c hc => ?_⟩
  · rcases resume_store hx with h' | ⟨cell, h'⟩ <;> rw [h']
    · exact h.fresh
    · exact slotSetup_freshOn h.fresh cell
  · have hcell : x.mac.cell = m.cell ∨ x.mac.cell = cfg.slotframe.getCell m.timeslot := by
      unfold resume at hx
      split at hx
      · dsimp only at hx
        have h' := loopHead_cell hx
        exact h'
      · exact loopHead_cell hx
      · exact .inl (congrArg SlotView.cell (txResume_spec hx).1)
      · exact .inl (congrArg SlotView.cell (rxResume_spec hx).1)
    rcases hcell with he | he <;> rw [he] at hc
    · exact h.cell c hc
    · exact Slotframe.mem_cells_of_getCell hc

/-- Every event keeps `BackoffIdle`: a TX outcome draws a backoff only for the queue of the
slot's cell, a scheduled neighbor. -/
theorem step_backoffIdle (hc : CtrlInv m) (h : BackoffIdle cfg m) {e : Event}
    (hs : step cfg m e = some m') : BackoffIdle cfg m' := by
  cases e with
  | sendPacket => cases hs; exact ⟨h.fresh.sendOnePacket _ _ _ _ _ _, h.cell⟩
  | sendList => cases hs; exact ⟨h.fresh.sendList _ _ _ _ _, h.cell⟩
  | dispatch =>
      obtain ⟨-, -, -, -, -, rfl⟩ := tschTxCallback_spec hs
      exact ⟨h.fresh, h.cell⟩
  | powercycle r =>
      rcases powercycle_cases hs with h₁ | ⟨m₁, st, m₂, h₁, h₂, rfl⟩ | ⟨m₁, h₁, rfl⟩
      · exact resume_backoffIdle h h₁
      · have h₁' := resume_backoffIdle h h₁
        obtain ⟨-, p, pk, b, cell, hp, -, -, hcell, hn, -⟩ := resume_ok hc h₁
        obtain ⟨p', n, cell', pk', s, ret, -, hn', hcell', -, ho, rfl⟩ := txOutcome_spec h₂
        cases hcell.symm.trans hcell'
        cases hn.symm.trans hn'
        have hs' : (s.updateSlot p' fun q => { q with ret }).FreshOn (Unscheduled cfg) :=
          (h₁'.fresh.attemptOutcome (fun hu => hu cell (h₁'.cell cell hcell) rfl) ho).updateSlot _ _
        refine BackoffIdle.endOfSlot ?_ r.now
        exact ⟨hs', h₁'.cell⟩
      · exact (resume_backoffIdle h h₁).endOfSlot r.now
  | softAck => cases hs; exact ⟨h.fresh, h.cell⟩
  | interruptExit => cases hs; exact ⟨h.fresh, h.cell⟩

theorem reachable_backoffIdle (hm : Reachable cfg m) : BackoffIdle cfg m := by
  induction hm with
  | init now =>
      have h := (AssocInv.init cfg.maxNeighbors).foldl cfg.links
      rw [List.nil_append] at h
      exact ⟨fun a q _ hq => (h.queue a q hq).2, fun c hc => nomatch hc⟩
  | step e hm hs ih => exact step_backoffIdle (reachable_ctrlInv hm) ih hs

variable (cfg) in
/-- In every reachable state, the queue of a neighbor that no cell of the slotframe is
addressed to keeps `BE_value = macMinBE` and `BW_value = 0`: the failures of its packets in
shared cells draw their backoff for the queue of the cell instead. -/
theorem unscheduled_queue_never_backs_off (hm : Reachable cfg m) {a : RimeAddr}
    {q : NeighborQueue} (ha : ∀ c ∈ cfg.slotframe.cells, c.nodeAddress ≠ a)
    (hq : m.store.neighborQueueFromAddr a = some q) :
    q.beValue = macMinBE ∧ q.bwValue = 0 :=
  (reachable_backoffIdle hm).fresh a q ha hq

/-- `noackTrace`'s packet for `cellAddress1`, which no cell of `minimum_slotframe` is addressed
to, gets no ACK in a shared cell: the broadcast queue's `BE_value` goes up, and the queue of
`cellAddress1` keeps its backoff state. -/
theorem noack_backs_off_broadcast_queue :
    (∀ c ∈ shipped.slotframe.cells, c.nodeAddress ≠ cellAddress1) ∧
      (run shipped (init shipped 0) noackTrace).map (fun m =>
          ((m.store.neighborQueueFromAddr broadcastCellAddress).map (·.beValue), m.attempts)) =
        some (some (macMinBE + 1), [(0, .txNoack)]) ∧
      ∀ m q, run shipped (init shipped 0) noackTrace = some m →
        m.store.neighborQueueFromAddr cellAddress1 = some q →
        q.beValue = macMinBE ∧ q.bwValue = 0 := by
  have ha : ∀ c ∈ shipped.slotframe.cells, c.nodeAddress ≠ cellAddress1 := by decide
  exact ⟨ha, by decide, fun m q hm hq =>
    unscheduled_queue_never_backs_off shipped (reachable_of_run shipped (.init 0) hm) ha hq⟩

end Mac

end Tsch
