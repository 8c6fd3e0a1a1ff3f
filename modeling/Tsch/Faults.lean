import Tsch.Fifo
import Tsch.Table
import Tsch.Timing

/-!
# What a call of `powercycle` can fault on

Every resume point of a `CELL_TX` slot dereferences `p`, `p->pkt`, `n` or `cell`; an RX
slot that credits a drift dereferences `last_rf`; and the CCA wait `BUSYWAIT_UNTIL_ABS`
spins for ever when its single clock reading passes the break test yet lies before the slot
start.  The model has no successor state in each of these cases.  Between two resume points
of a slot the main task may run `send_packet`, `send_list` and `tsch_tx_callback_process`,
and the radio interrupt its two callbacks.

**Invariant.**  `CtrlInv`: inside `CELL_TX`, `p` points at a packet with a queue buffer,
`cell` is set and takes it (`CellTakes`), and `n` is its neighbor's queue, which is in the
table; and `waiting_for_radio_interrupt` is only raised at the two yields of the ACK wait.
It rests on `FifoInv`, whose running `CELL_TX` holds the head of a ring, a slot the main
task does not write.

**Results.**
* `step_ctrlInv`, `tx_slot_holds_its_packet`: every event keeps `CtrlInv`, so a `CELL_TX`
  slot holds its packet whatever ran between its resumes.
* `radio_wait_only_at_ack`: the flag of `tsch_resume_powercycle` is raised only in the ACK
  wait.
* `busywaitCca_isSome`: the CCA wait ends whenever its window is shorter than `2^15` ticks.
* `powercycle_faults`: the only calls of `powercycle` without a successor.
* `powercycle_of_kept_cell_tx`: the first of them is reached from every slot start whose
  cell lacks `LINK_OPTION_TX` right after a `CELL_TX` slot, since `cell_decison` is a static
  that such a cell does not overwrite (`rx_cell_inherits_cell_tx`).
-/

namespace Tsch

namespace Mac

open Store

variable {cfg : Config} {m m' : Mac} {r : Radio} {x : Resumed}

/-! ## The code paths without a successor -/

theorem txBegin_eq_none (h : txBegin cfg m = none) :
    m.p = none ∨ ∃ p, m.p = some p ∧
      (m.store.slot p = none ∨ ∃ pk, m.store.slot p = some pk ∧ pk.pkt = none) := by
  cases hp : m.p with
  | none => exact .inl rfl
  | some p =>
      refine .inr ⟨p, rfl, ?_⟩
      cases hs : m.store.slot p with
      | none => exact .inl rfl
      | some pk =>
          cases hb : pk.pkt with
          | none => exact .inr ⟨pk, rfl, hb⟩
          | some b => simp [txBegin, hp, hs, hb] at h

theorem slotStartOn_eq_none {cell : Cell} (h : slotStartOn cfg m cell = none) :
    (slotSetup cfg m cell).cellDecison = .tx ∧ txBegin cfg (slotSetup cfg m cell) = none := by
  dsimp only [slotStartOn] at h
  split_ifs at h with htx
  · exact ⟨htx, Option.map_eq_none'.1 h⟩

theorem loopHead_eq_none (h : loopHead cfg m = none) :
    ∃ cell, cfg.slotframe.getCell m.timeslot = some cell ∧
      slotStartOn cfg { m with cell := some cell } cell = none := by
  dsimp only [loopHead] at h
  split_ifs at h
  · split at h <;> cases h
  · split at h
    · rename_i cell hc
      rw [hc] at h
      exact ⟨cell, hc, h⟩
    · cases h

theorem driftCredit_eq_none (h : driftCredit m = none) : m.lastDrift ≠ 0 ∧ m.lastRf = none := by
  unfold driftCredit at h
  split at h
  · rename_i hd
    refine ⟨hd, ?_⟩
    cases hrf : m.lastRf with
    | none => rfl
    | some src =>
        simp only [hrf, Option.bind_eq_bind, Option.some_bind] at h
        split at h
        · split at h <;> cases h
        · cases h
  · cases h

theorem rxResume_eq_none {w : RxWait} (h : rxResume m r w = none) :
    (w = .guardEnd ∨ w = .ack) ∧ driftCredit m = none := by
  cases w <;> simp only [rxResume] at h
  case guardStart => cases h
  case guardEnd =>
    split_ifs at h
    exact ⟨.inl rfl, Option.map_eq_none'.1 h⟩
  case ack => exact ⟨.inr rfl, Option.map_eq_none'.1 h⟩

/-- Past the break test of `BUSYWAIT_UNTIL_ABS`, the reading lies in the window
`[t0, t0 + duration]`. -/
theorem window_of_not_break {M t0 d now : Int} (hM : 0 < M) (hd : d < M)
    (h : ¬(t0 + d - now) % M > d) : (now - t0) % M ≤ d := by
  have h₀ := Int.emod_nonneg (t0 + d - now) hM.ne'
  have hrw : now - t0 = (d - (t0 + d - now) % M) + M * -((t0 + d - now) / M) := by
    have hq := Int.emod_add_ediv (t0 + d - now) M
    rw [mul_neg]
    generalize M * ((t0 + d - now) / M) = t at hq
    omega
  rw [hrw, Int.add_mul_emod_self_left, Int.emod_eq_of_lt (by omega) (by omega)]
  omega

/-- The CCA wait always ends when its window is shorter than `2^15` ticks. -/
theorem busywaitCca_isSome (plat : Platform) {d : Nat} (hd : d < 2 ^ 15) (t0 now s : Nat)
    (c : Bool) : (busywaitCca plat t0 d now s c).isSome := by
  by_cases h : ((t0 + d : Int) - now) % 2 ^ plat.clockBits > d
  · simp [busywaitCca, h]
  · have hM : ((2 ^ 15 : Nat) : Int) ≤ 2 ^ plat.clockBits := by
      exact_mod_cast Nat.pow_le_pow_right (by decide) (by have := plat.clockBits_ge; omega)
    exact busywaitCca_isSome_of_window plat (window_of_not_break (by omega) (by omega) h) hd s c

section Queue

variable {a : RimeAddr} (hn : m.n = some a) (hq : (m.store.neighborQueueFromAddr a).isSome)
include hn hq

theorem ackDrift_isSome (st : Nat) : (ackDrift m st).isSome := by
  obtain ⟨q, hq⟩ := Option.isSome_iff_exists.1 hq
  simp [ackDrift, hn, hq]

theorem ackDecode_isSome (b : List UInt8) : (ackDecode m b).isSome := by
  unfold ackDecode
  split
  · rfl
  · rw [Option.isSome_map']
    exact ackDrift_isSome hn hq _

theorem ackRead_isSome : (ackRead m r).isSome :=
  ackDecode_isSome (m := { m with
    len := if r.ackPending || r.pendingIrq then uint8 r.readLen else m.len
    waitingForRadioInterrupt := false }) hn hq r.ackbuf

theorem ackPart_isSome : (ackPart m r).isSome := by
  unfold ackPart
  split_ifs
  · exact ackRead_isSome hn hq
  · rfl

/-- With the slot's queue in the table, a TX resume point has no successor only when the
CCA wait never ends. -/
theorem txResume_eq_none {w : TxWait} (h : txResume cfg m r w = none) :
    w = .cca ∧ busywaitCca cfg.plat m.start (cfg.plat.TsCCAOffset + cfg.plat.TsCCA) r.ccaNow
      (uint8 r.stale) r.channelClear = none := by
  have hpart : ∀ m₁ : Mac, m₁.n = m.n → m₁.store = m.store → ackPart m₁ r ≠ none :=
    fun m₁ hn₁ hs₁ => Option.isSome_iff_ne_none.1 (ackPart_isSome (hn₁.trans hn) (hs₁ ▸ hq))
  cases w <;> simp only [txResume] at h
  case cca =>
    cases hb : busywaitCca cfg.plat m.start (cfg.plat.TsCCAOffset + cfg.plat.TsCCA) r.ccaNow
      (uint8 r.stale) r.channelClear with
    | none => exact ⟨rfl, rfl⟩
    | some cs =>
        simp only [hb, Option.bind_eq_bind, Option.some_bind] at h
        split at h <;> cases h
  case transmit => split at h <;> cases h
  case ackWait =>
    split at h
    · exact absurd h (hpart _ rfl rfl)
    · cases h
  case ackDetect =>
    by_cases hc : uint8 (uint8 r.stale ||| if r.ackDetect then 1 else 0) ≠ 0
    · rw [if_pos hc] at h
      exact absurd h (hpart _ rfl rfl)
    · rw [if_neg hc] at h
      cases h
  case ackRead => exact absurd h (Option.isSome_iff_ne_none.1 (ackRead_isSome hn hq))

end Queue

theorem attemptOutcome_isSome {B : BufferSize} {s : Store} {p : SlotRef} {pk : TschPacket}
    {b : QueueBuf} (hpk : s.slot p = some pk) (hb : pk.pkt = some b) (n cellAddr : RimeAddr)
    (bo : Bool) (success random : Nat) :
    (s.attemptOutcome B p n cellAddr bo success random).isSome := by
  have hf : (s.failedAttempt B p n bo random).isSome := by
    simp only [failedAttempt, hpk, hb, Option.some_bind, Option.map_some']
    split_ifs <;> rfl
  have hs : (s.succeededAttempt B p n cellAddr).isSome := by
    simp only [succeededAttempt, hpk, hb, Option.some_bind, Option.map_some']
    rfl
  unfold attemptOutcome
  split_ifs <;> simp only [Option.isSome_map', hf, hs]

theorem txOutcome_isSome {p : SlotRef} {cell : Cell} {pk : TschPacket} {b : QueueBuf}
    (hp : m.p = some p) (hn : m.n = some cell.nodeAddress) (hc : m.cell = some cell)
    (hpk : m.store.slot p = some pk) (hb : pk.pkt = some b) (success random : Nat) :
    (txOutcome cfg m success random).isSome := by
  obtain ⟨⟨s, ret⟩, ho⟩ := Option.isSome_iff_exists.1
    (attemptOutcome_isSome (B := cfg.B) hpk hb cell.nodeAddress cell.nodeAddress
      (cell.linkOptions.shared && !m.isBroadcast) success random)
  simp [txOutcome, hp, hn, hc, hpk, ho]

/-! ## Who raises `waiting_for_radio_interrupt` -/

theorem ackDrift_waiting {st : Nat} (h : ackDrift m st = some m') :
    m'.waitingForRadioInterrupt = m.waitingForRadioInterrupt := by
  simp only [ackDrift, Option.bind_eq_bind, Option.bind_eq_some, Option.some.injEq] at h
  obtain ⟨n, -, q, -, rfl⟩ := h
  split <;> rfl

/-- Reading the ACK lowers the flag (line 790). -/
theorem ackRead_waiting (h : ackRead m r = some x) : x.mac.waitingForRadioInterrupt = false := by
  unfold ackRead ackDecode at h
  split at h
  · cases h; rfl
  · obtain ⟨m₁, h₁, rfl⟩ := Option.map_eq_some'.1 h
    exact ackDrift_waiting h₁

theorem ackPart_waiting (h : ackPart m r = some x) :
    x.mac.waitingForRadioInterrupt = false ∨ ∃ m₁, x = .yield m₁ ∧ m₁.pc = .tx .ackRead := by
  unfold ackPart at h
  split_ifs at h
  · exact .inl (ackRead_waiting h)
  · cases h; exact .inr ⟨_, rfl, rfl⟩

/-- A TX resume point leaves the flag as it found it before the ACK wait, raises it only
to yield inside the ACK wait, and lowers it when the slot ends after the ACK wait. -/
theorem txResume_waiting {w : TxWait} (h : txResume cfg m r w = some x) :
    ((w = .cca ∨ w = .transmit) ∧ x.mac.waitingForRadioInterrupt = m.waitingForRadioInterrupt) ∨
      (∃ m₁, x = .yield m₁ ∧ (m₁.pc = .tx .ackDetect ∨ m₁.pc = .tx .ackRead)) ∨
      x.mac.waitingForRadioInterrupt = false := by
  have hpart : ∀ {m₁ : Mac}, ackPart m₁ r = some x →
      (∃ m₁, x = .yield m₁ ∧ (m₁.pc = .tx .ackDetect ∨ m₁.pc = .tx .ackRead)) ∨
        x.mac.waitingForRadioInterrupt = false := fun hx =>
    (ackPart_waiting hx).elim .inr fun ⟨m₁, hx, hpc⟩ => .inl ⟨m₁, hx, .inr hpc⟩
  cases w <;> simp only [txResume, Option.bind_eq_bind, Option.bind_eq_some] at h
  case cca =>
    obtain ⟨cs, -, h⟩ := h
    split at h <;> cases h <;> exact .inl ⟨.inl rfl, rfl⟩
  case transmit => split at h <;> cases h <;> exact .inl ⟨.inr rfl, rfl⟩
  case ackWait =>
    split at h
    · exact .inr (hpart h)
    · cases h; exact .inr (.inl ⟨_, rfl, .inl rfl⟩)
  case ackDetect =>
    by_cases hc : uint8 (uint8 r.stale ||| if r.ackDetect then 1 else 0) ≠ 0
    · rw [if_pos hc] at h
      exact .inr (hpart h)
    · rw [if_neg hc] at h
      cases h; exact .inr (.inr rfl)
  case ackRead => exact .inr (.inr (ackRead_waiting h))

theorem driftCredit_waiting (h : driftCredit m = some m') :
    m'.waitingForRadioInterrupt = m.waitingForRadioInterrupt := by
  unfold driftCredit at h
  split at h
  · simp only [Option.bind_eq_bind, Option.bind_eq_some] at h
    obtain ⟨src, -, h⟩ := h
    split at h
    · split at h <;> cases h <;> rfl
    · cases h; rfl
  · cases h; rfl

/-- The RX branch does not touch the flag. -/
theorem rxResume_waiting {w : RxWait} (h : rxResume m r w = some x) :
    x.mac.waitingForRadioInterrupt = m.waitingForRadioInterrupt := by
  cases w <;> simp only [rxResume] at h
  case guardStart => cases h; rfl
  case guardEnd =>
    split_ifs at h
    · cases h; rfl
    · obtain ⟨m₁, h₁, rfl⟩ := Option.map_eq_some'.1 h
      exact driftCredit_waiting h₁
    · cases h; rfl
  case ack =>
    obtain ⟨m₁, h₁, rfl⟩ := Option.map_eq_some'.1 h
    exact driftCredit_waiting h₁

/-- The end-of-slot accounting leaves the flag and the slot's cell alone. -/
theorem endOfSlot_waiting_cell (m : Mac) (now : Nat) :
    (endOfSlot cfg m now).waitingForRadioInterrupt = m.waitingForRadioInterrupt ∧
      (endOfSlot cfg m now).cell = m.cell := by
  have h : (slotEnd cfg m).1.waitingForRadioInterrupt = m.waitingForRadioInterrupt ∧
      (slotEnd cfg m).1.cell = m.cell := by
    unfold slotEnd
    split_ifs <;> exact ⟨rfl, rfl⟩
  dsimp only [endOfSlot]
  split_ifs <;> exact h

/-! ## The invariant -/

/-- The cells the slot start takes the packet at `p` for. -/
def CellTakes (cell : Cell) (p : SlotRef) : Prop :=
  cell.linkOptions.tx = true ∧ cell.linkType = .normal ∧
    (p.addr = cell.nodeAddress ∨
      cell.nodeAddress = broadcastCellAddress ∧ cell.linkOptions.shared = true)

/-- `p` points at a packet with a queue buffer, `cell` is set and takes it, and `n` is the
queue of the cell's neighbor, in the table. -/
def TxReady (m : Mac) : Prop :=
  ∃ p pk b cell, m.p = some p ∧ m.store.slot p = some pk ∧ pk.pkt = some b ∧
    m.cell = some cell ∧ m.n = some cell.nodeAddress ∧ cell.nodeAddress ∈ m.store.keys ∧
    CellTakes cell p

/-- Inside `CELL_TX` the slot is `TxReady`; the flag is raised only at the yields of the
ACK wait. -/
structure CtrlInv (m : Mac) : Prop where
  tx : m.pc.isTx = true → TxReady m
  waiting : m.waitingForRadioInterrupt = true → m.pc = .tx .ackDetect ∨ m.pc = .tx .ackRead

theorem CtrlInv.waiting_eq_false (h : CtrlInv m) (h₁ : m.pc ≠ .tx .ackDetect)
    (h₂ : m.pc ≠ .tx .ackRead) : m.waitingForRadioInterrupt = false :=
  Bool.eq_false_iff.2 fun ht => (h.waiting ht).elim h₁ h₂

/-- Outside `CELL_TX`, a state with the flag down keeps the invariant. -/
theorem CtrlInv.of_idle (hpc : m.pc.isTx = false) (hw : m.waitingForRadioInterrupt = false) :
    CtrlInv m :=
  ⟨fun h => (by rw [hpc] at h; cases h), fun h => (by rw [hw] at h; cases h)⟩

/-- What a resume hands on: a yield keeps the invariant, a slot that ends has the flag
down, and a `CELL_TX` slot ends `TxReady`. -/
def ResumedOk : Resumed → Prop
  | .yield m => CtrlInv m
  | .txDone m _ => m.waitingForRadioInterrupt = false ∧ TxReady m
  | .slotDone m => m.waitingForRadioInterrupt = false

/-- A packet the slot start selects comes with the queue of the cell's neighbor. -/
theorem selectPacket_queue {s : Store} {cell : Cell} {p : SlotRef}
    (h : (selectPacket cfg s cell).2.1 = some p) :
    ∃ q, s.neighborQueueFromAddr cell.nodeAddress = some q ∧
      (selectPacket cfg s cell).1 = some (cell.nodeAddress, q) := by
  unfold selectPacket at h ⊢
  by_cases htx : cell.linkOptions.tx ∧ cell.linkType ≠ .advertising
  · rw [if_pos htx] at h ⊢
    cases hq : s.neighborQueueFromAddr cell.nodeAddress with
    | none => simp [hq] at h
    | some q =>
        refine ⟨q, rfl, ?_⟩
        dsimp only
        split
        · rfl
        · split_ifs <;> rfl
  · rw [if_neg htx] at h
    cases h

/-- The slot start takes a packet only for a cell that `CellTakes` it. -/
theorem selectPacket_takes {s : Store} {cell : Cell} {p : SlotRef}
    (h : (selectPacket cfg s cell).2.1 = some p) : CellTakes cell p := by
  unfold selectPacket at h
  by_cases htx : cell.linkOptions.tx ∧ cell.linkType ≠ .advertising
  · rw [if_pos htx] at h
    have hnormal : cell.linkType = .normal := by
      cases hl : cell.linkType
      · rfl
      · exact absurd hl htx.2
    refine ⟨htx.1, hnormal, ?_⟩
    split at h
    · cases h
    · split at h
      · cases h
        exact .inl rfl
      · split_ifs at h with hb
        exact .inr ⟨hb.1, hb.2⟩
  · rw [if_neg htx] at h
    cases h

theorem slotSetup_queue {cell : Cell} {p : SlotRef} (h : (slotSetup cfg m cell).p = some p) :
    (slotSetup cfg m cell).n = some cell.nodeAddress ∧
      cell.nodeAddress ∈ (slotSetup cfg m cell).store.keys := by
  obtain ⟨q, hq, hsel⟩ := selectPacket_queue h
  refine ⟨by simp only [slotSetup, hsel, Option.map_some'], ?_⟩
  rw [slotSetup_keys, ← lookup_isSome_iff_mem_keys, hq]
  rfl

theorem loopHead_ok (hw : m.waitingForRadioInterrupt = false) (h : loopHead cfg m = some x) :
    ResumedOk x := by
  rcases loopHead_cases h with rfl | rfl | ⟨cell, -, h⟩
  · exact .of_idle rfl hw
  · exact hw
  · rcases slotStartOn_cases h with ⟨m', hm', rfl⟩ | rfl | rfl
    · obtain ⟨p, pk, b, hp, hpk, hb, rfl⟩ := txBegin_spec hm'
      obtain ⟨hn, hk⟩ := slotSetup_queue hp
      exact ⟨fun _ => ⟨p, pk, b, cell, hp, hpk, hb, rfl, hn, hk, selectPacket_takes hp⟩,
        fun h => by cases h⟩
    · exact .of_idle rfl rfl
    · rfl

/-- A `CELL_TX` resume point keeps the slot's packet, and raises the flag only when the slot
yields inside the ACK wait. -/
theorem txResume_ok {w : TxWait} (h : CtrlInv m) (hpc : m.pc = .tx w)
    (hx : txResume cfg m r w = some x) : ResumedOk x := by
  obtain ⟨hv, hn, hcases⟩ := txResume_spec hx
  obtain ⟨p, pk, b, cell, hp, hpk, hb, hc, hn', hk, ht⟩ := h.tx (by rw [hpc]; rfl)
  have hs : x.mac.store = m.store := congrArg SlotView.store hv
  have htx : TxReady x.mac :=
    ⟨p, pk, b, cell, (congrArg SlotView.p hv).trans hp, hs ▸ hpk, hb,
      (congrArg SlotView.cell hv).trans hc, hn.trans hn', hs ▸ hk, ht⟩
  -- the flag is down unless the slot yields inside the ACK wait
  have hwait : x.mac.waitingForRadioInterrupt = false ∨
      ∃ m₁, x = .yield m₁ ∧ (m₁.pc = .tx .ackDetect ∨ m₁.pc = .tx .ackRead) := by
    rcases txResume_waiting hx with ⟨hw, hwait⟩ | h' | h'
    · refine .inl (hwait.trans (h.waiting_eq_false ?_ ?_)) <;> rw [hpc] <;>
        rcases hw with rfl | rfl <;> decide
    · exact .inr h'
    · exact .inl h'
  cases x with
  | yield m₁ =>
      refine ⟨fun _ => htx, fun hw => ?_⟩
      rcases hwait with h' | ⟨m₂, ⟨⟩, hpc₂⟩
      · exact Bool.noConfusion (hw.symm.trans h')
      · exact hpc₂
  | txDone m₁ s =>
      rcases hwait with h' | ⟨m₂, ⟨⟩, -⟩
      exact ⟨h', htx⟩
  | slotDone m₁ =>
      rcases hcases with ⟨w', ⟨⟩, -⟩ | ⟨s, ⟨⟩, -⟩

/-- A `CELL_RX` resume point never raises the flag. -/
theorem rxResume_ok {w : RxWait} (h : CtrlInv m) (hpc : m.pc = .rx w)
    (hx : rxResume m r w = some x) : ResumedOk x := by
  have hwait := (rxResume_waiting hx).trans
    (h.waiting_eq_false (by simp [hpc]) (by simp [hpc]))
  rcases (rxResume_spec hx).2 with ⟨w', hy, hpc'⟩ | ⟨hd, -⟩
  · cases x with
    | yield m₁ => exact .of_idle (by rw [show m₁.pc = .rx w' from hpc']; rfl) hwait
    | txDone => cases hy
    | slotDone => cases hy
  · cases x with
    | slotDone => exact hwait
    | yield => cases hd
    | txDone => cases hd

theorem resume_ok (h : CtrlInv m) (hx : resume cfg m r = some x) : ResumedOk x := by
  unfold resume at hx
  split at hx
  · rename_i hpc
    refine loopHead_ok ?_ hx
    exact h.waiting_eq_false (by rw [hpc]; decide) (by rw [hpc]; decide)
  · rename_i hpc
    exact loopHead_ok (h.waiting_eq_false (by rw [hpc]; decide) (by rw [hpc]; decide)) hx
  · exact txResume_ok h ‹_› hx
  · exact rxResume_ok h ‹_› hx

/-! ## Every run -/

/-- A slot start without a successor: the decision is `CELL_TX` and `p` or `p->pkt` is
NULL. -/
theorem slotStart_eq_none {cell : Cell} (h : slotStartOn cfg m cell = none)
    (hs : RingsOk cfg.B m.store) :
    (slotSetup cfg m cell).cellDecison = .tx ∧
      ((selectPacket cfg m.store cell).2.1 = none ∨
        ∃ p pk, (selectPacket cfg m.store cell).2.1 = some p ∧ m.store.slot p = some pk ∧
          pk.pkt = none) := by
  obtain ⟨hd, ht⟩ := slotStartOn_eq_none h
  refine ⟨hd, ?_⟩
  rcases txBegin_eq_none ht with hp | ⟨p, hp, hslot | ⟨pk, hpk, hb⟩⟩
  · exact .inl hp
  · obtain ⟨q, hq, -, -⟩ := slotSetup_isHead hs cell hp
    simp [slot, hq] at hslot
  · rw [(slotSetup_sameRings m cell).slot_eq] at hpk
    exact .inr ⟨p, pk, hp, hpk, hb⟩

/-- `send_list` keeps every head of a ring, with what it holds. -/
theorem sendList_heads {B : BufferSize} {s : Store} (hs : RingsOk B s) (k : Nat)
    (framer : Packetbuf → Option (List UInt8)) (sent ptr : Nat)
    (bufs : List (Packetbuf × Option Nat)) {x : SlotRef} (hx : IsHead B s x) :
    IsHead B (s.sendList B k framer sent ptr bufs) x ∧
      (s.sendList B k framer sent ptr bufs).slot x = s.slot x := by
  induction bufs generalizing s with
  | nil => exact ⟨hx, rfl⟩
  | cons b bufs ih =>
      rcases b with ⟨pb, alloc⟩
      obtain ⟨hs₁, hh, -⟩ := sendOnePacket_rings hs k framer sent ptr pb alloc rfl
      unfold sendList
      split_ifs
      · obtain ⟨h₁, h₂⟩ := ih hs₁ (hh x hx).1
        exact ⟨h₁, h₂.trans (hh x hx).2⟩
      · exact hh x hx

/-- A main-task call that only changes the store keeps the invariant when it leaves the slot
of a running `CELL_TX` alone and removes no queue. -/
theorem CtrlInv.store {s : Store} (h : CtrlInv m)
    (hslot : m.pc.isTx = true → ∀ p, m.p = some p → s.slot p = m.store.slot p)
    (hk : m.store.keys <+: s.keys) : CtrlInv { m with store := s } where
  tx hpc := by
    obtain ⟨p, pk, b, cell, hp, hpk, hb, hc, hn, hkey, ht⟩ := h.tx hpc
    exact ⟨p, pk, b, cell, hp, (hslot hpc p hp).trans hpk, hb, hc, hn, hk.subset hkey, ht⟩
  waiting := h.waiting

theorem CtrlInv.powercycle (h : CtrlInv m) (hm : powercycle cfg m r = some m') : CtrlInv m' := by
  rcases powercycle_cases hm with h₁ | ⟨m₁, s, m₂, h₁, h₂, rfl⟩ | ⟨m₁, h₁, rfl⟩
  · exact resume_ok h h₁
  · obtain ⟨-, -, -, -, -, -, -, -, -, -, -, rfl⟩ := txOutcome_spec h₂
    exact .of_idle rfl ((endOfSlot_waiting_cell _ _).1.trans (resume_ok h h₁).1)
  · exact .of_idle rfl ((endOfSlot_waiting_cell _ _).1.trans (resume_ok h h₁))

/-- Every event keeps `CtrlInv`: the main task writes only the tail of a ring, never the head
a running `CELL_TX` holds, and never removes a queue. -/
theorem step_ctrlInv (hf : FifoInv cfg.B m.fifoView) (h : CtrlInv m) {e : Event}
    (hs : step cfg m e = some m') : CtrlInv m' := by
  have head : ∀ {s : Store}, (∀ x, IsHead cfg.B m.store x → s.slot x = m.store.slot x) →
      m.pc.isTx = true → ∀ p, m.p = some p → s.slot p = m.store.slot p := fun hs hpc p hp => by
    obtain ⟨x, -, hx, hhead, -⟩ := hf.in_flight hpc
    cases hp.symm.trans hx
    exact hs p hhead
  cases e with
  | sendPacket sent ptr pb alloc =>
      cases hs
      exact h.store
        (head fun x hx => ((sendOnePacket_rings hf.rings _ _ _ _ _ _ rfl).2.1 x hx).2)
        (sendOnePacket_grows _ _ _ _ _ _).1
  | sendList sent ptr bufs =>
      cases hs
      exact h.store (head fun x hx => (sendList_heads hf.rings _ _ _ _ bufs hx).2)
        (sendList_grows _ _ _ _ _).1
  | dispatch =>
      obtain ⟨-, -, -, -, -, rfl⟩ := tschTxCallback_spec hs
      exact ⟨h.tx, h.waiting⟩
  | powercycle r => exact h.powercycle hs
  | softAck => cases hs; exact ⟨h.tx, h.waiting⟩
  | interruptExit => cases hs; exact ⟨h.tx, fun hw => by cases hw⟩

theorem reachable_ctrlInv (hm : Reachable cfg m) : CtrlInv m := by
  induction hm with
  | init now => exact .of_idle rfl rfl
  | step e hm hs ih => exact step_ctrlInv (reachable_fifoInv hm) ih hs

variable (cfg) in
/-- Inside `CELL_TX`, whatever the main task and the radio interrupt ran between the slot's
resumes: `p` is the head of its ring and has a queue buffer, `n` is the queue of the cell's
neighbor, still in the table, and the cell is a TX cell of the normal type whose neighbor is
the frame's receiver, unless it is a shared cell addressed to the broadcast address. -/
theorem tx_slot_holds_its_packet (hm : Reachable cfg m) (htx : m.pc.isTx = true) :
    ∃ p pk b cell, m.p = some p ∧ m.store.IsHead cfg.B p ∧ m.store.slot p = some pk ∧
      pk.pkt = some b ∧ m.cell = some cell ∧ m.n = some cell.nodeAddress ∧
      cell.nodeAddress ∈ m.store.keys ∧ cell.linkOptions.tx = true ∧ cell.linkType = .normal ∧
      (b.receiver = cell.nodeAddress ∨
        cell.nodeAddress = broadcastCellAddress ∧ cell.linkOptions.shared = true) := by
  have hf := reachable_fifoInv hm
  obtain ⟨p, pk, b, cell, hp, hpk, hb, hc, hn, hk, htx', hnormal, hcell⟩ :=
    (reachable_ctrlInv hm).tx htx
  obtain ⟨x, -, hx, hhead, -⟩ := hf.in_flight htx
  cases hp.symm.trans hx
  -- the packet at the head of `p`'s ring is addressed to that ring's neighbor
  obtain ⟨pk', L, hL, hpk'⟩ := hhead.exists_ringOf hf.rings
  cases hpk.symm.trans hpk'
  have hrecv := (hf.ring_pkts _ _ hL pk (List.mem_cons_self _ _)).2.2 b hb
  exact ⟨p, pk, b, cell, hp, hhead, hpk, hb, hc, hn, hk, htx', hnormal, hrecv ▸ hcell⟩

/-- Two calls of `powercycle` after a `send_packet` take the shipped driver into the CCA wait
of `CELL_TX`. -/
theorem shared_cell_tx_holds_packet :
    (run shipped (init shipped 0) (sharedCellAckTrace.take 3)).map (·.pc) = some (.tx .cca) ∧
      ∀ m, run shipped (init shipped 0) (sharedCellAckTrace.take 3) = some m →
        ∃ p pk b cell, m.p = some p ∧ m.store.IsHead shipped.B p ∧ m.store.slot p = some pk ∧
          pk.pkt = some b ∧ m.cell = some cell ∧ m.n = some cell.nodeAddress ∧
          cell.nodeAddress ∈ m.store.keys ∧ cell.linkOptions.tx = true ∧
          cell.linkType = .normal ∧
          (b.receiver = cell.nodeAddress ∨
            cell.nodeAddress = broadcastCellAddress ∧ cell.linkOptions.shared = true) := by
  have h : (run shipped (init shipped 0) (sharedCellAckTrace.take 3)).map (·.pc) =
      some (.tx .cca) := by decide
  refine ⟨h, fun m hm => tx_slot_holds_its_packet shipped (reachable_of_run shipped (.init 0) hm) ?_⟩
  simp only [hm, Option.map_some', Option.some.injEq] at h
  rw [h]
  rfl

variable (cfg) in
/-- `waiting_for_radio_interrupt` is raised only while the TX slot waits for its ACK, so
`tsch_resume_powercycle` moves the timer up only there. -/
theorem radio_wait_only_at_ack (hm : Reachable cfg m) (hw : m.waitingForRadioInterrupt = true) :
    m.pc = .tx .ackDetect ∨ m.pc = .tx .ackRead :=
  (reachable_ctrlInv hm).waiting hw

/-- The shipped driver raises the flag when the ACK of `sharedCellAckTrace`'s frame is not
detected at once. -/
theorem ack_wait_raises_flag :
    (run shipped (init shipped 0) (sharedCellAckTrace.take 5 ++ [.powercycle (quietRadio 600)])).map
        (·.waitingForRadioInterrupt) = some true ∧
      ∀ m, run shipped (init shipped 0)
          (sharedCellAckTrace.take 5 ++ [.powercycle (quietRadio 600)]) = some m →
        m.pc = .tx .ackDetect ∨ m.pc = .tx .ackRead := by
  have h : (run shipped (init shipped 0)
      (sharedCellAckTrace.take 5 ++ [.powercycle (quietRadio 600)])).map
        (·.waitingForRadioInterrupt) = some true := by decide
  refine ⟨h, fun m hm => radio_wait_only_at_ack shipped (reachable_of_run shipped (.init 0) hm) ?_⟩
  simpa [hm] using h

variable (cfg) in
/-- A call of `powercycle` from a reachable state has no successor only at a slot start that
takes `CELL_TX` with a NULL `p` or a NULL `p->pkt`, in a CCA wait that never ends, or where
an RX slot credits a drift with `last_rf` NULL.  The transmit, the ACK wait and read, the
Sync IE and the TX outcome never fault. -/
theorem powercycle_faults (hm : Reachable cfg m) (h : powercycle cfg m r = none) :
    ((m.pc = .begin ∨ m.pc = .slotStart) ∧ ∃ cell, cfg.slotframe.getCell m.timeslot = some cell ∧
        (slotSetup cfg m cell).cellDecison = .tx ∧
        ((selectPacket cfg m.store cell).2.1 = none ∨
          ∃ p pk, (selectPacket cfg m.store cell).2.1 = some p ∧ m.store.slot p = some pk ∧
            pk.pkt = none)) ∨
      (m.pc = .tx .cca ∧ 2 ^ 15 ≤ cfg.plat.TsCCAOffset + cfg.plat.TsCCA ∧
        busywaitCca cfg.plat m.start (cfg.plat.TsCCAOffset + cfg.plat.TsCCA) r.ccaNow
          (uint8 r.stale) r.channelClear = none) ∨
      ((m.pc = .rx .guardEnd ∨ m.pc = .rx .ack) ∧ m.lastDrift ≠ 0 ∧ m.lastRf = none) := by
  have hc := reachable_ctrlInv hm
  have hs := (reachable_fifoInv hm).rings
  -- the TX outcome of a `TxReady` slot always has a successor
  have hres : resume cfg m r = none := by
    cases hx : resume cfg m r with
    | none => rfl
    | some x =>
        cases x with
        | txDone m₁ st =>
            obtain ⟨-, p, pk, b, cell, hp, hpk, hb, hc', hn, -⟩ := resume_ok hc hx
            simp only [powercycle, hx, Option.map_eq_none'] at h
            exact absurd h (Option.ne_none_iff_isSome.2 (txOutcome_isSome hp hn hc' hpk hb _ _))
        | _ => simp [powercycle, hx] at h
  unfold resume at hres
  split at hres
  · rename_i hpc
    dsimp only at hres
    obtain ⟨cell, hcell, hst⟩ := loopHead_eq_none hres
    have h₁ := slotStart_eq_none hst hs
    exact .inl ⟨.inl hpc, cell, hcell, h₁⟩
  · rename_i hpc
    obtain ⟨cell, hcell, hst⟩ := loopHead_eq_none hres
    have h₁ := slotStart_eq_none hst hs
    exact .inl ⟨.inr hpc, cell, hcell, h₁⟩
  · rename_i w hpc
    obtain ⟨p, pk, b, cell, hp, hpk, hb, hc', hn, hk, -⟩ := hc.tx (by rw [hpc]; rfl)
    obtain ⟨rfl, hb'⟩ := txResume_eq_none hn (lookup_isSome_iff_mem_keys.2 hk) hres
    refine .inr (.inl ⟨hpc, Nat.le_of_not_lt fun hd => ?_, hb'⟩)
    simpa [hb'] using busywaitCca_isSome cfg.plat hd m.start r.ccaNow (uint8 r.stale) r.channelClear
  · rename_i w hpc
    obtain ⟨hw, hd⟩ := rxResume_eq_none hres
    refine .inr (.inr ⟨?_, driftCredit_eq_none hd⟩)
    rcases hw with rfl | rfl
    exacts [.inl hpc, .inr hpc]

/-- `send_packet` of a frame whose queue buffer could not be allocated, then the beacon slot. -/
def nullBufferTrace : List Event :=
  [.sendPacket 0 0 ⟨cellAddress1, [1, 2, 3], false, 0⟩ none, .powercycle (quietRadio 100)]

/-- The next shared cell takes the packet with its NULL buffer, and `powercycle` dereferences
`p->pkt`. -/
theorem null_buffer_slot_faults :
    (run shipped (init shipped 0) nullBufferTrace).map
        (fun m => (powercycle shipped m (quietRadio 600)).isSome) = some false ∧
      ∀ m, run shipped (init shipped 0) nullBufferTrace = some m →
        ((m.pc = .begin ∨ m.pc = .slotStart) ∧
          ∃ cell, shipped.slotframe.getCell m.timeslot = some cell ∧
            (slotSetup shipped m cell).cellDecison = .tx ∧
            ((selectPacket shipped m.store cell).2.1 = none ∨
              ∃ p pk, (selectPacket shipped m.store cell).2.1 = some p ∧
                m.store.slot p = some pk ∧ pk.pkt = none)) ∨
          (m.pc = .tx .cca ∧ 2 ^ 15 ≤ shipped.plat.TsCCAOffset + shipped.plat.TsCCA ∧
            busywaitCca shipped.plat m.start (shipped.plat.TsCCAOffset + shipped.plat.TsCCA)
              (quietRadio 600).ccaNow (uint8 (quietRadio 600).stale)
              (quietRadio 600).channelClear = none) ∨
          ((m.pc = .rx .guardEnd ∨ m.pc = .rx .ack) ∧ m.lastDrift ≠ 0 ∧ m.lastRf = none) := by
  have h : (run shipped (init shipped 0) nullBufferTrace).map
      (fun m => (powercycle shipped m (quietRadio 600)).isSome) = some false := by decide
  refine ⟨h, fun m hm => powercycle_faults shipped (reachable_of_run shipped (.init 0) hm) ?_⟩
  simpa [hm] using h

/-! ## The slot decision after a `CELL_TX` slot

`cell_decison` is a static of `powercycle`: an on cell overwrites it only through the TX
option, or through the RX option when it is not `CELL_TX` (lines 633-649). -/

variable (cfg) in
/-- A cell without `LINK_OPTION_TX` after a `CELL_TX` slot selects no packet and keeps
`CELL_TX`, whether or not it has `LINK_OPTION_RX`. -/
theorem slotSetup_keeps_cell_tx {cell : Cell} (htx : cell.linkOptions.tx = false)
    (hprev : m.cellDecison = .tx) :
    (slotSetup cfg m cell).p = none ∧ (slotSetup cfg m cell).cellDecison = .tx := by
  simp [slotSetup, selectPacket, slotDecision, htx, hprev]

variable (cfg) in
theorem slotStartOn_of_kept_cell_tx {cell : Cell} (htx : cell.linkOptions.tx = false)
    (hprev : m.cellDecison = .tx) : slotStartOn cfg m cell = none := by
  obtain ⟨hp, hd⟩ := slotSetup_keeps_cell_tx cfg htx hprev
  simp only [slotStartOn, hd, if_true, txBegin, hp]
  rfl

/-- The slot start of such a cell takes the `CELL_TX` branch with `p = NULL`: `powercycle`
has no successor. -/
theorem powercycle_of_kept_cell_tx {cell : Cell} (hpc : m.pc = .slotStart)
    (hsync : m.isSync = true) (hon : m.state ≠ .off) (hwq : m.store.workingOnQueue = false)
    (hcell : cfg.slotframe.getCell m.timeslot = some cell) (htx : cell.linkOptions.tx = false)
    (hprev : m.cellDecison = .tx) : powercycle cfg m r = none := by
  have hl : loopHead cfg m = none := by
    simp only [loopHead, hsync, ne_eq, hon, not_false_eq_true, and_self, if_true, hcell, hwq]
    exact slotStartOn_of_kept_cell_tx cfg htx hprev
  simp only [powercycle, resume, hpc, hl]

def txOnlyCell : Cell :=
  ⟨0, ⟨true, false, false, false⟩, .normal, cellAddress1⟩

def rxOnlyCell : Cell :=
  ⟨0, ⟨false, true, false, false⟩, .normal, cellAddress1⟩

/-- The shipped driver on a two-slot slotframe: a dedicated TX cell, then an RX-only cell. -/
def txThenRxConfig : Config :=
  { shipped with
    slotframe := ⟨2, 2, [txOnlyCell, rxOnlyCell], rfl, by decide⟩
    links := [txOnlyCell] }

/-- A packet for `cellAddress1` attempted in slot 0, where CCA finds the channel busy. -/
def txCollisionTrace : List Event :=
  [.sendPacket 0 0 ⟨cellAddress1, [1, 2, 3], false, 0⟩ (some 0),
    .powercycle (quietRadio 100),
    .powercycle { quietRadio 100 with ccaNow := 59, channelClear := false }]

/-- After the `CELL_TX` slot 0, the RX-only cell of slot 1 keeps `CELL_TX` with `p = NULL`:
its slot start dereferences the NULL packet, and the run ends there. -/
theorem rx_cell_inherits_cell_tx :
    (run txThenRxConfig (init txThenRxConfig 0) txCollisionTrace).map (fun m =>
        (m.timeslot, m.attempts.length, decide (m.cellDecison = .tx),
          decide ((slotSetup txThenRxConfig { m with cell := some rxOnlyCell } rxOnlyCell).cellDecison
            = .tx),
          (slotSetup txThenRxConfig { m with cell := some rxOnlyCell } rxOnlyCell).p)) =
      some (1, 1, true, true, none) ∧
    (run txThenRxConfig (init txThenRxConfig 0)
      (txCollisionTrace ++ [.powercycle (quietRadio 600)])).isNone = true := by
  obtain ⟨m, hm⟩ : ∃ m, run txThenRxConfig (init txThenRxConfig 0) txCollisionTrace = some m :=
    Option.isSome_iff_exists.1 (by decide)
  have h₁ : (run txThenRxConfig (init txThenRxConfig 0) txCollisionTrace).map
      (fun m => (m.timeslot, m.attempts.length, m.cellDecison, m.pc)) =
        some (1, 1, .tx, .slotStart) := by decide
  have h₂ : (run txThenRxConfig (init txThenRxConfig 0) txCollisionTrace).map
      (fun m => (m.isSync, m.state, m.store.workingOnQueue)) = some (true, .associated, false) := by
    decide
  simp only [hm, Option.map_some', Option.some.injEq, Prod.mk.injEq] at h₁ h₂
  obtain ⟨⟨hts, hatt, hdec, hpc⟩, hsync, hstate, hwq⟩ := And.intro h₁ h₂
  obtain ⟨hp, hd⟩ :=
    @slotSetup_keeps_cell_tx txThenRxConfig { m with cell := some rxOnlyCell } rxOnlyCell rfl hdec
  refine ⟨by rw [hm, Option.map_some', hp, hd, hts, hatt, hdec]; rfl, ?_⟩
  rw [run_append, hm]
  simp only [Option.some_bind, run, step]
  rw [powercycle_of_kept_cell_tx hpc hsync (by rw [hstate]; decide) hwq (by rw [hts]; rfl) rfl hdec]
  rfl

end Mac

end Tsch
