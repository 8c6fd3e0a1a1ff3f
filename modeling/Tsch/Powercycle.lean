import Tsch.Mac

/-!
# `powercycle`

One call of the protothread: resume at `m.pc`, run to the next `PT_YIELD`, return.

**Model.**  `resume` runs the code of the slot from the resume point up to the next yield
(`Resumed.yield`), up to the end of a `CELL_TX` slot with its `success` code
(`Resumed.txDone`), or up to the end of any other slot (`Resumed.slotDone`); `powercycle`
then applies the TX outcome and the end-of-slot accounting of `Tsch.Mac`.  The slot start
is `slotStartOn` (lines 608-651): the cell, the per-slot resets, the packet and queue a
cell offers (`selectPacket`), and the decision with its backoff countdown
(`slotDecision`).  The static `cell_decison` is only overwritten by a cell with the TX or
the RX option.  The ACK reading of lines 730-788 is `ackRead`; the drift an RX slot
credits is `driftCredit` (lines 938-948).

The value a local computed before a yield is lost at the yield: the CCA wait, the second
ACK detection and the end of the RX guard time all read `cca_status` as `Radio.stale`, and
`ackbuf` is whatever `Radio.ackbuf` says.
-/

namespace Tsch

/-- Where a call of `powercycle` stops: at a yield, at the end of a `CELL_TX` slot with its
`success` code, or at the end of another slot. -/
inductive Resumed
  | yield (m : Mac)
  | txDone (m : Mac) (success : Nat)
  | slotDone (m : Mac)

/-- The state a call of `powercycle` stopped with. -/
def Resumed.mac : Resumed → Mac
  | .yield m => m
  | .txDone m _ => m
  | .slotDone m => m

namespace Mac

variable (cfg : Config)

/-- The queue and the packet a cell offers (lines 616-631). -/
def selectPacket (s : Store) (cell : Cell) :
    Option (RimeAddr × NeighborQueue) × Option SlotRef × Store :=
  if cell.linkOptions.tx ∧ cell.linkType ≠ .advertising then
    match s.neighborQueueFromAddr cell.nodeAddress with
    | none => (none, none, s)
    | some q =>
        match Store.readPacketFromNeighborQueue cfg.B (some q) with
        | some i => (some (cell.nodeAddress, q), some ⟨cell.nodeAddress, i⟩, s)
        | none =>
            if cell.nodeAddress = broadcastCellAddress ∧ cell.linkOptions.shared then
              (some (cell.nodeAddress, q), (s.getNextPacketForSharedSlotTx cfg.B).1,
                (s.getNextPacketForSharedSlotTx cfg.B).2)
            else (some (cell.nodeAddress, q), none, s)
  else (none, none, s)

/-- The slot decision (lines 633-647) from the decision of the last slot, and whether
`n->BW_value` is counted down. -/
def slotDecision (cell : Cell) (n : Option (RimeAddr × NeighborQueue)) (p : Option SlotRef)
    (prev : CellDecision) : CellDecision × Bool :=
  let bw := (n.map fun e => e.2.bwValue).getD 0
  let d : CellDecision :=
    if cell.linkOptions.tx then
      if p.isSome then (if !cell.linkOptions.shared || bw = 0 then .tx else .txBackoff)
      else .txIdle
    else prev
  (if cell.linkOptions.rx ∧ d ≠ .tx then .rx else d,
    cell.linkOptions.tx && p.isSome && cell.linkOptions.shared && bw ≠ 0)

/-- The start of `CELL_TX` (lines 656-688). -/
def txBegin (m : Mac) : Option Mac := do
  let p ← m.p
  let pk ← m.store.slot p
  let pkt ← pk.pkt
  some { m with
    isBroadcast := decide (pkt.receiver = rimeaddrNull)
    seqno := ((pkt.data.getD 2 0).toNat)
    txLog := m.txLog ++ [pk.uid]
    pc := .tx (if cfg.plat.ccaEnabled then .cca else .transmit) }

def countDown (q : NeighborQueue) : NeighborQueue :=
  { q with bwValue := q.bwValue - 1 }

/-- The per-slot resets, the packet choice and the decision of an on cell (lines
615-651). -/
def slotSetup (m : Mac) (cell : Cell) : Mac :=
  let sel := selectPacket cfg m.store cell
  let dec := slotDecision cell sel.1 sel.2.1 m.cellDecison
  { m with
    channel := hopChannel cell.channelOffset m.asn
    lastDrift := 0, lastRf := none, needAck := false, waitingForRadioInterrupt := false
    store := match sel.1 with
      | some (a, _) => if dec.2 then sel.2.2.updateQueue a countDown else sel.2.2
      | none => sel.2.2
    n := sel.1.map (·.1), p := sel.2.1, cellDecison := dec.1 }

/-- An on cell: set the slot up, then start a TX or an RX slot, or end the slot. -/
def slotStartOn (m : Mac) (cell : Cell) : Option Resumed :=
  let m := slotSetup cfg m cell
  if m.cellDecison = .tx then (txBegin cfg m).map .yield
  else if m.cellDecison = .rx then some (.yield { m with pc := .rx .guardStart })
  else some (.slotDone m)

/-- The top of the loop: the loop test and `get_cell`. -/
def loopHead (m : Mac) : Option Resumed :=
  if m.isSync ∧ m.state ≠ .off then
    let m := { m with cell := cfg.slotframe.getCell m.timeslot }
    match m.cell with
    | some cell =>
        if m.store.workingOnQueue then some (.slotDone { m with cellDecison := .off })
        else slotStartOn cfg m cell
    | none => some (.slotDone { m with cellDecison := .off })
  else some (.yield { m with pc := .begin })

/-- A Sync IE from the cell's queue `n` (lines 758-775): its drift is added to `drift`
when `n` is a time source. -/
def ackDrift (m : Mac) (ackStatus : Nat) : Option Mac := do
  let n ← m.n
  let q ← m.store.neighborQueueFromAddr n
  some (if q.timeSource then
      { m with
        drift := int32 (m.drift + decodeDrift ackStatus)
        driftCounter := uint16 (m.driftCounter + 1) }
    else m)

/-- The ACK test of lines 744-788 on the bytes `ackbuf` and the static `len`. -/
def ackDecode (m : Mac) (ackbuf : List UInt8) : Option Resumed :=
  match ackCheck ackbuf m.len m.seqno with
  | (success, none) => some (.txDone m success)
  | (success, some ackStatus) => (ackDrift m ackStatus).map (.txDone · success)

/-- Reading the ACK (lines 730-743). -/
def ackRead (m : Mac) (r : Radio) : Option Resumed :=
  ackDecode { m with
    len := if r.ackPending || r.pendingIrq then uint8 r.readLen else m.len
    waitingForRadioInterrupt := false } r.ackbuf

/-- The ACK branch after an ACK was detected: wait if nothing is pending yet, or read. -/
def ackPart (m : Mac) (r : Radio) : Option Resumed :=
  if r.pendingPacket then ackRead m r else some (.yield { m with pc := .tx .ackRead })

/-- The drift an RX slot credits (lines 938-948). -/
def driftCredit (m : Mac) : Option Mac :=
  if m.lastDrift ≠ 0 then do
    let src ← m.lastRf
    match m.store.neighborQueueFromAddr src with
    | some q =>
        if q.timeSource then
          some { m with
            n := some src
            driftCorrection := int32 (m.driftCorrection - m.lastDrift)
            driftCounter := uint16 (m.driftCounter + 1) }
        else some { m with n := some src }
    | none => some { m with n := none }
  else some m

/-- Resume a `CELL_TX` slot at the yield `w`. -/
def txResume (m : Mac) (r : Radio) : TxWait → Option Resumed
  | .cca => do
      let cs ← busywaitCca cfg.plat m.start (cfg.plat.TsCCAOffset + cfg.plat.TsCCA) r.ccaNow
        (uint8 r.stale) r.channelClear
      if cs = 0 then some (.txDone m radioTxCollision)
      else some (.yield { m with pc := .tx .transmit })
  | .transmit =>
      if uint8 r.transmit = radioTxOk ∧ !m.isBroadcast then some (.yield { m with pc := .tx .ackWait })
      else some (.txDone m (uint8 r.transmit))
  | .ackWait =>
      let m := { m with waitingForRadioInterrupt := true }
      if r.ackDetect then ackPart m r else some (.yield { m with pc := .tx .ackDetect })
  | .ackDetect =>
      if uint8 (uint8 r.stale ||| if r.ackDetect then 1 else 0) ≠ 0 then ackPart m r
      else some (.txDone { m with waitingForRadioInterrupt := false } radioTxNoack)
  | .ackRead => ackRead m r

/-- Resume a `CELL_RX` slot at the yield `w`. -/
def rxResume (m : Mac) (r : Radio) : RxWait → Option Resumed
  | .guardStart => some (.yield { m with pc := .rx .guardEnd })
  | .guardEnd =>
      if r.rxEndTime ≠ 0 ∨ uint8 r.stale ≠ 0 ∨ r.rxActivity then
        if m.needAck then some (.yield { m with pc := .rx .ack })
        else (driftCredit m).map .slotDone
      else some (.slotDone m)
  | .ack => (driftCredit m).map .slotDone

/-- Run from the resume point `m.pc` to the next yield or the end of the slot. -/
def resume (m : Mac) (r : Radio) : Option Resumed :=
  match m.pc with
  | .begin =>
      let start := r.beginNow % 2 ^ cfg.plat.clockBits
      loopHead cfg { m with start, start0 := start, asn0 := m.asn, corrSum := 0 }
  | .slotStart => loopHead cfg m
  | .tx w => txResume cfg m r w
  | .rx w => rxResume m r w

def powercycle (m : Mac) (r : Radio) : Option Mac :=
  match resume cfg m r with
  | none => none
  | some (.yield m) => some m
  | some (.txDone m success) => (txOutcome cfg m success r.random).map fun m => endOfSlot cfg m r.now
  | some (.slotDone m) => some (endOfSlot cfg m r.now)

/-! ## What a resume point changes -/

/-- The slot counters, the anchor and its ghosts. -/
structure ClockView where
  timeslot : Nat
  asn : Nat
  start : Nat
  start0 : Nat
  asn0 : Nat
  corrSum : Int
  deriving DecidableEq

/-- The part of the state the resume points inside a slot leave alone: the clock, the
queue store, the slot's packet, cell and channel, and the logs. -/
structure SlotView where
  clock : ClockView
  store : Store
  p : Option SlotRef
  cell : Option Cell
  isBroadcast : Bool
  channel : Nat
  events : List SlotRef
  sentCalls : List SentCall
  txLog : List Nat
  attempts : List (Nat × MacStatus)

/-- The clock fields of a state. -/
def clockView (m : Mac) : ClockView :=
  ⟨m.timeslot, m.asn, m.start, m.start0, m.asn0, m.corrSum⟩

/-- The fields of a state a resume point inside a slot leaves alone. -/
def slotView (m : Mac) : SlotView :=
  ⟨m.clockView, m.store, m.p, m.cell, m.isBroadcast, m.channel, m.events, m.sentCalls,
    m.txLog, m.attempts⟩

variable {cfg} {m : Mac} {r : Radio} {x : Resumed}

theorem ackDrift_spec {m' : Mac} {st : Nat} (h : ackDrift m st = some m') :
    m'.slotView = m.slotView ∧ m'.n = m.n ∧ m'.pc = m.pc := by
  simp only [ackDrift, Option.bind_eq_bind, Option.bind_eq_some, Option.some.injEq] at h
  obtain ⟨n, -, q, -, rfl⟩ := h
  split <;> exact ⟨rfl, rfl, rfl⟩

theorem ackDecode_spec {b : List UInt8} (h : ackDecode m b = some x) :
    ∃ m' success, x = .txDone m' success ∧ m'.slotView = m.slotView ∧ m'.n = m.n ∧
      m'.pc = m.pc := by
  unfold ackDecode at h
  split at h
  · cases h; exact ⟨_, _, rfl, rfl, rfl, rfl⟩
  · obtain ⟨m', hm', rfl⟩ := Option.map_eq_some'.1 h
    exact ⟨m', _, rfl, ackDrift_spec hm'⟩

theorem ackRead_spec (h : ackRead m r = some x) :
    ∃ m' success, x = .txDone m' success ∧ m'.slotView = m.slotView ∧ m'.n = m.n ∧
      m'.pc = m.pc := by
  unfold ackRead at h
  obtain ⟨m', s, hx, hv, hn, hpc⟩ := ackDecode_spec h
  exact ⟨m', s, hx, hv, hn, hpc⟩

/-- A TX resume point keeps the slot and the queue `n`, and either waits at another TX
yield or ends the TX slot at the same resume point. -/
theorem txResume_spec {w : TxWait} (h : txResume cfg m r w = some x) :
    x.mac.slotView = m.slotView ∧ x.mac.n = m.n ∧
      ((∃ w', x = .yield { x.mac with pc := .tx w' } ∧ x.mac.pc = .tx w') ∨
        (∃ success, x = .txDone x.mac success ∧ x.mac.pc = m.pc)) := by
  have hread : ∀ {m' : Mac}, m'.slotView = m.slotView → m'.n = m.n → m'.pc = m.pc →
      ackRead m' r = some x → x.mac.slotView = m.slotView ∧ x.mac.n = m.n ∧
        ((∃ w', x = .yield { x.mac with pc := .tx w' } ∧ x.mac.pc = .tx w') ∨
          (∃ success, x = .txDone x.mac success ∧ x.mac.pc = m.pc)) := by
    intro m' hv hn hpc hx
    obtain ⟨m'', s, rfl, hv', hn', hpc'⟩ := ackRead_spec hx
    exact ⟨hv'.trans hv, hn'.trans hn, .inr ⟨s, rfl, hpc'.trans hpc⟩⟩
  have hpart : ∀ {m' : Mac}, ackPart m' r = some x → m'.slotView = m.slotView → m'.n = m.n →
      m'.pc = m.pc → x.mac.slotView = m.slotView ∧ x.mac.n = m.n ∧
        ((∃ w', x = .yield { x.mac with pc := .tx w' } ∧ x.mac.pc = .tx w') ∨
          (∃ success, x = .txDone x.mac success ∧ x.mac.pc = m.pc)) := by
    intro m' hx hv hn hpc
    unfold ackPart at hx
    split_ifs at hx
    · exact hread hv hn hpc hx
    · cases hx
      exact ⟨hv, hn, .inl ⟨_, rfl, rfl⟩⟩
  cases w <;> simp only [txResume, Option.bind_eq_bind, Option.bind_eq_some] at h
  case cca =>
    obtain ⟨cs, -, h⟩ := h
    split at h <;> cases h
    · exact ⟨rfl, rfl, .inr ⟨_, rfl, rfl⟩⟩
    · exact ⟨rfl, rfl, .inl ⟨_, rfl, rfl⟩⟩
  case transmit =>
    split at h <;> cases h
    · exact ⟨rfl, rfl, .inl ⟨_, rfl, rfl⟩⟩
    · exact ⟨rfl, rfl, .inr ⟨_, rfl, rfl⟩⟩
  case ackWait =>
    split at h
    · exact hpart h rfl rfl rfl
    · cases h
      exact ⟨rfl, rfl, .inl ⟨_, rfl, rfl⟩⟩
  case ackDetect =>
    by_cases hc : uint8 (uint8 r.stale ||| if r.ackDetect then 1 else 0) ≠ 0
    · rw [if_pos hc] at h
      exact hpart h rfl rfl rfl
    · rw [if_neg hc] at h
      cases h
      exact ⟨rfl, rfl, .inr ⟨_, rfl, rfl⟩⟩
  case ackRead => exact hread rfl rfl rfl h

theorem driftCredit_slotView {m' : Mac} (h : driftCredit m = some m') :
    m'.slotView = m.slotView ∧ m'.pc = m.pc := by
  unfold driftCredit at h
  split at h
  · simp only [Option.bind_eq_bind, Option.bind_eq_some] at h
    obtain ⟨src, -, h⟩ := h
    split at h
    · split at h <;> cases h <;> exact ⟨rfl, rfl⟩
    · cases h; exact ⟨rfl, rfl⟩
  · cases h; exact ⟨rfl, rfl⟩

/-- An RX resume point keeps the slot, and either waits at another RX yield or ends the
slot at the same resume point. -/
theorem rxResume_spec {w : RxWait} (h : rxResume m r w = some x) :
    x.mac.slotView = m.slotView ∧
      ((∃ w', x = .yield { x.mac with pc := .rx w' } ∧ x.mac.pc = .rx w') ∨
        (x = .slotDone x.mac ∧ x.mac.pc = m.pc)) := by
  cases w <;> simp only [rxResume] at h
  case guardStart => cases h; exact ⟨rfl, .inl ⟨_, rfl, rfl⟩⟩
  case guardEnd =>
    split_ifs at h
    · cases h; exact ⟨rfl, .inl ⟨_, rfl, rfl⟩⟩
    · obtain ⟨m', hm', rfl⟩ := Option.map_eq_some'.1 h
      exact ⟨(driftCredit_slotView hm').1, .inr ⟨rfl, (driftCredit_slotView hm').2⟩⟩
    · cases h; exact ⟨rfl, .inr ⟨rfl, rfl⟩⟩
  case ack =>
    obtain ⟨m', hm', rfl⟩ := Option.map_eq_some'.1 h
    exact ⟨(driftCredit_slotView hm').1, .inr ⟨rfl, (driftCredit_slotView hm').2⟩⟩

/-! ## The slot start -/

theorem txBegin_spec {m' : Mac} (h : txBegin cfg m = some m') :
    ∃ p pk b, m.p = some p ∧ m.store.slot p = some pk ∧ pk.pkt = some b ∧
      m' = { m with
        isBroadcast := decide (b.receiver = rimeaddrNull)
        seqno := (b.data.getD 2 0).toNat
        txLog := m.txLog ++ [pk.uid]
        pc := .tx (if cfg.plat.ccaEnabled then .cca else .transmit) } := by
  simp only [txBegin, Option.bind_eq_bind, Option.bind_eq_some, Option.some.injEq] at h
  obtain ⟨p, hp, pk, hpk, b, hb, rfl⟩ := h
  exact ⟨p, pk, b, hp, hpk, hb, rfl⟩

theorem slotStartOn_cases {cell : Cell} (h : slotStartOn cfg m cell = some x) :
    (∃ m', txBegin cfg (slotSetup cfg m cell) = some m' ∧ x = .yield m') ∨
      x = .yield { slotSetup cfg m cell with pc := .rx .guardStart } ∨
      x = .slotDone (slotSetup cfg m cell) := by
  dsimp only [slotStartOn] at h
  split_ifs at h
  · obtain ⟨m', hm', rfl⟩ := Option.map_eq_some'.1 h
    exact .inl ⟨m', hm', rfl⟩
  · cases h; exact .inr (.inl rfl)
  · cases h; exact .inr (.inr rfl)

theorem loopHead_cases (h : loopHead cfg m = some x) :
    x = .yield { m with pc := .begin } ∨
      x = .slotDone { m with cell := cfg.slotframe.getCell m.timeslot, cellDecison := .off } ∨
      ∃ cell, cfg.slotframe.getCell m.timeslot = some cell ∧
        slotStartOn cfg { m with cell := some cell } cell = some x := by
  dsimp only [loopHead] at h
  split_ifs at h
  · split at h <;> (cases h; exact .inr (.inl rfl))
  · split at h
    · rename_i cell hc
      rw [hc] at h
      exact .inr (.inr ⟨cell, hc, h⟩)
    · cases h; exact .inr (.inl rfl)
  · cases h; exact .inl rfl

theorem selectPacket_store (s : Store) (cell : Cell) :
    (selectPacket cfg s cell).2.2 = s ∨
      (selectPacket cfg s cell).2.2 = (s.getNextPacketForSharedSlotTx cfg.B).2 := by
  unfold selectPacket
  split_ifs <;> (repeat' split) <;> first | exact .inl rfl | exact .inr rfl

/-- The slot start changes the store only through the round robin and the backoff
countdown of the cell's queue. -/
theorem slotSetup_store (m : Mac) (cell : Cell) :
    (slotSetup cfg m cell).store = (selectPacket cfg m.store cell).2.2 ∨
      ∃ a, (slotSetup cfg m cell).store =
        (selectPacket cfg m.store cell).2.2.updateQueue a countDown := by
  dsimp only [slotSetup]
  split
  · split_ifs
    · exact .inr ⟨_, rfl⟩
    · exact .inl rfl
  · exact .inl rfl

theorem loopHead_store (h : loopHead cfg m = some x) :
    x.mac.store = m.store ∨ ∃ cell, x.mac.store = (slotSetup cfg m cell).store := by
  rcases loopHead_cases h with rfl | rfl | ⟨cell, -, h⟩
  · exact .inl rfl
  · exact .inl rfl
  · refine .inr ⟨cell, ?_⟩
    rcases slotStartOn_cases h with ⟨m', hm', rfl⟩ | rfl | rfl
    · obtain ⟨p, pk, b, -, -, -, rfl⟩ := txBegin_spec hm'
      rfl
    · rfl
    · rfl

theorem resume_store (h : resume cfg m r = some x) :
    x.mac.store = m.store ∨ ∃ cell, x.mac.store = (slotSetup cfg m cell).store := by
  unfold resume at h
  split at h
  · have := loopHead_store h
    exact this
  · exact loopHead_store h
  · exact .inl (congrArg SlotView.store (txResume_spec h).1)
  · exact .inl (congrArg SlotView.store (rxResume_spec h).1)

/-- A resume stops at a yield inside a slot or back at `PT_BEGIN`, never at the slot start,
where only the end-of-slot accounting leaves the protothread. -/
theorem resume_yield_pc {m' : Mac} (h : resume cfg m r = some (.yield m')) :
    m'.pc ≠ .slotStart := by
  have hloop : ∀ {m₀ : Mac}, loopHead cfg m₀ = some (.yield m') → m'.pc ≠ .slotStart := by
    intro m₀ h hpc
    rcases loopHead_cases h with h | h | ⟨cell, -, h⟩
    · cases h
      cases hpc
    · cases h
    · rcases slotStartOn_cases h with ⟨m₁, hm₁, h⟩ | h | h <;> cases h
      · obtain ⟨p, pk, b, -, -, -, rfl⟩ := txBegin_spec hm₁
        cases hpc
      · cases hpc
  intro hpc
  unfold resume at h
  split at h
  · exact hloop h hpc
  · exact hloop h hpc
  · rcases (txResume_spec h).2.2 with ⟨w', -, hw⟩ | ⟨s, hx, -⟩
    · exact Pc.noConfusion (hpc.symm.trans hw)
    · cases hx
  · rcases (rxResume_spec h).2 with ⟨w', -, hw⟩ | ⟨hx, -⟩
    · exact Pc.noConfusion (hpc.symm.trans hw)
    · cases hx

/-- One call of `powercycle` is a resume, followed at the end of a slot by the TX outcome
and the end-of-slot accounting. -/
theorem powercycle_cases {m' : Mac} (h : powercycle cfg m r = some m') :
    resume cfg m r = some (.yield m') ∨
      (∃ m₁ success m₂, resume cfg m r = some (.txDone m₁ success) ∧
        txOutcome cfg m₁ success r.random = some m₂ ∧ m' = endOfSlot cfg m₂ r.now) ∨
      ∃ m₁, resume cfg m r = some (.slotDone m₁) ∧ m' = endOfSlot cfg m₁ r.now := by
  unfold powercycle at h
  split at h
  · cases h
  · rename_i heq; cases h; exact .inl heq
  · rename_i heq
    obtain ⟨m₂, h₂, rfl⟩ := Option.map_eq_some'.1 h
    exact .inr (.inl ⟨_, _, m₂, heq, h₂, rfl⟩)
  · rename_i heq; cases h; exact .inr (.inr ⟨_, heq, rfl⟩)

end Mac

end Tsch
