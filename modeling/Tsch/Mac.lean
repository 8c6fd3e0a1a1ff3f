import Tsch.Schedule
import Tsch.Store
import Tsch.SyncIE

/-!
# The state of the slot machine

`powercycle` is a protothread driven by the radio timer: each call resumes it at the
`PT_YIELD` where it stopped and runs it to the next one.  Its statics, the globals it
shares with the radio interrupt (`start`, `waiting_for_radio_interrupt`, `need_ack`,
`last_rf`, `last_drift`, the soft-ACK `ackbuf`), `ieee154e_vars` and the queue store make
up `Mac`.

**Model.**  `Platform` holds the build-time constants that change state: the widths of
`rtimer_clock_t` and `int`, `CCA_ENABLED`, and the tick offsets read by the CCA wait, the
soft ACK and the slot accounting (the others only place wake-ups).  Every value the code
reads from the radio, the clock or `random_rand` between two yields is a field of a
`Radio` record, and so is the indeterminate value a stack local holds after a yield (a
protothread does not keep its locals).  A NULL dereference is undefined behaviour and
ends a run: the functions return `none`.  Pointers to queues are their addresses, a
pointer to a ring slot is a `SlotRef`.  `Mac` also carries ghost fields: the packets taken
into `CELL_TX` (`txLog`), each TX outcome (`attempts`), and, from the last time `start` was
read from the clock, that anchor (`start0`), the `asn` then (`asn0`) and the sum of the
drift corrections applied since (`corrSum`).

This module has the parts of `powercycle` that several resume points share: the TX
outcome on the queue store (lines 802-876) and the end-of-slot accounting (lines 955-997).
-/

namespace Tsch

/-- The build-time constants the driver reads. -/
structure Platform where
  clockBits : Nat
  intBits : Nat
  ccaEnabled : Bool
  TsCCAOffset : Nat
  TsCCA : Nat
  TsTxOffset : Nat
  TsSlotDuration : Nat
  clockBits_ge : 16 ≤ clockBits
  intBits_eq : intBits = 16 ∨ intBits = 32

/-- A 16-bit MSP430 node with the cc2420 radio and CCA: a 32768 Hz timer, 15 ms slots. -/
def cc2420Platform : Platform :=
  ⟨16, 16, true, 59, 4, 70, 492, le_refl _, Or.inl rfl⟩

/-- What the driver is built with. -/
structure Config where
  B : BufferSize
  maxNeighbors : Nat
  framer : Packetbuf → Option (List UInt8)
  slotframe : Slotframe
  links : List Cell
  plat : Platform

/-- Modelled from the spec: `ieee154e_vars.state`, `OFF` or `ASSOCIATED`. -/
inductive TschState
  | off
  | associated
  deriving DecidableEq, Repr

/-- Modelled from the spec: `CELL_OFF`, `CELL_TX`, `CELL_TX_IDLE`, `CELL_TX_BACKOFF`,
`CELL_RX`; the static `cell_decison` starts at 0, `CELL_OFF`. -/
inductive CellDecision
  | off
  | tx
  | txIdle
  | txBackoff
  | rx
  deriving DecidableEq, Repr

/-- The yields of a `CELL_TX` slot. -/
inductive TxWait
  /-- Before CCA (`start + TsCCAOffset`). -/
  | cca
  /-- Before transmitting (`start + TsTxOffset - delayTx`). -/
  | transmit
  /-- Before listening for the ACK. -/
  | ackWait
  /-- Before the second ACK detection. -/
  | ackDetect
  /-- Before reading the ACK. -/
  | ackRead
  deriving DecidableEq, Repr

/-- The yields of a `CELL_RX` slot. -/
inductive RxWait
  /-- Before listening (`start + TsTxOffset - TsLongGT`). -/
  | guardStart
  /-- At the end of the guard time. -/
  | guardEnd
  /-- Before sending the ACK. -/
  | ack
  deriving DecidableEq, Repr

/-- Where the protothread resumes: `PT_BEGIN`, the end-of-slot yield, or a yield in a slot. -/
inductive Pc
  | begin
  | slotStart
  | tx (w : TxWait)
  | rx (w : RxWait)
  deriving DecidableEq, Repr

/-- A resume point inside a slot. -/
def Pc.inSlot : Pc → Bool
  | .tx _ => true
  | .rx _ => true
  | _ => false

/-- What the radio, the clock and `random_rand()` answer during one call of `powercycle`,
with the indeterminate `cca_status` and stack `ackbuf` of a resume. -/
structure Radio where
  beginNow : Nat
  now : Nat
  ccaNow : Nat
  stale : Nat
  channelClear : Bool
  transmit : Nat
  ackDetect : Bool
  pendingPacket : Bool
  ackPending : Bool
  pendingIrq : Bool
  readLen : Nat
  ackbuf : List UInt8
  random : Nat
  rxEndTime : Nat
  rxActivity : Bool

/-- A call `mac_call_sent_callback(sent, ptr, ret, transmissions)`, with the ghost `uid`
of the slot it was read from. -/
structure SentCall where
  sent : Nat
  ptr : Nat
  ret : MacStatus
  transmissions : Nat
  uid : Nat
  deriving DecidableEq, Repr

/-- The state of the driver.  `events` are the pending polls of
`tsch_tx_callback_process`; `txLog`, `attempts`, `start0`, `asn0` and `corrSum` are ghost. -/
structure Mac where
  store : Store
  asn : Nat
  isSync : Bool
  state : TschState
  pc : Pc
  timeslot : Nat
  driftCorrection : Int
  drift : Int
  driftCounter : Nat
  cellDecison : CellDecision
  cell : Option Cell
  p : Option SlotRef
  n : Option RimeAddr
  isBroadcast : Bool
  len : Nat
  seqno : Nat
  start : Nat
  channel : Nat
  lastDrift : Int
  lastRf : Option RimeAddr
  needAck : Bool
  waitingForRadioInterrupt : Bool
  ackbuf : List UInt8
  events : List SlotRef
  sentCalls : List SentCall
  txLog : List Nat
  attempts : List (Nat × MacStatus)
  start0 : Nat
  asn0 : Nat
  corrSum : Int

/-! ## C arithmetic of the slot machine -/

section Arith

variable (plat : Platform)

/-- Contiki's `RTIMER_CLOCK_LT(a, b)`: `(signed short)(a - b) < 0`. -/
def rtimerClockLt (a b : Nat) : Bool :=
  decide (int16 ((a : Int) - b) < 0)

/-- `a - b > d` for `rtimer_clock_t` operands and a `uint16_t` bound: the operands promote
to `int` when the clock is narrower than `int`, and subtract as unsigned otherwise. -/
def clockDiffGt (a b d : Nat) : Bool :=
  if plat.clockBits < plat.intBits then decide ((a : Int) - b > d)
  else decide (((a : Int) - b) % 2 ^ plat.clockBits > d)

/-- `BUSYWAIT_UNTIL_ABS(!(cca_status |= channel_clear()), t0, duration)`: the macro reads
`now` once, so it runs its test once or never ends (`none`). -/
def busywaitCca (t0 duration now ccaStatus : Nat) (channelClear : Bool) : Option Nat :=
  if ((t0 + duration : Int) - now) % 2 ^ plat.clockBits > duration then some ccaStatus
  else
    let cs := uint8 (ccaStatus ||| if channelClear then 1 else 0)
    if cs ≠ 0 ∧ rtimerClockLt now t0 = true then none else some cs

/-- `3051 * drift_counter`: an `int` product, which a 16-bit `int` platform computes in
`unsigned int`. -/
def driftDivisor (driftCounter : Nat) : Int :=
  if plat.intBits = 16 then ((3051 * driftCounter) % 65536 : Nat) else 3051 * driftCounter

/-- `duration = dt * TsSlotDuration`, a `uint16_t`. -/
def slotDuration (dt : Nat) : Nat :=
  uint16 (dt * plat.TsSlotDuration)

end Arith

/-- `generate_random_byte(window)`: `(random_rand() >> 8) & window`. -/
def generateRandomByte (random window : Nat) : Nat :=
  (uint16 random >>> 8) &&& window

/-! ## The TX outcome on the queue store -/

namespace Store

variable (B : BufferSize)

/-- Apply `f` to the queue at address `a`, as a write through the pointer `n`. -/
def updateQueue (s : Store) (a : RimeAddr) (f : NeighborQueue → NeighborQueue) : Store :=
  { s with neighborList := modifyQueue a f s.neighborList }

/-- Apply `f` to the packet in the slot `r`, as a write through the pointer `p`. -/
def updateSlot (s : Store) (r : SlotRef) (f : TschPacket → TschPacket) : Store :=
  s.updateQueue r.addr fun q => { q with buffer := Function.update q.buffer r.index (f (q.buffer r.index)) }

/-- The backoff of a failed attempt in a shared unicast cell. -/
def backoff (random : Nat) (q : NeighborQueue) : NeighborQueue :=
  { q with
    bwValue := generateRandomByte random (uint8 (uint8 (1 <<< q.beValue) + 255))
    beValue := if uint8 (q.beValue + 1) > macMaxBE then macMaxBE else uint8 (q.beValue + 1) }

/-- `BE_value = macMinBE; BW_value = 0;` -/
def resetBackoff (q : NeighborQueue) : NeighborQueue :=
  { q with beValue := macMinBE, bwValue := 0 }

/-- The `RADIO_TX_NOACK`, `RADIO_TX_COLLISION` and `RADIO_TX_ERR` branches, which differ
only in the status they report. -/
def failedAttempt (s : Store) (p : SlotRef) (n : RimeAddr) (backoffOn : Bool) (random : Nat) :
    Option Store :=
  (s.slot p).bind fun pk =>
    let s := s.updateSlot p fun q => { q with transmissions := uint8 (q.transmissions + 1) }
    let s := if uint8 (pk.transmissions + 1) = macMaxFrameRetries then
        pk.pkt.map fun pkt => (s.removePacketFromQueue B pkt.receiver).2.updateQueue n resetBackoff
      else some s
    s.map fun s => if backoffOn then s.updateQueue n (backoff random) else s

/-- The `RADIO_TX_OK` branch and the default branch, which are the same code. -/
def succeededAttempt (s : Store) (p : SlotRef) (n cellAddr : RimeAddr) : Option Store :=
  (s.slot p).bind fun pk => pk.pkt.map fun pkt =>
    let s := (s.removePacketFromQueue B pkt.receiver).2
    if (s.readPacketFromQueue B cellAddr).isNone then s.updateQueue n resetBackoff
    else s.updateQueue n fun q => { q with bwValue := 0 }

/-- The chain of tests on `success` (lines 802-873). -/
def attemptOutcome (s : Store) (p : SlotRef) (n cellAddr : RimeAddr) (backoffOn : Bool)
    (success random : Nat) : Option (Store × MacStatus) :=
  if success = radioTxNoack then (s.failedAttempt B p n backoffOn random).map (·, .txNoack)
  else if success = radioTxOk then (s.succeededAttempt B p n cellAddr).map (·, .txOk)
  else if success = radioTxCollision then
    (s.failedAttempt B p n backoffOn random).map (·, .txCollision)
  else if success = radioTxErr then (s.failedAttempt B p n backoffOn random).map (·, .txErr)
  else (s.succeededAttempt B p n cellAddr).map (·, .txOk)

variable {B}

theorem failedAttempt_spec {s s' : Store} {p : SlotRef} {n : RimeAddr} {backoffOn : Bool}
    {random : Nat} (h : s.failedAttempt B p n backoffOn random = some s') :
    ∃ pk s₁, s.slot p = some pk ∧
      ((uint8 (pk.transmissions + 1) = macMaxFrameRetries ∧ ∃ b, pk.pkt = some b ∧
          s₁ = ((s.updateSlot p fun q => { q with transmissions := uint8 (q.transmissions + 1) }
            ).removePacketFromQueue B b.receiver).2.updateQueue n resetBackoff) ∨
        (uint8 (pk.transmissions + 1) ≠ macMaxFrameRetries ∧
          s₁ = s.updateSlot p fun q => { q with transmissions := uint8 (q.transmissions + 1) })) ∧
      s' = if backoffOn then s₁.updateQueue n (backoff random) else s₁ := by
  simp only [failedAttempt, Option.bind_eq_some] at h
  obtain ⟨pk, hpk, h⟩ := h
  obtain ⟨s₁, hs₁, rfl⟩ := Option.map_eq_some'.1 h
  refine ⟨pk, s₁, hpk, ?_, rfl⟩
  split_ifs at hs₁ with hmax
  · obtain ⟨b, hb, rfl⟩ := Option.map_eq_some'.1 hs₁
    exact .inl ⟨hmax, b, hb, rfl⟩
  · cases hs₁
    exact .inr ⟨hmax, rfl⟩

theorem succeededAttempt_spec {s s' : Store} {p : SlotRef} {n cellAddr : RimeAddr}
    (h : s.succeededAttempt B p n cellAddr = some s') :
    ∃ pk b, s.slot p = some pk ∧ pk.pkt = some b ∧
      (s' = (s.removePacketFromQueue B b.receiver).2.updateQueue n resetBackoff ∨
        s' = (s.removePacketFromQueue B b.receiver).2.updateQueue n fun q => { q with bwValue := 0 }) := by
  simp only [succeededAttempt, Option.bind_eq_some] at h
  obtain ⟨pk, hpk, h⟩ := h
  obtain ⟨b, hb, rfl⟩ := Option.map_eq_some'.1 h
  refine ⟨pk, b, hpk, hb, ?_⟩
  split_ifs
  · exact .inl rfl
  · exact .inr rfl

/-- The outcome is a failed attempt reporting its status, or a success. -/
theorem attemptOutcome_cases {s s' : Store} {p : SlotRef} {n cellAddr : RimeAddr}
    {backoffOn : Bool} {success random : Nat} {ret : MacStatus}
    (h : s.attemptOutcome B p n cellAddr backoffOn success random = some (s', ret)) :
    (ret ≠ .txOk ∧ s.failedAttempt B p n backoffOn random = some s') ∨
      (ret = .txOk ∧ s.succeededAttempt B p n cellAddr = some s') := by
  unfold attemptOutcome at h
  split_ifs at h <;> obtain ⟨s'', hs'', heq⟩ := Option.map_eq_some'.1 h <;> cases heq <;>
    first | exact .inr ⟨rfl, hs''⟩ | exact .inl ⟨by decide, hs''⟩

end Store

/-! ## Shared segments of `powercycle` -/

namespace Mac

variable (cfg : Config)

/-- The end of a `CELL_TX` slot: the outcome of `success`, `p->ret = ret`, and
`process_post(&tsch_tx_callback_process, PROCESS_EVENT_POLL, p)`. -/
def txOutcome (m : Mac) (success random : Nat) : Option Mac := do
  let p ← m.p
  let n ← m.n
  let cell ← m.cell
  let pk ← m.store.slot p
  let (s, ret) ← m.store.attemptOutcome cfg.B p n cell.nodeAddress
    (cell.linkOptions.shared && !m.isBroadcast) success random
  some { m with
    store := s.updateSlot p fun q => { q with ret }
    events := m.events ++ [p]
    attempts := m.attempts ++ [(pk.uid, ret)] }

/-- `drift_correction += (drift*100)/(3051*drift_counter)` when `drift_counter` is not 0. -/
def boundaryCorrection (m : Mac) : Int :=
  if m.driftCounter ≠ 0 then
    int32 (m.driftCorrection + (int32 (m.drift * 100)).tdiv (driftDivisor cfg.plat m.driftCounter))
  else m.driftCorrection

/-- The slotframe boundary: add `(int16_t)drift_correction` to the `uint16_t` duration and
clear the accumulators. -/
def applyDrift (m : Mac) (duration : Nat) : Mac × Nat :=
  ({ m with
      driftCorrection := 0, drift := 0, driftCounter := 0
      corrSum := m.corrSum + int16 (boundaryCorrection cfg m) },
    uint16OfInt (duration + int16 (boundaryCorrection cfg m)))

/-- Move to the next on-timeslot: `timeslot`, `asn += dt` and `start += duration`. -/
def advance (m : Mac) (duration : Nat) : Mac :=
  { m with
    timeslot := cfg.slotframe.getNextOnTimeslot m.timeslot
    asn := m.asn + cfg.slotframe.timeslotsToNext m.timeslot
    start := (m.start + duration) % 2 ^ cfg.plat.clockBits }

/-- The slot's `duration` and the state after a slotframe boundary (lines 955-974). -/
def slotEnd (m : Mac) : Mac × Nat :=
  if cfg.slotframe.getNextOnTimeslot m.timeslot = 0 then
    applyDrift cfg m (slotDuration cfg.plat (cfg.slotframe.timeslotsToNext m.timeslot))
  else (m, slotDuration cfg.plat (cfg.slotframe.timeslotsToNext m.timeslot))

/-- The end-of-slot accounting (lines 955-997) with `RTIMER_NOW()` at `now`. -/
def endOfSlot (m : Mac) (now : Nat) : Mac :=
  let m₁ := advance cfg (slotEnd cfg m).1 (slotEnd cfg m).2
  { (if clockDiffGt cfg.plat m₁.start now (slotEnd cfg m).2 then
      advance cfg m₁ (slotDuration cfg.plat (cfg.slotframe.timeslotsToNext m₁.timeslot))
    else m₁) with pc := .slotStart }

/-- The queue store, the slot's packet and queue, and the logs: what the end of a slot keeps. -/
structure QueueView where
  store : Store
  p : Option SlotRef
  n : Option RimeAddr
  events : List SlotRef
  sentCalls : List SentCall
  txLog : List Nat
  attempts : List (Nat × MacStatus)

def queueView (m : Mac) : QueueView :=
  ⟨m.store, m.p, m.n, m.events, m.sentCalls, m.txLog, m.attempts⟩

/-- The end-of-slot accounting only moves the clock and the drift state. -/
theorem endOfSlot_queueView (m : Mac) (now : Nat) :
    (endOfSlot cfg m now).queueView = m.queueView := by
  have h : (slotEnd cfg m).1.queueView = m.queueView := by
    unfold slotEnd
    split_ifs <;> rfl
  have hadv : ∀ m' d, (advance cfg m' d).queueView = m'.queueView := fun _ _ => rfl
  have hpc : ∀ m' : Mac, { m' with pc := .slotStart }.queueView = m'.queueView := fun _ => rfl
  dsimp only [endOfSlot]
  refine (hpc _).trans ?_
  split_ifs
  · exact (hadv _ _).trans ((hadv _ _).trans h)
  · exact (hadv _ _).trans h

@[simp] theorem endOfSlot_store (m : Mac) (now : Nat) : (endOfSlot cfg m now).store = m.store :=
  congrArg QueueView.store (endOfSlot_queueView cfg m now)

@[simp] theorem endOfSlot_p (m : Mac) (now : Nat) : (endOfSlot cfg m now).p = m.p :=
  congrArg QueueView.p (endOfSlot_queueView cfg m now)

@[simp] theorem endOfSlot_events (m : Mac) (now : Nat) :
    (endOfSlot cfg m now).events = m.events :=
  congrArg QueueView.events (endOfSlot_queueView cfg m now)

@[simp] theorem endOfSlot_sentCalls (m : Mac) (now : Nat) :
    (endOfSlot cfg m now).sentCalls = m.sentCalls :=
  congrArg QueueView.sentCalls (endOfSlot_queueView cfg m now)

@[simp] theorem endOfSlot_txLog (m : Mac) (now : Nat) : (endOfSlot cfg m now).txLog = m.txLog :=
  congrArg QueueView.txLog (endOfSlot_queueView cfg m now)

@[simp] theorem endOfSlot_attempts (m : Mac) (now : Nat) :
    (endOfSlot cfg m now).attempts = m.attempts :=
  congrArg QueueView.attempts (endOfSlot_queueView cfg m now)

@[simp] theorem endOfSlot_pc (m : Mac) (now : Nat) : (endOfSlot cfg m now).pc = .slotStart :=
  rfl

variable {cfg}

theorem txOutcome_spec {m m' : Mac} {success random : Nat}
    (h : txOutcome cfg m success random = some m') :
    ∃ p n cell pk s ret, m.p = some p ∧ m.n = some n ∧ m.cell = some cell ∧
      m.store.slot p = some pk ∧
      m.store.attemptOutcome cfg.B p n cell.nodeAddress (cell.linkOptions.shared && !m.isBroadcast)
        success random = some (s, ret) ∧
      m' = { m with
        store := s.updateSlot p fun q => { q with ret }
        events := m.events ++ [p]
        attempts := m.attempts ++ [(pk.uid, ret)] } := by
  simp only [txOutcome, Option.bind_eq_bind, Option.bind_eq_some, Option.some.injEq] at h
  obtain ⟨p, hp, n, hn, cell, hc, pk, hpk, ⟨s, ret⟩, ho, rfl⟩ := h
  exact ⟨p, n, cell, pk, s, ret, hp, hn, hc, hpk, ho, rfl⟩

end Mac

end Tsch
