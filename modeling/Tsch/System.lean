import Tsch.Powercycle

/-!
# The driver and its environment

Three contexts change the driver's state.  The main task calls `send_packet` and
`send_list` and runs the polled `tsch_tx_callback_process`; the radio timer calls
`powercycle`; the radio interrupt calls the soft-ACK builder `tsch_make_sync_ack` and
`tsch_resume_powercycle`.  `init` sets the driver up and `tsch_associate` fills the store
from `links_list`.

**Model.**  A run is a sequence of `Event`s from `Mac.init`, in any interleaving.  Each
event is atomic: a main-task call is not interrupted halfway.  `dispatch` is one activation
of `tsch_tx_callback_process` on its oldest pending poll; it reads the slot the poll
points to when it runs.  An event whose code has undefined behaviour, or a `dispatch` with
no pending poll, has no successor state.

`noackTrace`, a run with one failed attempt, is the run later modules take their witnesses
from.
-/

namespace Tsch

/-- What can happen next. -/
inductive Event
  /-- `send_packet(sent, ptr)` with `packetbuf` holding `pb`; `alloc` is what
  `queuebuf_new_from_packetbuf` returns. -/
  | sendPacket (sent ptr : Nat) (pb : Packetbuf) (alloc : Option Nat)
  /-- `send_list(sent, ptr, buf_list)`. -/
  | sendList (sent ptr : Nat) (bufs : List (Packetbuf × Option Nat))
  /-- `tsch_tx_callback_process` handles its next `PROCESS_EVENT_POLL`. -/
  | dispatch
  /-- The radio timer calls `powercycle`. -/
  | powercycle (r : Radio)
  /-- The radio interrupt calls `tsch_make_sync_ack(buf, seqno, last_packet_timestamp, nack)`. -/
  | softAck (seqno lastPacketTimestamp nack : Nat)
  /-- The radio interrupt calls `tsch_resume_powercycle(is_ack, need_ack_irq, last_rf_irq)`;
  `lastRf` is the source address of the frame `last_rf_irq`, or NULL. -/
  | interruptExit (needAck : Bool) (lastRf : Option RimeAddr)

namespace Mac

variable (cfg : Config)

/-- `tsch_make_sync_ack`, reading the slot anchor `start`. -/
def makeSyncAck (m : Mac) (seqno lastPacketTimestamp nack : Nat) : Mac :=
  { m with
    lastDrift := (tschMakeSyncAck cfg.plat.TsTxOffset m.start seqno lastPacketTimestamp nack).lastDrift
    ackbuf := (tschMakeSyncAck cfg.plat.TsTxOffset m.start seqno lastPacketTimestamp nack).ackbuf }

/-- `tsch_resume_powercycle`; the wake-up it schedules only moves time. -/
def tschResumePowercycle (m : Mac) (needAck : Bool) (lastRf : Option RimeAddr) : Mac :=
  { m with needAck, lastRf, waitingForRadioInterrupt := false }

/-- One activation of `tsch_tx_callback_process`, on what the slot of the oldest poll holds
now. -/
def tschTxCallback (m : Mac) : Option Mac :=
  match m.events with
  | [] => none
  | p :: rest => do
      let pk ← m.store.slot p
      some { m with
        events := rest
        sentCalls := m.sentCalls ++ [⟨pk.sent, pk.ptr, pk.ret, pk.transmissions, pk.uid⟩] }

/-- `n = neighbor_queue_from_addr(addr); if (n == NULL) n = add_queue(addr);` -/
def findOrAddQueue (s : Store) (a : RimeAddr) : Option RimeAddr × Store :=
  match s.neighborQueueFromAddr a with
  | some _ => (some a, s)
  | none => s.addQueue cfg.B cfg.maxNeighbors a

/-- One link of the loop of `tsch_associate`. -/
def associateLink (s : Store) (c : Cell) : Store :=
  if c.linkOptions.timeKeeping || c.linkOptions.tx then
    match findOrAddQueue cfg s c.nodeAddress with
    | (some a, s) =>
        s.updateQueue a fun q => { q with timeSource := c.linkOptions.timeKeeping || q.timeSource }
    | (none, s) => s
  else s

/-- `tsch_associate` at time `now`. -/
def tschAssociate (m : Mac) (now : Nat) : Mac :=
  { m with
    waitingForRadioInterrupt := false, isSync := true, state := .associated
    store := if m.store.workingOnQueue then m.store else cfg.links.foldl (associateLink cfg) m.store
    start := now % 2 ^ cfg.plat.clockBits, start0 := now % 2 ^ cfg.plat.clockBits
    asn0 := m.asn, corrSum := 0 }

/-- The statics and globals before `init`: all zero. -/
def zero : Mac where
  store := Store.empty
  asn := 0
  isSync := false
  state := .off
  pc := .begin
  timeslot := 0
  driftCorrection := 0
  drift := 0
  driftCounter := 0
  cellDecison := .off
  cell := none
  p := none
  n := none
  isBroadcast := false
  len := 0
  seqno := 0
  start := 0
  channel := 0
  lastDrift := 0
  lastRf := none
  needAck := false
  waitingForRadioInterrupt := false
  ackbuf := List.replicate 8 0
  events := []
  sentCalls := []
  txLog := []
  attempts := []
  start0 := 0
  asn0 := 0
  corrSum := 0

/-- `init`, which ends with `tsch_associate` at time `now`. -/
def init (now : Nat) : Mac :=
  tschAssociate cfg zero now

/-- An 802.15.4 data frame: frame control, the sequence number, then the payload. -/
def dataFramer (pb : Packetbuf) : Option (List UInt8) :=
  some ([0x41, 0x88, UInt8.ofNat pb.macSeqno] ++ pb.payload)

/-- The driver as this file sets it up on the cc2420 platform. -/
def shipped : Config :=
  ⟨BufferSize.eight, 8, dataFramer, minimumSlotframe, linksList, cc2420Platform⟩

def step (m : Mac) : Event → Option Mac
  | .sendPacket sent ptr pb alloc =>
      some { m with
        store := (m.store.sendOnePacket cfg.B cfg.maxNeighbors cfg.framer sent ptr pb alloc).2 }
  | .sendList sent ptr bufs =>
      some { m with store := m.store.sendList cfg.B cfg.maxNeighbors cfg.framer sent ptr bufs }
  | .dispatch => tschTxCallback m
  | .powercycle r => powercycle cfg m r
  | .softAck seqno lastPacketTimestamp nack => some (makeSyncAck cfg m seqno lastPacketTimestamp nack)
  | .interruptExit needAck lastRf => some (tschResumePowercycle m needAck lastRf)

/-- A sequence of events; `none` once an event has no successor. -/
def run (m : Mac) : List Event → Option Mac
  | [] => some m
  | e :: es => (step cfg m e).bind fun m => run m es

/-- The states some run from `init` reaches. -/
inductive Reachable : Mac → Prop
  | init (now : Nat) : Reachable (init cfg now)
  | step {m m' : Mac} (e : Event) : Reachable m → step cfg m e = some m' → Reachable m'

/-- The event ran the end-of-slot accounting: it is a call of `powercycle` that left the
protothread at the slot start, which no yield does. -/
def EndsSlot (e : Event) (m' : Mac) : Prop :=
  (∃ r, e = .powercycle r) ∧ m'.pc = .slotStart

theorem tschTxCallback_spec {m m' : Mac} (h : tschTxCallback m = some m') :
    ∃ p rest pk, m.events = p :: rest ∧ m.store.slot p = some pk ∧
      m' = { m with
        events := rest
        sentCalls := m.sentCalls ++ [⟨pk.sent, pk.ptr, pk.ret, pk.transmissions, pk.uid⟩] } := by
  unfold tschTxCallback at h
  split at h
  · cases h
  · rename_i p rest hev
    simp only [Option.bind_eq_bind, Option.bind_eq_some, Option.some.injEq] at h
    obtain ⟨pk, hpk, rfl⟩ := h
    exact ⟨p, rest, pk, hev, hpk, rfl⟩

theorem run_append (m : Mac) (es es' : List Event) :
    run cfg m (es ++ es') = (run cfg m es).bind fun m => run cfg m es' := by
  induction es generalizing m with
  | nil => rfl
  | cons e es ih =>
      simp only [List.cons_append, run]
      cases step cfg m e <;> simp [ih]

theorem reachable_of_run {m m' : Mac} (hm : Reachable cfg m) {es : List Event}
    (h : run cfg m es = some m') : Reachable cfg m' := by
  induction es generalizing m with
  | nil => cases h; exact hm
  | cons e es ih =>
      simp only [run, Option.bind_eq_some] at h
      obtain ⟨m₁, h₁, h₂⟩ := h
      exact ih (hm.step e h₁) h₂

/-! ## Runs of the shipped driver -/

/-- A radio on which nothing happens, read at `now`. -/
def quietRadio (now : Nat) : Radio :=
  ⟨0, now, 0, 0, true, 0, false, false, false, false, 0, [], 0, 0, false⟩

/-- One packet for `cellAddress1`, taken by the first shared cell; the channel is clear, the
frame goes out, and no ACK comes.  Then the poll is dispatched. -/
def noackTrace : List Event :=
  [.sendPacket 0 0 ⟨cellAddress1, [1, 2, 3], false, 0⟩ (some 0),
    .powercycle (quietRadio 100),
    .powercycle (quietRadio 600),
    .powercycle { quietRadio 600 with ccaNow := 551, channelClear := true },
    .powercycle { quietRadio 600 with transmit := radioTxOk },
    .powercycle (quietRadio 600),
    .powercycle (quietRadio 600),
    .dispatch]

end Mac

end Tsch
