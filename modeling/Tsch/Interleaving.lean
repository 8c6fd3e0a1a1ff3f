import Tsch.Ring

/-!
# The main task and the slot machine on one ring

`add_packet_to_queue` runs in the main task and does not raise `working_on_queue`; the
slot machine, `powercycle`, runs from the timer interrupt and can take control between any
two statements of it.  The interrupt is not preempted by the main task, so each of its
accesses to the ring between two `PT_YIELD`s is atomic.

**Model.**  `QueueSys` is one neighbor ring with the main task's position in the body of
`add_packet_to_queue` (lines 226-238): the full test, the five stores into
`buffer[put_ptr]`, and the store to `put_ptr`.  The slot machine reads the head into `p`,
stores through it, and pops, after which it still stores `p->ret` (line 875).  An event
that is not enabled leaves the state as it is; the ghost lists `accepted` and `popped`
record the calls that returned 1 and the packets the pops dropped.

**Results.**
* `addStmt_run_eq_addPacket`: the statement-level body, run without interruption, is the
  atomic `NeighborQueue.addPacket`.
* `step_inv`, `run_inv`: the invariant `QueueSys.Inv` holds after every interleaving.
* `interleaving_no_torn_slot`: the slot machine never reads the slot the main task writes.
-/

namespace Tsch

/-- The arguments of one `add_packet_to_queue` call, with the packet's ghost `uid`. -/
structure Call where
  pkt : Option QueueBuf
  sent : Nat
  ptr : Nat
  uid : Nat
  deriving DecidableEq, Repr

/-- The call a slot's packet was written by. -/
def TschPacket.call (p : TschPacket) : Call :=
  ⟨p.pkt, p.sent, p.ptr, p.uid⟩

@[simp] theorem TschPacket.call_newPacket (c : Call) :
    (NeighborQueue.newPacket c.pkt c.sent c.ptr c.uid).call = c := rfl

/-- The next statement of `add_packet_to_queue` in the main task. -/
inductive AddPc
  | idle
  | full
  | pkt
  | sent
  | ptr
  | ret
  | transmissions
  | advance
  deriving DecidableEq, Repr

/-- The statements after the full test, up to the store to `put_ptr`. -/
def AddPc.writing : AddPc → Bool
  | .idle | .full => false
  | _ => true

/-- The fields of `buffer[put_ptr]` the main task has stored when it is at `pc`. -/
def AddPc.Stored : AddPc → Call → TschPacket → Prop
  | .sent, c, p => p.pkt = c.pkt ∧ p.uid = c.uid
  | .ptr, c, p => p.pkt = c.pkt ∧ p.uid = c.uid ∧ p.sent = c.sent
  | .ret, c, p => p.pkt = c.pkt ∧ p.uid = c.uid ∧ p.sent = c.sent ∧ p.ptr = c.ptr
  | .transmissions, c, p =>
      p.pkt = c.pkt ∧ p.uid = c.uid ∧ p.sent = c.sent ∧ p.ptr = c.ptr ∧ p.ret = .txDeferred
  | .advance, c, p => p = NeighborQueue.newPacket c.pkt c.sent c.ptr c.uid
  | _, _, _ => True

/-- One ring shared by the main task and the slot machine. -/
structure QueueSys where
  q : NeighborQueue
  pc : AddPc
  call : Call
  held : Option Nat
  accepted : List Call
  popped : List Call

/-- One step of either side. -/
inductive QueueEvent
  /-- The main task enters `add_packet_to_queue`; the queue is found. -/
  | call (c : Call)
  /-- The main task runs its next statement. -/
  | stmt
  /-- The slot machine reads the head into `p`. -/
  | read
  /-- The slot machine stores `p->transmissions` and `p->ret`. -/
  | touch (transmissions : Nat) (ret : MacStatus)
  /-- The slot machine runs `remove_packet_from_queue`, then stores `p->ret`. -/
  | pop (ret : MacStatus)

namespace QueueSys

variable (B : BufferSize)

/-- A store into `n->buffer[n->put_ptr]`, then the next statement. -/
def storePut (s : QueueSys) (f : TschPacket → TschPacket) (pc : AddPc) : QueueSys :=
  { s with
    q := { s.q with buffer := Function.update s.q.buffer s.q.putPtr (f (s.q.buffer s.q.putPtr)) }
    pc := pc }

/-- The main task runs its next statement of `add_packet_to_queue`. -/
def addStmt (s : QueueSys) : QueueSys :=
  match s.pc with
  | .idle => s
  | .full =>
      if NeighborQueue.occupancy B s.q = (B.N - 1 : Nat) then { s with pc := .idle }
      else { s with pc := .pkt }
  | .pkt => s.storePut (fun p => { p with pkt := s.call.pkt, uid := s.call.uid }) .sent
  | .sent => s.storePut (fun p => { p with sent := s.call.sent }) .ptr
  | .ptr => s.storePut (fun p => { p with ptr := s.call.ptr }) .ret
  | .ret => s.storePut (fun p => { p with ret := .txDeferred }) .transmissions
  | .transmissions => s.storePut (fun p => { p with transmissions := 0 }) .advance
  | .advance =>
      { s with
        q := { s.q with putPtr := uint8 ((s.q.putPtr + 1) &&& (B.N - 1)) }
        pc := .idle
        accepted := s.accepted ++ [s.call] }

/-- The ring after `remove_packet_from_queue` and the store of `p->ret`. -/
def popRing (s : QueueSys) (ret : MacStatus) : NeighborQueue :=
  match s.held with
  | none => (NeighborQueue.removePacket B s.q).2.2
  | some i =>
    { (NeighborQueue.removePacket B s.q).2.2 with
      buffer := Function.update (NeighborQueue.removePacket B s.q).2.2.buffer i
        { (NeighborQueue.removePacket B s.q).2.2.buffer i with ret := ret } }

def step (s : QueueSys) : QueueEvent → QueueSys
  | .call c => if s.pc = .idle then { s with pc := .full, call := c } else s
  | .stmt => addStmt B s
  | .read => { s with held := NeighborQueue.readPacket B s.q }
  | .touch tx r =>
    match s.held with
    | none => s
    | some i =>
      { s with
        q := { s.q with
          buffer := Function.update s.q.buffer i { s.q.buffer i with transmissions := tx, ret := r } } }
  | .pop r =>
    { s with
      q := popRing B s r
      held := none
      popped := if (NeighborQueue.removePacket B s.q).1 then s.popped ++ [(s.q.buffer s.q.getPtr).call]
        else s.popped }

def run (s : QueueSys) : List QueueEvent → QueueSys
  | [] => s
  | e :: es => run (step B s e) es

/-- A ring `q`, both sides idle; the packets already queued count as accepted. -/
def start (q : NeighborQueue) : QueueSys :=
  ⟨q, .idle, ⟨none, 0, 0, 0⟩, none, (NeighborQueue.contents B q).map TschPacket.call, []⟩

end QueueSys

/-! ## The window of queued slots -/

namespace NeighborQueue

variable {B : BufferSize} {q : NeighborQueue}

/-- Slot `i` holds a queued packet. -/
def InWindow (B : BufferSize) (q : NeighborQueue) (i : Nat) : Prop :=
  ∃ j < count B q, (q.getPtr + j) % B.N = i

theorem getPtr_inWindow (h : WF B q) (hc : 0 < count B q) : InWindow B q q.getPtr :=
  ⟨0, hc, by rw [Nat.add_zero, Nat.mod_eq_of_lt h.2]⟩

/-- `put_ptr` never points into the window. -/
theorem putPtr_not_inWindow (h : WF B q) : ¬InWindow B q q.putPtr := by
  rintro ⟨j, hj, he⟩
  rw [putPtr_eq_window h] at he
  exact absurd (window_index_inj (by have := count_lt B q; omega) (count_lt B q) he) (by omega)

theorem putPtr_ne_getPtr (h : WF B q) (hc : 0 < count B q) : q.putPtr ≠ q.getPtr :=
  fun he => putPtr_not_inWindow h (he ▸ getPtr_inWindow h hc)

/-- A store into a slot outside the window leaves the FIFO view as it is. -/
theorem contents_update_of_not_inWindow (h : WF B q) {i : Nat} (hi : ¬InWindow B q i)
    (p : TschPacket) : contents B { q with buffer := Function.update q.buffer i p } = contents B q := by
  rw [contents_eq h, contents_eq (n := { q with buffer := Function.update q.buffer i p }) h]
  exact List.map_congr_left fun j hj => Function.update_noteq
    (fun he => hi ⟨j, List.mem_range.1 hj, he⟩) _ _

/-- A store that keeps a slot's call keeps the calls of the FIFO view. -/
theorem map_call_contents_update (h : WF B q) {i : Nat} {p : TschPacket}
    (hp : p.call = (q.buffer i).call) :
    (contents B { q with buffer := Function.update q.buffer i p }).map TschPacket.call =
      (contents B q).map TschPacket.call := by
  rw [contents_eq h, contents_eq (n := { q with buffer := Function.update q.buffer i p }) h,
    List.map_map, List.map_map]
  refine List.map_congr_left fun j _ => ?_
  simp only [Function.comp, Function.update_apply]
  split_ifs with he
  · rw [hp, he]
  · rfl

theorem count_removePacket (h : WF B q) :
    count B (removePacket B q).2.2 = count B q - 1 := by
  rw [← length_contents (removePacket_wf h), removePacket_contents h, List.length_tail,
    length_contents h]

theorem removePacket_putPtr (q : NeighborQueue) : (removePacket B q).2.2.putPtr = q.putPtr := by
  unfold removePacket; split_ifs <;> rfl

theorem removePacket_buffer (q : NeighborQueue) : (removePacket B q).2.2.buffer = q.buffer := by
  unfold removePacket; split_ifs <;> rfl

/-- The slot a pop frees is outside the new window. -/
theorem getPtr_not_inWindow_removePacket (h : WF B q) (hc : 0 < count B q) :
    ¬InWindow B (removePacket B q).2.2 q.getPtr := by
  rintro ⟨j, hj, he⟩
  rw [count_removePacket h] at hj
  simp only [removePacket_of_pos h hc] at he
  have he' : (q.getPtr + (1 + j)) % B.N = (q.getPtr + 0) % B.N :=
    calc (q.getPtr + (1 + j)) % B.N = ((q.getPtr + 1) % B.N + j) % B.N := by
          rw [Nat.mod_add_mod, Nat.add_assoc]
      _ = q.getPtr := he
      _ = (q.getPtr + 0) % B.N := by rw [Nat.add_zero, Nat.mod_eq_of_lt h.2]
  have := count_lt B q
  exact absurd (window_index_inj (by omega) B.N_pos he') (by omega)

end NeighborQueue

/-! ## The main task alone -/

namespace QueueSys

open NeighborQueue

variable (B : BufferSize)

/-- Five stores and the `put_ptr` update, run without interruption, are `addPacket`: the
statement-level body of `add_packet_to_queue` computes the atomic one. -/
theorem addStmt_run_eq_addPacket (s : QueueSys) (h : WF B s.q) (hs : s.pc = .idle) (c : Call) :
    (run B s (.call c :: List.replicate 7 .stmt)).q = (addPacket B s.q c.pkt c.sent c.ptr c.uid).2 ∧
      (run B s (.call c :: List.replicate 7 .stmt)).pc = .idle ∧
      (run B s (.call c :: List.replicate 7 .stmt)).accepted =
        if (addPacket B s.q c.pkt c.sent c.ptr c.uid).1 then s.accepted ++ [c] else s.accepted := by
  have hlt := count_lt B s.q
  by_cases hc : count B s.q < B.N - 1
  · have hocc : occupancy B s.q ≠ (B.N - 1 : Nat) := by rw [occupancy_eq_count h]; omega
    rw [addPacket_of_lt h hc]
    simp only [run, List.replicate, step, hs, if_true, addStmt, hocc, if_false, storePut,
      Function.update_same, Function.update_idem, advance_eq, and_true]
    rfl
  · have hocc : occupancy B s.q = (B.N - 1 : Nat) := by rw [occupancy_eq_count h]; omega
    rw [addPacket_of_full h (by omega)]
    simp only [run, List.replicate, step, hs, if_true, addStmt, hocc]
    exact ⟨trivial, trivial, rfl⟩

/-! ## The invariant -/

/-- What holds between any two events. -/
structure Inv (s : QueueSys) : Prop where
  wf : WF B s.q
  fifo : s.accepted = s.popped ++ (contents B s.q).map TschPacket.call
  room : s.pc.writing = true → count B s.q < B.N - 1
  stored : s.pc.Stored s.call (s.q.buffer s.q.putPtr)
  held : ∀ i, s.held = some i → i = s.q.getPtr ∧ 0 < count B s.q

theorem inv_start {q : NeighborQueue} (h : WF B q) : Inv B (start B q) :=
  ⟨h, rfl, by simp [start, AddPc.writing], trivial, by simp [start]⟩

variable {B}

/-- A store into `buffer[put_ptr]` keeps everything but the stored fields. -/
theorem storePut_inv {s : QueueSys} (hi : Inv B s) (hw : s.pc.writing = true)
    (f : TschPacket → TschPacket) {pc : AddPc}
    (hst : pc.Stored s.call (f (s.q.buffer s.q.putPtr))) : Inv B (s.storePut f pc) where
  wf := hi.wf
  fifo := by rw [storePut, contents_update_of_not_inWindow hi.wf (putPtr_not_inWindow hi.wf)]; exact hi.fifo
  room := fun _ => hi.room hw
  stored := by simpa [storePut] using hst
  held := hi.held

/-- After the five stores, `buffer[put_ptr]` is the packet `addPacket` would write. -/
theorem AddPc.stored_advance {p : TschPacket} {c : Call} (h : AddPc.Stored .transmissions c p) :
    AddPc.Stored .advance c { p with transmissions := 0 } := by
  cases p
  obtain ⟨h1, h2, h3, h4, h5⟩ := h
  simp_all [AddPc.Stored, NeighborQueue.newPacket]

/-- The store to `put_ptr` is `addPacket` on a ring whose slot is already written. -/
theorem advance_inv {s : QueueSys} (hi : Inv B s) (hpc : s.pc = .advance) :
    Inv B { s with
      q := { s.q with putPtr := uint8 ((s.q.putPtr + 1) &&& (B.N - 1)) }
      pc := .idle
      accepted := s.accepted ++ [s.call] } := by
  have hs : s.q.buffer s.q.putPtr = newPacket s.call.pkt s.call.sent s.call.ptr s.call.uid := by
    simpa [hpc, AddPc.Stored] using hi.stored
  have hc := hi.room (by rw [hpc]; rfl)
  have hq : { s.q with putPtr := uint8 ((s.q.putPtr + 1) &&& (B.N - 1)) } =
      (addPacket B s.q s.call.pkt s.call.sent s.call.ptr s.call.uid).2 := by
    rw [addPacket_of_lt hi.wf hc, ← hs, Function.update_eq_self, advance_eq]
  have hw := addPacket_wf hi.wf s.call.pkt s.call.sent s.call.ptr s.call.uid
  have hct := addPacket_contents hi.wf s.call.pkt s.call.sent s.call.ptr s.call.uid
  rw [if_pos hc, ← hq] at hct
  rw [← hq] at hw
  refine ⟨hw, by simp [hct, hi.fifo], by simp [AddPc.writing], trivial, fun i hi' => ?_⟩
  obtain ⟨rfl, -⟩ := hi.held i hi'
  refine ⟨rfl, ?_⟩
  rw [← length_contents hw, hct, List.length_append, List.length_singleton]
  omega

theorem addStmt_inv {s : QueueSys} (hi : Inv B s) : Inv B (addStmt B s) := by
  have hs := hi.stored
  have hlt := count_lt B s.q
  cases hpc : s.pc <;> rw [hpc] at hs <;> simp only [addStmt, hpc]
  case idle => exact hi
  case full =>
    split_ifs with hocc
    · exact { hi with room := by simp [AddPc.writing], stored := trivial }
    · refine { hi with room := fun _ => ?_, stored := trivial }
      show count B s.q < B.N - 1
      rw [occupancy_eq_count hi.wf] at hocc
      omega
  case pkt => exact storePut_inv hi (by rw [hpc]; rfl) _ ⟨rfl, rfl⟩
  case sent => exact storePut_inv hi (by rw [hpc]; rfl) _ ⟨hs.1, hs.2, rfl⟩
  case ptr => exact storePut_inv hi (by rw [hpc]; rfl) _ ⟨hs.1, hs.2.1, hs.2.2, rfl⟩
  case ret => exact storePut_inv hi (by rw [hpc]; rfl) _ ⟨hs.1, hs.2.1, hs.2.2.1, hs.2.2.2, rfl⟩
  case transmissions => exact storePut_inv hi (by rw [hpc]; rfl) _ (AddPc.stored_advance hs)
  case advance => exact advance_inv hi hpc

/-- The slot machine's `p` is the head, and `put_ptr` is not, so a store through `p` that
keeps the slot's call never reaches the slot being written. -/
theorem storeHeld_inv {s : QueueSys} (hi : Inv B s) {i : Nat} (hh : s.held = some i)
    (p : TschPacket) (hp : p.call = (s.q.buffer i).call) :
    Inv B { s with q := { s.q with buffer := Function.update s.q.buffer i p } } := by
  obtain ⟨rfl, hc⟩ := hi.held i hh
  refine ⟨hi.wf, ?_, hi.room, ?_, hi.held⟩
  · show s.accepted = s.popped ++
      (contents B { s.q with buffer := Function.update s.q.buffer s.q.getPtr p }).map TschPacket.call
    rw [map_call_contents_update hi.wf hp]
    exact hi.fifo
  · show s.pc.Stored s.call (Function.update s.q.buffer s.q.getPtr p s.q.putPtr)
    rw [Function.update_noteq (putPtr_ne_getPtr hi.wf hc)]
    exact hi.stored

theorem touch_inv {s : QueueSys} (hi : Inv B s) (tx : Nat) (r : MacStatus) :
    Inv B (step B s (.touch tx r)) := by
  rw [step]
  split
  · exact hi
  · exact storeHeld_inv hi ‹_› _ rfl

/-- The pop, with the store of `p->ret` into the freed slot: the FIFO view loses its head,
`put_ptr` and its slot are untouched. -/
theorem popRing_facts {s : QueueSys} (hi : Inv B s) (r : MacStatus) :
    WF B (popRing B s r) ∧ contents B (popRing B s r) = (contents B s.q).tail ∧
      (popRing B s r).putPtr = s.q.putPtr ∧
      (popRing B s r).buffer s.q.putPtr = s.q.buffer s.q.putPtr := by
  have hw := removePacket_wf hi.wf
  have hct := removePacket_contents hi.wf
  cases hh : s.held with
  | none =>
    simp only [popRing, hh]
    exact ⟨hw, hct, removePacket_putPtr s.q, by rw [removePacket_buffer]⟩
  | some i =>
    obtain ⟨rfl, hc⟩ := hi.held _ hh
    simp only [popRing, hh]
    refine ⟨hw, ?_, removePacket_putPtr s.q, ?_⟩
    · rw [contents_update_of_not_inWindow hw (getPtr_not_inWindow_removePacket hi.wf hc), hct]
    · rw [Function.update_noteq (putPtr_ne_getPtr hi.wf hc), removePacket_buffer]

theorem pop_inv {s : QueueSys} (hi : Inv B s) (r : MacStatus) : Inv B (step B s (.pop r)) := by
  obtain ⟨hw, hct, hput, hbuf⟩ := popRing_facts hi r
  have hcount : count B (popRing B s r) = count B s.q - 1 := by
    rw [← length_contents hw, hct, List.length_tail, length_contents hi.wf]
  refine ⟨hw, ?_, fun h => by have := hi.room h; simp only [step] at this ⊢; omega,
    by simpa [step, hput, hbuf] using hi.stored, by simp [step]⟩
  simp only [step, hct, removePacket_fst hi.wf, decide_eq_true_eq]
  have hhead := head?_contents hi.wf
  by_cases hc : 0 < count B s.q
  · rw [if_pos hc] at hhead ⊢
    obtain ⟨t, ht⟩ := List.head?_eq_some_iff.1 hhead
    rw [hi.fifo, ht]
    simp
  · rw [if_neg hc, hi.fifo, (contents_eq_nil_iff hi.wf).2 (by omega)]
    rfl

/-- A read leaves `p` at the head, or NULL on an empty ring. -/
theorem held_of_readPacket {s : QueueSys} (hi : Inv B s) {i : Nat} (h : readPacket B s.q = some i) :
    i = s.q.getPtr ∧ 0 < count B s.q := by
  rw [readPacket_eq hi.wf] at h
  split_ifs at h with hc
  exact ⟨(Option.some.inj h).symm, hc⟩

/-- Every event keeps the invariant. -/
theorem step_inv {s : QueueSys} (hi : Inv B s) : ∀ e, Inv B (step B s e)
  | .call c => by
    rw [step]
    split_ifs
    · exact { hi with room := by simp [AddPc.writing], stored := trivial }
    · exact hi
  | .stmt => addStmt_inv hi
  | .read => { hi with held := fun _ => held_of_readPacket hi }
  | .touch tx r => touch_inv hi tx r
  | .pop r => pop_inv hi r

/-- Every interleaving keeps the invariant. -/
theorem run_inv : ∀ {s : QueueSys} (es : List QueueEvent), Inv B s → Inv B (run B s es)
  | _, [], hi => hi
  | _, e :: es, hi => run_inv es (step_inv hi e)

variable (B)

/-- For every interleaving of `add_packet_to_queue`'s statements with the slot machine's
reads, stores and pops, from any well-formed ring: the slot the slot machine holds or reads
is the slot of the oldest accepted packet not yet popped, and not the slot
`add_packet_to_queue` writes; the slot it writes, `buffer[put_ptr]`, holds no queued packet;
and the accepted packets are the popped ones, in order, followed by the queued ones. -/
theorem interleaving_no_torn_slot (q : NeighborQueue) (hq : WF B q) (es : List QueueEvent) :
    (∀ i, (run B (start B q) es).held = some i ∨ readPacket B (run B (start B q) es).q = some i →
      ((run B (start B q) es).accepted.drop (run B (start B q) es).popped.length).head? =
          some ((run B (start B q) es).q.buffer i).call ∧
        i ≠ (run B (start B q) es).q.putPtr) ∧
      ¬InWindow B (run B (start B q) es).q (run B (start B q) es).q.putPtr ∧
      (run B (start B q) es).accepted =
        (run B (start B q) es).popped ++ (contents B (run B (start B q) es).q).map TschPacket.call := by
  have hi := run_inv es (inv_start B hq)
  refine ⟨fun i hread => ?_, putPtr_not_inWindow hi.wf, hi.fifo⟩
  obtain ⟨rfl, hc⟩ := hread.elim (hi.held i) (held_of_readPacket hi)
  refine ⟨?_, (putPtr_ne_getPtr hi.wf hc).symm⟩
  rw [hi.fifo, List.drop_left, List.head?_map, head?_contents hi.wf, if_pos hc]
  rfl

/-- `add_queue`'s fresh ring of eight slots. -/
def freshRing : NeighborQueue :=
  NeighborQueue.init BufferSize.eight NeighborQueue.zero

/-- A call with no queue buffer, `sent = ptr = 0`, and `uid` 1. -/
def firstCall : Call :=
  ⟨none, 0, 0, 1⟩

/-- The slot machine reads the empty ring between the first two stores and after the fifth,
the packet is then queued, read, retried and popped. -/
def interruptedAdd : List QueueEvent :=
  [.call firstCall, .stmt, .stmt, .read, .stmt, .stmt, .stmt, .read, .stmt, .stmt, .read,
    .touch 1 .txNoack, .pop .txOk]

theorem interleaving_no_torn_slot_interrupted :
    WF BufferSize.eight freshRing ∧
      (∀ i, (run BufferSize.eight (start BufferSize.eight freshRing) interruptedAdd).held = some i ∨
          readPacket BufferSize.eight
            (run BufferSize.eight (start BufferSize.eight freshRing) interruptedAdd).q = some i →
        ((run BufferSize.eight (start BufferSize.eight freshRing) interruptedAdd).accepted.drop
            (run BufferSize.eight (start BufferSize.eight freshRing) interruptedAdd).popped.length).head? =
          some ((run BufferSize.eight (start BufferSize.eight freshRing) interruptedAdd).q.buffer i).call ∧
          i ≠ (run BufferSize.eight (start BufferSize.eight freshRing) interruptedAdd).q.putPtr) ∧
      ¬InWindow BufferSize.eight (run BufferSize.eight (start BufferSize.eight freshRing) interruptedAdd).q
        (run BufferSize.eight (start BufferSize.eight freshRing) interruptedAdd).q.putPtr ∧
      (run BufferSize.eight (start BufferSize.eight freshRing) interruptedAdd).accepted =
        (run BufferSize.eight (start BufferSize.eight freshRing) interruptedAdd).popped ++
          (contents BufferSize.eight
            (run BufferSize.eight (start BufferSize.eight freshRing) interruptedAdd).q).map TschPacket.call :=
  ⟨⟨by decide, by decide⟩,
    interleaving_no_torn_slot BufferSize.eight freshRing ⟨by decide, by decide⟩ interruptedAdd⟩

example :
    ((run BufferSize.eight (start BufferSize.eight freshRing) interruptedAdd).accepted,
      (run BufferSize.eight (start BufferSize.eight freshRing) interruptedAdd).popped,
      (run BufferSize.eight (start BufferSize.eight freshRing) interruptedAdd).q.getPtr) =
      ([firstCall], [firstCall], 1) := by
  decide

end QueueSys

end Tsch
