import Tsch.Ring

/-!
# The neighbor queue store

`neighbor_list` is a Contiki neighbor table of `struct neighbor_queue`, keyed by the
neighbor's link-layer address.  The driver reaches it through `neighbor_queue_from_addr`,
`add_queue`, `remove_queue`, the table-level packet functions and the round robin
`get_next_packet_for_shared_slot_tx` of shared broadcast cells, and fills it from
`send_one_packet`, `send_packet` and `send_list`.

**Model.**  The table is the list of its entries in allocation order; a pointer to an entry
is its address, a pointer to a ring slot is a `SlotRef`.  The neighbor-table allocator
`nbr_table_add_lladdr` is not in `tsch.c`; `nbrTableAddLladdr` takes its behaviour from the
spec (append at the tail while fewer than `maxNeighbors` entries are in use, never evict),
and every result about the table's size or order rests on it.  The framer and the queue-buffer
allocator are collaborators: `framer` turns a `packetbuf` into frame bytes or fails, and
the buffer `queuebuf_new_from_packetbuf` returns (or NULL) is an input of each send.
`Store` also keeps two ghost logs: the accepted packets, in acceptance order, whose index is
the packet's `uid`, and the buffers handed to `queuebuf_free`.

**Results.**
* `lookup_modifyQueue_self`, `lookup_modifyQueue_ne`: updating one entry leaves the others.
* `sendOnePacket_accepts_null_buffer`: `add_packet_to_queue` reports success and fills a
  ring slot when the allocator returned NULL.
* `queue_buffer_freed_twice_or_leaked`: `remove_queue` frees the buffer of a popped packet
  again, and `add_queue` on a live entry loses the buffers still queued.
-/

namespace Tsch

/-- A pointer `&n->buffer[index]` into the ring of the queue keyed `addr`. -/
structure SlotRef where
  addr : RimeAddr
  index : Nat
  deriving DecidableEq, Repr

/-- The `packetbuf` fields `send_one_packet` reads and sets. -/
structure Packetbuf where
  receiver : RimeAddr
  payload : List UInt8
  macAck : Bool
  macSeqno : Nat
  deriving DecidableEq, Repr

/-! ## Table entries -/

/-- Apply `f` to the queue of the first entry keyed `a`. -/
def modifyQueue (a : RimeAddr) (f : NeighborQueue → NeighborQueue) :
    List (RimeAddr × NeighborQueue) → List (RimeAddr × NeighborQueue)
  | [] => []
  | (b, n) :: t => if b = a then (b, f n) :: t else (b, n) :: modifyQueue a f t

section ModifyQueue

variable {a b : RimeAddr} {f : NeighborQueue → NeighborQueue}

@[simp] theorem lookup_cons (a b : RimeAddr) (n : NeighborQueue)
    (t : List (RimeAddr × NeighborQueue)) :
    ((b, n) :: t).lookup a = if a = b then some n else t.lookup a := by
  by_cases h : a = b
  · simp [List.lookup_cons, h]
  · simp [List.lookup_cons, beq_eq_false_iff_ne.2 h, h]

@[simp] theorem lookup_modifyQueue_self (t : List (RimeAddr × NeighborQueue)) :
    (modifyQueue a f t).lookup a = (t.lookup a).map f := by
  induction t with
  | nil => rfl
  | cons e t ih =>
      obtain ⟨c, n⟩ := e
      by_cases hc : c = a
      · subst hc; simp [modifyQueue]
      · simp [modifyQueue, hc, ih, Ne.symm hc]

theorem lookup_modifyQueue_ne (h : b ≠ a) (t : List (RimeAddr × NeighborQueue)) :
    (modifyQueue a f t).lookup b = t.lookup b := by
  induction t with
  | nil => rfl
  | cons e t ih =>
      obtain ⟨c, n⟩ := e
      by_cases hc : c = a
      · subst hc; simp [modifyQueue, h]
      · by_cases hb : b = c
        · subst hb; simp [modifyQueue, hc]
        · simp [modifyQueue, hc, ih, hb]

@[simp] theorem map_fst_modifyQueue (t : List (RimeAddr × NeighborQueue)) :
    (modifyQueue a f t).map Prod.fst = t.map Prod.fst := by
  induction t with
  | nil => rfl
  | cons e t ih => unfold modifyQueue; split_ifs <;> simp [ih]

@[simp] theorem length_modifyQueue (t : List (RimeAddr × NeighborQueue)) :
    (modifyQueue a f t).length = t.length := by
  have := congrArg List.length (map_fst_modifyQueue (a := a) (f := f) t)
  simpa only [List.length_map] using this

/-- A property of queues that `f` keeps holds of every entry after `modifyQueue`. -/
theorem forall_modifyQueue {P : NeighborQueue → Prop} (hf : ∀ n, P n → P (f n))
    {t : List (RimeAddr × NeighborQueue)} (ht : ∀ e ∈ t, P e.2) :
    ∀ e ∈ modifyQueue a f t, P e.2 := by
  induction t with
  | nil => simp [modifyQueue]
  | cons e t ih =>
      unfold modifyQueue
      split_ifs
      · simp only [List.mem_cons, forall_eq_or_imp]
        exact ⟨hf _ (ht e (by simp)), fun e' he' => ht e' (by simp [he'])⟩
      · simp only [List.mem_cons, forall_eq_or_imp]
        exact ⟨ht e (by simp), ih fun e' he' => ht e' (by simp [he'])⟩

end ModifyQueue

/-! ## The store -/

/-- The queue store; the cursor `last_neighbor_tx` is an entry index, and `accepted` and
`freed` are the ghost logs. -/
structure Store where
  neighborList : List (RimeAddr × NeighborQueue)
  lastNeighborTx : Option Nat
  dsn : Nat
  workingOnQueue : Bool
  accepted : List RimeAddr
  freed : List (Option QueueBuf)

namespace Store

def empty : Store := ⟨[], none, 0, false, [], []⟩

section Ops

variable (B : BufferSize)

def neighborQueueFromAddr (s : Store) (a : RimeAddr) : Option NeighborQueue :=
  s.neighborList.lookup a

/-- The packet a slot pointer points to. -/
def slot (s : Store) (r : SlotRef) : Option TschPacket :=
  (s.neighborQueueFromAddr r.addr).map fun n => n.buffer r.index

/-- `nbr_table_add_lladdr`, which `tsch.c` calls but does not define, with the entry `q`
that `add_queue` then writes.  Modelled from the spec: the new entry goes at the tail, and
the call fails once `maxNeighbors` entries are in use. -/
def nbrTableAddLladdr (maxNeighbors : Nat) (t : List (RimeAddr × NeighborQueue))
    (a : RimeAddr) (q : NeighborQueue) : Option (List (RimeAddr × NeighborQueue)) :=
  if t.length < maxNeighbors then some (t ++ [(a, q)]) else none

/-- `add_queue`: renew an existing entry, or allocate one. -/
def addQueue (maxNeighbors : Nat) (s : Store) (a : RimeAddr) : Option RimeAddr × Store :=
  match s.neighborQueueFromAddr a with
  | some _ =>
      (some a, { s with
        neighborList := modifyQueue a (NeighborQueue.init B) s.neighborList
        workingOnQueue := false })
  | none =>
      match nbrTableAddLladdr maxNeighbors s.neighborList a (NeighborQueue.init B .zero) with
      | some t => (some a, { s with neighborList := t, workingOnQueue := false })
      | none => (none, { s with workingOnQueue := false })

/-- `remove_queue`: free the buffer of every slot of the ring, then drop the entry. -/
def removeQueue (s : Store) (a : RimeAddr) : Bool × Store :=
  match s.neighborQueueFromAddr a with
  | some n =>
      (true, { s with
        neighborList := s.neighborList.eraseP fun e => e.1 = a
        freed := s.freed ++ (List.range B.N).map fun i => (n.buffer i).pkt
        workingOnQueue := false })
  | none => (false, { s with workingOnQueue := false })

/-- `add_packet_to_queue`: `pkt` is what `queuebuf_new_from_packetbuf` returned. -/
def addPacketToQueue (s : Store) (sent ptr : Nat) (a : RimeAddr) (pkt : Option QueueBuf) :
    Bool × Store :=
  match s.neighborQueueFromAddr a with
  | some n =>
      ((n.addPacket B pkt sent ptr s.accepted.length).1, { s with
        neighborList :=
          modifyQueue a (fun n => (n.addPacket B pkt sent ptr s.accepted.length).2)
            s.neighborList
        accepted :=
          if (n.addPacket B pkt sent ptr s.accepted.length).1 then s.accepted ++ [a]
          else s.accepted })
  | none => (false, s)

def removePacketFromQueue (s : Store) (a : RimeAddr) : Bool × Store :=
  match s.neighborQueueFromAddr a with
  | some n =>
      ((n.removePacket B).1, { s with
        neighborList := modifyQueue a (fun n => (n.removePacket B).2.2) s.neighborList
        freed := s.freed ++ (n.removePacket B).2.1 })
  | none => (false, s)

def readPacketFromQueue (s : Store) (a : RimeAddr) : Option SlotRef :=
  (s.neighborQueueFromAddr a).bind fun n => (n.readPacket B).map (SlotRef.mk a)

/-- `read_packet_from_neighbor_queue`: the head slot index of a queue. -/
def readPacketFromNeighborQueue (n : Option NeighborQueue) : Option Nat :=
  n.bind fun n => n.readPacket B

/-- The loop of `get_next_packet_for_shared_slot_tx` from the entry at index `i`. -/
def scanFrom : List (RimeAddr × NeighborQueue) → Nat → Option SlotRef × Option Nat
  | [], _ => (none, none)
  | (a, n) :: rest, i =>
      match readPacketFromNeighborQueue B (some n) with
      | some idx => (some ⟨a, idx⟩, if rest.isEmpty then none else some (i + 1))
      | none => scanFrom rest (i + 1)

/-- `get_next_packet_for_shared_slot_tx`: the scan stops at the end of the table. -/
def getNextPacketForSharedSlotTx (s : Store) : Option SlotRef × Store :=
  match s.lastNeighborTx.orElse fun _ => if s.neighborList.isEmpty then none else some 0 with
  | none => (none, { s with lastNeighborTx := none })
  | some i =>
      ((scanFrom B (s.neighborList.drop i) i).1,
        { s with lastNeighborTx := (scanFrom B (s.neighborList.drop i) i).2 })

/-- `(++dsn) ? dsn : ++dsn` on the `uint8_t` counter. -/
def nextDsn (dsn : Nat) : Nat :=
  if uint8 (dsn + 1) ≠ 0 then uint8 (dsn + 1) else uint8 (uint8 (dsn + 1) + 1)

/-- `send_one_packet`; `alloc` is what `queuebuf_new_from_packetbuf` returns. -/
def sendOnePacket (maxNeighbors : Nat) (framer : Packetbuf → Option (List UInt8))
    (s : Store) (sent ptr : Nat) (pb : Packetbuf) (alloc : Option Nat) : Bool × Store :=
  let pb := { pb with
    macAck := if pb.receiver ≠ rimeaddrNull then true else pb.macAck
    macSeqno := nextDsn s.dsn }
  let s := { s with dsn := nextDsn s.dsn }
  match framer pb with
  | none => (false, s)
  | some frame =>
      let pkt := alloc.map fun id => ⟨id, pb.receiver, frame⟩
      match s.neighborQueueFromAddr pb.receiver with
      | some _ => s.addPacketToQueue B sent ptr pb.receiver pkt
      | none =>
          match s.addQueue B maxNeighbors pb.receiver with
          | (none, s) => (false, s)
          | (some _, s) => s.addPacketToQueue B sent ptr pb.receiver pkt

/-- `send_list`: send the buffers in order and stop at the first that is refused. -/
def sendList (maxNeighbors : Nat) (framer : Packetbuf → Option (List UInt8))
    (s : Store) (sent ptr : Nat) : List (Packetbuf × Option Nat) → Store
  | [] => s
  | (pb, alloc) :: rest =>
      if (s.sendOnePacket B maxNeighbors framer sent ptr pb alloc).1 then
        sendList maxNeighbors framer (s.sendOnePacket B maxNeighbors framer sent ptr pb alloc).2
          sent ptr rest
      else (s.sendOnePacket B maxNeighbors framer sent ptr pb alloc).2

end Ops

section AddQueue

variable {B : BufferSize} {k : Nat} {s : Store} {a : RimeAddr}

theorem addQueue_of_some {q : NeighborQueue} (hq : s.neighborQueueFromAddr a = some q) :
    s.addQueue B k a = (some a, { s with
      neighborList := modifyQueue a (NeighborQueue.init B) s.neighborList
      workingOnQueue := false }) := by
  simp only [addQueue, hq]

theorem addQueue_of_none (hn : s.neighborQueueFromAddr a = none) :
    s.addQueue B k a =
      if s.neighborList.length < k then
        (some a, { s with
          neighborList := s.neighborList ++ [(a, NeighborQueue.init B .zero)]
          workingOnQueue := false })
      else (none, { s with workingOnQueue := false }) := by
  simp only [addQueue, hn, nbrTableAddLladdr]
  split_ifs <;> rfl

end AddQueue

/-- `add_packet_to_queue` does not look at what `queuebuf_new_from_packetbuf` returned: a
unicast `send_one_packet` to a new neighbor, with a framer that succeeds and an allocator
that returns NULL, reports success and leaves a NULL buffer in the neighbor's FIFO view. -/
theorem sendOnePacket_accepts_null_buffer :
    (Store.empty.sendOnePacket BufferSize.eight 8
        (fun pb => some ([0x41, 0x88, UInt8.ofNat pb.macSeqno] ++ pb.payload))
        0 0 ⟨cellAddress1, [1, 2, 3], false, 0⟩ none).1 = true ∧
    ((Store.empty.sendOnePacket BufferSize.eight 8
        (fun pb => some ([0x41, 0x88, UInt8.ofNat pb.macSeqno] ++ pb.payload))
        0 0 ⟨cellAddress1, [1, 2, 3], false, 0⟩ none).2.neighborQueueFromAddr cellAddress1).map
        (NeighborQueue.contents BufferSize.eight) =
      some [⟨none, 0, 0, 0, .txDeferred, 0⟩] := by
  decide

def aQueueBuf : QueueBuf := ⟨0, cellAddress1, [0x41, 0x88, 1]⟩

/-- The ring slots keep the buffer pointer of a popped packet, and `remove_queue` frees all
`NBR_BUFFER_SIZE` of them; `add_queue` on an address that has an entry clears the pointers
of the packets still queued.  So a buffer popped by `remove_packet_from_queue` is freed a
second time when the queue is removed, and a buffer queued when `add_queue` renews its entry
is never freed. -/
theorem queue_buffer_freed_twice_or_leaked :
    ((((Store.empty.addQueue BufferSize.eight 8 cellAddress1).2.addPacketToQueue BufferSize.eight
        0 0 cellAddress1 (some aQueueBuf)).2.removePacketFromQueue BufferSize.eight
        cellAddress1).2.removeQueue BufferSize.eight cellAddress1).2.freed.count
        (some aQueueBuf) = 2 ∧
    ((((Store.empty.addQueue BufferSize.eight 8 cellAddress1).2.addPacketToQueue BufferSize.eight
        0 0 cellAddress1 (some aQueueBuf)).2.addQueue BufferSize.eight 8
        cellAddress1).2.removeQueue BufferSize.eight cellAddress1).2.freed.count
        (some aQueueBuf) = 0 := by
  decide

end Store

end Tsch
