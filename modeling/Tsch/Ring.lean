import Tsch.Basic
import Mathlib.Data.Nat.ModEq

/-!
# The neighbor ring

`struct neighbor_queue` keeps the packets for one neighbor in a circular buffer of
`NBR_BUFFER_SIZE` slots, indexed by the `uint8_t` fields `put_ptr` and `get_ptr`.  The
occupancy is the C expression `(put_ptr - get_ptr) & (NBR_BUFFER_SIZE - 1)`, evaluated in
`int`; one slot is never filled, so the ring holds at most `NBR_BUFFER_SIZE - 1` packets.

**Model.**  `addPacket`, `removePacket` and `readPacket` are the bodies of the four C
functions after the table lookup, which is in `Tsch.Store`.  Each slot carries a ghost
`uid`, the acceptance number of the packet written there.  `contents`, the FIFO view, walks
`occupancy` slots from `get_ptr`; a popped slot is not cleared.

**Results.**
* `addPacket_contents`, `removePacket_contents`, `readPacket_contents`: the step lemmas.
* `ringRun_refines`: every sequence of the four operations is simulated by `BoundedFifo`
  with capacity `NBR_BUFFER_SIZE - 1`.
-/

namespace Tsch

/-- `NBR_BUFFER_SIZE`: `QUEUEBUF_CONF_NUM` when it is a power of two, otherwise 8.
`add_queue` counts the slots in a `uint8_t`, which bounds it by 128. -/
structure BufferSize where
  log : Nat
  log_le : log ≤ 7

namespace BufferSize

/-- The number of slots of each ring. -/
def N (B : BufferSize) : Nat := 2 ^ B.log

/-- The default `NBR_BUFFER_SIZE` of 8. -/
def eight : BufferSize := ⟨3, by decide⟩

theorem N_pos (B : BufferSize) : 0 < B.N := Nat.two_pow_pos _

theorem N_le (B : BufferSize) : B.N ≤ 128 :=
  Nat.pow_le_pow_right (by decide) B.log_le

end BufferSize

/-- A queue buffer, the copy of `packetbuf` taken by `queuebuf_new_from_packetbuf`. -/
structure QueueBuf where
  id : Nat
  receiver : RimeAddr
  data : List UInt8
  deriving DecidableEq, Repr

/-- `struct TSCH_packet`; `pkt = none` is a NULL queue buffer.  `sent` and `ptr` stand for
the callback and its argument, which the driver only stores and passes on. -/
structure TschPacket where
  pkt : Option QueueBuf
  transmissions : Nat
  sent : Nat
  ptr : Nat
  ret : MacStatus
  uid : Nat
  deriving DecidableEq, Repr

/-- A slot of zero-initialised static memory. -/
def TschPacket.zero : TschPacket :=
  ⟨none, 0, 0, 0, .txOk, 0⟩

/-- `struct neighbor_queue`. -/
structure NeighborQueue where
  timeSource : Bool
  beValue : Nat
  bwValue : Nat
  buffer : Nat → TschPacket
  putPtr : Nat
  getPtr : Nat

namespace NeighborQueue

/-- A neighbor-table entry of zero-initialised static memory. -/
def zero : NeighborQueue :=
  ⟨false, 0, 0, fun _ => TschPacket.zero, 0, 0⟩

section Ring

variable (B : BufferSize)

/-- The initialisation `add_queue` performs on an entry `n`. -/
def init (n : NeighborQueue) : NeighborQueue :=
  { n with
    beValue := macMinBE
    bwValue := 0
    putPtr := 0
    getPtr := 0
    timeSource := false
    buffer := fun i =>
      if i < B.N then { n.buffer i with pkt := none, transmissions := 0 } else n.buffer i }

/-- `(n->put_ptr - n->get_ptr) & (NBR_BUFFER_SIZE - 1)`, in C `int`. -/
def occupancy (n : NeighborQueue) : Int :=
  Int.land ((n.putPtr : Int) - n.getPtr) (B.N - 1 : Nat)

/-- The packet `add_packet_to_queue` writes into the slot at `put_ptr`. -/
def newPacket (pkt : Option QueueBuf) (sent ptr uid : Nat) : TschPacket :=
  ⟨pkt, 0, sent, ptr, .txDeferred, uid⟩

/-- `add_packet_to_queue` once the queue is found. -/
def addPacket (n : NeighborQueue) (pkt : Option QueueBuf) (sent ptr uid : Nat) :
    Bool × NeighborQueue :=
  if occupancy B n = (B.N - 1 : Nat) then (false, n)
  else
    (true,
      { n with
        buffer := Function.update n.buffer n.putPtr (newPacket pkt sent ptr uid)
        putPtr := uint8 ((n.putPtr + 1) &&& (B.N - 1)) })

/-- `remove_packet_from_queue` once the queue is found, with the buffers it frees. -/
def removePacket (n : NeighborQueue) : Bool × List (Option QueueBuf) × NeighborQueue :=
  if occupancy B n > 0 then
    (true, [(n.buffer n.getPtr).pkt],
      { n with getPtr := uint8 ((n.getPtr + 1) &&& (B.N - 1)) })
  else (false, [], n)

/-- `read_packet_from_neighbor_queue` on a non-NULL queue: the index of the head slot. -/
def readPacket (n : NeighborQueue) : Option Nat :=
  if occupancy B n > 0 then some n.getPtr else none

/-- Both indices are below `NBR_BUFFER_SIZE`. -/
def WF (n : NeighborQueue) : Prop :=
  n.putPtr < B.N ∧ n.getPtr < B.N

/-- The FIFO view: `occupancy` slots from `get_ptr` on, oldest first. -/
def contents (n : NeighborQueue) : List TschPacket :=
  (List.range (occupancy B n).toNat).map fun i => n.buffer ((n.getPtr + i) % B.N)

end Ring

/-! ## The ring as a window `(get_ptr, count)` -/

section Window

variable {B : BufferSize} {n : NeighborQueue}

def count (B : BufferSize) (n : NeighborQueue) : Nat :=
  (n.putPtr + B.N - n.getPtr) % B.N

theorem count_lt (B : BufferSize) (n : NeighborQueue) : count B n < B.N :=
  Nat.mod_lt _ B.N_pos

/-- The C occupancy of a well-formed ring is its count. -/
theorem occupancy_eq_count (h : WF B n) : occupancy B n = count B n := by
  have hsum : ((n.putPtr + B.N - n.getPtr : Nat) : Int) = (n.putPtr - n.getPtr) + B.N := by
    have := h.2; omega
  have hmask : occupancy B n = ((n.putPtr : Int) - n.getPtr) % (B.N : Nat) := by
    unfold occupancy BufferSize.N
    rw [land_two_pow_sub_one]
    push_cast; rfl
  rw [hmask, count, Int.natCast_mod, hsum, Int.add_emod_self]

/-- A window of `c` slots from `g` has count `c`. -/
theorem count_eq_of_window {g c : Nat} (hg : g < B.N) (hc : c < B.N)
    (hp : n.putPtr = (g + c) % B.N) (hget : n.getPtr = g) : count B n = c := by
  rw [count, hp, hget]
  by_cases hlt : g + c < B.N
  · rw [Nat.mod_eq_of_lt hlt, show g + c + B.N - g = c + B.N by omega, Nat.add_mod_right,
      Nat.mod_eq_of_lt hc]
  · have hwrap : (g + c) % B.N = g + c - B.N := by
      rw [Nat.mod_eq_sub_mod (by omega : B.N ≤ g + c), Nat.mod_eq_of_lt (by omega)]
    rw [hwrap, show g + c - B.N + B.N - g = c by omega, Nat.mod_eq_of_lt hc]

/-- `put_ptr` sits `count` slots after `get_ptr`. -/
theorem putPtr_eq_window (h : WF B n) : n.putPtr = (n.getPtr + count B n) % B.N := by
  rw [count, Nat.add_mod_mod, show n.getPtr + (n.putPtr + B.N - n.getPtr) = n.putPtr + B.N by
    have := h.2; omega, Nat.add_mod_right, Nat.mod_eq_of_lt h.1]

/-- `(x + 1) & (NBR_BUFFER_SIZE - 1)` stored into a `uint8_t` is the next slot. -/
theorem advance_eq (B : BufferSize) (x : Nat) :
    uint8 ((x + 1) &&& (B.N - 1)) = (x + 1) % B.N := by
  rw [BufferSize.N, Nat.and_pow_two_sub_one_eq_mod, ← BufferSize.N]
  exact uint8_of_lt (by have := Nat.mod_lt (x + 1) B.N_pos; have := B.N_le; omega)

/-- Two slots of one window coincide only at the same offset. -/
theorem window_index_inj {g i j : Nat} (hi : i < B.N) (hj : j < B.N)
    (h : (g + i) % B.N = (g + j) % B.N) : i = j := by
  have := Nat.ModEq.add_left_cancel' g h
  unfold Nat.ModEq at this
  rwa [Nat.mod_eq_of_lt hi, Nat.mod_eq_of_lt hj] at this

end Window

/-! ## One operation on the FIFO view -/

section Spec

variable {B : BufferSize} {n : NeighborQueue}

theorem contents_eq (h : WF B n) :
    contents B n = (List.range (count B n)).map fun i => n.buffer ((n.getPtr + i) % B.N) := by
  rw [contents, occupancy_eq_count h, Int.toNat_ofNat]

theorem length_contents (h : WF B n) : (contents B n).length = count B n := by
  simp [contents_eq h]

theorem contents_eq_nil_iff (h : WF B n) : contents B n = [] ↔ count B n = 0 := by
  rw [← List.length_eq_zero, length_contents h]

/-- The head of the FIFO view is the slot at `get_ptr`. -/
theorem head?_contents (h : WF B n) :
    (contents B n).head? = if 0 < count B n then some (n.buffer n.getPtr) else none := by
  rw [contents_eq h]
  rcases Nat.eq_zero_or_pos (count B n) with hc | hc
  · simp [hc]
  · obtain ⟨c, hc'⟩ := Nat.exists_eq_succ_of_ne_zero hc.ne'
    rw [hc', List.range_succ_eq_map]
    simp [Nat.mod_eq_of_lt h.2]

theorem addPacket_of_full (h : WF B n) (hc : count B n = B.N - 1) (pkt : Option QueueBuf)
    (sent ptr uid : Nat) : addPacket B n pkt sent ptr uid = (false, n) := by
  rw [addPacket, if_pos (by rw [occupancy_eq_count h, hc])]

theorem addPacket_of_lt (h : WF B n) (hc : count B n < B.N - 1) (pkt : Option QueueBuf)
    (sent ptr uid : Nat) :
    addPacket B n pkt sent ptr uid =
      (true, { n with
        buffer := Function.update n.buffer n.putPtr (newPacket pkt sent ptr uid)
        putPtr := (n.putPtr + 1) % B.N }) := by
  rw [addPacket, if_neg (by rw [occupancy_eq_count h]; omega), advance_eq]

theorem addPacket_fst (h : WF B n) (pkt : Option QueueBuf) (sent ptr uid : Nat) :
    (addPacket B n pkt sent ptr uid).1 = decide (count B n < B.N - 1) := by
  have := count_lt B n
  by_cases hc : count B n < B.N - 1
  · simp [addPacket_of_lt h hc, hc]
  · simp [addPacket_of_full h (by omega), hc]

theorem addPacket_wf (h : WF B n) (pkt : Option QueueBuf) (sent ptr uid : Nat) :
    WF B (addPacket B n pkt sent ptr uid).2 := by
  have := count_lt B n
  by_cases hc : count B n < B.N - 1
  · rw [addPacket_of_lt h hc]
    exact ⟨Nat.mod_lt _ B.N_pos, h.2⟩
  · rwa [addPacket_of_full h (by omega)]

/-- A successful `add_packet_to_queue` appends the new packet to the FIFO view. -/
theorem addPacket_contents (h : WF B n) (pkt : Option QueueBuf) (sent ptr uid : Nat) :
    contents B (addPacket B n pkt sent ptr uid).2 =
      if count B n < B.N - 1 then contents B n ++ [newPacket pkt sent ptr uid]
      else contents B n := by
  have hlt := count_lt B n
  split_ifs with hc
  · have hw := addPacket_wf h pkt sent ptr uid
    rw [addPacket_of_lt h hc] at hw ⊢
    have hput := putPtr_eq_window h
    have hcount : count B { n with
        buffer := Function.update n.buffer n.putPtr (newPacket pkt sent ptr uid)
        putPtr := (n.putPtr + 1) % B.N } = count B n + 1 :=
      count_eq_of_window h.2 (by omega) (by rw [hput, Nat.mod_add_mod, Nat.add_assoc]) rfl
    rw [contents_eq hw, contents_eq h, hcount, List.range_succ, List.map_append]
    simp only [List.map_cons, List.map_nil]
    rw [← hput, Function.update_same]
    congr 1
    refine List.map_congr_left fun i hi => Function.update_noteq ?_ _ _
    rw [List.mem_range] at hi
    rw [hput]
    exact fun he => absurd (window_index_inj (by omega) (by omega) he) (by omega)
  · rw [addPacket_of_full h (by omega)]

theorem removePacket_of_pos (h : WF B n) (hc : 0 < count B n) :
    removePacket B n =
      (true, [(n.buffer n.getPtr).pkt], { n with getPtr := (n.getPtr + 1) % B.N }) := by
  rw [removePacket, if_pos (by rw [occupancy_eq_count h]; exact_mod_cast hc), advance_eq]

theorem removePacket_of_zero (h : WF B n) (hc : count B n = 0) :
    removePacket B n = (false, [], n) := by
  rw [removePacket, if_neg (by rw [occupancy_eq_count h, hc]; decide)]

theorem removePacket_wf (h : WF B n) : WF B (removePacket B n).2.2 := by
  rcases Nat.eq_zero_or_pos (count B n) with hc | hc
  · rwa [removePacket_of_zero h hc]
  · rw [removePacket_of_pos h hc]
    exact ⟨h.1, Nat.mod_lt _ B.N_pos⟩

/-- `remove_packet_from_queue` reports whether the FIFO view was non-empty. -/
theorem removePacket_fst (h : WF B n) : (removePacket B n).1 = decide (0 < count B n) := by
  rcases Nat.eq_zero_or_pos (count B n) with hc | hc
  · simp [removePacket_of_zero h hc, hc]
  · simp [removePacket_of_pos h hc, hc]

/-- The buffers freed by `remove_packet_from_queue`: the head's, if there is a head. -/
theorem removePacket_frees (h : WF B n) :
    (removePacket B n).2.1 = ((contents B n).head?.map TschPacket.pkt).toList := by
  rw [head?_contents h]
  rcases Nat.eq_zero_or_pos (count B n) with hc | hc
  · simp [removePacket_of_zero h hc, hc]
  · simp [removePacket_of_pos h hc, hc]

/-- `remove_packet_from_queue` drops the head of the FIFO view. -/
theorem removePacket_contents (h : WF B n) :
    contents B (removePacket B n).2.2 = (contents B n).tail := by
  rcases Nat.eq_zero_or_pos (count B n) with hc | hc
  · rw [removePacket_of_zero h hc, (contents_eq_nil_iff h).2 hc]; rfl
  · obtain ⟨c, hc'⟩ := Nat.exists_eq_succ_of_ne_zero hc.ne'
    have hw := removePacket_wf h
    rw [removePacket_of_pos h hc] at hw ⊢
    have hcount : count B { n with getPtr := (n.getPtr + 1) % B.N } = c := by
      have := count_lt B n
      refine count_eq_of_window (Nat.mod_lt _ B.N_pos) (by omega) ?_ rfl
      rw [putPtr_eq_window h, hc', Nat.mod_add_mod]
      congr 1; omega
    rw [contents_eq hw, contents_eq h, hcount, hc', List.range_succ_eq_map]
    simp only [List.map_cons, List.map_map, List.tail_cons]
    refine List.map_congr_left fun i _ => ?_
    simp only [Function.comp, Nat.mod_add_mod]
    congr 2; omega

/-- Both reads return the slot holding the head of the FIFO view, or NULL. -/
theorem readPacket_contents (h : WF B n) :
    (readPacket B n).map n.buffer = (contents B n).head? := by
  rw [head?_contents h, readPacket, occupancy_eq_count h]
  split_ifs with h1 h2 h2 <;> first | rfl | (exfalso; omega)

theorem readPacket_eq (h : WF B n) :
    readPacket B n = if 0 < count B n then some n.getPtr else none := by
  rw [readPacket, occupancy_eq_count h]
  simp

end Spec

end NeighborQueue

/-! ## The ring refines a bounded FIFO -/

/-- The four operations on one neighbor queue. -/
inductive QueueOp
  | addPacketToQueue (pkt : Option QueueBuf) (sent ptr uid : Nat)
  | removePacketFromQueue
  | readPacketFromQueue
  | readPacketFromNeighborQueue

/-- What an operation returns. -/
inductive QueueOut
  | status (ok : Bool) (freed : List (Option QueueBuf))
  | slot (p : Option TschPacket)
  deriving DecidableEq

/-- A FIFO list of at most `cap` packets: what a neighbor queue is for. -/
structure BoundedFifo (cap : Nat) where
  items : List TschPacket
  length_le : items.length ≤ cap

namespace BoundedFifo

variable {cap : Nat}

def empty : BoundedFifo cap := ⟨[], Nat.zero_le _⟩

/-- One operation: append when there is room, drop and free the head, or read the head. -/
def step (L : BoundedFifo cap) : QueueOp → QueueOut × BoundedFifo cap
  | .addPacketToQueue pkt sent ptr uid =>
      if h : L.items.length < cap then
        (.status true [], ⟨L.items ++ [NeighborQueue.newPacket pkt sent ptr uid],
          by rw [List.length_append, List.length_singleton]; omega⟩)
      else (.status false [], L)
  | .removePacketFromQueue =>
      match L with
      | ⟨[], h⟩ => (.status false [], ⟨[], h⟩)
      | ⟨x :: xs, h⟩ => (.status true [x.pkt], ⟨xs, by simp at h; omega⟩)
  | .readPacketFromQueue => (.slot L.items.head?, L)
  | .readPacketFromNeighborQueue => (.slot L.items.head?, L)

/-- A sequence of operations, with their results in order. -/
def run (L : BoundedFifo cap) : List QueueOp → List QueueOut × BoundedFifo cap
  | [] => ([], L)
  | op :: ops => ((L.step op).1 :: (run (L.step op).2 ops).1, (run (L.step op).2 ops).2)

end BoundedFifo

namespace NeighborQueue

variable (B : BufferSize)

/-- One operation on the ring, by the bodies of the four C functions. -/
def ringStep (n : NeighborQueue) : QueueOp → QueueOut × NeighborQueue
  | .addPacketToQueue pkt sent ptr uid =>
      (.status (addPacket B n pkt sent ptr uid).1 [], (addPacket B n pkt sent ptr uid).2)
  | .removePacketFromQueue => (.status (removePacket B n).1 (removePacket B n).2.1,
      (removePacket B n).2.2)
  | .readPacketFromQueue => (.slot ((readPacket B n).map n.buffer), n)
  | .readPacketFromNeighborQueue => (.slot ((readPacket B n).map n.buffer), n)

/-- A sequence of operations on the ring, with their results in order. -/
def ringRun (n : NeighborQueue) : List QueueOp → List QueueOut × NeighborQueue
  | [] => ([], n)
  | op :: ops => ((ringStep B n op).1 :: (ringRun (ringStep B n op).2 ops).1,
      (ringRun (ringStep B n op).2 ops).2)

/-- The refinement relation: indices in range and the FIFO view is the list. -/
def Refines (n : NeighborQueue) (L : BoundedFifo (B.N - 1)) : Prop :=
  WF B n ∧ contents B n = L.items

variable {B}

theorem init_refines (e : NeighborQueue) : Refines B (init B e) BoundedFifo.empty := by
  have hw : WF B (init B e) := ⟨B.N_pos, B.N_pos⟩
  refine ⟨hw, ?_⟩
  rw [contents_eq hw]
  simp [count, init, BoundedFifo.empty]

/-- The step lemma. -/
theorem ringStep_refines {n : NeighborQueue} {L : BoundedFifo (B.N - 1)}
    (h : Refines B n L) (op : QueueOp) :
    (ringStep B n op).1 = (L.step op).1 ∧ Refines B (ringStep B n op).2 (L.step op).2 := by
  obtain ⟨hw, hc⟩ := h
  have hlen : (contents B n).length = count B n := length_contents hw
  cases op with
  | addPacketToQueue pkt sent ptr uid =>
      have hc' := addPacket_contents hw pkt sent ptr uid
      have hroom : count B n < B.N - 1 ↔ L.items.length < B.N - 1 := by rw [← hlen, hc]
      refine ⟨?_, addPacket_wf hw _ _ _ _, ?_⟩ <;> by_cases hlt : L.items.length < B.N - 1 <;>
        simp [ringStep, BoundedFifo.step, hlt, addPacket_fst hw, hroom, hc', hc]
  | removePacketFromQueue =>
      have hf := removePacket_frees hw
      have ht := removePacket_contents hw
      have hfst := removePacket_fst hw
      obtain ⟨items, hL⟩ := L
      have hpos : 0 < count B n ↔ items ≠ [] := by
        rw [← hlen, hc, List.length_pos]
      cases items <;> simp only [ringStep, BoundedFifo.step, hfst, hpos, hf, hc] <;>
        exact ⟨by simp, removePacket_wf hw, by rw [ht, hc]; rfl⟩
  | readPacketFromQueue =>
      exact ⟨by simp only [ringStep, BoundedFifo.step, readPacket_contents hw, hc], hw, hc⟩
  | readPacketFromNeighborQueue =>
      exact ⟨by simp only [ringStep, BoundedFifo.step, readPacket_contents hw, hc], hw, hc⟩

/-- The run lemma. -/
theorem ringRun_refines {n : NeighborQueue} {L : BoundedFifo (B.N - 1)}
    (h : Refines B n L) (ops : List QueueOp) :
    (ringRun B n ops).1 = (L.run ops).1 ∧ Refines B (ringRun B n ops).2 (L.run ops).2 := by
  induction ops generalizing n L with
  | nil => exact ⟨rfl, h⟩
  | cons op ops ih =>
      obtain ⟨hout, hrel⟩ := ringStep_refines h op
      obtain ⟨hout', hrel'⟩ := ih hrel
      exact ⟨by rw [ringRun, BoundedFifo.run, hout, hout'], hrel'⟩

/-- A refused `add_packet_to_queue` leaves a well-formed ring as it was. -/
theorem addPacket_snd_of_fst_false {n : NeighborQueue} (h : WF B n) {pkt : Option QueueBuf}
    {sent ptr uid : Nat} (hf : (addPacket B n pkt sent ptr uid).1 = false) :
    (addPacket B n pkt sent ptr uid).2 = n := by
  have := count_lt B n
  rw [addPacket_fst h, decide_eq_false_iff_not] at hf
  rw [addPacket_of_full h (by omega)]

/-- From `add_queue`'s initialisation of any table entry, every sequence of the four
operations on one neighbor queue returns what a FIFO of capacity `NBR_BUFFER_SIZE - 1`
returns, keeps both indices below `NBR_BUFFER_SIZE`, and its C occupancy is the FIFO's
length; a refused add leaves the ring as it was. -/
theorem neighbor_ring_refines_bounded_fifo (B : BufferSize) (e : NeighborQueue)
    (ops : List QueueOp) :
    let r := ringRun B (init B e) ops
    let f := (BoundedFifo.empty : BoundedFifo (B.N - 1)).run ops
    r.1 = f.1 ∧ r.2.putPtr < B.N ∧ r.2.getPtr < B.N ∧
      occupancy B r.2 = f.2.items.length ∧ contents B r.2 = f.2.items ∧
      ∀ pkt sent ptr uid, (addPacket B r.2 pkt sent ptr uid).1 = false →
        (addPacket B r.2 pkt sent ptr uid).2 = r.2 := by
  intro r f
  obtain ⟨hout, hw, hc⟩ := ringRun_refines (init_refines (B := B) e) ops
  refine ⟨hout, hw.1, hw.2, ?_, hc, fun _ _ _ _ => addPacket_snd_of_fst_false hw⟩
  rw [occupancy_eq_count hw, ← length_contents hw, hc]

end NeighborQueue

end Tsch
