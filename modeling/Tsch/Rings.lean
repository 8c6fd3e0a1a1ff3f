import Tsch.System

/-!
# The rings of the queue store

`Tsch.Ring` gives one ring its FIFO view `contents`.  Here the view is lifted to the store:
`Store.ringOf` is the FIFO view of the ring of an address, and each operation of the driver
is described by what it does to the views of all rings.  The backoff state and the
time-source flag of a queue are not part of its ring, so the writes of the slot start and
of the TX outcome to `BE_value`, `BW_value` and `time_source` leave every view alone.

**Results.**
* `RingsOk`: one entry per address, every ring well formed; every operation keeps it.
* `SameRings`: two stores with the same table, rings and accepted log; the slot start and
  the writes to the backoff state stay within it.
* `sendOnePacket_rings`: `send_one_packet` appends one packet, with the next uid, to the
  ring of its receiver, or leaves every ring as it was (it may add an empty one).
* `selectPacket_isHead`: the packet a slot start selects is the head of its ring, also
  when the round robin of a shared cell takes it from another neighbor's ring.
* `txOutcome_rings`: the outcome of an attempt on the head of a ring rewrites that head or
  pops it, and touches no other ring.
-/

namespace Tsch

namespace NeighborQueue

variable {B : BufferSize} {q : NeighborQueue}

/-- The fields of a queue its ring is made of. -/
def ringPart (q : NeighborQueue) : (Nat → TschPacket) × Nat × Nat :=
  (q.buffer, q.putPtr, q.getPtr)

/-- A change to a queue that leaves its ring alone. -/
def RingFixed (f : NeighborQueue → NeighborQueue) : Prop :=
  ∀ q, (f q).ringPart = q.ringPart

theorem contents_of_ringPart {q' : NeighborQueue} (h : q'.ringPart = q.ringPart) :
    contents B q' = contents B q := by
  simp only [ringPart, Prod.mk.injEq] at h
  simp only [contents, occupancy, h]

theorem count_of_ringPart {q' : NeighborQueue} (h : q'.ringPart = q.ringPart) :
    count B q' = count B q := by
  simp only [ringPart, Prod.mk.injEq] at h
  simp only [count, h]

theorem wf_of_ringPart {q' : NeighborQueue} (h : q'.ringPart = q.ringPart) (hq : WF B q) :
    WF B q' := by
  simp only [ringPart, Prod.mk.injEq] at h
  simpa only [WF, h] using hq

/-- Writing the head slot of a non-empty ring rewrites the head of its FIFO view. -/
theorem contents_update_head (h : WF B q) (hc : 0 < count B q) (v : TschPacket) :
    contents B { q with buffer := Function.update q.buffer q.getPtr v } =
      v :: (contents B q).tail := by
  obtain ⟨c, hc'⟩ := Nat.exists_eq_succ_of_ne_zero hc.ne'
  have hlt := count_lt B q
  have hw : WF B { q with buffer := Function.update q.buffer q.getPtr v } := h
  have e : contents B { q with buffer := Function.update q.buffer q.getPtr v } =
      (List.range (count B q)).map fun i => Function.update q.buffer q.getPtr v ((q.getPtr + i) % B.N) :=
    contents_eq hw
  have hg : q.getPtr < B.N := h.2
  rw [e, contents_eq h, hc', List.range_succ_eq_map]
  simp only [List.map_cons, List.map_map, List.tail_cons]
  rw [Nat.add_zero, Nat.mod_eq_of_lt hg, Function.update_same]
  congr 1
  refine List.map_congr_left fun i hi => ?_
  rw [List.mem_range] at hi
  simp only [Function.comp_apply]
  refine Function.update_noteq (fun he => ?_) _ _
  have := window_index_inj (g := q.getPtr) (i := i + 1) (j := 0) (by omega) B.N_pos
    (by simpa [Nat.mod_eq_of_lt hg] using he)
  omega

/-- Writing a slot outside the window leaves the FIFO view alone. -/
theorem contents_update_outside (h : WF B q) {i : Nat}
    (hi : ∀ j < count B q, (q.getPtr + j) % B.N ≠ i) (v : TschPacket) :
    contents B { q with buffer := Function.update q.buffer i v } = contents B q := by
  have hw : WF B { q with buffer := Function.update q.buffer i v } := h
  rw [contents_eq hw, contents_eq h]
  exact List.map_congr_left fun j hj => Function.update_noteq (hi j (List.mem_range.1 hj)) _ _

/-- An add leaves the head of a non-empty ring where it was. -/
theorem addPacket_keeps_head (h : WF B q) (hc : 0 < count B q) (pkt : Option QueueBuf)
    (sent ptr uid : Nat) :
    (addPacket B q pkt sent ptr uid).2.getPtr = q.getPtr ∧
      0 < count B (addPacket B q pkt sent ptr uid).2 ∧
      (addPacket B q pkt sent ptr uid).2.buffer q.getPtr = q.buffer q.getPtr := by
  have hlt := count_lt B q
  have hg : q.getPtr < B.N := h.2
  by_cases hfull : count B q < B.N - 1
  · have hc' : count B (addPacket B q pkt sent ptr uid).2 = count B q + 1 := by
      rw [← length_contents (addPacket_wf h pkt sent ptr uid), addPacket_contents h, if_pos hfull,
        List.length_append, length_contents h, List.length_singleton]
    rw [addPacket_of_lt h hfull] at hc' ⊢
    refine ⟨rfl, by omega, Function.update_noteq (fun he => ?_) _ _⟩
    rw [putPtr_eq_window h] at he
    have := window_index_inj (g := q.getPtr) (i := count B q) (j := 0) hlt B.N_pos
      (by rw [Nat.add_zero, Nat.mod_eq_of_lt hg]; exact he.symm)
    omega
  · rw [addPacket_of_full h (by omega)]
    exact ⟨rfl, hc, rfl⟩

end NeighborQueue

open NeighborQueue

/-! ## Lookups in the table -/

theorem lookup_eq_none_iff {a : RimeAddr} {t : List (RimeAddr × NeighborQueue)} :
    t.lookup a = none ↔ a ∉ t.map Prod.fst := by
  induction t with
  | nil => simp
  | cons e t ih =>
      obtain ⟨b, n⟩ := e
      by_cases h : a = b <;> simp [h, ih, -List.mem_map]

theorem lookup_of_mem {a : RimeAddr} {q : NeighborQueue} {t : List (RimeAddr × NeighborQueue)}
    (hn : (t.map Prod.fst).Nodup) (h : (a, q) ∈ t) : t.lookup a = some q := by
  induction t with
  | nil => cases h
  | cons e t ih =>
      obtain ⟨b, n⟩ := e
      simp only [List.map_cons, List.nodup_cons] at hn
      rcases List.mem_cons.1 h with h | h
      · cases h; simp
      · have hb : a ≠ b := fun hab => hn.1 (hab ▸ List.mem_map_of_mem Prod.fst h)
        simp [hb, ih hn.2 h]

theorem lookup_append_singleton {a b : RimeAddr} {q : NeighborQueue}
    {t : List (RimeAddr × NeighborQueue)} (hb : t.lookup b = none) :
    (t ++ [(b, q)]).lookup a = if a = b then some q else t.lookup a := by
  induction t with
  | nil => simp
  | cons e t ih =>
      obtain ⟨c, n⟩ := e
      by_cases hbc : b = c
      · simp [hbc] at hb
      · simp only [lookup_cons, if_neg hbc] at hb
        by_cases hac : a = c
        · subst hac; simp [hbc, Ne.symm hbc]
        · simp [hac, ih hb]

namespace Store

variable {B : BufferSize} {s s' : Store}

/-! ## The views -/

/-- The FIFO view of the ring of `a`, when `a` has a queue. -/
def ringOf (B : BufferSize) (s : Store) (a : RimeAddr) : Option (List TschPacket) :=
  (s.neighborQueueFromAddr a).map (contents B)

/-- The uids of the packets in the ring of `a`, oldest first. -/
def ringUids (B : BufferSize) (s : Store) (a : RimeAddr) : List Nat :=
  ((s.ringOf B a).getD []).map TschPacket.uid

/-- One entry per address, and every ring well formed. -/
structure RingsOk (B : BufferSize) (s : Store) : Prop where
  nodup : (s.neighborList.map Prod.fst).Nodup
  wf : ∀ a q, s.neighborQueueFromAddr a = some q → WF B q

/-- `r` points at the head of a non-empty ring. -/
def IsHead (B : BufferSize) (s : Store) (r : SlotRef) : Prop :=
  ∃ q, s.neighborQueueFromAddr r.addr = some q ∧ r.index = q.getPtr ∧ 0 < count B q

/-- `r` points outside the window of its ring. -/
def Vacated (B : BufferSize) (s : Store) (r : SlotRef) : Prop :=
  ∃ q, s.neighborQueueFromAddr r.addr = some q ∧ ∀ j < count B q, (q.getPtr + j) % B.N ≠ r.index

/-- `s'` has the table, the rings and the accepted log of `s`. -/
structure SameRings (s s' : Store) : Prop where
  keys : s'.neighborList.map Prod.fst = s.neighborList.map Prod.fst
  rings : ∀ a, (s'.neighborQueueFromAddr a).map ringPart = (s.neighborQueueFromAddr a).map ringPart
  accepted : s'.accepted = s.accepted

/-- The head of a non-empty ring is the slot its `IsHead` pointer reads. -/
theorem IsHead.exists_ringOf (hs : RingsOk B s) {r : SlotRef} (hr : IsHead B s r) :
    ∃ pk L, s.ringOf B r.addr = some (pk :: L) ∧ s.slot r = some pk := by
  obtain ⟨q, hq, hi, hc⟩ := hr
  have hhead := head?_contents (hs.wf _ _ hq)
  rw [if_pos hc] at hhead
  obtain ⟨L, hL⟩ := List.head?_eq_some_iff.1 hhead
  refine ⟨q.buffer q.getPtr, L, ?_, ?_⟩
  · simp [ringOf, hq, hL]
  · simp [slot, hq, hi]

namespace SameRings

theorem refl (s : Store) : SameRings s s := ⟨rfl, fun _ => rfl, rfl⟩

theorem trans {s'' : Store} (h : SameRings s s') (h' : SameRings s' s'') : SameRings s s'' :=
  ⟨h'.keys.trans h.keys, fun a => (h'.rings a).trans (h.rings a), h'.accepted.trans h.accepted⟩

theorem lookup_eq_none_iff (h : SameRings s s') (a : RimeAddr) :
    s'.neighborQueueFromAddr a = none ↔ s.neighborQueueFromAddr a = none := by
  rw [← Option.map_eq_none' (f := ringPart), h.rings a, Option.map_eq_none']

theorem ringOf_eq (h : SameRings s s') (a : RimeAddr) : s'.ringOf B a = s.ringOf B a := by
  have := h.rings a
  unfold ringOf
  cases h₁ : s'.neighborQueueFromAddr a <;> cases h₂ : s.neighborQueueFromAddr a <;>
    simp [h₁, h₂] at this ⊢
  exact contents_of_ringPart this

theorem ringUids_eq (h : SameRings s s') (a : RimeAddr) : s'.ringUids B a = s.ringUids B a := by
  rw [ringUids, h.ringOf_eq]; rfl

theorem slot_eq (h : SameRings s s') (r : SlotRef) : s'.slot r = s.slot r := by
  have := h.rings r.addr
  unfold slot
  cases h₁ : s'.neighborQueueFromAddr r.addr <;> cases h₂ : s.neighborQueueFromAddr r.addr <;>
    simp_all [ringPart]

theorem rings_ok (h : SameRings s s') (hs : RingsOk B s) : RingsOk B s' where
  nodup := h.keys ▸ hs.nodup
  wf a q hq := by
    have := h.rings a
    rw [hq] at this
    obtain ⟨q₀, h₀, he⟩ := Option.map_eq_some'.1 this.symm
    exact wf_of_ringPart he.symm (hs.wf a q₀ h₀)

theorem isHead (h : SameRings s s') {r : SlotRef} (hr : IsHead B s r) : IsHead B s' r := by
  obtain ⟨q, hq, hi, hc⟩ := hr
  have := h.rings r.addr
  rw [hq] at this
  obtain ⟨q', h', he⟩ := Option.map_eq_some'.1 this
  simp only [ringPart, Prod.mk.injEq] at he
  have hc' : count B q' = count B q := count_of_ringPart (by simp [ringPart, he])
  exact ⟨q', h', he.2.2 ▸ hi, hc' ▸ hc⟩

theorem vacated (h : SameRings s s') {r : SlotRef} (hr : Vacated B s r) : Vacated B s' r := by
  obtain ⟨q, hq, hw⟩ := hr
  have := h.rings r.addr
  rw [hq] at this
  obtain ⟨q', h', he⟩ := Option.map_eq_some'.1 this
  simp only [ringPart, Prod.mk.injEq] at he
  refine ⟨q', h', fun j hj => he.2.2 ▸ hw j ?_⟩
  have hc' : count B q' = count B q := count_of_ringPart (by simp [ringPart, he])
  rwa [hc'] at hj

end SameRings

/-! ## Writes through a queue pointer -/

theorem neighborQueueFromAddr_updateQueue (s : Store) (n a : RimeAddr)
    (f : NeighborQueue → NeighborQueue) :
    (s.updateQueue n f).neighborQueueFromAddr a =
      if a = n then (s.neighborQueueFromAddr a).map f else s.neighborQueueFromAddr a := by
  unfold updateQueue neighborQueueFromAddr
  split_ifs with h
  · subst h; exact lookup_modifyQueue_self _
  · exact lookup_modifyQueue_ne h _

/-- A write to the backoff state of a queue keeps every ring. -/
theorem sameRings_updateQueue {f : NeighborQueue → NeighborQueue} (hf : RingFixed f)
    (s : Store) (n : RimeAddr) : SameRings s (s.updateQueue n f) where
  keys := map_fst_modifyQueue _
  rings a := by
    rw [neighborQueueFromAddr_updateQueue]
    split_ifs
    · rw [Option.map_map]
      exact congrArg (Option.map · _) (funext hf)
    · rfl
  accepted := rfl

theorem rings_ok_updateSlot (hs : RingsOk B s) (r : SlotRef) (f : TschPacket → TschPacket) :
    RingsOk B (s.updateSlot r f) where
  nodup := (map_fst_modifyQueue _).symm ▸ hs.nodup
  wf a q hq := by
    rw [updateSlot, neighborQueueFromAddr_updateQueue] at hq
    split_ifs at hq
    · obtain ⟨q₀, h₀, rfl⟩ := Option.map_eq_some'.1 hq
      exact hs.wf a q₀ h₀
    · exact hs.wf a q hq

theorem slot_updateSlot_self (s : Store) (r : SlotRef) (f : TschPacket → TschPacket) :
    (s.updateSlot r f).slot r = (s.slot r).map f := by
  simp only [slot, updateSlot, neighborQueueFromAddr_updateQueue, if_pos, Option.map_map]
  congr 1
  funext q
  simp

theorem ringOf_updateSlot_ne {r : SlotRef} {a : RimeAddr} (h : a ≠ r.addr)
    (f : TschPacket → TschPacket) : (s.updateSlot r f).ringOf B a = s.ringOf B a := by
  simp only [ringOf, updateSlot, neighborQueueFromAddr_updateQueue, if_neg h]

/-- Writing the head slot rewrites the head of its ring, and the slot stays the head. -/
theorem updateSlot_head (hs : RingsOk B s) {r : SlotRef} (hr : IsHead B s r)
    (f : TschPacket → TschPacket) :
    ∃ pk L, s.ringOf B r.addr = some (pk :: L) ∧ s.slot r = some pk ∧
      (s.updateSlot r f).ringOf B r.addr = some (f pk :: L) ∧ IsHead B (s.updateSlot r f) r := by
  obtain ⟨pk, L, hL, hpk⟩ := hr.exists_ringOf hs
  obtain ⟨q, hq, hi, hc⟩ := hr
  have hpk' : q.buffer q.getPtr = pk := by simpa [slot, hq, hi] using hpk
  have hL' : contents B q = pk :: L := by simpa [ringOf, hq] using hL
  refine ⟨pk, L, hL, hpk, ?_, ?_⟩
  · simp only [ringOf, updateSlot, neighborQueueFromAddr_updateQueue, if_pos, hq, Option.map_some',
      Option.some.injEq, hi]
    rw [contents_update_head (hs.wf _ _ hq) hc, hL', hpk']
    rfl
  · refine ⟨{ q with buffer := Function.update q.buffer r.index (f (q.buffer r.index)) }, ?_, hi, hc⟩
    simp only [updateSlot, neighborQueueFromAddr_updateQueue, if_pos, hq, Option.map_some']

/-- Writing a slot outside its ring's window changes no ring. -/
theorem ringOf_updateSlot_vacated (hs : RingsOk B s) {r : SlotRef} (hr : Vacated B s r)
    (f : TschPacket → TschPacket) (a : RimeAddr) :
    (s.updateSlot r f).ringOf B a = s.ringOf B a := by
  by_cases ha : a = r.addr
  · subst ha
    obtain ⟨q, hq, hw⟩ := hr
    simp only [ringOf, updateSlot, neighborQueueFromAddr_updateQueue, if_pos, hq, Option.map_some']
    exact congrArg some (contents_update_outside (hs.wf _ _ hq) hw _)
  · exact ringOf_updateSlot_ne ha f

/-! ## Adding and removing packets -/

theorem neighborQueueFromAddr_removePacketFromQueue (s : Store) (a b : RimeAddr) :
    (s.removePacketFromQueue B a).2.neighborQueueFromAddr b =
      if b = a then (s.neighborQueueFromAddr b).map fun q => (removePacket B q).2.2
      else s.neighborQueueFromAddr b := by
  unfold removePacketFromQueue
  split
  · exact neighborQueueFromAddr_updateQueue { s with freed := _ } a b _
  · rename_i hn
    split_ifs with h
    · subst h; simp [hn]
    · rfl

theorem removePacketFromQueue_accepted (s : Store) (a : RimeAddr) :
    (s.removePacketFromQueue B a).2.accepted = s.accepted := by
  unfold removePacketFromQueue
  split <;> rfl

theorem rings_ok_removePacketFromQueue (hs : RingsOk B s) (a : RimeAddr) :
    RingsOk B (s.removePacketFromQueue B a).2 where
  nodup := by
    unfold removePacketFromQueue
    split
    · exact (map_fst_modifyQueue _).symm ▸ hs.nodup
    · exact hs.nodup
  wf b q hq := by
    rw [neighborQueueFromAddr_removePacketFromQueue] at hq
    split_ifs at hq
    · obtain ⟨q₀, h₀, rfl⟩ := Option.map_eq_some'.1 hq
      exact removePacket_wf (hs.wf b q₀ h₀)
    · exact hs.wf b q hq

theorem ringOf_removePacketFromQueue (hs : RingsOk B s) (a b : RimeAddr) :
    (s.removePacketFromQueue B a).2.ringOf B b =
      if b = a then (s.ringOf B a).map List.tail else s.ringOf B b := by
  unfold ringOf
  rw [neighborQueueFromAddr_removePacketFromQueue]
  split_ifs with h
  · subst h
    cases hq : s.neighborQueueFromAddr b
    · rfl
    · simp [removePacket_contents (hs.wf _ _ hq)]
  · rfl

/-- Popping the head `r` of its ring leaves `r` outside the window. -/
theorem vacated_removePacketFromQueue (hs : RingsOk B s) {r : SlotRef} (hr : IsHead B s r) :
    Vacated B (s.removePacketFromQueue B r.addr).2 r := by
  obtain ⟨q, hq, hi, hc⟩ := hr
  have hw := hs.wf _ _ hq
  refine ⟨_, by rw [neighborQueueFromAddr_removePacketFromQueue, if_pos rfl, hq]; rfl, ?_⟩
  have hcount := count_lt B q
  have hlen := length_contents (removePacket_wf hw)
  rw [removePacket_contents hw, List.length_tail, length_contents hw] at hlen
  intro j hj he
  rw [← hlen] at hj
  dsimp only at he
  rw [removePacket_of_pos hw hc] at he
  simp only [Nat.mod_add_mod, hi] at he
  have := window_index_inj (g := q.getPtr) (i := 1 + j) (j := 0) (by omega) B.N_pos
    (by rw [Nat.add_zero, Nat.mod_eq_of_lt hw.2, ← Nat.add_assoc]; exact he)
  omega

theorem slot_removePacketFromQueue (s : Store) (a : RimeAddr) (r : SlotRef) :
    (s.removePacketFromQueue B a).2.slot r = s.slot r := by
  unfold slot
  rw [neighborQueueFromAddr_removePacketFromQueue]
  split_ifs
  · rw [Option.map_map]
    refine congrArg (Option.map · _) (funext fun q => ?_)
    simp only [Function.comp_apply, removePacket]
    split_ifs <;> rfl
  · rfl

theorem neighborQueueFromAddr_addPacketToQueue (s : Store) (sent ptr : Nat) (a : RimeAddr)
    (pkt : Option QueueBuf) (b : RimeAddr) :
    (s.addPacketToQueue B sent ptr a pkt).2.neighborQueueFromAddr b =
      if b = a then
        (s.neighborQueueFromAddr b).map fun q => (addPacket B q pkt sent ptr s.accepted.length).2
      else s.neighborQueueFromAddr b := by
  unfold addPacketToQueue
  split
  · exact neighborQueueFromAddr_updateQueue { s with accepted := _ } a b _
  · rename_i hn
    split_ifs with h
    · subst h; simp [hn]
    · rfl

/-- `add_packet_to_queue` on an address with a queue: a refused add changes no ring; an
accepted one appends the new packet, with the next uid, to that ring alone.  Either way the
head of every ring stays where it was. -/
theorem addPacketToQueue_rings (hs : RingsOk B s) {a : RimeAddr} {q : NeighborQueue}
    (hq : s.neighborQueueFromAddr a = some q) (sent ptr : Nat) (pkt : Option QueueBuf) :
    RingsOk B (s.addPacketToQueue B sent ptr a pkt).2 ∧
      (∀ x, IsHead B s x → IsHead B (s.addPacketToQueue B sent ptr a pkt).2 x ∧
        (s.addPacketToQueue B sent ptr a pkt).2.slot x = s.slot x) ∧
      (SameRings s (s.addPacketToQueue B sent ptr a pkt).2 ∨
        ((s.addPacketToQueue B sent ptr a pkt).2.accepted = s.accepted ++ [a] ∧
          (s.addPacketToQueue B sent ptr a pkt).2.ringOf B a =
            some (contents B q ++ [newPacket pkt sent ptr s.accepted.length]) ∧
          ∀ b, b ≠ a → (s.addPacketToQueue B sent ptr a pkt).2.ringOf B b = s.ringOf B b)) := by
  have hw := hs.wf a q hq
  have hlook := neighborQueueFromAddr_addPacketToQueue (B := B) s sent ptr a pkt
  refine ⟨⟨?_, fun b q' hq' => ?_⟩, fun x hx => ?_, ?_⟩
  · unfold addPacketToQueue
    rw [hq]
    exact (map_fst_modifyQueue _).symm ▸ hs.nodup
  · rw [hlook] at hq'
    split_ifs at hq' with hb
    · subst hb
      rw [hq] at hq'
      cases hq'
      exact addPacket_wf hw _ _ _ _
    · exact hs.wf b q' hq'
  · obtain ⟨q₀, h₀, hi, hc⟩ := hx
    by_cases hxa : x.addr = a
    · subst hxa
      cases hq.symm.trans h₀
      obtain ⟨hg, hc', hb⟩ := addPacket_keeps_head hw hc pkt sent ptr s.accepted.length
      refine ⟨⟨_, by rw [hlook, if_pos rfl, hq]; rfl, hg ▸ hi, hc'⟩, ?_⟩
      simp only [slot, hlook, if_pos, hq, Option.map_some', hi, hb]
    · exact ⟨⟨q₀, by rw [hlook, if_neg hxa]; exact h₀, hi, hc⟩, by simp only [slot, hlook, if_neg hxa]⟩
  · have hacc : (s.addPacketToQueue B sent ptr a pkt).2.accepted =
        if (addPacket B q pkt sent ptr s.accepted.length).1 then s.accepted ++ [a] else s.accepted := by
      unfold addPacketToQueue
      rw [hq]
    cases hf : (addPacket B q pkt sent ptr s.accepted.length).1
    · refine .inl ⟨?_, fun b => ?_, by rw [hacc, hf]; rfl⟩
      · unfold addPacketToQueue
        rw [hq]
        exact map_fst_modifyQueue _
      · rw [hlook]
        split_ifs with hb
        · subst hb; rw [hq]; simp [addPacket_snd_of_fst_false hw hf]
        · rfl
    · refine .inr ⟨by rw [hacc, hf]; rfl, ?_, fun b hb => by simp only [ringOf, hlook, if_neg hb]⟩
      have hlt : count B q < B.N - 1 := by
        simpa [addPacket_fst hw] using hf
      simp only [ringOf, hlook, if_pos, hq, Option.map_some', addPacket_contents hw, if_pos hlt]

/-- `add_queue` for an address without a queue: a new empty ring, or no change to any ring
when the table is full. -/
theorem addQueue_rings (hs : RingsOk B s) (k : Nat) {a : RimeAddr}
    (ha : s.neighborQueueFromAddr a = none) :
    RingsOk B (s.addQueue B k a).2 ∧ (s.addQueue B k a).2.accepted = s.accepted ∧
      (∀ b, b ≠ a → (s.addQueue B k a).2.neighborQueueFromAddr b = s.neighborQueueFromAddr b) ∧
      ((s.addQueue B k a).1 = none ∧ (s.addQueue B k a).2.neighborQueueFromAddr a = none ∨
        (s.addQueue B k a).1 = some a ∧
          (s.addQueue B k a).2.neighborQueueFromAddr a = some (NeighborQueue.init B .zero)) := by
  have hinit : WF B (NeighborQueue.init B .zero) := ⟨B.N_pos, B.N_pos⟩
  rw [addQueue_of_none ha]
  split_ifs
  · refine ⟨⟨?_, fun b q hq => ?_⟩, rfl, fun b hb => ?_, .inr ⟨rfl, ?_⟩⟩
    · simp only [List.map_append, List.map_cons, List.map_nil]
      refine List.pairwise_append.2 ⟨hs.nodup, List.pairwise_singleton _ _, fun x hx y hy => ?_⟩
      rw [List.mem_singleton] at hy
      subst hy
      exact fun hxa => lookup_eq_none_iff.1 ha (hxa ▸ hx)
    · simp only [neighborQueueFromAddr, lookup_append_singleton ha] at hq
      split_ifs at hq
      · cases hq; exact hinit
      · exact hs.wf b q hq
    · simp only [neighborQueueFromAddr, lookup_append_singleton ha, if_neg hb]
    · simp only [neighborQueueFromAddr, lookup_append_singleton ha, if_pos]
  · exact ⟨⟨hs.1, hs.2⟩, rfl, fun _ _ => rfl, .inl ⟨rfl, ha⟩⟩

/-- The ring of a queue `add_queue` creates is empty. -/
theorem contents_init_zero (B : BufferSize) : contents B (NeighborQueue.init B .zero) = [] := by
  rw [contents_eq (show WF B (NeighborQueue.init B .zero) from ⟨B.N_pos, B.N_pos⟩)]
  simp [count, NeighborQueue.init, NeighborQueue.zero]

/-- What `send_one_packet` does to the rings: it appends one packet, carrying the next uid
and addressed to the receiver, to the receiver's ring, or it changes no ring but may give
the receiver a new empty one.  Every head stays where it was. -/
theorem sendOnePacket_rings (hs : RingsOk B s) (k : Nat) (framer : Packetbuf → Option (List UInt8))
    (sent ptr : Nat) (pb : Packetbuf) (alloc : Option Nat) {s' : Store}
    (h : (s.sendOnePacket B k framer sent ptr pb alloc).2 = s') :
    RingsOk B s' ∧ (∀ x, IsHead B s x → IsHead B s' x ∧ s'.slot x = s.slot x) ∧
      (∀ b, b ≠ pb.receiver → s'.ringOf B b = s.ringOf B b) ∧
      ((s'.accepted = s.accepted ∧
          (s'.ringOf B pb.receiver = s.ringOf B pb.receiver ∨
            s.ringOf B pb.receiver = none ∧ s'.ringOf B pb.receiver = some [])) ∨
        (s'.accepted = s.accepted ++ [pb.receiver] ∧
          ∃ pkt : Option QueueBuf, (∀ b, pkt = some b → b.receiver = pb.receiver) ∧
            s'.ringOf B pb.receiver =
              some ((s.ringOf B pb.receiver).getD [] ++ [newPacket pkt sent ptr s.accepted.length]))) := by
  subst h
  have h₀ : SameRings s { s with dsn := nextDsn s.dsn } := ⟨rfl, fun _ => rfl, rfl⟩
  have hs₀ := h₀.rings_ok hs
  unfold sendOnePacket
  dsimp only
  generalize { s with dsn := nextDsn s.dsn } = s₀ at h₀ hs₀ ⊢
  rw [← h₀.accepted]
  simp only [← h₀.ringOf_eq (B := B)]
  have lift : ∀ {s' : Store}, (∀ x, IsHead B s₀ x → IsHead B s' x ∧ s'.slot x = s₀.slot x) →
      ∀ x, IsHead B s x → IsHead B s' x ∧ s'.slot x = s.slot x := fun h x hx =>
    (h x (h₀.isHead hx)).imp_right (·.trans (h₀.slot_eq x))
  split
  · exact ⟨hs₀, lift fun x hx => ⟨hx, rfl⟩, fun b _ => rfl, .inl ⟨rfl, .inl rfl⟩⟩
  rename_i frame _
  have hrecv : ∀ b, (alloc.map fun id => (⟨id, pb.receiver, frame⟩ : QueueBuf)) = some b →
      b.receiver = pb.receiver := fun b hb => by
    obtain ⟨id, -, rfl⟩ := Option.map_eq_some'.1 hb
    rfl
  split
  · rename_i q hq
    obtain ⟨hok, hhead, hsame | ⟨hacc, hring, hother⟩⟩ := addPacketToQueue_rings hs₀ hq sent ptr
      (alloc.map fun id => ⟨id, pb.receiver, frame⟩)
    · exact ⟨hok, lift hhead, fun b _ => hsame.ringOf_eq b,
        .inl ⟨hsame.accepted, .inl (hsame.ringOf_eq _)⟩⟩
    · refine ⟨hok, lift hhead, hother, .inr ⟨hacc, _, hrecv, ?_⟩⟩
      rw [hring]
      simp [ringOf, hq]
  rename_i hnone
  obtain ⟨hok₁, hacc₁, hother₁, hcase⟩ := addQueue_rings hs₀ k hnone
  -- a new queue leaves every other queue, so every head and every other ring, as it was
  have hhead₁ : ∀ x, IsHead B s₀ x → IsHead B (s₀.addQueue B k pb.receiver).2 x ∧
      (s₀.addQueue B k pb.receiver).2.slot x = s₀.slot x := fun x ⟨q, hq, hi, hc⟩ => by
    have hxr : x.addr ≠ pb.receiver := fun he => by simp [he, hnone] at hq
    exact ⟨⟨q, (hother₁ _ hxr).trans hq, hi, hc⟩, by simp only [slot, hother₁ _ hxr]⟩
  have hring₁ : ∀ b, b ≠ pb.receiver →
      (s₀.addQueue B k pb.receiver).2.ringOf B b = s₀.ringOf B b := fun b hb => by
    simp only [ringOf, hother₁ b hb]
  generalize s₀.addQueue B k pb.receiver = q₁ at hok₁ hacc₁ hcase hhead₁ hring₁ ⊢
  obtain ⟨o, s₁⟩ := q₁
  dsimp only at hok₁ hacc₁ hcase hhead₁ hring₁
  rcases hcase with ⟨rfl, hnone₁⟩ | ⟨rfl, hsome₁⟩
  · exact ⟨hok₁, lift hhead₁, hring₁, .inl ⟨hacc₁, .inl (by simp only [ringOf, hnone₁, hnone])⟩⟩
  obtain ⟨hok, hhead, hsame | ⟨hacc, hring, hother⟩⟩ := addPacketToQueue_rings hok₁ hsome₁
    sent ptr (alloc.map fun id => ⟨id, pb.receiver, frame⟩)
  · refine ⟨hok, lift fun x hx => ?_, fun b hb => (hsame.ringOf_eq b).trans (hring₁ b hb),
      .inl ⟨hsame.accepted.trans hacc₁, .inr ⟨by simp only [ringOf, hnone, Option.map_none'], ?_⟩⟩⟩
    · obtain ⟨h1, h2⟩ := hhead₁ x hx
      exact ⟨hsame.isHead h1, (hsame.slot_eq x).trans h2⟩
    · rw [hsame.ringOf_eq]
      simp [ringOf, hsome₁, contents_init_zero]
  · refine ⟨hok, lift fun x hx => ?_, fun b hb => (hother b hb).trans (hring₁ b hb),
      .inr ⟨by rw [hacc, hacc₁], _, hrecv, ?_⟩⟩
    · obtain ⟨h1, h2⟩ := hhead₁ x hx
      exact ⟨(hhead x h1).1, (hhead x h1).2.trans h2⟩
    · rw [hring, hacc₁]
      simp [ringOf, hnone, contents_init_zero]

/-! ## The outcome of an attempt -/

/-- The outcome of an attempt on the head `r` of its ring, with `p->ret` written after it:
a failure below `macMaxFrameRetries` rewrites the head, and the last failure or a success
pops it.  No other ring changes, and the slot keeps the packet with its new count and
status. -/
theorem txOutcome_rings (hs : RingsOk B s) {r : SlotRef} (hr : IsHead B s r)
    (hrecv : ∀ pk b, s.slot r = some pk → pk.pkt = some b → b.receiver = r.addr)
    {n c : RimeAddr} {bo : Bool} {success random : Nat} {s₁ : Store} {ret : MacStatus}
    (ho : s.attemptOutcome B r n c bo success random = some (s₁, ret)) {s' : Store}
    (hs' : s' = s₁.updateSlot r fun q => { q with ret }) :
    ∃ pk L, s.ringOf B r.addr = some (pk :: L) ∧ s.slot r = some pk ∧
      RingsOk B s' ∧ s'.accepted = s.accepted ∧
      (∀ a, a ≠ r.addr → s'.ringOf B a = s.ringOf B a) ∧
      ((ret ≠ .txOk ∧ uint8 (pk.transmissions + 1) ≠ macMaxFrameRetries ∧
          s'.ringOf B r.addr =
            some ({ pk with transmissions := uint8 (pk.transmissions + 1), ret } :: L)) ∨
        ((ret = .txOk ∨ uint8 (pk.transmissions + 1) = macMaxFrameRetries) ∧
          s'.ringOf B r.addr = some L)) ∧
      s'.slot r = some { pk with
        transmissions := if ret = .txOk then pk.transmissions else uint8 (pk.transmissions + 1)
        ret } := by
  subst hs'
  obtain ⟨pk, L, hL, hpk⟩ := hr.exists_ringOf hs
  refine ⟨pk, L, hL, hpk, ?_⟩
  -- after a pop: the slot is outside the window, so writing `ret` changes no ring
  have popped : ∀ {v : Store} (pk' : TschPacket), RingsOk B v → Vacated B v r → SameRings v s₁ →
      v.accepted = s.accepted → v.ringOf B r.addr = some L →
      (∀ a, a ≠ r.addr → v.ringOf B a = s.ringOf B a) → v.slot r = some pk' →
      RingsOk B (s₁.updateSlot r fun q => { q with ret }) ∧
        (s₁.updateSlot r fun q => { q with ret }).accepted = s.accepted ∧
        (∀ a, a ≠ r.addr → (s₁.updateSlot r fun q => { q with ret }).ringOf B a = s.ringOf B a) ∧
        (s₁.updateSlot r fun q => { q with ret }).ringOf B r.addr = some L ∧
        (s₁.updateSlot r fun q => { q with ret }).slot r = some { pk' with ret } := by
    intro v pk' hv hvac hv₁ hacc hvr hvo hvs
    have h₁ := hv₁.rings_ok hv
    have hvac₁ := hv₁.vacated hvac
    refine ⟨rings_ok_updateSlot h₁ r _, hv₁.accepted.trans hacc, fun a ha => ?_, ?_, ?_⟩
    · rw [ringOf_updateSlot_vacated h₁ hvac₁, hv₁.ringOf_eq, hvo a ha]
    · rw [ringOf_updateSlot_vacated h₁ hvac₁, hv₁.ringOf_eq, hvr]
    · rw [slot_updateSlot_self, hv₁.slot_eq, hvs]
      rfl
  rcases attemptOutcome_cases ho with ⟨hret, hf⟩ | ⟨rfl, hsucc⟩
  · obtain ⟨pk₀, t, hpk₀, ht, hs₁⟩ := failedAttempt_spec hf
    cases hpk.symm.trans hpk₀
    have hts₁ : SameRings t s₁ := by
      rw [hs₁]
      split_ifs
      · exact sameRings_updateQueue (f := backoff random) (fun _ => rfl) t n
      · exact .refl t
    obtain ⟨pk', L', hL', hpk', hLu, hhu⟩ :=
      updateSlot_head hs hr fun q => { q with transmissions := uint8 (q.transmissions + 1) }
    rw [hL] at hL'
    obtain ⟨rfl, rfl⟩ := List.cons.inj (Option.some.inj hL')
    have hu := rings_ok_updateSlot hs r fun q => { q with transmissions := uint8 (q.transmissions + 1) }
    rcases ht with ⟨hmax, b, hb, rfl⟩ | ⟨hmax, rfl⟩
    · rw [hrecv pk b hpk hb] at hts₁
      obtain ⟨hok, hacc, hother, hring, hslot⟩ :=
        popped { pk with transmissions := uint8 (pk.transmissions + 1) }
          (rings_ok_removePacketFromQueue hu r.addr) (vacated_removePacketFromQueue hu hhu)
          ((sameRings_updateQueue (f := resetBackoff) (fun _ => rfl) _ n).trans hts₁)
          (removePacketFromQueue_accepted _ _)
          (by rw [ringOf_removePacketFromQueue hu, if_pos rfl, hLu]; rfl)
          (fun a ha => by rw [ringOf_removePacketFromQueue hu, if_neg ha, ringOf_updateSlot_ne ha])
          (by rw [slot_removePacketFromQueue, slot_updateSlot_self, hpk]; rfl)
      exact ⟨hok, hacc, hother, .inr ⟨.inr hmax, hring⟩, by rw [hslot, if_neg hret]⟩
    · have h₁ := hts₁.rings_ok hu
      obtain ⟨pk'', L'', hL'', hpk'', hLs, -⟩ := updateSlot_head h₁ (hts₁.isHead hhu)
        fun q => { q with ret }
      rw [hts₁.ringOf_eq, hLu] at hL''
      obtain ⟨rfl, rfl⟩ := List.cons.inj (Option.some.inj hL'')
      refine ⟨rings_ok_updateSlot h₁ r _, hts₁.accepted, fun a ha => ?_,
        .inl ⟨hret, hmax, hLs⟩, ?_⟩
      · rw [ringOf_updateSlot_ne ha, hts₁.ringOf_eq, ringOf_updateSlot_ne ha]
      · rw [slot_updateSlot_self, hpk'', if_neg hret]
        rfl
  · obtain ⟨pk₀, b, hpk₀, hb, hs₁⟩ := succeededAttempt_spec hsucc
    cases hpk.symm.trans hpk₀
    rw [hrecv pk b hpk hb] at hs₁
    have hv₁ : SameRings (s.removePacketFromQueue B r.addr).2 s₁ := by
      rcases hs₁ with rfl | rfl
      · exact sameRings_updateQueue (f := resetBackoff) (fun _ => rfl) _ n
      · exact sameRings_updateQueue (f := fun q => { q with bwValue := 0 }) (fun _ => rfl) _ n
    obtain ⟨hok, hacc, hother, hring, hslot⟩ :=
      popped pk (rings_ok_removePacketFromQueue hs r.addr) (vacated_removePacketFromQueue hs hr)
        hv₁ (removePacketFromQueue_accepted _ _)
        (by rw [ringOf_removePacketFromQueue hs, if_pos rfl, hL]; rfl)
        (fun a ha => by rw [ringOf_removePacketFromQueue hs, if_neg ha])
        (by rw [slot_removePacketFromQueue, hpk])
    exact ⟨hok, hacc, hother, .inr ⟨.inl rfl, hring⟩, by rw [hslot, if_pos rfl]⟩

/-- A TX outcome does not touch the log of accepted packets. -/
theorem attemptOutcome_accepted {r : SlotRef} {n c : RimeAddr} {bo : Bool} {success random : Nat}
    {s₁ : Store} {ret : MacStatus} (ho : s.attemptOutcome B r n c bo success random = some (s₁, ret)) :
    s₁.accepted = s.accepted := by
  rcases attemptOutcome_cases ho with ⟨-, hf⟩ | ⟨-, hs⟩
  · obtain ⟨pk, t, -, ht, rfl⟩ := failedAttempt_spec hf
    have : t.accepted = s.accepted := by
      rcases ht with ⟨-, b, -, rfl⟩ | ⟨-, rfl⟩
      · exact removePacketFromQueue_accepted _ _
      · rfl
    split <;> exact this
  · obtain ⟨pk, b, -, -, rfl | rfl⟩ := succeededAttempt_spec hs <;>
      exact removePacketFromQueue_accepted _ _

/-! ## The round robin -/

/-- The scan of `get_next_packet_for_shared_slot_tx` returns the head of an entry's ring. -/
theorem scanFrom_head {l : List (RimeAddr × NeighborQueue)} {i : Nat} {r : SlotRef}
    (h : (scanFrom B l i).1 = some r) : ∃ q, (r.addr, q) ∈ l ∧ readPacket B q = some r.index := by
  induction l generalizing i with
  | nil => cases h
  | cons e l ih =>
      obtain ⟨a, q⟩ := e
      unfold scanFrom at h
      split at h
      · rename_i idx hidx
        cases h
        exact ⟨q, List.mem_cons_self _ _, hidx⟩
      · obtain ⟨q', hq', hr⟩ := ih h
        exact ⟨q', List.mem_cons_of_mem _ hq', hr⟩

theorem isHead_of_readPacket (hs : RingsOk B s) {r : SlotRef} {q : NeighborQueue}
    (hq : s.neighborQueueFromAddr r.addr = some q) (hr : readPacket B q = some r.index) :
    IsHead B s r := by
  rw [readPacket_eq (hs.wf _ _ hq)] at hr
  split_ifs at hr with hc
  exact ⟨q, hq, (Option.some.inj hr).symm, hc⟩

theorem sameRings_getNextPacketForSharedSlotTx (s : Store) :
    SameRings s (s.getNextPacketForSharedSlotTx B).2 := by
  unfold getNextPacketForSharedSlotTx
  split <;> exact ⟨rfl, fun _ => rfl, rfl⟩

end Store

namespace Mac

open Store

variable {cfg : Config} {s : Store}

/-- The packet a slot start selects is the head of its ring, also when the round robin of
a shared cell takes it from another neighbor's ring. -/
theorem selectPacket_isHead (hs : RingsOk cfg.B s) {cell : Cell} {r : SlotRef}
    (h : (selectPacket cfg s cell).2.1 = some r) : IsHead cfg.B s r := by
  unfold selectPacket at h
  by_cases htx : cell.linkOptions.tx ∧ cell.linkType ≠ .advertising
  · rw [if_pos htx] at h
    split at h
    · cases h
    · rename_i q hq
      split at h
      · rename_i i hi
        cases h
        exact isHead_of_readPacket hs hq hi
      · split_ifs at h
        · unfold getNextPacketForSharedSlotTx at h
          split at h
          · cases h
          · obtain ⟨q', hmem, hread⟩ := scanFrom_head h
            exact isHead_of_readPacket hs (lookup_of_mem hs.nodup (List.mem_of_mem_drop hmem)) hread
  · rw [if_neg htx] at h
    cases h

/-- The slot start keeps every ring: it only moves the round-robin cursor and counts a
backoff down. -/
theorem slotSetup_sameRings (m : Mac) (cell : Cell) :
    SameRings m.store (slotSetup cfg m cell).store := by
  have hsel : SameRings m.store (selectPacket cfg m.store cell).2.2 := by
    rcases @selectPacket_store cfg m.store cell with h | h <;> rw [h]
    · exact .refl _
    · exact sameRings_getNextPacketForSharedSlotTx _
  rcases @slotSetup_store cfg m cell with h | ⟨a, h⟩ <;> rw [h]
  · exact hsel
  · exact hsel.trans (sameRings_updateQueue (f := countDown) (fun _ => rfl) _ a)

/-- The packet the slot start leaves in `p` is the head of its ring. -/
theorem slotSetup_isHead {m : Mac} (hs : RingsOk cfg.B m.store) (cell : Cell) {r : SlotRef}
    (h : (slotSetup cfg m cell).p = some r) : IsHead cfg.B (slotSetup cfg m cell).store r :=
  (slotSetup_sameRings m cell).isHead (selectPacket_isHead hs h)

theorem associateLink_rings {s : Store} (hs : RingsOk cfg.B s)
    (hempty : ∀ a L, s.ringOf cfg.B a = some L → L = []) (c : Cell) :
    RingsOk cfg.B (associateLink cfg s c) ∧ (associateLink cfg s c).accepted = s.accepted ∧
      ∀ a L, (associateLink cfg s c).ringOf cfg.B a = some L → L = [] := by
  have hf : RingsOk cfg.B (findOrAddQueue cfg s c.nodeAddress).2 ∧
      (findOrAddQueue cfg s c.nodeAddress).2.accepted = s.accepted ∧
      ∀ a L, (findOrAddQueue cfg s c.nodeAddress).2.ringOf cfg.B a = some L → L = [] := by
    unfold findOrAddQueue
    split
    · exact ⟨hs, rfl, hempty⟩
    · rename_i hn
      obtain ⟨hok, hacc, hother, hnew⟩ := addQueue_rings hs cfg.maxNeighbors hn
      refine ⟨hok, hacc, fun a L hL => ?_⟩
      by_cases ha : a = c.nodeAddress
      · subst ha
        rcases hnew with ⟨-, h⟩ | ⟨-, h⟩ <;> simp [ringOf, h, contents_init_zero] at hL
        exact hL
      · exact hempty a L (by simpa only [ringOf, hother a ha] using hL)
  unfold associateLink
  split_ifs
  · split
    · rename_i a s₁ heq
      rw [heq] at hf
      obtain ⟨hok, hacc, hemp⟩ := hf
      have := sameRings_updateQueue
        (f := fun q => { q with timeSource := c.linkOptions.timeKeeping || q.timeSource })
        (fun _ => rfl) s₁ a
      exact ⟨this.rings_ok hok, hacc, fun a L hL => hemp a L (by rwa [this.ringOf_eq] at hL)⟩
    · rename_i heq
      rw [heq] at hf
      exact hf
  · exact ⟨hs, rfl, hempty⟩

/-- Right after `init` every ring is empty and nothing has been accepted. -/
theorem init_rings (now : Nat) :
    RingsOk cfg.B (init cfg now).store ∧ (init cfg now).store.accepted = [] ∧
      ∀ a L, (init cfg now).store.ringOf cfg.B a = some L → L = [] := by
  show RingsOk cfg.B (cfg.links.foldl (associateLink cfg) Store.empty) ∧
    (cfg.links.foldl (associateLink cfg) Store.empty).accepted = [] ∧
    ∀ a L, (cfg.links.foldl (associateLink cfg) Store.empty).ringOf cfg.B a = some L → L = []
  suffices ∀ (l : List Cell) (s : Store), RingsOk cfg.B s → s.accepted = [] →
      (∀ a L, s.ringOf cfg.B a = some L → L = []) →
      RingsOk cfg.B (l.foldl (associateLink cfg) s) ∧ (l.foldl (associateLink cfg) s).accepted = [] ∧
        ∀ a L, (l.foldl (associateLink cfg) s).ringOf cfg.B a = some L → L = [] from
    this _ _ ⟨List.nodup_nil, fun _ _ h => nomatch h⟩ rfl fun _ _ h => nomatch h
  intro l
  induction l with
  | nil => exact fun _ h₁ h₂ h₃ => ⟨h₁, h₂, h₃⟩
  | cons c l ih =>
      intro s h₁ h₂ h₃
      obtain ⟨h₁', h₂', h₃'⟩ := associateLink_rings h₁ h₃ c
      exact ih _ h₁' (h₂'.trans h₂) h₃'

end Mac

end Tsch
