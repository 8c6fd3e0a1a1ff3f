import Tsch.Rings

/-!
# The neighbor table

`neighbor_list` gains an entry only in `add_queue`, which `send_one_packet` and
`tsch_associate` call for an address without a queue; the entry comes from the allocator
`nbrTableAddLladdr`, modelled from the spec.  No path of the driver calls `remove_queue`, and
every other write goes through a queue pointer and keeps the entries.  `tsch_associate` runs
once, from `init`, over `links_list`.

**Results.**
* `sendOnePacket_grows`, `sendList_grows`: the main task keeps every entry in place.
* `AssocInv.extend`: the loop body of `tsch_associate`, whose four branches are `skip`,
  `mark`, `add` and `full`.
* `associate_queues`: the queues `init` leaves, for every `links_list`.
-/

namespace Tsch

namespace Store

/-- The addresses of the table's entries, in allocation order. -/
def keys (s : Store) : List RimeAddr := s.neighborList.map Prod.fst

/-- `s'` keeps the entries of `s` in place and may append new ones, up to `k` entries
unless `s` already had more. -/
def Grows (k : Nat) (s s' : Store) : Prop :=
  s.keys <+: s'.keys ∧ s'.keys.length ≤ max k s.keys.length

namespace Grows

variable {k : Nat} {s s' s'' : Store}

theorem of_keys (h : s'.keys = s.keys) : Grows k s s' :=
  ⟨h ▸ List.prefix_refl _, by rw [h]; omega⟩

theorem refl (k : Nat) (s : Store) : Grows k s s := of_keys rfl

theorem trans (h : Grows k s s') (h' : Grows k s' s'') : Grows k s s'' :=
  ⟨h.1.trans h'.1, by have := h.2; have := h'.2; omega⟩

end Grows

variable {B : BufferSize} {s : Store}

theorem lookup_isSome_iff_mem_keys {a : RimeAddr} :
    (s.neighborQueueFromAddr a).isSome ↔ a ∈ s.keys := by
  rw [← not_iff_not, Option.not_isSome_iff_eq_none]
  exact lookup_eq_none_iff

@[simp] theorem keys_updateQueue (s : Store) (a : RimeAddr) (f : NeighborQueue → NeighborQueue) :
    (s.updateQueue a f).keys = s.keys :=
  map_fst_modifyQueue _

@[simp] theorem keys_updateSlot (s : Store) (r : SlotRef) (f : TschPacket → TschPacket) :
    (s.updateSlot r f).keys = s.keys :=
  keys_updateQueue _ _ _

@[simp] theorem keys_addPacketToQueue (s : Store) (sent ptr : Nat) (a : RimeAddr)
    (pkt : Option QueueBuf) : (s.addPacketToQueue B sent ptr a pkt).2.keys = s.keys := by
  unfold addPacketToQueue
  split
  · exact map_fst_modifyQueue _
  · rfl

@[simp] theorem keys_removePacketFromQueue (s : Store) (a : RimeAddr) :
    (s.removePacketFromQueue B a).2.keys = s.keys := by
  unfold removePacketFromQueue
  split
  · exact map_fst_modifyQueue _
  · rfl

@[simp] theorem keys_getNextPacketForSharedSlotTx (s : Store) :
    (s.getNextPacketForSharedSlotTx B).2.keys = s.keys := by
  unfold getNextPacketForSharedSlotTx
  split <;> rfl

/-- `add_queue` renews an entry in place, appends one while the table has room, or fails. -/
theorem addQueue_keys (k : Nat) (s : Store) (a : RimeAddr) :
    (s.addQueue B k a).2.keys = s.keys ∨
      s.neighborQueueFromAddr a = none ∧ s.keys.length < k ∧
        (s.addQueue B k a).2.keys = s.keys ++ [a] := by
  cases hq : s.neighborQueueFromAddr a with
  | some q =>
      rw [addQueue_of_some hq]
      exact .inl (map_fst_modifyQueue _)
  | none =>
      rw [addQueue_of_none hq]
      split_ifs with hk
      · refine .inr ⟨rfl, by simpa [keys] using hk, ?_⟩
        simp [keys]
      · exact .inl rfl

theorem addQueue_grows (k : Nat) (s : Store) (a : RimeAddr) : Grows k s (s.addQueue B k a).2 := by
  rcases addQueue_keys (B := B) k s a with h | ⟨-, hk, h⟩
  · exact .of_keys h
  · exact ⟨h ▸ List.prefix_append _ _, by rw [h, List.length_append, List.length_singleton]; omega⟩

theorem sendOnePacket_grows (k : Nat) (framer : Packetbuf → Option (List UInt8)) (sent ptr : Nat)
    (pb : Packetbuf) (alloc : Option Nat) :
    Grows k s (s.sendOnePacket B k framer sent ptr pb alloc).2 := by
  have hq := addQueue_grows (B := B) k { s with dsn := nextDsn s.dsn } pb.receiver
  unfold sendOnePacket
  dsimp only
  split
  · exact .refl k s
  · split
    · exact .of_keys (keys_addPacketToQueue _ _ _ _ _)
    · split <;> rename_i heq <;> rw [heq] at hq
      · exact hq
      · exact hq.trans (.of_keys (keys_addPacketToQueue _ _ _ _ _))

theorem sendList_grows (k : Nat) (framer : Packetbuf → Option (List UInt8)) (sent ptr : Nat)
    (bufs : List (Packetbuf × Option Nat)) : Grows k s (s.sendList B k framer sent ptr bufs) := by
  induction bufs generalizing s with
  | nil => exact .refl k s
  | cons b bufs ih =>
      unfold sendList
      split_ifs
      · exact (sendOnePacket_grows k framer sent ptr _ _).trans ih
      · exact sendOnePacket_grows k framer sent ptr _ _

end Store

namespace Mac

open Store

variable {cfg : Config} {m m' : Mac} {r : Radio} {x : Resumed}

theorem slotSetup_keys (m : Mac) (cell : Cell) : (slotSetup cfg m cell).store.keys = m.store.keys := by
  have hsel : (selectPacket cfg m.store cell).2.2.keys = m.store.keys := by
    rcases @selectPacket_store cfg m.store cell with h | h <;> rw [h]
    exact keys_getNextPacketForSharedSlotTx _
  rcases @slotSetup_store cfg m cell with h | ⟨a, h⟩ <;> rw [h] <;> simp [hsel]

/-! ## The queues of `tsch_associate` -/

/-- What the loop of `tsch_associate` has built after the links `P`, in a table of at most
`k` entries. -/
structure AssocInv (k : Nat) (P : List Cell) (s : Store) : Prop where
  named : ∀ a ∈ s.keys,
    ∃ c ∈ P, (c.linkOptions.timeKeeping || c.linkOptions.tx) = true ∧ c.nodeAddress = a
  covered : ∀ c ∈ P, (c.linkOptions.timeKeeping || c.linkOptions.tx) = true →
    c.nodeAddress ∈ s.keys ∨ s.keys.length = k
  queue : ∀ a q, s.neighborQueueFromAddr a = some q →
    (q.timeSource = true ↔ ∃ c ∈ P, c.linkOptions.timeKeeping = true ∧ c.nodeAddress = a) ∧
      q.beValue = macMinBE ∧ q.bwValue = 0
  bound : s.keys.length ≤ k

theorem findOrAddQueue_of_some {s : Store} {a : RimeAddr} {q : NeighborQueue}
    (hq : s.neighborQueueFromAddr a = some q) : findOrAddQueue cfg s a = (some a, s) := by
  simp only [findOrAddQueue, hq]

theorem findOrAddQueue_of_none {s : Store} {a : RimeAddr} (hn : s.neighborQueueFromAddr a = none) :
    findOrAddQueue cfg s a =
      if s.neighborList.length < cfg.maxNeighbors then
        (some a, { s with
          neighborList := s.neighborList ++ [(a, NeighborQueue.init cfg.B .zero)]
          workingOnQueue := false })
      else (none, { s with workingOnQueue := false }) := by
  simp only [findOrAddQueue, hn, addQueue_of_none hn]

namespace AssocInv

variable {P : List Cell} {s : Store}

theorem init (k : Nat) : AssocInv k [] Store.empty :=
  ⟨fun _ h => (nomatch h), fun _ h => (nomatch h), fun _ _ h => (nomatch h), Nat.zero_le _⟩

/-- A link of `P ++ [c]` with property `p` is one of `P` or is `c`. -/
theorem exists_mem_append_singleton {c : Cell} {p : Cell → Prop} :
    (∃ c' ∈ P ++ [c], p c') ↔ (∃ c' ∈ P, p c') ∨ p c := by
  simp [or_and_right, exists_or]

variable {k : Nat} {c : Cell}

/-- The frame of the loop body: it changes at most the queue of `c`'s neighbor. -/
theorem extend (h : AssocInv k P s) {s' : Store}
    (hkeys : s'.keys = s.keys ∨
      (c.linkOptions.timeKeeping || c.linkOptions.tx) = true ∧
        s'.keys = s.keys ++ [c.nodeAddress])
    (hbound : s'.keys.length ≤ k)
    (hother : ∀ a, a ≠ c.nodeAddress → s'.neighborQueueFromAddr a = s.neighborQueueFromAddr a)
    (hcov : (c.linkOptions.timeKeeping || c.linkOptions.tx) = true →
      c.nodeAddress ∈ s'.keys ∨ s'.keys.length = k)
    (hself : ∀ q, s'.neighborQueueFromAddr c.nodeAddress = some q →
      (q.timeSource = true ↔ (∃ c' ∈ P, c'.linkOptions.timeKeeping = true ∧
        c'.nodeAddress = c.nodeAddress) ∨ c.linkOptions.timeKeeping = true) ∧
      q.beValue = macMinBE ∧ q.bwValue = 0) :
    AssocInv k (P ++ [c]) s' where
  named a ha := by
    rw [exists_mem_append_singleton]
    rcases hkeys with hk | ⟨hc, hk⟩ <;> rw [hk] at ha
    · exact .inl (h.named a ha)
    · rcases List.mem_append.1 ha with ha | ha
      · exact .inl (h.named a ha)
      · exact .inr ⟨hc, (List.mem_singleton.1 ha).symm⟩
  covered c' hc' ht := by
    rcases List.mem_append.1 hc' with hc' | hc'
    · rcases hkeys with hk | ⟨-, hk⟩ <;> rw [hk] at hbound ⊢ <;>
        rcases h.covered c' hc' ht with h' | h'
      · exact .inl h'
      · exact .inr h'
      · exact .inl (List.mem_append_left _ h')
      · simp only [List.length_append, List.length_singleton] at hbound
        omega
    · obtain rfl := List.mem_singleton.1 hc'
      exact hcov ht
  queue a q hq := by
    by_cases ha : a = c.nodeAddress
    · subst ha
      obtain ⟨hts, hbe, hbw⟩ := hself q hq
      exact ⟨hts.trans (by rw [exists_mem_append_singleton]; simp), hbe, hbw⟩
    · rw [hother a ha] at hq
      obtain ⟨hts, hbe, hbw⟩ := h.queue a q hq
      exact ⟨hts.trans (by rw [exists_mem_append_singleton]; simp [Ne.symm ha]), hbe, hbw⟩
  bound := hbound

/-- A link that is neither TX nor time-keeping leaves the table alone. -/
theorem skip (h : AssocInv k P s) (hc : ¬(c.linkOptions.timeKeeping || c.linkOptions.tx) = true) :
    AssocInv k (P ++ [c]) s := by
  have htk : c.linkOptions.timeKeeping = false := by simp_all
  refine h.extend (.inl rfl) h.bound (fun _ _ => rfl) (absurd · hc) fun q hq => ?_
  obtain ⟨hts, hbe, hbw⟩ := h.queue _ q hq
  exact ⟨by simpa [htk] using hts, hbe, hbw⟩

/-- A link whose neighbor has a queue marks it a time source when the link is time-keeping. -/
theorem mark (h : AssocInv k P s) {q₀ : NeighborQueue}
    (hq₀ : s.neighborQueueFromAddr c.nodeAddress = some q₀) :
    AssocInv k (P ++ [c]) (s.updateQueue c.nodeAddress fun q =>
      { q with timeSource := c.linkOptions.timeKeeping || q.timeSource }) := by
  have hmem : c.nodeAddress ∈ s.keys := lookup_isSome_iff_mem_keys.1 (by simp [hq₀])
  refine h.extend (.inl (keys_updateQueue ..)) (by simpa using h.bound)
    (fun a ha => by rw [neighborQueueFromAddr_updateQueue, if_neg ha])
    (fun _ => .inl (by simpa using hmem)) fun q hq => ?_
  rw [neighborQueueFromAddr_updateQueue, if_pos rfl, hq₀] at hq
  cases hq
  obtain ⟨hts, hbe, hbw⟩ := h.queue _ q₀ hq₀
  exact ⟨by simp only [Bool.or_eq_true, hts, or_comm], hbe, hbw⟩

/-- A TX or time-keeping link whose neighbor has no queue, with room in the table, gets a new
queue, marked a time source when the link is time-keeping. -/
theorem add (h : AssocInv k P s) {B : BufferSize}
    (hc : (c.linkOptions.timeKeeping || c.linkOptions.tx) = true)
    (hn : s.neighborQueueFromAddr c.nodeAddress = none) (hk : s.neighborList.length < k) :
    AssocInv k (P ++ [c]) (({ s with
        neighborList := s.neighborList ++ [(c.nodeAddress, NeighborQueue.init B .zero)]
        workingOnQueue := false } : Store).updateQueue c.nodeAddress fun q =>
      { q with timeSource := c.linkOptions.timeKeeping || q.timeSource }) := by
  have hnk : c.nodeAddress ∉ s.keys := lookup_eq_none_iff.1 hn
  have hlen : s.keys.length < k := by simpa [keys] using hk
  refine h.extend (.inr ⟨hc, by rw [keys_updateQueue]; simp [keys]⟩)
    (by rw [keys_updateQueue]; simp [keys]; omega) (fun a ha => ?_)
    (fun _ => .inl (by rw [keys_updateQueue]; simp [keys])) fun q hq => ?_
  · rw [neighborQueueFromAddr_updateQueue, if_neg ha]
    exact (lookup_append_singleton hn).trans (if_neg ha)
  · rw [neighborQueueFromAddr_updateQueue, if_pos rfl] at hq
    simp only [Store.neighborQueueFromAddr, lookup_append_singleton hn, ↓reduceIte,
      Option.map_some', Option.some.injEq] at hq
    subst hq
    -- a time-keeping link of `P` naming the neighbor would have given it a queue already
    refine ⟨⟨fun ht => .inr (by simpa [NeighborQueue.init, NeighborQueue.zero] using ht),
      fun h' => h'.elim (fun ⟨c', hc', ht, he⟩ => ?_) (by simp [·])⟩, rfl, rfl⟩
    rcases h.covered c' hc' (by simp [ht]) with h' | h'
    · exact absurd (he ▸ h') hnk
    · omega

/-- With the table full, a link whose neighbor has no queue gets none. -/
theorem full (h : AssocInv k P s) (hn : s.neighborQueueFromAddr c.nodeAddress = none)
    (hk : ¬s.neighborList.length < k) :
    AssocInv k (P ++ [c]) { s with workingOnQueue := false } :=
  h.extend (.inl rfl) h.bound (fun _ _ => rfl)
    (fun _ => .inr (le_antisymm h.bound (by simpa [keys] using hk)))
    fun q hq => absurd (hn.symm.trans hq) (by simp)

theorem associateLink (h : AssocInv cfg.maxNeighbors P s) (c : Cell) :
    AssocInv cfg.maxNeighbors (P ++ [c]) (associateLink cfg s c) := by
  unfold Mac.associateLink
  split_ifs with hc
  · cases hq : s.neighborQueueFromAddr c.nodeAddress with
    | some q₀ =>
        rw [findOrAddQueue_of_some hq]
        exact h.mark hq
    | none =>
        rw [findOrAddQueue_of_none hq]
        split_ifs with hk
        · exact h.add hc hq hk
        · exact h.full hq hk
  · exact h.skip hc

theorem foldl (h : AssocInv cfg.maxNeighbors P s) (l : List Cell) :
    AssocInv cfg.maxNeighbors (P ++ l) (l.foldl (Mac.associateLink cfg) s) := by
  induction l generalizing P s with
  | nil => simpa using h
  | cons c l ih => simpa using ih (h.associateLink c)

end AssocInv

variable (cfg) in
/-- After `init`, for every `links_list`: a neighbor has a queue only if a TX or
time-keeping link names it, and each neighbor such a link names has one unless the table
filled up; every queue has `BE_value = macMinBE` and `BW_value = 0`, and it is a time
source exactly when a time-keeping link names its neighbor. -/
theorem associate_queues (now : Nat) (a : RimeAddr) :
    (a ∈ (init cfg now).store.keys → ∃ c ∈ cfg.links,
        (c.linkOptions.timeKeeping || c.linkOptions.tx) = true ∧ c.nodeAddress = a) ∧
      ((∃ c ∈ cfg.links, (c.linkOptions.timeKeeping || c.linkOptions.tx) = true ∧
          c.nodeAddress = a) →
        a ∈ (init cfg now).store.keys ∨ (init cfg now).store.keys.length = cfg.maxNeighbors) ∧
      ∀ q, (init cfg now).store.neighborQueueFromAddr a = some q →
        (q.timeSource = true ↔
          ∃ c ∈ cfg.links, c.linkOptions.timeKeeping = true ∧ c.nodeAddress = a) ∧
        q.beValue = macMinBE ∧ q.bwValue = 0 := by
  have h := (AssocInv.init cfg.maxNeighbors).foldl cfg.links
  rw [List.nil_append] at h
  refine ⟨h.named a, fun ⟨c, hc, ht, he⟩ => he ▸ h.covered c hc ht, h.queue a⟩

/-- The shipped `init` gives `cellAddress1` a queue, which a TX link of `links_list` names. -/
theorem associate_queues_shipped :
    cellAddress1 ∈ (init shipped 0).store.keys ∧
      ∃ c ∈ shipped.links, (c.linkOptions.timeKeeping || c.linkOptions.tx) = true ∧
        c.nodeAddress = cellAddress1 := by
  have h : cellAddress1 ∈ (init shipped 0).store.keys := by decide
  exact ⟨h, (associate_queues shipped 0 cellAddress1).1 h⟩

end Mac

end Tsch
