import Tsch.Delivery

/-!
# The round robin of shared broadcast cells

A shared broadcast cell with nothing to broadcast asks `get_next_packet_for_shared_slot_tx`
for a unicast packet (lines 291-303).  The static cursor `last_neighbor_tx` starts at the
table head; each call reads queue after queue from the cursor and leaves it just past the
queue it took a packet from.  The scan stops at the end of the table, where the cursor
becomes NULL and the next call starts again at the head.

**Results.**
* `getNext_cursorRank`: the step lemma; a call returns the head of a given non-empty queue
  or moves the cursor closer to it.
* `shared_slot_round_robin_fair`: bounded waiting over any sequence of calls.
* `shared_slot_skips_queued_unicast`: a call may return NULL while a queue before the
  cursor holds a packet.
-/

namespace Tsch

namespace Store

variable (B : BufferSize)

/-! ## One call -/

/-- `scanFrom` stops at the first queue with a head packet and moves the cursor past it, to
NULL at the end of the table; when no queue has one it returns NULL and a NULL cursor. -/
theorem scanFrom_cases (l : List (RimeAddr × NeighborQueue)) (i : Nat) :
    ((∀ e ∈ l, readPacketFromNeighborQueue B (some e.2) = none) ∧
        scanFrom B l i = (none, none)) ∨
      ∃ o e idx, l[o]? = some e ∧ readPacketFromNeighborQueue B (some e.2) = some idx ∧
        (∀ o' < o, ∀ e', l[o']? = some e' → readPacketFromNeighborQueue B (some e'.2) = none) ∧
        scanFrom B l i =
          (some ⟨e.1, idx⟩, if o + 1 < l.length then some (i + o + 1) else none) := by
  induction l generalizing i with
  | nil => exact .inl ⟨fun e he => absurd he (List.not_mem_nil e), rfl⟩
  | cons e rest ih =>
      obtain ⟨a, n⟩ := e
      cases h : readPacketFromNeighborQueue B (some n) with
      | some idx =>
          refine .inr ⟨0, (a, n), idx, List.getElem?_cons_zero, h,
            fun o' ho' => absurd ho' (Nat.not_lt_zero _), ?_⟩
          simp only [scanFrom, h]
          cases rest <;> simp
      | none =>
          rcases ih (i + 1) with ⟨hall, heq⟩ | ⟨o, e, idx, ho, he, hbefore, heq⟩
          · refine .inl ⟨?_, by simp only [scanFrom, h, heq]⟩
            simp only [List.mem_cons, forall_eq_or_imp]
            exact ⟨h, hall⟩
          · refine .inr ⟨o + 1, e, idx, by rw [List.getElem?_cons_succ]; exact ho, he,
              fun o' ho' e' he' => ?_, ?_⟩
            · cases o' with
              | zero =>
                  rw [List.getElem?_cons_zero, Option.some.injEq] at he'
                  subst he'
                  exact h
              | succ o' =>
                  rw [List.getElem?_cons_succ] at he'
                  exact hbefore o' (by omega) e' he'
            · simp only [scanFrom, h, heq, List.length_cons, Nat.add_lt_add_iff_right]
              rw [show i + 1 + o + 1 = i + (o + 1) + 1 by omega]

/-- The round robin's distance, in calls, from the cursor to the entry at index `x` of a
table of `T` entries. -/
def cursorRank (T x : Nat) : Option Nat → Nat
  | none => x
  | some i => if i ≤ x then x - i else T - i + x + 1

theorem cursorRank_le {T x : Nat} (hx : x < T) (c : Option Nat) : cursorRank T x c ≤ T := by
  cases c with
  | none => exact hx.le
  | some i => simp only [cursorRank]; split_ifs <;> omega

/-- One call either returns the head of the non-empty queue at index `x`, or moves the
cursor strictly closer to it. -/
theorem getNext_cursorRank {s : Store} {x : Nat} {X : RimeAddr} {q : NeighborQueue} {idx : Nat}
    (hx : s.neighborList[x]? = some (X, q))
    (hq : readPacketFromNeighborQueue B (some q) = some idx) :
    (s.getNextPacketForSharedSlotTx B).1 = some ⟨X, idx⟩ ∨
      cursorRank s.neighborList.length x (s.getNextPacketForSharedSlotTx B).2.lastNeighborTx <
        cursorRank s.neighborList.length x s.lastNeighborTx := by
  have hxT : x < s.neighborList.length := (List.getElem?_eq_some_iff.1 hx).1
  -- the scan starts at the cursor, or at the head when the cursor is NULL
  obtain ⟨i, hstart, hrank⟩ : ∃ i,
      (s.lastNeighborTx.orElse fun _ => if s.neighborList.isEmpty then none else some 0) =
        some i ∧
      cursorRank s.neighborList.length x s.lastNeighborTx =
        cursorRank s.neighborList.length x (some i) := by
    cases s.lastNeighborTx with
    | none =>
        refine ⟨0, ?_, by simp [cursorRank]⟩
        show (if s.neighborList.isEmpty then none else some 0) = some 0
        rw [if_neg (by rw [List.isEmpty_iff]; exact List.ne_nil_of_length_pos (by omega))]
    | some i => exact ⟨i, rfl, rfl⟩
  -- the entry at `x` is in the scanned suffix exactly when the scan starts at or before it
  have hin : i ≤ x → (s.neighborList.drop i)[x - i]? = some (X, q) := fun hi => by
    rw [List.getElem?_drop, Nat.add_sub_cancel' hi, hx]
  unfold getNextPacketForSharedSlotTx
  rw [hstart, hrank]
  dsimp only
  rcases scanFrom_cases B (s.neighborList.drop i) i with
    ⟨hall, heq⟩ | ⟨o, e, idx', ho, he, hbefore, heq⟩ <;> rw [heq]
  · -- nothing left to read from the cursor on: the cursor was past `x`
    have hxi : x < i := by
      by_contra hle
      have := hall _ (List.mem_iff_getElem?.2 ⟨_, hin (by omega)⟩)
      cases hq.symm.trans this
    right
    simp only [cursorRank, if_neg (show ¬ i ≤ x by omega)]
    omega
  · have hlen : (s.neighborList.drop i).length = s.neighborList.length - i := List.length_drop _ _
    have hoT : i + o < s.neighborList.length := by
      have := (List.getElem?_eq_some_iff.1 ho).1
      omega
    by_cases hix : i ≤ x
    · -- the scan stops at `x` or before it
      have hox : o ≤ x - i := by
        by_contra hlt
        have := hbefore (x - i) (by omega) _ (hin hix)
        cases hq.symm.trans this
      rcases Nat.lt_or_eq_of_le hox with hlt | rfl
      · right
        rw [if_pos (by omega)]
        simp only [cursorRank, if_pos hix, if_pos (show i + o + 1 ≤ x by omega)]
        omega
      · left
        cases (hin hix).symm.trans ho
        cases hq.symm.trans he
        rfl
    · right
      split_ifs with hend
      · simp only [cursorRank, if_neg hix, if_neg (show ¬ i + o + 1 ≤ x by omega)]
        omega
      · simp only [cursorRank, if_neg hix]
        omega

/-! ## A run of calls -/

/-- The first entry keyed `a` is at the index of `a` among the keys. -/
theorem getElem?_indexOf_of_lookup {t : List (RimeAddr × NeighborQueue)} {a : RimeAddr}
    {q : NeighborQueue} (h : t.lookup a = some q) : t[(t.map Prod.fst).indexOf a]? = some (a, q) := by
  induction t with
  | nil => cases h
  | cons e t ih =>
      obtain ⟨b, n⟩ := e
      rw [lookup_cons] at h
      by_cases hab : a = b
      · subst hab
        rw [if_pos rfl] at h
        cases h
        rw [List.map_cons, List.indexOf_cons_self, List.getElem?_cons_zero]
      · rw [if_neg hab] at h
        rw [List.map_cons, List.indexOf_cons_ne _ (Ne.symm hab), List.getElem?_cons_succ, ih h]

variable {B}

/-- Over calls `0 .. k` that all miss `X`, the rank drops by at least one per call. -/
theorem cursorRank_add_le {s : Nat → Store} {T x : Nat} {X : RimeAddr}
    (hT : ∀ k ≤ T, (s k).neighborList.length = T)
    (hcur : ∀ k < T,
      (s (k + 1)).lastNeighborTx = ((s k).getNextPacketForSharedSlotTx B).2.lastNeighborTx)
    (hX : ∀ k ≤ T, ∃ q idx, (s k).neighborList[x]? = some (X, q) ∧
      readPacketFromNeighborQueue B (some q) = some idx ∧
      ((s k).getNextPacketForSharedSlotTx B).1 ≠ some ⟨X, idx⟩) :
    ∀ k ≤ T, cursorRank T x (s k).lastNeighborTx + k ≤ cursorRank T x (s 0).lastNeighborTx := by
  intro k hk
  induction k with
  | zero => exact Nat.le_refl _
  | succ k ih =>
      obtain ⟨q, idx, hx, hq, hmiss⟩ := hX k (by omega)
      have hstep := (getNext_cursorRank B hx hq).resolve_left hmiss
      rw [hT k (by omega), ← hcur k (by omega)] at hstep
      have := ih (by omega)
      omega

variable (B) in
/-- Bounded waiting for the round robin.  Take any sequence of calls on a table of `T`
entries whose membership does not change, from any cursor, with any change to the queues
between calls, during which the queue of `X` stays non-empty: within `T + 1` calls one of
them returns the head packet of `X`. -/
theorem shared_slot_round_robin_fair (s : Nat → Store) (X : RimeAddr)
    (hkeys : ∀ k ≤ (s 0).neighborList.length,
      (s k).neighborList.map Prod.fst = (s 0).neighborList.map Prod.fst)
    (hcur : ∀ k < (s 0).neighborList.length,
      (s (k + 1)).lastNeighborTx = ((s k).getNextPacketForSharedSlotTx B).2.lastNeighborTx)
    (hX : ∀ k ≤ (s 0).neighborList.length,
      ∃ q, (s k).neighborQueueFromAddr X = some q ∧ (q.readPacket B).isSome) :
    ∃ k ≤ (s 0).neighborList.length, ∃ q, (s k).neighborQueueFromAddr X = some q ∧
      ((s k).getNextPacketForSharedSlotTx B).1 = (q.readPacket B).map (SlotRef.mk X) := by
  generalize hT : (s 0).neighborList.length = T at hkeys hcur hX
  have hlen : ∀ k ≤ T, (s k).neighborList.length = T := fun k hk => by
    rw [← List.length_map _ Prod.fst, hkeys k hk, List.length_map, hT]
  -- the head of `X` sits at the index of `X` among the keys in every table of the run
  have hhead : ∀ k ≤ T, ∃ q idx,
      (s k).neighborList[((s 0).neighborList.map Prod.fst).indexOf X]? = some (X, q) ∧
      readPacketFromNeighborQueue B (some q) = some idx ∧
      (s k).neighborQueueFromAddr X = some q := fun k hk => by
    obtain ⟨q, hq, hsome⟩ := hX k hk
    obtain ⟨idx, hidx⟩ := Option.isSome_iff_exists.1 hsome
    exact ⟨q, idx, hkeys k hk ▸ getElem?_indexOf_of_lookup hq, hidx, hq⟩
  by_contra hnone
  push_neg at hnone
  have hmiss : ∀ k ≤ T, ∃ q idx,
      (s k).neighborList[((s 0).neighborList.map Prod.fst).indexOf X]? = some (X, q) ∧
      readPacketFromNeighborQueue B (some q) = some idx ∧
      ((s k).getNextPacketForSharedSlotTx B).1 ≠ some ⟨X, idx⟩ := fun k hk => by
    obtain ⟨q, idx, hx, hidx, hq⟩ := hhead k hk
    refine ⟨q, idx, hx, hidx, fun h => hnone k hk q hq ?_⟩
    rw [h]
    exact (congrArg (Option.map (SlotRef.mk X)) hidx).symm
  obtain ⟨q, idx, hx, hidx, hlast⟩ := hmiss T le_rfl
  have hxT : ((s 0).neighborList.map Prod.fst).indexOf X < T := by
    rw [← hlen T le_rfl]; exact (List.getElem?_eq_some_iff.1 hx).1
  have hsum := cursorRank_add_le hlen hcur hmiss T le_rfl
  have hle := cursorRank_le hxT (s 0).lastNeighborTx
  have hstep := (getNext_cursorRank B hx hidx).resolve_left hlast
  rw [hlen T le_rfl] at hstep
  omega

/-- The tables successive calls of the round robin see when nothing else runs between
them. -/
def roundRobinCalls (B : BufferSize) (s : Store) : Nat → Store
  | 0 => s
  | k + 1 => ((roundRobinCalls B s k).getNextPacketForSharedSlotTx B).2

theorem roundRobinCalls_neighborList (B : BufferSize) (s : Store) (k : Nat) :
    (roundRobinCalls B s k).neighborList = s.neighborList := by
  induction k with
  | zero => rfl
  | succ k ih =>
      rw [roundRobinCalls, ← ih]
      unfold getNextPacketForSharedSlotTx
      split <;> rfl

/-- Four neighbors with one packet each, `cellAddress1` first, and the cursor on the third
entry, past `cellAddress1`. -/
def fourQueueStore : Store :=
  ⟨[(cellAddress1, { NeighborQueue.zero with putPtr := 1 }),
      (cellAddress2, { NeighborQueue.zero with putPtr := 1 }),
      (cellAddress3, { NeighborQueue.zero with putPtr := 1 }),
      (rimeaddrNull, { NeighborQueue.zero with putPtr := 1 })],
    some 2, 0, false, [cellAddress1, cellAddress2, cellAddress3, rimeaddrNull], []⟩

/-- From the cursor on the third of four entries the round robin first returns the packet of
`cellAddress3`, then that of the fourth neighbor, and the head of `cellAddress1` within the
bound. -/
theorem shared_slot_round_robin_fair_from_cursor :
    (fourQueueStore.getNextPacketForSharedSlotTx BufferSize.eight).1 = some ⟨cellAddress3, 0⟩ ∧
    (∀ k ≤ fourQueueStore.neighborList.length,
      (roundRobinCalls BufferSize.eight fourQueueStore k).neighborList.map Prod.fst =
        fourQueueStore.neighborList.map Prod.fst) ∧
    (∀ k < fourQueueStore.neighborList.length,
      (roundRobinCalls BufferSize.eight fourQueueStore (k + 1)).lastNeighborTx =
        ((roundRobinCalls BufferSize.eight fourQueueStore k).getNextPacketForSharedSlotTx
          BufferSize.eight).2.lastNeighborTx) ∧
    (∀ k ≤ fourQueueStore.neighborList.length, ∃ q,
      (roundRobinCalls BufferSize.eight fourQueueStore k).neighborQueueFromAddr cellAddress1 =
        some q ∧ (q.readPacket BufferSize.eight).isSome) ∧
    ∃ k ≤ fourQueueStore.neighborList.length, ∃ q,
      (roundRobinCalls BufferSize.eight fourQueueStore k).neighborQueueFromAddr cellAddress1 =
        some q ∧
      ((roundRobinCalls BufferSize.eight fourQueueStore k).getNextPacketForSharedSlotTx
          BufferSize.eight).1 = (q.readPacket BufferSize.eight).map (SlotRef.mk cellAddress1) := by
  have hkeys : ∀ k ≤ fourQueueStore.neighborList.length,
      (roundRobinCalls BufferSize.eight fourQueueStore k).neighborList.map Prod.fst =
        fourQueueStore.neighborList.map Prod.fst := fun k _ => by
    rw [roundRobinCalls_neighborList]
  have hX : ∀ k ≤ fourQueueStore.neighborList.length, ∃ q,
      (roundRobinCalls BufferSize.eight fourQueueStore k).neighborQueueFromAddr cellAddress1 =
        some q ∧ (q.readPacket BufferSize.eight).isSome := fun k _ =>
    ⟨_, by rw [neighborQueueFromAddr, roundRobinCalls_neighborList]; rfl, by decide⟩
  exact ⟨by decide, hkeys, fun _ _ => rfl, hX,
    shared_slot_round_robin_fair BufferSize.eight (roundRobinCalls BufferSize.eight fourQueueStore)
      cellAddress1 hkeys (fun _ _ => rfl) hX⟩

end Store

namespace Mac

/-- The shipped driver after `noackTrace`'s failed attempt: the round robin of the first
shared cell took the packet for `cellAddress1`, whose ring still holds it, and left the
cursor past it.  The next call returns NULL, and the next shared cell, whose broadcast
queue is empty, goes idle and listens. -/
theorem shared_slot_skips_queued_unicast :
    (run shipped (init shipped 0) noackTrace.dropLast).map (fun m =>
        (m.store.lastNeighborTx, m.store.ringUids shipped.B cellAddress1,
          (m.store.getNextPacketForSharedSlotTx shipped.B).1)) = some (some 2, [0], none) ∧
      (run shipped (init shipped 0) (noackTrace.dropLast ++ [.powercycle (quietRadio 1100)])).map
          (fun m => (m.timeslot, decide (m.cellDecison = .rx), m.p)) = some (2, true, none) := by
  decide

end Mac

end Tsch
