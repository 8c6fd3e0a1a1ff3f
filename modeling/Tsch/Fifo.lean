import Mathlib.Data.List.Destutter
import Tsch.Rings

/-!
# FIFO order and retries

`send_one_packet` gives every packet it accepts a uid, its index in the log `accepted`.
The slot machine logs the uid of each packet it takes into `CELL_TX` (`txLog`) and the
status of each attempt (`attempts`).  Per neighbor, the packets are attempted in the order
they were accepted, each one again and again until it leaves its ring, and a packet leaves
its ring exactly after a successful attempt or after its `macMaxFrameRetries`-th failed
one.  This holds in shared cells too, where the round robin takes the packet from another
neighbor's ring: the pop goes to the ring of the packet's receiver, which is the ring the
packet was taken from.

**Results.**
* `step_fifoInv`: every event keeps the invariant `FifoInv`.
* `fifo_retry_discipline`: the FIFO and retry discipline over every run.
-/

namespace Tsch

/-! ## Collapsing repetitions -/

section Destutter

variable {α : Type} [DecidableEq α]

theorem destutter'_ne_append_singleton (a : α) (l : List α) (x : α) :
    (l ++ [x]).destutter' (· ≠ ·) a =
      if l.getLast?.getD a = x then l.destutter' (· ≠ ·) a else l.destutter' (· ≠ ·) a ++ [x] := by
  induction l generalizing a with
  | nil => by_cases h : a = x <;> simp [h, List.destutter'_singleton]
  | cons b l ih =>
      have hlast : (b :: l).getLast?.getD a = l.getLast?.getD b := by
        rw [List.getLast?_cons]; rfl
      rw [hlast, List.cons_append]
      by_cases h : a = b
      · subst h
        rw [List.destutter'_cons_neg _ (fun h => h rfl), List.destutter'_cons_neg _ (fun h => h rfl), ih]
      · rw [List.destutter'_cons_pos _ h, List.destutter'_cons_pos _ h, ih]
        split_ifs <;> rfl

/-- One more element is dropped when it repeats the last one, and kept otherwise. -/
theorem destutter_ne_append_singleton (l : List α) (x : α) :
    (l ++ [x]).destutter (· ≠ ·) =
      if l.getLast? = some x then l.destutter (· ≠ ·) else l.destutter (· ≠ ·) ++ [x] := by
  cases l with
  | nil => simp
  | cons b l =>
      rw [List.cons_append, List.destutter_cons', List.destutter_cons',
        destutter'_ne_append_singleton, List.getLast?_cons]
      simp only [Option.some.injEq]

theorem getLast?_destutter'_ne (a : α) (l : List α) :
    (l.destutter' (· ≠ ·) a).getLast? = some (l.getLast?.getD a) := by
  induction l generalizing a with
  | nil => rfl
  | cons b l ih =>
      rw [List.getLast?_cons]
      by_cases h : a = b
      · subst h
        rw [List.destutter'_cons_neg _ (fun h => h rfl), ih]
        rfl
      · rw [List.destutter'_cons_pos _ h, List.getLast?_cons, ih]

/-- Collapsing repetitions keeps the last element. -/
theorem getLast?_destutter_ne (l : List α) : (l.destutter (· ≠ ·)).getLast? = l.getLast? := by
  cases l with
  | nil => rfl
  | cons b l => rw [List.destutter_cons', getLast?_destutter'_ne, List.getLast?_cons]

omit [DecidableEq α] in
theorem getLast?_filter_of_getLast? {l : List α} {x : α} {p : α → Bool} (hl : l.getLast? = some x)
    (hp : p x = true) : (l.filter p).getLast? = some x := by
  obtain ⟨l₀, rfl⟩ := List.getLast?_eq_some_iff.1 hl
  rw [List.filter_append, List.filter_singleton, hp, cond_true, List.getLast?_concat]

end Destutter

/-! ## The logs -/

/-- The uids of the packets accepted for `a`, in enqueue order. -/
def uidsFor (acc : List RimeAddr) (a : RimeAddr) : List Nat :=
  (List.range acc.length).filter fun u => acc[u]? == some a

/-- The entries of `log` that are uids of packets accepted for `a`, in the order of `log`. -/
def takenFor (acc : List RimeAddr) (log : List Nat) (a : RimeAddr) : List Nat :=
  log.filter fun u => acc[u]? == some a

/-- The statuses of the attempts of the packet `u`, oldest first. -/
def history (attempts : List (Nat × MacStatus)) (u : Nat) : List MacStatus :=
  (attempts.filter fun x => x.1 == u).map Prod.snd

/-- A packet whose attempts ended with the statuses `h` has left its ring: one attempt
succeeded, or `macMaxFrameRetries` attempts failed. -/
def finished (h : List MacStatus) : Bool :=
  decide (MacStatus.txOk ∈ h ∨ macMaxFrameRetries ≤ h.length)

section Logs

variable {acc : List RimeAddr} {a b : RimeAddr} {u : Nat}

theorem mem_uidsFor : u ∈ uidsFor acc a ↔ acc[u]? = some a := by
  simp only [uidsFor, List.mem_filter, List.mem_range, beq_iff_eq, and_iff_right_iff_imp]
  intro h
  exact (List.getElem?_eq_some_iff.1 h).1

/-- A packet accepted for `a` stays accepted for `a` as the log grows. -/
theorem mem_uidsFor_of_prefix {acc' : List RimeAddr} (hp : acc <+: acc') (hu : u ∈ uidsFor acc a) :
    u ∈ uidsFor acc' a := by
  rw [mem_uidsFor] at hu ⊢
  obtain ⟨t, rfl⟩ := hp
  rw [List.getElem?_append_left (List.getElem?_eq_some_iff.1 hu).1]
  exact hu

theorem nodup_uidsFor (acc : List RimeAddr) (a : RimeAddr) : (uidsFor acc a).Nodup :=
  (List.nodup_range _).filter _

theorem uidsFor_append (acc : List RimeAddr) (b a : RimeAddr) :
    uidsFor (acc ++ [b]) a = uidsFor acc a ++ if b = a then [acc.length] else [] := by
  unfold uidsFor
  rw [List.length_append, List.length_singleton, List.range_succ, List.filter_append]
  congr 1
  · refine List.filter_congr fun w hw => ?_
    rw [List.getElem?_append_left (List.mem_range.1 hw)]
  · by_cases h : b = a <;> simp [h]

theorem takenFor_append_acc {log : List Nat} (h : ∀ u ∈ log, u < acc.length) (b a : RimeAddr) :
    takenFor (acc ++ [b]) log a = takenFor acc log a :=
  List.filter_congr fun w hw => by rw [List.getElem?_append_left (h w hw)]

theorem takenFor_snoc (acc : List RimeAddr) (log : List Nat) (u : Nat) (a : RimeAddr) :
    takenFor acc (log ++ [u]) a = takenFor acc log a ++ if acc[u]? = some a then [u] else [] := by
  unfold takenFor
  rw [List.filter_append, List.filter_singleton]
  by_cases h : acc[u]? = some a
  · simp [h]
  · simp [beq_eq_false_iff_ne.2 h, h]

theorem history_snoc (attempts : List (Nat × MacStatus)) (w : Nat) (st : MacStatus) (u : Nat) :
    history (attempts ++ [(w, st)]) u = history attempts u ++ if w = u then [st] else [] := by
  unfold history
  rw [List.filter_append, List.filter_singleton, List.map_append]
  by_cases h : w = u
  · simp [h]
  · simp [beq_eq_false_iff_ne.2 h, h]

theorem history_eq_nil {attempts : List (Nat × MacStatus)} {u : Nat}
    (h : ∀ x ∈ attempts, x.1 ≠ u) : history attempts u = [] := by
  simp only [history, List.map_eq_nil_iff, List.filter_eq_nil_iff, beq_iff_eq]
  exact h

/-- An unfinished packet has failed fewer than `macMaxFrameRetries` times. -/
theorem length_lt_of_not_finished {h : List MacStatus} (hf : finished h = false) :
    h.length < macMaxFrameRetries := by
  simp only [finished, decide_eq_false_iff_not, not_or] at hf
  omega

/-- One more status finishes an unfinished packet exactly when it is a success or its
`macMaxFrameRetries`-th attempt. -/
theorem finished_snoc {h : List MacStatus} (hf : finished h = false) (st : MacStatus) :
    finished (h ++ [st]) = true ↔ st = .txOk ∨ h.length + 1 = macMaxFrameRetries := by
  have hlen := length_lt_of_not_finished hf
  simp only [finished, decide_eq_false_iff_not, not_or] at hf
  simp only [finished, decide_eq_true_eq, List.mem_append, List.mem_singleton, hf.1, false_or,
    List.length_append, List.length_singleton, eq_comm (a := MacStatus.txOk)]
  exact or_congr_right ⟨fun h1 => by omega, fun h1 => h1.ge⟩

end Logs

/-! ## The invariant -/

/-- `CELL_TX` is running. -/
def Pc.isTx : Pc → Bool
  | .tx _ => true
  | _ => false

/-- The part of the state the FIFO discipline is about. -/
structure FifoView where
  store : Store
  p : Option SlotRef
  inTx : Bool
  txLog : List Nat
  attempts : List (Nat × MacStatus)

def Mac.fifoView (m : Mac) : FifoView :=
  ⟨m.store, m.p, m.pc.isTx, m.txLog, m.attempts⟩

namespace FifoView

variable (v : FifoView)

def hist (u : Nat) : List MacStatus := history v.attempts u

def taken (a : RimeAddr) : List Nat := takenFor v.store.accepted v.txLog a

/-- The packet of the running `CELL_TX`. -/
def inFlight : Option Nat := if v.inTx then v.txLog.getLast? else none

end FifoView

/-- Each neighbor's ring holds, oldest first, the accepted packets for it that are not
finished, after the finished ones; the packets taken for it, repetitions collapsed, are the
finished ones and maybe the head.  A running `CELL_TX` holds the head of a ring, the last
packet taken; every packet was taken once per attempt, and once more while in flight. -/
structure FifoInv (B : BufferSize) (v : FifoView) : Prop where
  rings : v.store.RingsOk B
  attempted_lt : ∀ x ∈ v.attempts, x.1 < v.store.accepted.length
  taken_lt : ∀ u ∈ v.txLog, u < v.store.accepted.length
  ring_pkts : ∀ a L, v.store.ringOf B a = some L → ∀ pk ∈ L,
    pk.transmissions = (v.hist pk.uid).length ∧ finished (v.hist pk.uid) = false ∧
      ∀ b, pk.pkt = some b → b.receiver = a
  fifo : ∀ a, ∃ D, uidsFor v.store.accepted a = D ++ v.store.ringUids B a ∧
    (∀ w ∈ D, finished (v.hist w) = true) ∧
    ((v.taken a).destutter (· ≠ ·) = D ∨
      ∃ h t, v.store.ringUids B a = h :: t ∧ (v.taken a).destutter (· ≠ ·) = D ++ [h])
  count_taken : ∀ u, v.txLog.count u = (v.hist u).length + if v.inFlight = some u then 1 else 0
  hist_le : ∀ u, (v.hist u).length ≤ macMaxFrameRetries
  in_flight : v.inTx = true → ∃ r pk, v.p = some r ∧ v.store.IsHead B r ∧
    v.store.slot r = some pk ∧ v.txLog.getLast? = some pk.uid

namespace FifoInv

variable {B : BufferSize} {v : FifoView}

theorem mem_ringUids (h : FifoInv B v) {a : RimeAddr} {u : Nat} (hu : u ∈ v.store.ringUids B a) :
    finished (v.hist u) = false := by
  unfold Store.ringUids at hu
  cases hL : v.store.ringOf B a with
  | none => simp [hL] at hu
  | some L =>
      rw [hL, Option.getD_some, List.mem_map] at hu
      obtain ⟨pk, hpk, rfl⟩ := hu
      exact (h.ring_pkts a L hL pk hpk).2.1

/-- The rings hold exactly the accepted packets that are not finished. -/
theorem ringUids_eq (h : FifoInv B v) (a : RimeAddr) :
    v.store.ringUids B a = (uidsFor v.store.accepted a).filter fun u => !finished (v.hist u) := by
  obtain ⟨D, hD, hfin, -⟩ := h.fifo a
  rw [hD, List.filter_append, List.filter_eq_nil_iff.2 fun w hw => by simp [hfin w hw],
    List.filter_eq_self.2 fun w hw => by simp [h.mem_ringUids hw], List.nil_append]

/-- The packets taken for `a`, repetitions collapsed, are a prefix of those accepted. -/
theorem destutter_taken_prefix (h : FifoInv B v) (a : RimeAddr) :
    (v.taken a).destutter (· ≠ ·) <+: uidsFor v.store.accepted a := by
  obtain ⟨D, hD, -, hT | ⟨x, t, hR, hT⟩⟩ := h.fifo a <;> rw [hD, hT]
  · exact List.prefix_append _ _
  · rw [hR]
    exact ⟨t, by simp⟩

/-- The packet in flight is in its ring, so it is not finished. -/
theorem inFlight_not_finished (h : FifoInv B v) {u : Nat} (hu : v.inFlight = some u) :
    finished (v.hist u) = false := by
  unfold FifoView.inFlight at hu
  split_ifs at hu with htx
  obtain ⟨r, pk, -, hr, hpk, hlast⟩ := h.in_flight htx
  cases hlast.symm.trans hu
  obtain ⟨pk', L, hL, hpk'⟩ := hr.exists_ringOf h.rings
  cases hpk.symm.trans hpk'
  exact h.mem_ringUids (a := r.addr) (by simp [Store.ringUids, hL])

/-- No packet is taken more than `macMaxFrameRetries` times. -/
theorem count_le (h : FifoInv B v) (u : Nat) : v.txLog.count u ≤ macMaxFrameRetries := by
  rw [h.count_taken u]
  split_ifs with hu
  · have := length_lt_of_not_finished (h.inFlight_not_finished hu)
    omega
  · simpa using h.hist_le u

/-- The packets taken into `CELL_TX` are, up to order, the attempted ones and the one in
flight: each take ends in exactly one attempt, once its slot is over. -/
theorem txLog_perm (h : FifoInv B v) :
    v.txLog.Perm (v.attempts.map Prod.fst ++ v.inFlight.toList) := by
  rw [List.perm_iff_count]
  intro u
  rw [h.count_taken u, List.count_append]
  congr 1
  · simp only [FifoView.hist, history, List.length_map, List.count, List.countP_eq_length_filter,
      List.filter_map]
    rfl
  · cases v.inFlight with
    | none => simp
    | some w => by_cases hw : w = u <;> simp [hw, List.count_cons]

theorem txLog_length (h : FifoInv B v) :
    v.attempts.length + (if v.inTx then 1 else 0) = v.txLog.length := by
  have hlen := h.txLog_perm.length_eq
  rw [List.length_append, List.length_map] at hlen
  rw [hlen]
  congr 1
  unfold FifoView.inFlight
  cases hx : v.inTx
  · rfl
  · obtain ⟨r, pk, -, -, -, hl⟩ := h.in_flight hx
    simp [hl]

theorem mem_uidsFor_of_ringUids (h : FifoInv B v) {a : RimeAddr} {u : Nat}
    (hu : u ∈ v.store.ringUids B a) : u ∈ uidsFor v.store.accepted a := by
  obtain ⟨D, hD, -⟩ := h.fifo a
  rw [hD]
  exact List.mem_append_right _ hu

/-! ### What each kind of transition keeps -/

/-- A transition outside `CELL_TX` that keeps the rings and both logs. -/
theorem idle (h : FifoInv B v) {v' : FifoView} (hv : v.inTx = false) (hv' : v'.inTx = false)
    (hs : Store.SameRings v.store v'.store) (ht : v'.txLog = v.txLog)
    (ha : v'.attempts = v.attempts) : FifoInv B v' := by
  have hhist : v'.hist = v.hist := funext fun u => by simp only [FifoView.hist, ha]
  have htaken : v'.taken = v.taken := funext fun a => by simp only [FifoView.taken, ht, hs.accepted]
  have hflight : v'.inFlight = v.inFlight := by simp [FifoView.inFlight, hv, hv']
  refine ⟨hs.rings_ok h.rings, ?_, ?_, fun a L hL => ?_, fun a => ?_, ?_, ?_, fun h' => ?_⟩
  · rw [ha, hs.accepted]; exact h.attempted_lt
  · rw [ht, hs.accepted]; exact h.taken_lt
  · rw [hs.ringOf_eq] at hL; rw [hhist]; exact h.ring_pkts a L hL
  · rw [hhist, htaken, hs.accepted, hs.ringUids_eq]; exact h.fifo a
  · rw [ht, hhist, hflight]; exact h.count_taken
  · rw [hhist]; exact h.hist_le
  · rw [hv'] at h'; cases h'

/-- Taking the head `r` of a ring into `CELL_TX`: the uid joins the log and is in flight. -/
theorem begin (h : FifoInv B v) {v' : FifoView} (hv : v.inTx = false) (hv' : v'.inTx = true)
    (hs : Store.SameRings v.store v'.store) {r : SlotRef} {pk : TschPacket} (hp : v'.p = some r)
    (hr : v'.store.IsHead B r) (hpk : v'.store.slot r = some pk)
    (ht : v'.txLog = v.txLog ++ [pk.uid]) (ha : v'.attempts = v.attempts) : FifoInv B v' := by
  obtain ⟨pk', L, hL, hpk'⟩ := hr.exists_ringOf (hs.rings_ok h.rings)
  cases hpk.symm.trans hpk'
  rw [hs.ringOf_eq] at hL
  have hhist : v'.hist = v.hist := funext fun u => by simp only [FifoView.hist, ha]
  have hR : v.store.ringUids B r.addr = pk.uid :: L.map TschPacket.uid := by
    simp [Store.ringUids, hL]
  have huR : pk.uid ∈ v.store.ringUids B r.addr := by rw [hR]; exact List.mem_cons_self _ _
  have hacc : v.store.accepted[pk.uid]? = some r.addr := mem_uidsFor.1 (h.mem_uidsFor_of_ringUids huR)
  have hnf := h.mem_ringUids huR
  refine ⟨hs.rings_ok h.rings, ?_, ?_, fun a L' hL' => ?_, fun a => ?_, fun u => ?_, ?_, fun _ => ?_⟩
  · rw [ha, hs.accepted]; exact h.attempted_lt
  · rw [ht, hs.accepted]
    intro u hu
    rcases List.mem_append.1 hu with hu | hu
    · exact h.taken_lt u hu
    · rw [List.mem_singleton.1 hu]; exact (List.getElem?_eq_some_iff.1 hacc).1
  · rw [hs.ringOf_eq] at hL'; rw [hhist]; exact h.ring_pkts a L' hL'
  · obtain ⟨D, hD, hfin, hT⟩ := h.fifo a
    simp only [FifoView.taken] at hT
    refine ⟨D, by rw [hs.accepted, hs.ringUids_eq]; exact hD, by rw [hhist]; exact hfin, ?_⟩
    simp only [FifoView.taken, ht, hs.accepted, takenFor_snoc, hs.ringUids_eq]
    by_cases hra : v.store.accepted[pk.uid]? = some a
    · rw [hacc, Option.some.injEq] at hra
      subst hra
      rw [if_pos hacc, destutter_ne_append_singleton]
      rcases hT with hT | ⟨x, t, hxt, hT⟩
      · rw [if_neg, hT]
        · exact .inr ⟨_, _, hR, rfl⟩
        · rw [← getLast?_destutter_ne, hT]
          intro hD'
          have := hfin _ (List.mem_of_getLast?_eq_some hD')
          rw [hnf] at this; cases this
      · rw [hR] at hxt
        obtain ⟨rfl, rfl⟩ := List.cons.inj hxt
        rw [if_pos (by rw [← getLast?_destutter_ne, hT, List.getLast?_concat])]
        exact .inr ⟨_, _, hR, hT⟩
    · rw [if_neg hra, List.append_nil]
      exact hT
  · have hc := h.count_taken u
    simp only [FifoView.inFlight, hv, hv', if_true, if_false, ht, List.getLast?_concat,
      List.count_append, List.count_singleton, hhist] at hc ⊢
    by_cases hu : pk.uid = u <;> simp [hu] at hc ⊢ <;> omega
  · rw [hhist]; exact h.hist_le
  · exact ⟨r, pk, hp, hr, hpk, by rw [ht]; exact List.getLast?_concat _⟩

theorem receiver_of_isHead (h : FifoInv B v) {r : SlotRef} (hr : v.store.IsHead B r)
    (pk : TschPacket) (b : QueueBuf) (hpk : v.store.slot r = some pk) (hb : pk.pkt = some b) :
    b.receiver = r.addr := by
  obtain ⟨pk', L, hL, hpk'⟩ := hr.exists_ringOf h.rings
  cases hpk.symm.trans hpk'
  exact (h.ring_pkts r.addr _ hL pk (List.mem_cons_self _ _)).2.2 b hb

/-- The outcome of the attempt on the packet in flight: its status joins the attempts, and
the packet stays at the head of its ring, or leaves it when it is finished. -/
theorem outcome (h : FifoInv B v) {v' : FifoView} (hv : v.inTx = true) (hv' : v'.inTx = false)
    {r : SlotRef} (hp : v.p = some r) {pk : TschPacket} (hpk : v.store.slot r = some pk)
    {n c : RimeAddr} {bo : Bool} {success random : Nat} {s₁ : Store} {ret : MacStatus}
    (ho : v.store.attemptOutcome B r n c bo success random = some (s₁, ret))
    (hs : v'.store = s₁.updateSlot r fun q => { q with ret })
    (ht : v'.txLog = v.txLog) (ha : v'.attempts = v.attempts ++ [(pk.uid, ret)]) :
    FifoInv B v' := by
  obtain ⟨r', pk', hp', hr, hpk', hlast⟩ := h.in_flight hv
  cases hp.symm.trans hp'
  cases hpk.symm.trans hpk'
  obtain ⟨pk₀, L, hL, hpk₀, hok, hacc, hother, hcases, -⟩ :=
    Store.txOutcome_rings h.rings hr (h.receiver_of_isHead hr) ho rfl
  cases hpk.symm.trans hpk₀
  rw [← hs] at hok hacc hother hcases
  obtain ⟨htrans, hnf, hrecv⟩ := h.ring_pkts r.addr _ hL pk (List.mem_cons_self _ _)
  have hR : v.store.ringUids B r.addr = pk.uid :: L.map TschPacket.uid := by
    simp [Store.ringUids, hL]
  have huR : pk.uid ∈ v.store.ringUids B r.addr := by rw [hR]; exact List.mem_cons_self _ _
  have hu : v.store.accepted[pk.uid]? = some r.addr := mem_uidsFor.1 (h.mem_uidsFor_of_ringUids huR)
  have hhist : ∀ w, v'.hist w = v.hist w ++ if pk.uid = w then [ret] else [] := fun w => by
    simp only [FifoView.hist, ha, history_snoc]
  have hkeep : ∀ w, w ≠ pk.uid → v'.hist w = v.hist w := fun w hw => by
    rw [hhist, if_neg (Ne.symm hw), List.append_nil]
  have hlen := length_lt_of_not_finished hnf
  have h8 : uint8 (pk.transmissions + 1) = (v.hist pk.uid).length + 1 := by
    rw [htrans]
    exact uint8_of_lt (by unfold macMaxFrameRetries at hlen; omega)
  -- an unfinished packet other than the one in flight keeps its attempts
  have hother_uid : ∀ {a w}, w ∈ v.store.ringUids B a → a ≠ r.addr → w ≠ pk.uid := fun hw ha' he => by
    have := mem_uidsFor.1 (h.mem_uidsFor_of_ringUids hw)
    rw [he, hu] at this
    exact ha' (Option.some.inj this).symm
  have hnodup : (pk.uid :: L.map TschPacket.uid).Nodup := by
    obtain ⟨D, hD, -⟩ := h.fifo r.addr
    rw [← hR]
    exact (nodup_uidsFor _ _).sublist (hD ▸ List.sublist_append_right _ _)
  have htail : ∀ pk' ∈ L, pk'.uid ≠ pk.uid := fun pk' hpk' he =>
    (List.nodup_cons.1 hnodup).1 (he ▸ List.mem_map_of_mem _ hpk')
  have hflight : v.inFlight = some pk.uid := by simp [FifoView.inFlight, hv, hlast]
  refine ⟨hok, ?_, ?_, fun a L' hL' => ?_, fun a => ?_, fun w => ?_, fun w => ?_, fun h' => ?_⟩
  · rw [ha, hacc]
    intro x hx
    rcases List.mem_append.1 hx with hx | hx
    · exact h.attempted_lt x hx
    · rw [List.mem_singleton.1 hx]; exact (List.getElem?_eq_some_iff.1 hu).1
  · rw [ht, hacc]; exact h.taken_lt
  · have old : ∀ pk' ∈ L, pk'.transmissions = (v'.hist pk'.uid).length ∧
        finished (v'.hist pk'.uid) = false ∧ ∀ b, pk'.pkt = some b → b.receiver = r.addr :=
      fun pk' hpk' => by
        rw [hkeep _ (htail pk' hpk')]
        exact h.ring_pkts r.addr _ hL pk' (List.mem_cons_of_mem _ hpk')
    by_cases ha' : a = r.addr
    · subst ha'
      rcases hcases with ⟨hret, hmax, hring⟩ | ⟨-, hring⟩ <;> rw [hring] at hL' <;> cases hL'
      · intro pk' hpk'
        rcases List.mem_cons.1 hpk' with rfl | hpk'
        · rw [h8] at hmax
          refine ⟨by simp [hhist, h8], Bool.eq_false_iff.2 fun hc => ?_, hrecv⟩
          rw [hhist, if_pos rfl] at hc
          exact ((finished_snoc hnf ret).1 hc).elim hret hmax
        · exact old pk' hpk'
      · exact old
    · rw [hother a ha'] at hL'
      intro pk' hpk'
      have hw : pk'.uid ∈ v.store.ringUids B a := by
        rw [Store.ringUids, hL', Option.getD_some]
        exact List.mem_map_of_mem _ hpk'
      rw [hkeep _ (hother_uid hw ha')]
      exact h.ring_pkts a L' hL' pk' hpk'
  · obtain ⟨D, hD, hfin, hT⟩ := h.fifo a
    have hDu : ∀ w ∈ D, w ≠ pk.uid := fun w hw he => by
      have := hfin w hw
      rw [he, hnf] at this
      cases this
    have hfinD : ∀ w ∈ D, finished (v'.hist w) = true := fun w hw => by
      rw [hkeep w (hDu w hw)]; exact hfin w hw
    have htaken : v'.taken a = v.taken a := by simp only [FifoView.taken, ht, hacc]
    rw [htaken, hacc]
    by_cases ha' : a = r.addr
    · subst ha'
      rcases hcases with ⟨-, -, hring⟩ | ⟨hdone, hring⟩
      · have hR' : v'.store.ringUids B r.addr = v.store.ringUids B r.addr := by
          rw [hR]
          simp [Store.ringUids, hring]
        exact ⟨D, hR' ▸ hD, hfinD, hR' ▸ hT⟩
      · have hR' : v'.store.ringUids B r.addr = L.map TschPacket.uid := by
          simp [Store.ringUids, hring]
        refine ⟨D ++ [pk.uid], by rw [hD, hR, hR']; simp, fun w hw => ?_, .inl ?_⟩
        · rcases List.mem_append.1 hw with hw | hw
          · exact hfinD w hw
          · rw [List.mem_singleton.1 hw, hhist, if_pos rfl]
            exact (finished_snoc hnf ret).2 (h8 ▸ hdone)
        · have hlast' : ((v.taken r.addr).destutter (· ≠ ·)).getLast? = some pk.uid := by
            rw [getLast?_destutter_ne]
            exact getLast?_filter_of_getLast? hlast (by simp [hu])
          rcases hT with hT | ⟨x, t, hxt, hT⟩
          · rw [hT] at hlast'
            exact absurd rfl (hDu _ (List.mem_of_getLast?_eq_some hlast'))
          · rw [hR] at hxt
            obtain ⟨rfl, -⟩ := List.cons.inj hxt
            exact hT
    · have hR' : v'.store.ringUids B a = v.store.ringUids B a := by
        simp only [Store.ringUids, hother a ha']
      exact ⟨D, hR' ▸ hD, hfinD, hR' ▸ hT⟩
  · have hc := h.count_taken w
    rw [hflight] at hc
    simp only [FifoView.inFlight, hv', ht, hhist, List.length_append, Bool.false_eq_true,
      if_false] at hc ⊢
    by_cases hw : pk.uid = w <;> simp [hw] at hc ⊢ <;> omega
  · by_cases hw : w = pk.uid
    · subst hw
      rw [hhist, if_pos rfl, List.length_append, List.length_singleton]
      exact hlen
    · rw [hkeep w hw]; exact h.hist_le w
  · rw [hv'] at h'; cases h'

/-- `send_one_packet`: an accepted packet joins the end of its receiver's ring, with the next
uid, unfinished and never taken; otherwise no ring changes. -/
theorem enqueue (h : FifoInv B v) {v' : FifoView} {k : Nat}
    {framer : Packetbuf → Option (List UInt8)} {sent ptr : Nat} {pb : Packetbuf} {alloc : Option Nat}
    (hs : (v.store.sendOnePacket B k framer sent ptr pb alloc).2 = v'.store)
    (hp : v'.p = v.p) (htx : v'.inTx = v.inTx) (ht : v'.txLog = v.txLog)
    (ha : v'.attempts = v.attempts) : FifoInv B v' := by
  obtain ⟨hok, hhead, hother, hcases⟩ :=
    Store.sendOnePacket_rings h.rings k framer sent ptr pb alloc hs
  have hhist : v'.hist = v.hist := funext fun u => by simp only [FifoView.hist, ha]
  have hflight : v'.inFlight = v.inFlight := by simp only [FifoView.inFlight, htx, ht]
  have hin : v'.inTx = true → ∃ r pk, v'.p = some r ∧ v'.store.IsHead B r ∧
      v'.store.slot r = some pk ∧ v'.txLog.getLast? = some pk.uid := fun hv => by
    obtain ⟨r, pk, hp', hr, hpk, hl⟩ := h.in_flight (htx ▸ hv)
    exact ⟨r, pk, hp ▸ hp', (hhead r hr).1, (hhead r hr).2.trans hpk, ht ▸ hl⟩
  rcases hcases with ⟨hacc, hring⟩ | ⟨hacc, pkt, hpkt, hring⟩
  · have hR : ∀ a, v'.store.ringUids B a = v.store.ringUids B a := fun a => by
      by_cases ha' : a = pb.receiver
      · subst ha'
        rcases hring with hring | ⟨h0, h1⟩
        · simp only [Store.ringUids, hring]
        · simp [Store.ringUids, h0, h1]
      · simp only [Store.ringUids, hother a ha']
    have htaken : v'.taken = v.taken := funext fun a => by
      simp only [FifoView.taken, ht, hacc]
    refine ⟨hok, by rw [ha, hacc]; exact h.attempted_lt, by rw [ht, hacc]; exact h.taken_lt,
      fun a L hL => ?_, fun a => ?_, by rw [ht, hhist, hflight]; exact h.count_taken,
      by rw [hhist]; exact h.hist_le, hin⟩
    · rw [hhist]
      by_cases ha' : a = pb.receiver
      · subst ha'
        rcases hring with hring | ⟨-, h1⟩
        · rw [hring] at hL; exact h.ring_pkts _ L hL
        · cases h1.symm.trans hL
          exact fun pk hpk => absurd hpk (List.not_mem_nil pk)
      · rw [hother a ha'] at hL; exact h.ring_pkts a L hL
    · rw [hR, hhist, htaken, hacc]
      exact h.fifo a
  · have hnew : v.hist v.store.accepted.length = [] :=
      history_eq_nil fun x hx he => by have := h.attempted_lt x hx; omega
    have hlt : ∀ {u}, u < v.store.accepted.length → u < v'.store.accepted.length := fun hu => by
      rw [hacc, List.length_append]; omega
    have htaken : v'.taken = v.taken := funext fun a => by
      simp only [FifoView.taken, ht, hacc, takenFor_append_acc h.taken_lt]
    refine ⟨hok, fun x hx => hlt (h.attempted_lt x (ha ▸ hx)), fun u hu => hlt (h.taken_lt u (ht ▸ hu)),
      fun a L hL => ?_, fun a => ?_, by rw [ht, hhist, hflight]; exact h.count_taken,
      by rw [hhist]; exact h.hist_le, hin⟩
    · rw [hhist]
      by_cases ha' : a = pb.receiver
      · subst ha'
        cases hring.symm.trans hL
        intro pk hpk
        rcases List.mem_append.1 hpk with hpk | hpk
        · cases hL₀ : v.store.ringOf B pb.receiver with
          | none => rw [hL₀] at hpk; cases hpk
          | some L₀ =>
              rw [hL₀, Option.getD_some] at hpk
              exact h.ring_pkts _ L₀ hL₀ pk hpk
        · rw [List.mem_singleton.1 hpk]
          exact ⟨by simp [NeighborQueue.newPacket, hnew],
            by simp [NeighborQueue.newPacket, hnew, finished, macMaxFrameRetries], hpkt⟩
      · rw [hother a ha'] at hL; exact h.ring_pkts a L hL
    · obtain ⟨D, hD, hfin, hT⟩ := h.fifo a
      rw [htaken, hhist, hacc, uidsFor_append]
      by_cases ha' : pb.receiver = a
      · subst ha'
        have hR : v'.store.ringUids B pb.receiver =
            v.store.ringUids B pb.receiver ++ [v.store.accepted.length] := by
          simp [Store.ringUids, hring, NeighborQueue.newPacket]
        refine ⟨D, by rw [if_pos rfl, hD, hR, List.append_assoc], hfin, ?_⟩
        rw [hR]
        rcases hT with hT | ⟨x, t, hxt, hT⟩
        · exact .inl hT
        · exact .inr ⟨x, t ++ [_], by rw [hxt]; rfl, hT⟩
      · rw [if_neg ha', List.append_nil]
        simp only [Store.ringUids, hother a (Ne.symm ha')]
        exact ⟨D, hD, hfin, hT⟩

/-- `send_one_packet` only appends to the accepted log. -/
theorem enqueue_accepted (h : FifoInv B v) (k : Nat) (framer : Packetbuf → Option (List UInt8))
    (sent ptr : Nat) (pb : Packetbuf) (alloc : Option Nat) :
    v.store.accepted <+: (v.store.sendOnePacket B k framer sent ptr pb alloc).2.accepted := by
  rcases (Store.sendOnePacket_rings h.rings k framer sent ptr pb alloc rfl).2.2.2 with
    ⟨hacc, -⟩ | ⟨hacc, -⟩
  · exact hacc ▸ List.prefix_refl _
  · exact hacc ▸ List.prefix_append _ _

/-- `send_list` is a sequence of `send_one_packet`s, cut at the first that fails. -/
theorem enqueueList (h : FifoInv B v) (k : Nat) (framer : Packetbuf → Option (List UInt8))
    (sent ptr : Nat) (bufs : List (Packetbuf × Option Nat)) :
    FifoInv B { v with store := v.store.sendList B k framer sent ptr bufs } ∧
      v.store.accepted <+: (v.store.sendList B k framer sent ptr bufs).accepted := by
  induction bufs generalizing v with
  | nil => exact ⟨h, List.prefix_refl _⟩
  | cons x rest ih =>
      have h₁ : FifoInv B { v with store := (v.store.sendOnePacket B k framer sent ptr x.1 x.2).2 } :=
        h.enqueue rfl rfl rfl rfl rfl
      have hacc₁ := h.enqueue_accepted k framer sent ptr x.1 x.2
      rw [Store.sendList]
      split_ifs
      · obtain ⟨h₂, hacc₂⟩ := ih h₁
        exact ⟨h₂, hacc₁.trans hacc₂⟩
      · exact ⟨h₁, hacc₁⟩

/-- Between two states that keep the invariant, a packet leaves its ring only by the status
just logged for it, the last packet taken, and that status finishes it. -/
theorem leaves (h : FifoInv B v) {v' : FifoView} (h' : FifoInv B v')
    (hacc : v.store.accepted <+: v'.store.accepted)
    (hatt : v'.attempts = v.attempts ∨
      ∃ w st, v.txLog.getLast? = some w ∧ v'.attempts = v.attempts ++ [(w, st)])
    {a : RimeAddr} {u : Nat} (hu : u ∈ v.store.ringUids B a) (hu' : u ∉ v'.store.ringUids B a) :
    v.txLog.getLast? = some u ∧ ∃ st, v'.attempts = v.attempts ++ [(u, st)] ∧
      (st = .txOk ∨ (v'.hist u).length = macMaxFrameRetries) := by
  have hnf := h.mem_ringUids hu
  have hfin : finished (v'.hist u) = true := by
    have hm := mem_uidsFor_of_prefix hacc (h.mem_uidsFor_of_ringUids hu)
    rw [h'.ringUids_eq, List.mem_filter] at hu'
    simpa [hm] using hu'
  rcases hatt with hatt | ⟨w, st, hw, hatt⟩
  · have : v'.hist u = v.hist u := by simp only [FifoView.hist, hatt]
    rw [this, hnf] at hfin
    cases hfin
  · have hsnoc : v'.hist u = v.hist u ++ if w = u then [st] else [] := by
      simp only [FifoView.hist, hatt, history_snoc]
    by_cases hwu : w = u
    · subst hwu
      rw [if_pos rfl] at hsnoc
      rw [hsnoc] at hfin
      refine ⟨hw, st, hatt, ((finished_snoc hnf st).1 hfin).imp id fun h1 => ?_⟩
      rw [hsnoc, List.length_append, List.length_singleton, h1]
    · rw [if_neg hwu, List.append_nil] at hsnoc
      rw [hsnoc, hnf] at hfin
      cases hfin

end FifoInv

/-- Right after `init` no packet has been accepted, taken or attempted. -/
theorem fifoInv_init (cfg : Config) (now : Nat) : FifoInv cfg.B (Mac.init cfg now).fifoView := by
  obtain ⟨hok, hacc, hempty⟩ := @Mac.init_rings cfg now
  have hR : ∀ a, (Mac.init cfg now).store.ringUids cfg.B a = [] := fun a => by
    unfold Store.ringUids
    cases hL : (Mac.init cfg now).store.ringOf cfg.B a with
    | none => rfl
    | some L => rw [hempty a L hL]; rfl
  refine ⟨hok, fun x hx => absurd hx (List.not_mem_nil x), fun u hu => absurd hu (List.not_mem_nil u),
    fun a L hL pk hpk => ?_, fun a => ⟨[], ?_, fun w hw => absurd hw (List.not_mem_nil w), .inl rfl⟩,
    fun u => rfl, fun u => Nat.zero_le _, fun h => Bool.noConfusion h⟩
  · rw [hempty a L hL] at hpk
    cases hpk
  · show uidsFor (Mac.init cfg now).store.accepted a = [] ++ (Mac.init cfg now).store.ringUids cfg.B a
    rw [hacc, hR]
    rfl


namespace Mac

open Store

variable {cfg : Config}

theorem fifoView_of_slotView {m m' : Mac} (hv : m'.slotView = m.slotView)
    (hpc : m'.pc.isTx = m.pc.isTx) : m'.fifoView = m.fifoView := by
  have hs : m'.store = m.store := congrArg SlotView.store hv
  have hp : m'.p = m.p := congrArg SlotView.p hv
  have ht : m'.txLog = m.txLog := congrArg SlotView.txLog hv
  have ha : m'.attempts = m.attempts := congrArg SlotView.attempts hv
  simp only [fifoView, hs, hp, hpc, ht, ha]

/-- The top of the loop stays outside `CELL_TX` with the rings and the logs as they were, or
takes the head of a ring into `CELL_TX`. -/
theorem loopHead_fifoInv {m : Mac} {x : Resumed} (h : FifoInv cfg.B m.fifoView)
    (hpc : m.pc.isTx = false) (hx : loopHead cfg m = some x) :
    FifoInv cfg.B x.mac.fifoView ∧ x.mac.attempts = m.attempts ∧
      x.mac.store.accepted = m.store.accepted ∧
      (∀ m₁, x = .slotDone m₁ → m₁.pc.isTx = false) ∧ ∀ m₁ s, x ≠ .txDone m₁ s := by
  rcases loopHead_cases hx with rfl | rfl | ⟨cell, -, hs⟩
  · exact ⟨h.idle hpc rfl (.refl _) rfl rfl, rfl, rfl, fun _ h => (by cases h), fun _ _ h => (by cases h)⟩
  · refine ⟨h.idle hpc hpc (.refl _) rfl rfl, rfl, rfl, fun _ h => ?_, fun _ _ h => (by cases h)⟩
    cases h
    exact hpc
  · have hsame := @slotSetup_sameRings cfg { m with cell := some cell } cell
    rcases slotStartOn_cases hs with ⟨m', hm', rfl⟩ | rfl | rfl
    · obtain ⟨p, pk, b, hp, hpk, -, rfl⟩ := txBegin_spec hm'
      exact ⟨h.begin hpc rfl hsame hp (slotSetup_isHead h.rings cell hp) hpk rfl rfl, rfl,
        hsame.accepted, fun _ h => (by cases h), fun _ _ h => (by cases h)⟩
    · exact ⟨h.idle hpc rfl hsame rfl rfl, rfl, hsame.accepted, fun _ h => (by cases h),
        fun _ _ h => (by cases h)⟩
    · refine ⟨h.idle hpc hpc hsame rfl rfl, rfl, hsame.accepted, fun _ h => ?_,
        fun _ _ h => (by cases h)⟩
      cases h
      exact hpc

/-- A resume keeps the invariant and the logs; a `CELL_TX` slot ends with the state it
resumed from, and any other slot ends outside `CELL_TX`. -/
theorem resume_fifoInv {m : Mac} {r : Radio} {x : Resumed} (h : FifoInv cfg.B m.fifoView)
    (hx : resume cfg m r = some x) :
    FifoInv cfg.B x.mac.fifoView ∧ x.mac.attempts = m.attempts ∧
      x.mac.store.accepted = m.store.accepted ∧
      (∀ m₁, x = .slotDone m₁ → m₁.pc.isTx = false) ∧
      ∀ m₁ s, x = .txDone m₁ s → m₁.fifoView = m.fifoView ∧ m.pc.isTx = true := by
  unfold resume at hx
  split at hx
  · rename_i hpc
    dsimp only at hx
    obtain ⟨h₁, h₂, h₃, h₄, h₅⟩ := loopHead_fifoInv (m := { m with
      start := r.beginNow % 2 ^ cfg.plat.clockBits, start0 := r.beginNow % 2 ^ cfg.plat.clockBits,
      asn0 := m.asn, corrSum := 0 }) h (show m.pc.isTx = false by rw [hpc]; rfl) hx
    exact ⟨h₁, h₂, h₃, h₄, fun m₁ s he => absurd he (h₅ m₁ s)⟩
  · rename_i hpc
    obtain ⟨h₁, h₂, h₃, h₄, h₅⟩ := loopHead_fifoInv h (by rw [hpc]; rfl) hx
    exact ⟨h₁, h₂, h₃, h₄, fun m₁ s he => absurd he (h₅ m₁ s)⟩
  · rename_i w hpc
    obtain ⟨hv, -, hcases⟩ := txResume_spec hx
    have hpc' : x.mac.pc.isTx = m.pc.isTx := by
      rcases hcases with ⟨w', -, hw'⟩ | ⟨s, -, hs⟩
      · rw [hw', hpc]; rfl
      · rw [hs]
    have hview := fifoView_of_slotView hv hpc'
    refine ⟨by rw [hview]; exact h, congrArg SlotView.attempts hv,
      congrArg (·.store.accepted) hv, fun m₁ he => ?_, fun m₁ s he => ?_⟩
    · rcases hcases with ⟨w', hy, -⟩ | ⟨s, hd, -⟩
      · rw [he] at hy; cases hy
      · rw [he] at hd; cases hd
    · rw [he] at hview
      exact ⟨hview, by rw [hpc]; rfl⟩
  · rename_i w hpc
    obtain ⟨hv, hcases⟩ := rxResume_spec hx
    have hpc' : x.mac.pc.isTx = m.pc.isTx := by
      rcases hcases with ⟨w', -, hw'⟩ | ⟨-, hs⟩
      · rw [hw', hpc]; rfl
      · rw [hs]
    have hview := fifoView_of_slotView hv hpc'
    refine ⟨by rw [hview]; exact h, congrArg SlotView.attempts hv,
      congrArg (·.store.accepted) hv, fun m₁ he => ?_, fun m₁ s he => ?_⟩
    · rcases hcases with ⟨w', hy, -⟩ | ⟨hd, hpcd⟩
      · rw [he] at hy; cases hy
      · rw [he] at hpcd
        change m₁.pc = m.pc at hpcd
        rw [hpcd, hpc]; rfl
    · rcases hcases with ⟨w', hy, -⟩ | ⟨hd, -⟩
      · rw [he] at hy; cases hy
      · rw [he] at hd; cases hd

/-- The end of a slot outside `CELL_TX` changes nothing the invariant reads. -/
theorem fifoView_endOfSlot {m : Mac} (hpc : m.pc.isTx = false) (now : Nat) :
    (endOfSlot cfg m now).fifoView = m.fifoView := by
  simp only [fifoView, endOfSlot_store, endOfSlot_p, endOfSlot_txLog, endOfSlot_attempts,
    endOfSlot_pc, hpc]
  rfl

/-- One call of `powercycle` keeps the invariant and the accepted log, and adds at most the
status of the last packet taken. -/
theorem powercycle_fifoInv {m m' : Mac} {r : Radio} (h : FifoInv cfg.B m.fifoView)
    (hm : powercycle cfg m r = some m') :
    FifoInv cfg.B m'.fifoView ∧ m'.store.accepted = m.store.accepted ∧
      (m'.attempts = m.attempts ∨
        ∃ u st, m.txLog.getLast? = some u ∧ m'.attempts = m.attempts ++ [(u, st)]) := by
  rcases powercycle_cases hm with hx | ⟨m₁, success, m₂, hx, ho, rfl⟩ | ⟨m₁, hx, rfl⟩
  · obtain ⟨h₁, h₂, h₃, -⟩ := resume_fifoInv h hx
    exact ⟨h₁, h₃, .inl h₂⟩
  · obtain ⟨hview, htx⟩ := (resume_fifoInv h hx).2.2.2.2 m₁ success rfl
    obtain ⟨p, n, cell, pk, s, ret, hp, -, -, hpk, hout, rfl⟩ := txOutcome_spec ho
    have h₁ : FifoInv cfg.B m₁.fifoView := hview ▸ h
    have hv : m₁.fifoView.inTx = true := by rw [hview]; exact htx
    have ht : m₁.txLog = m.txLog := congrArg FifoView.txLog hview
    have ha : m₁.attempts = m.attempts := congrArg FifoView.attempts hview
    obtain ⟨r', pk', hp', -, hpk', hlast⟩ := h₁.in_flight hv
    cases Option.some.inj (hp.symm.trans hp')
    cases Option.some.inj (hpk.symm.trans hpk')
    refine ⟨h₁.outcome hv rfl hp hpk hout (endOfSlot_store cfg _ _) (endOfSlot_txLog cfg _ _)
      (endOfSlot_attempts cfg _ _), ?_, .inr ⟨pk.uid, ret, ?_, ?_⟩⟩
    · rw [endOfSlot_store]
      exact (attemptOutcome_accepted hout).trans (congrArg (·.store.accepted) hview)
    · rw [← ht]; exact hlast
    · rw [endOfSlot_attempts, ← ha]
  · obtain ⟨h₁, h₂, h₃, h₄, -⟩ := resume_fifoInv h hx
    have hpc := h₄ m₁ rfl
    refine ⟨by rw [fifoView_endOfSlot hpc]; exact h₁, ?_, .inl ?_⟩
    · rw [endOfSlot_store]; exact h₃
    · rw [endOfSlot_attempts]; exact h₂

/-- Every event keeps the invariant, only appends to the accepted log, and adds at most the
status of the last packet taken. -/
theorem step_fifoInv {m m' : Mac} {e : Event} (h : FifoInv cfg.B m.fifoView)
    (hm : step cfg m e = some m') :
    FifoInv cfg.B m'.fifoView ∧ m.store.accepted <+: m'.store.accepted ∧
      (m'.attempts = m.attempts ∨
        ∃ u st, m.txLog.getLast? = some u ∧ m'.attempts = m.attempts ++ [(u, st)]) := by
  cases e with
  | sendPacket sent ptr pb alloc =>
      cases hm
      exact ⟨h.enqueue rfl rfl rfl rfl rfl,
        h.enqueue_accepted cfg.maxNeighbors cfg.framer sent ptr pb alloc, .inl rfl⟩
  | sendList sent ptr bufs =>
      cases hm
      obtain ⟨h₁, h₂⟩ := h.enqueueList cfg.maxNeighbors cfg.framer sent ptr bufs
      exact ⟨h₁, h₂, .inl rfl⟩
  | dispatch =>
      obtain ⟨-, -, -, -, -, rfl⟩ := tschTxCallback_spec hm
      exact ⟨h, List.prefix_refl _, .inl rfl⟩
  | powercycle r =>
      obtain ⟨h₁, h₂, h₃⟩ := powercycle_fifoInv h hm
      exact ⟨h₁, h₂ ▸ List.prefix_refl _, h₃⟩
  | softAck =>
      cases hm
      exact ⟨h, List.prefix_refl _, .inl rfl⟩
  | interruptExit =>
      cases hm
      exact ⟨h, List.prefix_refl _, .inl rfl⟩

theorem reachable_fifoInv {m : Mac} (hm : Reachable cfg m) : FifoInv cfg.B m.fifoView := by
  induction hm with
  | init now => exact fifoInv_init cfg now
  | step e _ hs ih => exact (step_fifoInv ih hs).1

variable (cfg) in
/-- The FIFO and retry discipline of the rings, over every run.  For every address `a`: the
packets for `a` taken into `CELL_TX`, repetitions collapsed, are a prefix of those accepted
for `a`; no packet is taken more than `macMaxFrameRetries` times; `a`'s ring holds exactly
the packets accepted for `a` that are not finished; and a packet leaves a ring only at the
outcome of an attempt on it, the last packet taken, that succeeds or is its
`macMaxFrameRetries`-th. -/
theorem fifo_retry_discipline {m : Mac} (hm : Reachable cfg m) (a : RimeAddr) :
    (takenFor m.store.accepted m.txLog a).destutter (· ≠ ·) <+: uidsFor m.store.accepted a ∧
      (∀ u, m.txLog.count u ≤ macMaxFrameRetries) ∧
      m.store.ringUids cfg.B a =
        (uidsFor m.store.accepted a).filter (fun u => !finished (history m.attempts u)) ∧
      ∀ e m', step cfg m e = some m' → ∀ u ∈ m.store.ringUids cfg.B a,
        u ∉ m'.store.ringUids cfg.B a →
        m.txLog.getLast? = some u ∧ ∃ st, m'.attempts = m.attempts ++ [(u, st)] ∧
          (st = .txOk ∨ (history m'.attempts u).length = macMaxFrameRetries) := by
  have h := reachable_fifoInv hm
  refine ⟨h.destutter_taken_prefix a, h.count_le, h.ringUids_eq a, fun e m' hs u hu hu' => ?_⟩
  obtain ⟨h', hacc, hatt⟩ := step_fifoInv h hs
  exact h.leaves h' hacc hatt hu hu'

/-- After `noackTrace` the packet for `cellAddress1` has been taken once and has failed
once; it is still in its ring, for a retry. -/
theorem fifo_retry_discipline_after_noack :
    (run shipped (init shipped 0) noackTrace).map
        (fun m => (m.txLog, m.attempts, m.store.ringUids shipped.B cellAddress1)) =
      some ([0], [(0, .txNoack)], [0]) ∧
    ∀ m, run shipped (init shipped 0) noackTrace = some m →
      (takenFor m.store.accepted m.txLog cellAddress1).destutter (· ≠ ·) <+:
          uidsFor m.store.accepted cellAddress1 ∧
        (∀ u, m.txLog.count u ≤ macMaxFrameRetries) ∧
        m.store.ringUids shipped.B cellAddress1 =
          (uidsFor m.store.accepted cellAddress1).filter
            (fun u => !finished (history m.attempts u)) ∧
        ∀ e m', step shipped m e = some m' →
          ∀ u ∈ m.store.ringUids shipped.B cellAddress1,
          u ∉ m'.store.ringUids shipped.B cellAddress1 →
          m.txLog.getLast? = some u ∧ ∃ st, m'.attempts = m.attempts ++ [(u, st)] ∧
            (st = .txOk ∨ (history m'.attempts u).length = macMaxFrameRetries) :=
  ⟨by decide, fun _ hm =>
    fifo_retry_discipline shipped (reachable_of_run shipped (.init 0) hm) cellAddress1⟩

end Mac

end Tsch
