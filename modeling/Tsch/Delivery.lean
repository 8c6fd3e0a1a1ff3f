import Tsch.Fifo
import Tsch.Timing

/-!
# Sent callbacks

At the end of every `CELL_TX` slot the outcome handler writes the attempt's status into the
slot `p` of the packet it attempted and posts `p` to `tsch_tx_callback_process` (lines
869-871), whatever the outcome.  Each activation of that process calls
`mac_call_sent_callback` with what the posted slot holds when it runs (lines 1152-1170).

**Results.**
* `step_pollStep`: the call that ends a `CELL_TX` slot posts exactly one poll, for the
  attempted slot; a dispatch consumes the oldest poll; no other event posts one.
* `sent_callback_per_attempt`: over every run, the callback reports attempts, not packets.
* `noack_reported_while_queued`: a failed attempt that leaves its packet queued for a retry
  is reported to the upper layer.
* `ack_first_attempt_reports_zero_transmissions`: a packet acknowledged on its first attempt
  is reported with 0 transmissions.
-/

namespace Tsch

namespace Mac

open Store

variable {cfg : Config}

/-- The failed attempts of an unfinished packet after one more attempt: one more, unless it
succeeded.  This is `p->transmissions` after the outcome handler. -/
theorem failures_snoc {h : List MacStatus} (hf : finished h = false) (st : MacStatus) :
    ((h ++ [st]).filter (· ≠ .txOk)).length =
      if st = .txOk then h.length else uint8 (h.length + 1) := by
  simp only [finished, decide_eq_false_iff_not, not_or] at hf
  have hh : h.filter (· ≠ .txOk) = h :=
    List.filter_eq_self.2 fun x hx => by simpa using ne_of_mem_of_not_mem hx hf.1
  have hlt : h.length + 1 < 256 := by simp only [macMaxFrameRetries] at hf; omega
  rw [List.filter_append, hh, List.length_append]
  by_cases hst : st = .txOk
  · simp [hst]
  · simp [hst, uint8, Nat.mod_eq_of_lt hlt]

/-- A resume leaves the polls, the callbacks and the attempts alone. -/
theorem loopHead_logs {m : Mac} {x : Resumed} (h : loopHead cfg m = some x) :
    x.mac.attempts = m.attempts ∧ x.mac.events = m.events ∧ x.mac.sentCalls = m.sentCalls := by
  rcases loopHead_cases h with rfl | rfl | ⟨cell, -, h⟩
  · exact ⟨rfl, rfl, rfl⟩
  · exact ⟨rfl, rfl, rfl⟩
  · rcases slotStartOn_cases h with ⟨m', hm', rfl⟩ | rfl | rfl
    · obtain ⟨p, pk, b, -, -, -, rfl⟩ := txBegin_spec hm'
      exact ⟨rfl, rfl, rfl⟩
    · exact ⟨rfl, rfl, rfl⟩
    · exact ⟨rfl, rfl, rfl⟩

theorem resume_logs {m : Mac} {r : Radio} {x : Resumed} (h : resume cfg m r = some x) :
    x.mac.attempts = m.attempts ∧ x.mac.events = m.events ∧ x.mac.sentCalls = m.sentCalls := by
  have ofSlotView : x.mac.slotView = m.slotView →
      x.mac.attempts = m.attempts ∧ x.mac.events = m.events ∧ x.mac.sentCalls = m.sentCalls :=
    fun hv => ⟨congrArg SlotView.attempts hv, congrArg SlotView.events hv,
      congrArg SlotView.sentCalls hv⟩
  unfold resume at h
  split at h
  · have hl := loopHead_logs h
    exact hl
  · exact loopHead_logs h
  · exact ofSlotView (txResume_spec h).1
  · exact ofSlotView (rxResume_spec h).1

/-- A call of `powercycle` resumes a `CELL_TX` slot only at its TX resume points, so the
end of any other slot is not a TX outcome. -/
theorem resume_slotDone_pc {m m₁ : Mac} {r : Radio} (h : resume cfg m r = some (.slotDone m₁)) :
    m.pc.isTx = false := by
  unfold resume at h
  split at h <;> rename_i hpc <;> simp only [hpc, Pc.isTx]
  rcases (txResume_spec h).2.2 with ⟨w', hx, -⟩ | ⟨s, hx, -⟩ <;> cases hx

/-- The call of `powercycle` that ends a running `CELL_TX` slot: its TX outcome. -/
def EndsTxSlot (m : Mac) (e : Event) (m' : Mac) : Prop :=
  EndsSlot e m' ∧ m.pc.isTx = true

/-- What one event does to the polls of `tsch_tx_callback_process`: the end of a `CELL_TX`
slot posts the slot `r` of the packet `pk` it attempted, a dispatch calls the sent callback
on the oldest poll, and no other event touches them. -/
def PollStep (m : Mac) (e : Event) (m' : Mac) : Prop :=
  (EndsTxSlot m e m' → ∃ r pk st, m.p = some r ∧ m.store.slot r = some pk ∧
      m.txLog.getLast? = some pk.uid ∧ m'.attempts = m.attempts ++ [(pk.uid, st)] ∧
      m'.events = m.events ++ [r] ∧ m'.sentCalls = m.sentCalls ∧
      m'.store.slot r = some { pk with
        ret := st, transmissions := ((history m'.attempts pk.uid).filter (· ≠ .txOk)).length }) ∧
    (e = .dispatch → ∃ r pk, m.events = r :: m'.events ∧ m.store.slot r = some pk ∧
      m'.attempts = m.attempts ∧
      m'.sentCalls = m.sentCalls ++ [⟨pk.sent, pk.ptr, pk.ret, pk.transmissions, pk.uid⟩]) ∧
    (¬EndsTxSlot m e m' → e ≠ .dispatch →
      m'.attempts = m.attempts ∧ m'.events = m.events ∧ m'.sentCalls = m.sentCalls)

theorem PollStep.of_quiet {m m' : Mac} {e : Event} (hE : ¬EndsTxSlot m e m')
    (hd : e ≠ .dispatch)
    (h : m'.attempts = m.attempts ∧ m'.events = m.events ∧ m'.sentCalls = m.sentCalls) :
    PollStep m e m' :=
  ⟨fun h' => absurd h' hE, fun h' => absurd h' hd, fun _ _ => h⟩

/-- The outcome of an attempt posts the attempted slot, which then holds the attempted
packet with the attempt's status and its failed attempts counted. -/
theorem outcome_pollStep {m m₁ m₂ : Mac} {r : Radio} {success : Nat}
    (h : FifoInv cfg.B m.fifoView) (hx : resume cfg m r = some (.txDone m₁ success))
    (ho : txOutcome cfg m₁ success r.random = some m₂) :
    PollStep m (.powercycle r) (endOfSlot cfg m₂ r.now) := by
  obtain ⟨hview, htx⟩ := (resume_fifoInv h hx).2.2.2.2 m₁ success rfl
  refine ⟨fun _ => ?_, fun hd => Event.noConfusion hd,
    fun hn => absurd ⟨⟨⟨r, rfl⟩, endOfSlot_pc cfg _ _⟩, htx⟩ hn⟩
  obtain ⟨ha, hev, hsc⟩ : m₁.attempts = m.attempts ∧ m₁.events = m.events ∧
      m₁.sentCalls = m.sentCalls := resume_logs hx
  obtain ⟨p, n, cell, pk, s, ret, hp, -, -, hpk, hout, rfl⟩ := txOutcome_spec ho
  have h₁ : FifoInv cfg.B m₁.fifoView := hview ▸ h
  obtain ⟨r', pk', hp', hr, hpk', hlast⟩ := h₁.in_flight (by rw [hview]; exact htx)
  cases Option.some.inj (hp.symm.trans hp')
  cases Option.some.inj (hpk.symm.trans hpk')
  obtain ⟨pk₀, L, hL, hpk₀, -, -, -, -, hslot⟩ :=
    txOutcome_rings h₁.rings hr (h₁.receiver_of_isHead hr) hout rfl
  cases Option.some.inj (hpk.symm.trans hpk₀)
  have htr : ((history (m₁.attempts ++ [(pk.uid, ret)]) pk.uid).filter (· ≠ .txOk)).length =
      if ret = .txOk then pk.transmissions else uint8 (pk.transmissions + 1) := by
    obtain ⟨ht, hf, -⟩ := h₁.ring_pkts _ _ hL pk (List.mem_cons_self _ _)
    rw [history_snoc, if_pos rfl, ht]
    exact failures_snoc hf ret
  have hs : m₁.store = m.store := congrArg FifoView.store hview
  have ht : m₁.txLog = m.txLog := congrArg FifoView.txLog hview
  refine ⟨p, pk, ret, (congrArg FifoView.p hview).symm.trans hp, hs ▸ hpk, ht ▸ hlast, ?_, ?_,
    ?_, ?_⟩
  · rw [endOfSlot_attempts, ← ha]
  · rw [endOfSlot_events, ← hev]
  · rw [endOfSlot_sentCalls, ← hsc]
  · rw [endOfSlot_store, hslot, endOfSlot_attempts]
    dsimp only
    rw [htr]

theorem step_pollStep {m m' : Mac} {e : Event} (h : FifoInv cfg.B m.fifoView)
    (hm : step cfg m e = some m') : PollStep m e m' := by
  have notTx : ∀ {e'}, (∀ r, e' ≠ .powercycle r) → ¬EndsTxSlot m e' m' :=
    fun he ⟨⟨⟨r, hr⟩, _⟩, _⟩ => he r hr
  cases e with
  | dispatch =>
      obtain ⟨p, rest, pk, hev, hpk, rfl⟩ := tschTxCallback_spec hm
      exact ⟨fun hE => absurd hE (notTx fun _ => Event.noConfusion), fun _ =>
        ⟨p, pk, hev, hpk, rfl, rfl⟩, fun _ hd => absurd rfl hd⟩
  | powercycle r =>
      rcases powercycle_cases hm with hx | ⟨m₁, success, m₂, hx, ho, rfl⟩ | ⟨m₁, hx, rfl⟩
      · exact .of_quiet (fun hE => resume_yield_pc hx hE.1.2) Event.noConfusion (resume_logs hx)
      · exact outcome_pollStep h hx ho
      · obtain ⟨ha, hev, hsc⟩ := resume_logs hx
        exact .of_quiet (fun hE => Bool.noConfusion ((resume_slotDone_pc hx).symm.trans hE.2))
          Event.noConfusion ⟨(endOfSlot_attempts cfg _ _).trans ha,
            (endOfSlot_events cfg _ _).trans hev, (endOfSlot_sentCalls cfg _ _).trans hsc⟩
  | sendPacket | sendList | softAck | interruptExit =>
      cases hm
      exact .of_quiet (notTx fun _ => Event.noConfusion) Event.noConfusion ⟨rfl, rfl, rfl⟩

/-- The callbacks made and the polls pending together number the attempts. -/
theorem sentCalls_add_events {m : Mac} (hm : Reachable cfg m) :
    m.sentCalls.length + m.events.length = m.attempts.length := by
  induction hm with
  | init now => rfl
  | @step m m' e hm hs ih =>
      obtain ⟨hpost, hdisp, hquiet⟩ := step_pollStep (reachable_fifoInv hm) hs
      by_cases hE : EndsTxSlot m e m'
      · obtain ⟨r, pk, st, -, -, -, ha, hev, hsc, -⟩ := hpost hE
        simp only [ha, hev, hsc, List.length_append, List.length_singleton]
        omega
      by_cases hd : e = .dispatch
      · obtain ⟨r, pk, hev, -, ha, hsc⟩ := hdisp hd
        rw [hev, List.length_cons] at ih
        simp only [ha, hsc, List.length_append, List.length_singleton]
        omega
      · obtain ⟨ha, hev, hsc⟩ := hquiet hE hd
        rw [ha, hev, hsc]
        exact ih

variable (cfg) in
/-- Over every run: the callbacks made and the polls pending together number the attempts;
the attempts and the slot in flight number the packets taken into `CELL_TX`; and every
event is a `PollStep`, the end of each `CELL_TX` slot posting exactly one poll.  So
`mac_call_sent_callback` is called once per attempt, failed or not, each time with what the
attempted slot holds when the poll is dispatched; right after the post that is the
attempted packet with the attempt's status. -/
theorem sent_callback_per_attempt {m : Mac} (hm : Reachable cfg m) :
    m.sentCalls.length + m.events.length = m.attempts.length ∧
      m.attempts.length + (if m.pc.isTx then 1 else 0) = m.txLog.length ∧
      ∀ e m', step cfg m e = some m' → PollStep m e m' :=
  ⟨sentCalls_add_events hm, (reachable_fifoInv hm).txLog_length,
    fun _ _ hs => step_pollStep (reachable_fifoInv hm) hs⟩

/-- In the last call of `noackTrace`'s slot the packet is in flight: taken once, with no
attempt finished and no poll posted yet. -/
theorem sent_callback_per_attempt_in_flight :
    (run shipped (init shipped 0) (noackTrace.take 6)).map
        (fun m => (m.pc, m.txLog, m.attempts.length, m.events.length)) =
      some (.tx .ackDetect, [0], 0, 0) ∧
    ∀ m, run shipped (init shipped 0) (noackTrace.take 6) = some m →
      m.sentCalls.length + m.events.length = m.attempts.length ∧
        m.attempts.length + (if m.pc.isTx then 1 else 0) = m.txLog.length ∧
        ∀ e m', step shipped m e = some m' → PollStep m e m' :=
  ⟨by decide, fun _ hm => sent_callback_per_attempt shipped (reachable_of_run shipped (.init 0) hm)⟩

/-- The packet's first attempt gets no ACK.  It stays at the head of its ring for a retry,
yet `mac_call_sent_callback` has already been called for it with `MAC_TX_NOACK`. -/
theorem noack_reported_while_queued :
    (run shipped (init shipped 0) noackTrace).map
        (fun m => (m.sentCalls, m.store.ringUids shipped.B cellAddress1)) =
      some ([⟨0, 0, .txNoack, 1, 0⟩], [0]) := by
  decide

/-- The packet of `sharedCellAckTrace` is acknowledged on its first attempt.  The slot
machine took it into `CELL_TX` once, yet the callback reports `MAC_TX_OK` with 0
transmissions: only the failure branches count an attempt in `p->transmissions`. -/
theorem ack_first_attempt_reports_zero_transmissions :
    (run shipped (init shipped 0) (sharedCellAckTrace ++ [.dispatch])).map
        (fun m => (m.txLog, m.sentCalls)) = some ([0], [⟨0, 0, .txOk, 0, 0⟩]) := by
  decide

end Mac

end Tsch
