import Tsch.Timing

/-!
# How long a slot runs

`powercycle` is a protothread.  A `CELL_TX` slot yields before the CCA, before the transmit,
before the ACK wait, before the ACK detection and before the ACK read (lines 674-735); a
`CELL_RX` slot yields before its guard time, at the guard end and before its soft ACK (lines
891-929).  Each
call resumes at the last yield and runs to the next one or to the end of the slot.  No yield
of a slot is reached twice: a call that does not end the slot moves on to a later yield.

**Results.**
* `txResume_yield`, `rxResume_yield`: a resume point yields only at a later one.
* `powercycle_callsLeft`, `step_pc`: the step lemmas.
* `slot_ends_within_calls`: a slot is over once `Pc.callsLeft` calls (at most five) have run.
-/

namespace Tsch

/-- The calls of `powercycle` a `CELL_TX` slot suspended at `w` has left, the call that ends
it included. -/
def TxWait.callsLeft : TxWait → Nat
  | .cca => 5
  | .transmit => 4
  | .ackWait => 3
  | .ackDetect => 2
  | .ackRead => 1

/-- The calls of `powercycle` a `CELL_RX` slot suspended at `w` has left. -/
def RxWait.callsLeft : RxWait → Nat
  | .guardStart => 3
  | .guardEnd => 2
  | .ack => 1

/-- The calls of `powercycle` the slot has left at the resume point; none between slots. -/
def Pc.callsLeft : Pc → Nat
  | .tx w => w.callsLeft
  | .rx w => w.callsLeft
  | _ => 0

theorem Pc.callsLeft_eq_zero_iff (pc : Pc) : pc.callsLeft = 0 ↔ pc.inSlot = false := by
  rcases pc with _ | _ | w | w <;> try cases w
  all_goals decide

/-- A call of `powercycle`. -/
def Event.isPowercycle : Event → Bool
  | .powercycle _ => true
  | _ => false

namespace Mac

variable {cfg : Config} {m m' m₁ : Mac} {r : Radio}

theorem ackPart_yield (h : ackPart m r = some (.yield m₁)) : m₁.pc = .tx .ackRead := by
  unfold ackPart at h
  split at h
  · obtain ⟨_, _, hx, -⟩ := ackRead_spec h
    cases hx
  · cases h
    rfl

theorem txResume_yield {w : TxWait} (h : txResume cfg m r w = some (.yield m₁)) :
    ∃ w', m₁.pc = .tx w' ∧ w'.callsLeft < w.callsLeft := by
  cases w <;> simp only [txResume] at h
  case cca =>
    cases hb : busywaitCca cfg.plat m.start (cfg.plat.TsCCAOffset + cfg.plat.TsCCA) r.ccaNow
      (uint8 r.stale) r.channelClear with
    | none => simp [hb] at h
    | some cs =>
        simp only [hb, Option.bind_eq_bind, Option.some_bind] at h
        split at h <;> cases h
        exact ⟨.transmit, rfl, by decide⟩
  case transmit =>
    split at h <;> cases h
    exact ⟨.ackWait, rfl, by decide⟩
  case ackWait =>
    split at h
    · exact ⟨.ackRead, ackPart_yield h, by decide⟩
    · cases h
      exact ⟨.ackDetect, rfl, by decide⟩
  case ackDetect =>
    by_cases hc : uint8 (uint8 r.stale ||| if r.ackDetect then 1 else 0) ≠ 0
    · rw [if_pos hc] at h
      exact ⟨.ackRead, ackPart_yield h, by decide⟩
    · rw [if_neg hc] at h
      cases h
  case ackRead =>
    obtain ⟨_, _, hx, -⟩ := ackRead_spec h
    cases hx

theorem rxResume_yield {w : RxWait} (h : rxResume m r w = some (.yield m₁)) :
    ∃ w', m₁.pc = .rx w' ∧ w'.callsLeft < w.callsLeft := by
  cases w <;> simp only [rxResume] at h
  case guardStart =>
    cases h
    exact ⟨.guardEnd, rfl, by decide⟩
  case guardEnd =>
    split_ifs at h
    · cases h
      exact ⟨.ack, rfl, by decide⟩
    all_goals simp at h
  case ack => simp at h

/-- Inside a slot, a call of `powercycle` ends the slot or moves to a later yield. -/
theorem powercycle_callsLeft (hin : m.pc.inSlot = true) (h : powercycle cfg m r = some m')
    (hin' : m'.pc.inSlot = true) : m'.pc.callsLeft < m.pc.callsLeft := by
  rcases powercycle_cases h with h₁ | ⟨_, _, _, -, -, rfl⟩ | ⟨_, -, rfl⟩
  · unfold resume at h₁
    split at h₁
    · rename_i hpc
      simp [hpc, Pc.inSlot] at hin
    · rename_i hpc
      simp [hpc, Pc.inSlot] at hin
    · rename_i w hpc
      obtain ⟨w', hw', hlt⟩ := txResume_yield h₁
      rwa [hw', hpc]
    · rename_i w hpc
      obtain ⟨w', hw', hlt⟩ := rxResume_yield h₁
      rwa [hw', hpc]
  all_goals simp [Pc.inSlot] at hin'

/-- The main task and the radio interrupt never move the protothread. -/
theorem step_pc {e : Event} (he : e.isPowercycle = false) (h : step cfg m e = some m') :
    m'.pc = m.pc := by
  cases e with
  | powercycle => cases he
  | dispatch =>
      obtain ⟨-, -, -, -, -, rfl⟩ := tschTxCallback_spec h
      rfl
  | _ => cases h; rfl

/-- One event: the calls left drop by one on a call of `powercycle` that stays in the slot,
and stay the same otherwise. -/
theorem step_callsLeft (hin : m.pc.inSlot = true) {e : Event} (h : step cfg m e = some m') :
    m'.pc.callsLeft + (if e.isPowercycle then 1 else 0) ≤ m.pc.callsLeft := by
  cases he : e.isPowercycle
  · rw [step_pc he h]
    rfl
  · cases e with
    | powercycle r =>
        cases hin' : m'.pc.inSlot
        · rw [(Pc.callsLeft_eq_zero_iff _).2 hin']
          have := (Pc.callsLeft_eq_zero_iff m.pc).not.2 (by rw [hin]; decide)
          simp only [if_true]
          omega
        · have := powercycle_callsLeft hin h hin'
          simp only [if_true]
          omega
    | _ => cases he

variable (cfg) in
/-- Whatever the radio answers, and whatever the main task and the radio interrupt run
between the calls, a slot is over once `Pc.callsLeft` calls of `powercycle` have run: every
run with that many calls passes a state outside the slot. -/
theorem slot_ends_within_calls {es : List Event} (h : run cfg m es = some m')
    (hk : m.pc.callsLeft ≤ es.countP Event.isPowercycle) :
    ∃ es₁ es₂ m₁, es = es₁ ++ es₂ ∧ run cfg m es₁ = some m₁ ∧ m₁.pc.inSlot = false := by
  induction es generalizing m with
  | nil =>
      refine ⟨[], [], m, rfl, rfl, (Pc.callsLeft_eq_zero_iff _).1 ?_⟩
      simpa using hk
  | cons e es ih =>
      cases hin : m.pc.inSlot
      · exact ⟨[], e :: es, m, rfl, rfl, hin⟩
      · simp only [run, Option.bind_eq_some] at h
        obtain ⟨m₁, h₁, h₂⟩ := h
        have hstep := step_callsLeft hin h₁
        rw [List.countP_cons] at hk
        obtain ⟨es₁, es₂, m₂, rfl, hr, hout⟩ := ih h₂ (by omega)
        exact ⟨e :: es₁, es₂, m₂, rfl, by simp [run, h₁, hr], hout⟩

/-- The slot of `sharedCellAckTrace`'s packet when the ACK comes late: the ACK wait sees
nothing, the ACK detection sees it, the read finds nothing pending and yields, and the
fifth call reads the ACK. -/
def lateAckSlot : List Event :=
  [.powercycle { quietRadio 600 with ccaNow := 551, channelClear := true },
    .powercycle { quietRadio 600 with transmit := radioTxOk },
    .powercycle (quietRadio 600),
    .powercycle { quietRadio 600 with ackDetect := true },
    .powercycle (quietRadio 600)]

/-- The slot of `lateAckSlot` uses all its five calls: it is still at the ACK read after
four, and it is over after the fifth. -/
theorem late_ack_slot_ends :
    (run shipped (init shipped 0) (sharedCellAckTrace.take 3 ++ lateAckSlot.take 4)).map
        (·.pc) = some (.tx .ackRead) ∧
      (run shipped (init shipped 0) (sharedCellAckTrace.take 3 ++ lateAckSlot)).map (·.pc) =
        some .slotStart ∧
      ∀ m m', run shipped (init shipped 0) (sharedCellAckTrace.take 3) = some m →
        run shipped m lateAckSlot = some m' →
        ∃ es₁ es₂ m₁, lateAckSlot = es₁ ++ es₂ ∧ run shipped m es₁ = some m₁ ∧
          m₁.pc.inSlot = false := by
  have hpc : (run shipped (init shipped 0) (sharedCellAckTrace.take 3)).map (·.pc) =
      some (.tx .cca) := by decide
  refine ⟨by decide, by decide, fun m m' hm h => slot_ends_within_calls shipped h ?_⟩
  simp only [hm, Option.map_some', Option.some.injEq] at hpc
  rw [hpc]
  decide

end Mac

end Tsch
