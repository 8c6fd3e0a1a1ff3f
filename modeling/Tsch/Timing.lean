import Tsch.System

/-!
# The clock and the radio in a slot

A TX slot adds the Sync IE drift of an accepted ACK to `drift` (lines 758-775), an RX slot
subtracts the soft-ACK measurement `last_drift` from `drift_correction` (lines 938-948),
and both are folded into the next slotframe's start (lines 962-974).  `schedule_fixed`
(lines 539-559) and the end of a slot (line 983) subtract `rtimer_clock_t` values without a
cast: the difference is modular only when the clock is at least as wide as `int`.  The CCA
waits through `BUSYWAIT_UNTIL_ABS` (lines 456-460) on the local `cca_status`, which a resume
does not restore (`Radio.stale`), and the ACK test of line 744 reads `len` and the stack
array `ackbuf` even when no read ran in the slot (lines 736-743, `Radio.ackbuf`).

**Results.**
* `shared_cell_ack_drift_dropped`: in a shared cell `n` is the broadcast queue, so an ACK
  from the time source credits no drift.
* `rx_drift_samples_summed`: RX samples are summed; only the TX sum is averaged.
* `scheduleFixed_of_intBits_le`, `scheduleFixed_of_past`: a deadline in the past is missed
  on a clock as wide as `int` and met on a narrower one
  (`narrow_clock_misses_past_deadline`).
* `busywaitCca_isSome_of_window`, `busy_channel_transmits`: the CCA wait ends, and misses a
  busy channel when `cca_status` holds its initial 1.
* `unread_ack_accepted`: an attempt ends `MAC_TX_OK` on an earlier slot's ACK.
-/

namespace Tsch

namespace Mac

/-! ## Drift samples -/

/-- An ACK of sequence number 1 whose Sync IE reports a drift of 305 µs. -/
def syncAckOf305 : List UInt8 :=
  [0x02, 0x22, 1, 0x02, 0x1e, 0x31, 0x01]

/-- One packet for `cellAddress1`, sent in the first shared cell and acknowledged with
`syncAckOf305`. -/
def sharedCellAckTrace : List Event :=
  [.sendPacket 0 0 ⟨cellAddress1, [1, 2, 3], false, 0⟩ (some 0),
    .powercycle (quietRadio 100),
    .powercycle (quietRadio 600),
    .powercycle { quietRadio 600 with ccaNow := 551, channelClear := true },
    .powercycle { quietRadio 600 with transmit := radioTxOk },
    .powercycle { quietRadio 600 with
      ackDetect := true, pendingPacket := true, ackPending := true, readLen := 7
      ackbuf := syncAckOf305 }]

/-- The ACK's originator is a time source and its Sync IE is accepted, yet the attempt
leaves `drift` and `drift_counter` at 0: the shared cell's queue `n` is the broadcast
queue, which is not a time source. -/
theorem shared_cell_ack_drift_dropped :
    ((init shipped 0).store.neighborQueueFromAddr cellAddress1).map (·.timeSource) = some true ∧
      ((init shipped 0).store.neighborQueueFromAddr broadcastCellAddress).map (·.timeSource) =
        some false ∧
      ackCheck syncAckOf305 7 1 = (radioTxOk, some 305) ∧ decodeDrift 305 = 305 ∧
      (run shipped (init shipped 0) sharedCellAckTrace).map
          (fun m => (m.attempts, m.drift, m.driftCounter)) = some ([(0, .txOk)], 0, 0) := by
  decide

/-- An RX slot that receives a frame from `cellAddress1` 10 ticks early. -/
def earlyFrameSlot (start : Nat) : List Event :=
  [.powercycle (quietRadio 0), .powercycle (quietRadio 0),
    .softAck 1 (start + 60) 0, .interruptExit true (some cellAddress1),
    .powercycle { quietRadio 0 with rxActivity := true },
    .powercycle (quietRadio (start + 400))]

def idleRxSlot (start : Nat) : List Event :=
  [.powercycle (quietRadio 0), .powercycle (quietRadio 0), .powercycle (quietRadio (start + 400))]

/-- The first slotframe after `init`, with two early frames from the time source. -/
def twoRxSamplesTrace : List Event :=
  .powercycle (quietRadio 400) :: earlyFrameSlot 492 ++ earlyFrameSlot 984 ++ idleRxSlot 1476 ++
    idleRxSlot 1968 ++ idleRxSlot 2460

/-- Two RX samples of 10 ticks from the time source, whose average is 10, move the next
slotframe's start 20 ticks earlier: the samples are summed into `drift_correction` and
`drift_counter` divides only the TX sum. -/
theorem rx_drift_samples_summed :
    (tschMakeSyncAck 70 492 1 552 0).lastDrift = 10 ∧
      (tschMakeSyncAck 70 984 1 1044 0).lastDrift = 10 ∧
      (run shipped (init shipped 0) twoRxSamplesTrace).map
          (fun m => (m.asn, m.start, m.corrSum, m.driftCorrection, m.drift, m.driftCounter)) =
        some (101, 101 * 492 - 20, -20, 0, 0, 0) := by
  decide

end Mac

section Deadline

variable (plat : Platform)

/-- `schedule_fixed(t, ref_time, duration)`, with `RTIMER_NOW()` reading `now₁` for the test
and `now₂` for the re-arm, and `setOk` whether `rtimer_set` returns `RTIMER_OK`: the value it
returns and the time it sets the timer to. -/
def scheduleFixed (refTime duration now₁ now₂ : Nat) (setOk : Bool) : Nat × Nat :=
  let duration := duration % 2 ^ plat.clockBits
  let now := (now₁ + 1) % 2 ^ plat.clockBits
  let refTime := (refTime + duration) % 2 ^ plat.clockBits
  let missed := clockDiffGt plat refTime now duration
  let ret := if missed then 0 else 1
  (if setOk then ret else ret * 2, if missed then (now₂ + 5) % 2 ^ plat.clockBits else refTime)

theorem sub_mod_stored (a b : Nat) :
    (((a % 2 ^ plat.clockBits : Nat) : Int) - ((b % 2 ^ plat.clockBits : Nat) : Int)) %
        2 ^ plat.clockBits = ((a : Int) - b) % 2 ^ plat.clockBits := by
  push_cast
  rw [Int.sub_emod, Int.emod_emod, Int.emod_emod, ← Int.sub_emod]

/-- On a clock at least as wide as `int` the test is modular. -/
theorem clockDiffGt_of_intBits_le (h : plat.intBits ≤ plat.clockBits) (a b d : Nat) :
    clockDiffGt plat a b d = decide (((a : Int) - b) % 2 ^ plat.clockBits > d) := by
  simp [clockDiffGt, Nat.not_lt.2 h]

/-- On a clock narrower than `int` a deadline at or before `now` is not past `d`. -/
theorem clockDiffGt_of_le (h : plat.clockBits < plat.intBits) {a b : Nat} (hab : a ≤ b)
    (d : Nat) : clockDiffGt plat a b d = false := by
  simp only [clockDiffGt, if_pos h, decide_eq_false_iff_not]
  omega

/-- With `int` no wider than the clock, `schedule_fixed` reports a miss exactly when
`((ref_time + duration) - (now + 1)) mod 2^w > duration`, and otherwise sets the timer to
`ref_time + duration`. -/
theorem scheduleFixed_of_intBits_le (h : plat.intBits ≤ plat.clockBits)
    (refTime duration now₁ now₂ : Nat) (setOk : Bool) :
    scheduleFixed plat refTime duration now₁ now₂ setOk =
      if ((refTime + duration : Nat) - (now₁ + 1 : Nat) : Int) % 2 ^ plat.clockBits >
          ((duration % 2 ^ plat.clockBits : Nat) : Int) then
        (0, (now₂ + 5) % 2 ^ plat.clockBits)
      else ((if setOk then 1 else 2), (refTime + duration) % 2 ^ plat.clockBits) := by
  have hdeadline : (refTime + duration % 2 ^ plat.clockBits) % 2 ^ plat.clockBits =
      (refTime + duration) % 2 ^ plat.clockBits := by
    rw [Nat.add_mod, Nat.mod_mod, ← Nat.add_mod]
  simp only [scheduleFixed, clockDiffGt_of_intBits_le plat h, hdeadline, sub_mod_stored,
    decide_eq_true_eq]
  split_ifs <;> rfl

/-- With `int` wider than the clock, a deadline at or before `now` (as the two stored
values) is reported as met, and the timer is set to it. -/
theorem scheduleFixed_of_past (h : plat.clockBits < plat.intBits)
    {refTime duration now₁ : Nat}
    (hpast : (refTime + duration % 2 ^ plat.clockBits) % 2 ^ plat.clockBits ≤
      (now₁ + 1) % 2 ^ plat.clockBits) (now₂ : Nat) (setOk : Bool) :
    scheduleFixed plat refTime duration now₁ now₂ setOk =
      ((if setOk then 1 else 2), (refTime + duration % 2 ^ plat.clockBits) % 2 ^ plat.clockBits) := by
  simp only [scheduleFixed, clockDiffGt_of_le plat h hpast]
  simp

end Deadline

/-- A 16-bit timer on a core with a 32-bit `int`. -/
def narrowClockPlatform : Platform :=
  { cc2420Platform with intBits := 32, intBits_eq := Or.inr rfl }

/-- On `narrowClockPlatform`, a deadline 100 + 50 tested at `now` = 200 is reported as met
and the timer set to 150, in the past, although `(150 - 200) mod 2^16 > 50`; a slot start
of 150 at reading 200 with duration 50 is not skipped either.  With a 16-bit `int` the same
call reports the miss. -/
theorem narrow_clock_misses_past_deadline :
    scheduleFixed narrowClockPlatform 100 50 199 199 true = (1, 150) ∧
      ((100 + 50 : Int) - (199 + 1)) % 2 ^ 16 > 50 ∧
      clockDiffGt narrowClockPlatform 150 200 50 = false ∧ ((150 : Int) - 200) % 2 ^ 16 > 50 ∧
      scheduleFixed cc2420Platform 100 50 199 199 true = (0, 204) := by
  have hnarrow : narrowClockPlatform.clockBits < narrowClockPlatform.intBits := by decide
  refine ⟨?_, by decide, clockDiffGt_of_le _ hnarrow (by decide) 50, by decide, ?_⟩
  · rw [scheduleFixed_of_past _ hnarrow (by decide)]
    rfl
  · rw [scheduleFixed_of_intBits_le _ (by decide)]
    decide

section Cca

variable (plat : Platform)

/-- `RTIMER_CLOCK_LT(now, t0)` is false for a reading in the window that starts at `t0`. -/
theorem rtimerClockLt_of_window {t0 d now : Nat}
    (hw : ((now : Int) - t0) % 2 ^ plat.clockBits ≤ d) (hd : d < 2 ^ 15) :
    rtimerClockLt now t0 = false := by
  have hdvd : ((65536 : Nat) : Int) ∣ 2 ^ plat.clockBits := by
    exact_mod_cast Nat.pow_dvd_pow 2 plat.clockBits_ge
  have h0 : 0 ≤ ((now : Int) - t0) % 2 ^ plat.clockBits := Int.emod_nonneg _ (pow_ne_zero _ (by decide))
  have hx : ((now : Int) - t0) % ((65536 : Nat) : Int) = ((now : Int) - t0) % 2 ^ plat.clockBits := by
    rw [← Int.emod_emod_of_dvd _ hdvd]
    exact Int.emod_eq_of_lt h0 (by omega)
  simp only [rtimerClockLt, int16, Int.bmod_def, hx, decide_eq_false_iff_not]
  split_ifs <;> omega

/-- `BUSYWAIT_UNTIL_ABS` ends for every reading in the window `[t0, t0 + duration]`. -/
theorem busywaitCca_isSome_of_window {t0 d now : Nat}
    (hw : ((now : Int) - t0) % 2 ^ plat.clockBits ≤ d) (hd : d < 2 ^ 15) (s : Nat) (c : Bool) :
    (busywaitCca plat t0 d now s c).isSome := by
  simp only [busywaitCca, rtimerClockLt_of_window plat hw hd, Bool.false_eq_true, and_false,
    ↓reduceIte]
  split_ifs <;> rfl

end Cca

namespace Mac

/-- One packet for `cellAddress1`; CCA reads a busy channel with `cca_status` at `stale`. -/
def busyCcaTrace (stale : Nat) : List Event :=
  [.sendPacket 0 0 ⟨cellAddress1, [1, 2, 3], false, 0⟩ (some 0),
    .powercycle (quietRadio 100),
    .powercycle (quietRadio 600),
    .powercycle { quietRadio 600 with ccaNow := 551, channelClear := false, stale := stale },
    .powercycle { quietRadio 600 with transmit := radioTxOk },
    .powercycle { quietRadio 600 with
      ackDetect := true, pendingPacket := true, ackPending := true, readLen := 7
      ackbuf := syncAckOf305 }]

/-- With `cca_status` at its initial 1, the busy channel is not seen: the slot transmits and
the attempt ends `MAC_TX_OK`.  Only a 0 left in the local gives the collision. -/
theorem busy_channel_transmits :
    (run shipped (init shipped 0) (busyCcaTrace 1)).map (fun m => m.attempts) =
        some [(0, .txOk)] ∧
      (run shipped (init shipped 0) (busyCcaTrace 0)).map (fun m => m.attempts) =
        some [(0, .txCollision)] := by
  decide

/-- A slot whose ACK is detected but never pending, over a stack array holding `garbage`. -/
def unreadAckRadios (garbage : List UInt8) : List Radio :=
  [quietRadio 1500,
    { quietRadio 1500 with ccaNow := 1535, channelClear := true },
    { quietRadio 1500 with transmit := radioTxOk },
    { quietRadio 1500 with ackDetect := true },
    { quietRadio 1500 with ackbuf := garbage }]

/-- `sharedCellAckTrace`, whose ACK read leaves `len = 7`, then a second packet for
`cellAddress1` sent under `unreadAckRadios garbage`. -/
def unreadAckTrace (garbage : List UInt8) : List Event :=
  sharedCellAckTrace ++ .sendPacket 0 0 ⟨cellAddress1, [4, 5, 6], false, 0⟩ (some 1) ::
    idleRxSlot 984 ++ (unreadAckRadios garbage).map .powercycle

/-- No call of the second packet's slot finds anything pending, so no ACK is read in it,
yet the attempt ends `MAC_TX_OK`: the test reads the `len = 7` of the first packet's ACK
and the stack bytes `[2, 0, 2]`.  Other stack bytes give `MAC_TX_NOACK` in the same run. -/
theorem unread_ack_accepted :
    (∀ r ∈ unreadAckRadios [2, 0, 2], (r.pendingPacket || r.ackPending || r.pendingIrq) = false) ∧
      (run shipped (init shipped 0) sharedCellAckTrace).map (·.len) = some 7 ∧
      (run shipped (init shipped 0) (unreadAckTrace [2, 0, 2])).map
          (fun m => (m.len, m.seqno, m.attempts)) = some (7, 2, [(0, .txOk), (1, .txOk)]) ∧
      (run shipped (init shipped 0) (unreadAckTrace [2, 0, 1])).map (·.attempts) =
        some [(0, .txOk), (1, .txNoack)] := by
  decide

end Mac

end Tsch
