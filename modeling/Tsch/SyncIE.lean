import Tsch.Basic

/-!
# The Sync Information Element

A receiver acknowledges a frame with a soft ACK built in the radio interrupt by
`tsch_make_sync_ack`: frame control `0x02 0x22`, the sequence number, and a Sync IE
`0x02 0x1e status_lo status_hi` written by `add_sync_IE`.  The 16-bit status holds the
magnitude of the measured drift in microseconds in bits 0..10, its sign in bit 11 and the
NACK flag in bit 15.  The transmitter checks and decodes the ACK inline in `powercycle`
(lines 744-788); that code is `ackCheck` and `decodeDrift` here.

**Model.**  `tickDifference` is `(int32_t)start + TsTxOffset - last_packet_timestamp`; for a
16-bit `rtimer_clock_t` no operand wraps, and for a 32-bit one the wrap of the unsigned
subtraction is the `int32_t` store.  `addSyncIE` converts ticks to microseconds in 32-bit
arithmetic (`t * 3051 / 100`, truncating) and stores the result in an `int16_t`.

**Results.**
* `ackCheck_syncAck`: a drift that fits in 11 bits makes the round trip.
* `decodeDrift_addSyncIE`: any other drift comes back with its magnitude reduced modulo
  `2^11` (`syncIE_drift_reduced_mod_2048`).
* `tschMakeSyncAck_reports_wrapped_drift`: a timer wrap between the slot anchor and the
  frame is reported as a drift.
-/

namespace Tsch

/-- Modelled from the spec: `ACK_LEN`, frame control and sequence number. -/
def ackLen : Nat := 3

/-- Modelled from the spec: `EXTRA_ACK_LEN`, the Sync IE. -/
def extraAckLen : Nat := 4

/-! ## Encoding -/

/-- The status word of `add_sync_IE` for a drift `td` in microseconds. -/
def syncStatus (td : Int) (nack : Nat) : Nat :=
  let s := if td ≥ 0 then td.toNat &&& 0x07ff else ((-td).toNat &&& 0x07ff) ||| 0x0800
  if nack ≠ 0 then s ||| 0x8000 else s

/-- `add_sync_IE`: the four bytes written and the returned drift in microseconds. -/
def addSyncIE (timeDifference32 : Int) (nack : Nat) : List UInt8 × Int :=
  let td := int16 ((int32 (timeDifference32 * 3051)).tdiv 100)
  ([0x02, 0x1e, UInt8.ofNat (syncStatus td nack &&& 0xff),
    UInt8.ofNat ((syncStatus td nack >>> 8) &&& 0xff)], td)

/-- `(int32_t)start + TsTxOffset - last_packet_timestamp`. -/
def tickDifference (TsTxOffset start lastPacketTimestamp : Nat) : Int :=
  int32 ((start : Int) + TsTxOffset - lastPacketTimestamp)

/-- What `tsch_make_sync_ack` leaves behind: `last_drift` and the global `ackbuf`. -/
structure SyncAck where
  lastDrift : Int
  ackbuf : List UInt8

/-- `tsch_make_sync_ack`, with the slot anchor `start` it reads. -/
def tschMakeSyncAck (TsTxOffset start seqno lastPacketTimestamp nack : Nat) : SyncAck :=
  ⟨int16 (tickDifference TsTxOffset start lastPacketTimestamp),
    [UInt8.ofNat (3 + 4), 0x02, 0x22, UInt8.ofNat seqno] ++
      (addSyncIE (tickDifference TsTxOffset start lastPacketTimestamp) nack).1⟩

/-! ## Decoding on the transmitter -/

/-- `ack_status = ackbuf[5]; ack_status |= ackbuf[6] << 8;` -/
def ackStatusOf (ackbuf : List UInt8) : Nat :=
  (ackbuf.getD 5 0).toNat ||| ((ackbuf.getD 6 0).toNat <<< 8)

/-- The ACK test of the TX slot: `success`, and the status word of a recognised Sync IE. -/
def ackCheck (ackbuf : List UInt8) (len seqno : Nat) : Nat × Option Nat :=
  if 2 = (ackbuf.getD 0 0).toNat ∧ len ≥ ackLen ∧ seqno = (ackbuf.getD 2 0).toNat then
    (radioTxOk,
      if (ackbuf.getD 1 0).toNat &&& 2 ≠ 0 ∧ len = ackLen + extraAckLen ∧
          (ackbuf.getD 3 0).toNat = 0x02 ∧ (ackbuf.getD 4 0).toNat = 0x1e then
        some (ackStatusOf ackbuf)
      else none)
  else (radioTxNoack, none)

/-- The drift `d` extracted from the status word, an `int16_t`. -/
def decodeDrift (ackStatus : Nat) : Int :=
  int16 (if ackStatus &&& 0x0800 ≠ 0 then -((Nat.ldiff (ackStatus &&& 0x0fff) 0x0800 : Nat) : Int)
    else ((ackStatus &&& 0x0fff : Nat) : Int))

/-! ## Bit lemmas -/

section Bits

/-- Or-ing in bits above a value's width adds them. -/
theorem lor_two_pow_mul {b i : Nat} (hb : b < 2 ^ i) (a : Nat) :
    b ||| 2 ^ i * a = 2 ^ i * a + b := by
  apply Nat.eq_of_testBit_eq
  intro j
  rw [Nat.testBit_lor, Nat.testBit_mul_pow_two, Nat.testBit_mul_pow_two_add a hb]
  split_ifs with h
  · simp [show ¬ j ≥ i by omega]
  · have : b.testBit j = false :=
      Nat.testBit_lt_two_pow (lt_of_lt_of_le hb (Nat.pow_le_pow_right (by decide) (by omega)))
    simp [this, show j ≥ i by omega]

theorem land_two_pow_eq_zero_iff (x k : Nat) : x &&& 2 ^ k = 0 ↔ x.testBit k = false := by
  constructor
  · intro h
    have := congrArg (Nat.testBit · k) h
    simpa [Nat.testBit_two_pow] using this
  · intro h
    apply Nat.eq_of_testBit_eq
    intro j
    rw [Nat.testBit_land, Nat.testBit_two_pow]
    by_cases hj : k = j
    · subst hj; simp [h]
    · simp [hj]

/-- Bit `11 + j` of `2^11 * c + m` with `m` below `2^11`. -/
theorem testBit_sign (m c j : Nat) (hm : m < 2 ^ 11) :
    (2 ^ 11 * c + m).testBit j = if j < 11 then m.testBit j else c.testBit (j - 11) :=
  Nat.testBit_mul_pow_two_add c hm j

/-- Clearing bit 11 of `2^11 * c + m`, `c` a bit, leaves `m`. -/
theorem ldiff_sign (m c : Nat) (hm : m < 2 ^ 11) (hc : c < 2) :
    Nat.ldiff (2 ^ 11 * c + m) 0x0800 = m := by
  apply Nat.eq_of_testBit_eq
  intro j
  rw [Nat.testBit_ldiff, testBit_sign m c j hm, show (0x0800 : Nat) = 2 ^ 11 from rfl,
    Nat.testBit_two_pow]
  split_ifs with h
  · simp [show 11 ≠ j by omega]
  · have hm' : m.testBit j = false :=
      Nat.testBit_lt_two_pow (lt_of_lt_of_le hm (Nat.pow_le_pow_right (by decide) (by omega)))
    by_cases hj : 11 = j
    · subst hj; simp [hm']
    · have : c.testBit (j - 11) = false :=
        Nat.testBit_lt_two_pow (lt_of_lt_of_le hc
          (by calc 2 = 2 ^ 1 := rfl
            _ ≤ 2 ^ (j - 11) := Nat.pow_le_pow_right (by decide) (by omega)))
      simp [this, hm']

end Bits

/-! ## The round trip -/

section RoundTrip

/-- In range, `t * 3051` does not overflow 32 bits. -/
theorem mul_bounds_of_tdiv {x : Int} (h1 : -2047 ≤ x.tdiv 100) (h2 : x.tdiv 100 ≤ 2047) :
    -204800 < x ∧ x < 204800 := by
  cases x with
  | ofNat n => simp only [Int.ofNat_eq_coe, Int.tdiv, Int.ofNat_ediv] at h1 h2 ⊢; omega
  | negSucc n =>
      simp only [Int.tdiv, Int.negSucc_eq, Int.ofNat_eq_coe, Nat.succ_eq_add_one] at h1 h2 ⊢
      omega

/-- The mask `0x07ff` reduces the magnitude modulo `2^11`; nothing saturates. -/
theorem syncStatus_eq_mod (td : Int) (nack : Nat) :
    syncStatus td nack = 2 ^ 15 * (if nack ≠ 0 then 1 else 0) +
      (2 ^ 11 * (if td < 0 then 1 else 0) + td.natAbs % 2 ^ 11) := by
  have hmask : ∀ x : Nat, x &&& 0x07ff = x % 2 ^ 11 := fun x =>
    Nat.and_pow_two_sub_one_eq_mod x 11
  have hm : td.natAbs % 2 ^ 11 < 2 ^ 11 := Nat.mod_lt _ (by decide)
  have hlow : (if td ≥ 0 then td.toNat &&& 0x07ff else ((-td).toNat &&& 0x07ff) ||| 0x0800) =
      2 ^ 11 * (if td < 0 then 1 else 0) + td.natAbs % 2 ^ 11 := by
    by_cases h : td < 0
    · rw [if_neg (by omega), if_pos h, hmask, show (-td).toNat = td.natAbs by omega,
        show (0x0800 : Nat) = 2 ^ 11 * 1 from rfl, lor_two_pow_mul hm]
    · rw [if_pos (by omega), if_neg h, hmask, show td.toNat = td.natAbs by omega]
      omega
  have hx : 2 ^ 11 * (if td < 0 then 1 else 0) + td.natAbs % 2 ^ 11 < 2 ^ 15 := by
    split_ifs <;> omega
  unfold syncStatus
  simp only [hlow]
  generalize 2 ^ 11 * (if td < 0 then 1 else 0) + td.natAbs % 2 ^ 11 = x at hx ⊢
  by_cases hn : nack ≠ 0
  · rw [if_pos hn, if_pos hn, show (0x8000 : Nat) = 2 ^ 15 * 1 from rfl, lor_two_pow_mul hx]
  · rw [if_neg hn, if_neg hn]; omega

/-- In range, the status word is NACK bit, sign bit and magnitude, each in its place. -/
theorem syncStatus_eq {td : Int} (h1 : -2047 ≤ td) (h2 : td ≤ 2047) (nack : Nat) :
    syncStatus td nack =
      2 ^ 15 * (if nack ≠ 0 then 1 else 0) + (2 ^ 11 * (if td < 0 then 1 else 0) + td.natAbs) := by
  rw [syncStatus_eq_mod, Nat.mod_eq_of_lt (show td.natAbs < 2 ^ 11 by omega)]

/-- The two status bytes reassemble to the status word. -/
theorem ackStatusOf_bytes {s : Nat} (hs : s < 65536) (x0 x1 x2 x3 x4 : UInt8) :
    ackStatusOf [x0, x1, x2, x3, x4, UInt8.ofNat (s &&& 0xff), UInt8.ofNat ((s >>> 8) &&& 0xff)] =
      s := by
  have hlo : s &&& 0xff = s % 2 ^ 8 := Nat.and_pow_two_sub_one_eq_mod s 8
  have hhi : (s >>> 8) &&& 0xff = s / 2 ^ 8 := by
    rw [show (0xff : Nat) = 2 ^ 8 - 1 from rfl, Nat.and_pow_two_sub_one_eq_mod,
      Nat.shiftRight_eq_div_pow, Nat.mod_eq_of_lt (by omega)]
  simp only [ackStatusOf, List.getD_cons_succ, List.getD_cons_zero, hlo, hhi,
    UInt8.toNat_ofNat_of_lt (show s % 2 ^ 8 < 256 by omega),
    UInt8.toNat_ofNat_of_lt (show s / 2 ^ 8 < 256 by omega), Nat.shiftLeft_eq,
    Nat.mul_comm (s / 2 ^ 8), lor_two_pow_mul (Nat.mod_lt _ (by decide) : s % 2 ^ 8 < 2 ^ 8),
    Nat.div_add_mod]

/-- Decoding a status word gives back the signed magnitude, whatever bit 15 holds. -/
theorem decodeDrift_eq {m c n : Nat} (hm : m < 2 ^ 11) (hc : c < 2) :
    decodeDrift (2 ^ 15 * n + (2 ^ 11 * c + m)) = if c = 1 then -(m : Int) else m := by
  have hlow : 2 ^ 11 * c + m < 2 ^ 15 := by omega
  have hbit : (2 ^ 15 * n + (2 ^ 11 * c + m)).testBit 11 = decide (c = 1) := by
    rw [Nat.testBit_mul_pow_two_add n hlow, if_pos (by decide), testBit_sign m c 11 hm,
      if_neg (by decide), Nat.testBit_zero]
    rcases (by omega : c = 0 ∨ c = 1) with rfl | rfl <;> rfl
  have hmask : (2 ^ 15 * n + (2 ^ 11 * c + m)) &&& 0x0fff = 2 ^ 11 * c + m := by
    rw [show (0x0fff : Nat) = 2 ^ 12 - 1 from rfl, Nat.and_pow_two_sub_one_eq_mod,
      show 2 ^ 15 * n + (2 ^ 11 * c + m) = 2 ^ 12 * (8 * n) + (2 ^ 11 * c + m) by omega,
      Nat.mul_add_mod, Nat.mod_eq_of_lt (by omega)]
  have hand : (2 ^ 15 * n + (2 ^ 11 * c + m)) &&& 0x0800 = 0 ↔ c ≠ 1 := by
    rw [show (0x0800 : Nat) = 2 ^ 11 from rfl, land_two_pow_eq_zero_iff, hbit]
    simp
  unfold decodeDrift
  by_cases h1 : c = 1
  · rw [if_pos (by rwa [Ne, hand, not_not]), hmask, ldiff_sign m c hm hc, if_pos h1,
      int16_of_small (by omega) (by omega)]
  · rw [if_neg (by rwa [Ne, hand, not_not]), hmask, if_neg h1,
      show c = 0 by omega, int16_of_small (by omega) (by omega)]
    simp

/-- Whatever the tick difference `t`, a Sync IE written by `add_sync_IE` after three bytes
of header decodes to the value `add_sync_IE` returns with its magnitude reduced modulo
`2^11`. -/
theorem decodeDrift_addSyncIE (t : Int) (nack : Nat) (x0 x1 x2 : UInt8) :
    decodeDrift (ackStatusOf ([x0, x1, x2] ++ (addSyncIE t nack).1)) =
      if (addSyncIE t nack).2 < 0 then -(((addSyncIE t nack).2.natAbs % 2 ^ 11 : Nat) : Int)
      else (((addSyncIE t nack).2.natAbs % 2 ^ 11 : Nat) : Int) := by
  simp only [addSyncIE, List.cons_append, List.nil_append]
  generalize int16 ((int32 (t * 3051)).tdiv 100) = td
  have hs := syncStatus_eq_mod td nack
  have hm : td.natAbs % 2 ^ 11 < 2 ^ 11 := Nat.mod_lt _ (by decide)
  have hlt : syncStatus td nack < 65536 := by rw [hs]; split_ifs <;> omega
  rw [ackStatusOf_bytes hlt, hs, decodeDrift_eq hm (by split_ifs <;> decide)]
  by_cases h : td < 0 <;> simp [h]

/-- The bytes `ackbuf[1..7]` the radio sends. -/
theorem tschMakeSyncAck_tail (TsTxOffset start seqno lastPacketTimestamp nack : Nat) :
    (tschMakeSyncAck TsTxOffset start seqno lastPacketTimestamp nack).ackbuf.tail =
      [0x02, 0x22, UInt8.ofNat seqno, 0x02, 0x1e,
        UInt8.ofNat (syncStatus (int16 ((int32 (tickDifference TsTxOffset start
          lastPacketTimestamp * 3051)).tdiv 100)) nack &&& 0xff),
        UInt8.ofNat ((syncStatus (int16 ((int32 (tickDifference TsTxOffset start
          lastPacketTimestamp * 3051)).tdiv 100)) nack >>> 8) &&& 0xff)] := rfl

/-- For every sequence number, NACK flag and tick difference whose microsecond value
`m = t * 3051 / 100` lies in `-2047..2047`, the bytes `ackbuf[1..7]` of
`tsch_make_sync_ack`, read by the TX slot with `len = ACK_LEN + EXTRA_ACK_LEN` and the
transmitted sequence number, are a valid ACK carrying a Sync IE that decodes to `m`; bit 15
of the status word is the NACK flag. -/
theorem ackCheck_syncAck (TsTxOffset start lastPacketTimestamp seqno nack : Nat)
    (hseq : seqno < 256)
    (h1 : -2047 ≤ (tickDifference TsTxOffset start lastPacketTimestamp * 3051).tdiv 100)
    (h2 : (tickDifference TsTxOffset start lastPacketTimestamp * 3051).tdiv 100 ≤ 2047) :
    ackCheck (tschMakeSyncAck TsTxOffset start seqno lastPacketTimestamp nack).ackbuf.tail
        (ackLen + extraAckLen) seqno =
      (radioTxOk, some (ackStatusOf
        (tschMakeSyncAck TsTxOffset start seqno lastPacketTimestamp nack).ackbuf.tail)) ∧
    decodeDrift (ackStatusOf
        (tschMakeSyncAck TsTxOffset start seqno lastPacketTimestamp nack).ackbuf.tail) =
      (tickDifference TsTxOffset start lastPacketTimestamp * 3051).tdiv 100 ∧
    (ackStatusOf
        (tschMakeSyncAck TsTxOffset start seqno lastPacketTimestamp nack).ackbuf.tail).testBit 15 =
      decide (nack ≠ 0) := by
  rw [tschMakeSyncAck_tail]
  generalize tickDifference TsTxOffset start lastPacketTimestamp = t at h1 h2 ⊢
  generalize hm : (t * 3051).tdiv 100 = m at h1 h2 ⊢
  have hb := mul_bounds_of_tdiv (x := t * 3051) (hm ▸ h1) (hm ▸ h2)
  have htd : int16 ((int32 (t * 3051)).tdiv 100) = m := by
    rw [int32_of_small (by omega) (by omega), hm, int16_of_small (by omega) (by omega)]
  have hs := syncStatus_eq h1 h2 nack
  have hlt : syncStatus m nack < 65536 := by
    rw [hs]; split_ifs <;> omega
  rw [htd]
  have hL := ackStatusOf_bytes hlt 0x02 0x22 (UInt8.ofNat seqno) 0x02 0x1e
  have hseq' : (UInt8.ofNat seqno).toNat = seqno := UInt8.toNat_ofNat_of_lt hseq
  refine ⟨?_, ?_, ?_⟩
  · simp only [ackCheck, List.getD_cons_succ, List.getD_cons_zero, hseq']
    rw [if_pos (by decide), if_pos (by decide)]
  · rw [hL, hs, decodeDrift_eq (by omega) (by split_ifs <;> omega)]
    by_cases h : m < 0
    · rw [if_pos h, if_pos rfl]; omega
    · rw [if_neg h, if_neg (by decide)]; omega
  · rw [hL, hs, Nat.testBit_mul_pow_two_add _ (by split_ifs <;> omega), if_neg (by decide)]
    by_cases hn : nack ≠ 0 <;> simp [hn]

/-- The round trip at a frame that arrived one tick early (30 µs), sequence number 7. -/
theorem ackCheck_syncAck_one_tick :
    7 < 256 ∧ -2047 ≤ (tickDifference 70 1000 1069 * 3051).tdiv 100 ∧
      (tickDifference 70 1000 1069 * 3051).tdiv 100 ≤ 2047 ∧
    (ackCheck (tschMakeSyncAck 70 1000 7 1069 0).ackbuf.tail (ackLen + extraAckLen) 7 =
        (radioTxOk, some (ackStatusOf (tschMakeSyncAck 70 1000 7 1069 0).ackbuf.tail)) ∧
      decodeDrift (ackStatusOf (tschMakeSyncAck 70 1000 7 1069 0).ackbuf.tail) =
        (tickDifference 70 1000 1069 * 3051).tdiv 100 ∧
      (ackStatusOf (tschMakeSyncAck 70 1000 7 1069 0).ackbuf.tail).testBit 15 = decide (0 ≠ 0)) :=
  ⟨by decide, by decide, by decide,
    ackCheck_syncAck 70 1000 1069 7 0 (by decide) (by decide) (by decide)⟩

end RoundTrip

/-! ## A timer wrap between the slot anchor and the frame -/

/-- With a 16-bit timer, slot anchor `start = 65535` and a frame that arrives exactly at
`start + TsTxOffset` after the counter wrapped, the signed 16-bit difference is 0 and so
is `last_drift`, but the difference handed to `add_sync_IE` is 65536 ticks, and the soft ACK
reports a drift of -1393 µs. -/
theorem tschMakeSyncAck_reports_wrapped_drift (k : Fin 65535) (seqno nack : Nat) :
    int16 (((65535 : Nat) : Int) + ((k.val + 1 : Nat) : Int) -
      ((65535 + (k.val + 1)) % 65536 : Nat)) = 0 ∧
    (tschMakeSyncAck (k.val + 1) 65535 seqno ((65535 + (k.val + 1)) % 65536) nack).lastDrift = 0 ∧
    tickDifference (k.val + 1) 65535 ((65535 + (k.val + 1)) % 65536) = 65536 ∧
    decodeDrift (ackStatusOf
      (tschMakeSyncAck (k.val + 1) 65535 seqno ((65535 + (k.val + 1)) % 65536) nack).ackbuf.tail) =
      -1393 := by
  have hk := k.isLt
  have hts : (65535 + (k.val + 1)) % 65536 = k.val := by omega
  have hdiff : ((65535 : Nat) : Int) + ((k.val + 1 : Nat) : Int) -
      ((65535 + (k.val + 1)) % 65536 : Nat) = 65536 := by
    rw [hts]; push_cast; omega
  have htd : tickDifference (k.val + 1) 65535 ((65535 + (k.val + 1)) % 65536) = 65536 := by
    rw [tickDifference, hdiff]
    rfl
  have hus : int16 ((int32 (65536 * 3051)).tdiv 100) = -32113 := by decide
  have hlow : (if (-32113 : Int) ≥ 0 then (-32113 : Int).toNat &&& 0x07ff
      else ((-(-32113 : Int)).toNat &&& 0x07ff) ||| 0x0800) = 2 ^ 11 * 1 + 1393 := by decide
  have hstat : syncStatus (-32113) nack =
      2 ^ 15 * (if nack ≠ 0 then 1 else 0) + (2 ^ 11 * 1 + 1393) := by
    simp only [syncStatus, hlow]
    by_cases hn : nack ≠ 0
    · rw [if_pos hn, if_pos hn, show (0x8000 : Nat) = 2 ^ 15 * 1 from rfl,
        lor_two_pow_mul (by decide)]
    · rw [if_neg hn, if_neg hn]; rfl
  have hlt : syncStatus (-32113) nack < 65536 := by rw [hstat]; split_ifs <;> decide
  refine ⟨by rw [hdiff]; decide, by simp only [tschMakeSyncAck, htd]; decide, htd, ?_⟩
  rw [tschMakeSyncAck_tail, htd, hus, ackStatusOf_bytes hlt, hstat,
    decodeDrift_eq (by decide) (by decide)]
  rfl

/-! ## A drift beyond 11 bits -/

/-- A frame that arrives 68 ticks early: its drift is `68 * 3051 / 100 = 2074 µs`, beyond
the 2047 µs a Sync IE carries, and the transmitter decodes 26 µs from the soft ACK, not
the saturated 2047. -/
theorem syncIE_drift_reduced_mod_2048 :
    tickDifference 70 1000 1002 = 68 ∧ (tickDifference 70 1000 1002 * 3051).tdiv 100 = 2074 ∧
      decodeDrift (ackStatusOf (tschMakeSyncAck 70 1000 7 1002 0).ackbuf.tail) = 26 := by
  refine ⟨by decide, by decide, ?_⟩
  rw [show (tschMakeSyncAck 70 1000 7 1002 0).ackbuf.tail =
      [0x02, 0x22, UInt8.ofNat 7] ++ (addSyncIE (tickDifference 70 1000 1002) 0).1 from rfl,
    decodeDrift_addSyncIE]
  decide

end Tsch
