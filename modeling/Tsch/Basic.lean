import Mathlib.Data.Int.Bitwise
import Mathlib.Data.Nat.Bitwise

/-!
# TSCH: C integers, addresses and status codes

How the model reads the C of `tsch.c`: a store into an unsigned field of `w` bits is
reduced modulo `2^w`, a store into a signed field wraps in two's complement (`Int.bmod`),
and intermediate `int` arithmetic on small operands is exact.  `land_two_pow_sub_one` is the
fact the ring buffer relies on: masking an `int` with `2^k - 1` is reduction modulo `2^k`,
also for a negative difference of indices.
-/

namespace Tsch

/-! ## Stores into C integer fields -/

/-- Stores into `uint8_t`, `uint16_t`, `int16_t` and `int32_t` fields. -/
def uint8 (x : Nat) : Nat := x % 256

def uint16 (x : Nat) : Nat := x % 65536

def uint16OfInt (x : Int) : Nat := (x % 65536).toNat

def int16 (x : Int) : Int := x.bmod 65536

def int32 (x : Int) : Int := x.bmod 4294967296

theorem uint8_of_lt {x : Nat} (h : x < 256) : uint8 x = x := Nat.mod_eq_of_lt h

theorem uint16_of_lt {x : Nat} (h : x < 65536) : uint16 x = x := Nat.mod_eq_of_lt h

theorem uint8_lt (x : Nat) : uint8 x < 256 := Nat.mod_lt _ (by decide)

theorem uint16_lt (x : Nat) : uint16 x < 65536 := Nat.mod_lt _ (by decide)

/-- Two's complement wrap modulo `m` leaves a value of the representable range alone. -/
theorem bmod_of_small {x : Int} {m : Nat} (h1 : -((m : Int) / 2) ≤ x) (h2 : 2 * x < m) :
    x.bmod m = x := by
  rw [Int.bmod_def]
  by_cases h : 0 ≤ x
  · rw [Int.emod_eq_of_lt h (by omega), if_pos (by omega)]
  · rw [← Int.add_emod_self, Int.emod_eq_of_lt (by omega) (by omega), if_neg (by omega)]
    omega

theorem int16_of_small {x : Int} (h1 : -32768 ≤ x) (h2 : x < 32768) : int16 x = x :=
  bmod_of_small (by simpa using h1) (by simp; omega)

theorem int32_of_small {x : Int} (h1 : -2147483648 ≤ x) (h2 : x < 2147483648) :
    int32 x = x :=
  bmod_of_small (by simpa using h1) (by simp; omega)

/-! ## Masking with `2^k - 1` -/

theorem ldiff_two_pow_sub_one (k a : Nat) :
    Nat.ldiff (2 ^ k - 1) a = 2 ^ k - 1 - a % 2 ^ k := by
  have h : (~~~(BitVec.ofNat k a)).toNat = 2 ^ k - 1 - a % 2 ^ k := by
    simp [BitVec.toNat_not]
  rw [← h]
  apply Nat.eq_of_testBit_eq
  intro i
  rw [Nat.testBit_ldiff, Nat.testBit_two_pow_sub_one, BitVec.testBit_toNat,
    BitVec.getLsbD_not, BitVec.getLsbD_ofNat]
  cases decide (i < k) <;> simp

/-- C's `x & (2^k - 1)` on an `int` is `x mod 2^k`, whatever the sign of `x`. -/
theorem land_two_pow_sub_one (x : Int) (k : Nat) :
    Int.land x (2 ^ k - 1 : Nat) = x % 2 ^ k := by
  cases x with
  | ofNat a =>
      simp only [Int.land, Int.ofNat_eq_coe, Nat.and_pow_two_sub_one_eq_mod]
      push_cast; rfl
  | negSucc a =>
      have hk : (0 : Int) < 2 ^ k := by exact_mod_cast Nat.two_pow_pos k
      simp only [Int.land]
      rw [ldiff_two_pow_sub_one, Int.negSucc_emod _ hk]
      have : a % 2 ^ k < 2 ^ k := Nat.mod_lt _ (Nat.two_pow_pos k)
      have h1 : 1 ≤ 2 ^ k := Nat.one_le_two_pow
      rw [Nat.sub_sub, Nat.cast_sub (by omega)]
      push_cast
      rw [Int.sub_sub, Int.add_comm]

/-! ## Addresses -/

/-- `rimeaddr_t`, compared with `rimeaddr_cmp`. -/
structure RimeAddr where
  u8 : List UInt8
  deriving DecidableEq, Repr

/-- `rimeaddr_null`, the broadcast address. -/
def rimeaddrNull : RimeAddr := ⟨[0, 0, 0, 0, 0, 0, 0, 0]⟩

/-- `BROADCAST_CELL_ADDRESS`, the peer of the broadcast cells. -/
def broadcastCellAddress : RimeAddr := ⟨[0, 0, 0, 0, 0, 0, 0, 0]⟩

theorem broadcastCellAddress_eq : broadcastCellAddress = rimeaddrNull := rfl

/-- The time source of `links_list`. -/
def cellAddress1 : RimeAddr := ⟨[0x00, 0x12, 0x74, 1, 0, 1, 1, 1]⟩

def cellAddress2 : RimeAddr := ⟨[0x00, 0x12, 0x74, 2, 0, 2, 2, 2]⟩

def cellAddress3 : RimeAddr := ⟨[0x00, 0x12, 0x74, 3, 0, 3, 3, 3]⟩

/-! ## Status codes -/

/-- The MAC status codes of `mac.h` that `tsch.c` stores in `TSCH_packet.ret`. -/
inductive MacStatus
  | txOk
  | txCollision
  | txNoack
  | txDeferred
  | txErr
  deriving DecidableEq, Repr

/-- The radio's `transmit` results, which the slot code stores in a `uint8_t`. -/
def radioTxOk : Nat := 0

def radioTxErr : Nat := 1

def radioTxCollision : Nat := 2

def radioTxNoack : Nat := 3

def macMinBE : Nat := 1

def macMaxBE : Nat := 4

def macMaxFrameRetries : Nat := 4

end Tsch
