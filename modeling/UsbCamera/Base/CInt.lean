import Mathlib.Data.Int.Order.Basic
import UsbCamera.Base.Address

/-!
# `int` arithmetic

A C `int` is an `Int32`.  Sums, products and quotients of numbers that are not
negative are those of integers as long as they stay below `2 ^ 31`, and the
conversion to unsigned keeps them.
-/

namespace CInt

/-- A sum in range is a sum. -/
theorem toInt_add_of_range {x y : Int32} (hpos : 0 ≤ x.toInt + y.toInt)
    (hlt : x.toInt + y.toInt < 2 ^ 31) : (x + y).toInt = x.toInt + y.toInt := by
  rw [Int32.toInt_add]
  apply Int.bmod_eq_of_le <;> norm_num <;> omega

/-- A product in range is a product. -/
theorem toInt_mul_of_range {x y : Int32} (hpos : 0 ≤ x.toInt * y.toInt)
    (hlt : x.toInt * y.toInt < 2 ^ 31) : (x * y).toInt = x.toInt * y.toInt := by
  rw [Int32.toInt_mul]
  apply Int.bmod_eq_of_le <;> norm_num <;> omega

/-- The counter of a loop. -/
theorem counter_next (x : Int32) (i : Nat) : x + 1 + Int32.ofNat i = x + Int32.ofNat (i + 1) := by
  have hone : (1 : Int32) = Int32.ofNat 1 := rfl
  rw [Int32.add_assoc, hone, ← Int32.ofNat_add, Nat.add_comm]

theorem counter_zero (x : Int32) : x + Int32.ofNat 0 = x := Int32.add_zero x

/-- A counter that is counted up. -/
def counter : Address.Stepping Int32 where
  next x := x + 1
  after x i := x + Int32.ofNat i
  after_zero := counter_zero
  after_next := counter_next

/-- What the counter has come to. -/
theorem toInt_counter {x : Int32} {n i : Nat} (hx : x.toInt = n) (hlt : n + i < 2 ^ 31) :
    (x + Int32.ofNat i).toInt = ((n + i : Nat) : Int) := by
  have hi : (Int32.ofNat i).toInt = i := Int32.toInt_ofNat_of_lt (by omega)
  rw [toInt_add_of_range] <;> omega

/-- The bytes of a number of bits. -/
theorem toInt_div_eight {x : Int32} (hpos : 0 ≤ x.toInt) : (x / 8).toInt = x.toInt / 8 := by
  have hlt := x.toInt_lt
  have height : (8 : Int32).toInt = 8 := rfl
  rw [Int32.toInt_div, height, Int.tdiv_eq_ediv_of_nonneg hpos]
  apply Int.bmod_eq_of_le <;> norm_num <;> omega

/-- The bytes of a number of pixels of some bits each. -/
theorem toInt_bits_bytes {iX iBpp : Int32} {x b : Nat} (hx : iX.toInt = x)
    (hbpp : iBpp.toInt = b) (hbits : x * b < 2 ^ 31) :
    (iX * iBpp / 8).toInt = ((x * b / 8 : Nat) : Int) := by
  have hprod : iX.toInt * iBpp.toInt = ((x * b : Nat) : Int) := by
    rw [hx, hbpp]
    push_cast
    rfl
  have hmul : (iX * iBpp).toInt = ((x * b : Nat) : Int) := by
    rw [toInt_mul_of_range] <;> omega
  rw [toInt_div_eight (by omega), hmul]
  omega

/-- The bytes of a number of pixels of whole bytes. -/
theorem toInt_pixel_bytes {iX iBpp : Int32} {x p : Nat} (hx : iX.toInt = x)
    (hbpp : iBpp.toInt = 8 * p) (hbits : x * (8 * p) < 2 ^ 31) :
    (iX * iBpp / 8).toInt = ((x * p : Nat) : Int) := by
  have hdepth : iBpp.toInt = ((8 * p : Nat) : Int) := by
    rw [hbpp]
    push_cast
    rfl
  have height : x * (8 * p) = 8 * (x * p) := by ring
  rw [toInt_bits_bytes hx hdepth hbits, height, Nat.mul_div_cancel_left _ (by decide)]

/-- The bytes of a negative number of bits. -/
theorem toInt_div_eight_nonpos {x : Int32} (hneg : x.toInt < 0) : (x / 8).toInt ≤ 0 := by
  have hle := x.le_toInt
  have height : (8 : Int32).toInt = 8 := rfl
  have hdiv : x.toInt.tdiv 8 = -((-x.toInt) / 8) := by
    rw [← Int.tdiv_eq_ediv_of_nonneg (by omega), Int.neg_tdiv, Int.neg_neg]
  rw [Int32.toInt_div, height, hdiv, Int.bmod_eq_of_le] <;> norm_num <;> omega

/-- Half of a difference that is not negative. -/
theorem toInt_half_sub {x y : Int32} (hpos : 0 ≤ y.toInt) (hle : y.toInt ≤ x.toInt) :
    ((x - y) / 2).toInt = (x.toInt - y.toInt) / 2 := by
  have hlt := x.toInt_lt
  have hsub : (x - y).toInt = x.toInt - y.toInt := by
    rw [Int32.toInt_sub]
    apply Int.bmod_eq_of_le <;> norm_num <;> omega
  have htwo : (2 : Int32).toInt = 2 := rfl
  rw [Int32.toInt_div, htwo, hsub, Int.tdiv_eq_ediv_of_nonneg (by omega)]
  apply Int.bmod_eq_of_le <;> norm_num <;> omega

/-- The unsigned value of an `int` that is not negative. -/
theorem toNat_toUInt32 {x : Int32} (hpos : 0 ≤ x.toInt) :
    (x.toUInt32.toNat : Int) = x.toInt := by
  have hcond := BitVec.toInt_eq_toNat_cond x.toBitVec
  have hint : x.toInt = x.toBitVec.toInt := rfl
  have hnat : x.toUInt32.toNat = x.toBitVec.toNat := rfl
  have hlt := x.toBitVec.isLt
  rw [hint] at hpos ⊢
  rw [hnat]
  rw [hcond] at hpos ⊢
  split
  · rfl
  · rename_i hneg
    rw [if_neg hneg] at hpos
    omega

/-- `toUInt32` of a number that is a natural one. -/
theorem toNat_of_toInt {x : Int32} {n : Nat} (h : x.toInt = n) : x.toUInt32.toNat = n := by
  have hx := toNat_toUInt32 (x := x) (by omega)
  omega

/-- An `int` whose unsigned value is small is that value. -/
theorem toInt_of_small {x : Int32} (hlt : x.toUInt32.toNat < 2 ^ 31) :
    x.toInt = (x.toUInt32.toNat : Int) := by
  have hcond := BitVec.toInt_eq_toNat_cond x.toBitVec
  have hint : x.toInt = x.toBitVec.toInt := rfl
  have hnat : x.toUInt32.toNat = x.toBitVec.toNat := rfl
  rw [hint, hcond, hnat, if_pos (by omega)]

/-- A number of 16 bits, taken as an `int`. -/
theorem toInt_of_uint16 (n : UInt16) : n.toUInt32.toInt32.toInt = n.toNat := by
  have hlt := n.toNat_lt
  have hwide : n.toUInt32.toNat = n.toNat := UInt16.toNat_toUInt32 n
  have hsame : n.toUInt32.toInt32.toUInt32 = n.toUInt32 := UInt32.toUInt32_toInt32 _
  rw [toInt_of_small (by rw [hsame]; omega), hsame, hwide]

/-- Rounding up to a multiple of four. -/
theorem toInt_align_four {x : Int32} {n : Nat} (hx : x.toInt = n) (hlt : n + 3 < 2 ^ 31) :
    ((x + 3) &&& ~~~3).toInt = ((n + 3) / 4 * 4 : Nat) := by
  have hthree : (3 : Int32).toInt = 3 := rfl
  have hsum : (x + 3).toInt = ((n + 3 : Nat) : Int) := by
    rw [toInt_add_of_range] <;> omega
  have hnat := toNat_toUInt32 (x := x + 3) (by omega)
  -- the mask is the one of two shifts, there and back
  have hmask : ((x + 3) &&& ~~~3).toBitVec = (x + 3).toBitVec >>> 2 <<< 2 := by
    rw [BitVec.shiftLeft_ushiftRight]
    rfl
  have hround : ((x + 3) &&& ~~~3).toUInt32.toNat = (n + 3) / 4 * 4 := by
    have hbits : ((x + 3) &&& ~~~3).toUInt32.toNat = ((x + 3) &&& ~~~3).toBitVec.toNat := rfl
    have hvalue : (x + 3).toBitVec.toNat = n + 3 := by
      have hdef : (x + 3).toUInt32.toNat = (x + 3).toBitVec.toNat := rfl
      omega
    rw [hbits, hmask, BitVec.toNat_shiftLeft, BitVec.toNat_ushiftRight, hvalue,
      Nat.shiftRight_eq_div_pow, Nat.shiftLeft_eq, Nat.mod_eq_of_lt (by omega)]
  rw [toInt_of_small (by omega), hround]

end CInt
