import Mathlib.Algebra.Order.Field.Rat
import Mathlib.Data.Int.Log
import Mathlib.Data.Rat.Floor
import Mathlib.Tactic

/-!
# Rounding to a binary floating-point number

A floating-point operation is the exact operation, rounded to the nearest number with
`prec` bits in its significand, and to the even one of two that are equally near.  Numbers
are rational here, and exponents have no bounds: the results hold wherever an operation
neither overflows nor leaves the normal range.

`ulp prec q` is the unit in which the significand of a number of the size of `q` is
counted.  Rounding is monotone on positive numbers (`fl_mono`), it keeps whole numbers that
fit into the significand (`fl_natCast`), and it changes a number by at most one part in
`2 ^ prec` (`fl_error`).
-/

namespace FloatRounding

/-! ## To the nearest integer -/

/-- The nearest integer, and the even one of two. -/
def roundEven (q : ℚ) : ℤ :=
  if q - ⌊q⌋ < 1 / 2 then ⌊q⌋
  else if 1 / 2 < q - ⌊q⌋ then ⌊q⌋ + 1
  else if ⌊q⌋ % 2 = 0 then ⌊q⌋
  else ⌊q⌋ + 1

/-- An integer next to `q` is chosen, and it is never the farther one. -/
theorem roundEven_cases (q : ℚ) :
    roundEven q = ⌊q⌋ ∧ q - ⌊q⌋ ≤ 1 / 2 ∨ roundEven q = ⌊q⌋ + 1 ∧ 1 / 2 ≤ q - ⌊q⌋ := by
  unfold roundEven
  split
  · rename_i hlow
    exact Or.inl ⟨rfl, hlow.le⟩
  · rename_i hlow
    split
    · rename_i hhigh
      exact Or.inr ⟨rfl, hhigh.le⟩
    · rename_i hhigh
      split
      · exact Or.inl ⟨rfl, not_lt.mp hhigh⟩
      · exact Or.inr ⟨rfl, not_lt.mp hlow⟩

/-- Rounding is off by at most half a unit. -/
theorem roundEven_error (q : ℚ) : |(roundEven q : ℚ) - q| ≤ 1 / 2 := by
  have hlow := Int.floor_le q
  have hhigh := Int.lt_floor_add_one q
  rw [abs_le]
  rcases roundEven_cases q with ⟨hround, hfract⟩ | ⟨hround, hfract⟩
  · rw [hround]
    constructor <;> linarith
  · rw [hround]
    push_cast
    constructor <;> linarith

/-- Integers are kept. -/
@[simp] theorem roundEven_intCast (n : ℤ) : roundEven n = n := by
  simp [roundEven]

/-- Rounding keeps the order, ties included. -/
theorem roundEven_mono {q q' : ℚ} (h : q ≤ q') : roundEven q ≤ roundEven q' := by
  have hfloor := Int.floor_mono h
  rcases roundEven_cases q with ⟨hround, hfract⟩ | ⟨hround, hfract⟩ <;>
    rcases roundEven_cases q' with ⟨hround', hfract'⟩ | ⟨hround', hfract'⟩
  · omega
  · omega
  · rcases hfloor.lt_or_eq with hlt | heq
    · omega
    · -- the same integer below both, and both exactly half-way: they are equal
      rw [heq] at hfract
      have hsame : q = q' := le_antisymm h (by linarith)
      rw [hsame]
  · omega

/-! ## To so many bits -/

/-- The last place of the significand of a number of the size of `q`. -/
def ulp (prec : ℕ) (q : ℚ) : ℚ := 2 ^ (Int.log 2 |q| - (prec - 1))

/-- The nearest number with `prec` bits. -/
def fl (prec : ℕ) (q : ℚ) : ℚ := roundEven (q / ulp prec q) * ulp prec q

variable {prec : ℕ} {q q' : ℚ}

/-- The last place always has a weight. -/
theorem ulp_pos (prec : ℕ) (q : ℚ) : 0 < ulp prec q := by
  unfold ulp
  positivity

/-- The weight of the last place of a positive number. -/
theorem ulp_of_pos (hq : 0 < q) : ulp prec q = 2 ^ (Int.log 2 q - (prec - 1)) := by
  rw [ulp, abs_of_pos hq]

/-- The significand has `prec` bits. -/
theorem significand_bounds (prec : ℕ) (hq : 0 < q) :
    (2 : ℚ) ^ ((prec : ℤ) - 1) ≤ q / ulp prec q ∧ q / ulp prec q < 2 ^ (prec : ℤ) := by
  have hlow : (2 : ℚ) ^ Int.log 2 q ≤ q := by
    exact_mod_cast Int.zpow_log_le_self (b := 2) Nat.one_lt_two hq
  have hhigh : q < (2 : ℚ) ^ (Int.log 2 q + 1) := by
    exact_mod_cast Int.lt_zpow_succ_log_self (b := 2) Nat.one_lt_two q
  have hulp := ulp_pos prec q
  constructor
  · have hexp : (prec : ℤ) - 1 + (Int.log 2 q - (prec - 1)) = Int.log 2 q := by ring
    rwa [le_div_iff₀ hulp, ulp_of_pos hq, ← zpow_add₀ two_ne_zero, hexp]
  · have hexp : (prec : ℤ) + (Int.log 2 q - (prec - 1)) = Int.log 2 q + 1 := by ring
    rwa [div_lt_iff₀ hulp, ulp_of_pos hq, ← zpow_add₀ two_ne_zero, hexp]

/-- A number is rounded within its power of two. -/
theorem fl_bounds (hprec : 1 ≤ prec) (hq : 0 < q) :
    (2 : ℚ) ^ Int.log 2 q ≤ fl prec q ∧ fl prec q ≤ 2 ^ (Int.log 2 q + 1) := by
  obtain ⟨hlow, hhigh⟩ := significand_bounds prec hq
  have hulp := ulp_pos prec q
  have hpow : ((2 ^ (prec - 1) : ℕ) : ℚ) = (2 : ℚ) ^ ((prec : ℤ) - 1) := by
    obtain ⟨n, rfl⟩ : ∃ n, prec = n + 1 := ⟨prec - 1, by omega⟩
    simp
  have hpow' : ((2 ^ prec : ℕ) : ℚ) = (2 : ℚ) ^ (prec : ℤ) := by simp
  constructor
  · have hround := roundEven_mono (hpow.trans_le hlow)
    rw [← Int.cast_natCast, roundEven_intCast] at hround
    calc (2 : ℚ) ^ Int.log 2 q = ((2 ^ (prec - 1) : ℕ) : ℤ) * ulp prec q := by
          rw [Int.cast_natCast, hpow, ulp_of_pos hq, ← zpow_add₀ two_ne_zero]
          congr 1
          ring
      _ ≤ fl prec q := mul_le_mul_of_nonneg_right (Int.cast_le.mpr hround) hulp.le
  · have hround := roundEven_mono (hhigh.le.trans_eq hpow'.symm)
    rw [← Int.cast_natCast, roundEven_intCast] at hround
    calc fl prec q ≤ ((2 ^ prec : ℕ) : ℤ) * ulp prec q :=
          mul_le_mul_of_nonneg_right (Int.cast_le.mpr hround) hulp.le
      _ = 2 ^ (Int.log 2 q + 1) := by
          rw [Int.cast_natCast, hpow', ulp_of_pos hq, ← zpow_add₀ two_ne_zero]
          congr 1
          ring

/-- A positive number is not rounded to zero. -/
theorem fl_pos (hprec : 1 ≤ prec) (hq : 0 < q) : 0 < fl prec q :=
  lt_of_lt_of_le (by positivity) (fl_bounds hprec hq).1

/-- **Rounding is monotone.** -/
theorem fl_mono (hprec : 1 ≤ prec) (hq : 0 < q) (h : q ≤ q') : fl prec q ≤ fl prec q' := by
  have hq' := hq.trans_le h
  rcases (Int.log_mono_right (b := 2) hq h).lt_or_eq with hlt | heq
  · -- different powers of two: one lies between the results
    calc fl prec q ≤ 2 ^ (Int.log 2 q + 1) := (fl_bounds hprec hq).2
      _ ≤ 2 ^ Int.log 2 q' := zpow_le_zpow_right₀ one_le_two (by omega)
      _ ≤ fl prec q' := (fl_bounds hprec hq').1
  · have hulp : ulp prec q = ulp prec q' := by rw [ulp_of_pos hq, ulp_of_pos hq', heq]
    unfold fl
    rw [hulp]
    have hpos := ulp_pos prec q'
    apply mul_le_mul_of_nonneg_right _ hpos.le
    exact Int.cast_le.mpr (roundEven_mono (div_le_div_of_nonneg_right h hpos.le))

/-- **Whole numbers that fit** are kept. -/
theorem fl_natCast {n : ℕ} (hpos : 0 < n) (hn : n < 2 ^ prec) : fl prec (n : ℚ) = n := by
  have hq : (0 : ℚ) < n := Nat.cast_pos.mpr hpos
  have hlog : Nat.log 2 n < prec := Nat.log_lt_of_lt_pow hpos.ne' hn
  have hulp : ulp prec (n : ℚ) = (2 ^ (prec - 1 - Nat.log 2 n) : ℚ)⁻¹ := by
    rw [ulp_of_pos hq, Int.log_natCast, ← zpow_natCast, ← zpow_neg]
    congr 1
    omega
  have hwhole : (n : ℚ) / ulp prec (n : ℚ) =
      ((n * 2 ^ (prec - 1 - Nat.log 2 n) : ℕ) : ℤ) := by
    rw [hulp, div_inv_eq_mul]
    push_cast
    rfl
  rw [fl, hwhole, roundEven_intCast, ← hwhole, div_mul_cancel₀ _ (ulp_pos prec _).ne']

/-- **The error of rounding** is at most one part in `2 ^ prec`. -/
theorem fl_error (hq : 0 < q) : |fl prec q - q| ≤ q / 2 ^ prec := by
  have hulp := ulp_pos prec q
  have hround := roundEven_error (q / ulp prec q)
  have hlow := (significand_bounds prec hq).1
  rw [le_div_iff₀ hulp, zpow_sub₀ two_ne_zero, zpow_one, zpow_natCast] at hlow
  have hdiff : fl prec q - q = (roundEven (q / ulp prec q) - q / ulp prec q) * ulp prec q := by
    rw [fl, sub_mul, div_mul_cancel₀ _ hulp.ne']
  rw [hdiff, abs_mul, abs_of_pos hulp]
  calc |(roundEven (q / ulp prec q) : ℚ) - q / ulp prec q| * ulp prec q
      ≤ 1 / 2 * ulp prec q := mul_le_mul_of_nonneg_right hround hulp.le
    _ ≤ q / 2 ^ prec := by
        rw [le_div_iff₀ (by positivity)]
        calc 1 / 2 * ulp prec q * 2 ^ prec = 2 ^ prec / 2 * ulp prec q := by ring
          _ ≤ q := hlow

end FloatRounding
