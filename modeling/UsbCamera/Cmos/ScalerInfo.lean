import UsbCamera.Cmos.Camif
import Mathlib.Data.Nat.Log

/-!
# The settings of the scaler

The camera interface scales in two stages: a pre-scaler that divides by a power
of two, and a main scaler whose ratio is a number with eight binary places.  Here
the two are said in their own terms.  The pre-scaler divides by `2 ^ preShift`,
the largest power of two that keeps the picture at least as large as the target;
the main scaler does what is left, `mainRatio / 256`.

`calculateScalerInfo_eq` connects them with the driver: where the target is more
than a 64th of the source, and the sizes leave room for the shifts, the driver
computes exactly these settings, whatever its record held before.  So it splits
every such scaling between the stages as it should be
(`two_stage_decomposition`).
-/

namespace Cmos

/-- The pre-scaler divides by two to this power. -/
def preShift (src tar : Nat) : Nat := Nat.log 2 (src / tar)

/-- The ratio left to the main scaler, in 256ths. -/
def mainRatio (src tar : Nat) : Nat := 256 * src / (2 ^ preShift src tar * tar)

/-- The settings for a source of `sx` by `sy` and a target of `tx` by `ty`. -/
def scalerFor (sx sy tx ty : Nat) : Scaler where
  preHorRatio := BitVec.ofNat 32 (2 ^ preShift sx tx)
  preVerRatio := BitVec.ofNat 32 (2 ^ preShift sy ty)
  hShift := BitVec.ofNat 32 (preShift sx tx)
  vShift := BitVec.ofNat 32 (preShift sy ty)
  preDstWidth := BitVec.ofNat 32 (sx / 2 ^ preShift sx tx)
  preDstHeight := BitVec.ofNat 32 (sy / 2 ^ preShift sy ty)
  mainHorRatio := BitVec.ofNat 32 (mainRatio sx tx)
  mainVerRatio := BitVec.ofNat 32 (mainRatio sy ty)
  shFactor := BitVec.ofNat 32 (10 - (preShift sx tx + preShift sy ty))
  scaleUpDown := if tx ≥ sx then 1#32 else 0#32

/-! ## The two stages -/

/-- The shift is known by the two powers of two around the quotient. -/
theorem preShift_eq {src tar k : Nat} (htar : 0 < tar) (hlow : 2 ^ k * tar ≤ src)
    (hhigh : src < 2 ^ (k + 1) * tar) : preShift src tar = k := by
  apply Nat.log_eq_of_pow_le_of_lt_pow
  · exact (Nat.le_div_iff_mul_le htar).mpr hlow
  · exact (Nat.div_lt_iff_lt_mul htar).mpr hhigh

/-- A target larger than half the source is left to the main scaler. -/
theorem preShift_eq_zero {src tar : Nat} (hhigh : src < 2 * tar) : preShift src tar = 0 := by
  apply Nat.log_of_lt
  exact (Nat.div_lt_iff_lt_mul (by omega)).mpr hhigh

/-- The next power of two is too large for the pre-scaler. -/
theorem lt_preShift {src tar : Nat} (htar : 0 < tar) :
    src < 2 * (2 ^ preShift src tar * tar) := by
  have hlog : src / tar < 2 ^ (preShift src tar + 1) :=
    Nat.lt_pow_succ_log_self (by omega) (src / tar)
  have hsrc := (Nat.div_lt_iff_lt_mul htar).mp hlog
  calc src < 2 ^ (preShift src tar + 1) * tar := hsrc
    _ = 2 * (2 ^ preShift src tar * tar) := by ring

/-- The pre-scaler leaves at least the target, where the source has that much. -/
theorem preShift_mul_le {src tar : Nat} (htar : 0 < tar) (hle : tar ≤ src) :
    2 ^ preShift src tar * tar ≤ src := by
  have hquot : src / tar ≠ 0 := by
    have hone : 1 ≤ src / tar := (Nat.le_div_iff_mul_le htar).mpr (by omega)
    omega
  exact (Nat.le_div_iff_mul_le htar).mp (Nat.pow_log_le_self 2 hquot)

/-- A target above a 64th of the source needs at most five halvings. -/
theorem preShift_le_five {src tar : Nat} (hsrc : src < 64 * tar) : preShift src tar ≤ 5 := by
  have hquot : src / tar < 2 ^ 6 := (Nat.div_lt_iff_lt_mul (by omega)).mpr hsrc
  have hlog := Nat.log_lt_of_lt_pow' (by omega) hquot
  unfold preShift
  omega

/-- The main ratio fits the nine bits of its field. -/
theorem mainRatio_lt {src tar : Nat} (htar : 0 < tar) : mainRatio src tar < 2 ^ 9 := by
  have hpow : 0 < 2 ^ preShift src tar * tar := by positivity
  have hsrc : src < 2 * (2 ^ preShift src tar * tar) := lt_preShift htar
  apply (Nat.div_lt_iff_lt_mul hpow).mpr
  omega

/-- One direction of the scaling, from `src` to `tar`, is split between the two
stages as it should be.  The pre-scaler divides by the largest power of two that
leaves the target, or by one, and the main scaler has a ratio from one to two
where it scales down and below one where it scales up. -/
structure Splits (src tar ratio shift preDst main : Nat) : Prop where
  power : ratio = 2 ^ shift
  shift_le : shift ≤ 5
  largest : tar ≤ src → IsGreatest {r | (∃ k, r = 2 ^ k) ∧ r * tar ≤ src} ratio
  unscaled : src < tar → ratio = 1
  preDst_eq : preDst = src / ratio
  preDst_ge : tar ≤ src → tar ≤ preDst
  main_eq : main = 256 * src / (ratio * tar)
  main_down : tar ≤ src → 256 ≤ main ∧ main ≤ 511
  main_up : src < tar → main < 256

/-- No larger power of two leaves the target. -/
theorem isGreatest_preShift {src tar : Nat} (htar : 0 < tar) (hle : tar ≤ src) :
    IsGreatest {r | (∃ k, r = 2 ^ k) ∧ r * tar ≤ src} (2 ^ preShift src tar) := by
  refine ⟨⟨⟨_, rfl⟩, preShift_mul_le htar hle⟩, ?_⟩
  intro r hr
  obtain ⟨⟨k, rfl⟩, hk⟩ := hr
  apply Nat.pow_le_pow_right (by omega)
  apply Nat.le_log_of_pow_le (by omega)
  exact (Nat.le_div_iff_mul_le htar).mpr hk

/-- The two stages split every scaling down to more than a 64th. -/
theorem splits_preShift {src tar : Nat} (hsrc : src < 64 * tar) :
    Splits src tar (2 ^ preShift src tar) (preShift src tar) (src / 2 ^ preShift src tar)
      (mainRatio src tar) where
  power := rfl
  shift_le := preShift_le_five hsrc
  largest := isGreatest_preShift (by omega)
  unscaled := by
    intro hlt
    rw [preShift_eq_zero (by omega), Nat.pow_zero]
  preDst_eq := rfl
  preDst_ge := by
    intro hle
    have hmul := preShift_mul_le (by omega) hle
    rw [Nat.mul_comm] at hmul
    exact (Nat.le_div_iff_mul_le (by positivity)).mpr hmul
  main_eq := rfl
  main_down := by
    intro hle
    have htar : 0 < tar := by omega
    have hmul := preShift_mul_le htar hle
    have hlt : mainRatio src tar < 2 ^ 9 := mainRatio_lt htar
    refine ⟨?_, by omega⟩
    apply (Nat.le_div_iff_mul_le (by positivity)).mpr
    omega
  main_up := by
    intro hlt
    rw [mainRatio, preShift_eq_zero (by omega), Nat.pow_zero, Nat.one_mul]
    apply (Nat.div_lt_iff_lt_mul (by omega)).mpr
    omega

/-! ## What the driver computes -/

section Words

variable {src tar ratio shift : BitVec 32}

theorem toNat_ofNat_of_lt {x : Nat} (hx : x < 2 ^ 32) : (BitVec.ofNat 32 x).toNat = x := by
  rw [BitVec.toNat_ofNat, Nat.mod_eq_of_lt hx]

/-- The products in `camif_get_scaler_factor` do not wrap on small targets. -/
theorem toNat_ofNat_mul {c : Nat} (hc : c ≤ 64) (htar : tar.toNat < 2 ^ 26) :
    (BitVec.ofNat 32 c * tar).toNat = c * tar.toNat := by
  have hprod : c * tar.toNat < 2 ^ 32 := by nlinarith
  rw [BitVec.toNat_mul, toNat_ofNat_of_lt (by omega), Nat.mod_eq_of_lt hprod]

/-- So its comparisons are those of the numbers. -/
theorem ge_mul_iff {c : Nat} (hc : c ≤ 64) (htar : tar.toNat < 2 ^ 26) :
    src ≥ BitVec.ofNat 32 c * tar ↔ c * tar.toNat ≤ src.toNat := by
  rw [ge_iff_le, BitVec.le_def, toNat_ofNat_mul hc htar]

/-- The chain of comparisons finds the power of two. -/
theorem camifGetScalerFactor_eq (htar : tar.toNat < 2 ^ 26) (hsrc : src.toNat < 64 * tar.toNat) :
    camifGetScalerFactor src tar ratio shift =
      (BitVec.ofNat 32 (2 ^ preShift src.toNat tar.toNat),
        BitVec.ofNat 32 (preShift src.toNat tar.toNat)) := by
  have hpos : 0 < tar.toNat := by omega
  unfold camifGetScalerFactor
  simp only [ge_mul_iff (by omega : 64 ≤ 64) htar, ge_mul_iff (by omega : 32 ≤ 64) htar,
    ge_mul_iff (by omega : 16 ≤ 64) htar, ge_mul_iff (by omega : 8 ≤ 64) htar,
    ge_mul_iff (by omega : 4 ≤ 64) htar, ge_mul_iff (by omega : 2 ≤ 64) htar]
  split
  · omega
  split
  · rw [preShift_eq (k := 5) hpos (by omega) (by omega)]
    rfl
  split
  · rw [preShift_eq (k := 4) hpos (by omega) (by omega)]
    rfl
  split
  · rw [preShift_eq (k := 3) hpos (by omega) (by omega)]
    rfl
  split
  · rw [preShift_eq (k := 2) hpos (by omega) (by omega)]
    rfl
  split
  · rw [preShift_eq (k := 1) hpos (by omega) (by omega)]
    rfl
  · rw [preShift_eq_zero (by omega)]
    rfl

theorem toNat_preShift (hsrc : src.toNat < 64 * tar.toNat) :
    (BitVec.ofNat 32 (preShift src.toNat tar.toNat)).toNat = preShift src.toNat tar.toNat := by
  have hfive := preShift_le_five hsrc
  exact toNat_ofNat_of_lt (by omega)

theorem toNat_preRatio (hsrc : src.toNat < 64 * tar.toNat) :
    (BitVec.ofNat 32 (2 ^ preShift src.toNat tar.toNat)).toNat =
      2 ^ preShift src.toNat tar.toNat := by
  have hfive := preShift_le_five hsrc
  exact toNat_ofNat_of_lt (Nat.pow_lt_pow_right (by omega) (by omega))

/-- A division by a number that is not zero does not fault. -/
theorem divide_eq {x y : BitVec 32} (hy : 0 < y.toNat) :
    divide x y = .ok (BitVec.ofNat 32 (x.toNat / y.toNat)) := by
  have hne : y ≠ 0#32 := by
    rintro rfl
    simp at hy
  unfold divide
  rw [if_neg hne]
  congr 1
  apply BitVec.eq_of_toNat_eq
  rw [BitVec.toNat_udiv, BitVec.toNat_ofNat, Nat.mod_eq_of_lt]
  exact lt_of_le_of_lt (Nat.div_le_self _ _) x.isLt

/-- Only such a division gives a result. -/
theorem divide_ok {x y z : BitVec 32} (h : divide x y = .ok z) : y ≠ 0#32 := by
  intro hy
  simp [divide, hy] at h

/-- A shift to the left that does not wrap is a multiplication. -/
theorem toNat_shiftLeft_of_lt {x : BitVec 32} {k : Nat} (hx : x.toNat * 2 ^ k < 2 ^ 32) :
    (x <<< k).toNat = x.toNat * 2 ^ k := by
  rw [BitVec.toNat_shiftLeft, Nat.shiftLeft_eq, Nat.mod_eq_of_lt hx]

/-- The pre-scaled size. -/
theorem divide_preScale (hsrc : src.toNat < 64 * tar.toNat) :
    divide src (BitVec.ofNat 32 (2 ^ preShift src.toNat tar.toNat)) =
      .ok (BitVec.ofNat 32 (src.toNat / 2 ^ preShift src.toNat tar.toNat)) := by
  have hpow := toNat_preRatio hsrc
  rw [divide_eq (by rw [hpow]; positivity), hpow]

/-- The main ratio. -/
theorem divide_mainRatio (hsmall : src.toNat < 2 ^ 24) (htar : tar.toNat < 2 ^ 26)
    (hsrc : src.toNat < 64 * tar.toNat) :
    divide (src <<< 8) (tar <<< (BitVec.ofNat 32 (preShift src.toNat tar.toNat)).toNat) =
      .ok (BitVec.ofNat 32 (mainRatio src.toNat tar.toNat)) := by
  have hfive := preShift_le_five hsrc
  have hpow : 2 ^ preShift src.toNat tar.toNat ≤ 2 ^ 5 := Nat.pow_le_pow_right (by omega) hfive
  have hnum : (src <<< 8).toNat = src.toNat * 2 ^ 8 := toNat_shiftLeft_of_lt (by omega)
  have hden : (tar <<< preShift src.toNat tar.toNat).toNat =
      tar.toNat * 2 ^ preShift src.toNat tar.toNat := toNat_shiftLeft_of_lt (by nlinarith)
  have hpos : 0 < tar.toNat * 2 ^ preShift src.toNat tar.toNat :=
    Nat.mul_pos (by omega) (by positivity)
  rw [toNat_preShift hsrc, divide_eq (by rw [hden]; exact hpos), hnum, hden, mainRatio,
    Nat.mul_comm src.toNat, Nat.mul_comm tar.toNat]
  rfl

end Words

/-- **Scaler settings.**  Where the target is more than a 64th of the source in
both directions, the driver computes the settings of the two stages, and its
record's earlier content does not matter. -/
theorem calculateScalerInfo_eq {sx sy tx ty : BitVec 32} (sc : Scaler)
    (hsx : sx.toNat < 2 ^ 24) (hsy : sy.toNat < 2 ^ 24)
    (htx : tx.toNat < 2 ^ 26) (hty : ty.toNat < 2 ^ 26)
    (hx : sx.toNat < 64 * tx.toNat) (hy : sy.toNat < 64 * ty.toNat) :
    calculateScalerInfo sx sy tx ty sc =
      .ok (scalerFor sx.toNat sy.toNat tx.toNat ty.toNat) := by
  have hfiveX := preShift_le_five hx
  have hfiveY := preShift_le_five hy
  have hfactor : 10#32 - (BitVec.ofNat 32 (preShift sx.toNat tx.toNat) +
      BitVec.ofNat 32 (preShift sy.toNat ty.toNat)) =
      BitVec.ofNat 32 (10 - (preShift sx.toNat tx.toNat + preShift sy.toNat ty.toNat)) := by
    generalize preShift sx.toNat tx.toNat = a at hfiveX
    generalize preShift sy.toNat ty.toNat = b at hfiveY
    interval_cases a <;> interval_cases b <;> rfl
  unfold calculateScalerInfo scalerFor
  simp only [camifGetScalerFactor_eq htx hx, camifGetScalerFactor_eq hty hy,
    divide_preScale hx, divide_preScale hy, divide_mainRatio hsx htx hx,
    divide_mainRatio hsy hty hy, hfactor, ge_iff_le, BitVec.le_def]
  rfl

/-- The numbers of a direction fit their words. -/
theorem splits_words {src tar : BitVec 32} (hsrc : src.toNat < 64 * tar.toNat) :
    Splits src.toNat tar.toNat (BitVec.ofNat 32 (2 ^ preShift src.toNat tar.toNat)).toNat
      (BitVec.ofNat 32 (preShift src.toNat tar.toNat)).toNat
      (BitVec.ofNat 32 (src.toNat / 2 ^ preShift src.toNat tar.toNat)).toNat
      (BitVec.ofNat 32 (mainRatio src.toNat tar.toNat)).toNat := by
  have hmain : mainRatio src.toNat tar.toNat < 2 ^ 9 := mainRatio_lt (by omega)
  have hdst : src.toNat / 2 ^ preShift src.toNat tar.toNat < 2 ^ 32 :=
    lt_of_le_of_lt (Nat.div_le_self _ _) src.isLt
  rw [toNat_preRatio hsrc, toNat_preShift hsrc, toNat_ofNat_of_lt hdst,
    toNat_ofNat_of_lt (by omega)]
  exact splits_preShift hsrc

/-- No operation that leads to the settings of one direction wraps. -/
structure Exact (src tar shift : BitVec 32) : Prop where
  products : ∀ c ∈ [2, 4, 8, 16, 32, 64], (BitVec.ofNat 32 c * tar).toNat = c * tar.toNat
  numerator : (src <<< 8).toNat = 256 * src.toNat
  denominator : (tar <<< shift.toNat).toNat = 2 ^ shift.toNat * tar.toNat

theorem exact_preShift {src tar : BitVec 32} (hsmall : src.toNat < 2 ^ 24)
    (htar : tar.toNat < 2 ^ 26) (hsrc : src.toNat < 64 * tar.toNat) :
    Exact src tar (BitVec.ofNat 32 (preShift src.toNat tar.toNat)) where
  products := by
    intro c hc
    have hle : c ≤ 64 := by
      revert c
      decide
    exact toNat_ofNat_mul hle htar
  numerator := by
    rw [toNat_shiftLeft_of_lt (by omega), Nat.mul_comm]
    rfl
  denominator := by
    have hfive := preShift_le_five hsrc
    have hpow : 2 ^ preShift src.toNat tar.toNat ≤ 2 ^ 5 := Nat.pow_le_pow_right (by omega) hfive
    rw [toNat_preShift hsrc, toNat_shiftLeft_of_lt (by nlinarith), Nat.mul_comm]

/-- **The two stages.**  For all sizes below `2 ^ 16` with a target above a 64th of
the source, the driver splits the scaling of each direction between the stages as
it should be, whatever its record held before, and nothing on the way wraps. -/
theorem two_stage_decomposition {sx sy tx ty : BitVec 32} (sc : Scaler)
    (hsx : 1 ≤ sx.toNat ∧ sx.toNat ≤ 65535) (hsy : 1 ≤ sy.toNat ∧ sy.toNat ≤ 65535)
    (htx : 1 ≤ tx.toNat ∧ tx.toNat ≤ 65535) (hty : 1 ≤ ty.toNat ∧ ty.toNat ≤ 65535)
    (hx : sx.toNat < 64 * tx.toNat) (hy : sy.toNat < 64 * ty.toNat) :
    ∃ info, calculateScalerInfo sx sy tx ty sc = .ok info ∧
      camifGetScalerFactor sx tx sc.preHorRatio sc.hShift = (info.preHorRatio, info.hShift) ∧
      camifGetScalerFactor sy ty sc.preVerRatio sc.vShift = (info.preVerRatio, info.vShift) ∧
      Splits sx.toNat tx.toNat info.preHorRatio.toNat info.hShift.toNat info.preDstWidth.toNat
        info.mainHorRatio.toNat ∧
      Splits sy.toNat ty.toNat info.preVerRatio.toNat info.vShift.toNat info.preDstHeight.toNat
        info.mainVerRatio.toNat ∧
      info.shFactor.toNat + (info.hShift.toNat + info.vShift.toNat) = 10 ∧
      Exact sx tx info.hShift ∧ Exact sy ty info.vShift ∧
      (info.hShift + info.vShift).toNat = info.hShift.toNat + info.vShift.toNat := by
  refine ⟨_, calculateScalerInfo_eq sc (by omega) (by omega) (by omega) (by omega) hx hy,
    camifGetScalerFactor_eq (by omega) hx, camifGetScalerFactor_eq (by omega) hy, ?_, ?_, ?_,
    exact_preShift (by omega) (by omega) hx, exact_preShift (by omega) (by omega) hy, ?_⟩
  · exact splits_words hx
  · exact splits_words hy
  · simp only [scalerFor, toNat_preShift hx, toNat_preShift hy]
    rw [toNat_ofNat_of_lt (by omega)]
    have hfiveX := preShift_le_five hx
    have hfiveY := preShift_le_five hy
    omega
  · simp only [scalerFor, BitVec.toNat_add, toNat_preShift hx, toNat_preShift hy]
    have hfiveX := preShift_le_five hx
    have hfiveY := preShift_le_five hy
    omega

/-- The sensor's picture on a display of 480 by 272. -/
theorem two_stages_of_display :
    ∃ info, calculateScalerInfo 640#32 480#32 480#32 272#32 {} = .ok info ∧
      Splits 640 480 info.preHorRatio.toNat info.hShift.toNat info.preDstWidth.toNat
        info.mainHorRatio.toNat := by
  have hsx : 1 ≤ (640#32).toNat ∧ (640#32).toNat ≤ 65535 := by decide
  have hsy : 1 ≤ (480#32).toNat ∧ (480#32).toNat ≤ 65535 := by decide
  have hty : 1 ≤ (272#32).toNat ∧ (272#32).toNat ≤ 65535 := by decide
  obtain ⟨info, hinfo, -, -, hsplit, -⟩ :=
    two_stage_decomposition {} hsx hsy hsy hty (by decide) (by decide)
  exact ⟨info, hinfo, hsplit⟩

/-- The driver gets to its settings only by four divisions by numbers that are not
zero. -/
theorem calculateScalerInfo_ok {sx sy tx ty : BitVec 32} {sc info : Scaler}
    (hinfo : calculateScalerInfo sx sy tx ty sc = .ok info) :
    (camifGetScalerFactor sx tx sc.preHorRatio sc.hShift).1 ≠ 0#32 ∧
      (camifGetScalerFactor sy ty sc.preVerRatio sc.vShift).1 ≠ 0#32 ∧
      tx <<< (camifGetScalerFactor sx tx sc.preHorRatio sc.hShift).2.toNat ≠ 0#32 ∧
      ty <<< (camifGetScalerFactor sy ty sc.preVerRatio sc.vShift).2.toNat ≠ 0#32 := by
  unfold calculateScalerInfo at hinfo
  simp only [FaultRun.bind_eq_ok] at hinfo
  obtain ⟨_, hwidth, _, hheight, _, hhor, _, hver, -⟩ := hinfo
  exact ⟨divide_ok hwidth, divide_ok hheight, divide_ok hhor, divide_ok hver⟩

/-- For a target of no width the main ratio is a division by zero, if not already
the pre-scaled size is. -/
theorem calculateScalerInfo_zero_width {sx sy ty : BitVec 32} {sc info : Scaler} :
    calculateScalerInfo sx sy 0#32 ty sc ≠ .ok info := by
  intro hinfo
  obtain ⟨-, -, hwidth, -⟩ := calculateScalerInfo_ok hinfo
  exact hwidth (BitVec.zero_shiftLeft _)

end Cmos
