import UsbCamera.Base.FloatRounding
import UsbCamera.Video2lcd.Display

/-!
# The size of a scaled picture

A frame that is larger than the screen is scaled down with its proportions kept.  `main`
computes the new size with a `float k`, the height of the frame over its width: the width
becomes the screen's and the height `iLcdWidth * k`, or, where that is too high, the height
becomes the screen's and the width `iLcdHeigt / k`.  Three roundings to 24 bits go into a
size, and two truncations to `int`.

The size nevertheless fits the screen, in both cases.  In the second one the question is
whether `iLcdHeigt / k` may come out wider than the screen although `iLcdWidth * k` came out
higher.  It cannot, because rounding is monotone and keeps the sizes of the screen.  And the
truncated side is less than one pixel and a sixty-fourth away from the exact proportion.
-/

namespace Video2lcd

open FloatRounding

/-- The bits in the significand of a `float`. -/
def FLT_MANT_DIG : ℕ := 24

/-- `(float) n` -/
def toFloat (n : Int32) : ℚ := fl FLT_MANT_DIG n.toInt

/-- The conversion of a `float` back to `int`. -/
def truncToInt (q : ℚ) : Int32 := Int32.ofInt (q.num.tdiv q.den)

/-- `main`'s size of a picture that does not fit the screen.  Each operation on `float`
operands rounds to a `float`. -/
def scaleToScreen : Scale := fun iWidth iHeight iLcdWidth iLcdHeigt =>
  let k := fl FLT_MANT_DIG (toFloat iHeight / toFloat iWidth)
  let iZoomHeight := truncToInt (fl FLT_MANT_DIG (toFloat iLcdWidth * k))
  if iZoomHeight > iLcdHeigt then
    (truncToInt (fl FLT_MANT_DIG (toFloat iLcdHeigt / k)), iLcdHeigt)
  else (iLcdWidth, iZoomHeight)

theorem one_le_mantDig : 1 ≤ FLT_MANT_DIG := by decide

/-- Numbers below `2 ^ 24` are `float`s. -/
theorem fl_small {n : ℕ} (hpos : 0 < n) (hn : n < 2 ^ 24) : fl FLT_MANT_DIG (n : ℚ) = n :=
  fl_natCast hpos hn

/-- So a size is converted without an error. -/
theorem toFloat_eq {i : Int32} {n : ℕ} (hi : i.toInt = n) (hpos : 0 < n) (hn : n < 2 ^ 24) :
    toFloat i = n := by
  rw [toFloat, hi]
  exact_mod_cast fl_small hpos hn

/-- The conversion back cuts off the fraction. -/
theorem toInt_truncToInt {q : ℚ} (hpos : 0 ≤ q) (hlt : q < 2 ^ 31) :
    ∃ n : ℕ, (truncToInt q).toInt = n ∧ (n : ℚ) ≤ q ∧ q < n + 1 := by
  have hfloor : q.num.tdiv q.den = ⌊q⌋ := by
    rw [Int.tdiv_eq_ediv_of_nonneg (Rat.num_nonneg.mpr hpos), Rat.floor_def']
  obtain ⟨n, hn⟩ := Int.eq_ofNat_of_zero_le (Int.floor_nonneg.mpr hpos)
  have hlow : (n : ℚ) ≤ q := by exact_mod_cast hn ▸ Int.floor_le q
  have hhigh : q < n + 1 := by exact_mod_cast hn ▸ Int.lt_floor_add_one q
  refine ⟨n, ?_, hlow, hhigh⟩
  have hsmall : (n : ℚ) < 2 ^ 31 := hlow.trans_lt hlt
  have hsmall' : n < 2 ^ 31 := by exact_mod_cast hsmall
  rw [truncToInt, hfloor, hn, Int32.toInt_ofInt, Int.bmod_eq_of_le] <;> norm_num
  omega

/-- The sizes of a picture and of the screen, as `main` has them. -/
structure Sizes (iWidth iHeight iLcdWidth iLcdHeigt : Int32) (w h W H : ℕ) : Prop where
  width : iWidth.toInt = w
  height : iHeight.toInt = h
  lcdWidth : iLcdWidth.toInt = W
  lcdHeight : iLcdHeigt.toInt = H
  width_pos : 0 < w
  height_pos : 0 < h
  lcdWidth_pos : 0 < W
  lcdHeight_pos : 0 < H
  width_lt : w < 2 ^ 16
  height_lt : h < 2 ^ 16
  lcdWidth_lt : W < 2 ^ 15
  lcdHeight_lt : H < 2 ^ 15

section
variable {iWidth iHeight iLcdWidth iLcdHeigt : Int32} {w h W H : ℕ}

/-- `k`, and how far it is from the exact proportion. -/
theorem Sizes.ratio (s : Sizes iWidth iHeight iLcdWidth iLcdHeigt w h W H) :
    ∃ k : ℚ, fl FLT_MANT_DIG (toFloat iHeight / toFloat iWidth) = k ∧ 0 < k ∧ k ≤ h ∧
      |k - h / w| ≤ h / w / 2 ^ 24 := by
  have hw : (0 : ℚ) < w := Nat.cast_pos.mpr s.width_pos
  have hh : (0 : ℚ) < h := Nat.cast_pos.mpr s.height_pos
  have hw1 : (1 : ℚ) ≤ w := Nat.one_le_cast.mpr s.width_pos
  have hsmall := s.width_lt
  have hsmall' := s.height_lt
  have hr : (0 : ℚ) < h / w := div_pos hh hw
  have hle : (h : ℚ) / w ≤ h := div_le_self hh.le hw1
  rw [toFloat_eq s.width s.width_pos (by omega), toFloat_eq s.height s.height_pos (by omega)]
  refine ⟨_, rfl, fl_pos one_le_mantDig hr, ?_, fl_error hr⟩
  calc fl FLT_MANT_DIG ((h : ℚ) / w) ≤ fl FLT_MANT_DIG h := fl_mono one_le_mantDig hr hle
    _ = h := fl_small s.height_pos (by omega)

/-- The height for the full width. -/
theorem Sizes.zoomHeight (s : Sizes iWidth iHeight iLcdWidth iLcdHeigt w h W H) {k : ℚ}
    (hk : 0 < k) (hkh : k ≤ h) :
    0 < (W : ℚ) * k ∧ ∃ n : ℕ,
      (truncToInt (fl FLT_MANT_DIG (toFloat iLcdWidth * k))).toInt = n ∧
      (n : ℚ) ≤ fl FLT_MANT_DIG (W * k) ∧ fl FLT_MANT_DIG (W * k) < n + 1 := by
  have hsmall := s.lcdWidth_lt
  have hW : (W : ℚ) ≤ 32767 := by exact_mod_cast Nat.le_of_lt_succ hsmall
  have hh : (h : ℚ) ≤ 65535 := by exact_mod_cast Nat.le_of_lt_succ s.height_lt
  have hprod : 0 < (W : ℚ) * k := mul_pos (Nat.cast_pos.mpr s.lcdWidth_pos) hk
  have hbound : (W : ℚ) * k ≤ 32767 * 65535 := mul_le_mul hW (hkh.trans hh) hk.le (by norm_num)
  have herror : |fl FLT_MANT_DIG (W * k) - W * k| ≤ W * k / 2 ^ 24 := fl_error hprod
  have hlt : fl FLT_MANT_DIG (W * k) < 2 ^ 31 := by
    have hup := (abs_le.mp herror).2
    linarith
  rw [toFloat_eq s.lcdWidth s.lcdWidth_pos (by omega)]
  exact ⟨hprod, toInt_truncToInt (fl_pos one_le_mantDig hprod).le hlt⟩

/-- The width for the full height, where the height for the full width is too large. -/
theorem Sizes.zoomWidth (s : Sizes iWidth iHeight iLcdWidth iLcdHeigt w h W H) {k : ℚ}
    (hk : 0 < k) (hhigh : (H : ℚ) < fl FLT_MANT_DIG (W * k)) :
    0 < (H : ℚ) / k ∧ (H : ℚ) / k ≤ W ∧ ∃ n : ℕ,
      (truncToInt (fl FLT_MANT_DIG (toFloat iLcdHeigt / k))).toInt = n ∧ n ≤ W ∧
      (n : ℚ) ≤ fl FLT_MANT_DIG (H / k) ∧ fl FLT_MANT_DIG (H / k) < n + 1 := by
  have hsmall := s.lcdWidth_lt
  have hsmall' := s.lcdHeight_lt
  have hW : (0 : ℚ) < W := Nat.cast_pos.mpr s.lcdWidth_pos
  have hH : (0 : ℚ) < H := Nat.cast_pos.mpr s.lcdHeight_pos
  -- were `W * k` at most `H`, it would have been rounded to `H` at most
  have hle : (H : ℚ) ≤ W * k := by
    by_contra hless
    have hround := fl_mono one_le_mantDig (mul_pos hW hk) (not_le.mp hless).le
    rw [fl_small s.lcdHeight_pos (by omega)] at hround
    linarith
  have hquot : (H : ℚ) / k ≤ W := (div_le_iff₀ hk).mpr hle
  have hpos : 0 < (H : ℚ) / k := div_pos hH hk
  have hround : fl FLT_MANT_DIG ((H : ℚ) / k) ≤ W := by
    have hmono := fl_mono one_le_mantDig hpos hquot
    rwa [fl_small s.lcdWidth_pos (by omega)] at hmono
  have hWlt : (W : ℚ) < 2 ^ 31 := by
    have hcast : (W : ℚ) < 2 ^ 15 := by exact_mod_cast hsmall
    linarith
  rw [toFloat_eq s.lcdHeight s.lcdHeight_pos (by omega)]
  obtain ⟨n, hn, hlow, hup⟩ :=
    toInt_truncToInt (fl_pos one_le_mantDig hpos).le (hround.trans_lt hWlt)
  exact ⟨hpos, hquot, n, hn, by exact_mod_cast hlow.trans hround, hlow, hup⟩

/-- The two branches of `scaleToScreen`: the width of the screen and what its height comes to,
or the height of the screen and what its width comes to. -/
theorem Sizes.scaleToScreen_cases (s : Sizes iWidth iHeight iLcdWidth iLcdHeigt w h W H) :
    ∃ (k : ℚ) (w' h' : ℕ), 0 < k ∧ |k - h / w| ≤ h / w / 2 ^ 24 ∧
      (scaleToScreen iWidth iHeight iLcdWidth iLcdHeigt).1.toInt = w' ∧
      (scaleToScreen iWidth iHeight iLcdWidth iLcdHeigt).2.toInt = h' ∧ w' ≤ W ∧ h' ≤ H ∧
      (w' = W ∧ (h' : ℚ) ≤ fl FLT_MANT_DIG (W * k) ∧ fl FLT_MANT_DIG (W * k) < h' + 1 ∨
        h' = H ∧ (H : ℚ) / k ≤ W ∧ (w' : ℚ) ≤ fl FLT_MANT_DIG (H / k) ∧
          fl FLT_MANT_DIG (H / k) < w' + 1) := by
  obtain ⟨k, hkdef, hk, hkh, herror⟩ := s.ratio
  obtain ⟨-, n, hn, hlow, hup⟩ := s.zoomHeight hk hkh
  simp only [scaleToScreen, hkdef]
  by_cases hhigh : truncToInt (fl FLT_MANT_DIG (toFloat iLcdWidth * k)) > iLcdHeigt
  · have hlt : (H : ℤ) < n := by
      rw [← s.lcdHeight, ← hn]
      exact Int32.lt_iff_toInt_lt.mp hhigh
    have hlt' : (H : ℚ) < n := by exact_mod_cast hlt
    obtain ⟨-, hquot, m, hm, hmW, hmlow, hmup⟩ := s.zoomWidth hk (hlt'.trans_le hlow)
    rw [if_pos hhigh]
    exact ⟨k, m, H, hk, herror, hm, s.lcdHeight, hmW, le_refl H, Or.inr ⟨rfl, hquot, hmlow, hmup⟩⟩
  · have hle : n ≤ H := by
      have hnot : ¬ iLcdHeigt.toInt <
          (truncToInt (fl FLT_MANT_DIG (toFloat iLcdWidth * k))).toInt :=
        fun hlt => hhigh (Int32.lt_iff_toInt_lt.mpr hlt)
      rw [s.lcdHeight, hn] at hnot
      omega
    rw [if_neg hhigh]
    exact ⟨k, W, n, hk, herror, s.lcdWidth, hn, le_refl W, hle, Or.inl ⟨rfl, hlow, hup⟩⟩

/-- The size fits the screen. -/
theorem Sizes.scaleToScreen_fits (s : Sizes iWidth iHeight iLcdWidth iLcdHeigt w h W H) :
    ∃ w' h' : ℕ, (scaleToScreen iWidth iHeight iLcdWidth iLcdHeigt).1.toInt = w' ∧
      (scaleToScreen iWidth iHeight iLcdWidth iLcdHeigt).2.toInt = h' ∧ w' ≤ W ∧ h' ≤ H := by
  obtain ⟨-, w', h', -, -, hw', hh', hwW, hhH, -⟩ := s.scaleToScreen_cases
  exact ⟨w', h', hw', hh', hwW, hhH⟩

/-- Two roundings of a product of at most `2 ^ 15` are a sixty-fourth away from it. -/
theorem product_error {W r k : ℚ} {n : ℕ} (hW : 0 < W) (hr : 0 < r) (hk : 0 < k)
    (herror : |k - r| ≤ r / 2 ^ 24) (hn : (n : ℚ) < 2 ^ 15)
    (hlow : (n : ℚ) ≤ fl FLT_MANT_DIG (W * k)) (hup : fl FLT_MANT_DIG (W * k) < n + 1) :
    |(n : ℚ) - W * r| < 65 / 64 := by
  have hround : |fl FLT_MANT_DIG (W * k) - W * k| ≤ W * k / 2 ^ 24 := fl_error (mul_pos hW hk)
  have hprod : |W * k - W * r| ≤ W * r / 2 ^ 24 := by
    rw [← mul_sub, abs_mul, abs_of_pos hW, mul_div_assoc]
    exact mul_le_mul_of_nonneg_left herror hW.le
  rw [abs_le] at hround hprod
  have hWr : 0 < W * r := mul_pos hW hr
  rw [abs_lt]
  norm_num at hround hprod ⊢
  constructor <;> linarith

/-- Two roundings of a quotient of at most `2 ^ 15` are a sixty-fourth away from it. -/
theorem quotient_error {H r k : ℚ} {n : ℕ} (hH : 0 < H) (hr : 0 < r) (hk : 0 < k)
    (herror : |k - r| ≤ r / 2 ^ 24) (hquot : H / k < 2 ^ 15)
    (hlow : (n : ℚ) ≤ fl FLT_MANT_DIG (H / k)) (hup : fl FLT_MANT_DIG (H / k) < n + 1) :
    |(n : ℚ) - H / r| < 65 / 64 := by
  have hround : |fl FLT_MANT_DIG (H / k) - H / k| ≤ H / k / 2 ^ 24 := fl_error (div_pos hH hk)
  have hdiff : |H / k - H / r| ≤ H / k / 2 ^ 24 := by
    have hfactor : H / k - H / r = H / k / r * (r - k) := by
      field_simp
    have hscale : 0 < H / k / r := div_pos (div_pos hH hk) hr
    rw [hfactor, abs_mul, abs_of_pos hscale, abs_sub_comm]
    calc H / k / r * |k - r| ≤ H / k / r * (r / 2 ^ 24) :=
          mul_le_mul_of_nonneg_left herror hscale.le
      _ = H / k / 2 ^ 24 := by field_simp
  rw [abs_le] at hround hdiff
  rw [abs_lt]
  norm_num at hround hdiff ⊢
  constructor <;> linarith

/-- **The scaled size.**  It fits the screen, it takes the whole of one side of the screen,
and the other side is less than a pixel and a sixty-fourth away from the exact proportion. -/
theorem scaled_size_fits_screen (s : Sizes iWidth iHeight iLcdWidth iLcdHeigt w h W H) :
    ∃ w' h' : ℕ, (scaleToScreen iWidth iHeight iLcdWidth iLcdHeigt).1.toInt = w' ∧
      (scaleToScreen iWidth iHeight iLcdWidth iLcdHeigt).2.toInt = h' ∧ w' ≤ W ∧ h' ≤ H ∧
      (w' = W ∧ |(h' : ℚ) - W * (h / w)| < 65 / 64 ∨
        h' = H ∧ |(w' : ℚ) - H / (h / w)| < 65 / 64) := by
  obtain ⟨k, w', h', hk, herror, hw', hh', hwW, hhH, hcase⟩ := s.scaleToScreen_cases
  have hr : (0 : ℚ) < h / w :=
    div_pos (Nat.cast_pos.mpr s.height_pos) (Nat.cast_pos.mpr s.width_pos)
  refine ⟨w', h', hw', hh', hwW, hhH, ?_⟩
  rcases hcase with ⟨hfull, hlow, hup⟩ | ⟨hfull, hquot, hlow, hup⟩
  · have hh15 : (h' : ℚ) < 2 ^ 15 := by exact_mod_cast hhH.trans_lt s.lcdHeight_lt
    exact Or.inl ⟨hfull, product_error (Nat.cast_pos.mpr s.lcdWidth_pos) hr hk herror hh15 hlow hup⟩
  · have hW15 : (W : ℚ) < 2 ^ 15 := by exact_mod_cast s.lcdWidth_lt
    exact Or.inr ⟨hfull, quotient_error (Nat.cast_pos.mpr s.lcdHeight_pos) hr hk herror
      (hquot.trans_lt hW15) hlow hup⟩

end

/-- A frame of 640 by 480 on a screen of 480 by 272. -/
theorem scaled_size_vga :
    ∃ w' h' : ℕ, (scaleToScreen 640 480 480 272).1.toInt = w' ∧
      (scaleToScreen 640 480 480 272).2.toInt = h' ∧ w' ≤ 480 ∧ h' ≤ 272 := by
  obtain ⟨w', h', hw', hh', hwW, hhH, -⟩ :=
    scaled_size_fits_screen (show Sizes 640 480 480 272 640 480 480 272 from
      ⟨rfl, rfl, rfl, rfl, by decide, by decide, by decide, by decide, by decide, by decide,
        by decide, by decide⟩)
  exact ⟨w', h', hw', hh', hwW, hhH⟩

end Video2lcd
