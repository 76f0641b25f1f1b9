import UsbCamera.Cmos.ScalerControl

/-!
# What becomes of an accepted format

`S_FMT` looks at the buffer type and the pixel format, and at nothing else: every
width and every height is accepted.  What the size has to be for the hardware
shows only when `STREAMON` computes with it.

Two computations are followed here from the accepted format on.  The settings of
the scaler go into fields of a few bits each, and they are got by divisions.  The
function that chooses the pre-scaler gives up on a target of a 64th of the source
or less, but its caller cannot see that and goes on with what the record of the
last capture holds.  So a size can be started from every earlier state exactly
within a range (`start_possible_iff`).  And the bursts, the pieces in which a line
goes to memory, are counted in words, so a line of an odd number of half-words is
never covered (`bursts_cover_line_iff`).
-/

namespace Cmos

/-- The number of bits of a pixel of an accepted format. -/
def V4l2Format.bits (f : V4l2Format) : Nat :=
  if f.pixelformat = V4L2_PIX_FMT_RGB565 then 16 else 32

theorem V4l2Format.bits_cases (f : V4l2Format) : f.bits = 16 ∨ f.bits = 32 := by
  unfold V4l2Format.bits
  split
  · exact Or.inl rfl
  · exact Or.inr rfl

theorem tryFmt_eq_zero_iff {f : V4l2Format} : vidiocTryFmtVidCap f = 0 ↔
    f.type = .videoCapture ∧
      (f.pixelformat = V4L2_PIX_FMT_RGB565 ∨ f.pixelformat = V4L2_PIX_FMT_RGB24) := by
  unfold vidiocTryFmtVidCap EINVAL
  split
  · simp [*]
  split
  · simp [*]
  · simp_all only [ne_eq, not_not, not_and, true_iff, true_and]
    tauto

/-- What `S_FMT` does with a format that it accepts: it stores the size and the
bytes of a line, and leaves the record of the scaler as it is. -/
theorem sFmt_accepted {f : V4l2Format} (s : Camif) (hf : vidiocTryFmtVidCap f = 0) :
    ∃ g u, vidiocSFmtVidCap s f = (0, g, u) ∧ u.targetHsizePr = f.width ∧
      u.targetVsizePr = f.height ∧ u.sc = s.sc ∧
      u.bytesperline = (f.width * BitVec.ofNat 32 f.bits) >>> 3 := by
  have hne : V4L2_PIX_FMT_RGB24 ≠ V4L2_PIX_FMT_RGB565 := by decide
  obtain ⟨-, hpixel⟩ := tryFmt_eq_zero_iff.mp hf
  unfold vidiocSFmtVidCap V4l2Format.bits
  rcases hpixel with hpixel | hpixel
  · simp only [hf, lt_irrefl, if_false, hpixel, if_true, storeLine]
    exact ⟨_, _, rfl, rfl, rfl, rfl, rfl⟩
  · simp only [hf, lt_irrefl, if_false, hpixel, if_neg hne, if_true, storeLine]
    exact ⟨_, _, rfl, rfl, rfl, rfl, rfl⟩

/-! ## Starting an accepted size -/

/-- The numbers of a started capture fit the fields that the registers have for
them. -/
structure Camif.FieldsFit (s : Camif) : Prop where
  targetHsize : s.targetHsizePr.toNat < 2 ^ 13
  targetVsize : s.targetVsizePr.toNat < 2 ^ 13
  preHorRatio : s.sc.preHorRatio.toNat < 2 ^ 7
  preVerRatio : s.sc.preVerRatio.toNat < 2 ^ 7
  preDstWidth : s.sc.preDstWidth.toNat < 2 ^ 12
  preDstHeight : s.sc.preDstHeight.toNat < 2 ^ 12
  mainHorRatio : s.sc.mainHorRatio.toNat < 2 ^ 9
  mainVerRatio : s.sc.mainVerRatio.toNat < 2 ^ 9
  shFactor : s.sc.shFactor.toNat < 2 ^ 4

/-- The numbers of one direction fit their fields, for a source like the sensor's. -/
theorem Splits.fit {src tar ratio shift preDst main : Nat}
    (h : Splits src tar ratio shift preDst main) (hsrc : src < 2 ^ 12) :
    ratio < 2 ^ 7 ∧ preDst < 2 ^ 12 ∧ main < 2 ^ 9 := by
  refine ⟨?_, ?_, ?_⟩
  · rw [h.power]
    exact Nat.pow_lt_pow_right (by omega) (by have := h.shift_le; omega)
  · rw [h.preDst_eq]
    exact lt_of_le_of_lt (Nat.div_le_self _ _) hsrc
  · by_cases hle : tar ≤ src
    · have hmain := (h.main_down hle).2
      omega
    · have hmain := h.main_up (by omega)
      omega

/-- A size in range is started from every state. -/
theorem streamon_in_range {s : Camif}
    (hwidth : 11 ≤ s.targetHsizePr.toNat ∧ s.targetHsizePr.toNat ≤ 8191)
    (hheight : 8 ≤ s.targetVsizePr.toNat ∧ s.targetVsizePr.toNat ≤ 8191) :
    ∃ t, vidiocStreamon s = .ok (0, t) ∧ t.FieldsFit := by
  have hsx : (640#32).toNat = 640 := rfl
  have hsy : (480#32).toNat = 480 := rfl
  have hx : (640#32).toNat < 64 * s.targetHsizePr.toNat := by omega
  have hy : (480#32).toNat < 64 * s.targetVsizePr.toNat := by omega
  have hinfo := calculateScalerInfo_eq s.sc (by omega) (by omega) (by omega) (by omega) hx hy
  obtain ⟨hratioX, hdstX, hmainX⟩ := (splits_words hx).fit (by omega)
  obtain ⟨hratioY, hdstY, hmainY⟩ := (splits_words hy).fit (by omega)
  have hfactor : (scalerFor (640#32).toNat (480#32).toNat s.targetHsizePr.toNat
      s.targetVsizePr.toNat).shFactor.toNat < 2 ^ 4 := by
    simp only [scalerFor, BitVec.toNat_ofNat]
    omega
  refine ⟨startScaler (prepareSource s) (scalerFor (640#32).toNat (480#32).toNat
    s.targetHsizePr.toNat s.targetVsizePr.toNat), ?_, ?_⟩
  · rw [vidiocStreamon_eq, hinfo]
    rfl
  · refine ⟨?_, ?_, hratioX, hratioY, hdstX, hdstY, hmainX, hmainY, hfactor⟩
    · rw [startScaler_targetHsizePr, prepareSource_targetHsizePr]
      omega
    · rw [startScaler_targetVsizePr, prepareSource_targetVsizePr]
      omega

/-- On a target of a 64th of the source or less the pre-scaler is left as it
was. -/
theorem camifGetScalerFactor_keeps {src tar ratio shift : BitVec 32} (htar : tar.toNat < 2 ^ 26)
    (hsrc : 64 * tar.toNat ≤ src.toNat) :
    camifGetScalerFactor src tar ratio shift = (ratio, shift) := by
  unfold camifGetScalerFactor
  exact if_pos ((ge_mul_iff (by omega : 64 ≤ 64) htar).mpr hsrc)

/-- With the record of a driver that has not captured yet, such a target is
divided by zero. -/
theorem start_of_unused_record {tx ty : BitVec 32} {info : Scaler}
    (hinfo : calculateScalerInfo 640#32 480#32 tx ty {} = .ok info) :
    11 ≤ tx.toNat ∧ 8 ≤ ty.toNat := by
  have hsx : (640#32).toNat = 640 := rfl
  have hsy : (480#32).toNat = 480 := rfl
  obtain ⟨hhor, hver, -⟩ := calculateScalerInfo_ok hinfo
  constructor
  · by_contra hsmall
    rw [camifGetScalerFactor_keeps (by omega) (by omega)] at hhor
    exact hhor rfl
  · by_contra hsmall
    rw [camifGetScalerFactor_keeps (by omega) (by omega)] at hver
    exact hver rfl

/-- **Sizes that can be started.**  An accepted size is started from every earlier
state of the driver, with no division by zero and with numbers that fit their
fields, exactly when it lies between 11 by 8 and 8191 by 8191. -/
theorem start_possible_iff {f : V4l2Format} (hf : vidiocTryFmtVidCap f = 0) :
    (∀ s : Camif, ∃ g u t, vidiocSFmtVidCap s f = (0, g, u) ∧
      vidiocStreamon u = .ok (0, t) ∧ t.FieldsFit) ↔
      (11 ≤ f.width.toNat ∧ f.width.toNat ≤ 8191) ∧
        (8 ≤ f.height.toNat ∧ f.height.toNat ≤ 8191) := by
  constructor
  · intro hall
    obtain ⟨g, u, t, hset, hstart, hfit⟩ := hall {}
    obtain ⟨g', u', hset', hwidth, hheight, hsc, -⟩ := sFmt_accepted {} hf
    obtain ⟨-, hgu⟩ := Prod.mk.inj (hset.symm.trans hset')
    obtain ⟨-, rfl⟩ := Prod.mk.inj hgu
    rw [vidiocStreamon_eq] at hstart
    obtain ⟨info, hinfo, hinit⟩ := FaultRun.map_eq_ok.mp hstart
    obtain ⟨-, rfl⟩ := Prod.mk.inj hinit
    rw [hwidth, hheight, hsc] at hinfo
    have hlow := start_of_unused_record hinfo
    have hhsize := hfit.targetHsize
    have hvsize := hfit.targetVsize
    rw [startScaler_targetHsizePr, prepareSource_targetHsizePr, hwidth] at hhsize
    rw [startScaler_targetVsizePr, prepareSource_targetVsizePr, hheight] at hvsize
    omega
  · intro hrange s
    obtain ⟨g, u, hset, hwidth, hheight, -⟩ := sFmt_accepted s hf
    rw [← hwidth, ← hheight] at hrange
    obtain ⟨t, hstart, hfit⟩ := streamon_in_range hrange.1 hrange.2
    exact ⟨g, u, t, hset, hstart, hfit⟩

/-- The largest picture in the smallest height, scaled up in one direction and
down in the other, can be started. -/
theorem flat_size_starts :
    ∃ g u t, vidiocSFmtVidCap {} (sized V4L2_PIX_FMT_RGB24 8191#32 8#32) = (0, g, u) ∧
      vidiocStreamon u = .ok (0, t) ∧ t.FieldsFit :=
  (start_possible_iff rfl).mpr (by decide) {}

/-- A driver just loaded accepts a width of ten, and the next `STREAMON` divides by
the pre-scaler ratio that no capture has set yet. -/
theorem narrow_size_faults :
    ∃ g u, vidiocSFmtVidCap {} (sized V4L2_PIX_FMT_RGB565 10#32 480#32) = (0, g, u) ∧
      vidiocStreamon u = .error .divideByZero :=
  ⟨_, _, rfl, rfl⟩

/-! ## The bursts of a line -/

/-- Bursts of `main` words and a last one of `remained` words cover a line of
`bytes` bytes exactly, and no longer main burst leaves a last one that is a burst
length itself. -/
structure CoversLine (bytes main remained : Nat) : Prop where
  main_mem : main ∈ [4, 8, 16]
  remained_range : 1 ≤ remained ∧ remained ≤ main
  covered : ∃ q, bytes = 4 * (main * q + remained)
  longest : ∀ m ∈ [4, 8, 16], main < m → ∀ q r, 1 ≤ r → r ≤ m → bytes = 4 * (m * q + r) →
    r ∉ [4, 8, 16]

/-- The remainders of the words show that a line is covered, and rule out a longer main
burst. -/
theorem coversLine_of_words {words main remained : Nat} (hmain : main ∈ [4, 8, 16])
    (hwords : 0 < words) (hrange : 1 ≤ remained ∧ remained ≤ main)
    (hlast : words % main = remained % main)
    (hlonger : (main < 8 → words % 8 ≠ 0 ∧ words % 8 ≠ 4) ∧
      (main < 16 → words % 16 ≠ 0 ∧ words % 16 ≠ 4 ∧ words % 16 ≠ 8)) :
    CoversLine (4 * words) main remained := by
  obtain ⟨height, hsixteen⟩ := hlonger
  refine ⟨hmain, hrange, ⟨(words - remained) / main, ?_⟩, ?_⟩
  · simp only [List.mem_cons, List.not_mem_nil, or_false] at hmain
    obtain rfl | rfl | rfl := hmain <;> omega
  · intro m hm hlt q r hlow hhigh hbytes
    simp only [List.mem_cons, List.not_mem_nil, or_false] at hmain hm ⊢
    obtain rfl | rfl | rfl := hm
    · omega
    · have hrem := height hlt
      omega
    · have hrem := hsixteen hlt
      omega

/-- The remainders that `CalculateBurstSize` looks at, as numbers. -/
theorem words_mod_eq_iff {hSize : BitVec 32} {words : Nat} (hwords : hSize.toNat = 4 * words)
    {n k : Nat} (hn : n < 2 ^ 32) (hk : k < 2 ^ 32) :
    hSize / 4#32 % BitVec.ofNat 32 n = BitVec.ofNat 32 k ↔ words % n = k := by
  have hfour : (4#32).toNat = 4 := rfl
  rw [← BitVec.toNat_inj, BitVec.toNat_umod, BitVec.toNat_udiv, toNat_ofNat_of_lt hn,
    toNat_ofNat_of_lt hk, hwords, hfour, Nat.mul_div_cancel_left words (by decide)]

/-- What the nested switches choose for a line of whole words. -/
theorem calculateBurstSize_covers {hSize : BitVec 32} (hpos : 0 < hSize.toNat)
    (hwords : hSize.toNat % 4 = 0) :
    CoversLine hSize.toNat (calculateBurstSize hSize).1.toNat
      (calculateBurstSize hSize).2.toNat := by
  obtain ⟨words, hwords⟩ : ∃ words, hSize.toNat = 4 * words := ⟨hSize.toNat / 4, by omega⟩
  have hsome : 0 < words := by omega
  have hlast : (hSize / 4#32 % 4#32).toNat = words % 4 := by
    have hfour : (4#32).toNat = 4 := rfl
    rw [BitVec.toNat_umod, BitVec.toNat_udiv, hwords, hfour,
      Nat.mul_div_cancel_left words (by decide)]
  unfold calculateBurstSize
  simp (disch := decide) only [words_mod_eq_iff hwords, ne_eq]
  rw [hwords]
  -- the outcomes of the switches, in their order
  split
  · change CoversLine (4 * words) 16 16
    exact coversLine_of_words (by decide) hsome (by decide) (by omega) (by omega)
  split
  · change CoversLine (4 * words) 16 4
    exact coversLine_of_words (by decide) hsome (by decide) (by omega) (by omega)
  split
  · change CoversLine (4 * words) 16 8
    exact coversLine_of_words (by decide) hsome (by decide) (by omega) (by omega)
  split
  · change CoversLine (4 * words) 8 8
    exact coversLine_of_words (by decide) hsome (by decide) (by omega) (by omega)
  split
  · change CoversLine (4 * words) 8 4
    exact coversLine_of_words (by decide) hsome (by decide) (by omega) (by omega)
  split
  · change CoversLine (4 * words) 4 (hSize / 4#32 % 4#32).toNat
    rw [hlast]
    exact coversLine_of_words (by decide) hsome (by omega) (by omega) (by omega)
  · change CoversLine (4 * words) 4 4
    exact coversLine_of_words (by decide) hsome (by decide) (by omega) (by omega)

/-- The bytes of a line, when the product does not wrap. -/
theorem toNat_bytesperline {f : V4l2Format} (hline : f.width.toNat * f.bits < 2 ^ 32) :
    ((f.width * BitVec.ofNat 32 f.bits) >>> 3).toNat = f.width.toNat * f.bits / 8 := by
  have hbits : f.bits < 2 ^ 32 := by
    have := f.bits_cases
    omega
  rw [BitVec.toNat_ushiftRight, BitVec.toNat_mul, toNat_ofNat_of_lt hbits,
    Nat.mod_eq_of_lt hline, Nat.shiftRight_eq_div_pow]

/-- **The bursts of a line.**  For an accepted format of at least one column whose
line does not overflow, the bursts that `STREAMON` takes from the stored line cover
it exactly when a pixel has four bytes or the width is even. -/
theorem bursts_cover_line_iff {s : Camif} {f : V4l2Format} (hf : vidiocTryFmtVidCap f = 0)
    (hwidth : 1 ≤ f.width.toNat) (hline : f.width.toNat * f.bits < 2 ^ 32) :
    ∃ g u, vidiocSFmtVidCap s f = (0, g, u) ∧ u.bytesperline.toNat = f.width.toNat * f.bits / 8 ∧
      (CoversLine u.bytesperline.toNat (calculateBurstSize u.bytesperline).1.toNat
        (calculateBurstSize u.bytesperline).2.toNat ↔
        f.pixelformat = V4L2_PIX_FMT_RGB24 ∨ f.width.toNat % 2 = 0) := by
  obtain ⟨g, u, hset, -, -, -, hbytes⟩ := sFmt_accepted s hf
  have hnat : u.bytesperline.toNat = f.width.toNat * f.bits / 8 := by
    rw [hbytes, toNat_bytesperline hline]
  refine ⟨g, u, hset, hnat, ?_⟩
  have hpixel := (tryFmt_eq_zero_iff.mp hf).2
  have hwords : u.bytesperline.toNat % 4 = 0 ↔
      f.pixelformat = V4L2_PIX_FMT_RGB24 ∨ f.width.toNat % 2 = 0 := by
    rw [hnat]
    obtain hpixel | hpixel := hpixel
    · have hne : V4L2_PIX_FMT_RGB565 ≠ V4L2_PIX_FMT_RGB24 := by decide
      simp only [V4l2Format.bits, hpixel, if_true, hne, false_or]
      omega
    · have hne : V4L2_PIX_FMT_RGB24 ≠ V4L2_PIX_FMT_RGB565 := by decide
      simp only [V4l2Format.bits, hpixel, if_neg hne, true_or, iff_true]
      omega
  rw [← hwords]
  constructor
  · intro hcovers
    obtain ⟨q, hq⟩ := hcovers.covered
    omega
  · intro hmod
    apply calculateBurstSize_covers _ hmod
    have hbits : 16 ≤ f.bits := by
      have := f.bits_cases
      omega
    have hprod : 1 * 16 ≤ f.width.toNat * f.bits := Nat.mul_le_mul hwidth hbits
    omega

/-- A line of 320 half-words is covered. -/
theorem even_line_covered :
    ∃ g u, vidiocSFmtVidCap {} (sized V4L2_PIX_FMT_RGB565 320#32 240#32) = (0, g, u) ∧
      CoversLine u.bytesperline.toNat (calculateBurstSize u.bytesperline).1.toNat
        (calculateBurstSize u.bytesperline).2.toNat := by
  obtain ⟨g, u, hset, -, hiff⟩ := bursts_cover_line_iff (s := {})
    (f := sized V4L2_PIX_FMT_RGB565 320#32 240#32) rfl (by decide) (by decide)
  exact ⟨g, u, hset, hiff.mpr (Or.inr rfl)⟩

/-- Of a line of 321 half-words the bursts leave the last one out. -/
theorem odd_line_cut_short :
    ∃ g u, vidiocSFmtVidCap {} (sized V4L2_PIX_FMT_RGB565 321#32 240#32) = (0, g, u) ∧
      u.bytesperline = 642#32 ∧ calculateBurstSize u.bytesperline = (16#32, 16#32) ∧
      ¬ CoversLine 642 16 16 := by
  refine ⟨_, _, rfl, rfl, rfl, ?_⟩
  intro hcovers
  obtain ⟨q, hq⟩ := hcovers.covered
  omega

end Cmos
