import UsbCamera.Base.BitField
import UsbCamera.Base.Extrema

/-!
# The sample rate of the IIS controller

`s3c2440_i2s_hw_params` prepares the IIS controller for a stream: the pins, the
width of a sample, and the divider that makes the sample rate from the peripheral
clock.  The controller divides the clock by 384 and by one more than the divider,
and of the 32 dividers the function takes the one that comes closest to the rate
wanted.

The search keeps the least distance seen so far, from a sentinel of `0xffff` on.
Whether that is large enough is a question about the clock and the rate together:
the largest divider has to come within 65534 of the rate.  For a clock below
`2 ^ 29` and a rate below 65535 it does.
-/

namespace Alsa

open BitField Extrema

def EINVAL : Int := 22

/-- `snd_pcm_format_t`, as far as the function looks at it. -/
inductive PcmFormat where
  | s16Le
  | s8
  | other
deriving DecidableEq, Repr

/-- `struct s3c2440_iis_regs`. -/
structure IisRegs where
  iiscon : BitVec 32
  iismod : BitVec 32
  iispsr : BitVec 32
  iisfcon : BitVec 32
  iisfifo : BitVec 32
deriving DecidableEq, Repr

/-- The registers that the function writes. -/
structure IisPlatform where
  gpecon : BitVec 32
  iisRegs : IisRegs
deriving DecidableEq, Repr

/-- The macro `ABS` on an `int` and an `unsigned int`, which C compares and
subtracts as `unsigned int`s. -/
def ABS (a b : BitVec 32) : BitVec 32 := if a < b then b - a else a - b

/-- One round of the search, from `min` and `pre`. -/
def dividerRound (rate fs : BitVec 32) (best : BitVec 32 × BitVec 32) (i : Nat) :
    BitVec 32 × BitVec 32 :=
  let tmpFs := rate / 384#32 / (BitVec.ofNat 32 i + 1#32)
  if ABS tmpFs fs < best.1 then (ABS tmpFs fs, BitVec.ofNat 32 i) else best

/-- The `pre` that the loop ends with. -/
def chooseDivider (rate fs : BitVec 32) : BitVec 32 :=
  ((List.range 32).foldl (dividerRound rate fs) (0xffff#32, 0#32)).2

/-- The pins of port E that belong to the controller. -/
def selectPins (s : IisPlatform) : IisPlatform :=
  let gpecon := s.gpecon &&&
    ~~~(3#32 <<< 0 ||| 3#32 <<< 2 ||| 3#32 <<< 4 ||| 3#32 <<< 6 ||| 3#32 <<< 8)
  { s with
    gpecon := gpecon ||| (2#32 <<< 0 ||| 2#32 <<< 2 ||| 2#32 <<< 4 ||| 2#32 <<< 6 ||| 2#32 <<< 8) }

/-- What follows for a supported sample format, whose `iismod` is given. -/
def programIis (rate fs iismod : BitVec 32) (s : IisPlatform) : IisPlatform :=
  let pre := chooseDivider rate fs
  { s with
    iisRegs := { s.iisRegs with
      iismod
      iispsr := pre <<< 5 ||| pre
      iisfcon := 1#32 <<< 15 ||| 1#32 <<< 13
      iiscon := 1#32 <<< 5 ||| 1#32 <<< 1 } }

/-- `s3c2440_i2s_hw_params` with a peripheral clock of `rate`, for samples of
`format` at `fs`. -/
def i2sHwParams (rate : BitVec 32) (format : PcmFormat) (fs : BitVec 32) (s : IisPlatform) :
    Int × IisPlatform :=
  let s := selectPins s
  match format with
  | .s16Le =>
      let iismod := 2#32 <<< 6 ||| 0#32 <<< 4 ||| 1#32 <<< 3 ||| 1#32 <<< 2 ||| 1#32
      (0, programIis rate fs iismod s)
  | .s8 =>
      let iismod := 2#32 <<< 6 ||| 0#32 <<< 4 ||| 0#32 <<< 3 ||| 1#32 <<< 2 ||| 1#32
      (0, programIis rate fs iismod s)
  | .other => (-EINVAL, s)

/-! ## The search on numbers -/

/-- How far the rate of divider `i` is from the rate wanted. -/
def rateError (pclk fs i : Nat) : Nat := (((pclk / 384 / (i + 1) : Nat) : Int) - fs).natAbs

/-- The macro is the distance of the two numbers. -/
theorem toNat_ABS (a b : BitVec 32) : (ABS a b).toNat = ((a.toNat : Int) - b.toNat).natAbs := by
  unfold ABS
  split
  · rename_i hlt
    rw [BitVec.lt_def] at hlt
    rw [BitVec.toNat_sub_of_le (by rw [BitVec.le_def]; omega)]
    omega
  · rename_i hle
    rw [BitVec.lt_def] at hle
    rw [BitVec.toNat_sub_of_le (by rw [BitVec.le_def]; omega)]
    omega

/-- A round on words is a round on numbers. -/
theorem dividerRound_eq (rate fs : BitVec 32) {best : BitVec 32 × BitVec 32} {i : Nat}
    (hi : i < 32) :
    (((dividerRound rate fs best i).1.toNat, (dividerRound rate fs best i).2.toNat) : Nat × Nat) =
      minRound (rateError rate.toNat fs.toNat) (best.1.toNat, best.2.toNat) i := by
  have hdiv : (BitVec.ofNat 32 i + 1#32).toNat = i + 1 := by
    have hone : (1#32).toNat = 1 := rfl
    rw [BitVec.toNat_add, BitVec.toNat_ofNat, hone]
    omega
  have herror : (ABS (rate / 384#32 / (BitVec.ofNat 32 i + 1#32)) fs).toNat =
      rateError rate.toNat fs.toNat i := by
    rw [toNat_ABS, BitVec.toNat_udiv, BitVec.toNat_udiv, hdiv]
    rfl
  unfold dividerRound minRound
  simp only [BitVec.lt_def, herror]
  split
  · rw [herror, BitVec.toNat_ofNat, Nat.mod_eq_of_lt (by omega)]
  · rfl

/-- So are any number of rounds. -/
theorem foldl_dividerRound (rate fs : BitVec 32) {n : Nat} (hn : n ≤ 32) :
    (((List.range n).foldl (dividerRound rate fs) (0xffff#32, 0#32)).1.toNat,
      ((List.range n).foldl (dividerRound rate fs) (0xffff#32, 0#32)).2.toNat) =
      minLoop (rateError rate.toNat fs.toNat) n (0xffff, 0) := by
  induction n with
  | zero => rfl
  | succ n ih =>
      rw [minLoop_succ, ← ih (by omega), List.range_succ, List.foldl_append, List.foldl_cons,
        List.foldl_nil, dividerRound_eq rate fs (by omega)]

theorem toNat_chooseDivider (rate fs : BitVec 32) :
    (chooseDivider rate fs).toNat =
      (minLoop (rateError rate.toNat fs.toNat) 32 (0xffff, 0)).2 := by
  rw [← foldl_dividerRound rate fs le_rfl, chooseDivider]

/-- The largest divider comes near enough to beat the sentinel. -/
theorem rateError_last {pclk fs : Nat} (hpclk : pclk < 2 ^ 29) (hfs : fs < 65535) :
    rateError pclk fs 31 < 0xffff := by
  unfold rateError
  omega

/-- The two halves of the prescaler register. -/
theorem iispsr_halves {pre : BitVec 32} (hpre : pre.toNat < 32) :
    field 5 5 (pre <<< 5 ||| pre) = pre.setWidth 5 ∧
      field 0 5 (pre <<< 5 ||| pre) = pre.setWidth 5 := by
  have hlow : pre <<< 0 = pre := BitVec.shiftLeft_zero pre
  have hself : field 5 5 (pre <<< 5) = pre.setWidth 5 := field_shiftLeft_self pre (by omega)
  have hself' : field 0 5 (pre <<< 0) = pre.setWidth 5 := field_shiftLeft_self pre (by omega)
  have hbelow : field 5 5 (pre <<< 0) = 0#5 := field_shiftLeft_below (m := 5) hpre (by omega)
  have habove : field 0 5 (pre <<< 5) = 0#5 := field_shiftLeft_above pre (by omega)
  rw [hlow] at hself' hbelow
  rw [field_or, field_or, hself, hbelow, hself', habove, BitVec.or_zero, BitVec.zero_or]
  exact ⟨rfl, rfl⟩

/-- **The divider.**  For a clock below `2 ^ 29` and a rate below 65535, a supported
format gets the first of the dividers that come closest to the rate, in both halves
of the prescaler register.  Any other format is refused, and the registers of the
controller are left alone. -/
theorem divider_optimal {rate fs : BitVec 32} (format : PcmFormat) (s : IisPlatform)
    (hrate : rate.toNat < 2 ^ 29) (hfs : fs.toNat < 65535) :
    (format ≠ .other → ∃ pre t, i2sHwParams rate format fs s = (0, t) ∧
      FirstMin (rateError rate.toNat fs.toNat) 32 pre ∧
      field 5 5 t.iisRegs.iispsr = BitVec.ofNat 5 pre ∧
      field 0 5 t.iisRegs.iispsr = BitVec.ofNat 5 pre) ∧
    (format = .other → ∃ t, i2sHwParams rate format fs s = (-EINVAL, t) ∧
      t.iisRegs = s.iisRegs) := by
  have hmin : FirstMin (rateError rate.toNat fs.toNat) 32 (chooseDivider rate fs).toNat := by
    rw [toNat_chooseDivider]
    exact minLoop_firstMin (by omega : 31 < 32) (rateError_last hrate hfs)
  obtain ⟨hhigh, hlow⟩ := iispsr_halves hmin.lt
  have hwidth : (chooseDivider rate fs).setWidth 5 =
      BitVec.ofNat 5 (chooseDivider rate fs).toNat := rfl
  rw [hwidth] at hhigh hlow
  constructor
  · intro hformat
    cases format with
    | s16Le => exact ⟨_, _, rfl, hmin, hhigh, hlow⟩
    | s8 => exact ⟨_, _, rfl, hmin, hhigh, hlow⟩
    | other => exact absurd rfl hformat
  · intro hformat
    subst hformat
    exact ⟨_, rfl, rfl⟩

/-- A clock of 50 MHz and the rate of a compact disc. -/
theorem divider_of_disc_rate :
    ∃ pre t, i2sHwParams 50000000#32 .s16Le 44100#32 ⟨0#32, ⟨0#32, 0#32, 0#32, 0#32, 0#32⟩⟩ =
      (0, t) ∧ FirstMin (rateError 50000000 44100) 32 pre ∧
      field 5 5 t.iisRegs.iispsr = BitVec.ofNat 5 pre := by
  have hrate : (50000000#32).toNat < 2 ^ 29 := by decide
  have hfs : (44100#32).toNat < 65535 := by decide
  obtain ⟨pre, t, hcall, hmin, hhigh, -⟩ := (divider_optimal .s16Le
    ⟨0#32, ⟨0#32, 0#32, 0#32, 0#32, 0#32⟩⟩ hrate hfs).1 (by decide)
  exact ⟨pre, t, hcall, hmin, hhigh⟩

end Alsa
