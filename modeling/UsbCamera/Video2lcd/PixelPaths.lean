import UsbCamera.Base.BitField
import UsbCamera.Myuvc.ControlCodec
import UsbCamera.Video2lcd.Convert

/-!
# Three ways to a 32-bit pixel

A YUYV frame is turned into 16-bit pixels by `Pyuv422torgb565` and into 32-bit ones by
`Pyuv422torgb32`, and 16-bit pixels are widened by the last branch of
`Rgb2RgbConvert`.  Each of the three has a loop of its own, with pointers that step by
bytes, by 16-bit and by 32-bit words.

Here the loops are written down as they stand, with their pointers.  They leave
what the converters of `Convert.lean` store (`pyuv422torgb565Loop_eq` and the two
like it), and so agree pixel by pixel (`pixel_paths_agree`): the 16-bit pixel is the
32-bit one with the low bits of each colour cut off, and widening it gives the
32-bit one back as far as the bits go.
-/

namespace Video2lcd

open ByteStore Myuvc

/-! ## The loops -/

/-- The colour that `Pyuv422torgb565` puts together. -/
def color565 (r g b : UInt32) : UInt32 := ((r >>> 3) <<< 11) ||| ((g >>> 2) <<< 5) ||| (b >>> 3)

/-- `*output_pt++ = color & 0xff; *output_pt++ = (color >> 8) & 0xff;` -/
def putBytes16 (m : Nat → UInt8) (output_pt : Nat) (color : UInt32) : Nat → UInt8 :=
  write (write m output_pt [(color &&& 0xff).toUInt8]) (output_pt + 1)
    [((color >>> 8) &&& 0xff).toUInt8]

/-- The loop of `Pyuv422torgb565`, with `i` rounds to go; both pointers are counted in
bytes. -/
def pyuv422torgb565Loop (f : FromYuv) (input : Nat → UInt8) :
    (i buff output_pt : Nat) → (Nat → UInt8) → Nat → UInt8
  | 0, _, _, m => m
  | i + 1, buff, output_pt, m =>
      let Y := input buff
      let U := input (buff + 1)
      let Y1 := input (buff + 2)
      let V := input (buff + 3)
      let color := color565 (f.r Y V).toUInt32 (f.g Y U V).toUInt32 (f.b Y U).toUInt32
      let m := putBytes16 m output_pt color
      let color := color565 (f.r Y1 V).toUInt32 (f.g Y1 U V).toUInt32 (f.b Y1 U).toUInt32
      let m := putBytes16 m (output_pt + 2) color
      pyuv422torgb565Loop f input i (buff + 4) (output_pt + 4) m

/-- The colour that `Pyuv422torgb32` puts together. -/
def color32 (r g b : UInt32) : UInt32 := (r <<< 16) ||| (g <<< 8) ||| b

/-- The loop of `Pyuv422torgb32`, with `i` rounds to go; `output_pt` is counted in 32-bit
words. -/
def pyuv422torgb32Loop (f : FromYuv) (input : Nat → UInt8) :
    (i buff output_pt : Nat) → (Nat → UInt8) → Nat → UInt8
  | 0, _, _, m => m
  | i + 1, buff, output_pt, m =>
      let Y := input buff
      let U := input (buff + 1)
      let Y1 := input (buff + 2)
      let V := input (buff + 3)
      let color := color32 (f.r Y V).toUInt32 (f.g Y U V).toUInt32 (f.b Y U).toUInt32
      let m := write m (4 * output_pt) (le32 color)
      let color := color32 (f.r Y1 V).toUInt32 (f.g Y1 U V).toUInt32 (f.b Y1 U).toUInt32
      let m := write m (4 * (output_pt + 1)) (le32 color)
      pyuv422torgb32Loop f input i (buff + 4) (output_pt + 2) m

/-- What `Rgb2RgbConvert` makes of a 16-bit pixel. -/
def widen565 (color : UInt32) : UInt32 :=
  let r := color >>> 11
  let g := (color >>> 5) &&& 0x3f
  let b := color &&& 0x1f
  ((r <<< 3) <<< 16) ||| ((g <<< 2) <<< 8) ||| (b <<< 3)

/-- The inner loop of `Rgb2RgbConvert`, with `x` pixels of the line to go; `pwSrc` is
counted in 16-bit and `pdwDest` in 32-bit words.  The pointers come back with the
memory. -/
def rgb2RgbLine (input : Nat → UInt8) :
    (x pwSrc pdwDest : Nat) → (Nat → UInt8) → Nat × Nat × (Nat → UInt8)
  | 0, pwSrc, pdwDest, m => (pwSrc, pdwDest, m)
  | x + 1, pwSrc, pdwDest, m =>
      let color := widen565 (getLe16 input (2 * pwSrc)).toUInt32
      rgb2RgbLine input x (pwSrc + 1) (pdwDest + 1) (write m (4 * pdwDest) (le32 color))

/-- The two loops of `Rgb2RgbConvert`, with `y` lines of `iWidth` pixels to go. -/
def rgb2RgbLoop (input : Nat → UInt8) (iWidth : Nat) :
    (y pwSrc pdwDest : Nat) → (Nat → UInt8) → Nat → UInt8
  | 0, _, _, m => m
  | y + 1, pwSrc, pdwDest, m =>
      let (pwSrc, pdwDest, m) := rgb2RgbLine input iWidth pwSrc pdwDest m
      rgb2RgbLoop input iWidth y pwSrc pdwDest m

/-- `Pyuv422torgb565` on an output memory. -/
def pyuv422torgb565Mem (f : FromYuv) (input : Nat → UInt8) (width height : UInt32)
    (m : Nat → UInt8) : Nat → UInt8 :=
  pyuv422torgb565Loop f input (width * height / 2).toNat 0 0 m

/-- `Pyuv422torgb32` on an output memory. -/
def pyuv422torgb32Mem (f : FromYuv) (input : Nat → UInt8) (width height : UInt32)
    (m : Nat → UInt8) : Nat → UInt8 :=
  pyuv422torgb32Loop f input (width * height / 2).toNat 0 0 m

/-- The `V4L2_PIX_FMT_RGB32` branch of `Rgb2RgbConvert` on an output memory. -/
def rgb2Rgb32Mem (input : Nat → UInt8) (iWidth iHeight : Int32) (m : Nat → UInt8) : Nat → UInt8 :=
  rgb2RgbLoop input iWidth.toInt.toNat iHeight.toInt.toNat 0 0 m

/-! ## The loops lay down the pixels of the converters -/

theorem toUInt32_shiftRight (x k : UInt8) (hk : k < 8) :
    x.toUInt32 >>> k.toUInt32 = (x >>> k).toUInt32 := by
  have hlt : k.toNat < 8 := hk
  apply UInt32.toNat_inj.mp
  rw [UInt32.toNat_shiftRight, UInt8.toNat_toUInt32, UInt8.toNat_toUInt32, UInt8.toNat_toUInt32,
    UInt8.toNat_shiftRight, Nat.mod_eq_of_lt (by omega), Nat.mod_eq_of_lt hlt]

/-- The colours may be shifted as bytes. -/
theorem color565_shifted (r g b : UInt8) :
    color565 r.toUInt32 g.toUInt32 b.toUInt32 =
      ((r >>> 3).toUInt32 <<< 11) ||| ((g >>> 2).toUInt32 <<< 5) ||| (b >>> 3).toUInt32 := by
  have hred : r.toUInt32 >>> 3 = (r >>> 3).toUInt32 := toUInt32_shiftRight r 3 (by decide)
  have hgreen : g.toUInt32 >>> 2 = (g >>> 2).toUInt32 := toUInt32_shiftRight g 2 (by decide)
  have hblue : b.toUInt32 >>> 3 = (b >>> 3).toUInt32 := toUInt32_shiftRight b 3 (by decide)
  rw [color565, hred, hgreen, hblue]

/-- The bytes of a 16-bit pixel are laid down one after the other. -/
theorem putBytes16_eq (m : Nat → UInt8) (a : Nat) (r g b : UInt8) :
    putBytes16 m a (color565 r.toUInt32 g.toUInt32 b.toUInt32) = write m a (rgb565Bytes r g b) := by
  rw [putBytes16, color565_shifted]
  exact write_append m a [_] [_]

/-- The two pixels of a round. -/
theorem yuyvPixel_even (f : FromYuv) (pack : UInt8 → UInt8 → UInt8 → List UInt8)
    (input : Nat → UInt8) (k : Nat) :
    yuyvPixel f pack input (2 * k) =
      pack (f.r (input (4 * k)) (input (4 * k + 3)))
        (f.g (input (4 * k)) (input (4 * k + 1)) (input (4 * k + 3)))
        (f.b (input (4 * k)) (input (4 * k + 1))) := by
  have hdiv : 2 * k / 2 = k := by omega
  have hmod : 2 * k % 2 = 0 := by omega
  simp [yuyvPixel, hdiv, hmod]

theorem yuyvPixel_odd (f : FromYuv) (pack : UInt8 → UInt8 → UInt8 → List UInt8)
    (input : Nat → UInt8) (k : Nat) :
    yuyvPixel f pack input (2 * k + 1) =
      pack (f.r (input (4 * k + 2)) (input (4 * k + 3)))
        (f.g (input (4 * k + 2)) (input (4 * k + 1)) (input (4 * k + 3)))
        (f.b (input (4 * k + 2)) (input (4 * k + 1))) := by
  have hdiv : (2 * k + 1) / 2 = k := by omega
  have hmod : (2 * k + 1) % 2 = 1 := by omega
  simp [yuyvPixel, hdiv, hmod]

/-- The pixels of `n` rounds, from round `k` on. -/
def yuyvRounds (f : FromYuv) (pack : UInt8 → UInt8 → UInt8 → List UInt8) (input : Nat → UInt8)
    (k n : Nat) : List UInt8 :=
  (List.range' k n).flatMap fun k =>
    yuyvPixel f pack input (2 * k) ++ yuyvPixel f pack input (2 * k + 1)

/-- A round and the rounds behind it. -/
theorem write_yuyvRounds {pack : UInt8 → UInt8 → UInt8 → List UInt8} {c : Nat}
    (hpack : ∀ r g b, (pack r g b).length = c) (f : FromYuv) (input : Nat → UInt8) (k n a : Nat)
    (m : Nat → UInt8) :
    write (write (write m a (yuyvPixel f pack input (2 * k))) (a + c)
        (yuyvPixel f pack input (2 * k + 1))) (a + 2 * c) (yuyvRounds f pack input (k + 1) n) =
      write m a (yuyvRounds f pack input k (n + 1)) := by
  have hlen : ∀ i, (yuyvPixel f pack input i).length = c := fun i => hpack _ _ _
  have hfirst := write_append m a (yuyvPixel f pack input (2 * k))
    (yuyvPixel f pack input (2 * k + 1))
  have hrest := write_append m a
    (yuyvPixel f pack input (2 * k) ++ yuyvPixel f pack input (2 * k + 1))
    (yuyvRounds f pack input (k + 1) n)
  rw [hlen] at hfirst
  rw [List.length_append, hlen, hlen, ← Nat.two_mul] at hrest
  rw [hfirst, hrest]
  rfl

/-- **The 16-bit loop** lays its pixels down from where its pointer stands. -/
theorem pyuv422torgb565Loop_eq (f : FromYuv) (input : Nat → UInt8) (n k : Nat)
    (m : Nat → UInt8) :
    pyuv422torgb565Loop f input n (4 * k) (4 * k) m =
      write m (4 * k) (yuyvRounds f rgb565Bytes input k n) := by
  induction n generalizing k m with
  | zero => simp [pyuv422torgb565Loop, yuyvRounds]
  | succ n ih =>
      have hnext : 4 * k + 4 = 4 * (k + 1) := by ring
      have hround := write_yuyvRounds length_rgb565Bytes f input k n (4 * k) m
      rw [pyuv422torgb565Loop]
      simp only [putBytes16_eq]
      rw [← yuyvPixel_even f rgb565Bytes, ← yuyvPixel_odd f rgb565Bytes, hnext, ih, ← hnext]
      exact hround

/-- **The 32-bit loop** does the same, with its own pointer. -/
theorem pyuv422torgb32Loop_eq (f : FromYuv) (input : Nat → UInt8) (n k : Nat) (m : Nat → UInt8) :
    pyuv422torgb32Loop f input n (4 * k) (2 * k) m =
      write m (8 * k) (yuyvRounds f rgb32Bytes input k n) := by
  induction n generalizing k m with
  | zero => simp [pyuv422torgb32Loop, yuyvRounds]
  | succ n ih =>
      have hbuff : 4 * k + 4 = 4 * (k + 1) := by ring
      have hpt : 2 * k + 2 = 2 * (k + 1) := by ring
      have hfirst : 4 * (2 * k) = 8 * k := by ring
      have hsecond : 4 * (2 * k + 1) = 8 * k + 4 := by ring
      have hround := write_yuyvRounds length_rgb32Bytes f input k n (8 * k) m
      have hpixel : ∀ r g b : UInt8,
          le32 (color32 r.toUInt32 g.toUInt32 b.toUInt32) = rgb32Bytes r g b := fun _ _ _ => rfl
      rw [pyuv422torgb32Loop]
      simp only [hpixel]
      rw [← yuyvPixel_even f rgb32Bytes, ← yuyvPixel_odd f rgb32Bytes, hbuff, hpt, ih, hfirst,
        hsecond]
      exact hround

/-- The inner loop of `Rgb2RgbConvert` moves both pointers on by a line. -/
theorem rgb2RgbLine_eq (input : Nat → UInt8) (x p : Nat) (m : Nat → UInt8) :
    rgb2RgbLine input x p p m =
      (p + x, p + x, write m (4 * p) ((List.range' p x).flatMap (rgb565Pixel input))) := by
  induction x generalizing p m with
  | zero => simp [rgb2RgbLine]
  | succ x ih =>
      have hpixel : le32 (widen565 (getLe16 input (2 * p)).toUInt32) = rgb565Pixel input p := rfl
      have hwrite := write_append m (4 * p) (rgb565Pixel input p)
        ((List.range' (p + 1) x).flatMap (rgb565Pixel input))
      have hcount : p + 1 + x = p + (x + 1) := by ring
      rw [rgb2RgbLine, hpixel, ih, hcount, List.range'_succ, List.flatMap_cons, ← hwrite]
      rfl

/-- **The widening loops** lay down the pixels of all lines. -/
theorem rgb2RgbLoop_eq (input : Nat → UInt8) (iWidth y p : Nat) (m : Nat → UInt8) :
    rgb2RgbLoop input iWidth y p p m =
      write m (4 * p) ((List.range' p (y * iWidth)).flatMap (rgb565Pixel input)) := by
  induction y generalizing p m with
  | zero => simp [rgb2RgbLoop]
  | succ y ih =>
      have hlen : ((List.range' p iWidth).flatMap (rgb565Pixel input)).length = 4 * iWidth := by
        simp [List.length_flatMap, Nat.mul_comm]
      have hwrite := write_append m (4 * p) ((List.range' p iWidth).flatMap (rgb565Pixel input))
        ((List.range' (p + iWidth) (y * iWidth)).flatMap (rgb565Pixel input))
      have hplace : 4 * (p + iWidth) = 4 * p + 4 * iWidth := by ring
      have hsplit : List.range' p ((y + 1) * iWidth) =
          List.range' p iWidth ++ List.range' (p + iWidth) (y * iWidth) := by
        rw [Nat.succ_mul, Nat.add_comm, ← List.range'_append_1]
      rw [rgb2RgbLoop, rgb2RgbLine_eq]
      simp only
      rw [ih, hsplit, List.flatMap_append, ← hwrite, hlen, hplace]

/-! ## The pixels -/

/-- The 565 packing of a 32-bit pixel: the high bits of its colours. -/
def pack565 (color : UInt32) : UInt16 :=
  let red := (color >>> 19) &&& 0x1f
  let green := (color >>> 10) &&& 0x3f
  let blue := (color >>> 3) &&& 0x1f
  ((red <<< 11) ||| (green <<< 5) ||| blue).toUInt16

/-- `pack565` on the bits. -/
def packBits (c : BitVec 32) : BitVec 16 :=
  (((c >>> 19 &&& 0x1f#32) <<< 11) ||| ((c >>> 10 &&& 0x3f#32) <<< 5) |||
    (c >>> 3 &&& 0x1f#32)).setWidth 16

/-- The packed pixel has the five, six and five high bits of the colours. -/
theorem getLsbD_packBits (c : BitVec 32) (i : Nat) :
    (packBits c).getLsbD i = (decide (i < 16) &&
      c.getLsbD (if i < 5 then i + 3 else if i < 11 then i + 5 else i + 8)) := by
  have h5 : ∀ j, (0x1f#32).getLsbD j = decide (j < 5) := BitField.getLsbD_mask (k := 5) (by decide)
  have h6 : ∀ j, (0x3f#32).getLsbD j = decide (j < 6) := BitField.getLsbD_mask (k := 6) (by decide)
  simp only [packBits, BitVec.getLsbD_setWidth, BitVec.getLsbD_or, BitVec.getLsbD_and,
    BitVec.getLsbD_shiftLeft, BitVec.getLsbD_ushiftRight, h5, h6]
  grind

/-- Widening the packed pixel keeps the bits that were packed. -/
theorem widen565_pack565 (color : UInt32) :
    widen565 (pack565 color).toUInt32 = color &&& 0x00F8FCF8 := by
  have h5 : ∀ j, (0x1f#32).getLsbD j = decide (j < 5) := BitField.getLsbD_mask (k := 5) (by decide)
  have h6 : ∀ j, (0x3f#32).getLsbD j = decide (j < 6) := BitField.getLsbD_mask (k := 6) (by decide)
  have hmask : ∀ i < 32, (0x00F8FCF8#32).getLsbD i =
      decide ((3 ≤ i ∧ i < 8) ∨ (10 ≤ i ∧ i < 16) ∨ (19 ≤ i ∧ i < 24)) := by decide
  have hbits : ∀ q : BitVec 32, q = (packBits color.toBitVec).setWidth 32 →
      (((q >>> 11) <<< 3) <<< 16) ||| (((q >>> 5 &&& 0x3f#32) <<< 2) <<< 8) |||
        ((q &&& 0x1f#32) <<< 3) = color.toBitVec &&& 0x00F8FCF8#32 := by
    rintro q rfl
    apply BitVec.eq_of_getLsbD_eq
    intro i hi
    simp only [BitVec.getLsbD_or, BitVec.getLsbD_and, BitVec.getLsbD_shiftLeft,
      BitVec.getLsbD_ushiftRight, BitVec.getLsbD_setWidth, getLsbD_packBits, h5, h6, hmask i hi]
    grind
  exact UInt32.toBitVec_inj.mp (hbits _ rfl)

/-- A byte has eight bits. -/
theorem getLsbD_byte (c : UInt8) (j : Nat) (hj : 8 ≤ j) : c.toBitVec.getLsbD j = false :=
  BitVec.getLsbD_of_ge _ _ hj

/-- The bits of a 32-bit pixel. -/
theorem getLsbD_color32 (r g b : UInt8) (i : Nat) :
    (color32 r.toUInt32 g.toUInt32 b.toUInt32).toBitVec.getLsbD i =
      (if i < 8 then b.toBitVec.getLsbD i
        else if i < 16 then g.toBitVec.getLsbD (i - 8) else r.toBitVec.getLsbD (i - 16)) := by
  have hbits : (color32 r.toUInt32 g.toUInt32 b.toUInt32).toBitVec =
      (r.toBitVec.setWidth 32 <<< 16) ||| (g.toBitVec.setWidth 32 <<< 8) |||
        b.toBitVec.setWidth 32 := rfl
  rw [hbits]
  simp only [BitVec.getLsbD_or, BitVec.getLsbD_shiftLeft, BitVec.getLsbD_setWidth]
  have hr := getLsbD_byte r
  have hg := getLsbD_byte g
  have hb := getLsbD_byte b
  grind

/-- The colour of a 16-bit pixel is the packing of that of the 32-bit one. -/
theorem color565_eq (r g b : UInt8) :
    color565 r.toUInt32 g.toUInt32 b.toUInt32 =
      (pack565 (color32 r.toUInt32 g.toUInt32 b.toUInt32)).toUInt32 := by
  have hbits : (color565 r.toUInt32 g.toUInt32 b.toUInt32).toBitVec =
      (packBits (color32 r.toUInt32 g.toUInt32 b.toUInt32).toBitVec).setWidth 32 := by
    have hcolor : (color565 r.toUInt32 g.toUInt32 b.toUInt32).toBitVec =
        ((r.toBitVec.setWidth 32 >>> 3) <<< 11) ||| ((g.toBitVec.setWidth 32 >>> 2) <<< 5) |||
          (b.toBitVec.setWidth 32 >>> 3) := rfl
    apply BitVec.eq_of_getLsbD_eq
    intro i hi
    rw [hcolor]
    simp only [BitVec.getLsbD_setWidth, BitVec.getLsbD_or, BitVec.getLsbD_shiftLeft,
      BitVec.getLsbD_ushiftRight, getLsbD_packBits, getLsbD_color32]
    have hr := getLsbD_byte r
    have hg := getLsbD_byte g
    have hb := getLsbD_byte b
    grind
  exact UInt32.toBitVec_inj.mp hbits

/-- The two low bytes of a colour of 16 bits. -/
theorem bytes_of_color (x : UInt16) :
    [(x.toUInt32 &&& 0xff).toUInt8, ((x.toUInt32 >>> 8) &&& 0xff).toUInt8] = le16 x := by
  have hlow : ∀ c : UInt32, (c &&& 0xff).toUInt8 = UInt8.ofNat c.toNat := by
    intro c
    apply UInt8.toNat_inj.mp
    have hmask : (0xff : UInt32).toNat = 2 ^ 8 - 1 := rfl
    rw [UInt32.toNat_toUInt8, UInt32.toNat_and, hmask, Nat.and_two_pow_sub_one_eq_mod,
      UInt8.toNat_ofNat', Nat.mod_mod]
  have hshift : (x.toUInt32 >>> 8).toNat = x.toNat / 0x100 := by
    rw [UInt32.toNat_shiftRight, Nat.shiftRight_eq_div_pow, UInt16.toNat_toUInt32]
    rfl
  rw [hlow, hlow, hshift, UInt16.toNat_toUInt32]
  rfl

/-- The 16-bit pixel is the packing of the 32-bit one. -/
theorem rgb565Bytes_eq (r g b : UInt8) :
    rgb565Bytes r g b = le16 (pack565 (color32 r.toUInt32 g.toUInt32 b.toUInt32)) := by
  rw [← bytes_of_color, ← color565_eq, color565_shifted]
  rfl

/-- The two pixels that the two YUYV loops make of pixel `i` of a frame. -/
theorem yuyvPixel_packed (f : FromYuv) (input : Nat → UInt8) (i : Nat) :
    ∃ color, yuyvPixel f rgb32Bytes input i = le32 color ∧
      yuyvPixel f rgb565Bytes input i = le16 (pack565 color) :=
  ⟨_, rfl, rgb565Bytes_eq _ _ _⟩

theorem yuyvRounds_zero (f : FromYuv) (pack : UInt8 → UInt8 → UInt8 → List UInt8)
    (input : Nat → UInt8) (n : Nat) : yuyvRounds f pack input 0 n = yuyvBytes f pack input n := by
  rw [yuyvRounds, yuyvBytes, List.range_eq_range']

/-- What `Yuv2RgbConvert` stores for a 16-bit output is what the loop leaves. -/
theorem pyuv422torgb565Mem_eq (f : FromYuv) (input : Nat → UInt8) (width height : UInt32)
    (m : Nat → UInt8) :
    pyuv422torgb565Mem f input width height m =
      write m 0 (pyuv422torgb565 f input width height) := by
  have hloop := pyuv422torgb565Loop_eq f input (width * height / 2).toNat 0 m
  rwa [yuyvRounds_zero] at hloop

theorem pyuv422torgb32Mem_eq (f : FromYuv) (input : Nat → UInt8) (width height : UInt32)
    (m : Nat → UInt8) :
    pyuv422torgb32Mem f input width height m =
      write m 0 (pyuv422torgb32 f input width height) := by
  have hloop := pyuv422torgb32Loop_eq f input (width * height / 2).toNat 0 m
  rwa [yuyvRounds_zero] at hloop

theorem rgb2Rgb32Mem_eq (input : Nat → UInt8) (iWidth iHeight : Int32) (m : Nat → UInt8) :
    rgb2Rgb32Mem input iWidth iHeight m =
      write m 0 ((List.range (iHeight.toInt.toNat * iWidth.toInt.toNat)).flatMap
        (rgb565Pixel input)) := by
  rw [rgb2Rgb32Mem, rgb2RgbLoop_eq, List.range_eq_range']

/-- What `Rgb2RgbConvert` leaves in a 32-bit output is what its loops leave. -/
theorem rgb2RgbConvert_rgb32 {inBuf out : VideoBuf Data} {b : Block}
    (hin : inBuf.iPixelFormat = V4L2_PIX_FMT_RGB565) (hout : out.iPixelFormat = V4L2_PIX_FMT_RGB32)
    (hdata : out.tPixelDatas.aucPixelDatas = .block b) (malloc : Malloc) :
    (rgb2RgbConvert malloc inBuf out).out.tPixelDatas.aucPixelDatas =
      .block ⟨b.size, rgb2Rgb32Mem inBuf.tPixelDatas.aucPixelDatas.bytes
        inBuf.tPixelDatas.iWidth inBuf.tPixelDatas.iHeight b.bytes⟩ := by
  have hother : out.iPixelFormat ≠ V4L2_PIX_FMT_RGB565 := by
    rw [hout]
    decide
  rw [rgb2Rgb32Mem_eq, rgb2RgbConvert, if_neg (not_not.mpr hin), if_neg hother, if_pos hout]
  simp only [VideoBuf.fill, PixelDatas.allocated, PixelDatas.sized, PixelDatas.stored, hdata]
  rfl

/-- The pixels of a converted frame, and the cells behind them. -/
theorem yuyv_written {pack : UInt8 → UInt8 → UInt8 → List UInt8} {c : Nat}
    (hpack : ∀ r g b, (pack r g b).length = c) (f : FromYuv) (input : Nat → UInt8) (n : Nat)
    (m : Nat → UInt8) :
    (∀ i < 2 * n, read (write m 0 (yuyvBytes f pack input n)) (i * c) c =
      yuyvPixel f pack input i) ∧
    ∀ k, 2 * n * c ≤ k → write m 0 (yuyvBytes f pack input n) k = m k := by
  constructor
  · intro i hi
    rw [yuyvBytes_eq]
    have hread := read_write_flatMap m (fun i => hpack _ _ _) 0 hi (g := yuyvPixel f pack input)
    rwa [Nat.zero_add] at hread
  · intro k hk
    apply write_outside
    rw [length_yuyvBytes hpack]
    omega

/-- **The three paths agree.**  Pixel `i` of the 16-bit output is the packing of pixel
`i` of the 32-bit one, and widened to 32 bits it is that pixel under a mask; behind the
pixels nothing is written. -/
theorem pixel_paths_agree (f : FromYuv) (input m16 m32 : Nat → UInt8) (width height : UInt32) :
    let pixels := 2 * (width * height / 2).toNat
    let a := pyuv422torgb565Mem f input width height m16
    let b := pyuv422torgb32Mem f input width height m32
    (∀ i < pixels, getLe16 a (2 * i) = pack565 (getLe32 b (4 * i))) ∧
    (∀ (iWidth iHeight : Int32) (m : Nat → UInt8),
      ∀ i < pixels, i < iHeight.toInt.toNat * iWidth.toInt.toNat →
        getLe32 (rgb2Rgb32Mem a iWidth iHeight m) (4 * i) = getLe32 b (4 * i) &&& 0x00F8FCF8) ∧
    (∀ k, 2 * pixels ≤ k → a k = m16 k) ∧ ∀ k, 4 * pixels ≤ k → b k = m32 k := by
  intro pixels a b
  obtain ⟨h16, hafter16⟩ :=
    yuyv_written length_rgb565Bytes f input (width * height / 2).toNat m16
  obtain ⟨h32, hafter32⟩ := yuyv_written length_rgb32Bytes f input (width * height / 2).toNat m32
  have ha : a = write m16 0 (yuyvBytes f rgb565Bytes input (width * height / 2).toNat) :=
    pyuv422torgb565Mem_eq f input width height m16
  have hb : b = write m32 0 (yuyvBytes f rgb32Bytes input (width * height / 2).toNat) :=
    pyuv422torgb32Mem_eq f input width height m32
  rw [← ha] at h16 hafter16
  rw [← hb] at h32 hafter32
  have hpacked : ∀ i < pixels, getLe16 a (2 * i) = pack565 (getLe32 b (4 * i)) := by
    intro i hi
    obtain ⟨color, hwide, hnarrow⟩ := yuyvPixel_packed f input i
    have hcolor : getLe32 b (4 * i) = color := by
      apply getLe32_of_read
      rw [Nat.mul_comm, h32 i hi, hwide]
    rw [hcolor]
    apply getLe16_of_read
    rw [Nat.mul_comm, h16 i hi, hnarrow]
  refine ⟨hpacked, ?_, fun k hk => hafter16 k (by omega), fun k hk => hafter32 k (by omega)⟩
  intro iWidth iHeight m i hi hin
  have hread := read_write_flatMap m (length_rgb565Pixel a) 0 hin
  rw [← rgb2Rgb32Mem_eq, Nat.zero_add, Nat.mul_comm] at hread
  have hpixel : rgb565Pixel a i = le32 (widen565 (getLe16 a (2 * i)).toUInt32) := rfl
  rw [getLe32_of_read (hread.trans hpixel), hpacked i hi, widen565_pack565]

/-- One pair of pixels, with colours that differ in their low bits. -/
example :
    let f : FromYuv := ⟨fun y _ => y, fun y _ _ => y, fun y _ => y⟩
    let a := pyuv422torgb565Mem f (fun k => if k = 2 then 0x7F else 0x84) 1 2 fun _ => 0
    (getLe16 a 0, getLe16 a 2, getLe16 a 4) = (0x8430, 0x7BEF, 0) := by
  decide

end Video2lcd
