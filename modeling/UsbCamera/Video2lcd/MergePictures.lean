import UsbCamera.Video2lcd.PictureMemory

/-!
# Merging pictures in memory

`PicMerge` overlays one rectangle of the big picture with the small one, and nothing
else in the memory changes.  Doing it again changes nothing, and pictures merged into
rectangles with no pixel in common may be merged in any order.  In the block of the
big picture it leaves what the model of `Picture.lean` says (`picMerge_window`).

`PicMergeRegion` copies a rectangle of one picture into another.  It checks where the
rectangles begin, and not where they end.  `picMergeRegion_stays_inside_iff` says when
that is enough, for pictures of any number of bits a pixel: the copying goes by whole
bytes, and where a pixel begins inside one the whole byte is copied.
-/

namespace Video2lcd.InMemory

open ByteStore CInt Copies Raster Address

/-- A small picture without gaps, and the place `r` for it inside a big one without
gaps of the same depth. -/
structure FitsInto (small big : Picture) (r : Rect) (w h p : Nat) (iX iY : Int32) : Prop where
  source : Placed small r.width r.height p (r.width * p)
  target : Placed big w h p (w * p)
  bits : w * (8 * p) < 2 ^ 31
  apart : Apart small (r.width * p * r.height) big (w * p * h)
  left : iX.toInt = r.left
  top : iY.toInt = r.top
  right : r.left + r.width ≤ w
  bottom : r.top + r.height ≤ h

namespace FitsInto

variable {small big : Picture} {r : Rect} {w h p : Nat} {iX iY : Int32}

theorem columns (hfit : FitsInto small big r w h p iX iY) :
    (r.left + r.width) * p ≤ w * p :=
  Nat.mul_le_mul_right p hfit.right

/-- The line that lies lowest in the big picture ends inside it. -/
theorem target_le (hfit : FitsInto small big r w h p iX iY) {i : Nat} (hi : i < r.height) :
    r.top * (w * p) + r.left * p + i * (w * p) + r.width * p ≤ w * p * h := by
  have hline : (r.top + i) * (w * p) + w * p ≤ w * p * h :=
    line_le (by have := hfit.bottom; omega)
  have hsum : (r.top + i) * (w * p) = r.top * (w * p) + i * (w * p) := Nat.add_mul _ _ _
  have hcols := hfit.columns
  rw [Nat.add_mul] at hcols
  omega

/-- The calls `PicMerge` makes. -/
theorem call_eq (hfit : FitsInto small big r w h p iX iY) :
    picMerge iX iY small big =
      ⟨0, (List.range r.height).map fun i =>
        ⟨big.aucPixelDatas.toNat + (r.top * (w * p) + r.left * p + i * (w * p)),
          small.aucPixelDatas.toNat + i * (r.width * p), r.width * p⟩⟩ := by
  have hpass : ¬ (big.iWidth < small.iWidth ∨ big.iHeight < small.iHeight ∨
      small.iBpp ≠ big.iBpp) := by
    simp only [not_or, Int32.not_lt, Int32.le_iff_toInt_le, ne_eq, not_not]
    have hright := hfit.right
    have hbottom := hfit.bottom
    refine ⟨?_, ?_, ?_⟩
    · rw [hfit.source.width, hfit.target.width]
      omega
    · rw [hfit.source.height, hfit.target.height]
      omega
    · apply Int32.toInt.inj
      rw [hfit.source.depth, hfit.target.depth]
  have hrounds : small.iHeight.toInt.toNat = r.height := by
    rw [hfit.source.height]
    rfl
  have hsrcLine : small.iLineBytes.toUInt32.toNat = r.width * p :=
    toNat_of_toInt hfit.source.line
  have hdstLine : big.iLineBytes.toUInt32.toNat = w * p := toNat_of_toInt hfit.target.line
  rw [picMerge, if_neg hpass, copyLines_eq, hrounds]
  congr 1
  apply List.map_congr_left
  intro i hi
  have hi' : i < r.height := List.mem_range.mp hi
  have htarget := hfit.target_le hi'
  have hbigfits := hfit.target.fits
  have hsmallfits := hfit.source.fits
  have hsource : i * (r.width * p) + r.width * p ≤ r.width * p * r.height := line_le hi'
  have hbits : r.left * (8 * p) < 2 ^ 31 := by
    have hle : r.left * (8 * p) ≤ w * (8 * p) :=
      Nat.mul_le_mul_right _ (by have := hfit.right; omega)
    have := hfit.bits
    omega
  have hplace := hfit.target.pixelAddress_toNat hfit.left hfit.top hbits (by omega)
  rw [toNat_step (by rw [hplace, hdstLine]; omega), toNat_step (by rw [hsrcLine]; omega), hplace,
    hsrcLine, hdstLine, Nat.add_assoc big.aucPixelDatas.toNat, Nat.add_assoc]

/-- `PicMerge` never reads what it has written. -/
theorem separate (hfit : FitsInto small big r w h p iX iY) :
    Separate (picMerge iX iY small big).copies := by
  rw [hfit.call_eq]
  intro c hc d hd
  obtain ⟨i, hi, rfl⟩ := List.mem_map.mp hc
  obtain ⟨j, hj, rfl⟩ := List.mem_map.mp hd
  have hsource : i * (r.width * p) + r.width * p ≤ r.width * p * r.height :=
    line_le (List.mem_range.mp hi)
  have htarget := hfit.target_le (List.mem_range.mp hj)
  have hapart := hfit.apart
  unfold Apart at hapart
  simp only
  omega

/-- `PicMerge` overlays the rectangle. -/
theorem overlaysAt (hfit : FitsInto small big r w h p iX iY) (m : Memory) :
    OverlaysAt big.aucPixelDatas.toNat r (w * p) p
      (pixel (window m small.aucPixelDatas.toNat) (r.width * p) p) m
      ((picMerge iX iY small big).after m) := by
  have hpieces : (picMerge iX iY small big).copies.map (Copy.piece m) =
      (rows (r.top * (w * p) + r.left * p) (w * p) r.height fun y =>
        read (window m small.aucPixelDatas.toNat) (y * (r.width * p)) (r.width * p)).map
          fun piece => (big.aucPixelDatas.toNat + piece.1, piece.2) := by
    rw [hfit.call_eq, rows, List.map_map, List.map_map]
    apply List.map_congr_left
    intro i _
    simp only [Copy.piece, Function.comp_apply, read_window]
  unfold Call.after
  rw [run_eq_writeAll hfit.separate, hpieces]
  apply overlaysAt_of_pieces
  exact overlays_rows hfit.columns _ _

/-- Outside the big picture nothing changes. -/
theorem outside (hfit : FitsInto small big r w h p iX iY) (m : Memory) {a : Nat}
    (ha : a < big.aucPixelDatas.toNat ∨ big.aucPixelDatas.toNat + w * p * h ≤ a) :
    (picMerge iX iY small big).after m a = m a :=
  (hfit.overlaysAt m).outside hfit.columns hfit.bottom ha

/-- A picture that has no byte in common with the big one is the same after a merge
into the big one. -/
theorem pixel_after {small' : Picture} {r' : Rect} {iX' iY' : Int32}
    (hfit : FitsInto small big r w h p iX iY) (hfit' : FitsInto small' big r' w h p iX' iY')
    (m : Memory) {x y : Nat} (hx : x < r'.width) (hy : y < r'.height) :
    pixel (window ((picMerge iX iY small big).after m) small'.aucPixelDatas.toNat)
        (r'.width * p) p x y =
      pixel (window m small'.aucPixelDatas.toNat) (r'.width * p) p x y := by
  have hline : y * (r'.width * p) + r'.width * p ≤ r'.width * p * r'.height := line_le hy
  have hcol : x * p + p ≤ r'.width * p := pixel_before hx
  have hapart := hfit'.apart
  unfold Apart at hapart
  apply read_congr
  intro k hlow hhigh
  apply hfit.outside
  omega

end FitsInto

/-- **One rectangle.**  `PicMerge` returns 0; it overlays the rectangle and leaves the
rest of the memory as it was, the small picture included.  Merging once more changes
nothing, and merges into rectangles with no pixel in common commute. -/
theorem picMerge_overlays_one_rectangle {small big : Picture} {r : Rect} {w h p : Nat}
    {iX iY : Int32} (hfit : FitsInto small big r w h p iX iY) :
    (picMerge iX iY small big).ret = 0 ∧
    (∀ m, let m' := (picMerge iX iY small big).after m
      OverlaysAt big.aucPixelDatas.toNat r (w * p) p
        (pixel (window m small.aucPixelDatas.toNat) (r.width * p) p) m m' ∧
      (∀ k < r.width * p * r.height,
        m' (small.aucPixelDatas.toNat + k) = m (small.aucPixelDatas.toNat + k)) ∧
      (picMerge iX iY small big).after m' = m') ∧
    ∀ (small' : Picture) (r' : Rect) (iX' iY' : Int32),
      FitsInto small' big r' w h p iX' iY' → r.Disjoint r' →
      ∀ m, (picMerge iX' iY' small' big).after ((picMerge iX iY small big).after m) =
        (picMerge iX iY small big).after ((picMerge iX' iY' small' big).after m) := by
  refine ⟨by rw [hfit.call_eq], ?_, ?_⟩
  · intro m m'
    have hover := hfit.overlaysAt m
    refine ⟨hover, ?_, ?_⟩
    · intro k hk
      have hapart := hfit.apart
      unfold Apart at hapart
      apply hfit.outside
      omega
    · have hagain := (hfit.overlaysAt m').congr fun x hx y hy => hfit.pixel_after hfit m hx hy
      exact hover.again hagain
  · intro small' r' iX' iY' hfit' hdisj m
    have hfirst := hfit.overlaysAt m
    have hfirst' := hfit'.overlaysAt m
    have hsecond := (hfit.overlaysAt ((picMerge iX' iY' small' big).after m)).congr
      fun x hx y hy => hfit'.pixel_after hfit m hx hy
    have hsecond' := (hfit'.overlaysAt ((picMerge iX iY small big).after m)).congr
      fun x hx y hy => hfit.pixel_after hfit' m hx hy
    exact hfirst.comm hdisj hfit.columns hfit'.columns hsecond' hfirst' hsecond

/-- A picture with one byte for each pixel. -/
def greyPicture (iWidth iHeight : Int32) (address : UInt32) : Picture :=
  ⟨iWidth, iHeight, 8, iWidth, iWidth * iHeight, address⟩

/-- Two pictures of two columns and three lines are merged into a picture of four by
four side by side, in any order, and a picture of its own size covers it all. -/
theorem pictures_merged :
    let first := picMerge 0 1 (greyPicture 2 3 0x100) (greyPicture 4 4 0x200)
    let second := picMerge 2 1 (greyPicture 2 3 0x140) (greyPicture 4 4 0x200)
    let whole := picMerge 0 0 (greyPicture 4 4 0x180) (greyPicture 4 4 0x200)
    first.ret = 0 ∧ whole.ret = 0 ∧ ∀ m,
      OverlaysAt 0x200 ⟨0, 1, 2, 3⟩ 4 1 (pixel (window m 0x100) 2 1) m (first.after m) ∧
      OverlaysAt 0x200 ⟨0, 0, 4, 4⟩ 4 1 (pixel (window m 0x180) 4 1) m (whole.after m) ∧
      first.after (first.after m) = first.after m ∧
      second.after (first.after m) = first.after (second.after m) := by
  have hfirst : FitsInto (greyPicture 2 3 0x100) (greyPicture 4 4 0x200) ⟨0, 1, 2, 3⟩ 4 4 1 0 1 :=
    ⟨⟨rfl, rfl, rfl, rfl, by decide, by decide⟩, ⟨rfl, rfl, rfl, rfl, by decide, by decide⟩,
      by decide, Or.inl (by decide), rfl, rfl, by decide, by decide⟩
  have hsecond : FitsInto (greyPicture 2 3 0x140) (greyPicture 4 4 0x200) ⟨2, 1, 2, 3⟩ 4 4 1 2 1 :=
    ⟨⟨rfl, rfl, rfl, rfl, by decide, by decide⟩, ⟨rfl, rfl, rfl, rfl, by decide, by decide⟩,
      by decide, Or.inl (by decide), rfl, rfl, by decide, by decide⟩
  have hwhole : FitsInto (greyPicture 4 4 0x180) (greyPicture 4 4 0x200) ⟨0, 0, 4, 4⟩ 4 4 1 0 0 :=
    ⟨⟨rfl, rfl, rfl, rfl, by decide, by decide⟩, ⟨rfl, rfl, rfl, rfl, by decide, by decide⟩,
      by decide, Or.inl (by decide), rfl, rfl, by decide, by decide⟩
  have hdisjoint : Rect.Disjoint ⟨0, 1, 2, 3⟩ ⟨2, 1, 2, 3⟩ := by
    rintro x y ⟨⟨-, hlt⟩, -⟩ ⟨⟨hge, -⟩, -⟩
    simp only at hlt hge
    omega
  obtain ⟨hret, hover, hcomm⟩ := picMerge_overlays_one_rectangle hfirst
  obtain ⟨hret', hover', -⟩ := picMerge_overlays_one_rectangle hwhole
  refine ⟨hret, hret', fun m => ⟨(hover m).1, (hover' m).1, (hover m).2.2, ?_⟩⟩
  exact hcomm _ _ _ _ hsecond hdisjoint m

/-- In the block of the big picture, `PicMerge` leaves what it leaves of blocks. -/
theorem picMerge_window {small big : Picture} {r : Rect} {w h p : Nat} {iX iY : Int32}
    (hfit : FitsInto small big r w h p iX iY) (hsize : w * p * h < 2 ^ 28) (m : Memory)
    (size size' : Nat) :
    Video2lcd.picMerge iX iY (Picture.block small m size) (Picture.block big m size') =
      (0, Picture.block big ((picMerge iX iY small big).after m) size') := by
  have hsource : r.width * p * r.height ≤ w * p * h :=
    Nat.mul_le_mul (Nat.mul_le_mul_right p (by have := hfit.right; omega))
      (by have := hfit.bottom; omega)
  have hsmall : Dense (Picture.block small m size) r.width r.height p :=
    ⟨hfit.source.width, hfit.source.height, hfit.source.depth,
      by rw [← Nat.cast_mul]; exact hfit.source.line, by omega⟩
  have hbig : Dense (Picture.block big m size') w h p :=
    ⟨hfit.target.width, hfit.target.height, hfit.target.depth,
      by rw [← Nat.cast_mul]; exact hfit.target.line, hsize⟩
  obtain ⟨bytes, hmerge, hover⟩ :=
    picMerge_overlays hsmall hbig rfl hfit.left hfit.top hfit.right hfit.bottom
  have hsame : window ((picMerge iX iY small big).after m) big.aucPixelDatas.toNat = bytes :=
    hover.unique (hfit.overlaysAt m).behind
  rw [hmerge, ← hsame]
  rfl

/-- A picture of `w` times `h` pixels of `b` bits and of less than `2 ^ 31` bytes lies in
the memory as a whole.  A line has the bytes that its pixels fill. -/
structure Packed (pic : Picture) (w h b : Nat) : Prop where
  width : pic.iWidth.toInt = w
  height : pic.iHeight.toInt = h
  depth : pic.iBpp.toInt = b
  bits : w * b < 2 ^ 31
  line : pic.iLineBytes.toInt = ((w * b / 8 : Nat) : Int)
  total : w * b / 8 * h < 2 ^ 31
  fits : pic.aucPixelDatas.toNat + w * b / 8 * h < 2 ^ 32

/-- The coordinates are those of a pixel of a picture of `w` times `h`. -/
def IsPixel (w h : Nat) (iX iY : Int32) : Prop :=
  (0 ≤ iX.toInt ∧ iX.toInt < w) ∧ 0 ≤ iY.toInt ∧ iY.toInt < h

/-- The byte at `a` is byte `j` of a line of such a picture at `base`, and has bits of a
pixel of the rectangle in it. -/
def InRegion (base : Nat) (r : Rect) (w h b a : Nat) : Prop :=
  ∃ x y j, r.Has x y ∧ x < w ∧ y < h ∧ j < w * b / 8 ∧ a = base + y * (w * b / 8) + j ∧
    x * b < 8 * j + 8 ∧ 8 * j < (x + 1) * b

/-- A call that returns 0 reads bytes of the one region and writes bytes of the other
one only; any other returns -1 and changes nothing. -/
def Call.StaysInside (call : Call) (readable writable : Nat → Prop) : Prop :=
  (call.ret = 0 →
    (∀ c ∈ call.copies, ∀ k < c.len, readable (c.src + k) ∧ writable (c.dst + k)) ∧
    ∀ m a, ¬ writable a → call.after m a = m a) ∧
  (call.ret ≠ 0 → call.ret = -1 ∧ ∀ m, call.after m = m)

/-- What is not written does not change. -/
theorem Call.stays_of_copies {call : Call} {readable writable : Nat → Prop} (hret : call.ret = 0)
    (h : ∀ c ∈ call.copies, ∀ k < c.len, readable (c.src + k) ∧ writable (c.dst + k)) :
    call.StaysInside readable writable := by
  refine ⟨fun _ => ⟨h, fun m a ha => ?_⟩, fun hne => absurd hret hne⟩
  apply run_outside
  intro c hc
  by_contra hin
  have hwritten := (h c hc (a - c.dst) (by omega)).2
  rw [Nat.add_sub_cancel' (by omega)] at hwritten
  exact ha hwritten

/-- A call that copies lines stays inside if every byte of a line does. -/
theorem stays_lines_iff {dst src : Nat → Nat} {rounds n : Nat} {readable writable : Nat → Prop} :
    (Call.mk 0 ((List.range rounds).map fun i => ⟨dst i, src i, n⟩)).StaysInside
        readable writable ↔
      (∀ i < rounds, ∀ k < n, readable (src i + k)) ∧
        ∀ i < rounds, ∀ k < n, writable (dst i + k) := by
  constructor
  · intro hstays
    have hbytes : ∀ i < rounds, ∀ k < n, readable (src i + k) ∧ writable (dst i + k) :=
      fun i hi k hk =>
        (hstays.1 rfl).1 _ (List.mem_map.mpr ⟨i, List.mem_range.mpr hi, rfl⟩) k hk
    exact ⟨fun i hi k hk => (hbytes i hi k hk).1, fun i hi k hk => (hbytes i hi k hk).2⟩
  · rintro ⟨hread, hwritten⟩
    apply Call.stays_of_copies rfl
    intro c hc k hk
    obtain ⟨i, hi, rfl⟩ := List.mem_map.mp hc
    have hi' : i < rounds := List.mem_range.mp hi
    exact ⟨hread i hi' k hk, hwritten i hi' k hk⟩

theorem refused_stays (readable writable : Nat → Prop) : refused.StaysInside readable writable :=
  ⟨fun h => absurd h (by decide), fun _ => ⟨rfl, fun _ => rfl⟩⟩

/-- The bytes of a line that `PicMergeRegion` copies. -/
def lineBytesCpy (iWidth : Int32) (ptNewPic : Picture) : Nat :=
  (iWidth * ptNewPic.iBpp / 8).toUInt32.toNat

/-- They are those of `iWidth` pixels, unless the product overflows. -/
theorem lineBytesCpy_eq {iWidth : Int32} {pic : Picture} {width b : Nat}
    (hwidth : iWidth.toInt = width) (hdepth : pic.iBpp.toInt = b)
    (hbits : width * b < 2 ^ 31) : lineBytesCpy iWidth pic = width * b / 8 :=
  toNat_of_toInt (toInt_bits_bytes hwidth hdepth hbits)

/-- A product that overflows into a length a picture can have gives fewer bytes than
`iWidth` pixels have. -/
theorem lineBytesCpy_le {iWidth : Int32} {pic : Picture} {width b : Nat}
    (hwidth : iWidth.toInt = width) (hdepth : pic.iBpp.toInt = b)
    (hsmall : lineBytesCpy iWidth pic < 2 ^ 31) : 8 * lineBytesCpy iWidth pic ≤ width * b := by
  have hsigned : (iWidth * pic.iBpp / 8).toInt = lineBytesCpy iWidth pic := toInt_of_small hsmall
  have hprod : (iWidth * pic.iBpp).toInt = ((width * b : Nat) : Int).bmod (2 ^ 32) := by
    rw [Int32.toInt_mul, hwidth, hdepth]
    push_cast
    rfl
  have hle : (iWidth * pic.iBpp).toInt ≤ ((width * b : Nat) : Int) := by
    rw [hprod, Int.bmod_def]
    split <;> omega
  rcases Int.lt_or_le (iWidth * pic.iBpp).toInt 0 with hneg | hpos
  · have hdiv : (iWidth * pic.iBpp / 8).toInt ≤ 0 := toInt_div_eight_nonpos hneg
    omega
  · rw [toInt_div_eight hpos] at hsigned
    omega

/-- Every byte that is copied of a line has bits of one of the pixels in it: of the one
that begins before it, or else of the first. -/
theorem pixel_of_byte {x w width b n k : Nat} (hx : x < w) (hright : x * b / 8 + n ≤ w * b / 8)
    (hn : 8 * n ≤ width * b) (hk : k < n) :
    ∃ x', x ≤ x' ∧ x' < x + width ∧ x' < w ∧ x' * b < 8 * (x * b / 8 + k) + 8 ∧
      8 * (x * b / 8 + k) < (x' + 1) * b := by
  have hb : 0 < b := Nat.pos_of_ne_zero fun hzero => by
    rw [hzero] at hn
    omega
  have hwidth : 0 < width := Nat.pos_of_ne_zero fun hzero => by
    rw [hzero] at hn
    omega
  by_cases hbit : x * b ≤ 8 * (x * b / 8 + k)
  · have hlow : 8 * (x * b / 8 + k) / b * b ≤ 8 * (x * b / 8 + k) := Nat.div_mul_le_self _ _
    have hhigh : 8 * (x * b / 8 + k) < (8 * (x * b / 8 + k) / b + 1) * b := by
      rw [Nat.add_mul, Nat.one_mul]
      exact Nat.lt_div_mul_add hb
    refine ⟨8 * (x * b / 8 + k) / b, (Nat.le_div_iff_mul_le hb).mpr hbit,
      (Nat.div_lt_iff_lt_mul hb).mpr ?_, (Nat.div_lt_iff_lt_mul hb).mpr ?_, by omega, hhigh⟩
    · rw [Nat.add_mul]
      omega
    · omega
  · refine ⟨x, le_refl x, by omega, hx, by omega, ?_⟩
    rw [Nat.add_mul, Nat.one_mul]
    omega

/-- The address of the `i`th line that is copied from or to a pixel on. -/
def lineAddress (pic : Picture) (iX iY : Int32) (i : Nat) : Nat :=
  (pixelAddress pic iX iY + UInt32.ofNat i * pic.iLineBytes.toUInt32).toNat

/-- A pixel of such a picture. -/
structure Start (pic : Picture) (w h b : Nat) (iX iY : Int32) (x y : Nat) : Prop where
  packed : Packed pic w h b
  left : iX.toInt = x
  top : iY.toInt = y
  column : x < w
  line : y < h

namespace Start

variable {pic : Picture} {w h b x y : Nat} {iX iY : Int32}

/-- The pixel begins in its line, or where the bytes of the line end. -/
theorem column_le (hs : Start pic w h b iX iY x y) : x * b / 8 ≤ w * b / 8 :=
  Nat.div_le_div_right (Nat.mul_le_mul_right b hs.column.le)

/-- The address of the byte in which the pixel begins. -/
theorem pixelAddress_toNat (hs : Start pic w h b iX iY x y) :
    (pixelAddress pic iX iY).toNat =
      pic.aucPixelDatas.toNat + y * (w * b / 8) + x * b / 8 := by
  have hline : y * (w * b / 8) + w * b / 8 ≤ w * b / 8 * h := line_le hs.line
  have hcol := hs.column_le
  have hfits := hs.packed.fits
  have hbits : x * b < 2 ^ 31 :=
    lt_of_le_of_lt (Nat.mul_le_mul_right b hs.column.le) hs.packed.bits
  have hrow : (iY * pic.iLineBytes).toUInt32.toNat = y * (w * b / 8) := by
    rw [Int32.toUInt32_mul, UInt32.toNat_mul, toNat_of_toInt hs.top,
      toNat_of_toInt hs.packed.line]
    exact Nat.mod_eq_of_lt (by omega)
  have hpixel : (iX * pic.iBpp / 8).toUInt32.toNat = x * b / 8 :=
    toNat_of_toInt (toInt_bits_bytes hs.left hs.packed.depth hbits)
  rw [pixelAddress, UInt32.toNat_add, UInt32.toNat_add, hrow, hpixel]
  omega

/-- Every line's address, up to the size of the memory. -/
theorem lineAddress_mod (hs : Start pic w h b iX iY x y) (i : Nat) :
    lineAddress pic iX iY i =
      (pic.aucPixelDatas.toNat + (y + i) * (w * b / 8) + x * b / 8) % 2 ^ 32 := by
  rw [lineAddress, toNat_step_mod, hs.pixelAddress_toNat, toNat_of_toInt hs.packed.line]
  congr 1
  ring

/-- The lines of the picture are where they should be. -/
theorem lineAddress_eq (hs : Start pic w h b iX iY x y) {i : Nat} (hi : y + i < h) :
    lineAddress pic iX iY i = pic.aucPixelDatas.toNat + (y + i) * (w * b / 8) + x * b / 8 := by
  have hline : (y + i) * (w * b / 8) + w * b / 8 ≤ w * b / 8 * h := line_le hi
  have hcol := hs.column_le
  have hfits := hs.packed.fits
  rw [hs.lineAddress_mod]
  exact Nat.mod_eq_of_lt (by omega)

/-- The line behind the last one lies outside the picture. -/
theorem lineAddress_last (hs : Start pic w h b iX iY x y) :
    lineAddress pic iX iY (h - y) < pic.aucPixelDatas.toNat ∨
      pic.aucPixelDatas.toNat + w * b / 8 * h ≤ lineAddress pic iX iY (h - y) := by
  have hcol := hs.column_le
  have hline : y * (w * b / 8) + w * b / 8 ≤ w * b / 8 * h := line_le hs.line
  have hfits := hs.packed.fits
  have htotal := hs.packed.total
  have hlast : (y + (h - y)) * (w * b / 8) = w * b / 8 * h := by
    rw [Nat.add_sub_cancel' hs.line.le, Nat.mul_comm]
  rw [hs.lineAddress_mod, hlast]
  omega

/-- A region that ends inside the picture is copied inside itself. -/
theorem inRegion (hs : Start pic w h b iX iY x y) {n rounds width : Nat}
    (hright : x * b / 8 + n ≤ w * b / 8) (hbottom : y + rounds ≤ h) (hn : 8 * n ≤ width * b)
    {i k : Nat} (hi : i < rounds) (hk : k < n) :
    InRegion pic.aucPixelDatas.toNat ⟨x, y, width, rounds⟩ w h b (lineAddress pic iX iY i + k) := by
  obtain ⟨x', hfirst, hlast, hcolumn, hlow, hhigh⟩ := pixel_of_byte hs.column hright hn hk
  refine ⟨x', y + i, x * b / 8 + k, ⟨⟨hfirst, hlast⟩, Nat.le_add_right y i, ?_⟩, hcolumn, by omega,
    by omega, ?_, hlow, hhigh⟩
  · exact Nat.add_lt_add_left hi y
  · rw [hs.lineAddress_eq (by omega), Nat.add_assoc _ (x * b / 8)]

/-- **The end of a region.**  A region that is copied inside itself ends inside the
picture.  If its lines ran over the right edge, then the last one would run into a
line below the region; if it had a line too many, then that one would lie outside the
picture. -/
theorem fits (hs : Start pic w h b iX iY x y) {n rounds width : Nat} (hn : 0 < n)
    (hrounds : 0 < rounds)
    (hin : ∀ i < rounds, ∀ k < n, InRegion pic.aucPixelDatas.toNat ⟨x, y, width, rounds⟩ w h b
      (lineAddress pic iX iY i + k)) :
    x * b / 8 + n ≤ w * b / 8 ∧ y + rounds ≤ h := by
  have hline := hs.line
  have hcol := hs.column_le
  constructor
  · by_contra hover
    obtain ⟨last, hlast, hlt, hy⟩ : ∃ last, (∀ y' < h, y' < y + rounds → y' ≤ y + last) ∧
        last < rounds ∧ y + last < h := by
      rcases Nat.le_total (y + rounds) h with hle | hle
      · exact ⟨rounds - 1, fun y' _ _ => by omega, by omega, by omega⟩
      · exact ⟨h - 1 - y, fun y' _ _ => by omega, by omega, by omega⟩
    obtain ⟨x', y', j, hhas, -, hy', hj, haddr, -⟩ :=
      hin last hlt (w * b / 8 - x * b / 8) (by omega)
    have hrow : y' * (w * b / 8) ≤ (y + last) * (w * b / 8) :=
      Nat.mul_le_mul_right _ (hlast y' hy' hhas.2.2)
    rw [hs.lineAddress_eq hy] at haddr
    omega
  · by_contra hover
    obtain ⟨x', y', j, -, -, hy', hj, haddr, -⟩ := hin (h - y) (by omega) 0 hn
    have hrow : y' * (w * b / 8) + w * b / 8 ≤ w * b / 8 * h := line_le hy'
    have hout := hs.lineAddress_last
    omega

/-- The lines of a region lie inside it exactly when there are none, or they are empty,
or it ends inside the picture. -/
theorem lines_inside_iff (hs : Start pic w h b iX iY x y) {n rounds width : Nat}
    (hn : n < 2 ^ 31 → 8 * n ≤ width * b) :
    (∀ i < rounds, ∀ k < n, InRegion pic.aucPixelDatas.toNat ⟨x, y, width, rounds⟩ w h b
      (lineAddress pic iX iY i + k)) ↔
    n = 0 ∨ rounds = 0 ∨ x * b / 8 + n ≤ w * b / 8 ∧ y + rounds ≤ h := by
  constructor
  · intro hin
    rcases Nat.eq_zero_or_pos n with hzero | hpos
    · exact Or.inl hzero
    · rcases Nat.eq_zero_or_pos rounds with hnone | hsome
      · exact Or.inr (Or.inl hnone)
      · exact Or.inr (Or.inr (hs.fits hpos hsome hin))
  · intro hcases i hi k hk
    rcases hcases with hzero | hnone | ⟨hright, hbottom⟩
    · omega
    · omega
    · have hline : y * (w * b / 8) + w * b / 8 ≤ w * b / 8 * h := line_le hs.line
      have htotal := hs.packed.total
      exact hs.inRegion hright hbottom (hn (by omega)) hi hk

end Start

section Region

variable {ptNewPic ptOldPic : Picture} {wn hn wo ho b : Nat}
variable {iStartXofNewPic iStartYofNewPic iStartXofOldPic iStartYofOldPic : Int32}

/-- The call is refused unless both start points are pixels. -/
theorem picMergeRegion_eq (hnew : Packed ptNewPic wn hn b) (hold : Packed ptOldPic wo ho b)
    (iWidth iHeight : Int32) :
    (¬ (IsPixel wn hn iStartXofNewPic iStartYofNewPic ∧
        IsPixel wo ho iStartXofOldPic iStartYofOldPic) ∧
      picMergeRegion iStartXofNewPic iStartYofNewPic iStartXofOldPic iStartYofOldPic iWidth iHeight
        ptNewPic ptOldPic = refused) ∨
    ((IsPixel wn hn iStartXofNewPic iStartYofNewPic ∧
        IsPixel wo ho iStartXofOldPic iStartYofOldPic) ∧
      picMergeRegion iStartXofNewPic iStartYofNewPic iStartXofOldPic iStartYofOldPic iWidth iHeight
        ptNewPic ptOldPic = ⟨0, (List.range iHeight.toInt.toNat).map fun i =>
          ⟨lineAddress ptOldPic iStartXofOldPic iStartYofOldPic i,
            lineAddress ptNewPic iStartXofNewPic iStartYofNewPic i,
            lineBytesCpy iWidth ptNewPic⟩⟩) := by
  have hcheck : ∀ {v bound : Int32} {n : Nat}, bound.toInt = n →
      (¬ (v < 0 ∨ bound ≤ v) ↔ 0 ≤ v.toInt ∧ v.toInt < n) := by
    intro v bound n hbound
    have hzero : (0 : Int32).toInt = 0 := rfl
    simp only [not_or, Int32.le_iff_toInt_le, Int32.lt_iff_toInt_lt]
    omega
  have htests := (hcheck (v := iStartXofNewPic) hnew.width).and
    ((hcheck (v := iStartYofNewPic) hnew.height).and
      ((hcheck (v := iStartXofOldPic) hold.width).and
        (hcheck (v := iStartYofOldPic) hold.height)))
  unfold IsPixel picMergeRegion
  simp only
  split
  · rename_i hfail
    refine Or.inl ⟨fun hpixels => ?_, rfl⟩
    obtain ⟨hxn, hyn, hxo, hyo⟩ :=
      htests.mpr ⟨hpixels.1.1, hpixels.1.2, hpixels.2.1, hpixels.2.2⟩
    exact hfail.elim hxn fun h => h.elim hyn fun h => h.elim hxo hyo
  · rename_i hpass
    simp only [not_or] at hpass htests
    obtain ⟨hxn, hyn, hxo, hyo⟩ := htests.mp hpass
    refine Or.inr ⟨⟨⟨hxn, hyn⟩, hxo, hyo⟩, ?_⟩
    rw [copyLines_eq]
    rfl

/-- **When the start points are enough.**  `PicMergeRegion` stays inside the regions of
both pictures exactly when a start point is no pixel, or nothing is to be copied, or the
regions end inside the pictures. -/
theorem picMergeRegion_stays_inside_iff {iWidth iHeight : Int32} (hnew : Packed ptNewPic wn hn b)
    (hold : Packed ptOldPic wo ho b) (hwidth : 0 ≤ iWidth.toInt) (hheight : 0 ≤ iHeight.toInt) :
    let call := picMergeRegion iStartXofNewPic iStartYofNewPic iStartXofOldPic iStartYofOldPic
      iWidth iHeight ptNewPic ptOldPic
    let n := lineBytesCpy iWidth ptNewPic
    call.StaysInside
        (InRegion ptNewPic.aucPixelDatas.toNat ⟨iStartXofNewPic.toInt.toNat,
          iStartYofNewPic.toInt.toNat, iWidth.toInt.toNat, iHeight.toInt.toNat⟩ wn hn b)
        (InRegion ptOldPic.aucPixelDatas.toNat ⟨iStartXofOldPic.toInt.toNat,
          iStartYofOldPic.toInt.toNat, iWidth.toInt.toNat, iHeight.toInt.toNat⟩ wo ho b) ↔
      ¬ (IsPixel wn hn iStartXofNewPic iStartYofNewPic ∧
          IsPixel wo ho iStartXofOldPic iStartYofOldPic) ∨ n = 0 ∨ iHeight = 0 ∨
        (iStartXofNewPic.toInt * b / 8 + n ≤ wn * b / 8 ∧
          iStartYofNewPic.toInt + iHeight.toInt ≤ hn) ∧
        (iStartXofOldPic.toInt * b / 8 + n ≤ wo * b / 8 ∧
          iStartYofOldPic.toInt + iHeight.toInt ≤ ho) := by
  intro call n
  rcases picMergeRegion_eq hnew hold iWidth iHeight with ⟨hno, hrefused⟩ |
    ⟨hpixels, hcall⟩
  · have hcall : call = refused := hrefused
    rw [hcall]
    exact ⟨fun _ => Or.inl hno, fun _ => refused_stays _ _⟩
  · have ⟨⟨⟨hxn, hxnlt⟩, hyn, hynlt⟩, ⟨hxo, hxolt⟩, hyo, hyolt⟩ := hpixels
    have hsn : Start ptNewPic wn hn b iStartXofNewPic iStartYofNewPic
        iStartXofNewPic.toInt.toNat iStartYofNewPic.toInt.toNat :=
      ⟨hnew, by omega, by omega, by omega, by omega⟩
    have hso : Start ptOldPic wo ho b iStartXofOldPic iStartYofOldPic
        iStartXofOldPic.toInt.toNat iStartYofOldPic.toInt.toNat :=
      ⟨hold, by omega, by omega, by omega, by omega⟩
    have hle : n < 2 ^ 31 → 8 * n ≤ iWidth.toInt.toNat * b :=
      lineBytesCpy_le (Int.toNat_of_nonneg hwidth).symm hnew.depth
    have hnone : iHeight.toInt.toNat = 0 ↔ iHeight = 0 := by
      rw [← Int32.toInt_inj, Int32.toInt_zero]
      omega
    have hends : ∀ {v : Int32} {w : Nat}, 0 ≤ v.toInt →
        (v.toInt * b / 8 + n ≤ w * b / 8 ↔ v.toInt.toNat * b / 8 + n ≤ w * b / 8) := by
      intro v w hv
      obtain ⟨x, hx⟩ := Int.eq_ofNat_of_zero_le hv
      rw [hx, Int.toNat_natCast]
      norm_cast
    have hlast : ∀ {v : Int32} {h : Nat}, 0 ≤ v.toInt →
        (v.toInt + iHeight.toInt ≤ h ↔ v.toInt.toNat + iHeight.toInt.toNat ≤ h) := by
      intro v h hv
      omega
    have hcall : call = _ := hcall
    rw [hcall, stays_lines_iff, hsn.lines_inside_iff hle, hso.lines_inside_iff hle, hends hxn,
      hends hxo, hlast hyn, hlast hyo, hnone, ← or_and_left, ← or_and_left]
    exact ⟨Or.inr, fun hcases => hcases.resolve_left (not_not.mpr hpixels)⟩

/-- Two lines of three pixels each are copied from corner to corner, and two pixels of
four bits, which are one byte. -/
theorem corner_regions_stay :
    (picMergeRegion 1 2 0 0 3 2 (greyPicture 4 4 0x100) (greyPicture 4 4 0x200)).StaysInside
        (InRegion 0x100 ⟨1, 2, 3, 2⟩ 4 4 8) (InRegion 0x200 ⟨0, 0, 3, 2⟩ 4 4 8) ∧
      (picMergeRegion 0 0 0 0 2 1 ⟨2, 1, 4, 1, 1, 0x100⟩ ⟨2, 1, 4, 1, 1, 0x200⟩).StaysInside
        (InRegion 0x100 ⟨0, 0, 2, 1⟩ 2 1 4) (InRegion 0x200 ⟨0, 0, 2, 1⟩ 2 1 4) := by
  have hgrey : ∀ address : UInt32, address.toNat + 16 < 2 ^ 32 →
      Packed (greyPicture 4 4 address) 4 4 8 :=
    fun address hfits => ⟨rfl, rfl, rfl, by decide, rfl, by decide, hfits⟩
  have hfour : ∀ address : UInt32, address.toNat + 1 < 2 ^ 32 →
      Packed ⟨2, 1, 4, 1, 1, address⟩ 2 1 4 :=
    fun address hfits => ⟨rfl, rfl, rfl, by decide, rfl, by decide, hfits⟩
  constructor
  · exact (picMergeRegion_stays_inside_iff (hgrey 0x100 (by decide)) (hgrey 0x200 (by decide))
      (by decide) (by decide)).mpr (Or.inr (Or.inr (Or.inr (by decide))))
  · exact (picMergeRegion_stays_inside_iff (hfour 0x100 (by decide)) (hfour 0x200 (by decide))
      (by decide) (by decide)).mpr (Or.inr (Or.inr (Or.inr (by decide))))

/-- Two columns from the last column on: the first line is read over the right edge, into
the line below, and the byte behind the pixel is written. -/
theorem region_runs_over :
    picMergeRegion 1 0 1 0 2 1 (greyPicture 2 2 0x100) (greyPicture 2 2 0x200) =
        ⟨0, [⟨0x201, 0x101, 2⟩]⟩ ∧
      ¬ (picMergeRegion 1 0 1 0 2 1 (greyPicture 2 2 0x100) (greyPicture 2 2 0x200)).StaysInside
        (InRegion 0x100 ⟨1, 0, 2, 1⟩ 2 2 8) (InRegion 0x200 ⟨1, 0, 2, 1⟩ 2 2 8) := by
  have hcall : picMergeRegion 1 0 1 0 2 1 (greyPicture 2 2 0x100) (greyPicture 2 2 0x200) =
      ⟨0, [⟨0x201, 0x101, 2⟩]⟩ := by decide
  refine ⟨hcall, ?_⟩
  rw [hcall]
  intro hstays
  obtain ⟨x, y, j, ⟨-, -, hy⟩, -, -, hj, haddr, -⟩ :=
    ((hstays.1 rfl).1 _ List.mem_cons_self 1 (by decide)).2
  simp only at hy haddr hj
  omega

end Region

end Video2lcd.InMemory
