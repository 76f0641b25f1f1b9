import UsbCamera.Base.CInt
import UsbCamera.Video2lcd.Convert

/-!
# The size of the conversion buffer

All converters allocate the data of their output when there are none, and use
what is there otherwise.  Nobody frees it in between, so the block has the size
that the first converted frame asked for, while size and total bytes are computed
anew for every frame.

So a run of conversions stays within its block exactly when no frame stores more
than the first one asked for (`conversion_buffer_fits_iff`).  For a JPEG stream the
size comes out of each frame's own header, and nothing compares it with what was
allocated.  The first frame is no exception: what it asks for is an `int`, and the
product of width, height and depth may not fit one.  Where it does, a frame stores
no more than it asks for (`InRange.stored_le`).
-/

namespace Video2lcd

open CInt

/-! ## The property and its condition -/

/-- Frames converted one after another into the same output. -/
def convertAll (f : FromYuv) : VideoBuf Data → List (Converter × Frame) → List Converted
  | _, [] => []
  | out, (c, frame) :: rest =>
      let done := c.convert f frame out
      done :: convertAll f done.out rest

/-- Every byte of the pieces lies below `n`. -/
def StoredBelow (n : Nat) (pieces : List (Nat × List UInt8)) : Prop :=
  ∀ piece ∈ pieces, piece.2 ≠ [] → piece.1 + piece.2.length ≤ n

/-- Every byte that is stored lies in the block it is stored to. -/
def Converted.Fits (r : Converted) : Prop :=
  ∀ pieces, r.stores = some pieces → StoredBelow r.out.tPixelDatas.aucPixelDatas.size pieces

/-- `libjpeg` reports the size of a JPEG frame and delivers all its rows. -/
def Frame.Decodes (c : Converter) (frame : Frame) : Prop :=
  c = .mjpeg2Rgb →
    ∃ width height components row, frame.jpeg = .picture width height components row none

/-- Width, height and depth of the picture that a call makes, for an output of
the given format and depth; nothing where the call makes none. -/
def pictureSize (iPixelFormat iBpp : Int32) (c : Converter) (frame : Frame) :
    Option (Int32 × Int32 × Int32) :=
  let iWidth := frame.buf.tPixelDatas.iWidth
  let iHeight := frame.buf.tPixelDatas.iHeight
  let rgb := if iPixelFormat = V4L2_PIX_FMT_RGB565 then some (iWidth, iHeight, 16)
    else if iPixelFormat = V4L2_PIX_FMT_RGB32 then some (iWidth, iHeight, 32)
    else none
  match c with
  | .yuv2Rgb => rgb
  | .rgb2Rgb => if frame.buf.iPixelFormat = V4L2_PIX_FMT_RGB565 then rgb else none
  | .mjpeg2Rgb =>
      match frame.jpeg with
      | .broken => none
      | .picture width height _ _ _ =>
          if frame.lineBuffer then
            some (width.toUInt32.toInt32, height.toUInt32.toInt32, iBpp)
          else none

/-- The bytes of a picture, as the converters compute them. -/
def totalBytes (size : Int32 × Int32 × Int32) : Int32 := size.1 * size.2.2 / 8 * size.2.1

/-- A picture that a call makes: who makes it, its size, and what `malloc` would
answer. -/
structure Made where
  converter : Converter
  size : Int32 × Int32 × Int32
  malloc : Malloc

/-- The bytes that are stored for the picture, which nothing keeps below `2 ^ 31`.
A YUYV picture is stored two pixels at a time, a JPEG picture row by row, and only at
the depths that `CovertOneLine` knows. -/
def Made.stored (m : Made) : Nat :=
  let (iWidth, iHeight, iBpp) := m.size
  match m.converter with
  | .yuv2Rgb => 2 * (iWidth.toUInt32 * iHeight.toUInt32 / 2).toNat * (iBpp.toInt.toNat / 8)
  | .rgb2Rgb =>
      if iBpp = 16 then (totalBytes m.size).toUInt32.toNat
      else iHeight.toInt.toNat * iWidth.toInt.toNat * 4
  | .mjpeg2Rgb =>
      if iBpp = 16 ∨ iBpp = 24 ∨ iBpp = 32 then
        iHeight.toInt.toNat * (iWidth.toInt.toNat * (iBpp.toInt.toNat / 8))
      else 0

/-- The bytes that `malloc` is asked for. -/
def Made.asked (m : Made) : Nat := (totalBytes m.size).toUInt32.toNat

/-- The pictures that the frames make, one after another. -/
def made (iPixelFormat : Int32) : Int32 → List (Converter × Frame) → List Made
  | _, [] => []
  | iBpp, (c, frame) :: rest =>
      match pictureSize iPixelFormat iBpp c frame with
      | none => made iPixelFormat iBpp rest
      | some size => ⟨c, size, frame.malloc⟩ :: made iPixelFormat size.2.2 rest

/-- The first picture for which `malloc` gives memory asks for as many bytes as it
stores itself and as every later one stores; those before it store none. -/
def FirstLargest : List Made → Prop
  | [] => True
  | m :: rest =>
      if (m.malloc m.asked).isSome then
        m.stored ≤ m.asked ∧ ∀ x ∈ rest, x.stored ≤ m.asked
      else m.stored = 0 ∧ FirstLargest rest

instance FirstLargest.decidable : DecidablePred FirstLargest
  | [] => .isTrue trivial
  | m :: rest =>
      have := FirstLargest.decidable rest
      inferInstanceAs (Decidable (if (m.malloc m.asked).isSome then
        m.stored ≤ m.asked ∧ ∀ x ∈ rest, x.stored ≤ m.asked
      else m.stored = 0 ∧ FirstLargest rest))

/-! ## What a call stores -/

/-- A single piece at the start of the block. -/
theorem storedBelow_singleton {n : Nat} {bytes : List UInt8} :
    StoredBelow n [(0, bytes)] ↔ bytes.length ≤ n := by
  simp only [StoredBelow, List.forall_mem_singleton, Nat.zero_add]
  constructor
  · intro h
    by_cases hnil : bytes = []
    · simp [hnil]
    · exact h hnil
  · exact fun h _ => h

/-- Rows of `k` bytes, one behind the other. -/
theorem storedBelow_rows {n k rows : Nat} {line : Nat → List UInt8}
    (hline : ∀ y, (line y).length = k) :
    StoredBelow n ((List.range rows).map fun y => (y * k, line y)) ↔ rows * k ≤ n := by
  have hnil : ∀ y, line y ≠ [] ↔ k ≠ 0 := by
    intro y
    rw [← hline y, Ne, Ne, List.length_eq_zero_iff]
  simp only [StoredBelow, List.forall_mem_map, List.mem_range, hline, hnil]
  constructor
  · intro h
    -- the last row is the one that reaches furthest
    cases rows with
    | zero => simp
    | succ m =>
        rcases Nat.eq_zero_or_pos k with rfl | hpos
        · simp
        · rw [Nat.succ_mul]
          exact h m (Nat.lt_succ_self m) hpos.ne'
  · intro h y hy _
    calc y * k + k = (y + 1) * k := (Nat.succ_mul y k).symm
      _ ≤ rows * k := Nat.mul_le_mul_right k hy
      _ ≤ n := h

/-- A row of a JPEG picture, at a depth that `CovertOneLine` knows. -/
theorem length_covertOneLine {w b : Int32} (hb : b = 16 ∨ b = 24 ∨ b = 32) (row : Nat → UInt8) :
    (covertOneLine w b row).length = w.toInt.toNat * (b.toInt.toNat / 8) := by
  rcases hb with rfl | rfl | rfl
  · simp [covertOneLine]
  · simp [covertOneLine]
  · simp [covertOneLine]

/-- At any other depth nothing is stored. -/
theorem covertOneLine_nil {w b : Int32} (hb : ¬ (b = 16 ∨ b = 24 ∨ b = 32)) (row : Nat → UInt8) :
    covertOneLine w b row = [] := by
  push Not at hb
  simp [covertOneLine, hb]

/-- The line bytes of a JPEG picture, whose width has 16 bits. -/
theorem jpeg_lineBytes {b : Int32} (hb : b = 16 ∨ b = 24 ∨ b = 32) (width : UInt16) :
    (width.toUInt32.toInt32 * b / 8).toInt.toNat =
      width.toUInt32.toInt32.toInt.toNat * (b.toInt.toNat / 8) := by
  have hlt := width.toNat_lt
  obtain ⟨p, hp, hdepth⟩ : ∃ p : Nat, p ≤ 4 ∧ b.toInt = 8 * p := by
    rcases hb with rfl | rfl | rfl
    · exact ⟨2, by decide, rfl⟩
    · exact ⟨3, by decide, rfl⟩
    · exact ⟨4, by decide, rfl⟩
  have hbits : width.toNat * (8 * p) < 2 ^ 31 :=
    lt_of_le_of_lt (Nat.mul_le_mul_left _ (by omega : 8 * p ≤ 32)) (by omega)
  have hbytes : b.toInt.toNat / 8 = p := by omega
  rw [toInt_pixel_bytes (toInt_of_uint16 width) hdepth hbits, toInt_of_uint16, hbytes,
    Int.toNat_natCast, Int.toNat_natCast]

/-- The rows of a JPEG picture. -/
theorem storedBelow_jpegRows (n : Nat) (width height : UInt16) (b : Int32) (malloc : Malloc)
    (row : Nat → Nat → UInt8) :
    StoredBelow n (jpegRows width.toUInt32.toInt32 b (width.toUInt32.toInt32 * b / 8) row
        height.toNat) ↔
      Made.stored ⟨.mjpeg2Rgb, (width.toUInt32.toInt32, height.toUInt32.toInt32, b), malloc⟩ ≤
        n := by
  have hheight : height.toUInt32.toInt32.toInt.toNat = height.toNat := by
    rw [toInt_of_uint16, Int.toNat_natCast]
  unfold Made.stored jpegRows
  by_cases hb : b = 16 ∨ b = 24 ∨ b = 32
  · simp only [if_pos hb, hheight]
    rw [jpeg_lineBytes hb width]
    exact storedBelow_rows fun y => length_covertOneLine hb (row y)
  · simp only [if_neg hb, Nat.zero_le, iff_true]
    intro piece hpiece hne
    obtain ⟨y, -, rfl⟩ := List.mem_map.mp hpiece
    exact absurd (covertOneLine_nil hb (row y)) hne

/-- A call that makes no picture stores nothing and leaves the format, the depth
and the data of the output alone. -/
theorem convert_of_none {f : FromYuv} {c : Converter} {frame : Frame} {out : VideoBuf Data}
    (hdec : frame.Decodes c)
    (h : pictureSize out.iPixelFormat out.tPixelDatas.iBpp c frame = none) :
    (c.convert f frame out).Fits ∧
    (c.convert f frame out).out.iPixelFormat = out.iPixelFormat ∧
    (c.convert f frame out).out.tPixelDatas.iBpp = out.tPixelDatas.iBpp ∧
    (c.convert f frame out).out.tPixelDatas.aucPixelDatas = out.tPixelDatas.aucPixelDatas := by
  unfold Converted.Fits
  cases c with
  | yuv2Rgb =>
      simp only [pictureSize] at h
      split at h
      · cases h
      · rename_i h565
        split at h
        · cases h
        · rename_i h32
          simp [Converter.convert, yuv2RgbConvert, h565, h32]
  | rgb2Rgb =>
      simp only [pictureSize] at h
      split at h
      · rename_i hin
        split at h
        · cases h
        · rename_i h565
          split at h
          · cases h
          · rename_i h32
            simp [Converter.convert, rgb2RgbConvert, hin, h565, h32]
      · rename_i hin
        simp [Converter.convert, rgb2RgbConvert, hin]
  | mjpeg2Rgb =>
      obtain ⟨width, height, components, row, hjpeg⟩ := hdec rfl
      simp only [pictureSize, hjpeg] at h
      split at h
      · cases h
      · rename_i hline
        simp [Converter.convert, mjpeg2RgbConvert, hjpeg, hline]

/-- A call that makes a picture gives the output its size, allocates, and stores as
many bytes as the picture has. -/
theorem convert_of_some {f : FromYuv} {c : Converter} {frame : Frame} {out : VideoBuf Data}
    {size : Int32 × Int32 × Int32} (hdec : frame.Decodes c)
    (h : pictureSize out.iPixelFormat out.tPixelDatas.iBpp c frame = some size) :
    ∃ pieces, c.convert f frame out = out.fill size.1 size.2.1 size.2.2 frame.malloc pieces ∧
      ∀ n, StoredBelow n pieces ↔ Made.stored ⟨c, size, frame.malloc⟩ ≤ n := by
  cases c with
  | yuv2Rgb =>
      simp only [pictureSize] at h
      simp only [Converter.convert, yuv2RgbConvert]
      split at h
      · rename_i h565
        cases h
        rw [if_pos h565]
        refine ⟨_, rfl, fun n => storedBelow_singleton.trans ?_⟩
        rw [pyuv422torgb565, length_yuyvBytes length_rgb565Bytes]
        rfl
      · rename_i h565
        rw [if_neg h565]
        split at h
        · rename_i h32
          cases h
          rw [if_pos h32]
          refine ⟨_, rfl, fun n => storedBelow_singleton.trans ?_⟩
          rw [pyuv422torgb32, length_yuyvBytes length_rgb32Bytes]
          rfl
        · cases h
  | rgb2Rgb =>
      simp only [pictureSize] at h
      split at h
      · rename_i hin
        simp only [Converter.convert, rgb2RgbConvert, hin, ne_eq, not_true_eq_false, if_false]
        split at h
        · rename_i h565
          cases h
          rw [if_pos h565]
          refine ⟨_, rfl, fun n => storedBelow_singleton.trans ?_⟩
          rw [ByteStore.length_read]
          rfl
        · rename_i h565
          rw [if_neg h565]
          split at h
          · rename_i h32
            cases h
            rw [if_pos h32]
            refine ⟨_, rfl, fun n => storedBelow_singleton.trans ?_⟩
            have hdepth : ¬ (32 : Int32) = 16 := by decide
            simp [Made.stored, hdepth, List.length_flatMap]
          · cases h
      · cases h
  | mjpeg2Rgb =>
      obtain ⟨width, height, components, row, hjpeg⟩ := hdec rfl
      simp only [pictureSize, hjpeg] at h
      split at h
      · rename_i hline
        cases h
        have hnot : ¬ frame.lineBuffer = false := by simp [hline]
        simp only [Converter.convert, mjpeg2RgbConvert, hjpeg, if_neg hnot, Option.isSome_none,
          Bool.false_eq_true, if_false, Option.getD_none, Nat.min_self]
        exact ⟨_, rfl, fun n => storedBelow_jpegRows n width height _ frame.malloc row⟩
      · cases h

/-- What a filled output is like. -/
theorem fill_spec (out : VideoBuf Data) (size : Int32 × Int32 × Int32) (malloc : Malloc)
    (pieces : List (Nat × List UInt8)) :
    let done := out.fill size.1 size.2.1 size.2.2 malloc pieces
    done.out.iPixelFormat = out.iPixelFormat ∧ done.out.tPixelDatas.iBpp = size.2.2 ∧
    done.out.tPixelDatas.aucPixelDatas =
      (match out.tPixelDatas.aucPixelDatas with
        | .null => mallocData malloc (totalBytes size)
        | p => p).store pieces := by
  unfold VideoBuf.fill PixelDatas.allocated PixelDatas.stored
  cases hdata : out.tPixelDatas.aucPixelDatas <;>
    simp [PixelDatas.sized, totalBytes, hdata]

/-- A picture fits the block that its call leaves in the output. -/
theorem fits_fill_iff (out : VideoBuf Data) {m : Made} {pieces : List (Nat × List UInt8)}
    (hstored : ∀ n, StoredBelow n pieces ↔ m.stored ≤ n) :
    (out.fill m.size.1 m.size.2.1 m.size.2.2 m.malloc pieces).Fits ↔
      m.stored ≤ (out.fill m.size.1 m.size.2.1 m.size.2.2 m.malloc
        pieces).out.tPixelDatas.aucPixelDatas.size := by
  rw [← hstored]
  constructor
  · exact fun hfits => hfits pieces rfl
  · intro hbelow pieces' hpieces
    obtain rfl := Option.some.inj hpieces
    exact hbelow

/-! ## Runs of conversions -/

/-- What one converted frame needs of an output with a block: the frame stays
within the block, which keeps its size. -/
theorem convert_with_block {f : FromYuv} {c : Converter} {frame : Frame} {out : VideoBuf Data}
    {b : Block} {size : Int32 × Int32 × Int32} (hdec : frame.Decodes c)
    (hdata : out.tPixelDatas.aucPixelDatas = .block b)
    (h : pictureSize out.iPixelFormat out.tPixelDatas.iBpp c frame = some size) :
    ((c.convert f frame out).Fits ↔ Made.stored ⟨c, size, frame.malloc⟩ ≤ b.size) ∧
    (c.convert f frame out).out.iPixelFormat = out.iPixelFormat ∧
    (c.convert f frame out).out.tPixelDatas.iBpp = size.2.2 ∧
    ∃ b', (c.convert f frame out).out.tPixelDatas.aucPixelDatas = .block b' ∧
      b'.size = b.size := by
  obtain ⟨pieces, hfill, hstored⟩ := convert_of_some (f := f) hdec h
  obtain ⟨hformat, hbpp, hptr⟩ := fill_spec out size frame.malloc pieces
  rw [hfill]
  rw [hdata] at hptr
  refine ⟨?_, hformat, hbpp, _, hptr, rfl⟩
  rw [fits_fill_iff _ (m := ⟨c, size, frame.malloc⟩) hstored, hptr]
  rfl

/-- **Conversions into a block.** -/
theorem convertAll_with_block {f : FromYuv} {frames : List (Converter × Frame)}
    {out : VideoBuf Data} {b : Block} (hdata : out.tPixelDatas.aucPixelDatas = .block b)
    (hdec : ∀ x ∈ frames, x.2.Decodes x.1) :
    (∀ r ∈ convertAll f out frames, r.Fits) ↔
      ∀ x ∈ made out.iPixelFormat out.tPixelDatas.iBpp frames, x.stored ≤ b.size := by
  induction frames generalizing out b with
  | nil => simp [convertAll, made]
  | cons x rest ih =>
      obtain ⟨c, frame⟩ := x
      have hhead : frame.Decodes c := hdec (c, frame) List.mem_cons_self
      have htail : ∀ x ∈ rest, x.2.Decodes x.1 := fun x hx => hdec x (List.mem_cons_of_mem _ hx)
      simp only [convertAll, made, List.forall_mem_cons]
      cases hsize : pictureSize out.iPixelFormat out.tPixelDatas.iBpp c frame with
      | none =>
          obtain ⟨hfits, hformat, hbpp, hptr⟩ := convert_of_none (f := f) hhead hsize
          rw [ih (hptr.trans hdata) htail, hformat, hbpp]
          exact ⟨fun h => h.2, fun h => ⟨hfits, h⟩⟩
      | some size =>
          obtain ⟨hfits, hformat, hbpp, b', hptr, hsame⟩ :=
            convert_with_block (f := f) hhead hdata hsize
          rw [hfits, ih hptr htail, hformat, hbpp, hsame]
          simp only [List.forall_mem_cons]

/-- **The conversion buffer.**  Frames are converted one after another into an
output that has no data at first.  Every byte that is stored lies in the block it is
stored to exactly when no frame stores more than the first one asked for, for which
the block was allocated. -/
theorem conversion_buffer_fits_iff {f : FromYuv} {frames : List (Converter × Frame)}
    {out : VideoBuf Data} (hdata : out.tPixelDatas.aucPixelDatas = .null)
    (hdec : ∀ x ∈ frames, x.2.Decodes x.1) :
    (∀ r ∈ convertAll f out frames, r.Fits) ↔
      FirstLargest (made out.iPixelFormat out.tPixelDatas.iBpp frames) := by
  induction frames generalizing out with
  | nil => simp [convertAll, made, FirstLargest]
  | cons x rest ih =>
      obtain ⟨c, frame⟩ := x
      have hhead : frame.Decodes c := hdec (c, frame) List.mem_cons_self
      have htail : ∀ x ∈ rest, x.2.Decodes x.1 := fun x hx => hdec x (List.mem_cons_of_mem _ hx)
      simp only [convertAll, made, List.forall_mem_cons]
      cases hsize : pictureSize out.iPixelFormat out.tPixelDatas.iBpp c frame with
      | none =>
          obtain ⟨hfits, hformat, hbpp, hptr⟩ := convert_of_none (f := f) hhead hsize
          rw [ih (hptr.trans hdata) htail, hformat, hbpp]
          exact ⟨fun h => h.2, fun h => ⟨hfits, h⟩⟩
      | some size =>
          obtain ⟨pieces, hfill, hstored⟩ := convert_of_some (f := f) hhead hsize
          have hfits := fits_fill_iff out (m := ⟨c, size, frame.malloc⟩) hstored
          obtain ⟨hformat, hbpp, hptr⟩ := fill_spec out size frame.malloc pieces
          rw [hdata] at hptr
          rw [hfill, hfits]
          cases hmalloc : frame.malloc (totalBytes size).toUInt32.toNat with
          | some bytes =>
              -- the block that every later frame has to do with
              simp only [mallocData, hmalloc] at hptr
              have hgiven : (frame.malloc (Made.asked ⟨c, size, frame.malloc⟩)).isSome = true := by
                rw [Made.asked, hmalloc]
                rfl
              rw [convertAll_with_block hptr htail, hformat, hbpp, hptr, FirstLargest,
                if_pos hgiven]
              rfl
          | none =>
              simp only [mallocData, hmalloc] at hptr
              have hrefused :
                  ¬ (frame.malloc (Made.asked ⟨c, size, frame.malloc⟩)).isSome = true := by
                rw [Made.asked, hmalloc]
                simp
              rw [ih hptr htail, hformat, hbpp, hptr, FirstLargest, if_neg hrefused]
              simp [Data.store, Data.size]

/-! ## Where nothing overflows -/

/-- The sizes of a picture are no negative numbers, and their products are
`int`s. -/
structure InRange (size : Int32 × Int32 × Int32) : Prop where
  width : 0 ≤ size.1.toInt
  height : 0 ≤ size.2.1.toInt
  depth : 0 ≤ size.2.2.toInt
  line : size.1.toInt * size.2.2.toInt < 2 ^ 31
  total : size.1.toInt * size.2.2.toInt * size.2.1.toInt < 2 ^ 31

/-- Then the line bytes are what they should be. -/
theorem InRange.lineBytes_eq {size : Int32 × Int32 × Int32} (h : InRange size) :
    (size.1 * size.2.2 / 8).toInt = size.1.toInt * size.2.2.toInt / 8 := by
  have hpos := mul_nonneg h.width h.depth
  have hmul := toInt_mul_of_range hpos h.line
  rw [toInt_div_eight (by rw [hmul]; exact hpos), hmul]

/-- So are the total bytes. -/
theorem InRange.totalBytes_eq {size : Int32 × Int32 × Int32} (h : InRange size) :
    (totalBytes size).toInt = size.1.toInt * size.2.2.toInt / 8 * size.2.1.toInt := by
  have hpos := mul_nonneg h.width h.depth
  have hline := h.lineBytes_eq
  have hdiv : 0 ≤ size.1.toInt * size.2.2.toInt / 8 := by positivity
  have hle : size.1.toInt * size.2.2.toInt / 8 * size.2.1.toInt ≤
      size.1.toInt * size.2.2.toInt * size.2.1.toInt := by
    apply mul_le_mul_of_nonneg_right _ h.height
    omega
  have htotal := h.total
  unfold totalBytes
  rw [toInt_mul_of_range, hline]
  · rw [hline]
    exact mul_nonneg hdiv h.height
  · rw [hline]
    omega

/-- Two pixels for every two pixels of the picture. -/
theorem two_mul_pairs_le {w h : Int32} (hw : 0 ≤ w.toInt) (hh : 0 ≤ h.toInt) :
    2 * (w.toUInt32 * h.toUInt32 / 2).toNat ≤ w.toInt.toNat * h.toInt.toNat := by
  have hwn : w.toUInt32.toNat = w.toInt.toNat := by
    have := toNat_toUInt32 hw
    omega
  have hhn : h.toUInt32.toNat = h.toInt.toNat := by
    have := toNat_toUInt32 hh
    omega
  have hprod : (w.toUInt32 * h.toUInt32 / 2).toNat =
      w.toInt.toNat * h.toInt.toNat % 2 ^ 32 / 2 := by
    rw [UInt32.toNat_div, UInt32.toNat_mul, hwn, hhn]
    rfl
  have hmod : w.toInt.toNat * h.toInt.toNat % 2 ^ 32 ≤ w.toInt.toNat * h.toInt.toNat :=
    Nat.mod_le _ _
  rw [hprod]
  omega

/-- **No overflow, no overrun.**  A picture of 16 or 32 bits a pixel whose sizes are
in range stores no more than it asks for. -/
theorem InRange.stored_le {m : Made} (hr : InRange m.size)
    (hdepth : m.size.2.2 = 16 ∨ m.size.2.2 = 32) : m.stored ≤ m.asked := by
  obtain ⟨c, ⟨w, h, b⟩, malloc⟩ := m
  have hw : (w.toInt.toNat : Int) = w.toInt := Int.toNat_of_nonneg hr.width
  have hh : (h.toInt.toNat : Int) = h.toInt := Int.toNat_of_nonneg hr.height
  have hbytes : b.toInt.toNat / 8 = 2 ∨ b.toInt.toNat / 8 = 4 := by
    rcases hdepth with rfl | rfl <;> decide
  have hline : w.toInt * b.toInt / 8 = w.toInt * (b.toInt.toNat / 8 : Nat) := by
    rcases hdepth with rfl | rfl
    · rw [show (16 : Int32).toInt = 16 from rfl, show ((16 : Int).toNat / 8 : Nat) = 2 from rfl]
      omega
    · rw [show (32 : Int32).toInt = 32 from rfl, show ((32 : Int).toNat / 8 : Nat) = 4 from rfl]
      omega
  have hasked : Made.asked ⟨c, (w, h, b), malloc⟩ =
      w.toInt.toNat * h.toInt.toNat * (b.toInt.toNat / 8) := by
    have htotal := hr.totalBytes_eq
    simp only [hline] at htotal
    have hexact : (totalBytes (w, h, b)).toInt =
        ((w.toInt.toNat * h.toInt.toNat * (b.toInt.toNat / 8) : Nat) : Int) := by
      rw [htotal]
      push_cast
      rw [hw, hh]
      ring
    exact toNat_of_toInt hexact
  have hpairs := two_mul_pairs_le hr.width hr.height
  have hrows : h.toInt.toNat * (w.toInt.toNat * (b.toInt.toNat / 8)) =
      w.toInt.toNat * h.toInt.toNat * (b.toInt.toNat / 8) := by ring
  rw [hasked]
  unfold Made.stored
  cases c with
  | yuv2Rgb => exact Nat.mul_le_mul_right _ hpairs
  | rgb2Rgb =>
      simp only
      split
      · exact hasked.le
      · rename_i h16
        obtain rfl : b = 32 := hdepth.resolve_left h16
        exact (Nat.mul_comm w.toInt.toNat h.toInt.toNat ▸ le_refl _)
  | mjpeg2Rgb =>
      simp only
      split
      · exact hrows.le
      · exact Nat.zero_le _

/-- So a stream whose frames are in range, and none of which asks for more than the
first, for which there is memory, stays within its block. -/
theorem firstLargest_of_inRange {m : Made} {rest : List Made}
    (hmalloc : (m.malloc m.asked).isSome)
    (hr : ∀ x ∈ m :: rest, InRange x.size ∧ (x.size.2.2 = 16 ∨ x.size.2.2 = 32))
    (hle : ∀ x ∈ rest, x.asked ≤ m.asked) : FirstLargest (m :: rest) := by
  have hstored : ∀ x ∈ m :: rest, x.stored ≤ x.asked :=
    fun x hx => (hr x hx).1.stored_le (hr x hx).2
  rw [FirstLargest, if_pos hmalloc]
  refine ⟨hstored m List.mem_cons_self, fun x hx => ?_⟩
  exact (hstored x (List.mem_cons_of_mem _ hx)).trans (hle x hx)

/-! ## Two streams -/

/-- An output without data. -/
def emptyOut (iPixelFormat iBpp : Int32) : VideoBuf Data where
  tPixelDatas := ⟨0, 0, iBpp, 0, 0, .null⟩
  iPixelFormat := iPixelFormat

/-- A JPEG frame of one colour and a given size, with enough memory. -/
def plainJpeg (width height : UInt16) : Frame where
  buf := emptyOut V4L2_PIX_FMT_MJPEG 0
  malloc := fun _ => some fun _ => 0
  lineBuffer := true
  jpeg := .picture width height 3 (fun _ _ => 0x80) none

theorem plainJpeg_decodes (width height : UInt16) : (plainJpeg width height).Decodes .mjpeg2Rgb :=
  fun _ => ⟨width, height, 3, _, rfl⟩

/-- A camera that goes from 160x120 to 320x240: from row 60 on the second frame is stored
behind the end of a block of 38400 bytes.  A single frame of 46341x46341 pixels asks
for 9266 bytes, and its first row has 92682. -/
theorem growing_frames_overflow :
    (∃ r ∈ convertAll colorC (emptyOut 0 16)
        [(.mjpeg2Rgb, plainJpeg 160 120), (.mjpeg2Rgb, plainJpeg 320 240)],
      r.out.tPixelDatas.iTotalBytes = 153600 ∧
        r.out.tPixelDatas.aucPixelDatas.size = 38400 ∧ ¬ r.Fits) ∧
    ∃ r ∈ convertAll colorC (emptyOut 0 16) [(.mjpeg2Rgb, plainJpeg 46341 46341)],
      r.out.tPixelDatas.iTotalBytes = 9266 ∧
        r.out.tPixelDatas.aucPixelDatas.size = 9266 ∧ ¬ r.Fits := by
  constructor
  · refine ⟨_, .tail _ (.head _), rfl, rfl, ?_⟩
    -- the output as the first frame leaves it
    have hblock := @convert_with_block colorC _ _
      ((Converter.mjpeg2Rgb).convert colorC (plainJpeg 160 120) (emptyOut 0 16)).out _ _
      (plainJpeg_decodes 320 240) rfl rfl
    rw [hblock.1]
    decide
  · refine ⟨_, .head _, rfl, rfl, ?_⟩
    obtain ⟨pieces, hfill, hstored⟩ := @convert_of_some colorC _ _ (emptyOut 0 16) _
      (plainJpeg_decodes 46341 46341) rfl
    have hmore : ¬ Made.stored ⟨.mjpeg2Rgb, (46341, 46341, 16), (plainJpeg 46341 46341).malloc⟩ ≤
        9266 := by decide
    rw [hfill, fits_fill_iff _ (m := ⟨.mjpeg2Rgb, _, _⟩) hstored]
    exact hmore

/-- The first stream the other way round stays within its block. -/
theorem shrinking_frames_fit :
    (convertAll colorC (emptyOut 0 16)
      [(.mjpeg2Rgb, plainJpeg 320 240), (.mjpeg2Rgb, plainJpeg 160 120)]).length = 2 ∧
    ∀ r ∈ convertAll colorC (emptyOut 0 16)
      [(.mjpeg2Rgb, plainJpeg 320 240), (.mjpeg2Rgb, plainJpeg 160 120)], r.Fits := by
  refine ⟨rfl, ?_⟩
  apply (conversion_buffer_fits_iff rfl _).mpr
  · decide
  · simp only [List.forall_mem_cons, List.not_mem_nil, false_imp_iff, implies_true, and_true]
    exact ⟨plainJpeg_decodes 320 240, plainJpeg_decodes 160 120⟩

end Video2lcd
