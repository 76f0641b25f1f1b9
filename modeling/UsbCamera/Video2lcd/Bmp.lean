import UsbCamera.Base.Accesses
import UsbCamera.Base.Address
import UsbCamera.Base.CInt
import UsbCamera.Base.Raster
import UsbCamera.Video2lcd.PixelPaths

/-!
# Pictures from BMP files

`GetPixelDatasFrmBMP` takes the sizes of a picture from the header of a mapped file,
allocates the picture and converts the lines of the file one after the other.  In the
file the last line comes first, and every line is filled up to a multiple of four bytes;
so the source pointer starts at the last line of the file and steps backwards.

The functions are modelled as the loads and stores they make.  Loads are addressed from
the beginning of the file, stores from the beginning of the allocated block, both modulo
`2 ^ 32`.  What is found behind the end of the file is whatever is there.
-/

namespace Video2lcd.Bmp

open ByteStore CInt Raster Address Myuvc

/-! ## The header -/

/-- `bfOffBits` of the `BITMAPFILEHEADER`. -/
def bfOffBits (file : Nat → UInt8) : UInt32 := getLe32 file 10

/-- `biWidth` of the `BITMAPINFOHEADER`, which begins 14 bytes into the file. -/
def biWidth (file : Nat → UInt8) : UInt32 := getLe32 file 18

def biHeight (file : Nat → UInt8) : UInt32 := getLe32 file 22

def biBitCount (file : Nat → UInt8) : UInt16 := getLe16 file 28

/-! ## The functions -/

/-- One round of the loop of `CovertOneLine`. -/
def covertPixel (file : Nat → UInt8) (iDstBpp : Int32) (pudSrcDatas pos dst : UInt32) :
    List (Access UInt8) :=
  let dwBlue := (file (pudSrcDatas + pos).toNat).toUInt32
  let dwGreen := (file (pudSrcDatas + pos + 1).toNat).toUInt32
  let dwRed := (file (pudSrcDatas + pos + 2).toNat).toUInt32
  .load (pudSrcDatas + pos).toNat 1 :: .load (pudSrcDatas + pos + 1).toNat 1 ::
    .load (pudSrcDatas + pos + 2).toNat 1 ::
    if iDstBpp = 32 then [.store dst.toNat (le32 (color32 dwRed dwGreen dwBlue))]
    else if iDstBpp = 16 then [.store dst.toNat (le16 (color565 dwRed dwGreen dwBlue).toUInt16)]
    else []

/-- How far a round moves the pointer it stores through. -/
def dstStep (iDstBpp : Int32) : UInt32 :=
  if iDstBpp = 32 then 4 else if iDstBpp = 16 then 2 else 0

/-- The loop of `CovertOneLine`, with `i` rounds to go. -/
def covertPixels (file : Nat → UInt8) (iDstBpp : Int32) (pudSrcDatas : UInt32) :
    (i : Nat) → (pos dst : UInt32) → List (Access UInt8)
  | 0, _, _ => []
  | i + 1, pos, dst =>
      covertPixel file iDstBpp pudSrcDatas pos dst ++
        covertPixels file iDstBpp pudSrcDatas i (pos + 3) (dst + dstStep iDstBpp)

/-- `CovertOneLine`. -/
def covertOneLine (file : Nat → UInt8) (iWidth iSrcBpp iDstBpp : Int32)
    (pudSrcDatas pudDstDatas : UInt32) : Int32 × List (Access UInt8) :=
  if iSrcBpp ≠ 24 then (-1, [])
  else if iDstBpp = 24 then
    let n := (iWidth * 3).toUInt32.toNat
    (0, [.load pudSrcDatas.toNat n, .store pudDstDatas.toNat (read file pudSrcDatas.toNat n)])
  else (0, covertPixels file iDstBpp pudSrcDatas iWidth.toInt.toNat 0 pudDstDatas)

/-- The loop of `GetPixelDatasFrmBMP`, with `y` rounds to go.  It does not look at what
`CovertOneLine` returns. -/
def covertLines (file : Nat → UInt8) (iWidth iBMPBpp iBpp : Int32)
    (iLineWidthAlign iLineBytes : UInt32) :
    (y : Nat) → (pucSrc pucDest : UInt32) → List (Access UInt8)
  | 0, _, _ => []
  | y + 1, pucSrc, pucDest =>
      (covertOneLine file iWidth iBMPBpp iBpp pucSrc pucDest).2 ++
        covertLines file iWidth iBMPBpp iBpp iLineWidthAlign iLineBytes y
          (pucSrc - iLineWidthAlign) (pucDest + iLineBytes)

/-- How a call ended: its return value, its loads and stores, the size of the block it got
from `malloc` and still holds, and the picture. -/
structure Parsed where
  ret : Int32
  trace : List (Access UInt8)
  held : Option Nat
  pic : PixelDatas Data

/-- The loads of `biWidth`, `biHeight` and `biBitCount`. -/
def headerLoads : List (Access UInt8) := [.load 18 4, .load 22 4, .load 28 2]

/-- The loads and stores of `GetPixelDatasFrmBMP` once it has its block. -/
def pixelTrace (file : Nat → UInt8) (iWidth iHeight iBMPBpp iBpp iLineBytes : Int32) :
    List (Access UInt8) :=
  let iLineWidthReal := iWidth * iBMPBpp / 8
  let iLineWidthAlign := (iLineWidthReal + 3) &&& ~~~3
  let pucSrc := bfOffBits file + ((iHeight - 1) * iLineWidthAlign).toUInt32
  .load 10 4 :: covertLines file iWidth iBMPBpp iBpp iLineWidthAlign.toUInt32 iLineBytes.toUInt32
    iHeight.toInt.toNat pucSrc 0

/-- `GetPixelDatasFrmBMP`. -/
def getPixelDatasFrmBMP (malloc : Malloc) (file : Nat → UInt8) (pic : PixelDatas Data) : Parsed :=
  let iWidth := (biWidth file).toInt32
  let iHeight := (biHeight file).toInt32
  let iBMPBpp := (biBitCount file).toUInt32.toInt32
  if iBMPBpp ≠ 24 then ⟨-1, headerLoads, none, pic⟩
  else
    let iLineBytes := iWidth * pic.iBpp / 8
    let iTotalBytes := iHeight * iLineBytes
    let sized := fun data => { pic with
      iWidth := iWidth, iHeight := iHeight, iLineBytes := iLineBytes,
      iTotalBytes := iTotalBytes, aucPixelDatas := data }
    let size := iTotalBytes.toUInt32.toNat
    match malloc size with
    | none => ⟨-1, headerLoads, none, sized .null⟩
    | some bytes =>
        let trace := pixelTrace file iWidth iHeight iBMPBpp pic.iBpp iLineBytes
        ⟨0, headerLoads ++ trace, some size, sized (.block ⟨size, writeAll bytes (stores trace)⟩)⟩

/-- `isBMPFormat`. -/
def isBMPFormat (file : Nat → UInt8) : Int32 × List (Access UInt8) :=
  if file 0 ≠ 0x42 then (0, [.load 0 1])
  else if file 1 ≠ 0x4d then (0, [.load 0 1, .load 1 1])
  else (1, [.load 0 1, .load 1 1])

/-- `GetPixelDatasFrmFile` once the file is mapped, for a display of `iBpp` bits a pixel and
with the BMP parser alone. -/
def getPixelDatasFrmFile (malloc : Malloc) (file : Nat → UInt8) (iBpp : Int32)
    (pic : PixelDatas Data) : Parsed :=
  let isSupport := isBMPFormat file
  if isSupport.1 = 0 then ⟨-1, isSupport.2, none, pic⟩
  else
    let parsed := getPixelDatasFrmBMP malloc file { pic with iBpp := iBpp }
    { parsed with
      ret := if parsed.ret ≠ 0 then -1 else 0
      trace := isSupport.2 ++ parsed.trace }

/-! ## What the loops do -/

/-- The loop over a line, round by round: both pointers advance by a fixed step. -/
theorem covertPixels_eq (file : Nat → UInt8) (iDstBpp : Int32) (pudSrcDatas : UInt32) (n : Nat)
    (pos dst : UInt32) :
    covertPixels file iDstBpp pudSrcDatas n pos dst =
      (List.range n).flatMap fun x =>
        covertPixel file iDstBpp pudSrcDatas (pos + UInt32.ofNat x * 3)
          (dst + UInt32.ofNat x * dstStep iDstBpp) := by
  exact ((steps 3).prod (steps (dstStep iDstBpp))).flatMap_rounds
    (fun s => covertPixel file iDstBpp pudSrcDatas s.1 s.2)
    (f := fun n s => covertPixels file iDstBpp pudSrcDatas n s.1 s.2) (fun _ => rfl)
    (fun _ _ => rfl) n (pos, dst)

/-- **Backwards through the file.**  Line `y` of the picture comes from the line of the file
that has as many lines before it as line `y` has behind it. -/
theorem covertLines_eq (file : Nat → UInt8) (iWidth iBMPBpp iBpp : Int32)
    (iLineWidthAlign iLineBytes first : UInt32) (n : Nat) (pucSrc pucDest : UInt32)
    (hsrc : pucSrc + iLineWidthAlign = first + UInt32.ofNat n * iLineWidthAlign) :
    covertLines file iWidth iBMPBpp iBpp iLineWidthAlign iLineBytes n pucSrc pucDest =
      (List.range n).flatMap fun y =>
        (covertOneLine file iWidth iBMPBpp iBpp
          (first + UInt32.ofNat (n - 1 - y) * iLineWidthAlign)
          (pucDest + UInt32.ofNat y * iLineBytes)).2 := by
  induction n generalizing pucSrc pucDest with
  | zero => rfl
  | succ n ih =>
      have hhere : pucSrc = first + UInt32.ofNat n * iLineWidthAlign := by
        rw [← step_next, UInt32.add_assoc, UInt32.add_comm iLineWidthAlign,
          ← UInt32.add_assoc] at hsrc
        exact (UInt32.add_left_inj iLineWidthAlign).mp hsrc
      have hnext : pucSrc - iLineWidthAlign + iLineWidthAlign =
          first + UInt32.ofNat n * iLineWidthAlign := by
        rw [UInt32.sub_add_cancel, hhere]
      rw [covertLines, ih _ _ hnext, List.range_succ_eq_map, List.flatMap_cons, List.flatMap_map]
      simp only [step_next, step_zero, Nat.add_sub_cancel, Nat.sub_zero, ← hhere,
        Nat.succ_eq_add_one, Nat.sub_add_eq, Nat.sub_right_comm]

/-! ## One line -/

/-- The display depths that `CovertOneLine` knows, with the bytes of a pixel. -/
inductive Depth : Int32 → Nat → Prop
  | rgb565 : Depth 16 2
  | rgb24 : Depth 24 3
  | rgb32 : Depth 32 4

/-- The number of bits of a known depth. -/
theorem Depth.bits {iBpp : Int32} {p : Nat} (h : Depth iBpp p) : iBpp.toInt = 8 * p := by
  cases h <;> rfl

theorem Depth.natAbs {iBpp : Int32} {p : Nat} (h : Depth iBpp p) : iBpp.toInt.natAbs = 8 * p := by
  rw [h.bits]
  rfl

/-- A pixel of `p` bytes, from its colours. -/
def pixelForm (p : Nat) (blue green red : UInt8) : List UInt8 :=
  let color := color32 red.toUInt32 green.toUInt32 blue.toUInt32
  if p = 2 then le16 (pack565 color)
  else if p = 3 then [blue, green, red]
  else le32 color

/-- The pixel of `p` bytes for the three bytes at `a`. -/
def filePixel (file : Nat → UInt8) (p a : Nat) : List UInt8 :=
  pixelForm p (file a) (file (a + 1)) (file (a + 2))

/-- A pixel has as many bytes as its depth says. -/
theorem Depth.length_filePixel {iBpp : Int32} {p : Nat} (h : Depth iBpp p) (file : Nat → UInt8)
    (a : Nat) : (filePixel file p a).length = p := by
  cases h <;> rfl

/-- The address of a pixel in its line of the file. -/
theorem toNat_source {src : UInt32} {x n : Nat} (hx : x < n) (hs : src.toNat + 3 * n < 2 ^ 32) :
    (src + (0 + UInt32.ofNat x * 3)).toNat = src.toNat + 3 * x ∧
      (src + (0 + UInt32.ofNat x * 3) + 1).toNat = src.toNat + 3 * x + 1 ∧
      (src + (0 + UInt32.ofNat x * 3) + 2).toNat = src.toNat + 3 * x + 2 := by
  have hthree : (3 : UInt32).toNat = 3 := rfl
  have hone : (1 : UInt32).toNat = 1 := rfl
  have htwo : (2 : UInt32).toNat = 2 := rfl
  have hstart : (src + UInt32.ofNat x * 3).toNat = src.toNat + 3 * x := by
    rw [toNat_step (by rw [hthree]; omega), hthree, Nat.mul_comm]
  rw [UInt32.zero_add]
  refine ⟨hstart, ?_, ?_⟩
  · rw [UInt32.toNat_add, hstart, hone, Nat.mod_eq_of_lt (by omega)]
  · rw [UInt32.toNat_add, hstart, htwo, Nat.mod_eq_of_lt (by omega)]

/-- A pixel is read from three bytes of the file. -/
theorem reads_covertPixel (file : Nat → UInt8) (iDstBpp : Int32) (src pos dst : UInt32) (a : Nat) :
    Reads (covertPixel file iDstBpp src pos dst) a ↔
      a = (src + pos).toNat ∨ a = (src + pos + 1).toNat ∨ a = (src + pos + 2).toNat := by
  have hone : ∀ b : Nat, (b ≤ a ∧ a < b + 1) ↔ a = b := fun b => by omega
  unfold covertPixel
  simp only [reads_load, hone]
  split
  · simp
  · split <;> simp

/-- A line is read from three bytes a pixel, without a gap. -/
theorem reads_covertPixels {file : Nat → UInt8} {iDstBpp : Int32} {src : UInt32} {n : Nat}
    (hs : src.toNat + 3 * n < 2 ^ 32) (dst : UInt32) (a : Nat) :
    Reads (covertPixels file iDstBpp src n 0 dst) a ↔
      src.toNat ≤ a ∧ a < src.toNat + 3 * n := by
  rw [covertPixels_eq, reads_flatMap]
  constructor
  · intro h
    obtain ⟨x, hx, hread⟩ := h
    have hlt := List.mem_range.mp hx
    obtain ⟨hblue, hgreen, hred⟩ := toNat_source hlt hs
    rw [reads_covertPixel, hblue, hgreen, hred] at hread
    omega
  · intro h
    obtain ⟨hlow, hhigh⟩ := h
    have hlt : (a - src.toNat) / 3 < n := by omega
    obtain ⟨hblue, hgreen, hred⟩ := toNat_source hlt hs
    refine ⟨(a - src.toNat) / 3, List.mem_range.mpr hlt, ?_⟩
    rw [reads_covertPixel, hblue, hgreen, hred]
    omega

/-- The bytes that a 24-bit line takes. -/
theorem toNat_line {iWidth : Int32} {w : Nat} (hw : iWidth.toInt = w) (hline : 3 * w < 2 ^ 32) :
    (iWidth * 3).toUInt32.toNat = 3 * w := by
  have hthree : (3 : Int32).toUInt32.toNat = 3 := rfl
  rw [Int32.toUInt32_mul, UInt32.toNat_mul, toNat_of_toInt hw, hthree, Nat.mul_comm,
    Nat.mod_eq_of_lt hline]

/-- A line for a display of 24 bits is copied. -/
theorem covertOneLine_copy {file : Nat → UInt8} {iWidth : Int32} {w : Nat}
    (hw : iWidth.toInt = w) (hline : 3 * w < 2 ^ 32) (src dst : UInt32) :
    (covertOneLine file iWidth 24 24 src dst).2 =
      [.load src.toNat (3 * w), .store dst.toNat (read file src.toNat (3 * w))] := by
  unfold covertOneLine
  rw [if_neg (by decide), if_pos rfl]
  simp only [toNat_line hw hline]

/-- For every other display the loop goes through its pixels. -/
theorem covertOneLine_loop {file : Nat → UInt8} {iWidth iBpp : Int32} {w : Nat}
    (hw : iWidth.toInt = w) (hloop : iBpp ≠ 24) (src dst : UInt32) :
    (covertOneLine file iWidth 24 iBpp src dst).2 = covertPixels file iBpp src w 0 dst := by
  have hrounds : iWidth.toInt.toNat = w := by omega
  unfold covertOneLine
  rw [if_neg (by decide), if_neg hloop, hrounds]

/-- **A line is read from its first pixel to its last**, and not the bytes behind it. -/
theorem reads_covertOneLine {file : Nat → UInt8} {iWidth iBpp : Int32} {src : UInt32} {w : Nat}
    (hw : iWidth.toInt = w) (hs : src.toNat + 3 * w < 2 ^ 32) (dst : UInt32) (a : Nat) :
    Reads (covertOneLine file iWidth 24 iBpp src dst).2 a ↔
      src.toNat ≤ a ∧ a < src.toNat + 3 * w := by
  by_cases hcopy : iBpp = 24
  · rw [hcopy, covertOneLine_copy hw (by omega), reads_load, reads_store]
    simp only [reads_nil, or_false]
  · rw [covertOneLine_loop hw hcopy]
    exact reads_covertPixels hs dst a

/-- A line is read byte after byte, wherever it begins, as far as the addresses do not
wrap around. -/
theorem reads_covertOneLine_at {file : Nat → UInt8} {iWidth iBpp : Int32} {w : Nat}
    (hw : iWidth.toInt = w) (hline : 3 * w < 2 ^ 32) {src : UInt32} {k : Nat} (hk : k < 3 * w)
    (hs : src.toNat + k < 2 ^ 32) (dst : UInt32) :
    Reads (covertOneLine file iWidth 24 iBpp src dst).2 (src.toNat + k) := by
  by_cases hcopy : iBpp = 24
  · rw [hcopy, covertOneLine_copy hw hline, reads_load]
    exact Or.inl ⟨by omega, by omega⟩
  · have hthree : (3 : UInt32).toNat = 3 := rfl
    have hone : (1 : UInt32).toNat = 1 := rfl
    have htwo : (2 : UInt32).toNat = 2 := rfl
    have hstart : (src + (0 + UInt32.ofNat (k / 3) * 3)).toNat = src.toNat + 3 * (k / 3) := by
      rw [UInt32.zero_add, toNat_step (by rw [hthree]; omega), hthree, Nat.mul_comm]
    rw [covertOneLine_loop hw hcopy, covertPixels_eq, reads_flatMap]
    refine ⟨k / 3, List.mem_range.mpr (by omega), ?_⟩
    rw [reads_covertPixel, UInt32.toNat_add _ 1, UInt32.toNat_add _ 2, hstart, hone, htwo]
    omega

/-- The colour that is stored in 16 bits. -/
theorem color565_toUInt16 (r g b : UInt8) :
    (color565 r.toUInt32 g.toUInt32 b.toUInt32).toUInt16 =
      pack565 (color32 r.toUInt32 g.toUInt32 b.toUInt32) := by
  rw [color565_eq]
  exact UInt16.toUInt16_toUInt32 _

/-- One pixel is stored in the depth of the picture. -/
theorem stores_covertPixel {file : Nat → UInt8} {iBpp : Int32} {p : Nat} (hdepth : Depth iBpp p)
    (hloop : iBpp ≠ 24) {src dst : UInt32} {x n d : Nat} (hx : x < n)
    (hs : src.toNat + 3 * n < 2 ^ 32) (hd : dst.toNat = d) :
    stores (covertPixel file iBpp src (0 + UInt32.ofNat x * 3) dst) =
      [(d, filePixel file p (src.toNat + 3 * x))] := by
  obtain ⟨hblue, hgreen, hred⟩ := toNat_source hx hs
  unfold covertPixel
  simp only [stores_load, hblue, hgreen, hred, hd]
  cases hdepth with
  | rgb565 =>
      rw [color565_toUInt16]
      rfl
  | rgb24 => exact absurd rfl hloop
  | rgb32 => rfl

/-- A line of pixels is stored one beside the other. -/
theorem stores_covertPixels {file : Nat → UInt8} {iBpp : Int32} {p : Nat} (hdepth : Depth iBpp p)
    (hloop : iBpp ≠ 24) {src dst : UInt32} {n : Nat} (hs : src.toNat + 3 * n < 2 ^ 32)
    (hd : dst.toNat + n * p < 2 ^ 32) :
    stores (covertPixels file iBpp src n 0 dst) =
      (List.range n).map fun x => (dst.toNat + x * p, filePixel file p (src.toNat + 3 * x)) := by
  have hstep : (dstStep iBpp).toNat = p := by
    cases hdepth with
    | rgb565 => rfl
    | rgb24 => exact absurd rfl hloop
    | rgb32 => rfl
  rw [covertPixels_eq, stores_flatMap, List.map_eq_flatMap]
  apply List.flatMap_congr
  intro x hx
  have hlt := List.mem_range.mp hx
  have hbefore : x * p + p ≤ n * p := pixel_before hlt
  apply stores_covertPixel hdepth hloop hlt hs
  rw [toNat_step (by rw [hstep]; omega), hstep]

/-- A line of three bytes a pixel is its pixels. -/
theorem read_line (file : Nat → UInt8) (a n : Nat) :
    read file a (3 * n) = (List.range n).flatMap fun x => filePixel file 3 (a + 3 * x) := by
  induction n with
  | zero => rfl
  | succ n ih =>
      rw [Nat.mul_succ, read_add, ih, List.range_succ, List.flatMap_append]
      simp [ByteStore.read, filePixel, pixelForm, List.range_succ, Nat.add_assoc]

/-- **What a line becomes.**  Every pixel of the line is laid down in the display's
depth. -/
theorem writeAll_covertOneLine {file : Nat → UInt8} {iWidth iBpp : Int32} {p w : Nat}
    (hdepth : Depth iBpp p) (hw : iWidth.toInt = w) {src dst : UInt32}
    (hs : src.toNat + 3 * w < 2 ^ 32) (hd : dst.toNat + w * p < 2 ^ 32) (m : Nat → UInt8) :
    writeAll m (stores (covertOneLine file iWidth 24 iBpp src dst).2) =
      writeAll m ((List.range w).map fun x =>
        (dst.toNat + x * p, filePixel file p (src.toNat + 3 * x))) := by
  by_cases hcopy : iBpp = 24
  · rw [hcopy] at hdepth ⊢
    cases hdepth
    rw [covertOneLine_copy hw (by omega), stores_load, stores_store, stores_nil, read_line]
    exact write_flatMap m (fun x => Depth.rgb24.length_filePixel file _) dst.toNat w
  · rw [covertOneLine_loop hw hcopy, stores_covertPixels hdepth hcopy hs hd]

/-- A line is stored in its own line of the picture. -/
theorem writes_covertOneLine {file : Nat → UInt8} {iWidth iBpp : Int32} {p w : Nat}
    (hdepth : Depth iBpp p) (hw : iWidth.toInt = w) {src dst : UInt32}
    (hs : src.toNat + 3 * w < 2 ^ 32) (hd : dst.toNat + w * p < 2 ^ 32) {a : Nat}
    (ha : Writes (covertOneLine file iWidth 24 iBpp src dst).2 a) :
    dst.toNat ≤ a ∧ a < dst.toNat + w * p := by
  obtain ⟨piece, hpiece, hlow, hhigh⟩ := ha
  by_cases hcopy : iBpp = 24
  · rw [hcopy] at hdepth hpiece
    cases hdepth
    rw [covertOneLine_copy hw (by omega), stores_load, stores_store, stores_nil,
      List.mem_singleton] at hpiece
    rw [hpiece] at hlow hhigh
    simp only [length_read] at hlow hhigh
    omega
  · rw [covertOneLine_loop hw hcopy, stores_covertPixels hdepth hcopy hs hd] at hpiece
    obtain ⟨x, hx, rfl⟩ := List.mem_map.mp hpiece
    have hbefore : x * p + p ≤ w * p := pixel_before (List.mem_range.mp hx)
    simp only [hdepth.length_filePixel] at hlow hhigh
    omega

/-- For every other depth nothing is stored. -/
theorem stores_covertOneLine_other {iBpp : Int32} (hother : ∀ p, ¬ Depth iBpp p)
    (file : Nat → UInt8) (iWidth : Int32) (src dst : UInt32) :
    stores (covertOneLine file iWidth 24 iBpp src dst).2 = [] := by
  have h16 : iBpp ≠ 16 := fun h => hother 2 (h ▸ .rgb565)
  have h24 : iBpp ≠ 24 := fun h => hother 3 (h ▸ .rgb24)
  have h32 : iBpp ≠ 32 := fun h => hother 4 (h ▸ .rgb32)
  unfold covertOneLine
  rw [if_neg (by decide), if_neg h24, covertPixels_eq, stores_flatMap]
  apply List.flatMap_eq_nil_iff.mpr
  intro x _
  simp only [covertPixel, if_neg h16, if_neg h32, stores_load, stores_nil]

/-! ## All lines -/

/-- A line of the file, filled up to a multiple of four bytes. -/
def rowBytes (w : Nat) : Nat := (3 * w + 3) / 4 * 4

/-- A row has room for its pixels. -/
theorem le_rowBytes (w : Nat) : 3 * w ≤ rowBytes w := by
  unfold rowBytes
  omega

/-- Padding is at most three bytes. -/
theorem rowBytes_le (w : Nat) : rowBytes w ≤ 3 * w + 3 := by
  unfold rowBytes
  omega

/-- Where a line of the file begins. -/
def rowAt (file : Nat → UInt8) (w row : Nat) : Nat := (bfOffBits file).toNat + row * rowBytes w

/-- `pucSrc` at the line that has `row` lines before it in the file. -/
def rowSrc (file : Nat → UInt8) (w row : Nat) : UInt32 :=
  bfOffBits file + UInt32.ofNat row * UInt32.ofNat (rowBytes w)

/-- The address of a row does not wrap as long as it is below `2 ^ 32`. -/
theorem toNat_rowSrc {file : Nat → UInt8} {w row : Nat} (h : rowAt file w row < 2 ^ 32) :
    (rowSrc file w row).toNat = rowAt file w row := by
  unfold rowSrc rowAt at *
  rcases Nat.eq_zero_or_pos row with hzero | hpos
  · rw [hzero, step_zero, Nat.zero_mul, Nat.add_zero]
  · have hle : rowBytes w ≤ row * rowBytes w := Nat.le_mul_of_pos_left _ hpos
    have hbytes : (UInt32.ofNat (rowBytes w)).toNat = rowBytes w := by
      rw [UInt32.toNat_ofNat', Nat.mod_eq_of_lt (by omega)]
    rw [toNat_step (by rw [hbytes]; exact h), hbytes]

/-- The step from line to line, as long as it does not overflow. -/
theorem toUInt32_align {iWidth : Int32} {w : Nat} (hw : iWidth.toInt = w)
    (hcols : w * 24 < 2 ^ 31) :
    ((iWidth * 24 / 8 + 3) &&& ~~~3).toUInt32 = UInt32.ofNat (rowBytes w) := by
  have hreal : (iWidth * 24 / 8).toInt = ((w * 3 : Nat) : Int) := toInt_pixel_bytes hw rfl hcols
  have halign := toInt_align_four hreal (by omega)
  have hle := rowBytes_le w
  apply UInt32.toNat_inj.mp
  rw [toNat_of_toInt halign, UInt32.toNat_ofNat', Nat.mod_eq_of_lt (by omega), Nat.mul_comm w 3]
  rfl

/-- **The lines of the file, from the last to the first**, with the step as the code
computes it. -/
theorem pixelTrace_lines {file : Nat → UInt8} {iHeight : Int32} {h : Nat}
    (hh : iHeight.toInt = h) (iWidth iBpp iLineBytes : Int32) :
    pixelTrace file iWidth iHeight 24 iBpp iLineBytes =
      .load 10 4 :: (List.range h).flatMap fun y =>
        (covertOneLine file iWidth 24 iBpp
          (bfOffBits file + UInt32.ofNat (h - 1 - y) *
            ((iWidth * 24 / 8 + 3) &&& ~~~3).toUInt32)
          (0 + UInt32.ofNat y * iLineBytes.toUInt32)).2 := by
  have hrounds : iHeight.toInt.toNat = h := by omega
  have hheight : iHeight.toUInt32 = UInt32.ofNat h := by
    rw [← toNat_of_toInt hh, UInt32.ofNat_toNat]
  have hsrc : bfOffBits file + ((iHeight - 1) * ((iWidth * 24 / 8 + 3) &&& ~~~3)).toUInt32 +
      ((iWidth * 24 / 8 + 3) &&& ~~~3).toUInt32 =
      bfOffBits file + UInt32.ofNat h * ((iWidth * 24 / 8 + 3) &&& ~~~3).toUInt32 := by
    rw [Int32.toUInt32_mul, Int32.toUInt32_sub, hheight]
    have hone : (1 : Int32).toUInt32 = 1 := rfl
    rw [hone]
    grind
  unfold pixelTrace
  simp only [hrounds]
  rw [covertLines_eq file iWidth 24 iBpp _ _ _ h _ 0 hsrc]

/-- The same with the step that the layout of the file has. -/
theorem pixelTrace_eq {file : Nat → UInt8} {iWidth iHeight iBpp iLineBytes : Int32} {w h : Nat}
    (hw : iWidth.toInt = w) (hh : iHeight.toInt = h) (hcols : w * 24 < 2 ^ 31) :
    pixelTrace file iWidth iHeight 24 iBpp iLineBytes =
      .load 10 4 :: (List.range h).flatMap fun y =>
        (covertOneLine file iWidth 24 iBpp (rowSrc file w (h - 1 - y))
          (0 + UInt32.ofNat y * iLineBytes.toUInt32)).2 := by
  rw [pixelTrace_lines hh, toUInt32_align hw hcols]
  rfl

/-! ## What is read decides -/

/-- A field depends on its own bytes. -/
theorem getLe32_congr {file file' : Nat → UInt8} {k : Nat}
    (h : ∀ a, k ≤ a → a < k + 4 → file' a = file a) : getLe32 file' k = getLe32 file k := by
  unfold getLe32
  rw [h k (by omega) (by omega), h (k + 1) (by omega) (by omega), h (k + 2) (by omega) (by omega),
    h (k + 3) (by omega) (by omega)]

theorem getLe16_congr {file file' : Nat → UInt8} {k : Nat}
    (h : ∀ a, k ≤ a → a < k + 2 → file' a = file a) : getLe16 file' k = getLe16 file k := by
  unfold getLe16
  rw [h k (by omega) (by omega), h (k + 1) (by omega) (by omega)]

/-- What is done with a file depends on the bytes that are read. -/
theorem covertPixel_congr {file file' : Nat → UInt8} {iBpp : Int32} {src pos dst : UInt32}
    (h : ∀ a, Reads (covertPixel file iBpp src pos dst) a → file' a = file a) :
    covertPixel file' iBpp src pos dst = covertPixel file iBpp src pos dst := by
  simp only [reads_covertPixel] at h
  have hblue := h _ (Or.inl rfl)
  have hgreen := h _ (Or.inr (Or.inl rfl))
  have hred := h _ (Or.inr (Or.inr rfl))
  unfold covertPixel
  rw [hblue, hgreen, hred]

/-- The same for a line of pixels. -/
theorem covertPixels_congr {file file' : Nat → UInt8} {iBpp : Int32} {src : UInt32} {n : Nat}
    {pos dst : UInt32}
    (h : ∀ a, Reads (covertPixels file iBpp src n pos dst) a → file' a = file a) :
    covertPixels file' iBpp src n pos dst = covertPixels file iBpp src n pos dst := by
  induction n generalizing pos dst with
  | zero => rfl
  | succ n ih =>
      simp only [covertPixels, reads_append] at h ⊢
      rw [covertPixel_congr fun a ha => h a (Or.inl ha), ih fun a ha => h a (Or.inr ha)]

/-- The same for a line, whether it is copied or converted. -/
theorem covertOneLine_congr {file file' : Nat → UInt8} {iWidth iSrcBpp iBpp : Int32}
    {src dst : UInt32}
    (h : ∀ a, Reads (covertOneLine file iWidth iSrcBpp iBpp src dst).2 a → file' a = file a) :
    covertOneLine file' iWidth iSrcBpp iBpp src dst =
      covertOneLine file iWidth iSrcBpp iBpp src dst := by
  unfold covertOneLine at h ⊢
  by_cases hsrc : iSrcBpp ≠ 24
  · rw [if_pos hsrc, if_pos hsrc]
  · rw [if_neg hsrc] at h ⊢
    rw [if_neg hsrc]
    by_cases hcopy : iBpp = 24
    · rw [if_pos hcopy] at h ⊢
      rw [if_pos hcopy]
      have hbytes := read_congr fun x hlow hhigh => h x ((reads_load _ _ _ _).mpr
        (Or.inl ⟨hlow, hhigh⟩))
      simp only [hbytes]
    · rw [if_neg hcopy] at h
      rw [if_neg hcopy, if_neg hcopy, covertPixels_congr h]

/-- The same for all lines. -/
theorem covertLines_congr {file file' : Nat → UInt8} {iWidth iBMPBpp iBpp : Int32}
    {iLineWidthAlign iLineBytes : UInt32} {n : Nat} {pucSrc pucDest : UInt32}
    (h : ∀ a, Reads (covertLines file iWidth iBMPBpp iBpp iLineWidthAlign iLineBytes n pucSrc
      pucDest) a → file' a = file a) :
    covertLines file' iWidth iBMPBpp iBpp iLineWidthAlign iLineBytes n pucSrc pucDest =
      covertLines file iWidth iBMPBpp iBpp iLineWidthAlign iLineBytes n pucSrc pucDest := by
  induction n generalizing pucSrc pucDest with
  | zero => rfl
  | succ n ih =>
      simp only [covertLines, reads_append] at h ⊢
      rw [covertOneLine_congr fun a ha => h a (Or.inl ha), ih fun a ha => h a (Or.inr ha)]

/-- The same for everything behind the headers. -/
theorem pixelTrace_congr {file file' : Nat → UInt8} {iWidth iHeight iBMPBpp iBpp iLineBytes : Int32}
    (h : ∀ a, Reads (pixelTrace file iWidth iHeight iBMPBpp iBpp iLineBytes) a →
      file' a = file a) :
    pixelTrace file' iWidth iHeight iBMPBpp iBpp iLineBytes =
      pixelTrace file iWidth iHeight iBMPBpp iBpp iLineBytes := by
  simp only [pixelTrace, reads_load] at h ⊢
  have hoff : bfOffBits file' = bfOffBits file :=
    getLe32_congr fun a hlow hhigh => h a (Or.inl ⟨hlow, hhigh⟩)
  rw [hoff, covertLines_congr fun a ha => h a (Or.inr ha)]

/-- The header is read in any case. -/
theorem reads_header (malloc : Malloc) (file : Nat → UInt8) (pic : PixelDatas Data) {a : Nat}
    (ha : Reads headerLoads a) : Reads (getPixelDatasFrmBMP malloc file pic).trace a := by
  unfold getPixelDatasFrmBMP
  simp only
  split
  · exact ha
  · split
    · exact ha
    · exact (reads_append _ _ _).mpr (Or.inl ha)

/-- **Nothing but the bytes that are read matters.** -/
theorem getPixelDatasFrmBMP_congr {malloc : Malloc} {file file' : Nat → UInt8}
    {pic : PixelDatas Data}
    (h : ∀ a, Reads (getPixelDatasFrmBMP malloc file pic).trace a → file' a = file a) :
    getPixelDatasFrmBMP malloc file' pic = getPixelDatasFrmBMP malloc file pic := by
  have hheader : ∀ a, Reads headerLoads a → file' a = file a :=
    fun a ha => h a (reads_header malloc file pic ha)
  simp only [headerLoads, reads_load] at hheader
  have hwidth : biWidth file' = biWidth file :=
    getLe32_congr fun a hlow hhigh => hheader a (Or.inl ⟨hlow, hhigh⟩)
  have hheight : biHeight file' = biHeight file :=
    getLe32_congr fun a hlow hhigh => hheader a (Or.inr (Or.inl ⟨hlow, hhigh⟩))
  have hcount : biBitCount file' = biBitCount file :=
    getLe16_congr fun a hlow hhigh => hheader a (Or.inr (Or.inr (Or.inl ⟨hlow, hhigh⟩)))
  unfold getPixelDatasFrmBMP at h ⊢
  simp only [hwidth, hheight, hcount] at h ⊢
  by_cases hbpp : (biBitCount file).toUInt32.toInt32 ≠ 24
  · rw [if_pos hbpp, if_pos hbpp]
  · rw [if_neg hbpp] at h ⊢
    rw [if_neg hbpp]
    cases hmalloc : malloc ((biHeight file).toInt32 *
        ((biWidth file).toInt32 * pic.iBpp / 8)).toUInt32.toNat with
    | none => rfl
    | some bytes =>
        rw [hmalloc] at h
        simp only [reads_append] at h
        rw [pixelTrace_congr fun a ha => h a (Or.inr ha)]

/-! ## The picture -/

/-- The columns of the picture that a header describes. -/
def width (file : Nat → UInt8) : Nat := (biWidth file).toNat

/-- The lines of the picture that a header describes. -/
def height (file : Nat → UInt8) : Nat := (biHeight file).toNat

/-- A field of the header below `2 ^ 31` is no negative `int`. -/
theorem toInt_of_field {n : UInt32} (h : n.toNat < 2 ^ 31) : n.toInt32.toInt = n.toNat := by
  rw [toInt_of_small (by rw [UInt32.toUInt32_toInt32]; exact h), UInt32.toUInt32_toInt32]

/-- The sizes that are computed from the header stay below `2 ^ 31`. -/
structure Sizes (file : Nat → UInt8) (iBpp : Int32) : Prop where
  columns : width file * 24 < 2 ^ 31
  lines : height file < 2 ^ 31
  bits : width file * iBpp.toInt.natAbs < 2 ^ 31
  total : height file * (width file * iBpp.toInt.natAbs / 8) < 2 ^ 31

namespace Sizes

variable {file : Nat → UInt8} {iBpp : Int32} {p : Nat}

/-- The sizes of the header are taken as they are, without a change of sign. -/
theorem toInt_width (hs : Sizes file iBpp) : (biWidth file).toInt32.toInt = width file :=
  toInt_of_field (by have := hs.columns; unfold width at this; omega)

theorem toInt_height (hs : Sizes file iBpp) : (biHeight file).toInt32.toInt = height file :=
  toInt_of_field hs.lines

/-- The bytes of a line are computed without overflow. -/
theorem toInt_line (hs : Sizes file iBpp) (hdepth : Depth iBpp p) :
    ((biWidth file).toInt32 * iBpp / 8).toInt = ((width file * p : Nat) : Int) := by
  have hbits := hs.bits
  rw [hdepth.natAbs] at hbits
  exact toInt_pixel_bytes hs.toInt_width hdepth.bits hbits

/-- The whole picture stays below `2 ^ 31` bytes. -/
theorem total_lt (hs : Sizes file iBpp) (hdepth : Depth iBpp p) :
    width file * p * height file < 2 ^ 31 := by
  have htotal := hs.total
  have hbytes : width file * (8 * p) / 8 = width file * p := by
    rw [Nat.mul_left_comm, Nat.mul_div_cancel_left _ (by decide)]
  rw [hdepth.natAbs, hbytes] at htotal
  rwa [Nat.mul_comm]

/-- So are the bytes of the picture. -/
theorem toInt_total (hs : Sizes file iBpp) (hdepth : Depth iBpp p) :
    ((biHeight file).toInt32 * ((biWidth file).toInt32 * iBpp / 8)).toInt =
      ((width file * p * height file : Nat) : Int) := by
  have hlt := hs.total_lt hdepth
  have hprod : (biHeight file).toInt32.toInt * ((biWidth file).toInt32 * iBpp / 8).toInt =
      ((width file * p * height file : Nat) : Int) := by
    rw [hs.toInt_height, hs.toInt_line hdepth]
    push_cast
    ring
  rw [toInt_mul_of_range] <;> omega

end Sizes

/-- The loads and stores behind those of the header. -/
def bmpTrace (file : Nat → UInt8) (iBpp : Int32) : List (Access UInt8) :=
  pixelTrace file (biWidth file).toInt32 (biHeight file).toInt32 24 iBpp
    ((biWidth file).toInt32 * iBpp / 8)

/-- The bytes that are asked of `malloc`. -/
def totalBytes (file : Nat → UInt8) (iBpp : Int32) : Nat :=
  ((biHeight file).toInt32 * ((biWidth file).toInt32 * iBpp / 8)).toUInt32.toNat

/-- The comparison with 24 is not disturbed by the conversion to `int`. -/
theorem bitCount_iff (file : Nat → UInt8) :
    (biBitCount file).toUInt32.toInt32 = 24 ↔ biBitCount file = 24 := by
  constructor
  · intro h
    have hunsigned := congrArg Int32.toUInt32 h
    rw [UInt32.toUInt32_toInt32] at hunsigned
    exact UInt16.toUInt32_inj.mp hunsigned
  · intro h
    rw [h]
    rfl

/-- A file of another depth is refused. -/
theorem getPixelDatasFrmBMP_refused {file : Nat → UInt8} (hcount : biBitCount file ≠ 24)
    (malloc : Malloc) (pic : PixelDatas Data) :
    getPixelDatasFrmBMP malloc file pic = ⟨-1, headerLoads, none, pic⟩ := by
  unfold getPixelDatasFrmBMP
  exact if_pos fun h => hcount ((bitCount_iff file).mp h)

/-- Without memory the call fails before it reads the pixels. -/
theorem getPixelDatasFrmBMP_failed {malloc : Malloc} {file : Nat → UInt8} {pic : PixelDatas Data}
    (hcount : biBitCount file = 24) (hmalloc : malloc (totalBytes file pic.iBpp) = none) :
    ∃ left, getPixelDatasFrmBMP malloc file pic = ⟨-1, headerLoads, none, left⟩ := by
  unfold totalBytes at hmalloc
  unfold getPixelDatasFrmBMP
  simp only [(bitCount_iff file).mpr hcount, hmalloc]
  exact ⟨_, rfl⟩

/-- A file of 24 bits a pixel, with memory for the picture: the call succeeds, and these are its
accesses and the record it leaves. -/
theorem getPixelDatasFrmBMP_done {malloc : Malloc} {file : Nat → UInt8} {pic : PixelDatas Data}
    {bytes : Nat → UInt8} (hcount : biBitCount file = 24)
    (hmalloc : malloc (totalBytes file pic.iBpp) = some bytes) :
    getPixelDatasFrmBMP malloc file pic =
      ⟨0, headerLoads ++ bmpTrace file pic.iBpp, some (totalBytes file pic.iBpp),
        { pic with
          iWidth := (biWidth file).toInt32
          iHeight := (biHeight file).toInt32
          iLineBytes := (biWidth file).toInt32 * pic.iBpp / 8
          iTotalBytes := (biHeight file).toInt32 * ((biWidth file).toInt32 * pic.iBpp / 8)
          aucPixelDatas := .block ⟨totalBytes file pic.iBpp,
            writeAll bytes (stores (bmpTrace file pic.iBpp))⟩ }⟩ := by
  unfold totalBytes at hmalloc
  unfold getPixelDatasFrmBMP
  simp only [(bitCount_iff file).mpr hcount, hmalloc]
  rfl

namespace Sizes

variable {file : Nat → UInt8} {iBpp : Int32} {p : Nat}

/-- The block that is asked for has the size of the picture. -/
theorem totalBytes_eq (hs : Sizes file iBpp) (hdepth : Depth iBpp p) :
    totalBytes file iBpp = width file * p * height file :=
  toNat_of_toInt (hs.toInt_total hdepth)

/-- Line after line of the picture, from the last row of the file to the first. -/
theorem bmpTrace_eq (hs : Sizes file iBpp) :
    bmpTrace file iBpp =
      .load 10 4 :: (List.range (height file)).flatMap fun y =>
        (covertOneLine file (biWidth file).toInt32 24 iBpp
          (rowSrc file (width file) (height file - 1 - y))
          (0 + UInt32.ofNat y * ((biWidth file).toInt32 * iBpp / 8).toUInt32)).2 :=
  pixelTrace_eq hs.toInt_width hs.toInt_height hs.columns

/-- Where a line of the picture begins. -/
theorem toNat_rowDest (hs : Sizes file iBpp) (hdepth : Depth iBpp p) {y : Nat}
    (hy : y < height file) :
    (0 + UInt32.ofNat y * ((biWidth file).toInt32 * iBpp / 8).toUInt32).toNat =
      y * (width file * p) := by
  have hline := toNat_of_toInt (hs.toInt_line hdepth)
  have htotal := hs.total_lt hdepth
  have hle : y * (width file * p) + width file * p ≤ width file * p * height file := line_le hy
  have hzero : (0 : UInt32).toNat = 0 := rfl
  rw [toNat_step (by rw [hline, hzero]; omega), hline, hzero, Nat.zero_add]

end Sizes

/-- The pixels that the file has from its first line to its last are all inside it. -/
def ArrayInside (file : Nat → UInt8) (length : Nat) : Prop :=
  0 < width file → 0 < height file →
    rowAt file (width file) (height file - 1) + 3 * width file ≤ length

/-- Rows follow one another. -/
theorem rowAt_mono (file : Nat → UInt8) (w : Nat) {row row' : Nat} (h : row ≤ row') :
    rowAt file w row ≤ rowAt file w row' :=
  Nat.add_le_add_left (Nat.mul_le_mul_right _ h) _

/-- Then every line of it is. -/
theorem ArrayInside.row {file : Nat → UInt8} {length row : Nat} (h : ArrayInside file length)
    (hpos : 0 < width file) (hrow : row < height file) :
    rowAt file (width file) row + 3 * width file ≤ length := by
  have hlast := h hpos (by omega)
  have hmono := rowAt_mono file (width file) (show row ≤ height file - 1 by omega)
  omega

/-- The source of a line does not wrap around. -/
theorem ArrayInside.toNat_rowSrc_add {file : Nat → UInt8} {length row : Nat}
    (h : ArrayInside file length) (hlength : length < 2 ^ 32) (hrow : row < height file) :
    (rowSrc file (width file) row).toNat + 3 * width file < 2 ^ 32 := by
  rcases Nat.eq_zero_or_pos (width file) with hzero | hpos
  · have hlt := (rowSrc file (width file) row).toNat_lt
    omega
  · have hin := h.row hpos hrow
    rw [toNat_rowSrc (by omega)]
    omega

/-- **Nothing behind the pixels of a line is read**, and of the rest of the file only the
header. -/
theorem reads_bmpTrace {file : Nat → UInt8} {iBpp : Int32} {length a : Nat}
    (hs : Sizes file iBpp) (hin : ArrayInside file length) (hlength : length < 2 ^ 32)
    (ha : Reads (bmpTrace file iBpp) a) :
    (10 ≤ a ∧ a < 14) ∨ ∃ row < height file, rowAt file (width file) row ≤ a ∧
      a < rowAt file (width file) row + 3 * width file := by
  rw [hs.bmpTrace_eq, reads_load, reads_flatMap] at ha
  rcases ha with hoff | ⟨y, hy, hline⟩
  · exact Or.inl hoff
  · have hrow : height file - 1 - y < height file := by
      have := List.mem_range.mp hy
      omega
    rw [reads_covertOneLine hs.toInt_width
      (hin.toNat_rowSrc_add hlength hrow)] at hline
    have hinside := hin.row (by omega) hrow
    rw [toNat_rowSrc (by omega)] at hline
    exact Or.inr ⟨_, hrow, hline⟩

/-- The picture that a file holds, for `p` bytes a pixel. -/
def filePicture (file : Nat → UInt8) (p x y : Nat) : List UInt8 :=
  filePixel file p (rowAt file (width file) (height file - 1 - y) + 3 * x)

/-- **All lines together lay down the picture.** -/
theorem overlays_bmpTrace {file : Nat → UInt8} {iBpp : Int32} {p length : Nat}
    (hdepth : Depth iBpp p) (hs : Sizes file iBpp) (hin : ArrayInside file length)
    (hlength : length < 2 ^ 32) (m : Nat → UInt8) :
    Overlays ⟨0, 0, width file, height file⟩ (width file * p) p (filePicture file p) m
      (writeAll m (stores (bmpTrace file iBpp))) := by
  have hpixels : writeAll m (stores (bmpTrace file iBpp)) =
      writeAll m (pixels ⟨0, 0, width file, height file⟩ (width file * p) p
        (filePicture file p)) := by
    rw [hs.bmpTrace_eq, stores_load, stores_flatMap, pixels]
    apply writeAll_flatMap_congr
    intro y hy m
    have hlt := List.mem_range.mp hy
    have hrow : height file - 1 - y < height file := by omega
    have hdest := hs.toNat_rowDest hdepth hlt
    have hroom : y * (width file * p) + width file * p ≤ width file * p * height file :=
      line_le hlt
    have htotal := hs.total_lt hdepth
    rw [writeAll_covertOneLine hdepth hs.toInt_width
      (hin.toNat_rowSrc_add hlength hrow) (by rw [hdest]; omega), hdest]
    congr 1
    apply List.map_congr_left
    intro x hx
    have hinside := hin.row (by have := List.mem_range.mp hx; omega) hrow
    rw [toNat_rowSrc (by omega), Nat.zero_add, Nat.zero_add]
    rfl
  rw [hpixels]
  exact overlays_pixels (by rw [Nat.zero_add]) (fun x y => hdepth.length_filePixel file _) m

/-- A call that found a picture: it returned 0, the sizes are those of the header, the
pixels are those of the file, and no byte of the block was left as `malloc` gave it. -/
structure Decoded (file : Nat → UInt8) (p : Nat) (parsed : Parsed) : Prop where
  accepted : parsed.ret = 0
  columns : parsed.pic.iWidth.toInt = width file
  lines : parsed.pic.iHeight.toInt = height file
  line : parsed.pic.iLineBytes.toInt = (width file * p : Nat)
  data : ∃ out, parsed.pic.aucPixelDatas = .block ⟨width file * p * height file, out⟩ ∧
    ∀ x < width file, ∀ y < height file,
      pixel out (width file * p) p x y = filePicture file p x y
  written : ∀ k < width file * p * height file, Writes parsed.trace k

/-- A file of 24 bits a pixel that has all its rows is decoded. -/
theorem decoded {malloc : Malloc} {file : Nat → UInt8} {pic : PixelDatas Data} {p length : Nat}
    {bytes : Nat → UInt8} (hdepth : Depth pic.iBpp p) (hcount : biBitCount file = 24)
    (hs : Sizes file pic.iBpp) (hin : ArrayInside file length) (hlength : length < 2 ^ 32)
    (hmalloc : malloc (width file * p * height file) = some bytes) :
    Decoded file p (getPixelDatasFrmBMP malloc file pic) := by
  have hsize := hs.totalBytes_eq hdepth
  have hover := overlays_bmpTrace hdepth hs hin hlength
  rw [getPixelDatasFrmBMP_done hcount (hsize ▸ hmalloc), hsize]
  refine ⟨rfl, hs.toInt_width, hs.toInt_height, hs.toInt_line hdepth, ⟨_, rfl, ?_⟩, ?_⟩
  · intro x hx y hy
    have hpixel := (hover bytes).inside x hx y hy
    simp only [Nat.zero_add] at hpixel
    exact hpixel
  · intro k hk
    have hbytes : Nontrivial UInt8 := ⟨0, 1, by decide⟩
    apply writes_append_right
    apply writes_of_determined
    intro m m'
    exact (hover m).eq_of_covers (hover m') (covers_whole hk)

/-- A byte that fills up a line of the file. -/
def Padding (file : Nat → UInt8) (k : Nat) : Prop :=
  ∃ row < height file, rowAt file (width file) row + 3 * width file ≤ k ∧
    k < rowAt file (width file) row + rowBytes (width file)

/-- The pixels of a line are not the padding of another. -/
theorem not_padding {file : Nat → UInt8} {row a : Nat}
    (hlow : rowAt file (width file) row ≤ a)
    (hhigh : a < rowAt file (width file) row + 3 * width file) :
    ¬ Padding file a := by
  intro h
  obtain ⟨row', -, hbehind, hbefore⟩ := h
  have hle := le_rowBytes (width file)
  unfold rowAt at *
  rcases Nat.lt_trichotomy row row' with hlt | heq | hgt
  · have := pixel_before (p := rowBytes (width file)) hlt
    omega
  · rw [heq] at hhigh
    omega
  · have := pixel_before (p := rowBytes (width file)) hgt
    omega

/-- **BMP decoding inverts the BMP layout.**  For a 24-bit file whose pixels are inside it,
the call returns 0 with the pixels of the file in the display's depth, every byte of the
block written.  The padding of the lines has no influence on any of this. -/
theorem bmp_layout_decoded {malloc : Malloc} {file : Nat → UInt8} {pic : PixelDatas Data}
    {p length : Nat} {bytes : Nat → UInt8} (hdepth : Depth pic.iBpp p)
    (hcount : biBitCount file = 24) (hs : Sizes file pic.iBpp) (hin : ArrayInside file length)
    (hlength : length < 2 ^ 32)
    (hmalloc : malloc (width file * p * height file) = some bytes) :
    Decoded file p (getPixelDatasFrmBMP malloc file pic) ∧
      ∀ file', (∀ k, k < 54 ∨ (k < length ∧ ¬ Padding file k) → file' k = file k) →
        getPixelDatasFrmBMP malloc file' pic = getPixelDatasFrmBMP malloc file pic := by
  refine ⟨decoded hdepth hcount hs hin hlength hmalloc, ?_⟩
  intro file' hsame
  apply getPixelDatasFrmBMP_congr
  intro a ha
  apply hsame
  have hsize := hs.totalBytes_eq hdepth
  rw [getPixelDatasFrmBMP_done hcount (hsize ▸ hmalloc), reads_append] at ha
  rcases ha with hheader | hpixels
  · simp only [headerLoads, reads_load, reads_nil, or_false] at hheader
    omega
  · rcases reads_bmpTrace hs hin hlength hpixels with hoff | ⟨row, hrow, hlow, hhigh⟩
    · omega
    · have hinside := hin.row (by omega) hrow
      exact Or.inr ⟨by omega, not_padding hlow hhigh⟩

/-- A file of one column and two lines. -/
def twoLines : Nat → UInt8 := fun k =>
  ([0x42, 0x4d, 62, 0, 0, 0, 0, 0, 0, 0, 54, 0, 0, 0, 40, 0, 0, 0, 1, 0, 0, 0, 2, 0, 0, 0, 1, 0,
    24, 0, 0, 0, 0, 0, 0, 0, 0, 0, 0, 0, 0, 0, 0, 0, 0, 0, 0, 0, 0, 0, 0, 0, 0, 0,
    1, 2, 3, 0, 4, 5, 6, 0] : List UInt8).getD k 0

/-- A picture whose depth alone is set. -/
def blank (iBpp : Int32) : PixelDatas Data := ⟨0, 0, iBpp, 0, 0, .null⟩

/-- The sizes in this file can be computed with. -/
theorem sizes_twoLines : Sizes twoLines 16 := by
  constructor <;> decide +kernel

/-- The file is decoded, and the result does not depend on its padding. -/
theorem two_lines_decoded :
    Decoded twoLines 2 (getPixelDatasFrmBMP (fun _ => some fun _ => 0xff) twoLines (blank 16)) ∧
      ∀ file', (∀ k, k < 54 ∨ (k < 62 ∧ ¬ Padding twoLines k) → file' k = twoLines k) →
        getPixelDatasFrmBMP (fun _ => some fun _ => 0xff) file' (blank 16) =
          getPixelDatasFrmBMP (fun _ => some fun _ => 0xff) twoLines (blank 16) :=
  bmp_layout_decoded .rgb565 (by decide +kernel) sizes_twoLines
    (fun _ _ => by decide +kernel) (by decide) rfl

end Video2lcd.Bmp
