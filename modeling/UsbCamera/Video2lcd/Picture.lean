import UsbCamera.Base.CInt
import UsbCamera.Base.Raster
import UsbCamera.Video2lcd.Convert

/-!
# Merging and zooming pictures

`PicMerge` copies a small picture into a big one, line by line; `PicZoom` scales
a picture by taking the nearest source pixel.  Both leave a return value and the
changed picture.

`picMerge_overlays` is the meaning of the first one: the rectangle is overlaid and
nothing else, wherever the small picture lies inside the big one.
-/

namespace Video2lcd

open CInt Raster

/-- The lines that `PicMerge` copies, from `pucDst` on. -/
def mergeLines (pucDst : Int32) (small big : PixelDatas Data) : List (Nat × List UInt8) :=
  (List.range small.iHeight.toInt.toNat).map fun i : Nat =>
    ((pucDst.toInt + i * big.iLineBytes.toInt).toNat,
      ByteStore.read small.aucPixelDatas.bytes (i * small.iLineBytes.toUInt32.toNat)
        small.iLineBytes.toUInt32.toNat)

/-- `PicMerge`. -/
def picMerge (iX iY : Int32) (small big : PixelDatas Data) : Int32 × PixelDatas Data :=
  if big.iWidth < small.iWidth ∨ big.iHeight < small.iHeight ∨ small.iBpp ≠ big.iBpp then
    (-1, big)
  else
    let pucDst := iY * big.iLineBytes + iX * big.iBpp / 8
    (0, big.stored (mergeLines pucDst small big))

/-- The pixels that `PicZoom` copies.  Sizes and indices are unsigned there. -/
def zoomPixels (origin zoom : PixelDatas Data) : List (Nat × List UInt8) :=
  let dwPixelBytes := (origin.iBpp / 8).toUInt32.toNat
  (List.range zoom.iHeight.toUInt32.toNat).flatMap fun y =>
    let dwSrcY := UInt32.ofNat y * origin.iHeight.toUInt32 / zoom.iHeight.toUInt32
    (List.range zoom.iWidth.toUInt32.toNat).map fun x =>
      let dwSrcX := UInt32.ofNat x * origin.iWidth.toUInt32 / zoom.iWidth.toUInt32
      ((UInt32.ofNat y * zoom.iLineBytes.toUInt32).toNat + x * dwPixelBytes,
        ByteStore.read origin.aucPixelDatas.bytes
          ((dwSrcY * origin.iLineBytes.toUInt32).toNat + dwSrcX.toNat * dwPixelBytes) dwPixelBytes)

/-- `PicZoom`; `malloc` is asked for the table of source columns. -/
def picZoom (malloc : Malloc) (origin zoom : PixelDatas Data) : Int32 × PixelDatas Data :=
  if origin.iBpp ≠ zoom.iBpp then (-1, zoom)
  else if (malloc (4 * zoom.iWidth.toUInt32).toNat).isNone then (-1, zoom)
  else (0, zoom.stored (zoomPixels origin zoom))

/-- A picture of `w` times `h` pixels of `p` bytes without gaps between its
lines, of less than `2 ^ 28` bytes. -/
structure Dense (pic : PixelDatas Data) (w h p : Nat) : Prop where
  width : pic.iWidth.toInt = w
  height : pic.iHeight.toInt = h
  depth : pic.iBpp.toInt = 8 * p
  line : pic.iLineBytes.toInt = w * p
  small : w * p * h < 2 ^ 28

/-- The place where `PicMerge` starts. -/
theorem Dense.place_eq {big : PixelDatas Data} {w h p x y : Nat} {iX iY : Int32}
    (hbig : Dense big w h p) (hx : iX.toInt = x) (hy : iY.toInt = y) (hxw : x ≤ w) (hyh : y < h) :
    (iY * big.iLineBytes + iX * big.iBpp / 8).toInt = y * (w * p) + x * p := by
  have hsmall := hbig.small
  have hrow : y * (w * p) + w * p ≤ w * p * h := line_le hyh
  have hcol : x * p ≤ w * p := Nat.mul_le_mul_right p hxw
  have hbits : x * (8 * p) = 8 * (x * p) := by ring
  have hbytes : (iX * big.iBpp / 8).toInt = ((x * p : Nat) : Int) :=
    toInt_pixel_bytes hx hbig.depth (by omega)
  have hlines : iY.toInt * big.iLineBytes.toInt = ((y * (w * p) : Nat) : Int) := by
    rw [hy, hbig.line]
    push_cast
    ring
  have hmul : (iY * big.iLineBytes).toInt = ((y * (w * p) : Nat) : Int) := by
    rw [toInt_mul_of_range] <;> omega
  rw [toInt_add_of_range] <;> rw [hmul, hbytes]
  · push_cast
    ring
  · omega
  · omega

/-- **Merging.**  A dense picture that lies inside a dense big one of the same
depth is overlaid, and nothing else changes. -/
theorem picMerge_overlays {small big : PixelDatas Data} {r : Rect} {w h p : Nat}
    {iX iY : Int32} {b : Block} (hsmall : Dense small r.width r.height p)
    (hbig : Dense big w h p) (hdata : big.aucPixelDatas = .block b)
    (hx : iX.toInt = r.left) (hy : iY.toInt = r.top) (hxw : r.left + r.width ≤ w)
    (hyh : r.top + r.height ≤ h) :
    ∃ bytes, picMerge iX iY small big =
        (0, { big with aucPixelDatas := .block { b with bytes := bytes } }) ∧
      Overlays r (w * p) p (pixel small.aucPixelDatas.bytes (r.width * p) p) b.bytes bytes := by
  have hpass : ¬ (big.iWidth < small.iWidth ∨ big.iHeight < small.iHeight ∨
      small.iBpp ≠ big.iBpp) := by
    simp only [not_or, Int32.not_lt, Int32.le_iff_toInt_le, ne_eq, not_not]
    refine ⟨?_, ?_, ?_⟩
    · rw [hsmall.width, hbig.width]
      omega
    · rw [hsmall.height, hbig.height]
      omega
    · apply Int32.toInt.inj
      rw [hsmall.depth, hbig.depth]
  have hline : small.iLineBytes.toUInt32.toNat = r.width * p :=
    toNat_of_toInt (by rw [hsmall.line]; push_cast; rfl)
  have hcount : small.iHeight.toInt.toNat = r.height := by
    rw [hsmall.height]
    rfl
  refine ⟨ByteStore.writeAll b.bytes (mergeLines (iY * big.iLineBytes + iX * big.iBpp / 8) small
    big), ?_, ?_⟩
  · unfold picMerge PixelDatas.stored
    rw [if_neg hpass, hdata]
    rfl
  · have hlines : mergeLines (iY * big.iLineBytes + iX * big.iBpp / 8) small big =
        rows (r.top * (w * p) + r.left * p) (w * p) r.height
          fun y => ByteStore.read small.aucPixelDatas.bytes (y * (r.width * p)) (r.width * p) := by
      unfold mergeLines rows
      rw [hcount, hline]
      apply List.map_congr_left
      intro i hi
      have hi' : i < r.height := List.mem_range.mp hi
      rw [hbig.place_eq hx hy (by omega) (by omega), hbig.line]
      congr 1
    rw [hlines]
    apply overlays_rows
    exact Nat.mul_le_mul_right p hxw

end Video2lcd
