import UsbCamera.Video2lcd.ScaleToScreen
import UsbCamera.Video2lcd.ZoomPicture

/-!
# What is on the screen while the application runs

There are two kinds of cameras whose frames reach the screen: those that deliver the
display's own format, and those that deliver JPEG pictures of three colour components.  For
both, a pass of `main`'s loop ends with a picture in the display's format.  If it fits the
screen it is merged as it is; if it does not, `PicZoom` makes a smaller one, of the size that
`main` computes with a `float`.

`screen_shows_last_frame` is the statement for the whole run.  After any number of passes
`main` has not returned, and the screen is the one it started with, except for the middle,
which holds the last frame: each pixel of the middle is the pixel of the frame at the same
fraction of its width and height.
-/

namespace Video2lcd

open CInt Raster Address InMemory

/-! ## Zooming into a block -/

/-- The bytes of a pixel, as `main` computes them. -/
theorem Dense.pixelBytes {pic : PixelDatas Data} {w h p : Nat} (hpic : Dense pic w h p) :
    (pic.iBpp / 8).toUInt32.toNat = p := by
  have hdepth := hpic.depth
  apply toNat_of_toInt
  rw [toInt_div_eight (by omega)]
  omega

/-- The pixels that `PicZoom` copies between pictures without gaps. -/
theorem zoomPixels_eq {origin zoom : PixelDatas Data} {w h w' h' p : Nat}
    (horigin : Dense origin w h p) (hzoom : Dense zoom w' h' p) (hw : 1 ≤ w ∧ w ≤ 65535)
    (hh : 1 ≤ h ∧ h ≤ 65535) (hw' : w' ≤ 65535) (hh' : h' ≤ 65535) :
    zoomPixels origin zoom = pixels ⟨0, 0, w', h'⟩ (w' * p) p fun x y =>
      pixel origin.aucPixelDatas.bytes (w * p) p (x * w / w') (y * h / h') := by
  have hline : origin.iLineBytes.toInt = ((w * p : Nat) : Int) := by
    rw [horigin.line]
    push_cast
    rfl
  have hline' : zoom.iLineBytes.toInt = ((w' * p : Nat) : Int) := by
    rw [hzoom.line]
    push_cast
    rfl
  have hsmall := horigin.small
  have hsmall' := hzoom.small
  unfold zoomPixels pixels
  simp only [horigin.pixelBytes, toNat_of_toInt hzoom.width, toNat_of_toInt hzoom.height]
  apply List.flatMap_congr
  intro y hy
  have hy' : y < h' := List.mem_range.mp hy
  apply List.map_congr_left
  intro x hx
  have hx' : x < w' := List.mem_range.mp hx
  have hcol := scaled_lt hx' hw.1
  have hrow : y * h / h' * (w * p) + w * p ≤ w * p * h := line_le (scaled_lt hy' hh.1)
  have hrow' : y * (w' * p) + w' * p ≤ w' * p * h' := line_le hy'
  rw [scaled_eq _ _ hx' hw.2 hw' horigin.width hzoom.width,
    scaled_eq _ _ hy' hh.2 hh' horigin.height hzoom.height, toNat_lines_mod, toNat_lines_mod,
    toNat_of_toInt hline, toNat_of_toInt hline', UInt32.toNat_ofNat',
    Nat.mod_eq_of_lt (by omega), Nat.mod_eq_of_lt (by omega), Nat.mod_eq_of_lt (by omega),
    Nat.zero_add, Nat.zero_add]
  rfl

/-- **Zooming.**  Each pixel of the target is the source pixel at the same fraction of the
width and the height. -/
theorem picZoom_pixels {origin zoom : PixelDatas Data} {w h w' h' p : Nat} {b : Block}
    {malloc : Malloc} (horigin : Dense origin w h p) (hzoom : Dense zoom w' h' p)
    (hdata : zoom.aucPixelDatas = .block b) (hw : 1 ≤ w ∧ w ≤ 65535) (hh : 1 ≤ h ∧ h ≤ 65535)
    (hw' : w' ≤ 65535) (hh' : h' ≤ 65535) (htable : ∀ n, (malloc n).isSome) :
    ∃ bytes, (picZoom malloc origin zoom).2 =
        { zoom with aucPixelDatas := .block { b with bytes := bytes } } ∧
      ∀ x < w', ∀ y < h', pixel bytes (w' * p) p x y =
        pixel origin.aucPixelDatas.bytes (w * p) p (x * w / w') (y * h / h') := by
  have hdepth : ¬ origin.iBpp ≠ zoom.iBpp := by
    rw [not_not]
    apply Int32.toInt.inj
    rw [horigin.depth, hzoom.depth]
  have hsome : ¬ (malloc (4 * zoom.iWidth.toUInt32).toNat).isNone = true := by
    have h := htable (4 * zoom.iWidth.toUInt32).toNat
    rw [Option.isNone_iff_eq_none]
    intro hnone
    rw [hnone] at h
    cases h
  refine ⟨ByteStore.writeAll b.bytes (zoomPixels origin zoom), ?_, ?_⟩
  · rw [picZoom, if_neg hdepth, if_neg hsome, PixelDatas.stored, hdata]
    rfl
  · rw [zoomPixels_eq horigin hzoom hw hh hw' hh']
    intro x hx y hy
    exact pixel_writeAll_whole (fun x y => ByteStore.length_read _ _ _) b.bytes hx hy

/-! ## Storing into memory that may be there already -/

/-- A data pointer that leads to memory, or to none yet. -/
def Data.Usable (d : Data) : Prop := d ≠ .freed

/-- Memory that is there, or is allocated, can be stored into. -/
theorem allocated_block {pic : PixelDatas Data} {malloc : Malloc}
    (hdata : pic.aucPixelDatas.Usable) (hmalloc : ∀ n, (malloc n).isSome) :
    ∃ b, pic.allocated malloc = { pic with aucPixelDatas := .block b } := by
  unfold PixelDatas.allocated
  split
  · obtain ⟨bytes, hbytes⟩ := Option.isSome_iff_exists.mp
      (hmalloc pic.iTotalBytes.toUInt32.toNat)
    exact ⟨⟨pic.iTotalBytes.toUInt32.toNat, bytes⟩, by rw [mallocData, hbytes]⟩
  · rename_i hnull
    cases hptr : pic.aucPixelDatas with
    | null => exact absurd hptr hnull
    | freed => exact absurd hptr hdata
    | block b =>
        refine ⟨b, ?_⟩
        rw [← hptr]

/-- A picture that is given a size is without gaps. -/
theorem dense_sized {pic : PixelDatas Data} {iWidth iHeight iBpp : Int32} {w h p : Nat}
    (hw : iWidth.toInt = w) (hh : iHeight.toInt = h) (hb : iBpp.toInt = 8 * p)
    (hline : w * p < 2 ^ 28) (hsmall : w * p * h < 2 ^ 28) :
    Dense (pic.sized iWidth iHeight iBpp) w h p := by
  have hbits : w * (8 * p) = 8 * (w * p) := by ring
  refine ⟨hw, hh, hb, ?_, hsmall⟩
  have hbytes := toInt_pixel_bytes hw hb (by omega)
  push_cast at hbytes
  exact hbytes

/-- A picture is as dense with other data. -/
theorem Dense.with_data {pic : PixelDatas Data} {w h p : Nat} (hpic : Dense pic w h p)
    (d : Data) : Dense { pic with aucPixelDatas := d } w h p :=
  ⟨hpic.width, hpic.height, hpic.depth, hpic.line, hpic.small⟩

/-! ## The frames of a JPEG camera -/

/-- A pixel of a decoded picture in the depth of the display. -/
def jpegPixel (p : Nat) (row : Nat → Nat → UInt8) (x y : Nat) : List UInt8 :=
  if p = 2 then rgb565Bytes (row y (3 * x)) (row y (3 * x + 1)) (row y (3 * x + 2))
  else rgb32Bytes (row y (3 * x)) (row y (3 * x + 1)) (row y (3 * x + 2))

/-- The bytes of a pixel on a display that the converters know. -/
def PixelBytes (p : Nat) : Prop := p = 2 ∨ p = 4

/-- A pixel of a JPEG picture has the depth of the screen. -/
theorem length_jpegPixel {p : Nat} (hp : PixelBytes p) (row : Nat → Nat → UInt8) (x y : Nat) :
    (jpegPixel p row x y).length = p := by
  unfold jpegPixel
  rcases hp with rfl | rfl
  · exact length_rgb565Bytes _ _ _
  · exact length_rgb32Bytes _ _ _

/-- A row of `libjpeg` becomes a line of pixels. -/
theorem covertOneLine_eq {iWidth iBpp : Int32} {w p : Nat} (hp : PixelBytes p)
    (hw : iWidth.toInt = w) (hb : iBpp.toInt = 8 * p) (row : Nat → Nat → UInt8) (y : Nat) :
    covertOneLine iWidth iBpp (row y) = (List.range w).flatMap fun x => jpegPixel p row x y := by
  have hwidth : iWidth.toInt.toNat = w := by
    rw [hw]
    rfl
  rcases hp with rfl | rfl
  · have hdepth : iBpp = 16 := Int32.toInt.inj hb
    simp [covertOneLine, hdepth, hwidth, jpegPixel]
  · have hdepth : iBpp = 32 := Int32.toInt.inj hb
    simp [covertOneLine, hdepth, hwidth, jpegPixel]

/-- **JPEG conversion.**  Into an output of a known depth, whose memory is there or is
allocated, the decoded picture is put pixel by pixel. -/
theorem mjpeg2RgbConvert_pixels {out : VideoBuf Data} {malloc : Malloc} {p : Nat}
    {width height : UInt16} (components : Nat) (row : Nat → Nat → UInt8) (hp : PixelBytes p)
    (hb : out.tPixelDatas.iBpp.toInt = 8 * p) (hdata : out.tPixelDatas.aucPixelDatas.Usable)
    (hmalloc : ∀ n, (malloc n).isSome) (hline : width.toNat * p < 2 ^ 28)
    (hsmall : width.toNat * p * height.toNat < 2 ^ 28) :
    let done := mjpeg2RgbConvert malloc true (.picture width height components row none) out
    done.ret = 0 ∧ Dense done.out.tPixelDatas width.toNat height.toNat p ∧
      done.out.tPixelDatas.iBpp = out.tPixelDatas.iBpp ∧
      (∃ b, done.out.tPixelDatas.aucPixelDatas = .block b) ∧
      ∀ x < width.toNat, ∀ y < height.toNat,
        pixel done.out.tPixelDatas.aucPixelDatas.bytes (width.toNat * p) p x y =
          jpegPixel p row x y := by
  intro done
  have hw := toInt_of_uint16 width
  have hh := toInt_of_uint16 height
  obtain ⟨sized, hsized⟩ : ∃ sized : PixelDatas Data, sized = out.tPixelDatas.sized
      width.toUInt32.toInt32 height.toUInt32.toInt32 out.tPixelDatas.iBpp := ⟨_, rfl⟩
  have hdense : Dense sized width.toNat height.toNat p := by
    rw [hsized]
    exact dense_sized hw hh hb hline hsmall
  have husable : sized.aucPixelDatas.Usable := by
    rw [hsized]
    exact hdata
  obtain ⟨b, hblock⟩ := allocated_block husable hmalloc
  have hrows : jpegRows width.toUInt32.toInt32 out.tPixelDatas.iBpp
      (width.toUInt32.toInt32 * out.tPixelDatas.iBpp / 8) row height.toNat =
      (List.range height.toNat).map fun y =>
        ((0 + y) * (width.toNat * p) + 0 * p,
          (List.range width.toNat).flatMap fun x => jpegPixel p row x y) := by
    unfold jpegRows
    apply List.map_congr_left
    intro y _
    have hbits : width.toNat * (8 * p) = 8 * (width.toNat * p) := by ring
    rw [covertOneLine_eq hp hw hb, toInt_pixel_bytes hw hb (by omega), Int.toNat_natCast,
      Nat.zero_add, Nat.zero_mul, Nat.add_zero]
  have hout : done.out.tPixelDatas =
      { sized with aucPixelDatas := .block ⟨b.size, ByteStore.writeAll b.bytes
          (pixels ⟨0, 0, width.toNat, height.toNat⟩ (width.toNat * p) p (jpegPixel p row))⟩ } := by
    have hlines : ByteStore.writeAll b.bytes (jpegRows width.toUInt32.toInt32
          out.tPixelDatas.iBpp (width.toUInt32.toInt32 * out.tPixelDatas.iBpp / 8) row
          height.toNat) =
        ByteStore.writeAll b.bytes (pixels ⟨0, 0, width.toNat, height.toNat⟩ (width.toNat * p) p
          (jpegPixel p row)) := by
      rw [hrows]
      exact writeAll_lines (r := ⟨0, 0, width.toNat, height.toNat⟩) (length_jpegPixel hp row)
        b.bytes
    rw [← hlines]
    simp only [done, mjpeg2RgbConvert, VideoBuf.fill, ← hsized, hblock]
    simp [PixelDatas.stored, Data.store]
  rw [hout]
  refine ⟨rfl, hdense.with_data _, ?_, ⟨_, rfl⟩, ?_⟩
  · rw [hsized]
    rfl
  · intro x hx y hy
    exact pixel_writeAll_whole (length_jpegPixel hp row) b.bytes hx hy

/-! ## The end of a pass -/

/-- The size in which a frame of `w` by `h` pixels is shown on a screen of `W` by `H`. -/
def shownSize (w h W H : Nat) : Nat × Nat :=
  if W < w ∨ H < h then
    let size := scaleToScreen (Int32.ofNat w) (Int32.ofNat h) (Int32.ofNat W) (Int32.ofNat H)
    (size.1.toInt.toNat, size.2.toInt.toNat)
  else (w, h)

/-- The middle of the screen in that size. -/
def shownRect (w h W H : Nat) : Rect where
  left := (W - (shownSize w h W H).1) / 2
  top := (H - (shownSize w h W H).2) / 2
  width := (shownSize w h W H).1
  height := (shownSize w h W H).2

/-- A picture of `w` by `h` pixels in that size: each pixel is the one at the same fraction of
the width and the height. -/
def shownPicture (w h W H : Nat) (picture : Nat → Nat → List UInt8) (x y : Nat) : List UInt8 :=
  picture (x * w / (shownSize w h W H).1) (y * h / (shownSize w h W H).2)

/-- The sizes of a camera's frames and of the screen, and the bytes of a pixel. -/
structure Geometry (w h W H p : Nat) : Prop where
  width : 0 < w ∧ w < 2 ^ 16
  height : 0 < h ∧ h < 2 ^ 16
  lcdWidth : 0 < W ∧ W < 2 ^ 15
  lcdHeight : 0 < H ∧ H < 2 ^ 15
  pixel : PixelBytes p
  frame : w * p * h < 2 ^ 28
  screen : W * p * H < 2 ^ 28

/-- An `int` that is a small natural number is that number. -/
theorem eq_ofNat_of_toInt {i : Int32} {n : Nat} (h : i.toInt = n) (hn : n < 2 ^ 31) :
    i = Int32.ofNat n := by
  apply Int32.toInt.inj
  rw [h, Int32.toInt_ofNat_of_lt hn]

/-- These sizes are such that the scaling can be computed with `float`s. -/
theorem Geometry.sizes {w h W H p : Nat} (g : Geometry w h W H p) :
    Sizes (Int32.ofNat w) (Int32.ofNat h) (Int32.ofNat W) (Int32.ofNat H) w h W H := by
  obtain ⟨⟨hw, hw'⟩, ⟨hh, hh'⟩, ⟨hW, hW'⟩, ⟨hH, hH'⟩, -⟩ := g
  exact ⟨Int32.toInt_ofNat_of_lt (by omega), Int32.toInt_ofNat_of_lt (by omega),
    Int32.toInt_ofNat_of_lt (by omega), Int32.toInt_ofNat_of_lt (by omega), hw, hh, hW, hH, hw',
    hh', hW', hH'⟩

/-- What is shown fits the screen, scaled or not. -/
theorem Geometry.shown_fits {w h W H p : Nat} (g : Geometry w h W H p) :
    (shownSize w h W H).1 ≤ W ∧ (shownSize w h W H).2 ≤ H := by
  unfold shownSize
  split
  · obtain ⟨w', h', hw', hh', hwW, hhH⟩ := g.sizes.scaleToScreen_fits
    simp only [hw', hh', Int.toNat_natCast]
    exact ⟨hwW, hhH⟩
  · rename_i hfits
    exact ⟨by omega, by omega⟩

/-- What `main` has between two passes, on a screen of `W` by `H` pixels of `p` bytes. -/
structure Main.Running (start s : Main) (W H p : Nat) : Prop where
  video : s.iPixelFormatOfVideo = start.iPixelFormatOfVideo
  disp : s.iPixelFormatOfDisp = start.iPixelFormatOfDisp
  convert : s.ptVideoConvert = start.ptVideoConvert
  width : s.iLcdWidth.toInt = W
  height : s.iLcdHeigt.toInt = H
  depth : s.iLcdBpp.toInt = 8 * p
  frameBuf : Dense s.tFrameBuf.tPixelDatas W H p
  memory : ∃ b, s.tFrameBuf.tPixelDatas.aucPixelDatas = .block b
  outDepth : s.tConvertBuf.tPixelDatas.iBpp = s.iLcdBpp
  out : s.tConvertBuf.tPixelDatas.aucPixelDatas.Usable
  zoom : s.tZoomBuf.tPixelDatas.aucPixelDatas.Usable

/-- **Merging** a picture that fits into the middle of the screen. -/
theorem Main.Running.merged {start s : Main} {W H p w h : Nat} {cur : PixelDatas Data}
    (hs : Main.Running start s W H p) (hcur : Dense cur w h p) (hwW : w ≤ W) (hhH : h ≤ H) :
    Main.Running start (s.merged cur) W H p ∧
      Overlays ⟨(W - w) / 2, (H - h) / 2, w, h⟩ (W * p) p
        (pixel cur.aucPixelDatas.bytes (w * p) p) s.screen (s.merged cur).screen := by
  obtain ⟨b, hb⟩ := hs.memory
  have hleft : ((s.iLcdWidth - cur.iWidth) / 2).toInt = ((W - w) / 2 : Nat) := by
    rw [toInt_half_sub (by rw [hcur.width]; omega) (by rw [hcur.width, hs.width]; omega),
      hcur.width, hs.width]
    omega
  have htop : ((s.iLcdHeigt - cur.iHeight) / 2).toInt = ((H - h) / 2 : Nat) := by
    rw [toInt_half_sub (by rw [hcur.height]; omega) (by rw [hcur.height, hs.height]; omega),
      hcur.height, hs.height]
    omega
  obtain ⟨bytes, hmerge, hover⟩ := picMerge_overlays (r := ⟨(W - w) / 2, (H - h) / 2, w, h⟩)
    hcur hs.frameBuf hb hleft htop (by simp only; omega) (by simp only; omega)
  have hscreen : (s.merged cur).screen = bytes := by
    simp only [Main.merged, Main.screen]
    rw [hmerge]
    rfl
  have hold : s.screen = b.bytes := by
    unfold Main.screen
    rw [hb]
    rfl
  constructor
  · have hbuf : (s.merged cur).tFrameBuf.tPixelDatas =
        { s.tFrameBuf.tPixelDatas with aucPixelDatas := .block { b with bytes := bytes } } :=
      congrArg Prod.snd hmerge
    refine ⟨hs.video, hs.disp, hs.convert, hs.width, hs.height, hs.depth, ?_, ?_, hs.outDepth,
      hs.out, hs.zoom⟩
    · rw [hbuf]
      exact hs.frameBuf.with_data _
    · rw [hbuf]
      exact ⟨_, rfl⟩
  · rwa [hscreen, hold]

/-- The picture that `PicZoom` makes of one that is larger than the screen. -/
theorem Main.Running.fitted_large {start s : Main} {W H p w h w' h' : Nat} {size : Int32 × Int32}
    {cur : PixelDatas Data} {i : Pass} (hs : Main.Running start s W H p) (g : Geometry w h W H p)
    (hcur : Dense cur w h p) (hlarge : s.iLcdWidth < cur.iWidth ∨ s.iLcdHeigt < cur.iHeight)
    (hscale : scaleToScreen cur.iWidth cur.iHeight s.iLcdWidth s.iLcdHeigt = size)
    (hw' : size.1.toInt = w') (hh' : size.2.toInt = h') (hwW : w' ≤ W) (hhH : h' ≤ H)
    (hzoom : ∀ n, (i.zoomMalloc n).isSome) (htable : ∀ n, (i.tableMalloc n).isSome) :
    ∃ zoomed : PixelDatas Data, s.fitted scaleToScreen i cur =
        (zoomed, { s with tZoomBuf := { s.tZoomBuf with tPixelDatas := zoomed } }) ∧
      Dense zoomed w' h' p ∧ zoomed.aucPixelDatas.Usable ∧
      ∀ x < w', ∀ y < h', pixel zoomed.aucPixelDatas.bytes (w' * p) p x y =
        pixel cur.aucPixelDatas.bytes (w * p) p (x * w / w') (y * h / h') := by
  have hw := g.width
  have hh := g.height
  have hW := g.lcdWidth
  have hH := g.lcdHeight
  have hline : w' * p ≤ W * p := Nat.mul_le_mul_right p hwW
  have hbytes : w' * p * h' ≤ W * p * H := Nat.mul_le_mul hline hhH
  have hrow : W * p ≤ W * p * H := Nat.le_mul_of_pos_right _ hH.1
  have hscreen := g.screen
  obtain ⟨sized, hsized⟩ : ∃ sized : PixelDatas Data,
    sized = s.tZoomBuf.tPixelDatas.sized size.1 size.2 s.iLcdBpp := ⟨_, rfl⟩
  have hdense : Dense sized w' h' p := by
    rw [hsized]
    exact dense_sized hw' hh' hs.depth (by omega) (by omega)
  have husable : sized.aucPixelDatas.Usable := by
    rw [hsized]
    exact hs.zoom
  obtain ⟨b, hblock⟩ := allocated_block husable hzoom
  obtain ⟨bytes, hpic, hpixels⟩ := picZoom_pixels hcur (hdense.with_data (.block b)) rfl
    ⟨hw.1, by omega⟩ ⟨hh.1, by omega⟩ (by omega) (by omega) htable
  refine ⟨{ sized with aucPixelDatas := .block { b with bytes := bytes } }, ?_,
    hdense.with_data _, nofun, hpixels⟩
  simp only [Main.fitted, if_pos hlarge, hscale, ← hsized, hblock]
  rw [hpic]

/-- **The end of a pass.**  A picture in the display's format is shown in the middle of the
screen, scaled down if it is larger. -/
theorem Main.Running.shown {start s : Main} {W H p w h : Nat} {cur : PixelDatas Data} {i : Pass}
    (hs : Main.Running start s W H p) (g : Geometry w h W H p) (hcur : Dense cur w h p)
    (hzoom : ∀ n, (i.zoomMalloc n).isSome) (htable : ∀ n, (i.tableMalloc n).isSome) :
    Main.Running start (s.shown scaleToScreen i cur) W H p ∧
      Overlays (shownRect w h W H) (W * p) p
        (shownPicture w h W H (pixel cur.aucPixelDatas.bytes (w * p) p)) s.screen
        (s.shown scaleToScreen i cur).screen := by
  have hwide : s.iLcdWidth < cur.iWidth ↔ W < w := by
    rw [Int32.lt_iff_toInt_lt, hs.width, hcur.width]
    omega
  have hhigh : s.iLcdHeigt < cur.iHeight ↔ H < h := by
    rw [Int32.lt_iff_toInt_lt, hs.height, hcur.height]
    omega
  have hw := g.width
  have hh := g.height
  by_cases hlarge : W < w ∨ H < h
  · obtain ⟨w', h', hw', hh', hwW, hhH⟩ := g.sizes.scaleToScreen_fits
    have hsize : shownSize w h W H = (w', h') := by
      simp only [shownSize, if_pos hlarge, hw', hh', Int.toNat_natCast]
    have hscale : scaleToScreen cur.iWidth cur.iHeight s.iLcdWidth s.iLcdHeigt =
        scaleToScreen (Int32.ofNat w) (Int32.ofNat h) (Int32.ofNat W) (Int32.ofNat H) := by
      have hW := g.lcdWidth
      have hH := g.lcdHeight
      rw [eq_ofNat_of_toInt hcur.width (by omega), eq_ofNat_of_toInt hcur.height (by omega),
        eq_ofNat_of_toInt hs.width (by omega), eq_ofNat_of_toInt hs.height (by omega)]
    obtain ⟨zoomed, hfitted, hdense, husable, hpixels⟩ :=
      hs.fitted_large g hcur (by rwa [hwide, hhigh]) hscale hw' hh' hwW hhH hzoom htable
    have hzoomed : Main.Running start
        { s with tZoomBuf := { s.tZoomBuf with tPixelDatas := zoomed } } W H p :=
      ⟨hs.video, hs.disp, hs.convert, hs.width, hs.height, hs.depth, hs.frameBuf, hs.memory,
        hs.outDepth, hs.out, husable⟩
    obtain ⟨hrun, hover⟩ := hzoomed.merged hdense hwW hhH
    have hresult : s.shown scaleToScreen i cur =
        Main.merged { s with tZoomBuf := { s.tZoomBuf with tPixelDatas := zoomed } } zoomed := by
      rw [Main.shown, hfitted]
    have hrect : shownRect w h W H = ⟨(W - w') / 2, (H - h') / 2, w', h'⟩ := by
      rw [shownRect, hsize]
    rw [hresult, hrect]
    refine ⟨hrun, hover.congr ?_⟩
    intro x hx y hy
    unfold shownPicture
    rw [hsize]
    exact hpixels x hx y hy
  · have hsize : shownSize w h W H = (w, h) := if_neg hlarge
    have hmerged : s.shown scaleToScreen i cur = s.merged cur := by
      apply Main.shown_of_fits
      · rw [← Int32.not_lt, hwide]
        omega
      · rw [← Int32.not_lt, hhigh]
        omega
    obtain ⟨hrun, hover⟩ := hs.merged hcur (by omega) (by omega)
    have hrect : shownRect w h W H = ⟨(W - w) / 2, (H - h) / 2, w, h⟩ := by
      rw [shownRect, hsize]
    rw [hmerged, hrect]
    refine ⟨hrun, hover.congr ?_⟩
    intro x _ y _
    unfold shownPicture
    rw [hsize, Nat.mul_div_cancel _ hw.1, Nat.mul_div_cancel _ hh.1]

/-! ## Passes -/

/-- There is memory enough for a pass. -/
structure Pass.HasMemory (i : Pass) : Prop where
  frame : ∀ n, (i.frame.malloc n).isSome
  line : i.frame.lineBuffer = true
  zoom : ∀ n, (i.zoomMalloc n).isSome
  table : ∀ n, (i.tableMalloc n).isSome

/-- The frame of a pass is a picture of `w` by `h` pixels that reaches the screen: the
camera has the display's format, or its frame is a JPEG picture of three components that
can be decoded. -/
inductive Main.Takes (start : Main) (i : Pass) (w h p : Nat) : (Nat → Nat → List UInt8) → Prop
  | same (hformat : start.iPixelFormatOfVideo = start.iPixelFormatOfDisp)
      (hframe : Dense i.frame.buf.tPixelDatas w h p) :
      start.Takes i w h p (pixel i.frame.buf.tPixelDatas.aucPixelDatas.bytes (w * p) p)
  | jpeg (hformat : start.iPixelFormatOfVideo ≠ start.iPixelFormatOfDisp)
      (hconvert : start.ptVideoConvert = .mjpeg2Rgb) (width height : UInt16)
      (row : Nat → Nat → UInt8) (hjpeg : i.frame.jpeg = .picture width height 3 row none)
      (hwidth : width.toNat = w) (hheight : height.toNat = h) :
      start.Takes i w h p (jpegPixel p row)

/-- Pixels are compared where the picture has some. -/
theorem Geometry.shownPicture_congr {w h W H p : Nat} (g : Geometry w h W H p)
    {picture picture' : Nat → Nat → List UInt8}
    (hsame : ∀ x < w, ∀ y < h, picture x y = picture' x y) :
    ∀ x < (shownRect w h W H).width, ∀ y < (shownRect w h W H).height,
      shownPicture w h W H picture x y = shownPicture w h W H picture' x y := by
  intro x hx y hy
  exact hsame _ (scaled_lt hx g.width.1) _ (scaled_lt hy g.height.1)

/-- **Step lemma.**  A pass does not make `main` return, and its frame is in the middle of the
screen afterwards. -/
theorem Main.Running.pass {start s : Main} {W H p w h : Nat} {i : Pass}
    {picture : Nat → Nat → List UInt8} (hs : Main.Running start s W H p)
    (g : Geometry w h W H p) (hmem : i.HasMemory) (htakes : start.Takes i w h p picture)
    (f : FromYuv) :
    (s.pass f scaleToScreen i).1 = none ∧ Main.Running start (s.pass f scaleToScreen i).2 W H p ∧
      Overlays (shownRect w h W H) (W * p) p (shownPicture w h W H picture) s.screen
        (s.pass f scaleToScreen i).2.screen := by
  cases htakes with
  | same hformat hframe =>
      have hsame : ¬ s.iPixelFormatOfVideo ≠ s.iPixelFormatOfDisp := by
        rw [hs.video, hs.disp]
        exact not_not.mpr hformat
      obtain ⟨hrun, hover⟩ := hs.shown g hframe hmem.zoom hmem.table
      simp only [Main.pass, if_neg hsame]
      exact ⟨trivial, hrun, hover⟩
  | jpeg hformat hconvert width height row hjpeg hwidth hheight =>
      have hdiffer : s.iPixelFormatOfVideo ≠ s.iPixelFormatOfDisp := by
        rwa [hs.video, hs.disp]
      subst hwidth hheight
      have hline : width.toNat * p < 2 ^ 28 :=
        (Nat.le_mul_of_pos_right _ g.height.1).trans_lt g.frame
      obtain ⟨hret, hdense, hdepth, ⟨b, hb⟩, hpixels⟩ :=
        mjpeg2RgbConvert_pixels 3 row g.pixel (by rw [hs.outDepth]; exact hs.depth) hs.out
          hmem.frame hline g.frame
      have hconv : s.ptVideoConvert.convert f i.frame s.tConvertBuf =
          mjpeg2RgbConvert i.frame.malloc true (.picture width height 3 row none)
            s.tConvertBuf := by
        rw [hs.convert, hconvert, Converter.convert, hmem.line, hjpeg]
      rw [← hconv] at hret hdense hdepth hb hpixels
      have husable : (s.converted f i).tConvertBuf.tPixelDatas.aucPixelDatas.Usable := by
        rw [Main.converted, hb]
        intro hfreed
        cases hfreed
      have hrunning : Main.Running start (s.converted f i) W H p :=
        ⟨hs.video, hs.disp, hs.convert, hs.width, hs.height, hs.depth, hs.frameBuf, hs.memory,
          hdepth.trans hs.outDepth, husable, hs.zoom⟩
      obtain ⟨hrun, hover⟩ := hrunning.shown g hdense hmem.zoom hmem.table
      have hpass : s.pass f scaleToScreen i = (none, (s.converted f i).shown scaleToScreen i
          (s.converted f i).tConvertBuf.tPixelDatas) := by
        simp only [Main.pass, if_pos hdiffer, hret, ne_eq, not_true_eq_false, if_false]
      rw [hpass]
      exact ⟨rfl, hrun, hover.congr (g.shownPicture_congr hpixels)⟩

/-- The loop may be cut anywhere. -/
theorem Main.passes_append (f : FromYuv) (scale : Scale) (xs ys : List Pass) (s : Main) :
    Main.passes f scale (xs ++ ys) s =
      (Main.passes f scale xs s).bind (Main.passes f scale ys) := by
  induction xs generalizing s with
  | nil => rfl
  | cons i rest ih =>
      simp only [List.cons_append, Main.passes]
      split
      · exact ih _
      · rfl

/-- **Run lemma.**  Over any passes `main` keeps running and changes only the middle of the
screen. -/
theorem Main.Running.passes {start s : Main} {W H p w h : Nat} {earlier : List Pass}
    (hs : Main.Running start s W H p) (g : Geometry w h W H p)
    (hearlier : ∀ i ∈ earlier, i.HasMemory ∧ ∃ picture, start.Takes i w h p picture)
    (f : FromYuv) :
    ∃ s', Main.passes f scaleToScreen earlier s = some s' ∧ Main.Running start s' W H p ∧
      ∀ a, ¬ (shownRect w h W H).Covers (W * p) p a → s'.screen a = s.screen a := by
  induction earlier generalizing s with
  | nil => exact ⟨s, rfl, hs, fun _ _ => rfl⟩
  | cons i rest ih =>
      obtain ⟨hmem, picture, htakes⟩ := hearlier i List.mem_cons_self
      obtain ⟨hnone, hrun, hover⟩ := hs.pass g hmem htakes f
      obtain ⟨s', hrest, hend, hsame⟩ :=
        ih hrun fun j hj => hearlier j (List.mem_cons_of_mem _ hj)
      refine ⟨s', ?_, hend, fun a ha => (hsame a ha).trans (hover.outside a ha)⟩
      have hpass : s.pass f scaleToScreen i = (none, (s.pass f scaleToScreen i).2) := by
        rw [← hnone]
      rw [Main.passes, hpass]
      exact hrest

/-- After the last pass its frame is on the screen. -/
theorem Main.Running.last {start s : Main} {W H p w h : Nat} {earlier : List Pass} {i : Pass}
    {picture : Nat → Nat → List UInt8} (hs : Main.Running start s W H p)
    (g : Geometry w h W H p)
    (hearlier : ∀ j ∈ earlier, j.HasMemory ∧ ∃ picture, start.Takes j w h p picture)
    (hmem : i.HasMemory) (htakes : start.Takes i w h p picture) (f : FromYuv) :
    ∃ s', Main.passes f scaleToScreen (earlier ++ [i]) s = some s' ∧
      Overlays (shownRect w h W H) (W * p) p (shownPicture w h W H picture) s.screen
        s'.screen := by
  obtain ⟨s', hrun, hs', hsame⟩ := hs.passes g hearlier f
  obtain ⟨hnone, -, hover⟩ := hs'.pass g hmem htakes f
  refine ⟨(s'.pass f scaleToScreen i).2, ?_, hover.inside, ?_⟩
  · have hpass : s'.pass f scaleToScreen i = (none, (s'.pass f scaleToScreen i).2) := by
      rw [← hnone]
    rw [Main.passes_append, hrun, Option.bind_some, Main.passes, hpass]
    rfl
  · exact fun a ha => (hover.outside a ha).trans (hsame a ha)

/-- A small number survives the conversion to `int`. -/
theorem toInt_of_ofNat {n : Nat} (hn : n < 2 ^ 31) : (UInt32.ofNat n).toInt32.toInt = n := by
  have hnat : (UInt32.ofNat n).toInt32.toUInt32.toNat = n := by
    rw [UInt32.toUInt32_toInt32, UInt32.toNat_ofNat', Nat.mod_eq_of_lt (by omega)]
  rw [toInt_of_small (by omega), hnat]

/-- `main` in front of its loop, on a framebuffer of `W` by `H` pixels of `p` bytes. -/
theorem Geometry.running_start {w h W H p : Nat} (g : Geometry w h W H p) (mem : Nat → UInt8)
    (iPixelFormatOfVideo : Int32) (c : Converter) :
    let start := Main.start (fbDeviceInit (UInt32.ofNat W) (UInt32.ofNat H)
      (UInt32.ofNat (8 * p)) mem) iPixelFormatOfVideo c
    Main.Running start start W H p := by
  intro start
  obtain ⟨-, -, ⟨-, hW⟩, ⟨hpos, hH⟩, hp, -, hscreen⟩ := g
  have hp4 : p ≤ 4 := by rcases hp with rfl | rfl <;> omega
  have hline : W * p < 2 ^ 28 := (Nat.le_mul_of_pos_right _ hpos).trans_lt hscreen
  have hbits : W * (8 * p) = 8 * (W * p) := by ring
  have hbytes : UInt32.ofNat W * UInt32.ofNat (8 * p) / 8 = UInt32.ofNat (W * p) := by
    apply UInt32.toNat_inj.mp
    have height : (8 : UInt32).toNat = 8 := rfl
    rw [UInt32.toNat_div, UInt32.toNat_mul, UInt32.toNat_ofNat', UInt32.toNat_ofNat',
      UInt32.toNat_ofNat', height, Nat.mod_eq_of_lt (by omega : W < 2 ^ 32),
      Nat.mod_eq_of_lt (by omega : 8 * p < 2 ^ 32), hbits, Nat.mod_eq_of_lt (by omega),
      Nat.mod_eq_of_lt (by omega)]
    omega
  have hlineWidth : (UInt32.ofNat W * UInt32.ofNat (8 * p) / 8).toInt32.toInt = W * p := by
    rw [hbytes, toInt_of_ofNat (by omega)]
    push_cast
    rfl
  have hdepth : (UInt32.ofNat (8 * p)).toInt32.toInt = 8 * p := by
    rw [toInt_of_ofNat (by omega)]
    push_cast
    rfl
  have hwidth : (UInt32.ofNat W).toInt32.toInt = W := toInt_of_ofNat (by omega)
  have hheight : (UInt32.ofNat H).toInt32.toInt = H := toInt_of_ofNat (by omega)
  exact ⟨rfl, rfl, rfl, hwidth, hheight, hdepth, ⟨hwidth, hheight, hdepth, hlineWidth, hscreen⟩,
    ⟨_, rfl⟩, rfl, nofun, nofun⟩

/-- **The last frame is on the screen.**  Take a camera that delivers the display's format or
JPEG pictures of three components, all frames of one size, and memory enough.  After any number
of passes `main` has not returned.  The middle of the screen, which lies inside the framebuffer,
shows the last frame, in its own size or scaled down to the screen, and every other byte of the
framebuffer is as it was before the loop. -/
theorem screen_shows_last_frame {w h W H p : Nat} (g : Geometry w h W H p) (mem : Nat → UInt8)
    (iPixelFormatOfVideo : Int32) (c : Converter) (f : FromYuv) (earlier : List Pass) (i : Pass)
    (picture : Nat → Nat → List UInt8) :
    let start := Main.start (fbDeviceInit (UInt32.ofNat W) (UInt32.ofNat H)
      (UInt32.ofNat (8 * p)) mem) iPixelFormatOfVideo c
    (∀ j ∈ earlier, j.HasMemory ∧ ∃ picture, start.Takes j w h p picture) →
    i.HasMemory → start.Takes i w h p picture →
    (shownRect w h W H).left + (shownRect w h W H).width ≤ W ∧
      (shownRect w h W H).top + (shownRect w h W H).height ≤ H ∧
      ∃ s, Main.passes f scaleToScreen (earlier ++ [i]) start = some s ∧
        Overlays (shownRect w h W H) (W * p) p (shownPicture w h W H picture) mem s.screen := by
  intro start hearlier hmem htakes
  obtain ⟨hwW, hhH⟩ := g.shown_fits
  refine ⟨by simp only [shownRect]; omega, by simp only [shownRect]; omega, ?_⟩
  exact (g.running_start mem iPixelFormatOfVideo c).last g hearlier hmem htakes f

/-- A frame of one white pixel in the display's format. -/
def whitePixel : Pass where
  frame :=
    { buf :=
        { tPixelDatas := ⟨1, 1, 16, 2, 2, .block ⟨2, fun _ => 255⟩⟩
          iPixelFormat := V4L2_PIX_FMT_RGB565 }
      malloc := fun _ => some fun _ => 0
      lineBuffer := true
      jpeg := .broken }
  zoomMalloc := fun _ => some fun _ => 0
  tableMalloc := fun _ => some fun _ => 0

theorem whitePixel_hasMemory : whitePixel.HasMemory :=
  ⟨fun _ => rfl, rfl, fun _ => rfl, fun _ => rfl⟩

/-- One pixel on a screen of two. -/
theorem geometry_twoPixels : Geometry 1 1 2 1 2 :=
  ⟨by decide, by decide, by decide, by decide, .inl rfl, by decide, by decide⟩

/-- A white pixel of a camera with the display's format, on a black screen of two pixels. -/
theorem screen_shows_white_pixel :
    ∃ s, Main.passes colorC scaleToScreen [whitePixel, whitePixel]
        (Main.start (fbDeviceInit 2 1 16 fun _ => 0) V4L2_PIX_FMT_RGB565 .rgb2Rgb) = some s ∧
      pixel s.screen 4 2 0 0 = [255, 255] ∧ s.screen 2 = 0 := by
  have htakes : (Main.start (fbDeviceInit 2 1 16 fun _ => 0) V4L2_PIX_FMT_RGB565
      .rgb2Rgb).Takes whitePixel 1 1 2 (pixel (fun _ => 255) 2 2) :=
    .same (by decide) ⟨rfl, rfl, rfl, rfl, by decide⟩
  obtain ⟨-, -, s, hrun, hover⟩ := screen_shows_last_frame geometry_twoPixels (fun _ => 0)
    V4L2_PIX_FMT_RGB565 .rgb2Rgb colorC [whitePixel] whitePixel _ (by
      intro j hj
      obtain rfl := List.mem_singleton.mp hj
      exact ⟨whitePixel_hasMemory, _, htakes⟩) whitePixel_hasMemory htakes
  refine ⟨s, hrun, hover.inside 0 (by decide) 0 (by decide), hover.outside 2 ?_⟩
  have hrect : shownRect 1 1 2 1 = ⟨0, 0, 1, 1⟩ := rfl
  rw [hrect]
  intro hcovers
  obtain ⟨x, hx, y, hy, -, hhigh⟩ := hcovers
  simp only at hx hy hhigh
  omega

end Video2lcd
