import UsbCamera.Video2lcd.Picture

/-!
# From the camera to the screen

The loop of `main`: fetch a frame, convert it into `tConvertBuf` where the camera
and the display have different formats, scale it down where it is larger than the
screen, and merge it into the middle of the framebuffer.  `tFrameBuf` holds the
framebuffer's own memory, so that `FlushPixelDatasToDev`, which copies only from
somewhere else, has nothing to do.

What a pass is for is `Main.Shows`: the centred rectangle of the framebuffer holds
the frame's pixels in the display's format, and every other byte is as before.

`tConvertBuf` is cleared with `memset` and given a depth, and never a pixel format;
and both converters of uncompressed frames look for the format in their output.
They find 0 there.  So a pass changes nothing on the screen, and shows its frame
exactly if the screen showed it already (`frame_shown_iff`).  With the format in
its place the frame would be shown (`Main.Formatted.shows`).
-/

namespace Video2lcd

open CInt Raster

/-- What `FBDeviceInit` leaves in `g_tFBOpr`. -/
structure DispOpr where
  iXres : Int32
  iYres : Int32
  iBpp : Int32
  iLineWidth : Int32
  pucDispMem : Data

/-- `FBDeviceInit`, from what the framebuffer's driver says and the memory it
maps. -/
def fbDeviceInit (xres yres bits_per_pixel : UInt32) (mem : Nat → UInt8) : DispOpr where
  iXres := xres.toInt32
  iYres := yres.toInt32
  iBpp := bits_per_pixel.toInt32
  iLineWidth := (xres * bits_per_pixel / 8).toInt32
  pucDispMem := .block ⟨(xres * yres * bits_per_pixel / 8).toNat, mem⟩

def getVideoBufForDisplay (o : DispOpr) : VideoBuf Data where
  iPixelFormat :=
    if o.iBpp = 16 then V4L2_PIX_FMT_RGB565
    else if o.iBpp = 32 then V4L2_PIX_FMT_RGB32
    else 0
  tPixelDatas :=
    { iWidth := o.iXres
      iHeight := o.iYres
      iBpp := o.iBpp
      iLineBytes := o.iLineWidth
      iTotalBytes := o.iLineWidth * o.iYres
      aucPixelDatas := o.pucDispMem }

/-- The variables of `main` that its loop uses. -/
structure Main where
  iPixelFormatOfVideo : Int32
  iPixelFormatOfDisp : Int32
  iLcdWidth : Int32
  iLcdHeigt : Int32
  iLcdBpp : Int32
  ptVideoConvert : Converter
  tConvertBuf : VideoBuf Data
  tZoomBuf : VideoBuf Data
  tFrameBuf : VideoBuf Data

/-- A `T_VideoBuf` after `memset` to 0. -/
def VideoBuf.zeroed : VideoBuf Data where
  tPixelDatas := ⟨0, 0, 0, 0, 0, .null⟩
  iPixelFormat := 0

/-- `main` in front of its loop: `tConvertBuf` is cleared and given a depth. -/
def Main.start (o : DispOpr) (iPixelFormatOfVideo : Int32) (ptVideoConvert : Converter) :
    Main where
  iPixelFormatOfVideo := iPixelFormatOfVideo
  iPixelFormatOfDisp := (getVideoBufForDisplay o).iPixelFormat
  iLcdWidth := o.iXres
  iLcdHeigt := o.iYres
  iLcdBpp := o.iBpp
  ptVideoConvert := ptVideoConvert
  tConvertBuf :=
    { VideoBuf.zeroed with tPixelDatas := { VideoBuf.zeroed.tPixelDatas with iBpp := o.iBpp } }
  tZoomBuf := VideoBuf.zeroed
  tFrameBuf := getVideoBufForDisplay o

/-- What a pass of the loop is given from outside: the frame, and the answers of
`malloc` while it is scaled. -/
structure Pass where
  frame : Frame
  zoomMalloc : Malloc
  tableMalloc : Malloc

/-- The size of a scaled picture, from its own and the screen's size.  `main`
computes it with a `float`. -/
abbrev Scale := Int32 → Int32 → Int32 → Int32 → Int32 × Int32

/-- The picture that is merged: `cur`, or `tZoomBuf` where `cur` is larger than the
screen. -/
def Main.fitted (scale : Scale) (i : Pass) (s : Main) (cur : PixelDatas Data) :
    PixelDatas Data × Main :=
  if s.iLcdWidth < cur.iWidth ∨ s.iLcdHeigt < cur.iHeight then
    let size := scale cur.iWidth cur.iHeight s.iLcdWidth s.iLcdHeigt
    let zoom := (s.tZoomBuf.tPixelDatas.sized size.1 size.2 s.iLcdBpp).allocated i.zoomMalloc
    let zoomed := (picZoom i.tableMalloc cur zoom).2
    (zoomed, { s with tZoomBuf := { s.tZoomBuf with tPixelDatas := zoomed } })
  else (cur, s)

/-- Merge a picture into the middle of the framebuffer. -/
def Main.merged (s : Main) (cur : PixelDatas Data) : Main :=
  let iTopLeftX := (s.iLcdWidth - cur.iWidth) / 2
  let iTopLeftY := (s.iLcdHeigt - cur.iHeight) / 2
  { s with tFrameBuf := { s.tFrameBuf with
      tPixelDatas := (picMerge iTopLeftX iTopLeftY cur s.tFrameBuf.tPixelDatas).2 } }

/-- The end of a pass, once there is a picture in the display's format. -/
def Main.shown (scale : Scale) (i : Pass) (s : Main) (cur : PixelDatas Data) : Main :=
  let fit := s.fitted scale i cur
  fit.2.merged fit.1

/-- `main` with a converted frame. -/
def Main.converted (f : FromYuv) (i : Pass) (s : Main) : Main :=
  { s with tConvertBuf := (s.ptVideoConvert.convert f i.frame s.tConvertBuf).out }

/-- One pass of the loop over a frame: the value that `main` returns, if it does,
and its variables. -/
def Main.pass (f : FromYuv) (scale : Scale) (i : Pass) (s : Main) : Option Int32 × Main :=
  if s.iPixelFormatOfVideo ≠ s.iPixelFormatOfDisp then
    let s' := s.converted f i
    if (s.ptVideoConvert.convert f i.frame s.tConvertBuf).ret ≠ 0 then (some (-1), s')
    else (none, s'.shown scale i s'.tConvertBuf.tPixelDatas)
  else (none, s.shown scale i i.frame.buf.tPixelDatas)

/-- Several passes, none of which makes `main` return. -/
def Main.passes (f : FromYuv) (scale : Scale) : List Pass → Main → Option Main
  | [], s => some s
  | i :: rest, s =>
      match s.pass f scale i with
      | (none, s') => Main.passes f scale rest s'
      | (some _, _) => none

/-- The pixel that a converter of uncompressed frames makes of pixel `i`, for a
given format of the output. -/
def Converter.pixel (f : FromYuv) (iPixelFormatOut : Int32) (input : Nat → UInt8) (i : Nat) :
    Converter → List UInt8
  | .yuv2Rgb =>
      if iPixelFormatOut = V4L2_PIX_FMT_RGB565 then yuyvPixel f rgb565Bytes input i
      else yuyvPixel f rgb32Bytes input i
  | .rgb2Rgb =>
      if iPixelFormatOut = V4L2_PIX_FMT_RGB565 then ByteStore.read input (2 * i) 2
      else rgb565Pixel input i
  | .mjpeg2Rgb => []

/-- The middle of the screen, in the size of a picture. -/
def Main.centred (s : Main) (pic : PixelDatas Data) : Rect where
  left := (s.iLcdWidth.toInt.toNat - pic.iWidth.toInt.toNat) / 2
  top := (s.iLcdHeigt.toInt.toNat - pic.iHeight.toInt.toNat) / 2
  width := pic.iWidth.toInt.toNat
  height := pic.iHeight.toInt.toNat

/-- The bytes of a line and of a pixel of the screen. -/
def Main.stride (s : Main) : Nat := s.tFrameBuf.tPixelDatas.iLineBytes.toInt.toNat

def Main.pixelBytes (s : Main) : Nat := s.iLcdBpp.toInt.toNat / 8

def Main.screen (s : Main) : Nat → UInt8 := s.tFrameBuf.tPixelDatas.aucPixelDatas.bytes

/-- A frame as the display should show it. -/
def Main.picture (f : FromYuv) (s : Main) (frame : Frame) (x y : Nat) : List UInt8 :=
  s.ptVideoConvert.pixel f s.iPixelFormatOfDisp frame.buf.tPixelDatas.aucPixelDatas.bytes
    (y * frame.buf.tPixelDatas.iWidth.toInt.toNat + x)

/-- From `s` to `s'` the frame has come into the middle of the screen, and nothing
else has changed there. -/
def Main.Shows (f : FromYuv) (frame : Frame) (s s' : Main) : Prop :=
  Overlays (s.centred frame.buf.tPixelDatas) s.stride s.pixelBytes (s.picture f frame)
    s.screen s'.screen

/-- The frame is in the middle of the screen. -/
def Main.OnScreen (f : FromYuv) (frame : Frame) (s : Main) : Prop :=
  (s.centred frame.buf.tPixelDatas).Holds s.stride s.pixelBytes (s.picture f frame) s.screen

/-- A picture whose lines are of no bytes is merged without effect. -/
theorem picMerge_of_no_line {small big : PixelDatas Data} (h : small.iLineBytes = 0)
    (iX iY : Int32) :
    (picMerge iX iY small big).2.aucPixelDatas.bytes = big.aucPixelDatas.bytes := by
  unfold picMerge
  split
  · rfl
  · cases hdata : big.aucPixelDatas with
    | null => simp [PixelDatas.stored, hdata, Data.store]
    | freed => simp [PixelDatas.stored, hdata, Data.store]
    | block b =>
        simp only [PixelDatas.stored, hdata, Data.store, Data.bytes]
        funext a
        apply ByteStore.writeAll_outside
        intro piece hpiece
        obtain ⟨y, -, rfl⟩ := List.mem_map.mp hpiece
        have hzero : (0 : Int32).toUInt32.toNat = 0 := rfl
        simp only [h, hzero, ByteStore.length_read]
        omega

/-- No format is none of the two that the converters make. -/
theorem unformatted_ne {iPixelFormat : Int32} (h : iPixelFormat = 0) :
    iPixelFormat ≠ V4L2_PIX_FMT_RGB565 ∧ iPixelFormat ≠ V4L2_PIX_FMT_RGB32 := by
  rw [h]
  decide

/-- `Yuv2RgbConvert` into an output without a format only notes the size. -/
theorem yuv2RgbConvert_unformatted {out : VideoBuf Data} (hformat : out.iPixelFormat = 0)
    (f : FromYuv) (malloc : Malloc) (inBuf : VideoBuf Data) :
    yuv2RgbConvert f malloc inBuf out =
      ⟨0, { out with tPixelDatas := { out.tPixelDatas with
          iWidth := inBuf.tPixelDatas.iWidth, iHeight := inBuf.tPixelDatas.iHeight } }, none⟩ := by
  obtain ⟨h565, h32⟩ := unformatted_ne hformat
  simp only [yuv2RgbConvert, if_neg h565, if_neg h32]

/-- `Rgb2RgbConvert` refuses an output without a format. -/
theorem rgb2RgbConvert_unformatted {out : VideoBuf Data} (hformat : out.iPixelFormat = 0)
    (malloc : Malloc) (inBuf : VideoBuf Data) :
    rgb2RgbConvert malloc inBuf out = ⟨-1, out, none⟩ := by
  obtain ⟨h565, h32⟩ := unformatted_ne hformat
  simp only [rgb2RgbConvert, if_neg h565, if_neg h32, ite_self]

/-- What a converter of uncompressed frames makes of an output without a format:
nothing but, possibly, its size. -/
theorem convert_unformatted {c : Converter} {out : VideoBuf Data} (hc : c ≠ .mjpeg2Rgb)
    (hformat : out.iPixelFormat = 0) (f : FromYuv) (frame : Frame) :
    let done := c.convert f frame out
    done.out.iPixelFormat = 0 ∧
    done.out.tPixelDatas.iLineBytes = out.tPixelDatas.iLineBytes ∧
    (done.ret = 0 →
      done.out.tPixelDatas.iWidth = frame.buf.tPixelDatas.iWidth ∧
      done.out.tPixelDatas.iHeight = frame.buf.tPixelDatas.iHeight) := by
  cases c with
  | yuv2Rgb =>
      have hconv := yuv2RgbConvert_unformatted hformat f frame.malloc frame.buf
      simp only [Converter.convert, hconv]
      exact ⟨hformat, trivial, fun _ => ⟨trivial, trivial⟩⟩
  | mjpeg2Rgb => exact absurd rfl hc
  | rgb2Rgb =>
      have hconv := rgb2RgbConvert_unformatted hformat frame.malloc frame.buf
      simp only [Converter.convert, hconv]
      exact ⟨hformat, trivial, fun hret => absurd hret (by decide)⟩

/-- The state that `main` is in with a converter of uncompressed frames: its output
has no format and no lines. -/
structure Main.Unformatted (s : Main) : Prop where
  uncompressed : s.ptVideoConvert ≠ .mjpeg2Rgb
  differ : s.iPixelFormatOfVideo ≠ s.iPixelFormatOfDisp
  format : s.tConvertBuf.iPixelFormat = 0
  line : s.tConvertBuf.tPixelDatas.iLineBytes = 0

/-- The size of the screen and what is known of it does not change. -/
structure Main.SameScreen (s s' : Main) : Prop where
  width : s'.iLcdWidth = s.iLcdWidth
  height : s'.iLcdHeigt = s.iLcdHeigt

/-- What the end of a pass leaves alone. -/
theorem Main.shown_other (scale : Scale) (i : Pass) (s : Main) (cur : PixelDatas Data) :
    let s' := s.shown scale i cur
    s'.iPixelFormatOfVideo = s.iPixelFormatOfVideo ∧
    s'.iPixelFormatOfDisp = s.iPixelFormatOfDisp ∧ s'.ptVideoConvert = s.ptVideoConvert ∧
    s'.tConvertBuf = s.tConvertBuf ∧ s.SameScreen s' := by
  unfold Main.shown Main.fitted Main.merged
  split <;> exact ⟨rfl, rfl, rfl, rfl, rfl, rfl⟩

/-- A picture that fits the screen is merged as it is. -/
theorem Main.shown_of_fits {s : Main} {cur : PixelDatas Data} (hwidth : cur.iWidth ≤ s.iLcdWidth)
    (hheight : cur.iHeight ≤ s.iLcdHeigt) (scale : Scale) (i : Pass) :
    s.shown scale i cur = s.merged cur := by
  have hfits : ¬ (s.iLcdWidth < cur.iWidth ∨ s.iLcdHeigt < cur.iHeight) := by
    simp only [not_or, Int32.not_lt]
    exact ⟨hwidth, hheight⟩
  simp only [Main.shown, Main.fitted, if_neg hfits]

/-- A conversion leaves the output without a format. -/
theorem Main.Unformatted.converted {s : Main} (h : s.Unformatted) (f : FromYuv) (i : Pass) :
    (s.converted f i).Unformatted := by
  obtain ⟨hformat, hline, -⟩ := convert_unformatted h.uncompressed h.format f i.frame
  exact ⟨h.uncompressed, h.differ, hformat, hline.trans h.line⟩

/-- **A pass leaves the output without a format.** -/
theorem Main.Unformatted.pass {s : Main} (h : s.Unformatted) (f : FromYuv) (scale : Scale)
    (i : Pass) : (s.pass f scale i).2.Unformatted ∧ s.SameScreen (s.pass f scale i).2 := by
  have hconv := h.converted f i
  simp only [Main.pass, if_pos h.differ]
  split
  · exact ⟨hconv, rfl, rfl⟩
  · obtain ⟨hvideo, hdisp, hsame, hbuf, hscreen⟩ := Main.shown_other scale i (s.converted f i)
      (s.converted f i).tConvertBuf.tPixelDatas
    refine ⟨⟨?_, ?_, ?_, ?_⟩, hscreen.width, hscreen.height⟩
    · rw [hsame]
      exact hconv.uncompressed
    · rw [hvideo, hdisp]
      exact hconv.differ
    · rw [hbuf]
      exact hconv.format
    · rw [hbuf]
      exact hconv.line

/-- Nor do several passes give it one. -/
theorem Main.Unformatted.passes {f : FromYuv} {scale : Scale} {earlier : List Pass} {s s' : Main}
    (h : s.Unformatted) (hrun : Main.passes f scale earlier s = some s') :
    s'.Unformatted ∧ s.SameScreen s' := by
  induction earlier generalizing s with
  | nil =>
      obtain rfl := Option.some.inj hrun
      exact ⟨h, rfl, rfl⟩
  | cons i rest ih =>
      obtain ⟨hpass, hscreen⟩ := h.pass f scale i
      simp only [Main.passes] at hrun
      split at hrun
      · rename_i mid hmid
        rw [hmid] at hpass hscreen
        obtain ⟨hend, hrest⟩ := ih hpass hrun
        exact ⟨hend, hrest.width.trans hscreen.width, hrest.height.trans hscreen.height⟩
      · cases hrun

/-- **Without a format nothing appears.**  A pass over a frame that fits the screen
leaves the screen as it is. -/
theorem Main.Unformatted.screen_pass {s : Main} (h : s.Unformatted) {i : Pass}
    (hwidth : i.frame.buf.tPixelDatas.iWidth ≤ s.iLcdWidth)
    (hheight : i.frame.buf.tPixelDatas.iHeight ≤ s.iLcdHeigt) (f : FromYuv) (scale : Scale) :
    (s.pass f scale i).2.screen = s.screen := by
  obtain ⟨-, -, hsize⟩ := convert_unformatted h.uncompressed h.format f i.frame
  have hline := (h.converted f i).line
  simp only [Main.pass, if_pos h.differ]
  split
  · rfl
  · rename_i hret
    obtain ⟨hw, hh⟩ := hsize (not_not.mp hret)
    have hmerged : (s.converted f i).shown scale i (s.converted f i).tConvertBuf.tPixelDatas =
        (s.converted f i).merged (s.converted f i).tConvertBuf.tPixelDatas :=
      Main.shown_of_fits (hw ▸ hwidth) (hh ▸ hheight) scale i
    rw [hmerged]
    exact picMerge_of_no_line hline _ _

/-- The registry finds a converter by the camera's format. -/
theorem formatIn_of_found {iPixelFormatIn iPixelFormatOut : Int32} {c : Converter}
    (h : getVideoConvertForFormats iPixelFormatIn iPixelFormatOut = some c) :
    iPixelFormatIn = c.formatIn := by
  have hsupport := List.find?_some h
  simp only [Converter.isSupport, Bool.and_eq_true, beq_iff_eq] at hsupport
  exact hsupport.1

/-- **What the camera sent and what the LCD shows.**  The camera has a format of its
own, not the display's, of the uncompressed kind.  After any passes, one over a
frame that fits the screen shows the frame exactly if the frame was on the screen
already. -/
theorem frame_shown_iff {f : FromYuv} {scale : Scale} {o : DispOpr} {iPixelFormatOfVideo : Int32}
    {c : Converter} {earlier : List Pass} {s : Main} {i : Pass}
    (hfound : getVideoConvertForFormats iPixelFormatOfVideo
      (getVideoBufForDisplay o).iPixelFormat = some c)
    (hdiffer : iPixelFormatOfVideo ≠ (getVideoBufForDisplay o).iPixelFormat)
    (hkind : iPixelFormatOfVideo = V4L2_PIX_FMT_YUYV ∨ iPixelFormatOfVideo = V4L2_PIX_FMT_RGB565)
    (hrun : Main.passes f scale earlier (Main.start o iPixelFormatOfVideo c) = some s)
    (hwidth : i.frame.buf.tPixelDatas.iWidth ≤ o.iXres)
    (hheight : i.frame.buf.tPixelDatas.iHeight ≤ o.iYres) :
    s.Shows f i.frame (s.pass f scale i).2 ↔ s.OnScreen f i.frame := by
  have huncompressed : c ≠ .mjpeg2Rgb := by
    intro hc
    rw [formatIn_of_found hfound, hc] at hkind
    revert hkind
    decide
  have hstart : (Main.start o iPixelFormatOfVideo c).Unformatted :=
    ⟨huncompressed, hdiffer, rfl, rfl⟩
  obtain ⟨hunformatted, hscreen⟩ := hstart.passes hrun
  have hsame := hunformatted.screen_pass (i := i) (by rw [hscreen.width]; exact hwidth)
    (by rw [hscreen.height]; exact hheight) f scale
  unfold Main.Shows Main.OnScreen
  rw [hsame]
  exact overlays_self

/-- Two pixels of a camera side by side, of the same four bytes. -/
def twoPixels (iPixelFormat : Int32) (a b c d : UInt8) : Pass where
  frame :=
    { buf :=
        { tPixelDatas := ⟨2, 1, 16, 4, 4, .block ⟨4, fun k => [a, b, c, d].getD k 0⟩⟩
          iPixelFormat := iPixelFormat }
      malloc := fun _ => some fun _ => 0
      lineBuffer := true
      jpeg := .broken }
  zoomMalloc := fun _ => none
  tableMalloc := fun _ => none

/-- A screen of two pixels of 32 bits, with the same byte everywhere. -/
def twoPixelScreen (color : UInt8) : DispOpr := fbDeviceInit 2 1 32 fun _ => color

/-- A white frame does not appear on a black screen: from a YUYV camera the pass
does nothing, and from an RGB565 camera `main` returns. -/
theorem white_frame_not_shown :
    getVideoConvertForFormats V4L2_PIX_FMT_YUYV V4L2_PIX_FMT_RGB32 = some .yuv2Rgb ∧
    getVideoConvertForFormats V4L2_PIX_FMT_RGB565 V4L2_PIX_FMT_RGB32 = some .rgb2Rgb ∧
    (let s := Main.start (twoPixelScreen 0) V4L2_PIX_FMT_YUYV .yuv2Rgb
      let i := twoPixels V4L2_PIX_FMT_YUYV 255 128 255 128
      (s.pass colorC (fun _ _ w h => (w, h)) i).1 = none ∧
      ¬ s.Shows colorC i.frame (s.pass colorC (fun _ _ w h => (w, h)) i).2) ∧
    (let s := Main.start (twoPixelScreen 0) V4L2_PIX_FMT_RGB565 .rgb2Rgb
      let i := twoPixels V4L2_PIX_FMT_RGB565 255 255 255 255
      (s.pass colorC (fun _ _ w h => (w, h)) i).1 = some (-1) ∧
      ¬ s.Shows colorC i.frame (s.pass colorC (fun _ _ w h => (w, h)) i).2) := by
  refine ⟨by decide, by decide, ⟨by decide, ?_⟩, by decide, ?_⟩
  · intro hshows
    have hpixel := hshows.inside 0 (by decide) 0 (by decide)
    revert hpixel
    decide
  · intro hshows
    have hpixel := hshows.inside 0 (by decide) 0 (by decide)
    revert hpixel
    decide

/-- A black frame is shown on a black screen. -/
theorem black_frame_shown :
    let s := Main.start (twoPixelScreen 0) V4L2_PIX_FMT_YUYV .yuv2Rgb
    let i := twoPixels V4L2_PIX_FMT_YUYV 0 128 0 128
    s.Shows colorC i.frame (s.pass colorC (fun _ _ w h => (w, h)) i).2 := by
  have hrun : Main.passes colorC (fun _ _ w h => (w, h)) []
      (Main.start (twoPixelScreen 0) V4L2_PIX_FMT_YUYV .yuv2Rgb) = some _ := rfl
  apply (frame_shown_iff (by decide) (by decide) (.inl rfl) hrun (by decide) (by decide)).mpr
  unfold Main.OnScreen Rect.Holds
  decide

/-! ## With a format -/

/-- A picture filled with pixels one behind the other, in memory of its own. -/
theorem fill_pixels {out : VideoBuf Data} {iWidth iHeight iBpp : Int32} {w h p n : Nat}
    {malloc : Malloc} {g : Nat → List UInt8} (hdata : out.tPixelDatas.aucPixelDatas = .null)
    (hmalloc : ∀ n, (malloc n).isSome) (hw : iWidth.toInt = w) (hh : iHeight.toInt = h)
    (hb : iBpp.toInt = 8 * p) (hpos : 0 < h) (hsmall : w * p * h < 2 ^ 28)
    (hlen : ∀ i, (g i).length = p) (hn : w * h ≤ n) :
    let done := out.fill iWidth iHeight iBpp malloc [(0, (List.range n).flatMap g)]
    done.ret = 0 ∧ Dense done.out.tPixelDatas w h p ∧
    ∀ k < w * h,
      ByteStore.read done.out.tPixelDatas.aucPixelDatas.bytes (k * p) p = g k := by
  have hle : w * p ≤ w * p * h := Nat.le_mul_of_pos_right _ hpos
  have hprod : iWidth.toInt * iBpp.toInt = ((8 * (w * p) : Nat) : Int) := by
    rw [hw, hb]
    push_cast
    ring
  have hbits : (iWidth * iBpp).toInt = ((8 * (w * p) : Nat) : Int) := by
    rw [toInt_mul_of_range] <;> omega
  have hline : (iWidth * iBpp / 8).toInt = ((w * p : Nat) : Int) := by
    rw [toInt_div_eight (by omega), hbits]
    omega
  obtain ⟨bytes, hbytes⟩ := Option.isSome_iff_exists.mp
    (hmalloc (iWidth * iBpp / 8 * iHeight).toUInt32.toNat)
  intro done
  have hptr : done.out.tPixelDatas.aucPixelDatas =
      .block ⟨(iWidth * iBpp / 8 * iHeight).toUInt32.toNat,
        ByteStore.write bytes 0 ((List.range n).flatMap g)⟩ := by
    simp only [done, VideoBuf.fill, PixelDatas.allocated, PixelDatas.sized, hdata, mallocData,
      hbytes]
    rfl
  have hsized : done.out.tPixelDatas.iWidth = iWidth ∧ done.out.tPixelDatas.iHeight = iHeight ∧
      done.out.tPixelDatas.iBpp = iBpp ∧
      done.out.tPixelDatas.iLineBytes = iWidth * iBpp / 8 := by
    simp [done, VideoBuf.fill, PixelDatas.allocated, PixelDatas.sized, PixelDatas.stored, hdata]
  obtain ⟨hw', hh', hb', hl'⟩ := hsized
  have hdense : Dense done.out.tPixelDatas w h p := by
    refine ⟨by rw [hw', hw], by rw [hh', hh], by rw [hb', hb], ?_, hsmall⟩
    rw [hl', hline]
    push_cast
    rfl
  refine ⟨rfl, hdense, ?_⟩
  intro k hk
  rw [hptr]
  have hread := ByteStore.read_write_flatMap bytes hlen 0 (Nat.lt_of_lt_of_le hk hn)
  rw [Nat.zero_add] at hread
  exact hread

/-- The rounds of the YUYV loops cover a picture of even width. -/
theorem pairs_of_even {iWidth iHeight : Int32} {w h : Nat} (hw : iWidth.toInt = w)
    (hh : iHeight.toInt = h) (heven : 2 ∣ w) (hsmall : w * h < 2 ^ 28) :
    2 * (iWidth.toUInt32 * iHeight.toUInt32 / 2).toNat = w * h := by
  have hprod : (iWidth.toUInt32 * iHeight.toUInt32 / 2).toNat = w * h % 2 ^ 32 / 2 := by
    rw [UInt32.toNat_div, UInt32.toNat_mul, toNat_of_toInt hw, toNat_of_toInt hh]
    rfl
  have hdvd : 2 ∣ w * h := Dvd.dvd.mul_right heven h
  rw [hprod, Nat.mod_eq_of_lt (by omega)]
  omega

/-- A display format and the bytes of its pixels. -/
def DisplayFormat (iPixelFormat : Int32) (p : Nat) : Prop :=
  iPixelFormat = V4L2_PIX_FMT_RGB565 ∧ p = 2 ∨ iPixelFormat = V4L2_PIX_FMT_RGB32 ∧ p = 4

/-- A frame of a camera, of even width, with memory enough to convert it. -/
structure Frame.Convertible (frame : Frame) (c : Converter) (w h : Nat) : Prop where
  format : frame.buf.iPixelFormat = c.formatIn
  width : frame.buf.tPixelDatas.iWidth.toInt = w
  height : frame.buf.tPixelDatas.iHeight.toInt = h
  even : 2 ∣ w
  positive : 0 < h
  memory : ∀ n, (frame.malloc n).isSome

/-- **Conversion.**  Into an output with a display format, other than the camera's,
a converter of uncompressed frames puts its pixels one behind the other. -/
theorem convert_formatted {c : Converter} {out : VideoBuf Data} {frame : Frame} {w h p : Nat}
    (hc : c ≠ .mjpeg2Rgb) (hdiffer : c.formatIn ≠ out.iPixelFormat)
    (hformat : DisplayFormat out.iPixelFormat p) (hframe : frame.Convertible c w h)
    (hdata : out.tPixelDatas.aucPixelDatas = .null) (hsmall : w * p * h < 2 ^ 28)
    (f : FromYuv) :
    let done := c.convert f frame out
    done.ret = 0 ∧ Dense done.out.tPixelDatas w h p ∧
    ∀ k < w * h, ByteStore.read done.out.tPixelDatas.aucPixelDatas.bytes (k * p) p =
      c.pixel f out.iPixelFormat frame.buf.tPixelDatas.aucPixelDatas.bytes k := by
  have hne : V4L2_PIX_FMT_RGB32 ≠ V4L2_PIX_FMT_RGB565 := by decide
  cases c with
  | mjpeg2Rgb => exact absurd rfl hc
  | yuv2Rgb =>
      have hpairs : 2 * (frame.buf.tPixelDatas.iWidth.toUInt32 *
          frame.buf.tPixelDatas.iHeight.toUInt32 / 2).toNat = w * h := by
        apply pairs_of_even hframe.width hframe.height hframe.even
        rcases hformat with ⟨-, rfl⟩ | ⟨-, rfl⟩ <;> nlinarith
      rcases hformat with ⟨hf, rfl⟩ | ⟨hf, rfl⟩
      · simp only [Converter.convert, yuv2RgbConvert, Converter.pixel, hf, if_true,
          pyuv422torgb565, yuyvBytes_eq]
        exact fill_pixels hdata hframe.memory hframe.width hframe.height rfl hframe.positive hsmall
          (fun i => length_rgb565Bytes _ _ _) hpairs.ge
      · simp only [Converter.convert, yuv2RgbConvert, Converter.pixel, hf, if_true, if_neg hne,
          pyuv422torgb32, yuyvBytes_eq]
        exact fill_pixels hdata hframe.memory hframe.width hframe.height rfl hframe.positive hsmall
          (fun i => length_rgb32Bytes _ _ _) hpairs.ge
  | rgb2Rgb =>
      rcases hformat with ⟨hf, rfl⟩ | ⟨hf, rfl⟩
      · exact absurd hf.symm hdiffer
      · have hcount : w * h ≤ frame.buf.tPixelDatas.iHeight.toInt.toNat *
            frame.buf.tPixelDatas.iWidth.toInt.toNat := by
          rw [hframe.width, hframe.height, Int.toNat_natCast, Int.toNat_natCast, Nat.mul_comm]
        have hin : ¬ frame.buf.iPixelFormat ≠ V4L2_PIX_FMT_RGB565 := not_not.mpr hframe.format
        simp only [Converter.convert, rgb2RgbConvert, Converter.pixel, hf, if_true, if_neg hne,
          if_neg hin]
        exact fill_pixels hdata hframe.memory hframe.width hframe.height rfl hframe.positive hsmall
          (fun i => length_rgb565Pixel _ _) hcount

/-- `main` as it would be with the format of the display in `tConvertBuf`. -/
structure Main.Formatted (s : Main) (w h p : Nat) : Prop where
  uncompressed : s.ptVideoConvert ≠ .mjpeg2Rgb
  video : s.iPixelFormatOfVideo = s.ptVideoConvert.formatIn
  differ : s.ptVideoConvert.formatIn ≠ s.iPixelFormatOfDisp
  format : s.tConvertBuf.iPixelFormat = s.iPixelFormatOfDisp
  display : DisplayFormat s.iPixelFormatOfDisp p
  fresh : s.tConvertBuf.tPixelDatas.aucPixelDatas = .null
  frameBuf : Dense s.tFrameBuf.tPixelDatas w h p
  memory : ∃ b, s.tFrameBuf.tPixelDatas.aucPixelDatas = .block b
  width : s.iLcdWidth.toInt = w
  height : s.iLcdHeigt.toInt = h
  depth : s.iLcdBpp.toInt = 8 * p

/-- The middle of the screen in natural numbers, and `main`'s place for it. -/
theorem Main.Formatted.centred_eq {s : Main} {W H p w h : Nat} (hs : s.Formatted W H p)
    {pic : PixelDatas Data} (hw : pic.iWidth.toInt = w) (hh : pic.iHeight.toInt = h)
    (hwW : w ≤ W) (hhH : h ≤ H) :
    s.centred pic = ⟨(W - w) / 2, (H - h) / 2, w, h⟩ ∧
    ((s.iLcdWidth - pic.iWidth) / 2).toInt = ((W - w) / 2 : Nat) ∧
    ((s.iLcdHeigt - pic.iHeight) / 2).toInt = ((H - h) / 2 : Nat) := by
  refine ⟨?_, ?_, ?_⟩
  · unfold Main.centred
    rw [hs.width, hs.height, hw, hh]
    rfl
  · rw [toInt_half_sub (by omega) (by rw [hw, hs.width]; omega), hw, hs.width]
    omega
  · rw [toInt_half_sub (by omega) (by rw [hh, hs.height]; omega), hh, hs.height]
    omega

/-- **With a format the frame appears.**  A pass over a frame that fits the screen
shows it. -/
theorem Main.Formatted.shows {s : Main} {i : Pass} {W H p w h : Nat} (hs : s.Formatted W H p)
    (hframe : i.frame.Convertible s.ptVideoConvert w h) (hwW : w ≤ W) (hhH : h ≤ H)
    (f : FromYuv) (scale : Scale) :
    (s.pass f scale i).1 = none ∧ s.Shows f i.frame (s.pass f scale i).2 := by
  have hdiffer : s.iPixelFormatOfVideo ≠ s.iPixelFormatOfDisp := hs.video ▸ hs.differ
  have hsmall : w * p * h < 2 ^ 28 :=
    (Nat.mul_le_mul (Nat.mul_le_mul_right p hwW) hhH).trans_lt hs.frameBuf.small
  obtain ⟨hret, hdense, hpixels⟩ := convert_formatted hs.uncompressed
    (by rw [hs.format]; exact hs.differ) (by rw [hs.format]; exact hs.display) hframe hs.fresh
    hsmall f
  have hwidth : (s.converted f i).tConvertBuf.tPixelDatas.iWidth ≤ (s.converted f i).iLcdWidth := by
    rw [Int32.le_iff_toInt_le]
    exact (hdense.width.trans_le (by omega)).trans_eq hs.width.symm
  have hheight : (s.converted f i).tConvertBuf.tPixelDatas.iHeight ≤
      (s.converted f i).iLcdHeigt := by
    rw [Int32.le_iff_toInt_le]
    exact (hdense.height.trans_le (by omega)).trans_eq hs.height.symm
  have hpass : s.pass f scale i =
      (none, (s.converted f i).merged (s.converted f i).tConvertBuf.tPixelDatas) := by
    simp only [Main.pass, if_pos hdiffer, hret, ne_eq, not_true_eq_false, if_false]
    rw [Main.shown_of_fits hwidth hheight]
  obtain ⟨b, hb⟩ := hs.memory
  obtain ⟨hrect, -, -⟩ := hs.centred_eq hframe.width hframe.height hwW hhH
  obtain ⟨-, hleft, htop⟩ := hs.centred_eq hdense.width hdense.height hwW hhH
  obtain ⟨bytes, hmerge, hover⟩ := picMerge_overlays (r := ⟨(W - w) / 2, (H - h) / 2, w, h⟩)
    hdense hs.frameBuf hb hleft htop (by simp only; omega) (by simp only; omega)
  refine ⟨by rw [hpass], ?_⟩
  have hscreen : (s.pass f scale i).2.screen = bytes := by
    rw [hpass]
    simp only [Main.merged, Main.converted, Main.screen]
    rw [hmerge]
    rfl
  have hold : s.screen = b.bytes := by
    unfold Main.screen
    rw [hb]
    rfl
  have hstride : s.stride = W * p := by
    unfold Main.stride
    rw [hs.frameBuf.line]
    rfl
  have hbytes : s.pixelBytes = p := by
    unfold Main.pixelBytes
    rw [hs.depth]
    omega
  unfold Main.Shows
  rw [hrect, hstride, hbytes, hscreen, hold]
  apply hover.congr
  intro x hx y hy
  have hplace : y * (w * p) + x * p = (y * w + x) * p := by ring
  have hlt : y * w + x < w * h := by
    have := Nat.mul_le_mul_left w (show y + 1 ≤ h from hy)
    have hexp : w * (y + 1) = y * w + w := by ring
    simp only at hx
    omega
  have hw : i.frame.buf.tPixelDatas.iWidth.toInt.toNat = w := by
    rw [hframe.width]
    rfl
  unfold pixel Main.picture
  rw [hw, ← hs.format, ← hpixels _ hlt, ← hplace]

end Video2lcd
