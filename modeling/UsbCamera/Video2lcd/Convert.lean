import UsbCamera.Base.ByteStore
import UsbCamera.Video2lcd.Device

/-!
# The converters

The three converters of the application, each of which turns a frame of the
camera into an output `VideoBuf`: `Yuv2RgbConvert`, `Mjpeg2RgbConvert` and
`Rgb2RgbConvert`, with the registry that picks one by the two pixel formats.

The data pointer of a picture is `NULL`, a block on the heap, or a block that has
been freed (`Data`).  A block keeps the size it was allocated with beside its
contents; stores are laid down from the pointer on, whether they fit or not.

What comes from outside is a parameter of the call: the answers of `malloc`, and
for the JPEG converter what `libjpeg` makes of the frame.  The colour functions of
`color.c` are used through a record, so that nothing about the loops depends on
their tables.
-/

namespace Video2lcd

/-- A block on the heap: its size and its contents. -/
structure Block where
  size : Nat
  bytes : Nat → UInt8

/-- Where a data pointer leads. -/
inductive Data
  | null
  | block (b : Block)
  | freed

namespace Data

/-- The size of the block a pointer leads to. -/
def size : Data → Nat
  | .block b => b.size
  | _ => 0

/-- The contents behind a pointer. -/
def bytes : Data → Nat → UInt8
  | .block b => b.bytes
  | _ => fun _ => 0

/-- Store pieces of bytes through a pointer, each at its offset. -/
def store (p : Data) (pieces : List (Nat × List UInt8)) : Data :=
  match p with
  | .block b => .block { b with bytes := ByteStore.writeAll b.bytes pieces }
  | p => p

/-- Stores do not change how large a block is. -/
@[simp] theorem size_store (p : Data) (pieces : List (Nat × List UInt8)) :
    (p.store pieces).size = p.size := by
  cases p <;> rfl

end Data

/-- What `malloc` answers to a request: nothing, or a block with some
contents. -/
abbrev Malloc := Nat → Option (Nat → UInt8)

/-- `malloc` of an `int` number of bytes. -/
def mallocData (malloc : Malloc) (iTotalBytes : Int32) : Data :=
  match malloc iTotalBytes.toUInt32.toNat with
  | none => .null
  | some bytes => .block ⟨iTotalBytes.toUInt32.toNat, bytes⟩

namespace PixelDatas

/-- Size, depth and line and total bytes of an output picture, as all converters
compute them. -/
def sized (p : PixelDatas Data) (iWidth iHeight iBpp : Int32) : PixelDatas Data :=
  { p with
    iWidth := iWidth
    iHeight := iHeight
    iBpp := iBpp
    iLineBytes := iWidth * iBpp / 8
    iTotalBytes := iWidth * iBpp / 8 * iHeight }

/-- Allocate the data of a picture that has none. -/
def allocated (p : PixelDatas Data) (malloc : Malloc) : PixelDatas Data :=
  match p.aucPixelDatas with
  | .null => { p with aucPixelDatas := mallocData malloc p.iTotalBytes }
  | _ => p

def stored (p : PixelDatas Data) (pieces : List (Nat × List UInt8)) : PixelDatas Data :=
  { p with aucPixelDatas := p.aucPixelDatas.store pieces }

end PixelDatas

/-- How a call of a converter ended: its return value, the output, and what it
stored through the data pointer, where it came that far. -/
structure Converted where
  ret : Int32
  out : VideoBuf Data
  stores : Option (List (Nat × List UInt8))

/-- Give the output its size, allocate its data if there are none, and store. -/
def VideoBuf.fill (out : VideoBuf Data) (iWidth iHeight iBpp : Int32) (malloc : Malloc)
    (pieces : List (Nat × List UInt8)) : Converted :=
  let p := (out.tPixelDatas.sized iWidth iHeight iBpp).allocated malloc
  ⟨0, { out with tPixelDatas := p.stored pieces }, some pieces⟩

/-- `R_FROMYV`, `G_FROMYUV` and `B_FROMYU`. -/
structure FromYuv where
  r : UInt8 → UInt8 → UInt8
  g : UInt8 → UInt8 → UInt8 → UInt8
  b : UInt8 → UInt8 → UInt8

/-- `CLIP`. -/
def clip (color : Int) : UInt8 :=
  if 0xFF < color then 0xFF else if color < 0 then 0 else UInt8.ofNat color.toNat

/-- The functions of `color.c`, over the tables that `initLut` fills. -/
def colorC : FromYuv where
  r := fun y v => clip (y.toNat + Int.tdiv ((v.toNat - 128) * 1402) 1000)
  g := fun y u v =>
    clip (y.toNat + Int.tdiv ((128 - u.toNat) * 714) 1000 + Int.tdiv ((128 - v.toNat) * 344) 1000)
  b := fun y u => clip (y.toNat + Int.tdiv ((u.toNat - 128) * 1772) 1000)

/-- The bytes of a 16-bit pixel, from colours of eight bits. -/
def rgb565Bytes (r g b : UInt8) : List UInt8 :=
  let color := ((r >>> 3).toUInt32 <<< 11) ||| ((g >>> 2).toUInt32 <<< 5) ||| (b >>> 3).toUInt32
  [(color &&& 0xff).toUInt8, ((color >>> 8) &&& 0xff).toUInt8]

/-- The bytes of a 32-bit pixel, stored as one little-endian word. -/
def rgb32Bytes (r g b : UInt8) : List UInt8 :=
  Myuvc.le32 ((r.toUInt32 <<< 16) ||| (g.toUInt32 <<< 8) ||| b.toUInt32)

/-- A pixel in either format has the bytes of its depth. -/
@[simp] theorem length_rgb565Bytes (r g b : UInt8) : (rgb565Bytes r g b).length = 2 := rfl

@[simp] theorem length_rgb32Bytes (r g b : UInt8) : (rgb32Bytes r g b).length = 4 := rfl

/-- Pixel `i` of a YUYV picture, packed by `pack`.  Two pixels share four bytes
`Y U Y1 V`. -/
def yuyvPixel (f : FromYuv) (pack : UInt8 → UInt8 → UInt8 → List UInt8) (input : Nat → UInt8)
    (i : Nat) : List UInt8 :=
  let y := input (4 * (i / 2) + 2 * (i % 2))
  let u := input (4 * (i / 2) + 1)
  let v := input (4 * (i / 2) + 3)
  pack (f.r y v) (f.g y u v) (f.b y u)

/-- The loop of `Pyuv422torgb565` and `Pyuv422torgb32`, which differ in how they
pack a pixel: `size` rounds of two pixels. -/
def yuyvBytes (f : FromYuv) (pack : UInt8 → UInt8 → UInt8 → List UInt8) (input : Nat → UInt8)
    (size : Nat) : List UInt8 :=
  (List.range size).flatMap fun k =>
    yuyvPixel f pack input (2 * k) ++ yuyvPixel f pack input (2 * k + 1)

/-- The loop writes one pixel behind the other. -/
theorem yuyvBytes_eq (f : FromYuv) (pack : UInt8 → UInt8 → UInt8 → List UInt8)
    (input : Nat → UInt8) (size : Nat) :
    yuyvBytes f pack input size = (List.range (2 * size)).flatMap (yuyvPixel f pack input) := by
  unfold yuyvBytes
  induction size with
  | zero => rfl
  | succ n ih =>
      rw [List.range_succ, List.flatMap_append, ih, Nat.mul_succ, List.range_succ, List.range_succ]
      simp

/-- Two pixels for every four bytes of YUYV, each as long as `pack` makes it. -/
theorem length_yuyvBytes {f : FromYuv} {pack : UInt8 → UInt8 → UInt8 → List UInt8} {k : Nat}
    (hpack : ∀ r g b, (pack r g b).length = k) (input : Nat → UInt8) (size : Nat) :
    (yuyvBytes f pack input size).length = 2 * size * k := by
  rw [yuyvBytes_eq]
  simp [List.length_flatMap, yuyvPixel, hpack]

def pyuv422torgb565 (f : FromYuv) (input : Nat → UInt8) (width height : UInt32) : List UInt8 :=
  yuyvBytes f rgb565Bytes input (width * height / 2).toNat

def pyuv422torgb32 (f : FromYuv) (input : Nat → UInt8) (width height : UInt32) : List UInt8 :=
  yuyvBytes f rgb32Bytes input (width * height / 2).toNat

/-- `Yuv2RgbConvert`.  It returns 0 also where it does nothing. -/
def yuv2RgbConvert (f : FromYuv) (malloc : Malloc) (inBuf out : VideoBuf Data) : Converted :=
  let iWidth := inBuf.tPixelDatas.iWidth
  let iHeight := inBuf.tPixelDatas.iHeight
  let input := inBuf.tPixelDatas.aucPixelDatas.bytes
  if out.iPixelFormat = V4L2_PIX_FMT_RGB565 then
    out.fill iWidth iHeight 16 malloc
      [(0, pyuv422torgb565 f input iWidth.toUInt32 iHeight.toUInt32)]
  else if out.iPixelFormat = V4L2_PIX_FMT_RGB32 then
    out.fill iWidth iHeight 32 malloc
      [(0, pyuv422torgb32 f input iWidth.toUInt32 iHeight.toUInt32)]
  else
    ⟨0, { out with tPixelDatas := { out.tPixelDatas with iWidth := iWidth, iHeight := iHeight } },
      none⟩

/-- Pixel `i` of a 16-bit picture, as the 32-bit word `0x00RRGGBB`. -/
def rgb565Pixel (input : Nat → UInt8) (i : Nat) : List UInt8 :=
  let color := (Myuvc.getLe16 input (2 * i)).toUInt32
  let r := color >>> 11
  let g := (color >>> 5) &&& 0x3f
  let b := color &&& 0x1f
  Myuvc.le32 (((r <<< 3) <<< 16) ||| ((g <<< 2) <<< 8) ||| (b <<< 3))

/-- An RGB565 pixel becomes four bytes. -/
@[simp] theorem length_rgb565Pixel (input : Nat → UInt8) (i : Nat) :
    (rgb565Pixel input i).length = 4 := rfl

/-- `Rgb2RgbConvert`. -/
def rgb2RgbConvert (malloc : Malloc) (inBuf out : VideoBuf Data) : Converted :=
  let iWidth := inBuf.tPixelDatas.iWidth
  let iHeight := inBuf.tPixelDatas.iHeight
  let input := inBuf.tPixelDatas.aucPixelDatas.bytes
  if inBuf.iPixelFormat ≠ V4L2_PIX_FMT_RGB565 then ⟨-1, out, none⟩
  else if out.iPixelFormat = V4L2_PIX_FMT_RGB565 then
    let iTotalBytes := iWidth * 16 / 8 * iHeight
    out.fill iWidth iHeight 16 malloc [(0, ByteStore.read input 0 iTotalBytes.toUInt32.toNat)]
  else if out.iPixelFormat = V4L2_PIX_FMT_RGB32 then
    out.fill iWidth iHeight 32 malloc
      [(0, (List.range (iHeight.toInt.toNat * iWidth.toInt.toNat)).flatMap (rgb565Pixel input))]
  else ⟨-1, out, none⟩

/-- What `libjpeg` makes of a frame: an error before it knows the size of the
picture, or a picture with its size and number of colour components, and in the
second case possibly an error once some rows were delivered.  `row y` is the memory
from the line buffer on when row `y` has been read.  The row itself is the first
`width * components` bytes of it; nobody asks `libjpeg` for a colour space, so it is
`RR GG BB` bytes only where there are three components. -/
inductive Decoding
  | broken
  | picture (width height : UInt16) (components : Nat) (row : Nat → Nat → UInt8)
      (failsAt : Option Nat)

/-- `CovertOneLine`, which is always called for 24 bits per pixel: the bytes it
stores. -/
def covertOneLine (iWidth iDstBpp : Int32) (row : Nat → UInt8) : List UInt8 :=
  let width := iWidth.toInt.toNat
  if iDstBpp = 24 then ByteStore.read row 0 (width * 3)
  else if iDstBpp = 32 then
    (List.range width).flatMap fun i => rgb32Bytes (row (3 * i)) (row (3 * i + 1)) (row (3 * i + 2))
  else if iDstBpp = 16 then
    (List.range width).flatMap fun i =>
      rgb565Bytes (row (3 * i)) (row (3 * i + 1)) (row (3 * i + 2))
  else []

/-- The rows that `Mjpeg2RgbConvert` stores. -/
def jpegRows (iWidth iBpp iLineBytes : Int32) (row : Nat → Nat → UInt8) (rows : Nat) :
    List (Nat × List UInt8) :=
  (List.range rows).map fun y =>
    (y * iLineBytes.toInt.toNat, covertOneLine iWidth iBpp (row y))

/-- What the `setjmp` branch does with the output: the data are freed and the
pointer to them stays. -/
def VideoBuf.abandoned (out : VideoBuf Data) : VideoBuf Data :=
  { out with tPixelDatas := { out.tPixelDatas with
      aucPixelDatas := match out.tPixelDatas.aucPixelDatas with
        | .null => .null
        | _ => .freed } }

/-- `Mjpeg2RgbConvert`; `lineBuffer` tells whether the line buffer could be
allocated.  The depth of the output is left as it is. -/
def mjpeg2RgbConvert (malloc : Malloc) (lineBuffer : Bool) (jpeg : Decoding)
    (out : VideoBuf Data) : Converted :=
  match jpeg with
  | .broken => ⟨-1, out.abandoned, none⟩
  | .picture width height _ row failsAt =>
      if lineBuffer = false then ⟨-1, out, none⟩
      else
        let iWidth := width.toUInt32.toInt32
        let iHeight := height.toUInt32.toInt32
        let iBpp := out.tPixelDatas.iBpp
        let rows := (failsAt.getD height.toNat).min height.toNat
        let done := out.fill iWidth iHeight iBpp malloc
          (jpegRows iWidth iBpp (iWidth * iBpp / 8) row rows)
        if failsAt.isSome then ⟨-1, done.out.abandoned, done.stores⟩ else done

/-- The converters, in the order in which `VideoConvertInit` registers them. -/
inductive Converter
  | yuv2Rgb
  | mjpeg2Rgb
  | rgb2Rgb
deriving DecidableEq, Repr

def videoConverts : List Converter := [.yuv2Rgb, .mjpeg2Rgb, .rgb2Rgb]

/-- The input format of a converter. -/
def Converter.formatIn : Converter → Int32
  | .yuv2Rgb => V4L2_PIX_FMT_YUYV
  | .mjpeg2Rgb => V4L2_PIX_FMT_MJPEG
  | .rgb2Rgb => V4L2_PIX_FMT_RGB565

/-- `isSupportYuv2Rgb`, `isSupportMjpeg2Rgb` and `isSupportRgb2Rgb`, which differ
in the input format. -/
def Converter.isSupport (c : Converter) (iPixelFormatIn iPixelFormatOut : Int32) : Bool :=
  iPixelFormatIn == c.formatIn &&
    (iPixelFormatOut == V4L2_PIX_FMT_RGB565 || iPixelFormatOut == V4L2_PIX_FMT_RGB32)

def getVideoConvertForFormats (iPixelFormatIn iPixelFormatOut : Int32) : Option Converter :=
  videoConverts.find? fun c => c.isSupport iPixelFormatIn iPixelFormatOut

/-- What a call of a converter is given besides the output. -/
structure Frame where
  buf : VideoBuf Data
  malloc : Malloc
  lineBuffer : Bool
  jpeg : Decoding

/-- `Convert` of a registered converter. -/
def Converter.convert (f : FromYuv) (c : Converter) (frame : Frame) (out : VideoBuf Data) :
    Converted :=
  match c with
  | .yuv2Rgb => yuv2RgbConvert f frame.malloc frame.buf out
  | .mjpeg2Rgb => mjpeg2RgbConvert frame.malloc frame.lineBuffer frame.jpeg out
  | .rgb2Rgb => rgb2RgbConvert frame.malloc frame.buf out

end Video2lcd
