import UsbCamera.Video2lcd.RequestBuffers

/-!
# The V4L2 device of the application

`struct VideoDevice`, the operations table `g_tV4l2VideoOpr`, and the functions
of `v4l2.c` that set a device up, take a frame from it, give the frame back and
close the device.

What the kernel answers to `V4l2InitDevice` is a record (`Answers`).  The
function makes each of its calls at most once, `VIDIOC_QUERYCAP` apart, whose
first result it throws away; so the records are all the ways a driver can behave
towards it.  The formats a driver enumerates are a list, as `VIDIOC_ENUM_FMT` is
defined to end.

`pucVideBuf` is an array of `NB_BUFFER` pointers, and `ptOPr` follows it.  An
index beyond the array reaches that field and then whatever lies behind the
structure.  So the pointers are modelled from `pucVideBuf[0]` on without an end,
and `ptOPr` is the one at position `NB_BUFFER`.
-/

namespace Video2lcd

/-- `v4l2_fourcc` codes, as the application keeps them in an `int`. -/
def V4L2_PIX_FMT_YUYV : Int32 := 0x56595559

def V4L2_PIX_FMT_MJPEG : Int32 := 0x47504A4D

def V4L2_PIX_FMT_RGB565 : Int32 := 0x50424752

def V4L2_PIX_FMT_RGB32 : Int32 := 0x34424752

def V4L2_CAP_VIDEO_CAPTURE : UInt32 := 0x00000001

def V4L2_CAP_READWRITE : UInt32 := 0x01000000

def V4L2_CAP_STREAMING : UInt32 := 0x04000000

/-- A pointer kept in a device, with where it comes from. -/
inductive Ptr
  | null
  | mapFailed
  | mapped (addr : Nat)
  | malloced (addr : Nat)
  -- `&g_tV4l2VideoOpr`
  | opr
  -- what the caller had there before
  | stale (addr : Nat)
deriving DecidableEq, Repr

/-- `struct VideoDevice`; the field `ptOPr` is behind the array. -/
structure VideoDevice where
  iFd : Int32
  iPixelFormat : Int32
  iWidth : Int32
  iHeight : Int32
  iVideoBufCnt : Int32
  iVideoBufMaxLen : Int32
  iVideoBufCurIndex : Int32
  pucVideBuf : Nat → Ptr

def VideoDevice.ptOPr (d : VideoDevice) : Ptr := d.pucVideBuf NB_BUFFER.toNat

def VideoDevice.setPucVideBuf (d : VideoDevice) (i : Nat) (p : Ptr) : VideoDevice :=
  { d with pucVideBuf := Function.update d.pucVideBuf i p }

/-- How frames are fetched. -/
inductive Method
  | streaming
  | readWrite
deriving DecidableEq, Repr

/-- The two entries of `g_tV4l2VideoOpr` that are ever assigned. -/
structure VideoOpr where
  getFrame : Method
  putFrame : Method
deriving DecidableEq, Repr

/-- The initialiser of `g_tV4l2VideoOpr`. -/
def g_tV4l2VideoOpr : VideoOpr := ⟨.streaming, .streaming⟩

def g_aiSupportedFormats : List Int32 :=
  [V4L2_PIX_FMT_YUYV, V4L2_PIX_FMT_MJPEG, V4L2_PIX_FMT_RGB565]

def isSupportThisFormat (iPixelFormat : Int32) : Bool :=
  g_aiSupportedFormats.any (· == iPixelFormat)

/-- What `V4l2InitDevice` is told. -/
structure Answers where
  fd : Int32
  -- the second `VIDIOC_QUERYCAP`: return value and capabilities
  querycap : Int32 × UInt32
  -- the formats that `VIDIOC_ENUM_FMT` gives, by index
  formats : List UInt32
  -- `GetDispResolution`
  lcdWidth : Int32
  lcdHeight : Int32
  -- pixel format and size asked for; return value and the size that was set
  sFmt : Int32 → Int32 → Int32 → Int32 × UInt32 × UInt32
  -- `count` asked for; return value and `count` written back
  reqbufs : UInt32 → Int32 × UInt32
  -- return value, `length` and `m.offset`
  querybuf : Nat → Int32 × UInt32 × UInt32
  -- the mapping of buffer `i`, from its length and offset
  mmap : Nat → UInt32 → UInt32 → Option Nat
  qbuf : Nat → Int32
  malloc : Int32 → Option Nat

/-- The `VIDIOC_ENUM_FMT` loop: the value of `iPixelFormat` after it. -/
def enumFormats : List UInt32 → Int32 → Int32
  | [], iPixelFormat => iPixelFormat
  | f :: rest, iPixelFormat =>
      if isSupportThisFormat f.toInt32 then f.toInt32 else enumFormats rest iPixelFormat

/-- The loop that maps the buffers, from buffer `i` on.  An error is the device
as the jump to `err_exit` leaves it. -/
def mapBuffers (a : Answers) : (left i : Nat) → VideoDevice → Except VideoDevice VideoDevice
  | 0, _, d => .ok d
  | left + 1, i, d =>
      let (iError, length, offset) := a.querybuf i
      if iError ≠ 0 then .error d
      else
        let d := { d with iVideoBufMaxLen := length.toInt32 }
        match a.mmap i length offset with
        | none => .error (d.setPucVideBuf i .mapFailed)
        | some addr => mapBuffers a left (i + 1) (d.setPucVideBuf i (.mapped addr))

/-- The loop that queues the buffers, from buffer `i` on: whether it ran to its
end, and the buffers that were queued. -/
def queueBuffers (a : Answers) : (left i : Nat) → Bool × List Nat
  | 0, _ => (true, [])
  | left + 1, i =>
      if a.qbuf i ≠ 0 then (false, [])
      else ((queueBuffers a left (i + 1)).1, i :: (queueBuffers a left (i + 1)).2)

/-- A successful `V4l2InitDevice`: the device, the operations table, and the
buffers queued. -/
structure Initialised where
  device : VideoDevice
  opr : VideoOpr
  queued : List Nat

/-- The part of `V4l2InitDevice` behind `VIDIOC_REQBUFS`. -/
def takeBuffers (a : Answers) (opr : VideoOpr) (d : VideoDevice) :
    Except VideoDevice Initialised :=
  let oprAt := NB_BUFFER.toNat
  if a.querycap.2 &&& V4L2_CAP_STREAMING ≠ 0 then
    let iVideoBufCnt := d.iVideoBufCnt.toInt.toNat
    match mapBuffers a iVideoBufCnt 0 d with
    | .error d => .error d
    | .ok d =>
        match queueBuffers a iVideoBufCnt 0 with
        | (false, _) => .error d
        | (true, queued) => .ok ⟨d.setPucVideBuf oprAt .opr, opr, queued⟩
  else if a.querycap.2 &&& V4L2_CAP_READWRITE ≠ 0 then
    let d := { d with iVideoBufCnt := 1, iVideoBufMaxLen := d.iWidth * d.iHeight * 4 }
    let buf := match a.malloc d.iVideoBufMaxLen with
      | none => .null
      | some addr => .malloced addr
    .ok ⟨(d.setPucVideBuf 0 buf).setPucVideBuf oprAt .opr, ⟨.readWrite, .readWrite⟩, []⟩
  else .ok ⟨d.setPucVideBuf oprAt .opr, opr, []⟩

/-- `V4l2InitDevice`.  An error is a return value of `-1`, with the device as it
was left. -/
def v4l2InitDevice (a : Answers) (opr : VideoOpr) (d : VideoDevice) :
    Except VideoDevice Initialised :=
  if a.fd < 0 then .error d
  else
    let d := { d with iFd := a.fd }
    if a.querycap.1 ≠ 0 then .error d
    else if a.querycap.2 &&& V4L2_CAP_VIDEO_CAPTURE = 0 then .error d
    else
      let d := { d with iPixelFormat := enumFormats a.formats d.iPixelFormat }
      if d.iPixelFormat = 0 then .error d
      else
        let (iError, width, height) := a.sFmt d.iPixelFormat a.lcdWidth a.lcdHeight
        if iError ≠ 0 then .error d
        else
          let d := { d with iWidth := width.toInt32, iHeight := height.toInt32 }
          let (iError, count) := a.reqbufs NB_BUFFER
          if iError ≠ 0 then .error d
          else takeBuffers a opr { d with iVideoBufCnt := count.toInt32 }

/-- The loop of `V4l2ExitDevice` from buffer `i` on: the pointers and lengths it
passes to `munmap`, and the pointers it leaves.  The length is the same for all. -/
def unmapBuffers (iVideoBufMaxLen : Int32) :
    (left i : Nat) → (Nat → Ptr) → List (Ptr × UInt32) × (Nat → Ptr)
  | 0, _, bufs => ([], bufs)
  | left + 1, i, bufs =>
      if bufs i = .null then unmapBuffers iVideoBufMaxLen left (i + 1) bufs
      else
        let (rest, bufs') :=
          unmapBuffers iVideoBufMaxLen left (i + 1) (Function.update bufs i .null)
        ((bufs i, iVideoBufMaxLen.toUInt32) :: rest, bufs')

/-- `V4l2ExitDevice`: what it passes to `munmap`, and the device it leaves. -/
def v4l2ExitDevice (d : VideoDevice) : List (Ptr × UInt32) × VideoDevice :=
  let (freed, bufs) :=
    unmapBuffers d.iVideoBufMaxLen d.iVideoBufCnt.toInt.toNat 0 d.pucVideBuf
  (freed, { d with pucVideBuf := bufs })

/-- `T_PixelDatas`, over what its data pointer leads to. -/
structure PixelDatas (δ : Type) where
  iWidth : Int32
  iHeight : Int32
  iBpp : Int32
  iLineBytes : Int32
  iTotalBytes : Int32
  aucPixelDatas : δ

/-- `T_VideoBuf`. -/
structure VideoBuf (δ : Type) where
  tPixelDatas : PixelDatas δ
  iPixelFormat : Int32

/-- The bits per pixel that both ways of fetching a frame note for a format. -/
def frameBpp (iPixelFormat : Int32) : Int32 :=
  if iPixelFormat = V4L2_PIX_FMT_YUYV then 16
  else if iPixelFormat = V4L2_PIX_FMT_MJPEG then 0
  else if iPixelFormat = V4L2_PIX_FMT_RGB565 then 16
  else 0

/-- How both ways of fetching describe the frame they found. -/
def describeFrame (d : VideoDevice) (iTotalBytes : Int32) (data : Ptr) : VideoBuf Ptr :=
  let iBpp := frameBpp d.iPixelFormat
  { iPixelFormat := d.iPixelFormat
    tPixelDatas :=
      { iWidth := d.iWidth
        iHeight := d.iHeight
        iBpp := iBpp
        iLineBytes := d.iWidth * iBpp / 8
        iTotalBytes := iTotalBytes
        aucPixelDatas := data } }

end Video2lcd
