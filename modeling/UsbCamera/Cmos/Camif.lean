import UsbCamera.Base.Run

/-!
# The camera interface of the `cmos_ov7740` driver

`CMOS/5_th/cmos_ov7740_drv.c` drives the camera interface of an S3C2440, which
takes the 640 by 480 picture of the sensor, scales it and writes it to memory.
`S_FMT` stores what size and pixel format the application wants, `STREAMON`
computes the settings of the scaler from that and starts the capture, `STREAMOFF`
stops it.  What the three say to the hardware are register writes, some of them
assignments and some of them `|=` and `&=` on what the register already holds.

A register, an `unsigned long` and an `unsigned int` are all 32 bits wide here,
and their arithmetic wraps.  The state has the driver's statics and the
registers that the three calls write.  Nothing else of the driver writes those,
apart from the resets when the device is probed, before the first call.
-/

namespace Cmos

open FaultRun

def EINVAL : Int := 22

/-- `v4l2_fourcc` codes. -/
def V4L2_PIX_FMT_RGB565 : BitVec 32 := 0x50424752#32

def V4L2_PIX_FMT_RGB24 : BitVec 32 := 0x33424752#32

/-- The size of the sensor's picture. -/
def CAM_SRC_HSIZE : BitVec 32 := 640#32

def CAM_SRC_VSIZE : BitVec 32 := 480#32

def CAM_ORDER_CbYCrY : BitVec 32 := 2#32

/-- What the window cuts off at each side. -/
def WinHorOfst : BitVec 32 := 0#32

def WinVerOfst : BitVec 32 := 0#32

/-- What stops the kernel in the middle of a driver function. -/
inductive Fault
  | divideByZero
deriving DecidableEq, Repr

/-- `enum v4l2_buf_type`, as far as the driver looks at it. -/
inductive BufType
  | videoCapture
  | other
deriving DecidableEq, Repr

/-- `struct v4l2_format` with the fields of `fmt.pix` that the driver reads or
writes. -/
structure V4l2Format where
  type : BufType
  width : BitVec 32
  height : BitVec 32
  pixelformat : BitVec 32
  bytesperline : BitVec 32 := 0#32
  sizeimage : BitVec 32 := 0#32
deriving DecidableEq, Repr

/-- `struct cmos_ov7740_scaler`. -/
structure Scaler where
  preHorRatio : BitVec 32 := 0#32
  preVerRatio : BitVec 32 := 0#32
  hShift : BitVec 32 := 0#32
  vShift : BitVec 32 := 0#32
  preDstWidth : BitVec 32 := 0#32
  preDstHeight : BitVec 32 := 0#32
  mainHorRatio : BitVec 32 := 0#32
  mainVerRatio : BitVec 32 := 0#32
  shFactor : BitVec 32 := 0#32
  scaleUpDown : BitVec 32 := 0#32
deriving DecidableEq, Repr

/-- The statics of the driver, zero when it is loaded, and the registers of the
camera interface. -/
structure Camif where
  srcWidth : BitVec 32 := 0#32
  srcHeight : BitVec 32 := 0#32
  targetHsizePr : BitVec 32 := 0#32
  targetVsizePr : BitVec 32 := 0#32
  bufSize : BitVec 32 := 0#32
  bytesperline : BitVec 32 := 0#32
  sc : Scaler := {}
  cisrcfmt : BitVec 32 := 0#32
  ciwdofst : BitVec 32 := 0#32
  cigctrl : BitVec 32 := 0#32
  ciprtrgfmt : BitVec 32 := 0#32
  ciprctrl : BitVec 32 := 0#32
  ciprscpreratio : BitVec 32 := 0#32
  ciprscpredst : BitVec 32 := 0#32
  ciprscctrl : BitVec 32 := 0#32
  ciprtarea : BitVec 32 := 0#32
  ciimgcpt : BitVec 32 := 0#32
deriving DecidableEq, Repr

/-! ## Formats -/

/-- `cmos_ov7740_vidioc_try_fmt_vid_cap`. -/
def vidiocTryFmtVidCap (f : V4l2Format) : Int :=
  if f.type ≠ .videoCapture then -EINVAL
  else if f.pixelformat ≠ V4L2_PIX_FMT_RGB565 ∧ f.pixelformat ≠ V4L2_PIX_FMT_RGB24 then -EINVAL
  else 0

/-- What `S_FMT` stores in both of its branches, which differ in the number of
bits of a pixel. -/
def storeLine (bits : BitVec 32) (f : V4l2Format) (s : Camif) : V4l2Format × Camif :=
  let bytesperline := (f.width * bits) >>> 3
  let sizeimage := f.height * bytesperline
  ({ f with bytesperline := bytesperline, sizeimage := sizeimage },
    { s with bufSize := sizeimage, bytesperline := bytesperline })

/-- `cmos_ov7740_vidioc_s_fmt_vid_cap`: the return value, the format handed back
and the next state. -/
def vidiocSFmtVidCap (s : Camif) (f : V4l2Format) : Int × V4l2Format × Camif :=
  let ret := vidiocTryFmtVidCap f
  if ret < 0 then (ret, f, s)
  else
    let s := { s with targetHsizePr := f.width, targetVsizePr := f.height }
    let (f, s) :=
      if f.pixelformat = V4L2_PIX_FMT_RGB565 then
        storeLine 16#32 f { s with ciprscctrl := s.ciprscctrl &&& ~~~(1#32 <<< 30) }
      else if f.pixelformat = V4L2_PIX_FMT_RGB24 then
        storeLine 32#32 f { s with ciprscctrl := s.ciprscctrl ||| 1#32 <<< 30 }
      else (f, s)
    (0, f, { s with
      ciprtrgfmt := s.targetHsizePr <<< 16 ||| 0#32 <<< 14 ||| s.targetVsizePr <<< 0 })

/-! ## The settings of a capture -/

/-- `CalculateBurstSize`: the main and the remaining burst for a line of `hSize`
bytes, which is counted in words. -/
def calculateBurstSize (hSize : BitVec 32) : BitVec 32 × BitVec 32 :=
  let tmp := (hSize / 4#32) % 16#32
  if tmp = 0#32 then (16#32, 16#32)
  else if tmp = 4#32 then (16#32, 4#32)
  else if tmp = 8#32 then (16#32, 8#32)
  else
    let tmp := (hSize / 4#32) % 8#32
    if tmp = 0#32 then (8#32, 8#32)
    else if tmp = 4#32 then (8#32, 4#32)
    else
      let tmp := (hSize / 4#32) % 4#32
      (4#32, if tmp ≠ 0#32 then tmp else 4#32)

/-- `camif_get_scaler_factor`: what `*ratio` and `*shift` hold afterwards.  The
first branch returns without storing anything, so the old values are
arguments. -/
def camifGetScalerFactor (src tar ratio shift : BitVec 32) : BitVec 32 × BitVec 32 :=
  if src ≥ 64#32 * tar then (ratio, shift)
  else if src ≥ 32#32 * tar then (32#32, 5#32)
  else if src ≥ 16#32 * tar then (16#32, 4#32)
  else if src ≥ 8#32 * tar then (8#32, 3#32)
  else if src ≥ 4#32 * tar then (4#32, 2#32)
  else if src ≥ 2#32 * tar then (2#32, 1#32)
  else (1#32, 0#32)

/-- The division of two `unsigned int`s. -/
def divide (x y : BitVec 32) : Except Fault (BitVec 32) :=
  if y = 0#32 then .error .divideByZero else .ok (x / y)

/-- `cmos_ov7740_calculate_scaler_info`.  The sizes that it reads from statics are
arguments, and so is the record that it overwrites. -/
def calculateScalerInfo (sx sy tx ty : BitVec 32) (sc : Scaler) : Except Fault Scaler := do
  let (preHorRatio, hShift) := camifGetScalerFactor sx tx sc.preHorRatio sc.hShift
  let (preVerRatio, vShift) := camifGetScalerFactor sy ty sc.preVerRatio sc.vShift
  let preDstWidth ← divide sx preHorRatio
  let preDstHeight ← divide sy preVerRatio
  let mainHorRatio ← divide (sx <<< 8) (tx <<< hShift.toNat)
  let mainVerRatio ← divide (sy <<< 8) (ty <<< vShift.toNat)
  return {
    preHorRatio, preVerRatio, hShift, vShift, preDstWidth, preDstHeight, mainHorRatio,
    mainVerRatio
    shFactor := 10#32 - (hShift + vShift)
    scaleUpDown := if tx ≥ sx then 1#32 else 0#32 }

/-! ## Starting and stopping -/

/-- What `STREAMON` sets before it computes the settings of the scaler: the
source and its window, and the bursts of the transfer to memory. -/
def prepareSource (s : Camif) : Camif :=
  let bursts := calculateBurstSize s.bytesperline
  { s with
    cisrcfmt := s.cisrcfmt |||
      (CAM_SRC_HSIZE <<< 16 ||| CAM_ORDER_CbYCrY <<< 14 ||| CAM_SRC_VSIZE <<< 0)
    ciwdofst := s.ciwdofst ||| (1#32 <<< 30 ||| 0xf#32 <<< 12) |||
      (1#32 <<< 31 ||| WinHorOfst <<< 16 ||| WinVerOfst <<< 0)
    srcWidth := CAM_SRC_HSIZE - 2#32 * WinHorOfst
    srcHeight := CAM_SRC_VSIZE - 2#32 * WinVerOfst
    cigctrl := s.cigctrl ||| 1#32 <<< 29
    ciprctrl := bursts.1 <<< 19 ||| bursts.2 <<< 14 }

/-- What `STREAMON` sets with the computed settings. -/
def startScaler (s : Camif) (sc : Scaler) : Camif :=
  { s with
    sc := sc
    ciprscpreratio := sc.shFactor <<< 28 ||| sc.preHorRatio <<< 16 ||| sc.preVerRatio <<< 0
    ciprscpredst := sc.preDstWidth <<< 16 ||| sc.preDstHeight <<< 0
    ciprscctrl := s.ciprscctrl |||
      (1#32 <<< 31 ||| sc.scaleUpDown <<< 28 ||| sc.mainHorRatio <<< 16 |||
        sc.mainVerRatio <<< 0) |||
      -- the start bit, in a second write
      1#32 <<< 15
    ciprtarea := s.targetHsizePr * s.targetVsizePr
    ciimgcpt := 1#32 <<< 31 ||| 1#32 <<< 29 }

section Fields

variable (s : Camif) (sc : Scaler)

/-- The window has no offsets, so the source is the whole picture of the sensor. -/
@[simp] theorem prepareSource_srcWidth : (prepareSource s).srcWidth = 640#32 :=
  BitVec.sub_zero _

@[simp] theorem prepareSource_srcHeight : (prepareSource s).srcHeight = 480#32 :=
  BitVec.sub_zero _

/-- What `S_FMT` has stored is still there when the scaler is set up. -/
@[simp] theorem prepareSource_targetHsizePr :
    (prepareSource s).targetHsizePr = s.targetHsizePr := by
  cases s
  rfl

@[simp] theorem prepareSource_targetVsizePr :
    (prepareSource s).targetVsizePr = s.targetVsizePr := by
  cases s
  rfl

@[simp] theorem prepareSource_sc : (prepareSource s).sc = s.sc := by
  cases s
  rfl

@[simp] theorem prepareSource_ciprscctrl : (prepareSource s).ciprscctrl = s.ciprscctrl := by
  cases s
  rfl

@[simp] theorem startScaler_targetHsizePr :
    (startScaler s sc).targetHsizePr = s.targetHsizePr := by
  cases s
  rfl

@[simp] theorem startScaler_targetVsizePr :
    (startScaler s sc).targetVsizePr = s.targetVsizePr := by
  cases s
  rfl

end Fields

/-- `cmos_ov7740_vidioc_streamon`. -/
def vidiocStreamon (s : Camif) : Except Fault (Int × Camif) :=
  let s := prepareSource s
  (calculateScalerInfo s.srcWidth s.srcHeight s.targetHsizePr s.targetVsizePr s.sc).map
    fun sc => (0, startScaler s sc)

/-- The settings are computed from the size of the sensor and the stored size. -/
theorem vidiocStreamon_eq (s : Camif) : vidiocStreamon s =
    (calculateScalerInfo 640#32 480#32 s.targetHsizePr s.targetVsizePr s.sc).map
      fun sc => (0, startScaler (prepareSource s) sc) := by
  unfold vidiocStreamon
  simp only [prepareSource_srcWidth, prepareSource_srcHeight, prepareSource_targetHsizePr,
    prepareSource_targetVsizePr, prepareSource_sc]

/-- `cmos_ov7740_vidioc_streamoff`. -/
def vidiocStreamoff (s : Camif) : Int × Camif :=
  (0, { s with
    ciprscctrl := s.ciprscctrl &&& ~~~(1#32 <<< 15)
    ciimgcpt := s.ciimgcpt &&& ~~~(1#32 <<< 31 ||| 1#32 <<< 29) })

/-! ## The machine -/

inductive Call
  | sFmt (f : V4l2Format)
  | streamon
  | streamoff
deriving DecidableEq, Repr

/-- What a call hands back to the application. -/
inductive Reply
  | ret (ret : Int)
  | format (ret : Int) (f : V4l2Format)
deriving DecidableEq, Repr

/-- One call of the application. -/
def step (s : Camif) : Call → Except Fault (Reply × Camif)
  | .sFmt f =>
      let (ret, f, t) := vidiocSFmtVidCap s f
      .ok (.format ret f, t)
  | .streamon => (vidiocStreamon s).map fun (ret, t) => (.ret ret, t)
  | .streamoff =>
      let (ret, t) := vidiocStreamoff s
      .ok (.ret ret, t)

/-- The calls made so far, with the states they left. -/
abbrev Log := List (Entry Call Reply Camif)

end Cmos
