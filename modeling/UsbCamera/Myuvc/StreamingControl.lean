import Mathlib.Data.List.Nodup
import Mathlib.Tactic

/-!
# The streaming-control block of the `myuvc` driver

The driver negotiates a stream by sending and receiving one fixed-layout block,
`struct myuvc_streaming_control`, over the default pipe: a probe `SET_CUR`, a
probe `GET_CUR` and a commit `SET_CUR`.  The block is 34 bytes from UVC version
1.10 on and 26 bytes before.

What the USB core and the allocator answer is a parameter, `ControlTransfer`.
The driver only looks at the sign of the transfer's return value.
-/

namespace Myuvc

def ENOMEM : Int := 12

/-- `struct myuvc_streaming_control`. -/
@[ext] structure StreamingControl where
  bmHint : UInt16
  bFormatIndex : UInt8
  bFrameIndex : UInt8
  dwFrameInterval : UInt32
  wKeyFrameRate : UInt16
  wPFrameRate : UInt16
  wCompQuality : UInt16
  wCompWindowSize : UInt16
  wDelay : UInt16
  dwMaxVideoFrameSize : UInt32
  dwMaxPayloadTransferSize : UInt32
  dwClockFrequency : UInt32
  bmFramingInfo : UInt8
  bPreferedVersion : UInt8
  bMinVersion : UInt8
  bMaxVersion : UInt8
deriving DecidableEq, Repr

def StreamingControl.zero : StreamingControl :=
  ⟨0, 0, 0, 0, 0, 0, 0, 0, 0, 0, 0, 0, 0, 0, 0, 0⟩

/-- How one `usb_control_msg` went: whether the transfer buffer could be
allocated, the returned byte count or negative error, and what the buffer
holds afterwards. -/
structure ControlTransfer where
  buffer : Bool
  ret : Int
  data : Nat → UInt8

def frameIdx : Nat := 1

def uvcVersion : Nat := 0x0100

/-- The size of the block on the wire. -/
def controlSize (version : Nat) : Nat := if 0x0110 ≤ version then 34 else 26

/-- `cpu_to_le16` stored at a byte pointer. -/
def le16 (x : UInt16) : List UInt8 :=
  [UInt8.ofNat x.toNat, UInt8.ofNat (x.toNat / 0x100)]

/-- `put_unaligned_le32`. -/
def le32 (x : UInt32) : List UInt8 :=
  [UInt8.ofNat x.toNat, UInt8.ofNat (x.toNat / 0x100),
    UInt8.ofNat (x.toNat / 0x10000), UInt8.ofNat (x.toNat / 0x1000000)]

def getLe16 (data : Nat → UInt8) (k : Nat) : UInt16 :=
  UInt16.ofNat ((data k).toNat + (data (k + 1)).toNat * 0x100)

def getLe32 (data : Nat → UInt8) (k : Nat) : UInt32 :=
  UInt32.ofNat ((data k).toNat + (data (k + 1)).toNat * 0x100 +
    (data (k + 2)).toNat * 0x10000 + (data (k + 3)).toNat * 0x1000000)

/-- The bytes `myuvc_try_streaming_params` and `myuvc_set_streaming_params` put
into the transfer buffer. -/
def StreamingControl.encode (version : Nat) (c : StreamingControl) : List UInt8 :=
  le16 c.bmHint ++ [c.bFormatIndex, c.bFrameIndex] ++ le32 c.dwFrameInterval ++
    le16 c.wKeyFrameRate ++ le16 c.wPFrameRate ++ le16 c.wCompQuality ++
    le16 c.wCompWindowSize ++ le16 c.wDelay ++ le32 c.dwMaxVideoFrameSize ++
    le32 c.dwMaxPayloadTransferSize ++
    if controlSize version = 34 then
      le32 c.dwClockFrequency ++
        [c.bmFramingInfo, c.bPreferedVersion, c.bMinVersion, c.bMaxVersion]
    else []

/-- What `myuvc_get_streaming_params` stores into `ctrl` from a received
buffer.  In the short layout `dwClockFrequency` keeps its old value. -/
def StreamingControl.decode (version : Nat) (data : Nat → UInt8)
    (c : StreamingControl) : StreamingControl where
  bmHint := getLe16 data 0
  bFormatIndex := data 2
  bFrameIndex := data 3
  dwFrameInterval := getLe32 data 4
  wKeyFrameRate := getLe16 data 8
  wPFrameRate := getLe16 data 10
  wCompQuality := getLe16 data 12
  wCompWindowSize := getLe16 data 14
  wDelay := getLe16 data 16
  dwMaxVideoFrameSize := getLe32 data 18
  dwMaxPayloadTransferSize := getLe32 data 22
  dwClockFrequency :=
    if controlSize version = 34 then getLe32 data 26 else c.dwClockFrequency
  bmFramingInfo := if controlSize version = 34 then data 30 else 0
  bPreferedVersion := if controlSize version = 34 then data 31 else 0
  bMinVersion := if controlSize version = 34 then data 32 else 0
  bMaxVersion := if controlSize version = 34 then data 33 else 0

/-- The value a `goto done` path returns for a transfer. -/
def ControlTransfer.result (t : ControlTransfer) : Int := if t.ret < 0 then t.ret else 0

/-- `myuvc_get_streaming_params`: the return value and the block afterwards. -/
def getStreamingParams (version : Nat) (t : ControlTransfer) (c : StreamingControl) :
    Int × StreamingControl :=
  if t.buffer then
    (t.result, if t.ret < 0 then c else c.decode version t.data)
  else (-ENOMEM, c)

/-- The block `myuvc_try_streaming_params` fills in before it sends it. -/
def tryBlock : StreamingControl :=
  { StreamingControl.zero with
    bmHint := 1
    bFormatIndex := 1
    bFrameIndex := UInt8.ofNat (frameIdx + 1)
    dwFrameInterval := 333333 }

/-- `myuvc_try_streaming_params`: the return value, the block afterwards and the
bytes that went out. -/
def tryStreamingParams (version : Nat) (t : ControlTransfer) (_c : StreamingControl) :
    Int × StreamingControl × Option (List UInt8) :=
  if t.buffer then (t.result, tryBlock, some (tryBlock.encode version))
  else (-ENOMEM, tryBlock, none)

/-- `myuvc_set_streaming_params`: the return value and the bytes that went
out. -/
def setStreamingParams (version : Nat) (t : ControlTransfer) (c : StreamingControl) :
    Int × Option (List UInt8) :=
  if t.buffer then (t.result, some (c.encode version)) else (-ENOMEM, none)

/-- The three transfers of a negotiation. -/
structure Negotiation where
  tryParams : ControlTransfer
  getParams : ControlTransfer
  setParams : ControlTransfer

/-- `myuvc_params` after the three calls that `myuvc_vidioc_streamon` and
`myuvc_probe` make.  Neither caller looks at what they return. -/
def negotiate (version : Nat) (n : Negotiation) (c : StreamingControl) : StreamingControl :=
  (getStreamingParams version n.getParams
    (tryStreamingParams version n.tryParams c).2.1).2

end Myuvc
