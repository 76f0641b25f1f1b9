import UsbCamera.Myuvc.Urbs

/-!
# The completion handler

`myuvc_video_complete` runs when a URB comes back.  It takes the first buffer of
`irqqueue` and walks through the isochronous packets: lost and malformed packets
and those with the error bit are skipped, a change of the frame id closes the
current buffer, and the payload of every other packet is appended to it, cut to
the room that is left.  A buffer that is full or whose frame has ended leaves
`irqqueue` and the next one is taken.

The repository holds two versions of the handler.  They differ in one line:
the one in `10_th` computes `dest` from the current buffer before it looks at
the packet, the one in `Test` does not.  Everything around the handler is that of
`10_th` here.

For the vendor `0x1B3B` the frame id is derived from the payload, and a payload
that starts with `D8 FF C4` gets a missing `FF` put in front of it, by way of a
scratch block that grows.
-/

namespace Myuvc

/-- Which of the two handlers of the repository: `myuvc_video_complete` of `10_th`, or that of
`Test`. -/
inductive Version
  | th10
  | test
deriving DecidableEq, Repr

/-- One entry of `iso_frame_desc` with the bytes that arrived for it.  `kmalloc`
is the allocator's answer should the handler ask for scratch memory while it
works on this packet. -/
structure Packet where
  status : Int
  data : List UInt8
  kmalloc : Bool
deriving DecidableEq, Repr

/-- A URB handed to the completion handler. -/
structure CompletedUrb where
  handle : Nat
  status : Int
  packets : List Packet
deriving DecidableEq, Repr

def UVC_STREAM_ERR : Nat := 1 <<< 6

def UVC_STREAM_EOF : Nat := 1 <<< 1

def UVC_STREAM_FID : Nat := 1 <<< 0

namespace Packet

/-- `src[k]`. -/
def src (p : Packet) (k : Nat) : Nat := (p.data.getD k 0).toNat

/-- `actual_length`. -/
def len (p : Packet) : Nat := p.data.length

/-- The header length is plausible. -/
def HeaderOk (p : Packet) : Prop := ¬ (p.len < 2 ∨ p.src 0 < 2 ∨ p.len < p.src 0)

/-- The error bit of the header. -/
def Err (p : Packet) : Prop := p.src 1 &&& UVC_STREAM_ERR ≠ 0

/-- The end-of-frame bit of the header. -/
def Eof (p : Packet) : Prop := p.src 1 &&& UVC_STREAM_EOF ≠ 0

/-- The frame-id bit of the header. -/
def fidBit (p : Packet) : Nat := p.src 1 &&& UVC_STREAM_FID

/-- The packet arrived, its header is plausible and its error bit clear. -/
def Valid (p : Packet) : Prop := 0 ≤ p.status ∧ p.HeaderOk ∧ ¬ p.Err

/-- The bytes behind the header. -/
def payload (p : Packet) : List UInt8 := p.data.drop (p.src 0)

instance (p : Packet) : Decidable p.HeaderOk := by unfold HeaderOk; infer_instance

instance (p : Packet) : Decidable p.Err := by unfold Err; infer_instance

instance (p : Packet) : Decidable p.Eof := by unfold Eof; infer_instance

instance (p : Packet) : Decidable p.Valid := by unfold Valid; infer_instance

end Packet

/-- The payload of an `ip2970` packet starts a picture. -/
def startsPicture (p : Packet) : Prop :=
  16 ≤ p.len ∧
    ((p.src 12 = 0xFF ∧ p.src 13 = 0xD8 ∧ p.src 14 = 0xFF) ∨
      (p.src 12 = 0xD8 ∧ p.src 13 = 0xFF ∧ p.src 14 = 0xC4))

instance (p : Packet) : Decidable (startsPicture p) := by unfold startsPicture; infer_instance

/-- The handler's `fid` for a packet. -/
def nextFid (d : Driver) (p : Packet) : Int :=
  if d.idVendor = 0x1B3B then
    if startsPicture p then
      -- `fid &= ~UVC_STREAM_FID` and `fid |= UVC_STREAM_FID`
      if d.lastFid ≠ 0 then d.fid - d.fid % 2 else d.fid - d.fid % 2 + 1
    else d.fid
  else p.fidBit

/-- The scratch block before it is used: allocated on first use, and once grown
by 500 when it is too small. -/
def scratchBlock (d : Driver) (nbytes : Nat) (kmalloc : Bool) : Except Fault Driver :=
  match d.memTemp with
  | none =>
      if kmalloc then .ok { d with memTemp := some d.nArrayTempSize } else .error .scratch
  | some _ =>
      if d.nArrayTempSize ≤ nbytes then
        if kmalloc then
          .ok { d with
            nArrayTempSize := d.nArrayTempSize + 500
            memTemp := some (d.nArrayTempSize + 500) }
        else .error .scratch
      else .ok d

/-- The repair for the vendor `0x1B3B`: `nbytes` bytes have just been stored at
`dest`. -/
def repair (d : Driver) (mem : FrameMem) (dest nbytes : Nat) (kmalloc : Bool) :
    Except Fault (Driver × FrameMem) :=
  match scratchBlock d nbytes kmalloc with
  | .error e => .error e
  | .ok d =>
      if mem.bytes dest = 0xD8 ∧ mem.bytes (dest + 1) = 0xFF ∧ mem.bytes (dest + 2) = 0xC4 then
        if d.memTemp.getD 0 < nbytes + 1 then .error .scratch
        else
          .ok (d, { mem with
            bytes := ByteStore.write mem.bytes dest
              (0xFF :: ByteStore.read mem.bytes dest nbytes) })
      else .ok (d, mem)

/-- The bytes a packet puts into buffer `b`: its payload, cut to the room. -/
def storedBytes (b : V4l2Buffer) (p : Packet) : List UInt8 :=
  p.payload.take (b.length - b.bytesused)

/-- Buffer `b` with the bytes of `p` accounted for. -/
def received (b : Buffer) (p : Packet) : Buffer :=
  { b with
    buf := { b.buf with bytesused := b.buf.bytesused + (storedBytes b.buf p).length } }

/-- Copy the payload of `p` behind what buffer `i` holds. -/
def storePayload (d : Driver) (i : Nat) (p : Packet) : Except Fault Driver :=
  let b := d.queue.buffer i
  -- `maxlen` is negative exactly then, and `memcpy` gets a negative count
  if b.buf.length < b.buf.bytesused then .error .copySize
  else
    match d.queue.mem with
    | none => .error .noFrameMemory
    | some mem =>
        let dest := b.buf.offset + b.buf.bytesused
        let stored := storedBytes b.buf p
        let nbytes := stored.length
        let mem := { mem with bytes := ByteStore.write mem.bytes dest stored }
        let q := { d.queue.setBuffer i (received b p) with mem := some mem }
        if d.idVendor = 0x1B3B then
          match repair { d with queue := q } mem dest nbytes p.kmalloc with
          | .error e => .error e
          | .ok (d, mem) => .ok { d with queue := { d.queue with mem := some mem } }
        else .ok { d with queue := q }

/-- Set the state of buffer `i`. -/
def setState (d : Driver) (i : Nat) (s : VideobufState) : Driver :=
  { d with queue := d.queue.setBuffer i { d.queue.buffer i with state := s } }

/-- Buffer `i` is finished: it becomes `DONE` and leaves `irqqueue`. -/
def finishBuffer (d : Driver) (i : Nat) : Driver :=
  let d := setState d i .done
  { d with queue := { d.queue with irqqueue := d.queue.irqqueue.del i } }

/-- After the payload of `p` was stored: is the frame complete?  `before` is the
buffer as it was before the packet. -/
def frameComplete (before : V4l2Buffer) (p : Packet) (bytesused : Nat) : Prop :=
  before.length - before.bytesused < p.len - p.src 0 ∨ (p.Eof ∧ bytesused ≠ 0)

instance (b : V4l2Buffer) (p : Packet) (n : Nat) : Decidable (frameComplete b p n) := by
  unfold frameComplete; infer_instance

/-- The rest of the loop body for a packet that passed the checks, with current
buffer `i` and `fid` already updated. -/
def fillBuffer (d : Driver) (i : Nat) (p : Packet) : Except Fault (Driver × BufPtr) :=
  if d.stateOf i ≠ .active ∧ d.fid = d.lastFid then .ok (d, .entry i)
  else
    let d := setState d i .active
    if d.fid ≠ d.lastFid ∧ d.bytesusedOf i ≠ 0 then
      let d := finishBuffer d i
      .ok (d, d.queue.irqqueue.current)
    else
      match storePayload { d with lastFid := d.fid } i p with
      | .error e => .error e
      | .ok d' =>
          if frameComplete (d.queue.buffer i).buf p (d'.bytesusedOf i) then
            let d' := finishBuffer d' i
            .ok (d', d'.queue.irqqueue.current)
          else .ok (d', .entry i)

/-- One iteration of the packet loop, with current buffer `buf`. -/
def packetBody (v : Version) (d : Driver) (buf : BufPtr) (p : Packet) :
    Except Fault (Driver × BufPtr) :=
  if p.status < 0 then .ok (d, buf)
  -- `dest = myuvc_queue.mem + buf->buf.m.offset + buf->buf.bytesused`
  else if v = .th10 ∧ buf = .null then .error .noBuffer
  else if v = .th10 ∧ buf = .wild then .error .wildLink
  else if ¬ p.HeaderOk then .ok (d, buf)
  else if p.Err then .ok (d, buf)
  else
    let d := { d with fid := nextFid d p }
    match buf with
    | .null => .ok ({ d with lastFid := d.fid }, .null)
    | .entry i => fillBuffer d i p
    | .wild => .error .wildLink

/-- The packet loop. -/
def packetLoop (v : Version) : Driver → BufPtr → List Packet → Except Fault (Driver × BufPtr)
  | d, buf, [] => .ok (d, buf)
  | d, buf, p :: rest =>
      match packetBody v d buf p with
      | .error e => .error e
      | .ok (d, buf) => packetLoop v d buf rest

/-- `myuvc_video_complete`: a URB with an error status is not looked at, any
other is worked through and submitted again; `answer` is what the host
controller says to that. -/
def videoComplete (v : Version) (d : Driver) (u : CompletedUrb) (answer : Int) :
    Except Fault Driver :=
  let d := { d with usb := d.usb.retire u.handle }
  if u.status ≠ 0 then .ok d
  else
    match packetLoop v d d.queue.irqqueue.current u.packets with
    | .error e => .error e
    | .ok (d, _) => .ok { d with usb := (d.usb.submitUrb u.handle u.packets.length answer).2 }

end Myuvc
