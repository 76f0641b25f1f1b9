import UsbCamera.Myuvc.Types

/-!
# Formats, buffers and queues: the calls an application makes

The ioctl handlers of the `myuvc` driver that deal with formats and buffers,
together with `myuvc_poll` and the memory-map operations.  Each handler is a
function of the driver state that either faults or gives a reply and the next
state.

Memory allocation is the only thing here that the environment decides.  The
answers of `vmalloc_32` during one `VIDIOC_REQBUFS` are a function of the number
of buffers tried, so that every pattern of failures can occur; a request for
zero bytes is always refused.
-/

namespace Myuvc

/-- What a handler gives back to its caller. -/
inductive Reply
  | ret (r : Int)
  -- success, with the buffer or the format that was copied out
  | buffer (b : V4l2Buffer)
  | format (r : Int) (f : V4l2Format)
  | mask (m : Nat)
  -- the return value of `mmap` and the pages it inserted, in order
  | pages (r : Int) (ps : List Nat)
  | nothing
deriving DecidableEq, Repr

/-- `v4l2_fourcc('M', 'J', 'P', 'G')`. -/
def V4L2_PIX_FMT_MJPEG : Nat := 0x47504A4D

def dwMaxVideoFrameSize : Nat := 77312

def bBitsPerPixel : Nat := 0

/-- `frames`, as width and height. -/
def frames : List (Nat × Nat) := [(640, 480), (320, 240), (160, 120)]

def V4L2_BUF_FLAG_MAPPED : Nat := 1

def V4L2_BUF_FLAG_QUEUED : Nat := 2

def V4L2_BUF_FLAG_DONE : Nat := 4

def POLLIN : Nat := 0x0001

def POLLERR : Nat := 0x0008

def POLLRDNORM : Nat := 0x0040

/-- `PAGE_ALIGN` on a 32-bit value. -/
def pageAlign (x : Nat) : Nat := (x + (PAGE_SIZE - 1)) % 2 ^ 32 / PAGE_SIZE * PAGE_SIZE

/-- `myuvc_vidioc_try_fmt_vid_cap`: the return value and the format handed
back. -/
def vidiocTryFmtVidCap (f : V4l2Format) : Int × V4l2Format :=
  if f.type ≠ .videoCapture then (-EINVAL, f)
  else if f.pix.pixelformat ≠ V4L2_PIX_FMT_MJPEG then (-EINVAL, f)
  else
    let frame := frames.getD frameIdx (0, 0)
    (0, { f with pix := { f.pix with
            width := frame.1
            height := frame.2
            bytesperline := frame.1 * bBitsPerPixel / 8
            sizeimage := dwMaxVideoFrameSize
            field := .none
            colorspace := .srgb
            priv := 0 } })

/-- `myuvc_vidioc_s_fmt_vid_cap`. -/
def vidiocSFmtVidCap (d : Driver) (f : V4l2Format) : Reply × Driver :=
  let (ret, f') := vidiocTryFmtVidCap f
  if ret < 0 then (.format ret f', d) else (.format 0 f', { d with format := f' })

/-- `myuvc_free_buffers`: the block is freed and the whole record cleared, but
only when there is a block. -/
def freeBuffers (d : Driver) : Driver :=
  if d.queue.mem.isSome then { d with queue := Queue.zero } else d

/-- `vmalloc_32`, given what the allocator would answer to a request that is not
empty. -/
def vmalloc32 (answer : Option (Nat → UInt8)) (size : Nat) : Option FrameMem :=
  if size = 0 then none else answer.map fun bytes => ⟨size, bytes⟩

/-- Decrement the number of buffers until allocation succeeds. -/
def allocLoop (bufsize : Nat) (alloc : Nat → Option (Nat → UInt8)) :
    Nat → Option (Nat × FrameMem)
  | 0 => none
  | n + 1 =>
      match vmalloc32 (alloc (n + 1)) ((n + 1) * bufsize % 2 ^ 32) with
      | some mem => some (n + 1, mem)
      | none => allocLoop bufsize alloc n

/-- Buffer `i` as `myuvc_vidioc_reqbufs` sets it up. -/
def initBuffer (bufsize sizeimage i : Nat) : Buffer where
  buf :=
    { index := i
      type := .videoCapture
      bytesused := 0
      flags := 0
      field := .none
      sequence := 0
      memory := .mmap
      offset := i * bufsize
      length := sizeimage }
  state := .idle
  vmaUseCount := 0

/-- The record after a successful allocation of `n` buffers. -/
def initQueue (bufsize sizeimage n : Nat) (mem : FrameMem) : Queue :=
  { Queue.zero with
    mainqueue := some []
    irqqueue := some []
    buffer := fun i => if i < n then initBuffer bufsize sizeimage i else Buffer.zero
    mem := some mem
    count := n
    bufSize := bufsize }

/-- `myuvc_vidioc_reqbufs`.  `p->count` is assigned to an `int`, so a count from
`2^31` on is negative and the allocation loop does not run. -/
def vidiocReqbufs (d : Driver) (count : UInt32) (alloc : Nat → Option (Nat → UInt8)) :
    Except Fault (Reply × Driver) :=
  let bufsize := pageAlign d.format.pix.sizeimage
  let d := freeBuffers d
  if count = 0 then .ok (.ret 0, d)
  else
    match (if count.toNat < 2 ^ 31 then allocLoop bufsize alloc count.toNat else none) with
    | none => .ok (.ret (-ENOMEM), d)
    | some (n, mem) =>
        if BUFFERS < n then .error .bufferTable
        else
          .ok (.ret n, { d with queue := initQueue bufsize d.format.pix.sizeimage n mem })

/-- The state-dependent part of the flags `myuvc_vidioc_querybuf` reports. -/
def stateFlags : VideobufState → Nat
  | .error | .done => V4L2_BUF_FLAG_DONE
  | .queued | .active => V4L2_BUF_FLAG_QUEUED
  | _ => 0

/-- `myuvc_vidioc_querybuf`. -/
def vidiocQuerybuf (d : Driver) (index : Nat) : Reply :=
  if d.queue.count ≤ index then .ret (-EINVAL)
  else
    let b := d.queue.buffer index
    let mapped := if b.vmaUseCount ≠ 0 then V4L2_BUF_FLAG_MAPPED else 0
    .buffer { b.buf with flags := b.buf.flags ||| mapped ||| stateFlags b.state }

/-- `myuvc_vidioc_qbuf`. -/
def vidiocQbuf (d : Driver) (v4l2Buf : V4l2Buffer) : Except Fault (Reply × Driver) :=
  if v4l2Buf.type ≠ .videoCapture ∨ v4l2Buf.memory ≠ .mmap then .ok (.ret (-EINVAL), d)
  else if d.queue.count ≤ v4l2Buf.index then .ok (.ret (-EINVAL), d)
  else
    let i := v4l2Buf.index
    let b := d.queue.buffer i
    if b.state ≠ .idle then .ok (.ret (-EINVAL), d)
    else
      let b := { b with state := .queued, buf := { b.buf with bytesused := 0 } }
      match d.queue.mainqueue.addTail i, d.queue.irqqueue.addTail i with
      | .ok main, .ok irq =>
          .ok (.ret 0,
            { d with queue := { d.queue.setBuffer i b with mainqueue := main, irqqueue := irq } })
      | .error e, _ => .error e
      | _, .error e => .error e

/-- `myuvc_vidioc_dqbuf`. -/
def vidiocDqbuf (d : Driver) : Except Fault (Reply × Driver) :=
  if d.queue.mainqueue.listEmpty then .ok (.ret (-EINVAL), d)
  else
    match d.queue.mainqueue.firstEntry with
    | .entry i =>
        let b := d.queue.buffer i
        match b.state with
        | .error => .ok (.ret (- EIO), d)
        | .done =>
            .ok (.buffer b.buf,
              { d with queue := { d.queue.setBuffer i { b with state := .idle } with
                  mainqueue := d.queue.mainqueue.del i } })
        | _ => .ok (.ret (-EINVAL), d)
    | _ => .error .wildLink

/-- `myuvc_poll`. -/
def poll (d : Driver) : Except Fault Reply :=
  if d.queue.mainqueue.listEmpty then .ok (.mask POLLERR)
  else
    match d.queue.mainqueue.firstEntry with
    | .entry i =>
        match (d.queue.buffer i).state with
        | .done | .error => .ok (.mask (POLLIN ||| POLLRDNORM))
        | _ => .ok (.mask 0)
    | _ => .error .wildLink

/-- The page loop of `myuvc_mmap`: `left` pages from page `p` on, stopping at
the first failing `vm_insert_page`. -/
def insertPages (insert : Nat → Int) : (left p : Nat) → Int × List Nat
  | 0, _ => (0, [])
  | left + 1, p =>
      if insert p < 0 then (insert p, [])
      else ((insertPages insert left (p + 1)).1, p :: (insertPages insert left (p + 1)).2)

def addVmaUse (d : Driver) (i : Nat) (k : Int) : Driver :=
  let b := d.queue.buffer i
  { d with queue := d.queue.setBuffer i { b with vmaUseCount := b.vmaUseCount + k } }

/-- `myuvc_mmap`, given what `vm_insert_page` answers for each page of the
block. -/
def mmap (d : Driver) (pgoff size : Nat) (insert : Nat → Int) : Reply × Driver :=
  match (List.range d.queue.count).find?
      (fun i => (d.queue.buffer i).buf.offset / PAGE_SIZE == pgoff) with
  | none => (.pages (-EINVAL) [], d)
  | some i =>
      if size ≠ d.queue.bufSize then (.pages (-EINVAL) [], d)
      else
        let done := insertPages insert (size / PAGE_SIZE)
          ((d.queue.buffer i).buf.offset / PAGE_SIZE)
        if done.1 < 0 then (.pages done.1 done.2, d)
        else (.pages 0 done.2, addVmaUse d i 1)

end Myuvc
