import UsbCamera.Base.Run

/-!
# The virtual camera

`myvivi` has no hardware.  A timer fires thirty times a second, takes the first
buffer of a local list, fills it with `0xff` and wakes whoever waits for it.  The
buffers themselves belong to the kernel's videobuf queue, to which the driver
lends four callbacks.

Everything the driver owns is a single global: the format, the videobuf queue, the
local list and the timer.  Each `open` initialises the queue and starts the timer,
each `close` stops both.  The model keeps these globals, and under them a heap of
`videobuf_buffer` objects, because a re-initialised queue forgets its buffers while
the local list still links to them.

A timer tick is one step: the handler runs to its end before a process goes on, as
it does on the one processor of the board.
-/

namespace Myvivi

def EAGAIN : Int := 11
def ENOMEM : Int := 12
def EBUSY : Int := 16
def EINVAL : Int := 22

/-- `VIDEO_MAX_FRAME`: the entries of a queue's buffer table. -/
def VIDEO_MAX_FRAME : Nat := 32

/-- The pixel format code `V4L2_PIX_FMT_YUYV`. -/
def V4L2_PIX_FMT_YUYV : BitVec 32 := 0x56595559#32

/-- The values of `enum v4l2_field` that the driver tells apart. -/
inductive Field where
  | any
  | interlaced
  | other
deriving DecidableEq, Repr

/-- `struct v4l2_pix_format`.  The static `myvivi_format` starts out zeroed. -/
structure PixFormat where
  width : BitVec 32 := 0#32
  height : BitVec 32 := 0#32
  pixelformat : BitVec 32 := 0#32
  field : Field := .any
  bytesperline : BitVec 32 := 0#32
  sizeimage : BitVec 32 := 0#32
deriving DecidableEq, Repr

/-- `PAGE_ALIGN`. -/
def pageAlign (x : BitVec 32) : BitVec 32 := (x + 4095#32) &&& ~~~4095#32

/-- `clamp_align`: round to a multiple of `2 ^ align` and keep within the bounds. -/
def clampAlign (x min max : BitVec 32) (align : Nat) : BitVec 32 :=
  let mask := ~~~((1#32 <<< align) - 1#32)
  let y := if align = 0 then x else (x + (1#32 <<< (align - 1))) &&& mask
  if y < min then (min + ~~~mask) &&& mask
  else if y > max then max &&& mask
  else y

/-- `myvivi_vidioc_try_fmt_vid_cap`.  The field it works out is not written back. -/
def tryFmt (f : PixFormat) : Except Int PixFormat :=
  if f.pixelformat ≠ V4L2_PIX_FMT_YUYV then .error (-EINVAL)
  else if f.field = .other then .error (-EINVAL)
  else
    let width := clampAlign f.width 48#32 1024#32 2
    let height := clampAlign f.height 32#32 768#32 0
    let bytesperline := (width * 16#32) >>> 3
    .ok { f with
          width := width
          height := height
          bytesperline := bytesperline
          sizeimage := height * bytesperline }

/-- `enum videobuf_state`. -/
inductive VideobufState where
  | needsInit
  | prepared
  | queued
  | active
  | done
  | error
  | idle
deriving DecidableEq, Repr

/-- `struct videobuf_buffer`.  `map` says that it is mapped, which sets `map` and
`baddr` together, and `mem` how many bytes lie at its `vaddr`.  `via` is not in the
source: it records the handle through which the buffer was last queued. -/
structure VideobufBuffer where
  i : Nat := 0
  bsize : BitVec 32 := 0#32
  boff : BitVec 32 := 0#32
  state : VideobufState := .needsInit
  size : BitVec 32 := 0#32
  bytesperline : BitVec 32 := 0#32
  width : BitVec 32 := 0#32
  height : BitVec 32 := 0#32
  field : Field := .any
  fieldCount : Nat := 0
  map : Bool := false
  mem : Option (BitVec 32) := none
  via : Nat := 0
deriving DecidableEq, Repr

/-- `struct videobuf_queue`: the buffer table and the list of the buffers queued,
both by the numbers of the objects they point to. -/
structure VideobufQueue where
  bufs : Nat → Option Nat := fun _ => none
  stream : List Nat := []
  streaming : Bool := false

/-- The driver.  `handles` are the files open on the device. -/
structure Driver where
  format : PixFormat := {}
  vidqueue : VideobufQueue := {}
  localQueue : List Nat := []
  timerPending : Bool := false
  heap : Nat → VideobufBuffer := fun _ => {}
  nextBuffer : Nat := 0
  handles : List Nat := []
  nextHandle : Nat := 0

/-- Change the object numbered `o`. -/
def Driver.update (d : Driver) (o : Nat) (f : VideobufBuffer → VideobufBuffer) : Driver :=
  { d with heap := Function.update d.heap o (f (d.heap o)) }

/-- The objects in the queue's buffer table, in the order of its entries. -/
def Driver.table (d : Driver) : List Nat :=
  (List.range VIDEO_MAX_FRAME).filterMap d.vidqueue.bufs

/-! ## The driver's callbacks -/

/-- `myvivi_buffer_setup`: the number of buffers and the size of one. -/
def bufferSetup (d : Driver) (count : Nat) : Nat × BitVec 32 :=
  (if count = 0 then 32 else count, d.format.sizeimage)

/-- `myvivi_buffer_prepare`. -/
def bufferPrepare (d : Driver) (o : Nat) (field : Field) : Driver :=
  d.update o fun vb =>
    { vb with
      size := d.format.sizeimage
      bytesperline := d.format.bytesperline
      width := d.format.width
      height := d.format.height
      field := field
      state := .prepared }

/-- `myvivi_buffer_queue`. -/
def bufferQueue (d : Driver) (o : Nat) : Driver :=
  let d := d.update o fun vb => { vb with state := .queued }
  { d with localQueue := d.localQueue ++ [o] }

/-- `myvivi_buffer_release`.  `videobuf_vmalloc_free` does nothing to a mapped
buffer. -/
def bufferRelease (d : Driver) (o : Nat) : Driver :=
  d.update o fun vb => { vb with state := .needsInit }

/-! ## The videobuf core -/

/-- `__videobuf_free`.  An object that is freed is no longer in the table. -/
def videobufFree (d : Driver) : Int × Driver :=
  if d.vidqueue.streaming then (-EBUSY, d)
  else if d.table.any fun o => (d.heap o).map then (-EBUSY, d)
  else (0, { d with vidqueue := { d.vidqueue with bufs := fun _ => none } })

/-- Entry `i` of the table gets a new object of `bsize` bytes. -/
def allocVb (bsize : BitVec 32) (d : Driver) (i : Nat) : Driver :=
  let o := d.nextBuffer
  { d with
    heap := Function.update d.heap o
      { i := i, bsize := bsize, boff := pageAlign bsize * BitVec.ofNat 32 i }
    nextBuffer := o + 1
    vidqueue := { d.vidqueue with bufs := Function.update d.vidqueue.bufs i (some o) } }

/-- `__videobuf_mmap_setup`, when memory suffices for `avail` objects. -/
def videobufMmapSetup (d : Driver) (bcount : Nat) (bsize : BitVec 32) (avail : Nat) :
    Int × Driver :=
  let (err, d) := videobufFree d
  if err ≠ 0 then (err, d)
  else
    let n := min bcount avail
    let d := (List.range n).foldl (allocVb bsize) d
    if n = 0 then (-ENOMEM, d) else (n, d)

/-- `videobuf_reqbufs` for mapped capture buffers. -/
def videobufReqbufs (d : Driver) (count avail : Nat) : Int × Driver :=
  if count < 1 then (-EINVAL, d)
  else if d.vidqueue.streaming then (-EBUSY, d)
  else if d.vidqueue.stream ≠ [] then (-EBUSY, d)
  else
    let (count, size) := bufferSetup d (min count VIDEO_MAX_FRAME)
    let (ret, d) := videobufMmapSetup d count size avail
    (if ret < 0 then ret else 0, d)

/-- `videobuf_mmap_mapper` with the length that `QUERYBUF` reports.  The first
buffer at the offset gets that many bytes, rounded up to pages; an empty mapping is
refused before the driver is asked. -/
def videobufMmapMapper (d : Driver) (offset : BitVec 32) : Int × Driver :=
  match d.table.find? fun o => (d.heap o).boff == offset with
  | none => (-EINVAL, d)
  | some o =>
      if (d.heap o).bsize = 0#32 then (-EINVAL, d)
      else (0, d.update o fun vb => { vb with map := true, mem := some (pageAlign vb.bsize) })

/-- `videobuf_qbuf` of a mapped capture buffer through handle `h`. -/
def videobufQbuf (d : Driver) (h index : Nat) : Int × Driver :=
  if index ≥ VIDEO_MAX_FRAME then (-EINVAL, d)
  else
    match d.vidqueue.bufs index with
    | none => (-EINVAL, d)
    | some o =>
        if (d.heap o).state ≠ .needsInit ∧ (d.heap o).state ≠ .idle then (-EINVAL, d)
        else if (d.heap o).map = false then (-EINVAL, d)
        else
          let d := bufferPrepare d o .interlaced
          let d := d.update o fun vb => { vb with via := h }
          let d := { d with vidqueue := { d.vidqueue with stream := d.vidqueue.stream ++ [o] } }
          (0, if d.vidqueue.streaming then bufferQueue d o else d)

/-- `videobuf_dqbuf`, at the moment in which it does not have to wait. -/
def videobufDqbuf (d : Driver) : Int × Driver :=
  if d.vidqueue.streaming = false then (-EINVAL, d)
  else
    match d.vidqueue.stream with
    | [] => (-EAGAIN, d)
    | o :: rest =>
        if (d.heap o).state = .queued ∨ (d.heap o).state = .active then (-EAGAIN, d)
        else if (d.heap o).state = .done ∨ (d.heap o).state = .error then
          let d := d.update o fun vb => { vb with state := .idle }
          (0, { d with vidqueue := { d.vidqueue with stream := rest } })
        else (-EINVAL, d)

/-- One round of the loop in `videobuf_streamon`. -/
def queuePrepared (d : Driver) (o : Nat) : Driver :=
  if (d.heap o).state = .prepared then bufferQueue d o else d

/-- `videobuf_streamon`. -/
def videobufStreamon (d : Driver) : Int × Driver :=
  if d.vidqueue.streaming then (0, d)
  else
    let d := { d with vidqueue := { d.vidqueue with streaming := true } }
    (0, d.vidqueue.stream.foldl queuePrepared d)

/-- One round of the first loop in `videobuf_queue_cancel`. -/
def cancelQueued (d : Driver) (o : Nat) : Driver :=
  if (d.heap o).state = .queued then
    let d := d.update o fun vb => { vb with state := .error }
    { d with localQueue := d.localQueue.erase o }
  else d

/-- `videobuf_queue_cancel`. -/
def videobufQueueCancel (d : Driver) : Driver :=
  let d := { d with vidqueue := { d.vidqueue with streaming := false } }
  let d := d.table.foldl cancelQueued d
  let d := d.table.foldl bufferRelease d
  { d with vidqueue := { d.vidqueue with stream := [] } }

/-- `videobuf_streamoff`; `videobuf_stop` does the same. -/
def videobufStreamoff (d : Driver) : Driver :=
  if d.vidqueue.streaming then videobufQueueCancel d else d

/-! ## The driver's entry points -/

/-- `myvivi_vidioc_s_fmt_vid_cap`. -/
def sFmt (d : Driver) (f : PixFormat) : Int × Driver :=
  match tryFmt f with
  | .error ret => (ret, d)
  | .ok f => (0, { d with format := f })

/-- `myvivi_open`: the queue is initialised and the timer added, whatever they were
before.  Here the function runs to its end also where the timer is pending, so that what it
does to the queue can be seen; `BUG_ON` in `add_timer` stops it there. -/
def myviviOpen (d : Driver) : Driver :=
  { d with
    vidqueue := {}
    timerPending := true
    handles := d.nextHandle :: d.handles
    nextHandle := d.nextHandle + 1 }

/-- `myvivi_close`. -/
def myviviClose (d : Driver) (h : Nat) : Driver :=
  let d := { d with timerPending := false, handles := d.handles.erase h }
  let d := videobufStreamoff d
  (videobufFree d).2

/-- The buffer that `myvivi_timer_function` fills: the first of the local list, if
someone waits for it. -/
def filledBuffer (d : Driver) (waiting : Bool) : Option Nat :=
  if waiting then d.localQueue.head? else none

/-- `myvivi_timer_function`, with whether `waitqueue_active` finds someone waiting.
The timer is armed again in each case. -/
def myviviTimerFunction (d : Driver) (waiting : Bool) : Driver :=
  match filledBuffer d waiting with
  | none => { d with timerPending := true }
  | some o =>
      let d := d.update o fun vb =>
        { vb with fieldCount := vb.fieldCount + 1, state := .done }
      { d with localQueue := d.localQueue.erase o, timerPending := true }

/-! ## The machine -/

/-- What can happen to the driver. -/
inductive Event where
  | open
  | close (h : Nat)
  | sFmt (h : Nat) (f : PixFormat)
  | reqbufs (h count avail : Nat)
  | mmap (h : Nat) (offset : BitVec 32)
  | qbuf (h index : Nat)
  | dqbuf (h : Nat)
  | streamon (h : Nat)
  | streamoff (h : Nat)
  | tick (waiting : Bool)
deriving DecidableEq, Repr

/-- An event that cannot happen: a call on a file that is not open, or a tick of a
timer that is not pending. -/
inductive Fault where
  | badHandle
  | timerIdle
deriving DecidableEq, Repr

/-- A call on an open file. -/
def Driver.via (d : Driver) (h : Nat) (reply : Int × Driver) : Except Fault (Int × Driver) :=
  if h ∈ d.handles then .ok reply else .error .badHandle

/-- One event.  The reply is what the call returns. -/
def step (d : Driver) : Event → Except Fault (Int × Driver)
  | .open => .ok (0, myviviOpen d)
  | .close h => d.via h (0, myviviClose d h)
  | .sFmt h f => d.via h (sFmt d f)
  | .reqbufs h count avail => d.via h (videobufReqbufs d count avail)
  | .mmap h offset => d.via h (videobufMmapMapper d offset)
  | .qbuf h index => d.via h (videobufQbuf d h index)
  | .dqbuf h => d.via h (videobufDqbuf d)
  | .streamon h => d.via h (videobufStreamon d)
  | .streamoff h => d.via h (0, videobufStreamoff d)
  | .tick waiting =>
      if d.timerPending then .ok (0, myviviTimerFunction d waiting) else .error .timerIdle

/-- The driver after `myvivi_init`. -/
def load : Driver := {}

/-- A sequence of executed events. -/
abbrev EventLog := List (FaultRun.Entry Event Int Driver)

/-- A call that is answered was made on an open file. -/
theorem Driver.via_eq_ok {d t : Driver} {h : Nat} {reply : Int × Driver} {r : Int}
    (hstep : d.via h reply = .ok (r, t)) : h ∈ d.handles ∧ reply.2 = t := by
  unfold Driver.via at hstep
  split at hstep
  · rename_i hmem
    exact ⟨hmem, congrArg Prod.snd (Except.ok.inj hstep)⟩
  · cases hstep

end Myvivi
