import UsbCamera.Base.ByteStore
import UsbCamera.Myuvc.StreamingControl

/-!
# Data model of the `myuvc` driver

The driver keeps one static record, `myuvc_queue`: a block of frame memory cut
into equal slots, a table of buffers that describe the slots, the URBs of the
stream, and two list heads.  `mainqueue` is what the application consumes,
`irqqueue` what the completion handler fills.  Around it stand the current
format, the negotiated parameters and the statics of the completion handler.

A `struct list_head` is modelled by what can be reached from it: `none` is a
head whose links are still zero, `some l` an initialised head with the entries
`l`.  The difference matters, since `list_empty` compares `head->next` with the
head itself and so answers "not empty" for a zeroed head.

Counters and sizes are natural numbers where the source's types cannot wrap on
the values that occur; the multiplications and roundings that can wrap carry
their modulus.
-/

namespace Myuvc

def EINVAL : Int := 22

def EIO : Int := 5

def PAGE_SIZE : Nat := 4096

/-- Entries of `myuvc_queue.buffer`. -/
def BUFFERS : Nat := 32

def MYUVC_URBS : Nat := 5

/-- What stops the kernel in the middle of a driver function. -/
inductive Fault
  -- a field of `buf` is used while `buf` is `NULL`
  | noBuffer
  -- a pointer computed from a zeroed list head is followed
  | wildLink
  -- `myuvc_queue.buffer` is written past its end
  | bufferTable
  -- the frame memory is accessed through a `NULL` base
  | noFrameMemory
  -- `memcpy` with a negative length
  | copySize
  -- the scratch block `mem_temp` is missing or too small for what is copied
  | scratch
  -- the input is impossible in this state: a call in the middle of the
  -- completion handler, or a packet outside it
  | outOfTurn
deriving DecidableEq, Repr

/-- `enum videobuf_state`. -/
inductive VideobufState
  | needsInit | prepared | queued | active | done | error | idle
deriving DecidableEq, Repr

/-- `enum v4l2_buf_type` as an application may pass it; the three enumerations
after it are kept the same way. -/
inductive BufType
  | videoCapture
  | other (code : Nat)
deriving DecidableEq, Repr

inductive Memory
  | mmap
  | other (code : Nat)
deriving DecidableEq, Repr

inductive Field
  | none
  | other (code : Nat)
deriving DecidableEq, Repr

inductive Colorspace
  | srgb
  | other (code : Nat)
deriving DecidableEq, Repr

/-- The fields of `struct v4l2_buffer` that the driver touches. -/
structure V4l2Buffer where
  index : Nat
  type : BufType
  bytesused : Nat
  flags : Nat
  field : Field
  sequence : Nat
  memory : Memory
  offset : Nat
  length : Nat
deriving DecidableEq, Repr

/-- `struct v4l2_pix_format`. -/
structure PixFormat where
  width : Nat
  height : Nat
  pixelformat : Nat
  field : Field
  bytesperline : Nat
  sizeimage : Nat
  colorspace : Colorspace
  priv : Nat
deriving DecidableEq, Repr

/-- `struct v4l2_format` for a single-plane format. -/
structure V4l2Format where
  type : BufType
  pix : PixFormat
deriving DecidableEq, Repr

/-- `struct myuvc_buffer`.  Its two list nodes are the positions of its index
in the two queues. -/
structure Buffer where
  buf : V4l2Buffer
  state : VideobufState
  vmaUseCount : Int
deriving DecidableEq, Repr

/-- The block `vmalloc_32` returned: its size and its contents. -/
structure FrameMem where
  size : Nat
  bytes : Nat → UInt8

/-- A `struct list_head`: zeroed, or initialised with its entries. -/
abbrev ListHead := Option (List Nat)

/-- A URB as the driver sets it up. -/
structure UrbObj where
  handle : Nat
  numberOfPackets : Nat
  transferBufferLength : Nat
  -- `iso_frame_desc[j].offset` and `.length`
  isoFrameDesc : List (Nat × Nat)
deriving DecidableEq, Repr

/-- `struct myuvc_queue`. -/
structure Queue where
  mem : Option FrameMem
  count : Nat
  bufSize : Nat
  buffer : Nat → Buffer
  urb : Nat → Option UrbObj
  urbBuffer : Nat → Option Nat
  urbSize : Nat
  mainqueue : ListHead
  irqqueue : ListHead

/-- The URBs and transfer buffers as the USB core sees them.  Handles are never
reused; the two logs record every free, for a URB with whether it was still in
flight. -/
structure UsbCore where
  nextHandle : Nat
  urbs : List Nat
  buffers : List Nat
  inFlight : List Nat
  urbFrees : List (Nat × Bool)
  bufferFrees : List Nat
deriving DecidableEq, Repr

/-- The driver's static state, with the identity of the device and the USB core
it talks to. -/
structure Driver where
  queue : Queue
  format : V4l2Format
  params : StreamingControl
  lastFid : Int
  -- the statics of the completion handler; `mem_temp` is the size of its block
  fid : Int
  memTemp : Option Nat
  nArrayTempSize : Nat
  idVendor : Nat
  usb : UsbCore

/-- A buffer whose bytes are all zero. -/
def Buffer.zero : Buffer where
  buf := ⟨0, .other 0, 0, 0, .other 0, 0, .other 0, 0, 0⟩
  state := .needsInit
  vmaUseCount := 0

/-- `memset(&myuvc_queue, 0, sizeof(myuvc_queue))`. -/
def Queue.zero : Queue where
  mem := none
  count := 0
  bufSize := 0
  buffer := fun _ => Buffer.zero
  urb := fun _ => none
  urbBuffer := fun _ => none
  urbSize := 0
  mainqueue := none
  irqqueue := none

def V4l2Format.zero : V4l2Format := ⟨.other 0, ⟨0, 0, 0, .other 0, 0, 0, .other 0, 0⟩⟩

/-- The state at module load, for a camera with the given vendor id. -/
def Driver.load (idVendor : Nat) : Driver where
  queue := Queue.zero
  format := V4l2Format.zero
  params := StreamingControl.zero
  lastFid := -1
  fid := 0
  memTemp := none
  nArrayTempSize := 1000
  idVendor := idVendor
  usb := ⟨0, [], [], [], [], []⟩

/-- A `struct myuvc_buffer *` read off a list: `NULL`, a buffer of the table, or
whatever `list_first_entry` makes of a link that leads to no buffer. -/
inductive BufPtr
  | null
  | entry (i : Nat)
  | wild
deriving DecidableEq, Repr

namespace ListHead

/-- The indices on a list. -/
def entries (h : ListHead) : List Nat := h.getD []

/-- `list_empty`: `head->next == head`, which a zeroed head does not satisfy. -/
def listEmpty : ListHead → Bool
  | none => false
  | some l => l.isEmpty

/-- `list_first_entry`. -/
def firstEntry : ListHead → BufPtr
  | some (i :: _) => .entry i
  | _ => .wild

/-- The selection of the current buffer: the first entry, or `NULL` from an
empty list. -/
def current (h : ListHead) : BufPtr := if listEmpty h then .null else firstEntry h

/-- `list_add_tail`; through a zeroed head it writes to `NULL->next`. -/
def addTail (h : ListHead) (i : Nat) : Except Fault ListHead :=
  match h with
  | none => .error .wildLink
  | some l => .ok (some (l ++ [i]))

/-- `list_del` of the node of buffer `i`. -/
def del (h : ListHead) (i : Nat) : ListHead := h.map fun l => l.erase i

@[simp] theorem entries_some (l : List Nat) : entries (some l) = l := rfl

@[simp] theorem entries_none : entries none = [] := rfl

/-- Deleting from an intact list takes the entry out. -/
@[simp] theorem del_some (l : List Nat) (i : Nat) : del (some l) i = some (l.erase i) := rfl

/-- Adding to an intact list appends. -/
@[simp] theorem addTail_some (l : List Nat) (i : Nat) :
    addTail (some l) i = .ok (some (l ++ [i])) := rfl

@[simp] theorem current_nil : current (some []) = .null := rfl

@[simp] theorem current_cons (i : Nat) (l : List Nat) : current (some (i :: l)) = .entry i := rfl

/-- The head of a list that was cleared leads nowhere. -/
@[simp] theorem current_none : current none = .wild := rfl

/-- A current buffer exists exactly when the list has an entry. -/
theorem current_eq_entry {h : ListHead} {i : Nat} :
    current h = .entry i ↔ ∃ rest, h = some (i :: rest) := by
  rcases h with _ | _ | ⟨j, l⟩ <;> simp

/-- There is no current buffer exactly when the list is empty. -/
theorem current_eq_null {h : ListHead} : current h = .null ↔ h = some [] := by
  rcases h with _ | _ | ⟨j, l⟩ <;> simp

end ListHead

/-- Replace buffer `i` of the table. -/
def Queue.setBuffer (q : Queue) (i : Nat) (b : Buffer) : Queue :=
  { q with buffer := Function.update q.buffer i b }

/-- The record that was stored is read back. -/
@[simp] theorem Queue.setBuffer_same (q : Queue) (i : Nat) (b : Buffer) :
    (q.setBuffer i b).buffer i = b := by simp [Queue.setBuffer]

/-- The other records are not touched. -/
theorem Queue.setBuffer_other (q : Queue) {i j : Nat} (b : Buffer) (h : j ≠ i) :
    (q.setBuffer i b).buffer j = q.buffer j := by simp [Queue.setBuffer, h]

/-- Storing a record leaves the frames and the lists alone. -/
@[simp] theorem Queue.setBuffer_mem (q : Queue) (i : Nat) (b : Buffer) :
    (q.setBuffer i b).mem = q.mem := rfl

@[simp] theorem Queue.setBuffer_count (q : Queue) (i : Nat) (b : Buffer) :
    (q.setBuffer i b).count = q.count := rfl

@[simp] theorem Queue.setBuffer_bufSize (q : Queue) (i : Nat) (b : Buffer) :
    (q.setBuffer i b).bufSize = q.bufSize := rfl

@[simp] theorem Queue.setBuffer_mainqueue (q : Queue) (i : Nat) (b : Buffer) :
    (q.setBuffer i b).mainqueue = q.mainqueue := rfl

@[simp] theorem Queue.setBuffer_irqqueue (q : Queue) (i : Nat) (b : Buffer) :
    (q.setBuffer i b).irqqueue = q.irqqueue := rfl

def Driver.stateOf (d : Driver) (i : Nat) : VideobufState := (d.queue.buffer i).state

def Driver.bytesusedOf (d : Driver) (i : Nat) : Nat := (d.queue.buffer i).buf.bytesused

/-- The contents of the frame memory, all zero while there is none. -/
def Driver.frame (d : Driver) : Nat → UInt8 :=
  match d.queue.mem with
  | none => fun _ => 0
  | some m => m.bytes

/-- The received bytes of buffer `i`: `[m.offset, m.offset + bytesused)`. -/
def Driver.contents (d : Driver) (i : Nat) : List UInt8 :=
  ByteStore.read d.frame (d.queue.buffer i).buf.offset (d.queue.buffer i).buf.bytesused

end Myuvc
