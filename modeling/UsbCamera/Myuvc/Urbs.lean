import UsbCamera.Myuvc.Buffers

/-!
# URBs: starting and stopping the stream

`myuvc_vidioc_streamon` negotiates the stream parameters, allocates five URBs
with their transfer buffers and submits them; `myuvc_vidioc_streamoff` kills and
frees them.  The USB core is the record `UsbCore`; which allocations and
submissions succeed is decided by `StreamonEnv`.

The loops of the source over `i < MYUVC_URBS` are recursions over the list of
slots still to be visited.
-/

namespace Myuvc

namespace UsbCore

/-- `usb_buffer_alloc`. -/
def bufferAlloc (c : UsbCore) (ok : Bool) : Option Nat × UsbCore :=
  if ok then
    (some c.nextHandle,
      { c with nextHandle := c.nextHandle + 1, buffers := c.buffers ++ [c.nextHandle] })
  else (none, c)

/-- `usb_alloc_urb`. -/
def allocUrb (c : UsbCore) (ok : Bool) : Option Nat × UsbCore :=
  if ok then
    (some c.nextHandle,
      { c with nextHandle := c.nextHandle + 1, urbs := c.urbs ++ [c.nextHandle] })
  else (none, c)

/-- `usb_buffer_free`. -/
def bufferFree (c : UsbCore) (h : Nat) : UsbCore :=
  { c with bufferFrees := c.bufferFrees ++ [h] }

/-- `usb_free_urb`. -/
def freeUrb (c : UsbCore) (h : Nat) : UsbCore :=
  { c with urbFrees := c.urbFrees ++ [(h, decide (h ∈ c.inFlight))] }

/-- `usb_submit_urb` on a URB of `packets` isochronous packets: one that is in
flight is refused, so is one without packets, and any other is accepted or not as
the host controller decides. -/
def submitUrb (c : UsbCore) (h packets : Nat) (answer : Int) : Int × UsbCore :=
  if h ∈ c.inFlight then (-EINVAL, c)
  else if packets = 0 then (-EINVAL, c)
  else if answer < 0 then (answer, c)
  else (answer, { c with inFlight := c.inFlight ++ [h] })

/-- The URB is no longer in flight: `usb_kill_urb` has returned, or the core is
about to call the completion handler. -/
def retire (c : UsbCore) (h : Nat) : UsbCore :=
  { c with inFlight := c.inFlight.filter (· ≠ h) }

end UsbCore

/-- The answers of the environment to one `VIDIOC_STREAMON`, by slot. -/
structure StreamonEnv where
  negotiation : Negotiation
  bufferAlloc : Nat → Bool
  urbAlloc : Nat → Bool
  submit : Nat → Int

def wMaxPacketSize : Nat := 800

/-- The slots `0 .. MYUVC_URBS - 1`. -/
def urbSlots : List Nat := List.range MYUVC_URBS

/-- The body of the loop of `myuvc_uninit_urbs`. -/
def uninitSlot (d : Driver) (i : Nat) : Driver :=
  let d :=
    match d.queue.urbBuffer i with
    | none => d
    | some h =>
        { d with
          usb := d.usb.bufferFree h
          queue := { d.queue with urbBuffer := Function.update d.queue.urbBuffer i none } }
  match d.queue.urb i with
  | none => d
  | some u =>
      { d with
        usb := d.usb.freeUrb u.handle
        queue := { d.queue with urb := Function.update d.queue.urb i none } }

/-- `myuvc_uninit_urbs`. -/
def uninitUrbs (d : Driver) : Driver := urbSlots.foldl uninitSlot d

/-- The number of packets of a URB: `DIV_ROUND_UP(size, psize)` in 32-bit
arithmetic, at most 32. -/
def npackets (size : UInt32) : Nat :=
  min ((size.toNat + wMaxPacketSize - 1) % 2 ^ 32 / wMaxPacketSize) 32

/-- The allocating loop of `myuvc_alloc_init_urbs`; the flag tells whether it
ran to its end. -/
def allocUrbSlots (env : StreamonEnv) (packets : Nat) : List Nat → Driver → Bool × Driver
  | [], d => (true, d)
  | i :: rest, d =>
      let (buf, usb) := d.usb.bufferAlloc (env.bufferAlloc i)
      let (urb, usb) := usb.allocUrb (env.urbAlloc i)
      let d :=
        { d with
          usb := usb
          queue := { d.queue with
            urbBuffer := Function.update d.queue.urbBuffer i buf
            urb := Function.update d.queue.urb i (urb.map fun h => ⟨h, packets, 0, []⟩) } }
      if buf.isNone ∨ urb.isNone then (false, uninitUrbs d)
      else allocUrbSlots env packets rest d

/-- How `myuvc_alloc_init_urbs` fills in a URB. -/
def setupUrb (packets size : Nat) (u : UrbObj) : UrbObj :=
  { u with
    numberOfPackets := packets
    transferBufferLength := size
    isoFrameDesc := (List.range packets).map fun j => (j * wMaxPacketSize, wMaxPacketSize) }

/-- `myuvc_alloc_init_urbs`. -/
def allocInitUrbs (d : Driver) (env : StreamonEnv) : Int × Driver :=
  let packets := npackets d.params.dwMaxVideoFrameSize
  let size := wMaxPacketSize * packets
  let d := { d with queue := { d.queue with urbSize := size } }
  match allocUrbSlots env packets urbSlots d with
  | (false, d) => (-ENOMEM, d)
  | (true, d) =>
      (0, { d with queue := { d.queue with
              urb := fun i =>
                if i < MYUVC_URBS then (d.queue.urb i).map (setupUrb packets size)
                else d.queue.urb i } })

/-- The submitting loop of `myuvc_vidioc_streamon`.  `usb_submit_urb(NULL)`
returns `-EINVAL`. -/
def submitUrbs (env : StreamonEnv) : List Nat → Driver → Int × Driver
  | [], d => (0, d)
  | i :: rest, d =>
      match d.queue.urb i with
      | none => (-EINVAL, uninitUrbs d)
      | some u =>
          let (ret, usb) := d.usb.submitUrb u.handle u.numberOfPackets (env.submit i)
          if ret < 0 then (ret, uninitUrbs { d with usb := usb })
          else submitUrbs env rest { d with usb := usb }

/-- `myuvc_vidioc_streamon`.  The results of the negotiation and of
`myuvc_alloc_init_urbs` are only printed. -/
def vidiocStreamon (d : Driver) (env : StreamonEnv) : Reply × Driver :=
  let d := { d with params := negotiate uvcVersion env.negotiation d.params }
  let (ret, d) := submitUrbs env urbSlots (allocInitUrbs d env).2
  (.ret ret, d)

/-- The killing loop of `myuvc_vidioc_streamoff`. -/
def killSlot (d : Driver) (i : Nat) : Driver :=
  match d.queue.urb i with
  | none => d
  | some u => { d with usb := d.usb.retire u.handle }

/-- `myuvc_vidioc_streamoff`. -/
def vidiocStreamoff (d : Driver) : Reply × Driver :=
  (.ret 0, uninitUrbs (urbSlots.foldl killSlot d))

/-- `myuvc_close`. -/
def close (d : Driver) : Reply × Driver := (.ret 0, (vidiocStreamoff d).2)

end Myuvc
