import UsbCamera.Base.Run
import UsbCamera.Myuvc.VideoComplete

/-!
# The driver as a machine

The driver is driven from two sides: an application makes calls, and the USB
core hands completed URBs to the completion handler.  The handler runs to its
end once it has started, so calls happen only between its runs.  A handler run
is cut into its loop iterations: it is entered with a URB's status, takes one
packet after another, and ends by submitting the URB again.  This makes the
states between two packets visible, also in a run in which a later packet
faults.

`exec_videoComplete` says that the inputs of one handler run do together what
`myuvc_video_complete` does.
-/

namespace Myuvc

open FaultRun

/-- A call into the driver, with the answers of the environment to it. -/
inductive Call
  | openDev
  | gFmt
  | tryFmt (f : V4l2Format)
  | sFmt (f : V4l2Format)
  | reqbufs (count : UInt32) (alloc : Nat → Option (Nat → UInt8))
  | querybuf (index : Nat)
  | qbuf (b : V4l2Buffer)
  | dqbuf
  | poll
  | mmap (pgoff size : Nat) (insert : Nat → Int)
  | vmOpen (i : Nat)
  | vmClose (i : Nat)
  | streamon (env : StreamonEnv)
  | streamoff
  | close

/-- What one call does. -/
def call (d : Driver) : Call → Except Fault (Reply × Driver)
  | .openDev => .ok (.ret 0, d)
  | .gFmt => .ok (.format 0 d.format, d)
  | .tryFmt f => .ok (.format (vidiocTryFmtVidCap f).1 (vidiocTryFmtVidCap f).2, d)
  | .sFmt f => .ok (vidiocSFmtVidCap d f)
  | .reqbufs count alloc => vidiocReqbufs d count alloc
  | .querybuf index => .ok (vidiocQuerybuf d index, d)
  | .qbuf b => vidiocQbuf d b
  | .dqbuf => vidiocDqbuf d
  | .poll => (poll d).map fun r => (r, d)
  | .mmap pgoff size insert => .ok (mmap d pgoff size insert)
  | .vmOpen i => .ok (.nothing, addVmaUse d i 1)
  | .vmClose i => .ok (.nothing, addVmaUse d i (-1))
  | .streamon env => .ok (vidiocStreamon d env)
  | .streamoff => .ok (vidiocStreamoff d)
  | .close => .ok (close d)

/-- A running completion handler: its URB, its local `buf` and the packets it has
been through.  When the loop is over these are all packets of the URB. -/
structure Handler where
  urb : Nat
  buf : BufPtr
  packets : Nat
deriving DecidableEq, Repr

/-- The driver and the handler that is running, if one is. -/
structure Machine where
  drv : Driver
  irq : Option Handler

/-- What can happen next. -/
inductive Input
  | call (c : Call)
  -- the USB core calls the handler with URB `urb`
  | irq (urb : Nat) (status : Int)
  | packet (p : Packet)
  -- the packet loop is over; the URB is submitted again
  | resubmit (answer : Int)

/-- One step of the machine. -/
def step (v : Version) (m : Machine) : Input → Except Fault (Reply × Machine)
  | .call c =>
      match m.irq with
      | none => (call m.drv c).map fun x => (x.1, ⟨x.2, none⟩)
      | some _ => .error .outOfTurn
  | .irq urb status =>
      match m.irq with
      | none =>
          let d := { m.drv with usb := m.drv.usb.retire urb }
          if status ≠ 0 then .ok (.nothing, ⟨d, none⟩)
          else .ok (.nothing, ⟨d, some ⟨urb, d.queue.irqqueue.current, 0⟩⟩)
      | some _ => .error .outOfTurn
  | .packet p =>
      match m.irq with
      | none => .error .outOfTurn
      | some h =>
          (packetBody v m.drv h.buf p).map fun x =>
            (.nothing, ⟨x.1, some ⟨h.urb, x.2, h.packets + 1⟩⟩)
  | .resubmit answer =>
      match m.irq with
      | none => .error .outOfTurn
      | some h =>
          .ok (.nothing,
            ⟨{ m.drv with usb := (m.drv.usb.submitUrb h.urb h.packets answer).2 }, none⟩)

/-- The machine at module load. -/
def Machine.load (idVendor : Nat) : Machine := ⟨Driver.load idVendor, none⟩

/-- A run of the driver. -/
abbrev Log := List (Entry Input Reply Machine)

/-- Everything a step can be, with its guard. -/
theorem step_cases {v : Version} {m m' : Machine} {i : Input} {r : Reply}
    (h : step v m i = .ok (r, m')) :
    (∃ c d', i = .call c ∧ m.irq = none ∧ call m.drv c = .ok (r, d') ∧ m' = ⟨d', none⟩) ∨
    (∃ urb status, i = .irq urb status ∧ m.irq = none ∧
      m'.drv = { m.drv with usb := m.drv.usb.retire urb } ∧
      (m'.irq = none ∨ m'.irq = some ⟨urb, m.drv.queue.irqqueue.current, 0⟩)) ∨
    (∃ p k d' buf', i = .packet p ∧ m.irq = some k ∧
      packetBody v m.drv k.buf p = .ok (d', buf') ∧
      m' = ⟨d', some ⟨k.urb, buf', k.packets + 1⟩⟩) ∨
    (∃ answer k, i = .resubmit answer ∧ m.irq = some k ∧
      m' = ⟨{ m.drv with usb := (m.drv.usb.submitUrb k.urb k.packets answer).2 }, none⟩) := by
  cases i with
  | call c =>
      left
      unfold step at h
      cases hirq : m.irq with
      | some k => simp [hirq] at h
      | none =>
          cases hc : call m.drv c with
          | error e => simp [hirq, hc, Except.map] at h
          | ok x =>
              simp only [hirq, hc, Except.map, Except.ok.injEq, Prod.mk.injEq] at h
              exact ⟨c, x.2, rfl, rfl, hc.trans (by rw [← h.1]), h.2.symm⟩
  | irq urb status =>
      right; left
      unfold step at h
      cases hirq : m.irq with
      | some k => simp [hirq] at h
      | none =>
          simp only [hirq] at h
          refine ⟨urb, status, rfl, rfl, ?_⟩
          split at h
          · cases h
            exact ⟨rfl, Or.inl rfl⟩
          · cases h
            exact ⟨rfl, Or.inr rfl⟩
  | packet p =>
      right; right; left
      unfold step at h
      cases hirq : m.irq with
      | none => simp [hirq] at h
      | some k =>
          cases hb : packetBody v m.drv k.buf p with
          | error e => simp [hirq, hb, Except.map] at h
          | ok x =>
              simp only [hirq, hb, Except.map, Except.ok.injEq, Prod.mk.injEq] at h
              exact ⟨p, k, x.1, x.2, rfl, rfl, hb, h.2.symm⟩
  | resubmit answer =>
      right; right; right
      unfold step at h
      cases hirq : m.irq with
      | none => simp [hirq] at h
      | some k =>
          simp only [hirq, Except.ok.injEq, Prod.mk.injEq] at h
          exact ⟨answer, k, rfl, rfl, h.2.symm⟩

/-- A call happens while no handler is running. -/
theorem step_call {v : Version} {m m' : Machine} {c : Call} {r : Reply}
    (h : step v m (.call c) = .ok (r, m')) :
    ∃ d', m' = ⟨d', none⟩ ∧ m.irq = none ∧ call m.drv c = .ok (r, d') := by
  rcases step_cases h with ⟨c', d', hc, hirq, hcall, rfl⟩ | ⟨_, _, hc, -⟩ | ⟨_, _, _, _, hc, -⟩ |
      ⟨_, _, hc, -⟩
  · cases hc
    exact ⟨d', rfl, hirq, hcall⟩
  all_goals cases hc

/-- Polling leaves the driver as it is. -/
theorem call_poll {d d' : Driver} {r : Reply} (h : call d .poll = .ok (r, d')) :
    poll d = .ok r ∧ d' = d := by
  obtain ⟨x, hpoll, hx⟩ := map_eq_ok.mp h
  obtain ⟨rfl, rfl⟩ := Prod.mk.inj hx
  exact ⟨hpoll, rfl⟩

/-- A call that the driver answers is a step. -/
theorem step_of_call (v : Version) {m : Machine} {c : Call} {r : Reply} {d' : Driver}
    (hirq : m.irq = none) (h : call m.drv c = .ok (r, d')) :
    step v m (.call c) = .ok (r, ⟨d', none⟩) := by
  simp [step, hirq, h, Except.map]

/-- An iteration of the packet loop is a step. -/
theorem step_of_packet {v : Version} {d d' : Driver} (urb n : Nat) {buf buf' : BufPtr}
    {p : Packet} (h : packetBody v d buf p = .ok (d', buf')) :
    step v ⟨d, some ⟨urb, buf, n⟩⟩ (.packet p) =
      .ok (.nothing, ⟨d', some ⟨urb, buf', n + 1⟩⟩) := by
  simp [step, h, Except.map]

/-- The iterations of the packet loop, taken as inputs one after another. -/
theorem exec_packets {v : Version} {d d' : Driver} (urb n : Nat) {buf buf' : BufPtr}
    {ps : List Packet} (rest : List Input)
    (h : packetLoop v d buf ps = .ok (d', buf')) :
    lastState ⟨d, some ⟨urb, buf, n⟩⟩
        (exec (step v) ⟨d, some ⟨urb, buf, n⟩⟩ (ps.map Input.packet ++ rest)) =
      lastState ⟨d', some ⟨urb, buf', n + ps.length⟩⟩
        (exec (step v) ⟨d', some ⟨urb, buf', n + ps.length⟩⟩ rest) := by
  induction ps generalizing d buf n with
  | nil =>
      simp only [packetLoop, Except.ok.injEq, Prod.mk.injEq] at h
      obtain ⟨rfl, rfl⟩ := h
      rfl
  | cons p ps ih =>
      unfold packetLoop at h
      split at h
      · cases h
      · rename_i d₁ buf₁ hbody
        have hhead := step_of_packet urb n hbody
        have hcount : n + (ps.length + 1) = n + 1 + ps.length := by omega
        simpa [exec, hhead, hcount] using ih (n + 1) h

/-- The inputs of one handler run. -/
def handlerRun (u : CompletedUrb) (answer : Int) : List Input :=
  .irq u.handle u.status :: (u.packets.map Input.packet ++ [.resubmit answer])

/-- **One handler run.**  Entering the handler, giving it the packets and
submitting the URB again leaves the state `myuvc_video_complete` leaves.  Behind
a URB with an error status the handler is not running, and the packets fall on
deaf ears. -/
theorem exec_videoComplete {v : Version} {d d' : Driver} {u : CompletedUrb} {answer : Int}
    (h : videoComplete v d u answer = .ok d') :
    lastState ⟨d, none⟩ (exec (step v) ⟨d, none⟩ (handlerRun u answer)) = ⟨d', none⟩ := by
  unfold videoComplete at h
  by_cases hstatus : u.status = 0
  · simp only [hstatus, ne_eq, not_true_eq_false, if_false] at h
    split at h
    · cases h
    · rename_i d₁ buf₁ hloop
      cases h
      have hpackets := exec_packets u.handle 0 [.resubmit answer] hloop
      simp only [handlerRun, exec, step, hstatus, ne_eq, not_true_eq_false, if_false,
        lastState_cons]
      rw [hpackets]
      simp [exec, step]
  · simp only [ne_eq, hstatus, not_false_eq_true, if_true, Except.ok.injEq] at h
    subst h
    cases hps : u.packets <;> simp [handlerRun, exec, step, hstatus, hps]

/-- A format the driver accepts. -/
def captureFormat : V4l2Format :=
  { V4l2Format.zero with
    type := .videoCapture
    pix := { V4l2Format.zero.pix with pixelformat := V4L2_PIX_FMT_MJPEG } }

/-- The machine whose format is set and which has `n` idle buffers. -/
def Machine.withBuffers (idVendor n : Nat) : Machine where
  drv :=
    { Driver.load idVendor with
      format := (vidiocTryFmtVidCap captureFormat).2
      queue := initQueue (pageAlign dwMaxVideoFrameSize) dwMaxVideoFrameSize n
        ⟨n * pageAlign dwMaxVideoFrameSize, fun _ => 0⟩ }
  irq := none

/-- The machine at module load with its format set. -/
def Machine.withFormat (idVendor : Nat) : Machine where
  drv := { Driver.load idVendor with format := (vidiocTryFmtVidCap captureFormat).2 }
  irq := none

theorem step_sFmt_load (v : Version) (idVendor : Nat) :
    step v (Machine.load idVendor) (.call (.sFmt captureFormat)) =
      .ok (.format 0 (vidiocTryFmtVidCap captureFormat).2, Machine.withFormat idVendor) := rfl

/-- While memory is plentiful, the first attempt of the allocation loop
succeeds. -/
theorem allocLoop_plentiful {bufsize k : Nat} (hpos : 0 < bufsize)
    (hmod : (k + 1) * bufsize % 2 ^ 32 = (k + 1) * bufsize) :
    allocLoop bufsize (fun _ => some fun _ => (0 : UInt8)) (k + 1) =
      some (k + 1, ⟨(k + 1) * bufsize, fun _ => 0⟩) := by
  have hne : (k + 1) * bufsize ≠ 0 := by positivity
  simp only [allocLoop, vmalloc32, hmod, hne, if_false, Option.map_some]

/-- While memory is plentiful, as many buffers are given as were asked for. -/
theorem vidiocReqbufs_withFormat (idVendor : Nat) {n : Nat} (hpos : 1 ≤ n) (hle : n ≤ BUFFERS) :
    vidiocReqbufs (Machine.withFormat idVendor).drv (UInt32.ofNat n)
        (fun _ => some fun _ => 0) =
      .ok (.ret n, (Machine.withBuffers idVendor n).drv) := by
  have hBUFFERS : BUFFERS = 32 := rfl
  have hpage : pageAlign dwMaxVideoFrameSize = 77824 := rfl
  have hsize : (Machine.withFormat idVendor).drv.format.pix.sizeimage = dwMaxVideoFrameSize := rfl
  have hfree : freeBuffers (Machine.withFormat idVendor).drv = (Machine.withFormat idVendor).drv :=
    rfl
  obtain ⟨k, rfl⟩ : ∃ k, n = k + 1 := ⟨n - 1, by omega⟩
  have hcount : (UInt32.ofNat (k + 1)).toNat = k + 1 := by
    rw [UInt32.toNat_ofNat_of_lt']
    exact lt_of_le_of_lt hle (by decide)
  have hne : UInt32.ofNat (k + 1) ≠ 0 := by
    intro h
    have := congrArg UInt32.toNat h
    rw [hcount] at this
    simp at this
  have hmod : (k + 1) * 77824 % 2 ^ 32 = (k + 1) * 77824 := by omega
  have halloc := allocLoop_plentiful (by omega) hmod
  simp only [Machine.withFormat] at hsize hfree ⊢
  simp only [vidiocReqbufs, hfree, hsize, hpage, hne, hcount, if_false, halloc]
  rw [if_pos (by omega)]
  simp only [show ¬ BUFFERS < k + 1 by omega, if_false, Machine.withBuffers, hpage]

theorem step_reqbufs_withFormat (v : Version) (idVendor : Nat) {n : Nat} (hpos : 1 ≤ n)
    (hle : n ≤ BUFFERS) :
    step v (Machine.withFormat idVendor)
        (.call (.reqbufs (UInt32.ofNat n) fun _ => some fun _ => 0)) =
      .ok (.ret n, Machine.withBuffers idVendor n) := by
  have hreq := vidiocReqbufs_withFormat idVendor hpos hle
  exact step_of_call v rfl hreq

/-- Setting the format and asking for `n` buffers while memory is plentiful. -/
def setupLog (idVendor n : Nat) : Log :=
  [⟨.call (.sFmt captureFormat), .format 0 (vidiocTryFmtVidCap captureFormat).2,
      Machine.withFormat idVendor⟩,
    ⟨.call (.reqbufs (UInt32.ofNat n) fun _ => some fun _ => 0), .ret n,
      Machine.withBuffers idVendor n⟩]

theorem isRun_setupLog (v : Version) (idVendor : Nat) {n : Nat} (hpos : 1 ≤ n)
    (hle : n ≤ BUFFERS) : IsRun (step v) (Machine.load idVendor) (setupLog idVendor n) :=
  ⟨step_sFmt_load v idVendor, step_reqbufs_withFormat v idVendor hpos hle, trivial⟩

/-- The request that queues buffer `i`. -/
def queueRequest (i : Nat) : V4l2Buffer :=
  { Buffer.zero.buf with index := i, type := .videoCapture, memory := .mmap }

/-- A USB environment in which everything succeeds.  The camera reports frames of
up to 77312 bytes. -/
def plainEnv : StreamonEnv :=
  let transfer : ControlTransfer := ⟨true, 26, fun k => if k = 19 then 0x2E else if k = 20 then 1
    else 0⟩
  ⟨⟨transfer, transfer, transfer⟩, fun _ => true, fun _ => true, fun _ => 0⟩

end Myuvc
