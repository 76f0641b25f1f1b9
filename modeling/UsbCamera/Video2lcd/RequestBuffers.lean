import UsbCamera.Myuvc.Effects

/-!
# The application asks the driver for buffers

`V4l2InitDevice` fills in a request, passes it to the driver through the V4L2
core, and reads two things from what comes back: the return value, of which
anything but zero is a failure, and the number of buffers in the request
structure, which the core copies back.

`myuvc_vidioc_reqbufs` uses the convention the other way round.  It returns the
number of buffers and does not write the structure.  So the application gives up
exactly when the driver has given it buffers.
-/

namespace Video2lcd

open Myuvc

/-- `struct v4l2_requestbuffers`. -/
structure Requestbuffers where
  count : UInt32
  type : BufType
  memory : Memory
deriving DecidableEq, Repr

/-- An ioctl handler: it gets the argument and the state of its driver, and
returns a value, the argument as it leaves it, and the new state. -/
abbrev IoctlHandler (α σ : Type) := α → σ → Except Fault (Int × α × σ)

/-- `video_usercopy` for an argument that is copied in and out: the return value
of the handler passes through, and the argument is copied back unless the value
is negative. -/
def videoUsercopy {α σ : Type} (func : IoctlHandler α σ) : IoctlHandler α σ := fun arg s =>
  match func arg s with
  | .error e => .error e
  | .ok (err, parg, s) => if err < 0 then .ok (err, arg, s) else .ok (err, parg, s)

/-- `myuvc_vidioc_reqbufs` as a handler.  The request is only read. -/
def reqbufsHandler (alloc : Nat → Option (Nat → UInt8)) : IoctlHandler Requestbuffers Driver :=
  fun p d =>
    match vidiocReqbufs d p.count alloc with
    | .ok (.ret r, d) => .ok (r, p, d)
    | .ok (_, d) => .ok (0, p, d)
    | .error e => .error e

/-- `NB_BUFFER`. -/
def NB_BUFFER : UInt32 := 4

/-- The `VIDIOC_REQBUFS` step of `V4l2InitDevice`, for a request of `n` buffers:
`none` where it leaves for `err_exit`, and otherwise the value it stores in
`iVideoBufCnt`. -/
def requestBuffers {σ : Type} (ioctl : IoctlHandler Requestbuffers σ) (n : UInt32) (s : σ) :
    Except Fault (Option Nat × σ) :=
  let tV4l2ReqBuffs : Requestbuffers := ⟨n, .videoCapture, .mmap⟩
  match ioctl tV4l2ReqBuffs s with
  | .error e => .error e
  | .ok (iError, tV4l2ReqBuffs, s) =>
      if iError ≠ 0 then .ok (none, s) else .ok (some tV4l2ReqBuffs.count.toNat, s)

/-- Application and driver agree: where the driver gives `m` buffers, the
application goes on with `m`. -/
def Agree (d : Driver) (n : UInt32) (alloc : Nat → Option (Nat → UInt8)) : Prop :=
  ∃ m d', 1 ≤ m ∧ d'.queue.count = m ∧
    requestBuffers (videoUsercopy (reqbufsHandler alloc)) n d = .ok (some m, d')

/-- What the application makes of the driver's return value. -/
theorem requestBuffers_of_reqbufs {d d' : Driver} {n : UInt32}
    {alloc : Nat → Option (Nat → UInt8)} {r : Int}
    (h : vidiocReqbufs d n alloc = .ok (.ret r, d')) :
    requestBuffers (videoUsercopy (reqbufsHandler alloc)) n d =
      .ok (if r ≠ 0 then none else some n.toNat, d') := by
  have hcopy : videoUsercopy (reqbufsHandler alloc) ⟨n, .videoCapture, .mmap⟩ d =
      .ok (r, ⟨n, .videoCapture, .mmap⟩, d') := by
    simp [videoUsercopy, reqbufsHandler, h]
  simp only [requestBuffers, hcopy]
  split <;> simp_all

/-- **They never agree.**  For every request, and every pattern of allocation
failures that still lets the driver give buffers, the application takes the step
as failed. -/
theorem requestBuffers_fails {d d' : Driver} {n : UInt32}
    {alloc : Nat → Option (Nat → UInt8)} {m : Nat}
    (hreq : vidiocReqbufs d n alloc = .ok (.ret m, d')) (hm : 1 ≤ m) :
    d'.queue.count = m ∧
      requestBuffers (videoUsercopy (reqbufsHandler alloc)) n d = .ok (none, d') ∧
      ¬ Agree d n alloc := by
  have hstep : requestBuffers (videoUsercopy (reqbufsHandler alloc)) n d = .ok (none, d') := by
    rw [requestBuffers_of_reqbufs hreq, if_pos (by omega)]
  refine ⟨?_, hstep, ?_⟩
  · obtain ⟨mem, -, -, rfl⟩ := vidiocReqbufs_gave hm hreq
    rfl
  · rintro ⟨k, d'', -, -, hgo⟩
    rw [hstep] at hgo
    cases hgo

/-- The request `V4l2InitDevice` makes, with memory for all of it. -/
theorem requestBuffers_four_given_up :
    vidiocReqbufs (Machine.withFormat 0).drv NB_BUFFER (fun _ => some fun _ => 0) =
        .ok (.ret 4, (Machine.withBuffers 0 4).drv) ∧
      requestBuffers (videoUsercopy (reqbufsHandler fun _ => some fun _ => 0)) NB_BUFFER
        (Machine.withFormat 0).drv = .ok (none, (Machine.withBuffers 0 4).drv) ∧
      ¬ Agree (Machine.withFormat 0).drv NB_BUFFER (fun _ => some fun _ => 0) := by
  have hreq := vidiocReqbufs_withFormat 0 (n := 4) (by decide) (by decide)
  have hstep := requestBuffers_of_reqbufs hreq
  refine ⟨hreq, hstep, ?_⟩
  rintro ⟨m, d', -, -, hgo⟩
  cases hstep.symm.trans hgo

theorem requestBuffers_two_fails :
    (Machine.withBuffers 0 2).drv.queue.count = 2 ∧
      requestBuffers (videoUsercopy (reqbufsHandler fun _ => some fun _ => 0)) (UInt32.ofNat 2)
        (Machine.withFormat 0).drv = .ok (none, (Machine.withBuffers 0 2).drv) ∧
      ¬ Agree (Machine.withFormat 0).drv (UInt32.ofNat 2) (fun _ => some fun _ => 0) :=
  requestBuffers_fails (vidiocReqbufs_withFormat 0 (n := 2) (by decide) (by decide)) (by decide)

end Video2lcd
