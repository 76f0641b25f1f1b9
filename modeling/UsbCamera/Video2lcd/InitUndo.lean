import UsbCamera.Base.Blocks
import UsbCamera.Video2lcd.InitDevice

/-!
# What a failed initialisation leaves behind

`V4l2InitDevice` opens the device and maps its buffers one after the other.  Whatever
fails behind the `open`, it jumps to `err_exit`, closes the file descriptor and returns
-1, and `VideoDeviceInit` goes on to the next module.

Here the function is run once more with a ledger of the resources it acquires and
releases; its result is the one of `v4l2InitDevice` (`v4l2InitTraced_result`).  The
descriptor is always closed.  But `err_exit` does not unmap anything: every mapping made
before the failure is still there (`failed_init_held`).
-/

namespace Video2lcd

/-- What the process holds of the kernel. -/
inductive Resource
  | fd (iFd : Int32)
  | mapping (addr : Nat)
deriving DecidableEq, Repr

/-- A call that takes or gives back a resource. -/
inductive SysCall
  | acquire (r : Resource)
  | release (r : Resource)
deriving DecidableEq, Repr

/-- What is held after some calls. -/
def replay (held : Blocks Resource) (calls : List SysCall) : Blocks Resource :=
  calls.foldl (fun held call => match call with
    | .acquire r => held.give r
    | .release r => held.free r) held

theorem replay_append (held : Blocks Resource) (calls more : List SysCall) :
    replay held (calls ++ more) = replay (replay held calls) more :=
  List.foldl_append

/-- The loop that maps the buffers, from buffer `i` on, with the mappings it makes. -/
def mapBuffersTraced (a : Answers) :
    (left i : Nat) → VideoDevice → List SysCall × Except VideoDevice VideoDevice
  | 0, _, d => ([], .ok d)
  | left + 1, i, d =>
      let (iError, length, offset) := a.querybuf i
      if iError ≠ 0 then ([], .error d)
      else
        let d := { d with iVideoBufMaxLen := length.toInt32 }
        match a.mmap i length offset with
        | none => ([], .error (d.setPucVideBuf i .mapFailed))
        | some addr =>
            let d := d.setPucVideBuf i (.mapped addr)
            let (calls, result) := mapBuffersTraced a left (i + 1) d
            (.acquire (.mapping addr) :: calls, result)

/-- The part of `V4l2InitDevice` behind `VIDIOC_REQBUFS`, with the mappings it makes.  The
buffer of a device without streaming is not a resource of the kernel. -/
def takeBuffersTraced (a : Answers) (opr : VideoOpr) (d : VideoDevice) :
    List SysCall × Except VideoDevice Initialised :=
  if a.querycap.2 &&& V4L2_CAP_STREAMING ≠ 0 then
    let iVideoBufCnt := d.iVideoBufCnt.toInt.toNat
    match mapBuffersTraced a iVideoBufCnt 0 d with
    | (calls, .error d) => (calls, .error d)
    | (calls, .ok d) =>
        match queueBuffers a iVideoBufCnt 0 with
        | (false, _) => (calls, .error d)
        | (true, queued) => (calls, .ok ⟨d.setPucVideBuf NB_BUFFER.toNat .opr, opr, queued⟩)
  else ([], takeBuffers a opr d)

/-- The part of `V4l2InitDevice` between `open` and the buffers: from `VIDIOC_QUERYCAP` to
`VIDIOC_REQBUFS`. -/
def prepareDevice (a : Answers) (d : VideoDevice) : Except VideoDevice VideoDevice :=
  if a.querycap.1 ≠ 0 then .error d
  else if a.querycap.2 &&& V4L2_CAP_VIDEO_CAPTURE = 0 then .error d
  else
    let d := { d with iPixelFormat := enumFormats a.formats d.iPixelFormat }
    if d.iPixelFormat = 0 then .error d
    else
      let (iError, width, height) := a.sFmt d.iPixelFormat a.lcdWidth a.lcdHeight
      if iError ≠ 0 then .error d
      else
        let d := { d with iWidth := width.toInt32, iHeight := height.toInt32 }
        let (iError, count) := a.reqbufs NB_BUFFER
        if iError ≠ 0 then .error d
        else .ok { d with iVideoBufCnt := count.toInt32 }

/-- `V4l2InitDevice`, with what it acquires and releases. -/
def v4l2InitTraced (a : Answers) (opr : VideoOpr) (d : VideoDevice) :
    List SysCall × Except VideoDevice Initialised :=
  if a.fd < 0 then ([], .error d)
  else
    match prepareDevice a { d with iFd := a.fd } with
    | .error d => ([.acquire (.fd a.fd), .release (.fd a.fd)], .error d)
    | .ok d =>
        match takeBuffersTraced a opr d with
        -- `err_exit`
        | (calls, .error d) => (.acquire (.fd a.fd) :: calls ++ [.release (.fd a.fd)], .error d)
        | (calls, .ok r) => (.acquire (.fd a.fd) :: calls, .ok r)

theorem mapBuffersTraced_result (a : Answers) (left i : Nat) (d : VideoDevice) :
    (mapBuffersTraced a left i d).2 = mapBuffers a left i d := by
  induction left generalizing i d with
  | zero => rfl
  | succ left ih =>
      simp only [mapBuffersTraced, mapBuffers]
      split
      · rfl
      · cases a.mmap i (a.querybuf i).2.1 (a.querybuf i).2.2 with
        | none => rfl
        | some addr => exact ih _ _

theorem takeBuffersTraced_result (a : Answers) (opr : VideoOpr) (d : VideoDevice) :
    (takeBuffersTraced a opr d).2 = takeBuffers a opr d := by
  by_cases hstreams : a.querycap.2 &&& V4L2_CAP_STREAMING ≠ 0
  · simp only [takeBuffersTraced, takeBuffers, if_pos hstreams]
    rw [← mapBuffersTraced_result]
    rcases mapBuffersTraced a d.iVideoBufCnt.toInt.toNat 0 d with ⟨calls, result⟩
    cases result with
    | error d => rfl
    | ok d =>
        rcases queueBuffers a _ 0 with ⟨_ | _, queued⟩ <;> rfl
  · rw [takeBuffersTraced, if_neg hstreams]

/-- `V4l2InitDevice` prepares the device and takes the buffers. -/
theorem v4l2InitDevice_eq (a : Answers) (opr : VideoOpr) (d : VideoDevice) :
    v4l2InitDevice a opr d =
      if a.fd < 0 then .error d
      else match prepareDevice a { d with iFd := a.fd } with
        | .error d => .error d
        | .ok d => takeBuffers a opr d := by
  unfold v4l2InitDevice prepareDevice
  simp only
  split_ifs <;> rfl

/-- **The ledger does not change the function.** -/
theorem v4l2InitTraced_result (a : Answers) (opr : VideoOpr) (d : VideoDevice) :
    (v4l2InitTraced a opr d).2 = v4l2InitDevice a opr d := by
  rw [v4l2InitDevice_eq]
  unfold v4l2InitTraced
  split
  · rfl
  · cases prepareDevice a { d with iFd := a.fd } with
    | error d => rfl
    | ok d =>
        simp only
        rw [← takeBuffersTraced_result]
        rcases takeBuffersTraced a opr d with ⟨calls, _ | _⟩ <;> rfl

/-- The mapping loop makes mappings, and none only if there is no buffer or the first one
fails. -/
theorem mapBuffersTraced_calls (a : Answers) (left i : Nat) (d : VideoDevice) :
    ∃ addrs : List Nat,
      (mapBuffersTraced a left i d).1 = addrs.map (fun addr => .acquire (.mapping addr)) ∧
      (addrs = [] ↔ left = 0 ∨ (a.querybuf i).1 ≠ 0 ∨
        a.mmap i (a.querybuf i).2.1 (a.querybuf i).2.2 = none) := by
  induction left generalizing i d with
  | zero => exact ⟨[], rfl, by simp⟩
  | succ left ih =>
      simp only [mapBuffersTraced]
      split
      · rename_i herror
        exact ⟨[], rfl, by simp [herror]⟩
      · rename_i hok
        split
        · rename_i hnone
          exact ⟨[], rfl, by simp [hnone]⟩
        · rename_i addr hsome
          obtain ⟨addrs, hcalls, -⟩ := ih (i + 1)
            (({ d with iVideoBufMaxLen := (a.querybuf i).2.1.toInt32 }).setPucVideBuf i
              (.mapped addr))
          refine ⟨addr :: addrs, ?_, ?_⟩
          · rw [hcalls]
            rfl
          · simp only [List.cons_ne_nil, false_iff, not_or]
            exact ⟨by omega, hok, by rw [hsome]; simp⟩

/-- Mappings are added to what is held. -/
theorem replay_mapped (held : Blocks Resource) (addrs : List Nat) :
    replay held (addrs.map fun addr => .acquire (.mapping addr)) =
      { held with live := (addrs.map Resource.mapping).reverse ++ held.live } := by
  induction addrs generalizing held with
  | nil => rfl
  | cons addr rest ih =>
      have hrest := ih (held.give (.mapping addr))
      simp only [Blocks.give, List.map_cons, List.reverse_cons, List.append_assoc,
        List.singleton_append] at hrest ⊢
      exact hrest

/-- Closing the descriptor leaves the mappings. -/
theorem replay_closed (iFd : Int32) (addrs : List Nat) :
    replay {} (.acquire (.fd iFd) :: addrs.map (fun addr => .acquire (.mapping addr)) ++
        [.release (.fd iFd)]) =
      { live := (addrs.map Resource.mapping).reverse } := by
  have hopened : replay {} (.acquire (.fd iFd) ::
      addrs.map (fun addr => .acquire (.mapping addr))) =
      { live := (addrs.map Resource.mapping).reverse ++ [.fd iFd] } :=
    replay_mapped { live := [.fd iFd] } addrs
  have hnot : Resource.fd iFd ∉ (addrs.map Resource.mapping).reverse := by simp
  rw [replay_append, hopened]
  simp only [replay, List.foldl_cons, List.foldl_nil, Blocks.free]
  rw [if_pos (by simp), List.erase_append_right _ hnot]
  simp

/-- Taking the buffers fails only while they are mapped or queued; by then none is mapped
only if the first one fails. -/
theorem takeBuffersTraced_calls {a : Answers} {opr : VideoOpr} {d d' : VideoDevice}
    (hfail : takeBuffers a opr d = .error d') :
    ∃ addrs : List Nat,
      (takeBuffersTraced a opr d).1 = addrs.map (fun addr => .acquire (.mapping addr)) ∧
      (addrs = [] ↔ (a.querybuf 0).1 ≠ 0 ∨
        a.mmap 0 (a.querybuf 0).2.1 (a.querybuf 0).2.2 = none) := by
  by_cases hstreams : a.querycap.2 &&& V4L2_CAP_STREAMING ≠ 0
  · obtain ⟨addrs, hcalls, hempty⟩ :=
      mapBuffersTraced_calls a d.iVideoBufCnt.toInt.toNat 0 d
    -- without buffers both loops come to their end at once
    have hsome : d.iVideoBufCnt.toInt.toNat ≠ 0 := by
      intro hzero
      simp [takeBuffers, hstreams, hzero, mapBuffers, queueBuffers] at hfail
    refine ⟨addrs, ?_, ?_⟩
    · rw [← hcalls]
      simp only [takeBuffersTraced, if_pos hstreams]
      rcases mapBuffersTraced a d.iVideoBufCnt.toInt.toNat 0 d with ⟨calls, result⟩
      cases result with
      | error d => rfl
      | ok d =>
          rcases queueBuffers a _ 0 with ⟨_ | _, queued⟩ <;> rfl
    · rw [hempty]
      exact ⟨fun hnone => hnone.resolve_left hsome, Or.inr⟩
  · simp only [takeBuffers, if_neg hstreams] at hfail
    split at hfail <;> cases hfail

/-- **What a failure leaves.**  Once the device was opened, a failed initialisation holds
the mappings it made, and nothing else. -/
theorem failed_init_held {a : Answers} {opr : VideoOpr} {d d' : VideoDevice}
    (hopen : ¬ a.fd < 0) (hfail : v4l2InitDevice a opr d = .error d') :
    ∃ addrs : List Nat,
      replay {} (v4l2InitTraced a opr d).1 = { live := (addrs.map Resource.mapping).reverse } ∧
      (addrs = [] ↔ (∃ e, prepareDevice a { d with iFd := a.fd } = .error e) ∨
        (a.querybuf 0).1 ≠ 0 ∨ a.mmap 0 (a.querybuf 0).2.1 (a.querybuf 0).2.2 = none) := by
  rw [v4l2InitDevice_eq, if_neg hopen] at hfail
  unfold v4l2InitTraced
  rw [if_neg hopen]
  cases hprepare : prepareDevice a { d with iFd := a.fd } with
  | error e => exact ⟨[], replay_closed a.fd [], by simp⟩
  | ok d₁ =>
      rw [hprepare] at hfail
      obtain ⟨addrs, hcalls, hempty⟩ := takeBuffersTraced_calls hfail
      refine ⟨addrs, ?_, ?_⟩
      · have hresult : (takeBuffersTraced a opr d₁).2 = .error d' :=
          (takeBuffersTraced_result a opr d₁).trans hfail
        simp only
        rw [← replay_closed a.fd addrs, ← hcalls]
        rcases htake : takeBuffersTraced a opr d₁ with ⟨calls, result⟩
        rw [htake] at hresult
        cases hresult
        rfl
      · rw [hempty]
        simp

/-- The format that `V4l2InitDevice` goes on with: the first one that it supports, or what the
caller had in the structure. -/
def Answers.chosenFormat (a : Answers) (iPixelFormat : Int32) : Int32 :=
  (a.pixelFormats.find? isSupportThisFormat).getD iPixelFormat

/-- The driver refuses a call in front of the buffers, or is of no use: `VIDIOC_QUERYCAP` fails,
it cannot capture, there is no format, `VIDIOC_S_FMT` fails, or `VIDIOC_REQBUFS` does. -/
def Answers.RefusesEarly (a : Answers) (iPixelFormat : Int32) : Prop :=
  a.querycap.1 ≠ 0 ∨ a.querycap.2 &&& V4L2_CAP_VIDEO_CAPTURE = 0 ∨
    a.chosenFormat iPixelFormat = 0 ∨
    (a.sFmt (a.chosenFormat iPixelFormat) a.lcdWidth a.lcdHeight).1 ≠ 0 ∨
    (a.reqbufs NB_BUFFER).1 ≠ 0

/-- The preparation fails with one of these answers. -/
theorem prepareDevice_error_iff (a : Answers) (d : VideoDevice) :
    (∃ e, prepareDevice a d = .error e) ↔ a.RefusesEarly d.iPixelFormat := by
  have hformat : enumFormats a.formats d.iPixelFormat = a.chosenFormat d.iPixelFormat :=
    enumFormats_eq a.formats d.iPixelFormat
  unfold prepareDevice Answers.RefusesEarly
  simp only [hformat]
  split_ifs with hcap hcapture hnone hset hreq
  · exact iff_of_true ⟨_, rfl⟩ (Or.inl hcap)
  · exact iff_of_true ⟨_, rfl⟩ (Or.inr (Or.inl hcapture))
  · exact iff_of_true ⟨_, rfl⟩ (Or.inr (Or.inr (Or.inl hnone)))
  · exact iff_of_true ⟨_, rfl⟩ (Or.inr (Or.inr (Or.inr (Or.inl hset))))
  · exact iff_of_true ⟨_, rfl⟩ (Or.inr (Or.inr (Or.inr (Or.inr hreq))))
  · refine iff_of_false ?_ (by simp_all)
    rintro ⟨e, he⟩
    cases he

/-- **Undoing a failed initialisation.**  The descriptor is always closed.  Nothing else is
held exactly when the failure came before the first buffer was mapped: a call up to
`VIDIOC_REQBUFS` was refused, or the first `VIDIOC_QUERYBUF` or the first `mmap`. -/
theorem failed_init_undone_iff {a : Answers} {opr : VideoOpr} {d d' : VideoDevice}
    (hopen : ¬ a.fd < 0) (hfail : v4l2InitDevice a opr d = .error d') :
    let held := replay {} (v4l2InitTraced a opr d).1
    Resource.fd a.fd ∉ held.live ∧
    (held.live = [] ↔ a.RefusesEarly d.iPixelFormat ∨ (a.querybuf 0).1 ≠ 0 ∨
      a.mmap 0 (a.querybuf 0).2.1 (a.querybuf 0).2.2 = none) := by
  intro held
  obtain ⟨addrs, hheld, hempty⟩ := failed_init_held hopen hfail
  rw [prepareDevice_error_iff] at hempty
  have hlive : held.live = (addrs.map Resource.mapping).reverse := congrArg Blocks.live hheld
  rw [hlive, ← hempty]
  constructor
  · simp
  · simp

/-- A streaming device with two buffers, of which `VIDIOC_QUERYBUF` may refuse some. -/
def twoBuffers (refuses : Nat → Bool) : Answers where
  fd := 3
  querycap := (0, V4L2_CAP_VIDEO_CAPTURE ||| V4L2_CAP_STREAMING)
  formats := [V4L2_PIX_FMT_YUYV.toUInt32]
  lcdWidth := 480
  lcdHeight := 272
  sFmt := fun _ _ _ => (0, 320, 240)
  reqbufs := fun _ => (0, 2)
  querybuf := fun i => (if refuses i then -1 else 0, 0x26000, 0x26000 * UInt32.ofNat i)
  mmap := fun i _ _ => some (0x40000000 + 0x26000 * i)
  qbuf := fun _ => 0
  malloc := fun _ => none

/-- A device structure as the application has it before the call. -/
def freshDevice : VideoDevice := ⟨0, 0, 0, 0, 0, 0, 0, fun _ => .null⟩

/-- A device that refuses the first buffer leaves nothing. -/
theorem first_buffer_refused :
    (replay {} (v4l2InitTraced (twoBuffers fun i => i = 0) g_tV4l2VideoOpr freshDevice).1).live =
      [] := by
  have hfail : ∃ d', v4l2InitDevice (twoBuffers fun i => i = 0) g_tV4l2VideoOpr freshDevice =
      .error d' := ⟨_, rfl⟩
  obtain ⟨d', hfail⟩ := hfail
  exact (failed_init_undone_iff (by decide) hfail).2.mpr (Or.inr (Or.inl (by decide)))

/-- A device that refuses the second buffer leaves the first one mapped. -/
theorem second_buffer_refused :
    (∃ d', v4l2InitDevice (twoBuffers fun i => i = 1) g_tV4l2VideoOpr freshDevice = .error d') ∧
      (replay {} (v4l2InitTraced (twoBuffers fun i => i = 1) g_tV4l2VideoOpr freshDevice).1).live =
        [.mapping 0x40000000] :=
  ⟨⟨_, rfl⟩, rfl⟩

/-- A video module: `InitDevice` for a device, with what it acquires and releases. -/
abbrev VideoModule := VideoDevice → List SysCall × Except VideoDevice Initialised

/-- `VideoDeviceInit`: the registered modules are tried in turn. -/
def videoDeviceInit : List VideoModule → VideoDevice → List SysCall × Option Initialised
  | [], _ => ([], none)
  | initDevice :: rest, d =>
      match initDevice d with
      | (calls, .ok r) => (calls, some r)
      | (calls, .error d) =>
          let (more, result) := videoDeviceInit rest d
          (calls ++ more, result)

end Video2lcd
