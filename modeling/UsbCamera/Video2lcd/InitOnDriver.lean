import UsbCamera.Video2lcd.InitUndo

/-!
# The initialisation on a driver with a state

`Answers` lists beforehand what the kernel says to each call of `V4l2InitDevice`.  A
driver of this repository does not answer from a list: it has a state, which every call
finds as the calls before it have left it.

Here the same function runs on such a driver (`initDeviceOn`), from `open` to the
`close` at `err_exit`.  The answers the driver gives on the way make up a record
(`recorded`), and on that record `v4l2InitDevice` returns the same
(`initDeviceOn_result`).  So what is proved for all records holds on every driver, and
what is proved of the driver's state behind the call is about the same function.
-/

namespace Video2lcd

variable {σ : Type}

def PROT_READ : UInt32 := 1

def PROT_WRITE : UInt32 := 2

/-- A driver as `V4l2InitDevice` calls it.  What a call returns is as in `Answers`;
the calls without a new state only read it. -/
structure DriverCalls (σ : Type) where
  openFile : σ → Int32 × σ
  querycap : σ → Int32 × UInt32
  formats : σ → List UInt32
  sFmt : Int32 → Int32 → Int32 → σ → (Int32 × UInt32 × UInt32) × σ
  reqbufs : UInt32 → σ → (Int32 × UInt32) × σ
  querybuf : Nat → σ → Int32 × UInt32 × UInt32
  -- protection, number of the buffer, length and offset
  mmap : UInt32 → Nat → UInt32 → UInt32 → σ → Option Nat × σ
  qbuf : Nat → σ → Int32 × σ
  closeFile : σ → σ

/-- What others than the driver tell `V4l2InitDevice`: `GetDispResolution` and
`malloc`. -/
structure Surroundings where
  lcdWidth : Int32
  lcdHeight : Int32
  malloc : Int32 → Option Nat

/-- The return value of `ioctl` in the application. -/
def ioctlResult (ret : Int) : Int32 := if ret < 0 then -1 else Int32.ofInt ret

/-- The formats of a driver by index, up to the first it refuses. -/
def enumerated (enumFmt : Nat → Except Int (BitVec 32)) : (fuel index : Nat) → List UInt32
  | 0, _ => []
  | fuel + 1, index =>
      match enumFmt index with
      | .error _ => []
      | .ok f => UInt32.ofBitVec f :: enumerated enumFmt fuel (index + 1)

/-! ## The function -/

/-- The loop that maps the buffers, from buffer `i` on. -/
def mapBuffersOn (calls : DriverCalls σ) (prot : UInt32) :
    (left i : Nat) → VideoDevice → σ → Except VideoDevice VideoDevice × σ
  | 0, _, d, s => (.ok d, s)
  | left + 1, i, d, s =>
      let (iError, length, offset) := calls.querybuf i s
      if iError ≠ 0 then (.error d, s)
      else
        let d := { d with iVideoBufMaxLen := length.toInt32 }
        match calls.mmap prot i length offset s with
        | (none, s) => (.error (d.setPucVideBuf i .mapFailed), s)
        | (some addr, s) =>
            mapBuffersOn calls prot left (i + 1) (d.setPucVideBuf i (.mapped addr)) s

/-- The loop that queues the buffers, from buffer `i` on. -/
def queueBuffersOn (calls : DriverCalls σ) : (left i : Nat) → σ → (Bool × List Nat) × σ
  | 0, _, s => ((true, []), s)
  | left + 1, i, s =>
      match calls.qbuf i s with
      | (iError, s) =>
          if iError ≠ 0 then ((false, []), s)
          else
            let ((done, queued), s) := queueBuffersOn calls left (i + 1) s
            ((done, i :: queued), s)

/-- From `VIDIOC_QUERYCAP` to `VIDIOC_REQBUFS`. -/
def prepareOn (calls : DriverCalls σ) (around : Surroundings) (d : VideoDevice) (s : σ) :
    Except VideoDevice VideoDevice × σ :=
  if (calls.querycap s).1 ≠ 0 then (.error d, s)
  else if (calls.querycap s).2 &&& V4L2_CAP_VIDEO_CAPTURE = 0 then (.error d, s)
  else
    let d := { d with iPixelFormat := enumFormats (calls.formats s) d.iPixelFormat }
    if d.iPixelFormat = 0 then (.error d, s)
    else
      match calls.sFmt d.iPixelFormat around.lcdWidth around.lcdHeight s with
      | ((iError, width, height), s) =>
          if iError ≠ 0 then (.error d, s)
          else
            let d := { d with iWidth := width.toInt32, iHeight := height.toInt32 }
            match calls.reqbufs NB_BUFFER s with
            | ((iError, count), s) =>
                if iError ≠ 0 then (.error d, s)
                else (.ok { d with iVideoBufCnt := count.toInt32 }, s)

/-- The part behind `VIDIOC_REQBUFS`, with the capabilities queried before. -/
def takeBuffersOn (calls : DriverCalls σ) (around : Surroundings) (prot : UInt32)
    (capabilities : UInt32) (opr : VideoOpr) (d : VideoDevice) (s : σ) :
    Except VideoDevice Initialised × σ :=
  let oprAt := NB_BUFFER.toNat
  if capabilities &&& V4L2_CAP_STREAMING ≠ 0 then
    let iVideoBufCnt := d.iVideoBufCnt.toInt.toNat
    match mapBuffersOn calls prot iVideoBufCnt 0 d s with
    | (.error d, s) => (.error d, s)
    | (.ok d, s) =>
        match queueBuffersOn calls iVideoBufCnt 0 s with
        | ((false, _), s) => (.error d, s)
        | ((true, queued), s) => (.ok ⟨d.setPucVideBuf oprAt .opr, opr, queued⟩, s)
  else if capabilities &&& V4L2_CAP_READWRITE ≠ 0 then
    let d := { d with iVideoBufCnt := 1, iVideoBufMaxLen := d.iWidth * d.iHeight * 4 }
    let buf := match around.malloc d.iVideoBufMaxLen with
      | none => .null
      | some addr => .malloced addr
    (.ok ⟨(d.setPucVideBuf 0 buf).setPucVideBuf oprAt .opr, ⟨.readWrite, .readWrite⟩, []⟩, s)
  else (.ok ⟨d.setPucVideBuf oprAt .opr, opr, []⟩, s)

/-- `V4l2InitDevice`, whose mappings have the protection `prot`: `PROT_READ` in the
source. -/
def initDeviceOn (calls : DriverCalls σ) (around : Surroundings) (prot : UInt32)
    (opr : VideoOpr) (d : VideoDevice) (s : σ) : Except VideoDevice Initialised × σ :=
  match calls.openFile s with
  | (iFd, s) =>
      if iFd < 0 then (.error d, s)
      else
        let capabilities := (calls.querycap s).2
        match prepareOn calls around { d with iFd := iFd } s with
        -- `err_exit`
        | (.error d, s) => (.error d, calls.closeFile s)
        | (.ok d, s) =>
            match takeBuffersOn calls around prot capabilities opr d s with
            | (.error d, s) => (.error d, calls.closeFile s)
            | (.ok r, s) => (.ok r, s)

/-! ## The answers of a run -/

/-- The state that the mapping loop finds at buffer `i`, begun in `s`. -/
def mapState (calls : DriverCalls σ) (prot : UInt32) (s : σ) : Nat → σ
  | 0 => s
  | i + 1 =>
      let t := mapState calls prot s i
      (calls.mmap prot i (calls.querybuf i t).2.1 (calls.querybuf i t).2.2 t).2

/-- The state that the queueing loop finds at buffer `i`, begun in `s`. -/
def queueState (calls : DriverCalls σ) (s : σ) : Nat → σ
  | 0 => s
  | i + 1 => (calls.qbuf i (queueState calls s i)).2

/-- The state in which the driver is asked for buffers. -/
def formatState (calls : DriverCalls σ) (around : Surroundings) (d : VideoDevice) (s : σ) : σ :=
  let opened := (calls.openFile s).2
  (calls.sFmt (enumFormats (calls.formats opened) d.iPixelFormat) around.lcdWidth
    around.lcdHeight opened).2

/-- How many buffers the driver gives. -/
def givenCount (calls : DriverCalls σ) (around : Surroundings) (d : VideoDevice) (s : σ) : Int32 :=
  (calls.reqbufs NB_BUFFER (formatState calls around d s)).1.2.toInt32

/-- The state in which the driver has given them. -/
def givenState (calls : DriverCalls σ) (around : Surroundings) (d : VideoDevice) (s : σ) : σ :=
  (calls.reqbufs NB_BUFFER (formatState calls around d s)).2

/-- What the driver answers when `V4l2InitDevice` makes its calls in turn. -/
def recorded (calls : DriverCalls σ) (around : Surroundings) (prot : UInt32) (d : VideoDevice)
    (s : σ) : Answers :=
  let opened := (calls.openFile s).2
  let atMap := mapState calls prot (givenState calls around d s)
  let atQueue := queueState calls (atMap (givenCount calls around d s).toInt.toNat)
  { fd := (calls.openFile s).1
    querycap := calls.querycap opened
    formats := calls.formats opened
    lcdWidth := around.lcdWidth
    lcdHeight := around.lcdHeight
    sFmt := fun f w h => (calls.sFmt f w h opened).1
    reqbufs := fun n => (calls.reqbufs n (formatState calls around d s)).1
    querybuf := fun i => calls.querybuf i (atMap i)
    mmap := fun i length offset => (calls.mmap prot i length offset (atMap i)).1
    qbuf := fun i => (calls.qbuf i (atQueue i)).1
    malloc := around.malloc }

section Loops

variable {calls : DriverCalls σ} {prot : UInt32} {a : Answers} {s : σ}

/-- The mapping loop goes through the states of `mapState`. -/
theorem mapBuffersOn_eq
    (hquery : ∀ i, a.querybuf i = calls.querybuf i (mapState calls prot s i))
    (hmmap : ∀ i length offset,
      a.mmap i length offset = (calls.mmap prot i length offset (mapState calls prot s i)).1)
    (left i : Nat) (d : VideoDevice) :
    (mapBuffersOn calls prot left i d (mapState calls prot s i)).1 = mapBuffers a left i d ∧
    ∀ d', mapBuffers a left i d = .ok d' →
      (mapBuffersOn calls prot left i d (mapState calls prot s i)).2 =
        mapState calls prot s (i + left) := by
  induction left generalizing i d with
  | zero => exact ⟨rfl, fun d' _ => rfl⟩
  | succ left ih =>
      have hnext : (calls.mmap prot i (a.querybuf i).2.1 (a.querybuf i).2.2
          (mapState calls prot s i)).2 = mapState calls prot s (i + 1) := by
        rw [hquery]
        rfl
      simp only [mapBuffersOn, mapBuffers, ← hquery, hmmap]
      split
      · exact ⟨rfl, fun d' h => by cases h⟩
      · rcases hreply : calls.mmap prot i (a.querybuf i).2.1 (a.querybuf i).2.2
            (mapState calls prot s i) with ⟨_ | addr, t⟩
        · exact ⟨rfl, fun d' h => by cases h⟩
        · rw [hreply] at hnext
          obtain rfl : t = mapState calls prot s (i + 1) := hnext
          rw [show i + (left + 1) = i + 1 + left by omega]
          exact ih (i + 1) _

/-- The queueing loop goes through the states of `queueState`. -/
theorem queueBuffersOn_eq (hqbuf : ∀ i, a.qbuf i = (calls.qbuf i (queueState calls s i)).1)
    (left i : Nat) :
    (queueBuffersOn calls left i (queueState calls s i)).1 = queueBuffers a left i := by
  induction left generalizing i with
  | zero => rfl
  | succ left ih =>
      simp only [queueBuffersOn, queueBuffers, hqbuf]
      split
      · rfl
      · have hrest := ih (i + 1)
        have hnext : (calls.qbuf i (queueState calls s i)).2 = queueState calls s (i + 1) := rfl
        simp only [hnext]
        rw [← hrest]

end Loops

section Run

variable (calls : DriverCalls σ) (around : Surroundings) (prot : UInt32)

/-- The preparation, on the answers of its run. -/
theorem prepareOn_eq (d : VideoDevice) (s : σ) :
    let a := recorded calls around prot d s
    let opened := { d with iFd := a.fd }
    (prepareOn calls around opened (calls.openFile s).2).1 = prepareDevice a opened ∧
    ∀ d', prepareDevice a opened = .ok d' →
      (prepareOn calls around opened (calls.openFile s).2).2 = givenState calls around d s ∧
        d'.iVideoBufCnt = givenCount calls around d s := by
  intro a opened
  unfold prepareOn prepareDevice
  simp only [a, opened, recorded, givenState, givenCount, formatState]
  split_ifs
  all_goals
    refine ⟨rfl, fun d' h => ?_⟩
    cases h
  exact ⟨rfl, rfl⟩

/-- Taking the buffers, on the answers of its run. -/
theorem takeBuffersOn_eq (opr : VideoOpr) {d d₀ : VideoDevice} (s : σ)
    (hcount : d.iVideoBufCnt = givenCount calls around d₀ s) :
    (takeBuffersOn calls around prot (recorded calls around prot d₀ s).querycap.2 opr d
      (givenState calls around d₀ s)).1 = takeBuffers (recorded calls around prot d₀ s) opr d := by
  by_cases hstreams : (recorded calls around prot d₀ s).querycap.2 &&& V4L2_CAP_STREAMING ≠ 0
  · obtain ⟨hmap, hstate⟩ := mapBuffersOn_eq (a := recorded calls around prot d₀ s)
      (s := givenState calls around d₀ s) (fun _ => rfl) (fun _ _ _ => rfl)
      d.iVideoBufCnt.toInt.toNat 0 d
    have hqueue := queueBuffersOn_eq (a := recorded calls around prot d₀ s)
      (fun _ => rfl) d.iVideoBufCnt.toInt.toNat 0
    rw [Nat.zero_add] at hstate
    rw [← hcount] at hqueue
    simp only [takeBuffersOn, takeBuffers, if_pos hstreams]
    rw [← hmap]
    rw [← hmap] at hstate
    rcases hloop : mapBuffersOn calls prot d.iVideoBufCnt.toInt.toNat 0 d
      (givenState calls around d₀ s) with ⟨_ | d', t⟩
    · simp only [mapState, hloop]
    · obtain rfl : t = mapState calls prot (givenState calls around d₀ s)
          d.iVideoBufCnt.toInt.toNat := by
        simp only [mapState, hloop] at hstate
        exact hstate d' rfl
      simp only [mapState, hloop]
      rw [← hqueue]
      simp only [queueState]
      rcases queueBuffersOn calls _ 0 _ with ⟨⟨_ | _, queued⟩, u⟩ <;> rfl
  · simp only [takeBuffersOn, takeBuffers, if_neg hstreams]
    split_ifs <;> rfl

/-- **One function on either side.**  On a driver with a state, `V4l2InitDevice` returns
what it returns on the record of the driver's answers. -/
theorem initDeviceOn_result (opr : VideoOpr) (d : VideoDevice) (s : σ) :
    (initDeviceOn calls around prot opr d s).1 =
      v4l2InitDevice (recorded calls around prot d s) opr d := by
  obtain ⟨hprepare, hprepared⟩ := prepareOn_eq calls around prot d s
  rw [v4l2InitDevice_eq, ← hprepare]
  rw [← hprepare] at hprepared
  have hopen : initDeviceOn calls around prot opr d s =
      if (recorded calls around prot d s).fd < 0 then (.error d, (calls.openFile s).2)
      else
        match prepareOn calls around { d with iFd := (recorded calls around prot d s).fd }
          (calls.openFile s).2 with
        | (.error d, s) => (.error d, calls.closeFile s)
        | (.ok d', t) =>
            match takeBuffersOn calls around prot (recorded calls around prot d s).querycap.2 opr d'
              t with
            | (.error d, s) => (.error d, calls.closeFile s)
            | (.ok r, s) => (.ok r, s) := rfl
  rw [hopen]
  split
  · rfl
  · rcases hloop : prepareOn calls around { d with iFd := (recorded calls around prot d s).fd }
      (calls.openFile s).2 with ⟨_ | d', t⟩
    · rfl
    · rw [hloop] at hprepared
      obtain ⟨rfl, hcount⟩ := hprepared d' rfl
      have htake := takeBuffersOn_eq calls around prot opr s hcount
      simp only
      rw [← htake]
      rcases takeBuffersOn calls around prot _ opr d' _ with ⟨_ | r, u⟩ <;> rfl

end Run

end Video2lcd
