import UsbCamera.Myuvc.Requests
import UsbCamera.Video2lcd.FrameLoop
import UsbCamera.Video2lcd.InitOnDriver

/-!
# The application on the UVC driver

`V4l2InitDevice` never gets as far as the buffers of `myuvc`: the driver answers
`VIDIOC_REQBUFS` with their number, and the application takes that for an error
(`initOnUvc_fails`).  What it does behind that call suits the driver all the same.  The
mapping loop sets `pucVideBuf[i]` to a mapping of buffer `i`, with all pages of its slot,
and then the buffers are queued in turn (`takeBuffersOn_uvc`).

A process sees the driver's frame memory through its mappings only.  A mapping is a list of
pages, as `vm_insert_page` has put them there, and a pointer to it is its number among the
mappings of the process.  `view` is what a pointer leads to: nothing, if it is no mapping.
-/

namespace Myuvc

/-- `myuvc_vidioc_querycap`: the return value and the capabilities,
`V4L2_CAP_VIDEO_CAPTURE | V4L2_CAP_STREAMING`. -/
def vidiocQuerycap : Int × BitVec 32 := (0, 0x00000001#32 ||| 0x04000000#32)

/-- `myuvc_vidioc_enum_fmt_vid_cap`. -/
def vidiocEnumFmtVidCap (index : Nat) : Except Int (BitVec 32) :=
  if index ≥ 1 then .error (-EINVAL) else .ok (BitVec.ofNat 32 V4L2_PIX_FMT_MJPEG)

/-- A page loop that does not fail has inserted all its pages. -/
theorem insertPages_of_nonneg {insert : Nat → Int} {left p : Nat}
    (h : 0 ≤ (insertPages insert left p).1) :
    insertPages insert left p = (0, List.range' p left) := by
  induction left generalizing p with
  | zero => rfl
  | succ left ih =>
      rw [insertPages] at h ⊢
      split at h
      · rename_i hneg
        exact absurd h (by omega)
      · rename_i hins
        rw [if_neg hins, ih h, List.range'_succ]

/-- What a mapping of a slot can come to: nothing, or all pages of the slot. -/
theorem Slots.mmap_cases {d : Driver} {n i : Nat} (h : Slots d n) (hi : i < n)
    (insert : Nat → Int) :
    (∃ r ps, r < 0 ∧ mmap d (19 * i) slotSize insert = (.pages r ps, d)) ∨
    mmap d (19 * i) slotSize insert =
      (.pages 0 (List.range' (19 * i) 19), addVmaUse d i 1) := by
  have hpages : slotSize / PAGE_SIZE = 19 := rfl
  rw [mmap, h.find hi]
  simp only [h.bufSize (Nat.zero_lt_of_lt hi), h.firstPage hi, ne_eq, not_true_eq_false, if_false,
    hpages]
  by_cases hneg : (insertPages insert 19 (19 * i)).1 < 0
  · rw [if_pos hneg]
    exact Or.inl ⟨_, _, hneg, rfl⟩
  · rw [if_neg hneg, insertPages_of_nonneg (Int.not_lt.mp hneg)]
    exact Or.inr rfl

/-- A request for some buffers is answered with their number, or refused. -/
theorem vidiocReqbufs_ret {d d' : Driver} {count : UInt32} {alloc : Nat → Option (Nat → UInt8)}
    {r : Reply} (hcount : count ≠ 0) (h : vidiocReqbufs d count alloc = .ok (r, d')) :
    (∃ n : Nat, r = .ret n ∧ 0 < n ∧ n ≤ BUFFERS) ∨ r = .ret (-ENOMEM) := by
  unfold vidiocReqbufs at h
  simp only [if_neg hcount] at h
  split at h
  · cases h
    exact Or.inr rfl
  · rename_i n mem hsome
    split at h
    · cases h
    · rename_i hle
      cases h
      split at hsome
      · exact Or.inl ⟨n, rfl, (allocLoop_some hsome).1, Nat.not_lt.mp hle⟩
      · cases hsome

end Myuvc

namespace Video2lcd

open FaultRun Myuvc

/-- What the rest of the kernel decides: the file descriptor, the answers of `vmalloc_32`,
and those of `vm_insert_page` for each buffer. -/
structure UvcKernel where
  fd : Int32
  alloc : Nat → Option (Nat → UInt8)
  insert : Nat → Nat → Int

/-- The driver and the mappings of the process that uses it.  A fault in the driver stops
it for good. -/
structure Process where
  machine : Except Fault Machine
  -- the pages of the frame memory behind each mapping
  mappings : List (List Nat)

/-- A call into the driver.  There is no reply from a driver that has stopped. -/
def Process.call (v : Version) (p : Process) (c : Call) : Option Reply × Process :=
  match p.machine with
  | .error _ => (none, p)
  | .ok m =>
      match step v m (.call c) with
      | .error f => (none, { p with machine := .error f })
      | .ok (r, m) => (some r, { p with machine := .ok m })

/-- The return value of `ioctl` for a reply. -/
def replyResult : Option Reply → Int32
  | some (.ret r) => ioctlResult r
  | some (.format r _) => ioctlResult r
  | some (.buffer _) => 0
  | _ => -1

/-- The pages that a successful `mmap` has inserted. -/
def replyPages : Option Reply → Option (List Nat)
  | some (.pages r ps) => if r = 0 then some ps else none
  | _ => none

/-- The format `V4l2InitDevice` asks the driver for; its field is `V4L2_FIELD_ANY`. -/
def askedOfUvc (iPixelFormat iWidth iHeight : Int32) : V4l2Format :=
  { type := .videoCapture
    pix :=
      { width := iWidth.toUInt32.toNat
        height := iHeight.toUInt32.toNat
        pixelformat := iPixelFormat.toUInt32.toNat
        field := .other 0
        bytesperline := 0
        sizeimage := 0
        colorspace := .other 0
        priv := 0 } }

/-- The UVC driver as the application calls it.  The kernel rounds the length of a mapping
up to whole pages before the driver sees it. -/
def uvcCalls (v : Version) (k : UvcKernel) : DriverCalls Process where
  openFile := fun p => if k.fd < 0 then (k.fd, p) else (k.fd, (p.call v .openDev).2)
  querycap := fun _ => (ioctlResult vidiocQuerycap.1, UInt32.ofBitVec vidiocQuerycap.2)
  -- index 1 is refused, so two rounds see all there are
  formats := fun _ => enumerated vidiocEnumFmtVidCap 2 0
  sFmt := fun iPixelFormat iWidth iHeight p =>
    match p.call v (.sFmt (askedOfUvc iPixelFormat iWidth iHeight)) with
    | (some (.format r f), p) =>
        ((ioctlResult r, UInt32.ofNat f.pix.width, UInt32.ofNat f.pix.height), p)
    | (_, p) => ((-1, iWidth.toUInt32, iHeight.toUInt32), p)
  -- the driver does not write to the request
  reqbufs := fun count p =>
    match p.call v (.reqbufs count k.alloc) with
    | (r, p) => ((replyResult r, count), p)
  querybuf := fun i p =>
    match (p.call v (.querybuf i)).1 with
    | some (.buffer b) => (0, UInt32.ofNat b.length, UInt32.ofNat b.offset)
    | _ => (-1, 0, 0)
  mmap := fun _ i length offset p =>
    match p.call v
        (.mmap (offset.toNat / PAGE_SIZE) (Myuvc.pageAlign length.toNat) (k.insert i)) with
    | (r, p) =>
        match replyPages r with
        | none => (none, p)
        | some ps => (some p.mappings.length, { p with mappings := p.mappings ++ [ps] })
  qbuf := fun i p =>
    match p.call v (.qbuf (queueRequest i)) with
    | (r, p) => (replyResult r, p)
  closeFile := fun p => (p.call v .close).2

/-- What the process sees behind a pointer. -/
def view (mappings : List (List Nat)) (d : Driver) : Ptr → Option (Nat → UInt8)
  | .mapped k =>
      mappings[k]?.map fun pages x =>
        d.frame (pages.getD (x / PAGE_SIZE) 0 * PAGE_SIZE + x % PAGE_SIZE)
  | _ => none

section

variable {v : Version} {k : UvcKernel}

/-- A call that is answered is a step of the driver. -/
theorem Process.call_some {m : Machine} {mappings : List (List Nat)} {c : Call} {r : Reply}
    {p : Process} (h : Process.call v ⟨.ok m, mappings⟩ c = (some r, p)) :
    ∃ m', step v m (.call c) = .ok (r, m') ∧ p = ⟨.ok m', mappings⟩ := by
  simp only [Process.call] at h
  split at h
  · cases h
  · rename_i r' m' hstep
    cases h
    exact ⟨m', hstep, rfl⟩

/-! ## The whole function -/

theorem ioctlResult_of_pos {n : Nat} (hpos : 0 < n) (hle : n ≤ BUFFERS) :
    ioctlResult n ≠ 0 := by
  have hall : ∀ n ≤ 32, 0 < n → ioctlResult (n : Nat) ≠ 0 := by decide
  exact hall n hle hpos

/-- A request for buffers never looks like a success. -/
theorem uvcCalls_reqbufs (p : Process) : ((uvcCalls v k).reqbufs NB_BUFFER p).1.1 ≠ 0 := by
  obtain ⟨machine, mappings⟩ := p
  show replyResult (Process.call v ⟨machine, mappings⟩ (.reqbufs NB_BUFFER k.alloc)).1 ≠ 0
  rcases hreply : Process.call v ⟨machine, mappings⟩ (.reqbufs NB_BUFFER k.alloc) with
    ⟨_ | r, p'⟩
  · exact (by decide : (-1 : Int32) ≠ 0)
  · cases machine with
    | error f => cases hreply
    | ok m =>
        obtain ⟨m', hstep, -⟩ := Process.call_some hreply
        obtain ⟨d', -, -, hcall⟩ := step_call hstep
        have hreq : vidiocReqbufs m.drv NB_BUFFER k.alloc = .ok (r, d') := hcall
        rcases vidiocReqbufs_ret (by decide) hreq with ⟨n, rfl, hpos, hle⟩ | rfl
        · exact ioctlResult_of_pos hpos hle
        · exact (by decide : (-1 : Int32) ≠ 0)

/-- **`V4l2InitDevice` always fails on this driver**, whatever state the driver is in. -/
theorem initOnUvc_fails (around : Surroundings) (prot : UInt32) (opr : VideoOpr) (d : VideoDevice)
    (p : Process) : ∃ d', (initDeviceOn (uvcCalls v k) around prot opr d p).1 = .error d' := by
  have hprepare : ∀ d p, ∃ d' p', prepareOn (uvcCalls v k) around d p = (.error d', p') := by
    intro d p
    unfold prepareOn
    split
    · exact ⟨_, _, rfl⟩
    split
    · exact ⟨_, _, rfl⟩
    simp only
    split
    · exact ⟨_, _, rfl⟩
    split
    · exact ⟨_, _, rfl⟩
    rw [if_pos (uvcCalls_reqbufs _)]
    exact ⟨_, _, rfl⟩
  unfold initDeviceOn
  simp only
  split
  · exact ⟨_, rfl⟩
  · obtain ⟨d', p', herror⟩ := hprepare { d with iFd := ((uvcCalls v k).openFile p).1 }
      ((uvcCalls v k).openFile p).2
    rw [herror]
    exact ⟨_, rfl⟩

/-! ## Behind the request -/

/-- What the application is told about a buffer. -/
theorem uvcCalls_querybuf {m : Machine} {mappings : List (List Nat)} {n i : Nat}
    (hslots : Slots m.drv n) (hmax : n ≤ BUFFERS) (hi : i < n)
    (h : ((uvcCalls v k).querybuf i ⟨.ok m, mappings⟩).1 = 0) :
    (∃ b, step v m (.call (.querybuf i)) = .ok (.buffer b, m)) ∧
      ∃ offset : UInt32, offset.toNat = i * slotSize ∧
        (uvcCalls v k).querybuf i ⟨.ok m, mappings⟩ =
          (0, UInt32.ofNat dwMaxVideoFrameSize, offset) := by
  obtain ⟨b, hquery, hoffset, hlength⟩ := hslots.querybuf hi
  have hBUFFERS : BUFFERS = 32 := rfl
  have hslot : slotSize = 77824 := rfl
  cases hirq : m.irq with
  | some handler =>
      -- the driver is in its handler
      have hturn : step v m (.call (.querybuf i)) = .error .outOfTurn := by simp [step, hirq]
      simp only [uvcCalls, Process.call, hturn] at h
      exact absurd h (by decide)
  | none =>
      have hm : (⟨m.drv, none⟩ : Machine) = m := by rw [← hirq]
      have hstep : step v m (.call (.querybuf i)) = .ok (.buffer b, m) := by
        have hcall : call m.drv (.querybuf i) = .ok (.buffer b, m.drv) := by rw [call, hquery]
        rw [step_of_call v hirq hcall, hm]
      refine ⟨⟨b, hstep⟩, UInt32.ofNat b.offset, ?_, ?_⟩
      · rw [hoffset]
        exact UInt32.toNat_ofNat_of_lt' (show i * slotSize < 2 ^ 32 by rw [hslot]; omega)
      · simp only [uvcCalls, Process.call, hstep, hlength]

/-- **One mapping.**  Where `mmap` succeeds, the process has a new mapping, of the pages of
the buffer's slot. -/
theorem uvcCalls_mmap {m : Machine} {mappings : List (List Nat)} {n i addr : Nat} {prot : UInt32}
    {offset : UInt32} {p : Process} (hslots : Slots m.drv n) (hi : i < n)
    (hoffset : offset.toNat = i * slotSize)
    (h : (uvcCalls v k).mmap prot i (UInt32.ofNat dwMaxVideoFrameSize) offset ⟨.ok m, mappings⟩ =
      (some addr, p)) :
    ∃ m', step v m (.call (.mmap (19 * i) slotSize (k.insert i))) =
        .ok (.pages 0 (List.range' (19 * i) 19), m') ∧
      Slots m'.drv n ∧ addr = mappings.length ∧
      p = ⟨.ok m', mappings ++ [List.range' (19 * i) 19]⟩ := by
  have hsize : Myuvc.pageAlign (UInt32.ofNat dwMaxVideoFrameSize).toNat = slotSize := rfl
  simp only [uvcCalls, hoffset, slot_div_page, hsize] at h
  rcases hreply : Process.call v ⟨.ok m, mappings⟩ (.mmap (19 * i) slotSize (k.insert i)) with
    ⟨_ | r, q⟩
  · rw [hreply] at h
    cases h
  · rw [hreply] at h
    obtain ⟨m', hstep, rfl⟩ := Process.call_some hreply
    obtain ⟨d', rfl, hirq, hcall⟩ := step_call hstep
    have hmmap : mmap m.drv (19 * i) slotSize (k.insert i) = (r, d') := Except.ok.inj hcall
    rcases hslots.mmap_cases hi (k.insert i) with ⟨code, ps, hneg, hrefused⟩ | hmapped
    · obtain ⟨rfl, -⟩ := Prod.mk.inj (hmmap.symm.trans hrefused)
      simp only [replyPages, if_neg (Int.ne_of_lt hneg)] at h
      cases h
    · obtain ⟨rfl, -⟩ := Prod.mk.inj (hmmap.symm.trans hmapped)
      simp only [replyPages, if_true] at h
      cases h
      exact ⟨⟨d', none⟩, hstep,
        hslots.kept (step_sameShape (cursorOk_of_none hirq) id hstep), rfl, rfl⟩

/-- The pointer of a buffer leads to a mapping of all its pages. -/
def MapsSlot (bufs : Nat → Ptr) (mappings : List (List Nat)) (i : Nat) : Prop :=
  ∃ addr, bufs i = .mapped addr ∧ mappings[addr]? = some (List.range' (19 * i) 19)

/-- A later mapping does not change the earlier ones. -/
theorem MapsSlot.mono {bufs : Nat → Ptr} {mappings later : List (List Nat)} {i : Nat}
    (h : MapsSlot bufs mappings i) (hle : mappings <+: later) : MapsSlot bufs later i := by
  obtain ⟨addr, hptr, hat⟩ := h
  obtain ⟨rest, rfl⟩ := hle
  have hlt := (List.getElem?_eq_some_iff.mp hat).1
  exact ⟨addr, hptr, (List.getElem?_append_left hlt).trans hat⟩

/-- **The mapping loop** on the driver. -/
theorem mapBuffersOn_uvc {prot : UInt32} {n : Nat} (hmax : n ≤ BUFFERS) {left i : Nat}
    (hleft : i + left ≤ n) {m : Machine} {mappings : List (List Nat)} {d d' : VideoDevice}
    {p : Process} (hslots : Slots m.drv n)
    (h : mapBuffersOn (uvcCalls v k) prot left i d ⟨.ok m, mappings⟩ = (.ok d', p)) :
    ∃ (maps : List Call) (es : Log), (∀ c ∈ maps, mapsBuffer c) ∧
      es.map Entry.input = maps.map Input.call ∧ IsRun (step v) m es ∧
      p.machine = .ok (lastState m es) ∧ mappings <+: p.mappings ∧
      (∀ j < i, d'.pucVideBuf j = d.pucVideBuf j) ∧
      ∀ j, i ≤ j → j < i + left → MapsSlot d'.pucVideBuf p.mappings j := by
  induction left generalizing i m mappings d with
  | zero =>
      cases h
      exact ⟨[], [], by simp, rfl, trivial, rfl, List.prefix_rfl, fun _ _ => rfl,
        fun j hle hlt => absurd hlt (by omega)⟩
  | succ left ih =>
      have hi : i < n := by omega
      rcases htold : (uvcCalls v k).querybuf i ⟨.ok m, mappings⟩ with ⟨iError, length, offset⟩
      simp only [mapBuffersOn, htold] at h
      split at h
      · cases h
      · rename_i hanswered
        have hzero : ((uvcCalls v k).querybuf i ⟨.ok m, mappings⟩).1 = 0 := by
          rw [htold]
          exact not_not.mp hanswered
        obtain ⟨⟨b, hquery⟩, offset, hoffset, hreply⟩ := uvcCalls_querybuf hslots hmax hi hzero
        cases htold.symm.trans hreply
        split at h
        · cases h
        · rename_i addr q hmmap
          obtain ⟨m', hstep, hslots', rfl, rfl⟩ := uvcCalls_mmap hslots hi hoffset hmmap
          obtain ⟨maps, es, hmaps, hin, hrun, hmachine, hle, hbefore, hlater⟩ :=
            ih (by omega) hslots' h
          refine ⟨.querybuf i :: .mmap (19 * i) slotSize (k.insert i) :: maps,
            ⟨.call (.querybuf i), .buffer b, m⟩ ::
              ⟨.call (.mmap (19 * i) slotSize (k.insert i)),
                .pages 0 (List.range' (19 * i) 19), m'⟩ :: es, ?_, ?_, ⟨hquery, hstep, hrun⟩,
            hmachine, (List.prefix_append _ _).trans hle, fun j hj => ?_, fun j hij hj => ?_⟩
          · intro c hc
            rcases List.mem_cons.mp hc with rfl | hc
            · trivial
            rcases List.mem_cons.mp hc with rfl | hc
            · trivial
            · exact hmaps c hc
          · simp [hin]
          · have hne : j ≠ i := by omega
            rw [hbefore j (by omega)]
            simp [VideoDevice.setPucVideBuf, hne]
          · rcases Nat.eq_or_lt_of_le hij with rfl | hgt
            · refine MapsSlot.mono ⟨mappings.length, ?_, ?_⟩ hle
              · rw [hbefore i (by omega)]
                simp [VideoDevice.setPucVideBuf]
              · simp
            · exact hlater j hgt (by omega)

/-- **The queueing loop** on the driver. -/
theorem queueBuffersOn_uvc {left i : Nat} {m : Machine} {mappings : List (List Nat)}
    {queued : List Nat} {p : Process}
    (h : queueBuffersOn (uvcCalls v k) left i ⟨.ok m, mappings⟩ = ((true, queued), p)) :
    ∃ es : Log, es.map Entry.input =
        ((List.range' i left).map fun j => .call (.qbuf (queueRequest j))) ∧
      IsRun (step v) m es ∧ p = ⟨.ok (lastState m es), mappings⟩ := by
  induction left generalizing i m queued with
  | zero =>
      cases h
      exact ⟨[], rfl, trivial, rfl⟩
  | succ left ih =>
      simp only [queueBuffersOn, uvcCalls] at h
      rcases hreply : Process.call v ⟨.ok m, mappings⟩ (.qbuf (queueRequest i)) with ⟨_ | r, q⟩
      · simp only [hreply] at h
        rw [if_pos (by decide)] at h
        cases h
      · obtain ⟨m', hstep, rfl⟩ := Process.call_some hreply
        simp only [hreply] at h
        split at h
        · cases h
        · rcases hrest : queueBuffersOn (uvcCalls v k) left (i + 1) ⟨.ok m', mappings⟩ with
            ⟨⟨done, later⟩, q⟩
          have hend : ((done, i :: later), q) = ((true, queued), p) := by
            rw [← h, ← uvcCalls, hrest]
          cases hend
          obtain ⟨es, hin, hrun, rfl⟩ := ih hrest
          exact ⟨⟨.call (.qbuf (queueRequest i)), r, m'⟩ :: es, by simp [hin, List.range'_succ],
            ⟨hstep, hrun⟩, rfl⟩

/-- **Behind the request.**  Where the rest of `V4l2InitDevice` succeeds with the `n` buffers
of the driver, the driver has been asked about them, has mapped them and has queued them in
turn, and every `pucVideBuf[i]` leads to a mapping of buffer `i`. -/
theorem takeBuffersOn_uvc {around : Surroundings} {prot : UInt32} {opr : VideoOpr} {n : Nat}
    (hmax : n ≤ NB_BUFFER.toNat) {m : Machine} {mappings : List (List Nat)} {d : VideoDevice}
    {r : Initialised} {p : Process} (hslots : Slots m.drv n) (hcount : d.iVideoBufCnt.toInt = n)
    (h : takeBuffersOn (uvcCalls v k) around prot (UInt32.ofBitVec vidiocQuerycap.2) opr d
      ⟨.ok m, mappings⟩ = (.ok r, p)) :
    ∃ (maps : List Call) (es : Log), (∀ c ∈ maps, mapsBuffer c) ∧
      es.map Entry.input = maps.map Input.call ++
        ((List.range n).map fun i => .call (.qbuf (queueRequest i))) ∧
      IsRun (step v) m es ∧ p.machine = .ok (lastState m es) ∧
      ∀ i < n, MapsSlot r.device.pucVideBuf p.mappings i := by
  have hstreams : UInt32.ofBitVec vidiocQuerycap.2 &&& V4L2_CAP_STREAMING ≠ 0 := by decide
  have hfour : NB_BUFFER.toNat = 4 := rfl
  have hBUFFERS : BUFFERS = 32 := rfl
  have hrounds : d.iVideoBufCnt.toInt.toNat = n := by omega
  simp only [takeBuffersOn, if_pos hstreams, hrounds] at h
  split at h
  · cases h
  · rename_i d' q hmap
    obtain ⟨maps, es, hmaps, hin, hrun, hmachine, hle, -, hslot⟩ :=
      mapBuffersOn_uvc (by omega) (by omega) hslots hmap
    obtain ⟨machine, later⟩ := q
    obtain rfl : machine = .ok (lastState m es) := hmachine
    split at h
    · cases h
    · rename_i queued q hqueue
      cases h
      obtain ⟨es', hin', hrun', rfl⟩ := queueBuffersOn_uvc hqueue
      refine ⟨maps, es ++ es', hmaps, ?_, isRun_append.mpr ⟨hrun, hrun'⟩, ?_, fun i hi => ?_⟩
      · rw [List.map_append, hin, hin', List.range_eq_range']
      · rw [lastState_append]
      · obtain ⟨addr, hptr, hat⟩ := hslot i (Nat.zero_le i) (by omega)
        have hne : i ≠ NB_BUFFER.toNat := by omega
        refine ⟨addr, ?_, hat⟩
        simpa [VideoDevice.setPucVideBuf, hne] using hptr

end

/-- **What the process sees** through the pointer of a buffer are the bytes of its slot. -/
theorem MapsSlot.view_eq {bufs : Nat → Ptr} {mappings : List (List Nat)} {i n : Nat} {d : Driver}
    (h : MapsSlot bufs mappings i) (hslots : Slots d n) (hi : i < n) :
    ∃ bytes, view mappings d (bufs i) = some bytes ∧
      ∀ x < slotSize, bytes x = d.frame ((d.queue.buffer i).buf.offset + x) := by
  obtain ⟨addr, hptr, hat⟩ := h
  have hslot : slotSize = 77824 := rfl
  rw [hptr, view, hat]
  refine ⟨_, rfl, fun x hx => congrArg d.frame ?_⟩
  have hpage : x / PAGE_SIZE < 19 := by
    rw [PAGE_SIZE]
    omega
  have hthere : (List.range' (19 * i) 19)[x / PAGE_SIZE]? = some (19 * i + x / PAGE_SIZE) := by
    rw [List.getElem?_range' hpage, Nat.one_mul]
  rw [List.getD_eq_getElem?_getD, hthere, Option.getD_some, hslots.offset i hi, hslot, PAGE_SIZE]
  omega

end Video2lcd
