import UsbCamera.Base.Run
import UsbCamera.Video2lcd.InitDevice

/-!
# Several devices and one table

A device that can only be read is fetched from with `read`, the others by
streaming.  `V4l2InitDevice` notes the choice in `g_tV4l2VideoOpr`, of which there
is one for all devices, and nothing ever sets it back.

`Cameras` is the table with any number of devices; of each that is open it keeps
what its driver had answered and which buffers it was given.  `access_method_iff`
says when every device keeps to its own method: a streaming device is served as
long as no device before, its own or another, was one that can only be read; and
on closing, where everything goes to `munmap` with the length of the last buffer, only
if its buffers came from `mmap`, have that many pages each, and did not run into the
pointer to the table.
-/

namespace Video2lcd

open FaultRun

/-- How a buffer is given back.  `munmap` takes whole pages away. -/
inductive Release
  | munmap (p : Ptr) (pages : Nat)
  | free (p : Ptr)
deriving DecidableEq, Repr

/-- The pages that a length of bytes takes. -/
def pagesOf (length : UInt32) : Nat := (length.toNat + 4095) / 4096

/-- `munmap` of a pointer and a length. -/
def munmap (b : Ptr × UInt32) : Release := .munmap b.1 (pagesOf b.2)

/-- The counterpart of how a buffer of some length was obtained. -/
def counterpart : Ptr × UInt32 → Release
  | (.malloced addr, _) => .free (.malloced addr)
  | b => munmap b

/-- The method that `V4l2InitDevice` selects for a device. -/
def Answers.method (a : Answers) : Method := if a.Streams then .streaming else .readWrite

/-- The number of buffers, as the loops count them. -/
def Answers.bufferCount (a : Answers) : Nat := (a.reqbufs NB_BUFFER).2.toInt32.toInt.toNat

/-- The bytes of the buffer for `read`, for a device of some format. -/
def Answers.readLength (a : Answers) (iPixelFormat : Int32) : Int32 :=
  let size := (a.sFmt iPixelFormat a.lcdWidth a.lcdHeight).2
  size.1.toInt32 * size.2.toInt32 * 4

/-- The length of buffer `i`, as `VIDIOC_QUERYBUF` gives it. -/
def Answers.length (a : Answers) (i : Nat) : UInt32 := (a.querybuf i).2.1

/-- The buffers that `mmap` or `malloc` gave to a device of some format, with their
lengths. -/
def Answers.buffers (a : Answers) (iPixelFormat : Int32) : List (Ptr × UInt32) :=
  if a.Streams then
    (List.range a.bufferCount).filterMap fun i =>
      (a.mmap i (a.length i) (a.querybuf i).2.2).map fun addr => (.mapped addr, a.length i)
  else
    let length := a.readLength iPixelFormat
    ((a.malloc length).map fun addr => (Ptr.malloced addr, length.toUInt32)).toList

/-- What is known of an open device: the answers of its driver, and the buffers it
was given. -/
structure Opened where
  answers : Answers
  buffers : List (Ptr × UInt32)

/-- The table and the devices; `opened` is kept beside them. -/
structure Cameras where
  opr : VideoOpr
  devices : Nat → VideoDevice
  opened : Nat → Option Opened

inductive CameraCall
  | init (n : Nat) (a : Answers)
  | exit (n : Nat)
  -- `index` is the buffer that the driver gives, where it is asked for one
  | getFrame (n : Nat) (index : Int32)
  | putFrame (n : Nat)

inductive CameraReply
  | done
  | used (m : Method)
  | released (ops : List Release)
deriving DecidableEq, Repr

inductive CameraFault
  | initFailed
  | notOpen
  -- a call through a pointer that does not lead to the table
  | wildCall
deriving DecidableEq, Repr

/-- One call.  Devices are initialised with success, and used while they are
open. -/
def Cameras.step (s : Cameras) : CameraCall → Except CameraFault (CameraReply × Cameras)
  | .init n a =>
      match v4l2InitDevice a s.opr (s.devices n) with
      | .error _ => .error .initFailed
      | .ok r =>
          .ok (.done,
            { opr := r.opr
              devices := Function.update s.devices n r.device
              opened := Function.update s.opened n
                (some ⟨a, a.buffers r.device.iPixelFormat⟩) })
  | .exit n =>
      if (s.opened n).isNone then .error .notOpen
      else
        let closed := v4l2ExitDevice (s.devices n)
        .ok (.released (closed.1.map munmap),
          { s with
            devices := Function.update s.devices n closed.2
            opened := Function.update s.opened n none })
  | .getFrame n index =>
      if (s.opened n).isNone then .error .notOpen
      else if (s.devices n).ptOPr ≠ .opr then .error .wildCall
      else
        match s.opr.getFrame with
        | .streaming =>
            let device := { s.devices n with iVideoBufCurIndex := index }
            .ok (.used .streaming, { s with devices := Function.update s.devices n device })
        | .readWrite => .ok (.used .readWrite, s)
  | .putFrame n =>
      if (s.opened n).isNone then .error .notOpen
      else if (s.devices n).ptOPr ≠ .opr then .error .wildCall
      else .ok (.used s.opr.putFrame, s)

/-- No device is open yet. -/
def Cameras.start (devices : Nat → VideoDevice) : Cameras :=
  ⟨g_tV4l2VideoOpr, devices, fun _ => none⟩

/-- What is expected of an executed call: a device is accessed by its own method, and
closing it releases its buffers by the counterpart of how they were obtained. -/
def KeepsMethod (s : Cameras) (e : Entry CameraCall CameraReply Cameras) : Prop :=
  match e.input with
  | .init _ _ => True
  | .exit n => ∀ o ∈ s.opened n, e.reply = .released (o.buffers.map counterpart)
  | .getFrame n _ => ∀ o ∈ s.opened n, e.reply = .used o.answers.method
  | .putFrame n => ∀ o ∈ s.opened n, e.reply = .used o.answers.method

/-- The call initialises a device that can only be read. -/
def CameraCall.OpensReader : CameraCall → Prop
  | .init _ a => ¬ a.Streams
  | _ => False

/-- The buffers of a streaming device that are unmapped as they were mapped: they fit
the array, and each has as many pages as the last one. -/
def Answers.UnmapsEvenly (a : Answers) : Prop :=
  a.bufferCount ≤ NB_BUFFER.toNat ∧
    ∀ i < a.bufferCount, pagesOf (a.length i) = pagesOf (a.length (a.bufferCount - 1))

instance (a : Answers) : Decidable a.UnmapsEvenly := inferInstanceAs (Decidable (_ ∧ _))

/-- The conditions under which a call does what is expected: a streaming device is
used while no reader was ever opened, and closed with at most `NB_BUFFER` buffers that
have the same number of pages; a reader is closed only if it got no buffer. -/
def Proper (s : Cameras) (earlier : List (Entry CameraCall CameraReply Cameras)) :
    CameraCall → Prop
  | .init _ _ => True
  | .exit n => ∀ o ∈ s.opened n,
      if o.answers.Streams then o.answers.UnmapsEvenly else o.buffers = []
  | .getFrame n _ => ∀ o ∈ s.opened n, o.answers.Streams →
      ∀ x ∈ earlier, ¬ x.input.OpensReader
  | .putFrame n => ∀ o ∈ s.opened n, o.answers.Streams →
      ∀ x ∈ earlier, ¬ x.input.OpensReader

/-! ## The calls -/

/-- What `V4l2ExitDevice` passes to `munmap`: the pointers that are not `NULL`. -/
theorem unmapBuffers_eq (len : Int32) (left i : Nat) (bufs : Nat → Ptr) :
    (unmapBuffers len left i bufs).1 =
      (((List.range' i left).map bufs).filter (· ≠ .null)).map fun p => (p, len.toUInt32) := by
  induction left generalizing i bufs with
  | zero => rfl
  | succ left ih =>
      have hlater : (List.range' (i + 1) left).map (Function.update bufs i .null) =
          (List.range' (i + 1) left).map bufs := by
        apply List.map_congr_left
        intro j hj
        have hne : j ≠ i := by
          have := (List.mem_range'_1.mp hj).1
          omega
        rw [Function.update_of_ne hne]
      unfold unmapBuffers
      rw [List.range'_succ, List.map_cons]
      split
      · rename_i hnull
        rw [ih, List.filter_cons_of_neg (by simp [hnull])]
      · rename_i hsome
        simp only [ih, hlater]
        rw [List.filter_cons_of_pos (by simp [hsome]), List.map_cons]

/-- What an open device is like: its pointer leads to the table, and its buffers are
where `V4l2InitDevice` put them, the one in the place of that pointer apart. -/
structure Ready (o : Opened) (d : VideoDevice) : Prop where
  table : d.ptOPr = .opr
  streams : o.answers.Streams →
    d.iVideoBufCnt.toInt.toNat = o.answers.bufferCount ∧
    (0 < o.answers.bufferCount →
      d.iVideoBufMaxLen.toUInt32 = o.answers.length (o.answers.bufferCount - 1)) ∧
    o.buffers = (List.range o.answers.bufferCount).filterMap (fun i =>
      (o.answers.mmap i (o.answers.length i) (o.answers.querybuf i).2.2).map fun addr =>
        (.mapped addr, o.answers.length i)) ∧
    ∀ i < o.answers.bufferCount, i ≠ NB_BUFFER.toNat → ∃ addr,
      o.answers.mmap i (o.answers.length i) (o.answers.querybuf i).2.2 = some addr ∧
        d.pucVideBuf i = .mapped addr
  reads : ¬ o.answers.Streams →
    d.iVideoBufCnt = 1 ∧
    (d.pucVideBuf 0 = .null ∧ o.buffers = [] ∨
      ∃ addr length, d.pucVideBuf 0 = .malloced addr ∧ o.buffers = [(.malloced addr, length)])

/-- **A successful `V4l2InitDevice`**, for a device that streams or can be read. -/
theorem ready_of_init {a : Answers} {opr : VideoOpr} {d : VideoDevice} {r : Initialised}
    (hkind : a.Streams ∨ a.Reads) (h : v4l2InitDevice a opr d = .ok r) :
    Ready ⟨a, a.buffers r.device.iPixelFormat⟩ r.device ∧
    r.opr = if a.Streams then opr else ⟨.readWrite, .readWrite⟩ := by
  obtain ⟨d₁, htake, -, -, hcount, hwidth, hheight⟩ := v4l2InitDevice_ok h
  have hformat := takeBuffers_iPixelFormat htake
  by_cases hs : a.Streams
  · obtain ⟨hopr, hcnt, htable, -, hmapped⟩ := takeBuffers_streams hs htake
    rw [hcount] at hcnt hmapped
    refine ⟨⟨htable, fun _ => ⟨?_, fun hpos => ?_, ?_, hmapped⟩, fun hnot => absurd hs hnot⟩, ?_⟩
    · rw [hcnt]
      rfl
    · have hleft : d₁.iVideoBufCnt.toInt.toNat = a.bufferCount - 1 + 1 := by
        rw [hcount, Nat.sub_add_cancel hpos]
        rfl
      rw [takeBuffers_maxLen hs htake hleft, UInt32.toUInt32_toInt32]
      rfl
    · simp only [Answers.buffers, if_pos hs]
    · rw [if_pos hs, hopr]
  · obtain ⟨hopr, hcnt, htable, hbuf⟩ := takeBuffers_reads hs (hkind.resolve_left hs) htake
    have hlength : d₁.iWidth * d₁.iHeight * 4 = a.readLength r.device.iPixelFormat := by
      rw [hwidth, hheight, hformat]
      rfl
    rw [hlength] at hbuf
    refine ⟨⟨htable, fun hyes => absurd hyes hs, fun _ => ⟨hcnt, ?_⟩⟩, ?_⟩
    · simp only [Answers.buffers, if_neg hs]
      cases hmalloc : a.malloc (a.readLength r.device.iPixelFormat) with
      | none =>
          rw [hmalloc] at hbuf
          exact Or.inl ⟨hbuf, rfl⟩
      | some addr =>
          rw [hmalloc] at hbuf
          exact Or.inr ⟨addr, _, hbuf, rfl⟩
    · rw [if_neg hs, hopr]

/-- What closing a device releases. -/
theorem v4l2ExitDevice_released (d : VideoDevice) :
    (v4l2ExitDevice d).1.map munmap =
      (((List.range d.iVideoBufCnt.toInt.toNat).map d.pucVideBuf).filter (· ≠ .null)).map
        fun p => .munmap p (pagesOf d.iVideoBufMaxLen.toUInt32) := by
  have h := unmapBuffers_eq d.iVideoBufMaxLen d.iVideoBufCnt.toInt.toNat 0 d.pucVideBuf
  rw [← List.range_eq_range'] at h
  unfold v4l2ExitDevice
  rw [h, List.map_map]
  rfl

/-- **Closing a streaming device** releases its buffers exactly if they fit the
array and have as many pages as the last one. -/
theorem Ready.exit_streams {o : Opened} {d : VideoDevice} (h : Ready o d)
    (hs : o.answers.Streams) :
    (v4l2ExitDevice d).1.map munmap = o.buffers.map counterpart ↔ o.answers.UnmapsEvenly := by
  obtain ⟨hcnt, hlast, hbuffers, hmapped⟩ := h.streams hs
  unfold Answers.UnmapsEvenly
  rw [v4l2ExitDevice_released, hcnt]
  by_cases hfew : o.answers.bufferCount ≤ NB_BUFFER.toNat
  · have hat : ∀ i ∈ List.range o.answers.bufferCount, ∃ addr,
        o.answers.mmap i (o.answers.length i) (o.answers.querybuf i).2.2 = some addr ∧
          d.pucVideBuf i = .mapped addr := by
      intro i hi
      have hlt := List.mem_range.mp hi
      exact hmapped i hlt (by omega)
    -- both sides are one `munmap` for every buffer
    have hreleased : ((List.range o.answers.bufferCount).map d.pucVideBuf).filter (· ≠ .null) =
        (List.range o.answers.bufferCount).map d.pucVideBuf := by
      rw [List.filter_eq_self]
      intro p hp
      obtain ⟨i, hi, rfl⟩ := List.mem_map.mp hp
      obtain ⟨addr, -, hptr⟩ := hat i hi
      simp [hptr]
    have hexpected : o.buffers.map counterpart = (List.range o.answers.bufferCount).map fun i =>
        Release.munmap (d.pucVideBuf i) (pagesOf (o.answers.length i)) := by
      rw [hbuffers, List.map_filterMap, ← List.filterMap_eq_map]
      apply List.filterMap_congr
      intro i hi
      obtain ⟨addr, hmmap, hptr⟩ := hat i hi
      simp [hmmap, hptr, counterpart, munmap]
    rw [hreleased, hexpected, List.map_map, List.map_inj_left]
    simp only [List.mem_range, Function.comp_apply, Release.munmap.injEq, true_and]
    constructor
    · intro heven
      refine ⟨hfew, fun i hi => ?_⟩
      rw [← heven i hi, hlast (Nat.zero_lt_of_lt hi)]
    · rintro ⟨-, heven⟩ i hi
      rw [heven i hi, hlast (Nat.zero_lt_of_lt hi)]
  · refine iff_of_false (fun heq => ?_) fun hboth => hfew hboth.1
    -- the place behind the array holds the pointer to the table
    have hopr : Release.munmap .opr (pagesOf d.iVideoBufMaxLen.toUInt32) ∈
        o.buffers.map counterpart := by
      rw [← heq]
      apply List.mem_map_of_mem (f := fun p => Release.munmap p _)
      rw [List.mem_filter]
      refine ⟨List.mem_map.mpr ⟨NB_BUFFER.toNat, List.mem_range.mpr (by omega), h.table⟩, ?_⟩
      decide
    obtain ⟨b, hb, hop⟩ := List.mem_map.mp hopr
    rw [hbuffers] at hb
    obtain ⟨i, -, hi⟩ := List.mem_filterMap.mp hb
    obtain ⟨addr, -, rfl⟩ := Option.map_eq_some_iff.mp hi
    cases hop

/-- **Closing a reader** passes its buffer to `munmap`, so that it is right only if
there is none. -/
theorem Ready.exit_reads {o : Opened} {d : VideoDevice} (h : Ready o d)
    (hs : ¬ o.answers.Streams) :
    (v4l2ExitDevice d).1.map munmap = o.buffers.map counterpart ↔ o.buffers = [] := by
  obtain ⟨hcnt, hbuf⟩ := h.reads hs
  have hone : (1 : Int32).toInt.toNat = 1 := rfl
  rw [v4l2ExitDevice_released, hcnt, hone]
  rcases hbuf with ⟨hnull, hbuffers⟩ | ⟨addr, length, hmalloc, hbuffers⟩
  · simp [hnull, hbuffers]
  · simp [hmalloc, hbuffers, counterpart]

/-! ## The invariant -/

/-- The open devices are ready, and the table is the one for reading if one of them
is a reader. -/
structure Cameras.Sound (s : Cameras) : Prop where
  ready : ∀ n, ∀ o ∈ s.opened n, Ready o (s.devices n)
  readers : ∀ n, ∀ o ∈ s.opened n, ¬ o.answers.Streams → s.opr = ⟨.readWrite, .readWrite⟩

/-- A device that is opened streams or can be read. -/
def CameraCall.OfKind : CameraCall → Prop
  | .init _ a => a.Streams ∨ a.Reads
  | _ => True

/-- What opening a device does. -/
theorem Cameras.step_init {s t : Cameras} {n : Nat} {a : Answers} {r : CameraReply}
    (h : s.step (.init n a) = .ok (r, t)) :
    ∃ i, v4l2InitDevice a s.opr (s.devices n) = .ok i ∧
      t = { opr := i.opr
            devices := Function.update s.devices n i.device
            opened := Function.update s.opened n (some ⟨a, a.buffers i.device.iPixelFormat⟩) } := by
  simp only [Cameras.step] at h
  split at h
  · cases h
  · rename_i i hinit
    obtain ⟨-, rfl⟩ := Prod.mk.inj (Except.ok.inj h)
    exact ⟨i, hinit, rfl⟩

/-- What closing a device does. -/
theorem Cameras.step_exit {s t : Cameras} {n : Nat} {r : CameraReply}
    (h : s.step (.exit n) = .ok (r, t)) :
    r = .released ((v4l2ExitDevice (s.devices n)).1.map munmap) ∧
      t = { s with
        devices := Function.update s.devices n (v4l2ExitDevice (s.devices n)).2
        opened := Function.update s.opened n none } := by
  simp only [Cameras.step] at h
  split at h
  · cases h
  · obtain ⟨rfl, rfl⟩ := Prod.mk.inj (Except.ok.inj h)
    exact ⟨rfl, rfl⟩

/-- What fetching a frame does. -/
theorem Cameras.step_getFrame {s t : Cameras} {n : Nat} {index : Int32} {r : CameraReply}
    (h : s.step (.getFrame n index) = .ok (r, t)) :
    r = .used s.opr.getFrame ∧
      ∃ cur, t = { s with
        devices := Function.update s.devices n
          { s.devices n with iVideoBufCurIndex := cur } } := by
  simp only [Cameras.step] at h
  split at h
  · cases h
  · split at h
    · cases h
    · split at h
      · rename_i hmethod
        obtain ⟨rfl, rfl⟩ := Prod.mk.inj (Except.ok.inj h)
        exact ⟨by rw [hmethod], index, rfl⟩
      · rename_i hmethod
        obtain ⟨rfl, rfl⟩ := Prod.mk.inj (Except.ok.inj h)
        refine ⟨by rw [hmethod], (s.devices n).iVideoBufCurIndex, ?_⟩
        rw [Function.update_eq_self]

/-- What giving a frame back does. -/
theorem Cameras.step_putFrame {s t : Cameras} {n : Nat} {r : CameraReply}
    (h : s.step (.putFrame n) = .ok (r, t)) : r = .used s.opr.putFrame ∧ t = s := by
  simp only [Cameras.step] at h
  split at h
  · cases h
  · split at h
    · cases h
    · obtain ⟨rfl, rfl⟩ := Prod.mk.inj (Except.ok.inj h)
      exact ⟨rfl, rfl⟩

/-- **Every call keeps the invariant.** -/
theorem Cameras.Sound.kept {s t : Cameras} (h : s.Sound) {c : CameraCall} {r : CameraReply}
    (hkind : c.OfKind) (hstep : s.step c = .ok (r, t)) : t.Sound := by
  cases c with
  | init n a =>
      obtain ⟨i, hinit, rfl⟩ := Cameras.step_init hstep
      obtain ⟨hready, hopr⟩ := ready_of_init hkind hinit
      have hkept : ∀ m, ∀ o ∈ s.opened m, ¬ o.answers.Streams →
          i.opr = ⟨.readWrite, .readWrite⟩ := by
        intro m o ho hreads
        rw [hopr]
        split
        · exact h.readers m o ho hreads
        · rfl
      refine ⟨fun m o ho => ?_, fun m o ho hreads => ?_⟩
      · by_cases hm : m = n
        · subst hm
          simp only [Function.update_self] at ho ⊢
          obtain rfl := Option.some.inj ho
          exact hready
        · simp only [Function.update_of_ne hm] at ho ⊢
          exact h.ready m o ho
      · by_cases hm : m = n
        · subst hm
          simp only [Function.update_self] at ho
          obtain rfl := Option.some.inj ho
          simp only [hopr, if_neg hreads]
        · simp only [Function.update_of_ne hm] at ho
          exact hkept m o ho hreads
  | exit n =>
      obtain ⟨-, rfl⟩ := Cameras.step_exit hstep
      refine ⟨fun m o ho => ?_, fun m o ho hreads => ?_⟩
      · by_cases hm : m = n
        · subst hm
          simp only [Function.update_self] at ho
          cases ho
        · simp only [Function.update_of_ne hm] at ho ⊢
          exact h.ready m o ho
      · by_cases hm : m = n
        · subst hm
          simp only [Function.update_self] at ho
          cases ho
        · simp only [Function.update_of_ne hm] at ho
          exact h.readers m o ho hreads
  | getFrame n index =>
      obtain ⟨-, cur, rfl⟩ := Cameras.step_getFrame hstep
      refine ⟨fun m o ho => ?_, h.readers⟩
      have hready := h.ready m o ho
      by_cases hm : m = n
      · subst hm
        simp only [Function.update_self]
        exact ⟨hready.table, hready.streams, hready.reads⟩
      · simp only [Function.update_of_ne hm]
        exact hready
  | putFrame n =>
      obtain ⟨-, rfl⟩ := Cameras.step_putFrame hstep
      exact h

/-- How one call changes the table. -/
theorem Cameras.opr_step {s t : Cameras} {c : CameraCall} {r : CameraReply} (hkind : c.OfKind)
    (hstep : s.step c = .ok (r, t)) :
    (c.OpensReader → t.opr = ⟨.readWrite, .readWrite⟩) ∧ (¬ c.OpensReader → t.opr = s.opr) := by
  cases c with
  | init n a =>
      obtain ⟨i, hinit, rfl⟩ := Cameras.step_init hstep
      obtain ⟨-, hopr⟩ := ready_of_init hkind hinit
      refine ⟨fun hreads => ?_, fun hstreams => ?_⟩
      · have hnot : ¬ a.Streams := hreads
        simp only [hopr, if_neg hnot]
      · have hyes : a.Streams := not_not.mp hstreams
        simp only [hopr, if_pos hyes]
  | exit n =>
      obtain ⟨-, rfl⟩ := Cameras.step_exit hstep
      exact ⟨fun h => h.elim, fun _ => rfl⟩
  | getFrame n index =>
      obtain ⟨-, cur, rfl⟩ := Cameras.step_getFrame hstep
      exact ⟨fun h => h.elim, fun _ => rfl⟩
  | putFrame n =>
      obtain ⟨-, rfl⟩ := Cameras.step_putFrame hstep
      exact ⟨fun h => h.elim, fun _ => rfl⟩

/-- **The table remembers.**  It is for reading after a run exactly if it was before,
or some reader was opened in between. -/
theorem Cameras.opr_run {s : Cameras} {xs : List (Entry CameraCall CameraReply Cameras)}
    (hrun : IsRun Cameras.step s xs) (hkinds : ∀ x ∈ xs, x.input.OfKind) :
    (lastState s xs).opr = s.opr ∧ (∀ x ∈ xs, ¬ x.input.OpensReader) ∨
    (lastState s xs).opr = ⟨.readWrite, .readWrite⟩ ∧ ∃ x ∈ xs, x.input.OpensReader := by
  induction xs generalizing s with
  | nil => exact Or.inl ⟨rfl, by simp⟩
  | cons e rest ih =>
      obtain ⟨hstep, htail⟩ := hrun
      obtain ⟨hreader, hother⟩ := Cameras.opr_step (hkinds e List.mem_cons_self) hstep
      have hrest := ih htail fun x hx => hkinds x (List.mem_cons_of_mem _ hx)
      rw [lastState_cons]
      by_cases hopens : e.input.OpensReader
      · right
        refine ⟨?_, e, List.mem_cons_self, hopens⟩
        rcases hrest with ⟨hkept, -⟩ | ⟨hset, -⟩
        · rw [hkept, hreader hopens]
        · exact hset
      · rcases hrest with ⟨hkept, hnone⟩ | ⟨hset, x, hx, hopensx⟩
        · left
          refine ⟨hkept.trans (hother hopens), ?_⟩
          intro x hx
          rcases List.mem_cons.mp hx with rfl | hlater
          · exact hopens
          · exact hnone x hlater
        · exact Or.inr ⟨hset, x, List.mem_cons_of_mem _ hx, hopensx⟩

/-- The table has one method for both directions, and it is the one of an open device
exactly if that one is a reader or no reader was opened. -/
theorem Cameras.table_iff {devices : Nat → VideoDevice}
    {xs : List (Entry CameraCall CameraReply Cameras)}
    (hrun : IsRun Cameras.step (Cameras.start devices) xs)
    (hkinds : ∀ x ∈ xs, x.input.OfKind) (hsound : (lastState (Cameras.start devices) xs).Sound)
    {n : Nat} {o : Opened} (ho : o ∈ (lastState (Cameras.start devices) xs).opened n) :
    ∃ m, (lastState (Cameras.start devices) xs).opr = ⟨m, m⟩ ∧
      (m = o.answers.method ↔ (o.answers.Streams → ∀ x ∈ xs, ¬ x.input.OpensReader)) := by
  have hreaders := hsound.readers n o ho
  unfold Answers.method
  rcases Cameras.opr_run hrun hkinds with ⟨hopr, hnone⟩ | ⟨hopr, x, hx, hopens⟩
  · refine ⟨.streaming, hopr, iff_of_true ?_ fun _ => hnone⟩
    by_cases hs : o.answers.Streams
    · rw [if_pos hs]
    · rw [hreaders hs] at hopr
      cases hopr
  · refine ⟨.readWrite, hopr, ?_⟩
    by_cases hs : o.answers.Streams
    · rw [if_pos hs]
      refine iff_of_false (by decide) fun h => ?_
      exact h hs x hx hopens
    · rw [if_neg hs]
      exact iff_of_true rfl fun hyes => absurd hyes hs

/-- **Each device keeps its own access method.**  Devices that stream or can be read
are opened, used and closed in any order.  Every call does what is expected of it
exactly if every call is proper: a streaming device is used while no reader was ever
opened and closed with at most `NB_BUFFER` buffers, all of as many pages as the last, and
a reader is closed without a buffer. -/
theorem access_method_iff {devices : Nat → VideoDevice}
    {log : List (Entry CameraCall CameraReply Cameras)}
    (hrun : IsRun Cameras.step (Cameras.start devices) log)
    (hkinds : ∀ e ∈ log, e.input.OfKind) :
    (∀ xs e ys, log = xs ++ e :: ys → KeepsMethod (lastState (Cameras.start devices) xs) e) ↔
      ∀ xs e ys, log = xs ++ e :: ys →
        Proper (lastState (Cameras.start devices) xs) xs e.input := by
  refine forall_congr' fun xs => forall_congr' fun e => forall_congr' fun ys =>
    forall_congr' fun hsplit => ?_
  subst hsplit
  have hbefore := (isRun_append.mp hrun).1
  have hkindsx : ∀ x ∈ xs, x.input.OfKind := fun x hx => hkinds x (List.mem_append_left _ hx)
  have hsound : (lastState (Cameras.start devices) xs).Sound := by
    apply hbefore.keeps_along (P := Cameras.Sound) (C := fun _ c => c.OfKind)
    · intro s c r t hs hkind hstep
      exact hs.kept hkind hstep
    · exact along_of_forall hkindsx
    · exact ⟨fun n o ho => (by cases ho), fun n o ho => (by cases ho)⟩
  have hstep := hrun.step_at
  obtain ⟨input, reply, state⟩ := e
  unfold KeepsMethod Proper
  cases input with
  | init n a => exact Iff.rfl
  | exit n =>
      obtain ⟨hreply, -⟩ := Cameras.step_exit hstep
      simp only at hreply
      refine forall_congr' fun o => forall_congr' fun ho => ?_
      have hready := hsound.ready n o ho
      simp only [hreply, CameraReply.released.injEq]
      split
      · rename_i hs
        exact hready.exit_streams hs
      · rename_i hs
        exact hready.exit_reads hs
  | getFrame n index =>
      obtain ⟨hreply, -⟩ := Cameras.step_getFrame hstep
      simp only at hreply
      refine forall_congr' fun o => forall_congr' fun ho => ?_
      obtain ⟨m, hopr, hiff⟩ := Cameras.table_iff hbefore hkindsx hsound ho
      simp only [hreply, hopr, CameraReply.used.injEq]
      exact hiff
  | putFrame n =>
      obtain ⟨hreply, -⟩ := Cameras.step_putFrame hstep
      simp only at hreply
      refine forall_congr' fun o => forall_congr' fun ho => ?_
      obtain ⟨m, hopr, hiff⟩ := Cameras.table_iff hbefore hkindsx hsound ho
      simp only [hreply, hopr, CameraReply.used.injEq]
      exact hiff

/-- A device that is opened streams, with buffers that are unmapped as they were
mapped. -/
def CameraCall.OpensFitting : CameraCall → Prop
  | .init _ a => a.Streams ∧ a.UnmapsEvenly
  | _ => True

instance CameraCall.OpensFitting.decidable : DecidablePred CameraCall.OpensFitting
  | .init _ a => inferInstanceAs (Decidable (a.Streams ∧ a.UnmapsEvenly))
  | .exit _ => .isTrue trivial
  | .getFrame _ _ => .isTrue trivial
  | .putFrame _ => .isTrue trivial

/-- Such a call opens no reader. -/
theorem CameraCall.OpensFitting.not_opensReader {c : CameraCall} (h : c.OpensFitting) :
    ¬ c.OpensReader := by
  cases c with
  | init n a => exact fun hreader => hreader h.1
  | exit n => exact id
  | getFrame n index => exact id
  | putFrame n => exact id

theorem CameraCall.OpensFitting.ofKind {c : CameraCall} (h : c.OpensFitting) : c.OfKind := by
  cases c with
  | init n a => exact Or.inl h.1
  | exit n => trivial
  | getFrame n index => trivial
  | putFrame n => trivial

/-- What is open after a call was open before, or was just opened. -/
theorem Cameras.opened_after {s t : Cameras} {c : CameraCall} {r : CameraReply}
    (h : s.step c = .ok (r, t)) {n : Nat} {o : Opened} (ho : o ∈ t.opened n) :
    o ∈ s.opened n ∨ c = .init n o.answers := by
  cases c with
  | init m a =>
      obtain ⟨i, -, rfl⟩ := Cameras.step_init h
      by_cases hm : n = m
      · subst hm
        simp only [Function.update_self] at ho
        obtain rfl := Option.some.inj ho
        exact Or.inr rfl
      · simp only [Function.update_of_ne hm] at ho
        exact Or.inl ho
  | exit m =>
      obtain ⟨-, rfl⟩ := Cameras.step_exit h
      by_cases hm : n = m
      · subst hm
        simp only [Function.update_self] at ho
        cases ho
      · simp only [Function.update_of_ne hm] at ho
        exact Or.inl ho
  | getFrame m index =>
      obtain ⟨-, cur, rfl⟩ := Cameras.step_getFrame h
      exact Or.inl ho
  | putFrame m =>
      obtain ⟨-, rfl⟩ := Cameras.step_putFrame h
      exact Or.inl ho

/-- **Streaming devices alone** are always used properly. -/
theorem proper_of_fitting {devices : Nat → VideoDevice}
    {log : List (Entry CameraCall CameraReply Cameras)}
    (hrun : IsRun Cameras.step (Cameras.start devices) log)
    (hfit : ∀ e ∈ log, e.input.OpensFitting) :
    ∀ xs e ys, log = xs ++ e :: ys →
      Proper (lastState (Cameras.start devices) xs) xs e.input := by
  intro xs e ys hsplit
  subst hsplit
  have hearlier : ∀ x ∈ xs, x.input.OpensFitting :=
    fun x hx => hfit x (List.mem_append_left _ hx)
  have hopen : ∀ n, ∀ o ∈ (lastState (Cameras.start devices) xs).opened n,
      o.answers.Streams ∧ o.answers.UnmapsEvenly := by
    apply (isRun_append.mp hrun).1.keeps_along (C := fun _ c => c.OpensFitting)
      (P := fun s => ∀ n, ∀ o ∈ s.opened n, o.answers.Streams ∧ o.answers.UnmapsEvenly)
    · intro s c r t hs hc hstep n o ho
      rcases Cameras.opened_after hstep ho with hold | rfl
      · exact hs n o hold
      · exact hc
    · exact along_of_forall hearlier
    · intro n o ho
      cases ho
  have hnone : ∀ x ∈ xs, ¬ x.input.OpensReader :=
    fun x hx => (hearlier x hx).not_opensReader
  cases hinput : e.input with
  | init n a => trivial
  | exit n =>
      intro o ho
      obtain ⟨hs, heven⟩ := hopen n o ho
      rw [if_pos hs]
      exact heven
  | getFrame n index => exact fun o _ _ => hnone
  | putFrame n => exact fun o _ _ => hnone

/-- A driver that can only be read, with enough memory. -/
def readDriver : Answers :=
  { obligingDriver [0x56595559] 4 with
    querycap := (0, V4L2_CAP_VIDEO_CAPTURE ||| V4L2_CAP_READWRITE)
    malloc := fun _ => some 8192 }

/-- No device is open and the structures hold nothing. -/
def emptyDesk : Cameras := Cameras.start fun _ => uninitialisedDevice 0

/-- A driver with two buffers, of 8192 and of 4096 bytes. -/
def unevenDriver : Answers :=
  { obligingDriver [0x56595559] 2 with
    querybuf := fun i => if i = 0 then (0, 8192, 0) else (0, 4096, 8192) }

/-- A reader is opened beside two streaming devices; a frame of one of them is then
fetched with `read`, the `malloc`ed buffer of the reader goes to `munmap`, and half of
the first buffer of the other stays mapped. -/
def mixedLog : List (Entry CameraCall CameraReply Cameras) :=
  exec Cameras.step emptyDesk
    [.init 0 (obligingDriver [0x56595559] 4), .init 2 unevenDriver, .init 1 readDriver,
      .getFrame 0 0, .exit 1, .exit 2]

theorem method_of_other_device :
    IsRun Cameras.step emptyDesk mixedLog ∧
    (obligingDriver [0x56595559] 4).Streams ∧ unevenDriver.Streams ∧ readDriver.Reads ∧
    mixedLog.map Entry.reply =
      [.done, .done, .done, .used .readWrite, .released [.munmap (.malloced 8192) 75],
        .released [.munmap (.mapped 155648) 1, .munmap (.mapped 311296) 1]] ∧
    (∃ e, mixedLog = mixedLog.take 3 ++ e :: mixedLog.drop 4 ∧
      ¬ KeepsMethod (lastState emptyDesk (mixedLog.take 3)) e) ∧
    (∃ e, mixedLog = mixedLog.take 4 ++ e :: mixedLog.drop 5 ∧
      ¬ KeepsMethod (lastState emptyDesk (mixedLog.take 4)) e) ∧
    ∃ e, mixedLog = mixedLog.take 5 ++ [e] ∧
      ¬ KeepsMethod (lastState emptyDesk (mixedLog.take 5)) e := by
  refine ⟨isRun_exec _ _, by decide, by decide, by decide, rfl, ⟨⟨_, _, _⟩, rfl, ?_⟩,
    ⟨⟨_, _, _⟩, rfl, ?_⟩, ⟨_, _, _⟩, rfl, ?_⟩
  all_goals
    intro hkeeps
    have hreply := hkeeps _ rfl
    revert hreply
    decide

/-- A streaming device alone. -/
def streamingLog : List (Entry CameraCall CameraReply Cameras) :=
  exec Cameras.step emptyDesk
    [.init 0 (obligingDriver [0x56595559] 4), .getFrame 0 2, .putFrame 0, .exit 0]

theorem streaming_device_keeps_method :
    streamingLog.length = 4 ∧
    ∀ xs e ys, streamingLog = xs ++ e :: ys → KeepsMethod (lastState emptyDesk xs) e := by
  have hfit : ∀ e ∈ streamingLog, e.input.OpensFitting := by decide
  have hrun : IsRun Cameras.step emptyDesk streamingLog := isRun_exec _ _
  have hkinds : ∀ e ∈ streamingLog, e.input.OfKind := fun e he => (hfit e he).ofKind
  exact ⟨rfl, (access_method_iff hrun hkinds).mpr (proper_of_fitting hrun hfit)⟩

end Video2lcd
