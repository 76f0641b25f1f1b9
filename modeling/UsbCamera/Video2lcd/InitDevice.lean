import UsbCamera.Video2lcd.Device

/-!
# When an initialised device is usable

`V4l2InitDevice` is handed a structure nobody has initialised and a driver that
may answer anything the interface allows.  When it returns `0`, the device should
have the first format that driver and application have in common, at most
`NB_BUFFER` buffers, all of them mapped, and each of them queued once (`Usable`).

Two things are missing for that.  The structure's own `iPixelFormat` decides
whether a format was found, so that whatever the caller left there passes for one;
and the number of buffers the driver gives is never compared with the size of the
array that takes them.  `usable_iff` says that these are all.
-/

namespace Video2lcd

/-- The device supports streaming. -/
def Answers.Streams (a : Answers) : Prop := a.querycap.2 &&& V4L2_CAP_STREAMING ≠ 0

instance (a : Answers) : Decidable a.Streams := inferInstanceAs (Decidable (_ ≠ _))

/-- The formats of the driver, as the application reads them. -/
def Answers.pixelFormats (a : Answers) : List Int32 := a.formats.map UInt32.toInt32

/-- A device that can be used: its format is the first one that is supported, and
the buffers of a streaming device fit the array, are mapped, and are queued
once. -/
def Usable (a : Answers) (r : Initialised) : Prop :=
  a.pixelFormats.find? isSupportThisFormat = some r.device.iPixelFormat ∧
  (a.Streams →
    r.device.iVideoBufCnt ≤ NB_BUFFER.toInt32 ∧
    ∀ i : Nat, i < r.device.iVideoBufCnt.toInt →
      (∃ addr, a.mmap i (a.querybuf i).2.1 (a.querybuf i).2.2 = some addr ∧
        r.device.pucVideBuf i = .mapped addr) ∧
      r.queued.count i = 1)

/-- The enumeration finds the first supported format, or leaves the field
alone. -/
theorem enumFormats_eq (formats : List UInt32) (iPixelFormat : Int32) :
    enumFormats formats iPixelFormat =
      ((formats.map UInt32.toInt32).find? isSupportThisFormat).getD iPixelFormat := by
  induction formats with
  | nil => rfl
  | cons f rest ih =>
      simp only [enumFormats, List.map_cons, List.find?_cons]
      split
      · rename_i hyes
        simp [hyes]
      · rename_i hno
        simp [hno, ih]

/-- **The mapping loop**, when it runs to its end: the pointers of the buffers it
went over are mappings, and nothing else but `iVideoBufMaxLen` has changed. -/
theorem mapBuffers_spec {a : Answers} {left i : Nat} {d d' : VideoDevice}
    (h : mapBuffers a left i d = .ok d') :
    (∀ j, i ≤ j → j < i + left →
      ∃ addr, a.mmap j (a.querybuf j).2.1 (a.querybuf j).2.2 = some addr ∧
        d'.pucVideBuf j = .mapped addr) ∧
    (∀ j, j < i ∨ i + left ≤ j → d'.pucVideBuf j = d.pucVideBuf j) ∧
    ∃ len bufs, d' = { d with iVideoBufMaxLen := len, pucVideBuf := bufs } := by
  induction left generalizing i d with
  | zero =>
      cases h
      exact ⟨fun j hle hlt => absurd hlt (by omega), fun _ _ => rfl, _, _, rfl⟩
  | succ left ih =>
      simp only [mapBuffers] at h
      split at h
      · cases h
      · split at h
        · cases h
        · rename_i addr hmmap
          obtain ⟨hmapped, hother, len, bufs, hfields⟩ := ih h
          refine ⟨fun j hle hlt => ?_, fun j hj => ?_, len, bufs, hfields⟩
          · rcases Nat.eq_or_lt_of_le hle with rfl | hgt
            · refine ⟨addr, hmmap, ?_⟩
              rw [hother i (Or.inl (by omega))]
              simp [VideoDevice.setPucVideBuf]
            · exact hmapped j hgt (by omega)
          · have hne : j ≠ i := by omega
            rw [hother j (by omega)]
            simp [VideoDevice.setPucVideBuf, hne]

/-- The length that the mapping loop notes last is the one of the last buffer. -/
theorem mapBuffers_maxLen {a : Answers} {left i : Nat} {d d' : VideoDevice}
    (h : mapBuffers a (left + 1) i d = .ok d') :
    d'.iVideoBufMaxLen = (a.querybuf (i + left)).2.1.toInt32 := by
  induction left generalizing i d with
  | zero =>
      simp only [mapBuffers] at h
      split at h
      · cases h
      · split at h
        · cases h
        · cases h
          rfl
  | succ left ih =>
      rw [mapBuffers] at h
      simp only at h
      split at h
      · cases h
      · split at h
        · cases h
        · have hlast := ih h
          rwa [Nat.add_right_comm, Nat.add_assoc] at hlast

/-- **The queueing loop**, when it runs to its end, has queued every buffer in
turn. -/
theorem queueBuffers_spec {a : Answers} {left i : Nat} {queued : List Nat}
    (h : queueBuffers a left i = (true, queued)) : queued = List.range' i left := by
  induction left generalizing i queued with
  | zero =>
      cases h
      rfl
  | succ left ih =>
      simp only [queueBuffers] at h
      split at h
      · cases h
      · obtain ⟨hend, rfl⟩ := Prod.mk.inj h
        have hrest : queueBuffers a left (i + 1) = (true, (queueBuffers a left (i + 1)).2) :=
          Prod.ext hend rfl
        rw [ih hrest]
        rfl

/-- What `V4l2InitDevice` has found by the time it takes the buffers. -/
theorem v4l2InitDevice_ok {a : Answers} {opr : VideoOpr} {d : VideoDevice} {r : Initialised}
    (h : v4l2InitDevice a opr d = .ok r) :
    ∃ d₁, takeBuffers a opr d₁ = .ok r ∧
      d₁.iPixelFormat = (a.pixelFormats.find? isSupportThisFormat).getD d.iPixelFormat ∧
      d₁.iPixelFormat ≠ 0 ∧ d₁.iVideoBufCnt = (a.reqbufs NB_BUFFER).2.toInt32 ∧
      d₁.iWidth = (a.sFmt d₁.iPixelFormat a.lcdWidth a.lcdHeight).2.1.toInt32 ∧
      d₁.iHeight = (a.sFmt d₁.iPixelFormat a.lcdWidth a.lcdHeight).2.2.toInt32 := by
  simp only [v4l2InitDevice] at h
  split at h
  · cases h
  split at h
  · cases h
  split at h
  · cases h
  split at h
  · cases h
  rename_i hformat
  split at h
  · cases h
  split at h
  · cases h
  exact ⟨_, h, enumFormats_eq _ _, hformat, rfl, rfl, rfl⟩

/-- Taking the buffers keeps the format. -/
theorem takeBuffers_iPixelFormat {a : Answers} {opr : VideoOpr} {d : VideoDevice}
    {r : Initialised} (h : takeBuffers a opr d = .ok r) :
    r.device.iPixelFormat = d.iPixelFormat := by
  simp only [takeBuffers] at h
  split at h
  · split at h
    · cases h
    · rename_i d₁ hmap
      split at h
      · cases h
      · cases h
        obtain ⟨-, -, len, bufs, rfl⟩ := mapBuffers_spec hmap
        rfl
  · split at h
    · cases h
      rfl
    · cases h
      rfl

/-- **Taking the buffers of a streaming device.** -/
theorem takeBuffers_streams {a : Answers} {opr : VideoOpr} {d : VideoDevice} {r : Initialised}
    (hs : a.Streams) (h : takeBuffers a opr d = .ok r) :
    r.opr = opr ∧ r.device.iVideoBufCnt = d.iVideoBufCnt ∧
    r.device.ptOPr = .opr ∧
    r.queued = List.range d.iVideoBufCnt.toInt.toNat ∧
    (∀ i, i < d.iVideoBufCnt.toInt.toNat → i ≠ NB_BUFFER.toNat →
      ∃ addr, a.mmap i (a.querybuf i).2.1 (a.querybuf i).2.2 = some addr ∧
        r.device.pucVideBuf i = .mapped addr) := by
  have hbit : a.querycap.2 &&& V4L2_CAP_STREAMING ≠ 0 := hs
  simp only [takeBuffers, if_pos hbit] at h
  split at h
  · cases h
  · rename_i d₁ hmap
    split at h
    · cases h
    · rename_i queued hqueue
      cases h
      obtain ⟨hmapped, -, len, bufs, rfl⟩ := mapBuffers_spec hmap
      refine ⟨rfl, rfl, by simp [VideoDevice.ptOPr, VideoDevice.setPucVideBuf], ?_, ?_⟩
      · rw [queueBuffers_spec hqueue, List.range_eq_range']
      · intro i hi hne
        obtain ⟨addr, hmmap, hat⟩ := hmapped i (Nat.zero_le i) (by omega)
        refine ⟨addr, hmmap, ?_⟩
        simpa [VideoDevice.setPucVideBuf, hne] using hat

/-- The length noted in a streaming device that has buffers. -/
theorem takeBuffers_maxLen {a : Answers} {opr : VideoOpr} {d : VideoDevice} {r : Initialised}
    (hs : a.Streams) (h : takeBuffers a opr d = .ok r) {left : Nat}
    (hcount : d.iVideoBufCnt.toInt.toNat = left + 1) :
    r.device.iVideoBufMaxLen = (a.querybuf left).2.1.toInt32 := by
  have hbit : a.querycap.2 &&& V4L2_CAP_STREAMING ≠ 0 := hs
  simp only [takeBuffers, if_pos hbit, hcount] at h
  split at h
  · cases h
  · rename_i d₁ hmap
    split at h
    · cases h
    · cases h
      have hlast := mapBuffers_maxLen hmap
      rwa [Nat.zero_add] at hlast

/-- The device supports reading. -/
def Answers.Reads (a : Answers) : Prop := a.querycap.2 &&& V4L2_CAP_READWRITE ≠ 0

instance (a : Answers) : Decidable a.Reads := inferInstanceAs (Decidable (_ ≠ _))

/-- **Taking the buffer of a device that can only be read.** -/
theorem takeBuffers_reads {a : Answers} {opr : VideoOpr} {d : VideoDevice} {r : Initialised}
    (hs : ¬ a.Streams) (hr : a.Reads) (h : takeBuffers a opr d = .ok r) :
    r.opr = ⟨.readWrite, .readWrite⟩ ∧ r.device.iVideoBufCnt = 1 ∧ r.device.ptOPr = .opr ∧
    r.device.pucVideBuf 0 = match a.malloc (d.iWidth * d.iHeight * 4) with
      | none => .null
      | some addr => .malloced addr := by
  have hbit : ¬ a.querycap.2 &&& V4L2_CAP_STREAMING ≠ 0 := hs
  have hread : a.querycap.2 &&& V4L2_CAP_READWRITE ≠ 0 := hr
  simp only [takeBuffers, if_neg hbit, if_pos hread] at h
  cases h
  refine ⟨rfl, rfl, ?_, ?_⟩
  · simp [VideoDevice.ptOPr, VideoDevice.setPucVideBuf]
  · have hne : (0 : Nat) ≠ NB_BUFFER.toNat := by decide
    cases a.malloc (d.iWidth * d.iHeight * 4) <;>
      simp only [VideoDevice.setPucVideBuf, Function.update_of_ne hne, Function.update_self]

/-- **A usable device.**  A device that `V4l2InitDevice` has set up is usable
exactly when the driver offers a supported format and, where it streams, gives at
most `NB_BUFFER` buffers. -/
theorem usable_iff {a : Answers} {opr : VideoOpr} {d : VideoDevice} {r : Initialised}
    (h : v4l2InitDevice a opr d = .ok r) :
    Usable a r ↔ (∃ f ∈ a.pixelFormats, isSupportThisFormat f) ∧
      (a.Streams → (a.reqbufs NB_BUFFER).2.toInt32 ≤ NB_BUFFER.toInt32) := by
  obtain ⟨d₁, htake, hformat, -, hcount, -⟩ := v4l2InitDevice_ok h
  have hkept := takeBuffers_iPixelFormat htake
  constructor
  · rintro ⟨hfirst, hbufs⟩
    refine ⟨⟨_, List.mem_of_find?_eq_some hfirst, List.find?_some hfirst⟩, fun hs => ?_⟩
    obtain ⟨-, hcnt, -⟩ := takeBuffers_streams hs htake
    rw [← hcount, ← hcnt]
    exact (hbufs hs).1
  · rintro ⟨⟨f, hf, hsupp⟩, hfits⟩
    refine ⟨?_, fun hs => ?_⟩
    · obtain ⟨g, hg⟩ := Option.isSome_iff_exists.mp (List.find?_isSome.mpr ⟨f, hf, hsupp⟩)
      rw [hkept, hformat, hg, Option.getD_some]
    · obtain ⟨-, hcnt, -, hqueued, hmapped⟩ := takeBuffers_streams hs htake
      have hle : d₁.iVideoBufCnt.toInt ≤ 4 := by
        rw [hcount]
        exact Int32.le_iff_toInt_le.mp (hfits hs)
      rw [hcnt]
      refine ⟨hcount ▸ hfits hs, fun i hi => ?_⟩
      have hNB : NB_BUFFER.toNat = 4 := rfl
      refine ⟨hmapped i (by omega) (by omega), ?_⟩
      rw [hqueued]
      exact List.count_eq_one_of_mem List.nodup_range (List.mem_range.mpr (by omega))

/-- A streaming driver that offers `formats`, gives `count` buffers, and does
whatever it is asked for. -/
def obligingDriver (formats : List UInt32) (count : UInt32) : Answers where
  fd := 3
  querycap := (0, V4L2_CAP_VIDEO_CAPTURE ||| V4L2_CAP_STREAMING)
  formats := formats
  lcdWidth := 320
  lcdHeight := 240
  sFmt := fun _ _ _ => (0, 320, 240)
  reqbufs := fun _ => (0, count)
  querybuf := fun i => (0, 153600, UInt32.ofNat (i * 155648))
  mmap := fun i _ _ => some (155648 * (i + 1))
  qbuf := fun _ => 0
  malloc := fun _ => none

/-- The structure as `main` hands it in, with some value in each field. -/
def uninitialisedDevice (iPixelFormat : Int32) : VideoDevice :=
  ⟨0, iPixelFormat, 0, 0, 0, 0, 0, fun i => .stale i⟩

/-- A driver without any supported format passes when `iPixelFormat` was not
zero, and a driver that gives five buffers passes with five. -/
theorem unusable_devices :
    (∃ r, v4l2InitDevice (obligingDriver [0x31324742] 4) g_tV4l2VideoOpr
        (uninitialisedDevice 1) = .ok r ∧ r.device.iPixelFormat = 1 ∧
      ¬ Usable (obligingDriver [0x31324742] 4) r) ∧
    (∃ r, v4l2InitDevice (obligingDriver [0x56595559] 5) g_tV4l2VideoOpr
        (uninitialisedDevice 0) = .ok r ∧ r.device.iVideoBufCnt = 5 ∧
      ¬ Usable (obligingDriver [0x56595559] 5) r) := by
  refine ⟨⟨_, rfl, rfl, ?_⟩, ⟨_, rfl, rfl, ?_⟩⟩
  · rintro ⟨hfirst, -⟩
    exact absurd hfirst (by decide)
  · rintro ⟨-, hbufs⟩
    exact absurd (hbufs (by decide)).1 (by decide)

/-- A driver that offers YUYV behind an unknown format and gives four buffers. -/
theorem usable_yuyv_camera :
    ∃ r, v4l2InitDevice (obligingDriver [0x31324742, 0x56595559] 4) g_tV4l2VideoOpr
        (uninitialisedDevice 1) = .ok r ∧ Usable (obligingDriver [0x31324742, 0x56595559] 4) r :=
  ⟨_, rfl, (usable_iff rfl).mpr
    ⟨⟨V4L2_PIX_FMT_YUYV, by decide, by decide⟩, fun _ => by decide⟩⟩

end Video2lcd
