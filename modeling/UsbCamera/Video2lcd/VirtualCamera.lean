import UsbCamera.Myvivi.FillSize
import UsbCamera.Video2lcd.InitOnDriver

/-!
# The application on the virtual camera

`myvivi` answers the calls of `V4l2InitDevice` the way the application expects them to
be answered, up to the mappings.  The application maps its buffers with `PROT_READ`, as
it only reads them.  But `videobuf_mmap_mapper` takes no mapping that is not both shared
and writable.

Both sides are run against each other here, from whatever state the camera is in.  While
the timer is pending, `add_timer` in `myvivi_open` runs into its `BUG_ON`.  Otherwise the
four calls in front of the mappings always succeed, the format is the one of the screen
within the camera's bounds, and the first mapping is refused; and since every `open` and
every `close` acts on the one queue and the one timer there are, the attempt leaves the
camera without buffers and at rest.  Mapped for reading and writing, all buffers would be
mapped and queued in order, each with memory for a picture.
-/

namespace Myvivi

/-- `myvivi_videoc_querycap`: the return value and the capabilities,
`V4L2_CAP_VIDEO_CAPTURE | V4L2_CAP_STREAMING`. -/
def videocQuerycap : Int × BitVec 32 := (0, 0x00000001#32 ||| 0x04000000#32)

/-- `myvivi_vidioc_enum_fmt_vid_cap`. -/
def enumFmt (index : Nat) : Except Int (BitVec 32) :=
  if index ≥ 1 then .error (-EINVAL) else .ok V4L2_PIX_FMT_YUYV

/-- `videobuf_querybuf`: the length and the offset of a buffer. -/
def videobufQuerybuf (d : Driver) (index : Nat) : Except Int (BitVec 32 × BitVec 32) :=
  if index ≥ VIDEO_MAX_FRAME then .error (-EINVAL)
  else
    match d.vidqueue.bufs index with
    | none => .error (-EINVAL)
    | some o => .ok ((d.heap o).bsize, (d.heap o).boff)

/-- What `videobuf_reqbufs` writes to `req->count` when it succeeds. -/
def reqbufsCount (d : Driver) (count avail : Nat) : Int :=
  let (count, size) := bufferSetup d (min count VIDEO_MAX_FRAME)
  (videobufMmapSetup d count size avail).1

/-- `myvivi_mmap`, from whether the mapping has `VM_WRITE` and `VM_SHARED`. -/
def myviviMmap (d : Driver) (write shared : Bool) (offset : BitVec 32) : Int × Driver :=
  if !write || !shared then (-EINVAL, d) else videobufMmapMapper d offset

end Myvivi

namespace Video2lcd

open Myvivi

/-- What the rest of the kernel decides: the file descriptor, for how many buffers there
is memory, and where mappings lie. -/
structure Kernel where
  fd : Int32
  avail : Nat
  addr : Nat → Nat

/-- The format `V4l2InitDevice` asks for; its field is `V4L2_FIELD_ANY`. -/
def askedFormat (iPixelFormat iWidth iHeight : Int32) : PixFormat :=
  { pixelformat := iPixelFormat.toBitVec, width := iWidth.toBitVec, height := iHeight.toBitVec }

/-- The virtual camera as the application calls it.  The file it opens has number `h`.
The mappings are `MAP_SHARED`, and have the length that `VIDIOC_QUERYBUF` gave. -/
def viviCalls (k : Kernel) (h : Nat) : DriverCalls Driver where
  openFile := fun s => if k.fd < 0 then (k.fd, s) else (k.fd, myviviOpen s)
  querycap := fun _ => (ioctlResult videocQuerycap.1, UInt32.ofBitVec videocQuerycap.2)
  -- index 1 is refused, so two rounds see all there are
  formats := fun _ => enumerated enumFmt 2 0
  sFmt := fun iPixelFormat iWidth iHeight s =>
    match sFmt s (askedFormat iPixelFormat iWidth iHeight) with
    | (ret, t) =>
        -- nothing is copied back with an error
        let f := if ret < 0 then askedFormat iPixelFormat iWidth iHeight else t.format
        ((ioctlResult ret, UInt32.ofBitVec f.width, UInt32.ofBitVec f.height), t)
  reqbufs := fun count s =>
    match videobufReqbufs s count.toNat k.avail with
    | (ret, t) =>
        let given := UInt32.ofNat (reqbufsCount s count.toNat k.avail).toNat
        ((ioctlResult ret, if ret < 0 then count else given), t)
  querybuf := fun i s =>
    match videobufQuerybuf s i with
    | .error ret => (ioctlResult ret, 0, 0)
    | .ok (length, offset) => (0, UInt32.ofBitVec length, UInt32.ofBitVec offset)
  mmap := fun prot i _ offset s =>
    match myviviMmap s (prot &&& PROT_WRITE ≠ 0) true offset.toBitVec with
    | (ret, t) => (if ret = 0 then some (k.addr i) else none, t)
  qbuf := fun i s =>
    match videobufQbuf s h i with
    | (ret, t) => (ioctlResult ret, t)
  closeFile := fun s => myviviClose s h

/-! ## The format -/

/-- The format the camera sets for a screen. -/
def viviFormat (around : Surroundings) : PixFormat :=
  let width := clampAlign around.lcdWidth.toBitVec 48#32 1024#32 2
  let height := clampAlign around.lcdHeight.toBitVec 32#32 768#32 0
  { pixelformat := Myvivi.V4L2_PIX_FMT_YUYV
    width := width
    height := height
    bytesperline := (width * 16#32) >>> 3
    sizeimage := height * ((width * 16#32) >>> 3) }

/-- A clamped value keeps to bounds that are aligned themselves. -/
theorem clampAlign_bounds (x : BitVec 32) {lo hi : BitVec 32} (align : Nat) (h : lo ≤ hi)
    (hlo : (lo + ~~~(~~~((1#32 <<< align) - 1#32))) &&& ~~~((1#32 <<< align) - 1#32) = lo)
    (hhi : hi &&& ~~~((1#32 <<< align) - 1#32) = hi) :
    lo ≤ clampAlign x lo hi align ∧ clampAlign x lo hi align ≤ hi := by
  unfold clampAlign
  simp only [hlo, hhi]
  generalize (if align = 0 then x else _) = y
  split_ifs with hlow hhigh
  · exact ⟨BitVec.le_refl lo, h⟩
  · exact ⟨h, BitVec.le_refl hi⟩
  · exact ⟨BitVec.not_lt.mp hlow, BitVec.not_lt.mp hhigh⟩

/-- A picture has two bytes to a pixel. -/
theorem toNat_sizeimage {w h : BitVec 32} (hw : w ≤ 1024#32) (hh : h ≤ 768#32) :
    (h * ((w * 16#32) >>> 3)).toNat = h.toNat * (2 * w.toNat) := by
  have hw' : w.toNat ≤ 1024 := BitVec.le_def.mp hw
  have hh' : h.toNat ≤ 768 := BitVec.le_def.mp hh
  have hline : ((w * 16#32) >>> 3).toNat = 2 * w.toNat := by
    rw [BitVec.toNat_ushiftRight, BitVec.toNat_mul, Nat.shiftRight_eq_div_pow]
    simp only [BitVec.toNat_ofNat]
    omega
  have hprod : h.toNat * (2 * w.toNat) ≤ 768 * (2 * 1024) := by gcongr
  rw [BitVec.toNat_mul, hline, Nat.mod_eq_of_lt (by omega)]

/-- The pictures the camera makes for any screen have at least 3072 bytes and at most
1572864. -/
theorem viviFormat_sizeimage (around : Surroundings) :
    3072 ≤ (viviFormat around).sizeimage.toNat ∧
      (viviFormat around).sizeimage.toNat ≤ 1572864 := by
  have hwidth : 48#32 ≤ (viviFormat around).width ∧ (viviFormat around).width ≤ 1024#32 :=
    clampAlign_bounds _ 2 (by decide) (by decide) (by decide)
  have hheight : 32#32 ≤ (viviFormat around).height ∧ (viviFormat around).height ≤ 768#32 :=
    clampAlign_bounds _ 0 (by decide) (by decide) (by decide)
  have hsize : (viviFormat around).sizeimage.toNat =
      (viviFormat around).height.toNat * (2 * (viviFormat around).width.toNat) :=
    toNat_sizeimage hwidth.2 hheight.2
  simp only [BitVec.le_def, BitVec.toNat_ofNat] at hwidth hheight
  rw [hsize]
  constructor
  · calc 3072 = 32 * (2 * 48) := rfl
      _ ≤ _ := Nat.mul_le_mul hheight.1 (Nat.mul_le_mul_left 2 hwidth.1)
  · calc (viviFormat around).height.toNat * (2 * (viviFormat around).width.toNat)
        ≤ 768 * (2 * 1024) := Nat.mul_le_mul hheight.2 (Nat.mul_le_mul_left 2 hwidth.2)
      _ = 1572864 := rfl

/-- Rounding up to pages, where it does not overflow. -/
theorem toNat_pageAlign {x : BitVec 32} (h : x.toNat + 4095 < 2 ^ 32) :
    (pageAlign x).toNat = (x.toNat + 4095) / 4096 * 4096 := by
  have hmask : pageAlign x = (x + 4095#32) >>> 12 <<< 12 := by
    rw [BitVec.shiftLeft_ushiftRight]
    rfl
  have hsum : (x + 4095#32).toNat = x.toNat + 4095 := by
    rw [BitVec.toNat_add]
    exact Nat.mod_eq_of_lt h
  rw [hmask, BitVec.toNat_shiftLeft, BitVec.toNat_ushiftRight, hsum, Nat.shiftRight_eq_div_pow,
    Nat.shiftLeft_eq, Nat.mod_eq_of_lt (by omega)]

/-- The offset of buffer `i` in a request for pictures of `size` bytes. -/
def bufferOffset (size : BitVec 32) (i : Nat) : BitVec 32 := pageAlign size * BitVec.ofNat 32 i

/-- Different buffers have different offsets. -/
theorem bufferOffset_inj {size : BitVec 32} (hlow : 3072 ≤ size.toNat)
    (hhigh : size.toNat ≤ 1572864) {i j : Nat} (hi : i < 4) (hj : j < 4)
    (h : bufferOffset size i = bufferOffset size j) : i = j := by
  have hpage := toNat_pageAlign (x := size) (by omega)
  have hnat (m : Nat) (hm : m < 4) :
      (bufferOffset size m).toNat = (pageAlign size).toNat * m := by
    have hsmall : (BitVec.ofNat 32 m).toNat = m := by
      rw [BitVec.toNat_ofNat, Nat.mod_eq_of_lt (by omega)]
    have hle : (pageAlign size).toNat * m ≤ 1576959 * 4 := by
      apply Nat.mul_le_mul <;> omega
    rw [bufferOffset, BitVec.toNat_mul, hsmall, Nat.mod_eq_of_lt (by omega)]
  have heq := congrArg BitVec.toNat h
  rw [hnat i hi, hnat j hj] at heq
  exact Nat.eq_of_mul_eq_mul_left (by omega) heq

/-! ## The buffers of a request -/

/-- Buffer `i` of a request in format `f`, when `mapped` buffers have been mapped and
`queued` of them queued through handle `h`. -/
def requested (f : PixFormat) (h mapped queued i : Nat) : VideobufBuffer :=
  let vb : VideobufBuffer :=
    { i := i, bsize := f.sizeimage, boff := bufferOffset f.sizeimage i }
  let vb := if i < mapped then
    { vb with map := true, mem := some (pageAlign f.sizeimage) } else vb
  if i < queued then
    { vb with
      size := f.sizeimage
      bytesperline := f.bytesperline
      width := f.width
      height := f.height
      field := .interlaced
      state := .prepared
      via := h }
  else vb

/-- The camera has given `n` buffers, whose objects are numbered from `base` on. -/
structure Granted (f : PixFormat) (h base n mapped queued : Nat) (s : Driver) : Prop where
  format : s.format = f
  off : s.vidqueue.streaming = false
  bufs : ∀ i, s.vidqueue.bufs i = if i < n then some (base + i) else none
  stream : s.vidqueue.stream = (List.range queued).map (base + ·)
  heap : ∀ i < n, s.heap (base + i) = requested f h mapped queued i

section Buffers

variable {f : PixFormat} {h base n mapped queued : Nat} {s : Driver}

/-- The fields of a buffer after so many mappings and so many `QBUF`s. -/
theorem requested_bsize (i : Nat) : (requested f h mapped queued i).bsize = f.sizeimage := by
  unfold requested
  grind

theorem requested_boff (i : Nat) :
    (requested f h mapped queued i).boff = bufferOffset f.sizeimage i := by
  unfold requested
  grind

theorem requested_map (i : Nat) : (requested f h mapped queued i).map = decide (i < mapped) := by
  unfold requested
  grind

theorem requested_state (i : Nat) :
    (requested f h mapped queued i).state = if i < queued then .prepared else .needsInit := by
  unfold requested
  grind

/-- The table lists the objects of the request. -/
theorem Granted.table_eq (hs : Granted f h base n mapped queued s) (hn : n ≤ VIDEO_MAX_FRAME) :
    s.table = (List.range n).map (base + ·) := by
  have hsplit : List.range VIDEO_MAX_FRAME =
      List.range n ++ (List.range (VIDEO_MAX_FRAME - n)).map (n + ·) := by
    rw [← List.range_add]
    congr 1
    omega
  have hlow : (List.range n).filterMap s.vidqueue.bufs = (List.range n).map (base + ·) := by
    rw [← List.filterMap_eq_map]
    apply List.filterMap_congr
    intro i hi
    rw [hs.bufs, if_pos (List.mem_range.mp hi)]
    rfl
  have hhigh : ((List.range (VIDEO_MAX_FRAME - n)).map (n + ·)).filterMap s.vidqueue.bufs = [] := by
    rw [List.filterMap_eq_nil_iff]
    intro i hi
    obtain ⟨j, -, rfl⟩ := List.mem_map.mp hi
    rw [hs.bufs, if_neg (by omega)]
  rw [Driver.table, hsplit, List.filterMap_append, hlow, hhigh, List.append_nil]

/-- `QUERYBUF` tells a buffer's size and offset. -/
theorem Granted.querybuf (hs : Granted f h base n mapped queued s) (hn : n ≤ VIDEO_MAX_FRAME)
    {i : Nat} (hi : i < n) :
    videobufQuerybuf s i = .ok (f.sizeimage, bufferOffset f.sizeimage i) := by
  have hframe : ¬ i ≥ VIDEO_MAX_FRAME := by omega
  rw [videobufQuerybuf, if_neg hframe, hs.bufs, if_pos hi]
  simp only [hs.heap i hi, requested_bsize, requested_boff]

/-- The mapping at a buffer's offset is one of that buffer. -/
theorem Granted.find_offset (hs : Granted f h base n mapped queued s) (hn : n ≤ VIDEO_MAX_FRAME)
    (hinj : ∀ i < n, ∀ j < n, bufferOffset f.sizeimage i = bufferOffset f.sizeimage j → i = j)
    {i : Nat} (hi : i < n) :
    s.table.find? (fun o => (s.heap o).boff == bufferOffset f.sizeimage i) = some (base + i) := by
  rw [hs.table_eq hn, List.find?_map, Option.map_eq_some_iff]
  refine ⟨i, ?_, rfl⟩
  rw [List.find?_range_eq_some]
  refine ⟨?_, List.mem_range.mpr hi, fun j hj => ?_⟩
  · simp [hs.heap i hi, requested_boff]
  · have hne : bufferOffset f.sizeimage j ≠ bufferOffset f.sizeimage i := by
      intro heq
      have := hinj j (by omega) i hi heq
      omega
    simp [hs.heap j (by omega), requested_boff, hne]

/-- A change to one object that makes it the next one of its kind. -/
theorem Granted.update {mapped' queued' : Nat} {t : Driver} {b : VideobufBuffer}
    (hs : Granted f h base n mapped queued s) (k : Nat)
    (hformat : t.format = s.format) (hoff : t.vidqueue.streaming = s.vidqueue.streaming)
    (hbufs : t.vidqueue.bufs = s.vidqueue.bufs)
    (hstream : t.vidqueue.stream = (List.range queued').map (base + ·))
    (hheap : t.heap = Function.update s.heap (base + k) b)
    (hself : b = requested f h mapped' queued' k)
    (hother : ∀ i, i ≠ k → requested f h mapped' queued' i = requested f h mapped queued i) :
    Granted f h base n mapped' queued' t := by
  refine ⟨hformat.trans hs.format, hoff.trans hs.off, fun i => ?_, hstream, fun i hi => ?_⟩
  · rw [hbufs]
    exact hs.bufs i
  · rw [hheap]
    by_cases hik : i = k
    · rw [hik, Function.update_self, hself]
    · rw [Function.update_of_ne (by omega), hs.heap i hi, hother i hik]

/-- **Mapping the next buffer.** -/
theorem Granted.mmap (hs : Granted f h base n mapped 0 s) (hn : n ≤ VIDEO_MAX_FRAME)
    (hsize : f.sizeimage ≠ 0#32)
    (hinj : ∀ i < n, ∀ j < n, bufferOffset f.sizeimage i = bufferOffset f.sizeimage j → i = j)
    (hlt : mapped < n) :
    ∃ t, videobufMmapMapper s (bufferOffset f.sizeimage mapped) = (0, t) ∧
      Granted f h base n (mapped + 1) 0 t := by
  have hobject := hs.heap mapped hlt
  have hbsize : ¬ (s.heap (base + mapped)).bsize = 0#32 := by
    rw [hobject, requested_bsize]
    exact hsize
  refine ⟨s.update (base + mapped) fun vb =>
    { vb with map := true, mem := some (pageAlign vb.bsize) }, ?_, ?_⟩
  · unfold videobufMmapMapper
    rw [hs.find_offset hn hinj hlt]
    simp only [if_neg hbsize]
  · refine hs.update mapped rfl rfl rfl hs.stream rfl ?_ fun i hne => ?_
    · rw [hobject]
      simp [requested]
    · have hiff : i < mapped + 1 ↔ i < mapped := by omega
      simp only [requested, hiff]

/-- **Queueing the next buffer.** -/
theorem Granted.qbuf (hs : Granted f h base n n queued s) (hn : n ≤ VIDEO_MAX_FRAME)
    (hlt : queued < n) :
    ∃ t, videobufQbuf s h queued = (0, t) ∧ Granted f h base n n (queued + 1) t := by
  have hobject := hs.heap queued hlt
  have hframe : ¬ queued ≥ VIDEO_MAX_FRAME := by omega
  have hstate : (s.heap (base + queued)).state = .needsInit := by
    rw [hobject, requested_state, if_neg (by omega)]
  have hmap : (s.heap (base + queued)).map = true := by
    rw [hobject, requested_map, decide_eq_true hlt]
  let t := (bufferPrepare s (base + queued) .interlaced).update (base + queued) fun vb =>
    { vb with via := h }
  refine ⟨{ t with vidqueue := { t.vidqueue with stream := t.vidqueue.stream ++ [base + queued] } },
    ?_, ?_⟩
  · unfold videobufQbuf
    rw [if_neg hframe, hs.bufs, if_pos hlt]
    simp [hstate, hmap, t, bufferPrepare, Driver.update, hs.off]
  · refine hs.update queued rfl rfl rfl ?_ (b := t.heap (base + queued)) ?_ ?_ fun i hne => ?_
    · simp [t, bufferPrepare, Driver.update, hs.stream, List.range_succ]
    · simp [t, bufferPrepare, Driver.update]
    · simp [t, bufferPrepare, Driver.update, hobject, requested, hlt, hs.format]
    · have hiff : i < queued + 1 ↔ i < queued := by omega
      simp only [requested, hiff]

/-- A round of the request adds the next buffer. -/
theorem Granted.allocVb (hs : Granted f h base n 0 0 s) (hnext : s.nextBuffer = base + n) :
    Granted f h base (n + 1) 0 0 (allocVb f.sizeimage s n) := by
  unfold Myvivi.allocVb
  refine ⟨hs.format, hs.off, fun i => ?_, hs.stream, fun i hi => ?_⟩
  · by_cases hin : i = n
    · rw [hin]
      simp [hnext]
    · have hiff : i < n + 1 ↔ i < n := by omega
      simp only [Function.update_of_ne hin, hs.bufs, hiff]
  · by_cases hin : i = n
    · simp [hin, hnext, requested, bufferOffset]
    · have hne : base + i ≠ s.nextBuffer := by omega
      simp only [Function.update_of_ne hne]
      exact hs.heap i (by omega)

/-- The rounds of a request on an empty queue. -/
theorem granted_foldl {d : Driver} (hempty : d.vidqueue = {}) (h n : Nat) :
    let t := (List.range n).foldl (Myvivi.allocVb d.format.sizeimage) d
    Granted d.format h d.nextBuffer n 0 0 t ∧ t.nextBuffer = d.nextBuffer + n ∧
      t.handles = d.handles ∧ t.localQueue = d.localQueue := by
  induction n with
  | zero =>
      refine ⟨⟨rfl, ?_, fun i => ?_, ?_, fun i hi => absurd hi (Nat.not_lt_zero i)⟩, rfl, rfl, rfl⟩
      all_goals simp [hempty]
  | succ n ih =>
      obtain ⟨hgranted, hnext, hhandles, hlocal⟩ := ih
      rw [List.range_succ, List.foldl_append]
      exact ⟨hgranted.allocVb hnext, congrArg (· + 1) hnext, hhandles, hlocal⟩

/-- **The request.**  From an empty queue, `VIDIOC_REQBUFS` gives as many buffers as
there is memory for, four at most. -/
theorem granted_reqbufs {d : Driver} (hempty : d.vidqueue = {}) {avail n : Nat}
    (hn : min 4 avail = n) (hpos : n ≠ 0) (h : Nat) :
    ∃ t, videobufReqbufs d 4 avail = (0, t) ∧ reqbufsCount d 4 avail = n ∧
      Granted d.format h d.nextBuffer n 0 0 t ∧
      t.handles = d.handles ∧ t.localQueue = d.localQueue := by
  obtain ⟨hgranted, -, hhandles, hlocal⟩ := granted_foldl hempty h n
  have hfree : videobufFree d = (0, d) := by
    have htable : d.table = [] := by simp [Driver.table, hempty]
    simp only [videobufFree, htable, hempty]
    simp [← hempty]
  have hsetup : videobufMmapSetup d 4 d.format.sizeimage avail =
      (↑n, (List.range n).foldl (Myvivi.allocVb d.format.sizeimage) d) := by
    simp [videobufMmapSetup, hfree, hn, hpos]
  refine ⟨_, ?_, ?_, hgranted, hhandles, hlocal⟩
  · simp [videobufReqbufs, bufferSetup, hsetup, hempty, VIDEO_MAX_FRAME]
  · simp [reqbufsCount, bufferSetup, hsetup, VIDEO_MAX_FRAME]

/-- Closing the camera with none of its buffers mapped leaves an empty queue. -/
theorem Granted.close (hs : Granted f h base n 0 0 s) (hn : n ≤ VIDEO_MAX_FRAME) (g : Nat) :
    myviviClose s g =
      { s with timerPending := false, handles := s.handles.erase g, vidqueue := {} } := by
  have hunmapped : s.table.any (fun o => (s.heap o).map) = false := by
    rw [hs.table_eq hn, List.any_eq_false]
    intro o ho
    obtain ⟨i, hi, rfl⟩ := List.mem_map.mp ho
    simp [hs.heap i (List.mem_range.mp hi), requested_map]
  have hstream : s.vidqueue.stream = [] := hs.stream
  have hfree : videobufFree
      { s with timerPending := false, handles := s.handles.erase g } =
      (0, { s with timerPending := false, handles := s.handles.erase g, vidqueue := {} }) := by
    have htable : Driver.table { s with timerPending := false, handles := s.handles.erase g } =
        s.table := rfl
    simp only [videobufFree, htable, hunmapped, hs.off, hstream]
    rfl
  simp only [myviviClose, videobufStreamoff, hs.off]
  exact congrArg Prod.snd hfree

end Buffers

/-! ## The application's loops on the camera -/

section Loops

variable {k : Kernel} {f : PixFormat} {prot : UInt32} {h base n : Nat} {s : Driver}

/-- So the application learns them. -/
theorem viviCalls_querybuf {mapped queued i : Nat} (hs : Granted f h base n mapped queued s)
    (hn : n ≤ VIDEO_MAX_FRAME) (hi : i < n) :
    (viviCalls k h).querybuf i s =
      (0, UInt32.ofBitVec f.sizeimage, UInt32.ofBitVec (bufferOffset f.sizeimage i)) := by
  simp only [viviCalls, hs.querybuf hn hi]

/-- **A mapping for reading only.**  The loop ends at its first buffer. -/
theorem mapBuffersOn_refused (hread : prot &&& PROT_WRITE = 0)
    (hs : Granted f h base n 0 0 s) (hn : n ≤ VIDEO_MAX_FRAME) (hpos : n ≠ 0) (d : VideoDevice) :
    ∃ d', mapBuffersOn (viviCalls k h) prot n 0 d s = (.error d', s) ∧
      d'.pucVideBuf 0 = .mapFailed := by
  have hquery := viviCalls_querybuf (k := k) hs hn (Nat.pos_of_ne_zero hpos)
  obtain ⟨left, rfl⟩ := Nat.exists_eq_succ_of_ne_zero hpos
  have hmmap (length offset : UInt32) :
      (viviCalls k h).mmap prot 0 length offset s = (none, s) := by
    simp [viviCalls, myviviMmap, hread, EINVAL]
  simp only [mapBuffersOn, hquery, hmmap]
  exact ⟨_, rfl, by simp [VideoDevice.setPucVideBuf]⟩

/-- **Mappings for reading and writing.**  The loop runs to its end, and has mapped
every buffer it came to. -/
theorem mapBuffersOn_granted (hwrite : prot &&& PROT_WRITE ≠ 0) (hn : n ≤ VIDEO_MAX_FRAME)
    (hsize : f.sizeimage ≠ 0#32)
    (hinj : ∀ i < n, ∀ j < n, bufferOffset f.sizeimage i = bufferOffset f.sizeimage j → i = j)
    {left i : Nat} (hleft : i + left = n) (hs : Granted f h base n i 0 s) (d : VideoDevice) :
    ∃ len bufs t,
      mapBuffersOn (viviCalls k h) prot left i d s =
        (.ok { d with iVideoBufMaxLen := len, pucVideBuf := bufs }, t) ∧
      (∀ j < i, bufs j = d.pucVideBuf j) ∧ (∀ j < n, i ≤ j → bufs j = .mapped (k.addr j)) ∧
      Granted f h base n n 0 t := by
  induction left generalizing i d s with
  | zero =>
      obtain rfl : i = n := hleft
      exact ⟨_, _, s, rfl, fun _ _ => rfl, fun j hlt hle => absurd hlt (by omega), hs⟩
  | succ left ih =>
      have hi : i < n := by omega
      obtain ⟨t, hmapper, ht⟩ := hs.mmap hn hsize hinj hi
      have hquery := viviCalls_querybuf (k := k) hs hn hi
      have hmmap (length : UInt32) : (viviCalls k h).mmap prot i length
          (UInt32.ofBitVec (bufferOffset f.sizeimage i)) s = (some (k.addr i), t) := by
        simp [viviCalls, myviviMmap, hwrite, hmapper]
      obtain ⟨len, bufs, u, hrest, hbefore, hmapped, hu⟩ := ih (by omega) ht
        (VideoDevice.setPucVideBuf
          { d with iVideoBufMaxLen := (UInt32.ofBitVec f.sizeimage).toInt32 } i
          (.mapped (k.addr i)))
      refine ⟨len, bufs, u, ?_, fun j hj => ?_, fun j hj hle => ?_, hu⟩
      · simp only [mapBuffersOn, hquery, hmmap]
        exact hrest
      · have hne : j ≠ i := by omega
        rw [hbefore j (by omega)]
        simp [VideoDevice.setPucVideBuf, hne]
      · rcases Nat.eq_or_lt_of_le hle with rfl | hlt
        · rw [hbefore i (by omega)]
          simp [VideoDevice.setPucVideBuf]
        · exact hmapped j hj hlt

/-- **The queueing loop** runs to its end. -/
theorem queueBuffersOn_granted (hn : n ≤ VIDEO_MAX_FRAME) {left i : Nat} (hleft : i + left = n)
    (hs : Granted f h base n n i s) :
    ∃ t, queueBuffersOn (viviCalls k h) left i s = ((true, List.range' i left), t) ∧
      Granted f h base n n n t := by
  induction left generalizing i s with
  | zero =>
      obtain rfl : i = n := hleft
      exact ⟨s, rfl, hs⟩
  | succ left ih =>
      obtain ⟨t, hqbuf, ht⟩ := hs.qbuf hn (by omega)
      obtain ⟨u, hrest, hu⟩ := ih (by omega) ht
      refine ⟨u, ?_, hu⟩
      have hreply : (viviCalls k h).qbuf i s = (0, t) := by
        simp only [viviCalls, hqbuf]
        rfl
      simp only [queueBuffersOn, hreply, hrest]
      rfl

end Loops

/-! ## The whole attempt -/

section Attempt

variable {k : Kernel} {n : Nat}

/-- The camera takes the format of any screen, within its bounds. -/
theorem sFmt_vivi (around : Surroundings) (d : Driver) :
    sFmt d (askedFormat V4L2_PIX_FMT_YUYV around.lcdWidth around.lcdHeight) =
      (0, { d with format := viviFormat around }) := by
  have htry : tryFmt (askedFormat V4L2_PIX_FMT_YUYV around.lcdWidth around.lcdHeight) =
      .ok (viviFormat around) := by
    have hcode : V4L2_PIX_FMT_YUYV.toBitVec = Myvivi.V4L2_PIX_FMT_YUYV := rfl
    simp [tryFmt, askedFormat, viviFormat, hcode]
  rw [sFmt, htry]

/-- The device when the camera has given `n` buffers. -/
def preparedDevice (around : Surroundings) (n : Nat) (d : VideoDevice) : VideoDevice :=
  { d with
    iPixelFormat := V4L2_PIX_FMT_YUYV
    iWidth := (UInt32.ofBitVec (viviFormat around).width).toInt32
    iHeight := (UInt32.ofBitVec (viviFormat around).height).toInt32
    iVideoBufCnt := (UInt32.ofNat n).toInt32 }

/-- **In front of the mappings** nothing fails, if there is memory for a buffer. -/
theorem prepareOn_vivi (hn : min 4 k.avail = n) (hpos : n ≠ 0) (around : Surroundings)
    (d : VideoDevice) (s : Driver) (h : Nat) :
    ∃ t, prepareOn (viviCalls k h) around d (myviviOpen s) =
        (.ok (preparedDevice around n d), t) ∧
      Granted (viviFormat around) h s.nextBuffer n 0 0 t ∧
      t.handles = s.nextHandle :: s.handles ∧ t.localQueue = s.localQueue := by
  obtain ⟨t, hreq, hcount, hgranted, hhandles, hlocal⟩ := granted_reqbufs
    (d := { myviviOpen s with format := viviFormat around }) rfl hn hpos h
  refine ⟨t, ?_, hgranted, hhandles, hlocal⟩
  have hcap : (viviCalls k h).querycap (myviviOpen s) = (0, 0x04000001) := rfl
  have hformats : enumFormats ((viviCalls k h).formats (myviviOpen s)) d.iPixelFormat =
      V4L2_PIX_FMT_YUYV := rfl
  have hsFmt : (viviCalls k h).sFmt V4L2_PIX_FMT_YUYV around.lcdWidth around.lcdHeight
      (myviviOpen s) = ((0, UInt32.ofBitVec (viviFormat around).width,
        UInt32.ofBitVec (viviFormat around).height),
        { myviviOpen s with format := viviFormat around }) := by
    simp only [viviCalls, sFmt_vivi]
    rfl
  have hreqbufs : (viviCalls k h).reqbufs NB_BUFFER
      { myviviOpen s with format := viviFormat around } = ((0, UInt32.ofNat n), t) := by
    have hfour : NB_BUFFER.toNat = 4 := rfl
    simp only [viviCalls, hfour, hreq, hcount]
    rfl
  have hcode : ¬ V4L2_PIX_FMT_YUYV = 0 := by decide
  have hcapture : ¬ (0x04000001 : UInt32) &&& V4L2_CAP_VIDEO_CAPTURE = 0 := by decide
  simp only [prepareOn, hcap, hformats, hsFmt, hreqbufs, if_neg hcode, if_neg hcapture]
  rfl

/-- The number of buffers survives the conversion to `int`. -/
theorem toInt_count (hn : n ≤ 4) : (UInt32.ofNat n).toInt32.toInt = n := by
  revert n
  decide

/-- What stops the kernel in `myvivi_open`: `BUG_ON(timer_pending(timer))` of `add_timer`. -/
inductive Bug
  | timerPending
deriving DecidableEq, Repr

/-- `V4l2InitDevice` with the virtual camera in state `s`. -/
def initOnVivi (k : Kernel) (around : Surroundings) (prot : UInt32) (opr : VideoOpr)
    (d : VideoDevice) (s : Driver) : Except Bug (Except VideoDevice Initialised × Driver) :=
  -- without a file descriptor the driver is not called
  if 0 ≤ k.fd ∧ s.timerPending = true then .error .timerPending
  else .ok (initDeviceOn (viviCalls k s.nextHandle) around prot opr d s)

/-- Once the file is open, all that is left is to take the buffers. -/
theorem initOnVivi_eq (hfd : 0 ≤ k.fd) (hn : min 4 k.avail = n) (hpos : n ≠ 0)
    (around : Surroundings) (opr : VideoOpr) (d : VideoDevice) {s : Driver}
    (hidle : s.timerPending = false) :
    ∃ t, Granted (viviFormat around) s.nextHandle s.nextBuffer n 0 0 t ∧
      t.handles = s.nextHandle :: s.handles ∧ t.localQueue = s.localQueue ∧
      ∀ prot, initOnVivi k around prot opr d s = .ok
        (match takeBuffersOn (viviCalls k s.nextHandle) around prot 0x04000001 opr
            (preparedDevice around n { d with iFd := k.fd }) t with
        | (.error d, u) => (.error d, myviviClose u s.nextHandle)
        | (.ok r, u) => (.ok r, u)) := by
  obtain ⟨t, hprepare, hgranted, hhandles, hlocal⟩ :=
    prepareOn_vivi hn hpos around { d with iFd := k.fd } s s.nextHandle
  have hopen : (viviCalls k s.nextHandle).openFile s = (k.fd, myviviOpen s) :=
    if_neg (Int32.not_lt.mpr hfd)
  have hcap : (viviCalls k s.nextHandle).querycap (myviviOpen s) = (0, 0x04000001) := rfl
  refine ⟨t, hgranted, hhandles, hlocal, fun prot => ?_⟩
  have hstarts : ¬ (0 ≤ k.fd ∧ s.timerPending = true) := by simp [hidle]
  rw [initOnVivi, if_neg hstarts, initDeviceOn, hopen]
  simp only [if_neg (Int32.not_lt.mpr hfd), hcap, hprepare]
  rcases takeBuffersOn (viviCalls k s.nextHandle) around prot _ opr _ t with ⟨_ | r, u⟩ <;> rfl

/-- The device remembers how many buffers it was given. -/
theorem preparedDevice_count (hn : n ≤ 4) (around : Surroundings) (d : VideoDevice) :
    (preparedDevice around n d).iVideoBufCnt.toInt.toNat = n := by
  simp only [preparedDevice, toInt_count hn, Int.toNat_natCast]

/-- A buffer that was mapped and queued in one format has memory for a picture. -/
theorem requested_fits {f : PixFormat} (hsize : f.sizeimage.toNat ≤ 1572864) {h i : Nat}
    (hi : i < n) : (requested f h n n i).Fits := by
  have hpage := toNat_pageAlign (x := f.sizeimage) (by omega)
  simp only [VideobufBuffer.Fits, requested, if_pos hi, true_and]
  omega

/-- Reading only: the attempt fails, and the camera is left empty and at rest. -/
theorem initOnVivi_refused {prot : UInt32} (hread : prot &&& PROT_WRITE = 0) (hfd : 0 ≤ k.fd)
    (hmem : 1 ≤ k.avail) (around : Surroundings) (opr : VideoOpr) (d : VideoDevice) {s : Driver}
    (hidle : s.timerPending = false) :
    ∃ d' t, initOnVivi k around prot opr d s = .ok (.error d', t) ∧
      d'.pucVideBuf 0 = .mapFailed ∧ t.format = viviFormat around ∧ t.vidqueue = {} ∧
      t.timerPending = false ∧ t.handles = s.handles ∧ t.localQueue = s.localQueue := by
  obtain ⟨n, hn⟩ : ∃ n, min 4 k.avail = n := ⟨_, rfl⟩
  have hframe : n ≤ VIDEO_MAX_FRAME := by
    rw [VIDEO_MAX_FRAME]
    omega
  obtain ⟨t, hgranted, hhandles, hlocal, hattempt⟩ :=
    initOnVivi_eq hfd hn (by omega) around opr d hidle
  obtain ⟨d', hloop, hfailed⟩ := mapBuffersOn_refused (k := k) hread hgranted hframe (by omega)
    (preparedDevice around n { d with iFd := k.fd })
  have hcount := preparedDevice_count (n := n) (by omega) around { d with iFd := k.fd }
  refine ⟨d', myviviClose t s.nextHandle, ?_, hfailed, ?_⟩
  · rw [hattempt]
    have hstreams : (0x04000001 : UInt32) &&& V4L2_CAP_STREAMING ≠ 0 := by decide
    simp only [takeBuffersOn, if_pos hstreams, hcount, hloop]
  · rw [hgranted.close hframe]
    refine ⟨hgranted.format, rfl, rfl, ?_, hlocal⟩
    simp [hhandles]

/-- Reading and writing: all buffers are mapped and queued. -/
theorem initOnVivi_granted (prot : UInt32) (hwrite : prot &&& PROT_WRITE ≠ 0) (hfd : 0 ≤ k.fd)
    (hn : min 4 k.avail = n) (hpos : n ≠ 0) (around : Surroundings) (opr : VideoOpr)
    (d : VideoDevice) {s : Driver} (hidle : s.timerPending = false) :
    ∃ len bufs t,
      initOnVivi k around prot opr d s =
        .ok (.ok ⟨{ preparedDevice around n { d with iFd := k.fd } with
          iVideoBufMaxLen := len, pucVideBuf := bufs }, opr, List.range n⟩, t) ∧
      (∀ i < n, bufs i = .mapped (k.addr i)) ∧
      Granted (viviFormat around) s.nextHandle s.nextBuffer n n n t := by
  obtain ⟨hlow, hhigh⟩ := viviFormat_sizeimage around
  have hframe : n ≤ VIDEO_MAX_FRAME := by
    rw [VIDEO_MAX_FRAME]
    omega
  have hsize : (viviFormat around).sizeimage ≠ 0#32 := by
    intro hzero
    rw [hzero] at hlow
    exact absurd hlow (by decide)
  obtain ⟨t, hgranted, -, -, hattempt⟩ := initOnVivi_eq hfd hn hpos around opr d hidle
  have hcount := preparedDevice_count (n := n) (by omega) around { d with iFd := k.fd }
  obtain ⟨len, bufs, u, hmaps, -, hbufs, hmapped⟩ := mapBuffersOn_granted (k := k) hwrite hframe
    hsize (fun i hi j hj => bufferOffset_inj hlow hhigh (by omega) (by omega)) (Nat.zero_add n)
    hgranted (preparedDevice around n { d with iFd := k.fd })
  obtain ⟨v, hqueues, hqueued⟩ := queueBuffersOn_granted (k := k) hframe (Nat.zero_add n) hmapped
  refine ⟨len, Function.update bufs NB_BUFFER.toNat .opr, v, ?_, fun i hi => ?_, hqueued⟩
  · rw [hattempt]
    have hstreams : (0x04000001 : UInt32) &&& V4L2_CAP_STREAMING ≠ 0 := by decide
    simp only [takeBuffersOn, if_pos hstreams, hcount, hmaps, hqueues, List.range_eq_range']
    rfl
  · have hne : i ≠ NB_BUFFER.toNat := by
      have hfour : NB_BUFFER.toNat = 4 := rfl
      omega
    rw [Function.update_of_ne hne]
    exact hbufs i hi (Nat.zero_le i)

/-- **The application and the virtual camera.**  Whatever state the camera is in, if
there is memory for a buffer:

* while its timer is pending, `open` runs into the `BUG_ON` of `add_timer`;
* mapped for reading only, as the application does it, the first buffer is refused.
  `V4l2InitDevice` gives up, and the camera has the format of the screen, no buffers,
  and no timer;
* mapped for reading and writing, `V4l2InitDevice` succeeds with up to four buffers.
  They are mapped, they are the queue in their order, and each has memory for a
  picture. -/
theorem init_on_virtual_camera (k : Kernel) (hfd : 0 ≤ k.fd) (hmem : 1 ≤ k.avail)
    (around : Surroundings) (opr : VideoOpr) (d : VideoDevice) (s : Driver) :
    (s.timerPending = true → ∀ prot, initOnVivi k around prot opr d s = .error .timerPending) ∧
    (s.timerPending = false →
      (∃ d' t, initOnVivi k around PROT_READ opr d s = .ok (.error d', t) ∧
        d'.pucVideBuf 0 = .mapFailed ∧
        t.format = viviFormat around ∧ t.vidqueue = {} ∧ t.timerPending = false ∧
        t.handles = s.handles ∧ t.localQueue = s.localQueue) ∧
      (∃ r t, initOnVivi k around (PROT_READ ||| PROT_WRITE) opr d s = .ok (.ok r, t) ∧
        r.device.iVideoBufCnt.toInt = (min 4 k.avail : Nat) ∧
        (∀ i < min 4 k.avail, r.device.pucVideBuf i = .mapped (k.addr i)) ∧
        r.queued = List.range (min 4 k.avail) ∧
        t.table.length = min 4 k.avail ∧ t.vidqueue.stream = t.table ∧
        ∀ o ∈ t.table, (t.heap o).Fits ∧ (t.heap o).size = t.format.sizeimage)) := by
  refine ⟨fun hpending prot => if_pos ⟨hfd, hpending⟩, fun hidle => ?_⟩
  obtain ⟨n, hn⟩ : ∃ n, min 4 k.avail = n := ⟨_, rfl⟩
  refine ⟨initOnVivi_refused (by decide) hfd hmem around opr d hidle, ?_⟩
  obtain ⟨len, bufs, t, hinit, hmapped, ht⟩ :=
    initOnVivi_granted (PROT_READ ||| PROT_WRITE) (by decide) hfd hn (by omega) around opr d hidle
  rw [hn]
  have htable := ht.table_eq (by rw [VIDEO_MAX_FRAME]; omega)
  refine ⟨_, t, hinit, toInt_count (by omega), hmapped, rfl, ?_, ?_, fun o ho => ?_⟩
  · rw [htable, List.length_map, List.length_range]
  · rw [htable, ht.stream]
  · rw [htable] at ho
    obtain ⟨i, hi, rfl⟩ := List.mem_map.mp ho
    rw [ht.heap i (List.mem_range.mp hi), ht.format]
    refine ⟨requested_fits (viviFormat_sizeimage around).2 (List.mem_range.mp hi), ?_⟩
    simp [requested, List.mem_range.mp hi]

/-- A camera that some other program has captured from, and has closed with its buffer still
mapped. -/
def usedCamera : Driver :=
  FaultRun.lastState load (FaultRun.exec step load
    [.open, .sFmt 0 (yuyv 640#32 480#32), .reqbufs 0 1 1, .mmap 0 0#32, .qbuf 0 0, .streamon 0,
      .tick true, .close 0])

/-- That buffer is still in the camera's table.  The application on a screen of 320 by 240
pixels is refused its mapping, and leaves the table empty. -/
theorem used_camera_refused :
    (usedCamera.timerPending = false ∧ usedCamera.table = [0]) ∧
    ∃ d' t, initOnVivi ⟨3, 4, fun i => 4096 * (i + 1)⟩ ⟨320, 240, fun _ => none⟩ PROT_READ
        g_tV4l2VideoOpr freshDevice usedCamera = .ok (.error d', t) ∧
      d'.pucVideBuf 0 = .mapFailed ∧ t.table = [] ∧ t.timerPending = false := by
  have hidle : usedCamera.timerPending = false := by decide +kernel
  obtain ⟨⟨d', t, hinit, hfailed, -, hqueue, htimer, -⟩, -⟩ :=
    (init_on_virtual_camera ⟨3, 4, fun i => 4096 * (i + 1)⟩ (by decide) (by decide)
      ⟨320, 240, fun _ => none⟩ g_tV4l2VideoOpr freshDevice usedCamera).2 hidle
  refine ⟨⟨hidle, by decide +kernel⟩, d', t, hinit, hfailed, ?_, htimer⟩
  rw [Driver.table, hqueue]
  rfl

end Attempt

end Video2lcd
