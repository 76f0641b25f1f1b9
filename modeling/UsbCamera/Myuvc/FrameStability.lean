import UsbCamera.Myuvc.Delivery

/-!
# Delivered frames are stable

All buffers lie in one block of memory, one slot of `bufSize` bytes each.  The
handler writes behind what the current buffer holds, and for one vendor one byte
further than it accounts for.  A picture is shorter than a slot, so even that
byte stays inside the slot of the current buffer.

A buffer that has become `DONE` is therefore left alone, across being taken by
the application, until it is queued again or new buffers are asked for.
-/

namespace Myuvc

open FaultRun TwoStageFifo

/-- The buffers lie in separate slots and are shorter than their slots. -/
structure Layout (q : Queue) : Prop where
  offset : ∀ i, i < q.count → (q.buffer i).buf.offset = i * q.bufSize
  room : ∀ i, i < q.count → (q.buffer i).buf.length < q.bufSize

/-- The size of a picture has not been set, or is the one there is. -/
def SizeOk (d : Driver) : Prop :=
  d.format.pix.sizeimage = 0 ∨ d.format.pix.sizeimage = dwMaxVideoFrameSize

/-- The bound on the size depends on the size and the format only. -/
theorem SizeOk.kept {d d' : Driver} (h : SizeOk d) (hs : SameSize d d') : SizeOk d' := by
  rcases hs with hs | hs
  · exact h.imp hs.trans hs.trans
  · exact Or.inr hs

/-- A step that keeps the shape keeps the layout. -/
theorem Layout.kept {d d' : Driver} (h : Layout d.queue) (hs : SameShape d d') :
    Layout d'.queue where
  offset := fun i hi => by
    rw [hs.offset i, hs.bufSize]
    exact h.offset i (hs.count ▸ hi)
  room := fun i hi => by
    rw [hs.length i, hs.bufSize]
    exact h.room i (hs.count ▸ hi)

/-- Memory for a picture of a size that is in order is only given when the size
has been set, and then a slot is longer than a picture. -/
theorem lt_pageAlign_of_vmalloc32 {d : Driver} {answer : Option (Nat → UInt8)} {n : Nat}
    {mem : FrameMem} (h : SizeOk d)
    (hmem : vmalloc32 answer (n * pageAlign d.format.pix.sizeimage % 2 ^ 32) = some mem) :
    d.format.pix.sizeimage < pageAlign d.format.pix.sizeimage := by
  have hne := (vmalloc32_size hmem).2
  rcases h with hzero | hset
  · rw [hzero] at hne
    exact absurd (by simp [pageAlign, PAGE_SIZE]) hne
  · rw [hset]
    decide

/-- New buffers are laid out in slots. -/
theorem layout_initQueue {bufsize sizeimage : Nat} (n : Nat) (mem : FrameMem)
    (h : sizeimage < bufsize) : Layout (initQueue bufsize sizeimage n mem) where
  offset := fun i hi => by
    have hi' : i < n := hi
    simp [initQueue, hi', initBuffer]
  room := fun i hi => by
    have hi' : i < n := hi
    simpa [initQueue, hi', initBuffer] using h

/-- With no buffers left there is nothing to lay out. -/
theorem layout_freeBuffers {d : Driver} (h : Layout d.queue) : Layout (freeBuffers d).queue := by
  unfold freeBuffers
  split
  · exact ⟨fun i hi => absurd hi (Nat.not_lt_zero i), fun i hi => absurd hi (Nat.not_lt_zero i)⟩
  · exact h

/-- What the memory of a coherent machine keeps to. -/
structure LaidOut (m : Machine) : Prop where
  coherent : Coherent m
  size : SizeOk m.drv
  layout : Layout m.drv.queue

/-- The handler's cursor is good in a coherent machine. -/
theorem Coherent.cursor {m : Machine} (h : Coherent m) : CursorOk m := by
  rcases h with ⟨c, hlink⟩ | hclear
  · exact hlink.cursor
  · exact hclear.cursor

/-- Every step keeps the layout. -/
theorem LaidOut.kept {v : Version} {m m' : Machine} {i : Input} {r : Reply} (h : LaidOut m)
    (hstep : step v m i = .ok (r, m')) : LaidOut m' := by
  have hcur := h.coherent.cursor
  refine ⟨h.coherent.kept hstep, h.size.kept (step_sameSize hcur hstep), ?_⟩
  by_cases hreq : i.IsReqbufs
  · rcases step_effect hcur hstep with ⟨-, n, alloc, rfl, hcall, -⟩ | ⟨b, _, _, rfl, -⟩ |
        ⟨j, rest, rfl, -⟩ | ⟨p, j, rest, rfl, -⟩ | ⟨hno, -⟩
    · rcases vidiocReqbufs_cases hcall with ⟨k, mem, -, -, -, -, -, hmem, hd⟩ | ⟨-, hd, -⟩
      · rw [hd]
        exact layout_initQueue k mem (lt_pageAlign_of_vmalloc32 h.size hmem)
      · rw [hd]
        exact layout_freeBuffers h.layout
    · exact absurd hreq id
    · exact absurd hreq id
    · exact absurd hreq id
    · exact absurd hreq hno
  · exact h.layout.kept (step_sameShape hcur hreq hstep)

/-- After module load there is nothing to lay out. -/
theorem laidOut_load (idVendor : Nat) : LaidOut (Machine.load idVendor) where
  coherent := Or.inr ⟨rfl, rfl, rfl, cursorOk_of_none rfl⟩
  size := Or.inl rfl
  layout := ⟨fun i hi => absurd hi (Nat.not_lt_zero i), fun i hi => absurd hi (Nat.not_lt_zero i)⟩

/-- Every reachable machine is laid out. -/
theorem laidOut_of_run {v : Version} {idVendor : Nat} {es : Log}
    (hrun : IsRun (step v) (Machine.load idVendor) es) :
    LaidOut (lastState (Machine.load idVendor) es) :=
  hrun.keeps (fun _ _ _ _ h hstep => h.kept hstep) (laidOut_load idVendor)

/-- The buffers stay where they are as long as no new ones are requested. -/
theorem LaidOut.shape_kept {v : Version} {m : Machine} {es : Log} (h : LaidOut m)
    (hrun : IsRun (step v) m es) (hno : ∀ e ∈ es, ¬ e.input.IsReqbufs) :
    SameShape m.drv (lastState m es).drv := by
  induction es generalizing m with
  | nil => exact ⟨rfl, rfl, fun i => ⟨_, rfl⟩⟩
  | cons e rest ih =>
      obtain ⟨hstep, htail⟩ := hrun
      have hhead := step_sameShape h.coherent.cursor (hno e List.mem_cons_self) hstep
      have hrest := ih (h.kept hstep) htail fun x hx => hno x (List.mem_cons_of_mem _ hx)
      refine ⟨hrest.count.trans hhead.count, hrest.bufSize.trans hhead.bufSize, fun i => ?_⟩
      obtain ⟨n, hn⟩ := hhead.buf i
      obtain ⟨k, hk⟩ := hrest.buf i
      exact ⟨k, by rw [lastState_cons, hk, hn]⟩

/-- The bytes `[m.offset, m.offset + length)` of buffer `i`. -/
def Driver.slotBytes (d : Driver) (i : Nat) : List UInt8 :=
  ByteStore.read d.frame (d.queue.buffer i).buf.offset (d.queue.buffer i).buf.length

/-- **Where the handler writes.**  Storing a packet in buffer `j` leaves all
memory outside the buffer and the byte behind it alone. -/
theorem Stores.frame_outside {d d₁ : Driver} {j : Nat} {p : Packet} (h : Stores d d₁ j p)
    {x : Nat} (hx : x < (d.queue.buffer j).buf.offset ∨
      (d.queue.buffer j).buf.offset + (d.queue.buffer j).buf.length + 1 ≤ x) :
    d₁.frame x = d.frame x := by
  obtain ⟨-, -, hstore⟩ := h
  obtain ⟨mem, mem', t, s, hmem, hroom, rfl, -, hout, -⟩ := storePayload_spec hstore
  simp only [setState, Queue.setBuffer_same, Queue.setBuffer_mem] at hmem hroom hout
  have hlen := length_storedBytes_le (d.queue.buffer j).buf p
  simp only [Driver.frame, hmem]
  exact hout x (by omega)

/-- A packet leaves the memory outside the current buffer's slot alone. -/
theorem step_packet_frame {v : Version} {m m' : Machine} {p : Packet} {r : Reply}
    (hcur : CursorOk m) (h : step v m (.packet p) = .ok (r, m')) {x : Nat}
    (hx : ∀ j rest, m.drv.queue.irqqueue = some (j :: rest) →
      x < (m.drv.queue.buffer j).buf.offset ∨
        (m.drv.queue.buffer j).buf.offset + (m.drv.queue.buffer j).buf.length + 1 ≤ x) :
    m'.drv.frame x = m.drv.frame x := by
  rcases step_packet_cases hcur h with ⟨-, hd⟩ | ⟨-, -, hd⟩ | ⟨j, rest, -, hirq, hcase⟩
  · rw [hd]
  · rw [hd]
    rfl
  · rcases hcase with ⟨-, -, hd⟩ | ⟨-, -, hd⟩ | ⟨d₁, hs, ⟨-, hd⟩ | ⟨-, hd⟩⟩
    · rw [hd]
      rfl
    · rw [hd]
      rfl
    · rw [hd]
      exact hs.frame_outside (hx j rest hirq)
    · rw [hd]
      exact hs.frame_outside (hx j rest hirq)

/-- Slots of different buffers do not meet, not even in the byte behind the
shorter one. -/
theorem Layout.apart {q : Queue} (h : Layout q) {i j x : Nat} (hi : i < q.count)
    (hj : j < q.count) (hij : i ≠ j) (hlow : (q.buffer i).buf.offset ≤ x)
    (hhigh : x < (q.buffer i).buf.offset + (q.buffer i).buf.length) :
    x < (q.buffer j).buf.offset ∨
      (q.buffer j).buf.offset + (q.buffer j).buf.length + 1 ≤ x := by
  have hroomi := h.room i hi
  have hroomj := h.room j hj
  rw [h.offset i hi] at hlow hhigh
  rw [h.offset j hj]
  rcases Nat.lt_or_gt_of_ne hij with hlt | hgt
  · left
    have hstep : (i + 1) * q.bufSize ≤ j * q.bufSize := Nat.mul_le_mul_right _ hlt
    rw [Nat.add_one_mul] at hstep
    omega
  · right
    have hstep : (j + 1) * q.bufSize ≤ i * q.bufSize := Nat.mul_le_mul_right _ hgt
    rw [Nat.add_one_mul] at hstep
    omega

/-- Buffer `i` is `DONE`, or has been taken by the application. -/
def Resting (d : Driver) (i : Nat) : Prop :=
  i < d.queue.count ∧ (d.stateOf i = .done ∨ d.stateOf i = .idle)

/-- The number of received bytes and all bytes of buffer `i` are the same. -/
def SameFrame (d d' : Driver) (i : Nat) : Prop :=
  d'.bytesusedOf i = d.bytesusedOf i ∧ d'.slotBytes i = d.slotBytes i

/-- A frame is its record and its bytes. -/
theorem SameFrame.of_buf {d d' : Driver} {i : Nat} (hmem : d'.queue.mem = d.queue.mem)
    (hbuf : (d'.queue.buffer i).buf = (d.queue.buffer i).buf) : SameFrame d d' i := by
  simp [SameFrame, Driver.bytesusedOf, Driver.slotBytes, Driver.frame, hmem, hbuf]

/-- **One step** leaves a resting buffer resting and its frame as it is. -/
theorem LaidOut.resting_kept {v : Version} {m m' : Machine} {i : Nat} {input : Input} {r : Reply}
    (h : LaidOut m) (hrest : Resting m.drv i) (hno : ¬ input.IsReqbufs)
    (hacc : i ∉ accepted input r) (hstep : step v m input = .ok (r, m')) :
    Resting m'.drv i ∧ SameFrame m.drv m'.drv i := by
  have hcur := h.coherent.cursor
  have hcount := (step_sameShape hcur hno hstep).count
  obtain ⟨hi, hstate⟩ := hrest
  have hi' : i < m'.drv.queue.count := hcount ▸ hi
  rcases step_effect hcur hstep with ⟨hreq, -⟩ | ⟨b, main, irq, rfl, rfl, -, -, -, -, rfl⟩ |
      ⟨j, rest, rfl, rfl, -, hdone, rfl⟩ | ⟨p, j, rest, rfl, -, hirq, ht, -⟩ | ⟨-, -, -, -, hs⟩
  · exact absurd hreq hno
  · have hne : i ≠ b.index := by simpa [accepted] using hacc
    have hsame := queued_other m.drv main irq hne
    refine ⟨⟨hi', ?_⟩, SameFrame.of_buf rfl (by rw [hsame])⟩
    simpa only [Driver.stateOf, hsame] using hstate
  · refine ⟨⟨hi', ?_⟩, SameFrame.of_buf rfl (dequeued_buf m.drv j i rest)⟩
    by_cases hij : i = j
    · subst hij
      exact Or.inr (dequeued_state m.drv i rest)
    · simpa only [Driver.stateOf, dequeued_other m.drv rest hij] using hstate
  · obtain ⟨c, hlink, hw⟩ := h.coherent.linked hirq
    have hj : j < m.drv.queue.count := h.coherent.waiting_lt hirq List.mem_cons_self
    have hij : i ≠ j := by
      rintro rfl
      rcases hlink.queues.head i rest hw with hs | hs <;>
        simp [Driver.stateOf, hs] at hstate
    have hsame := ht.other i hij
    refine ⟨⟨hi', ?_⟩, by simp only [Driver.bytesusedOf, hsame], ?_⟩
    · simpa only [Driver.stateOf, hsame] using hstate
    · simp only [Driver.slotBytes, hsame]
      refine ByteStore.read_congr fun x hlow hhigh => step_packet_frame hcur hstep ?_
      intro k rest' hk
      rw [hirq] at hk
      cases hk
      exact h.layout.apart hi hj hij hlow hhigh
  · refine ⟨⟨hi', ?_⟩, SameFrame.of_buf hs.mem (hs.buf i)⟩
    simpa only [Driver.stateOf, hs.state i] using hstate

/-- **A whole run** leaves a resting buffer resting and its frame as it is. -/
theorem LaidOut.resting_run {v : Version} {m : Machine} {i : Nat} {es : Log} (h : LaidOut m)
    (hrest : Resting m.drv i) (hrun : IsRun (step v) m es)
    (hno : ∀ e ∈ es, ¬ e.input.IsReqbufs) (hacc : i ∉ acceptedAlong es) :
    Resting (lastState m es).drv i ∧ SameFrame m.drv (lastState m es).drv i := by
  induction es generalizing m with
  | nil => exact ⟨hrest, rfl, rfl⟩
  | cons e rest ih =>
      obtain ⟨hstep, htail⟩ := hrun
      rw [acceptedAlong_cons, List.mem_append, not_or] at hacc
      obtain ⟨hrest', hused, hbytes⟩ :=
        h.resting_kept hrest (hno e List.mem_cons_self) hacc.1 hstep
      obtain ⟨hend, hused', hbytes'⟩ := ih (h.kept hstep) hrest' htail
        (fun x hx => hno x (List.mem_cons_of_mem _ hx)) hacc.2
      exact ⟨hend, hused'.trans hused, hbytes'.trans hbytes⟩

/-- **Delivered frames are stable.**  In any run from module load, with any
vendor, calls and packets: once buffer `i` is `DONE`, its `bytesused` and all its
bytes stay as they are until it is accepted by `VIDIOC_QBUF` again or new buffers
are requested. -/
theorem delivered_frame_stable {v : Version} {idVendor : Nat} {xs ys : Log}
    (hrun : IsRun (step v) (Machine.load idVendor) (xs ++ ys)) {i : Nat}
    (hi : i < (lastState (Machine.load idVendor) xs).drv.queue.count)
    (hdone : (lastState (Machine.load idVendor) xs).drv.stateOf i = .done)
    (hno : ∀ e ∈ ys, ¬ e.input.IsReqbufs) (hacc : i ∉ acceptedAlong ys) :
    SameFrame (lastState (Machine.load idVendor) xs).drv
      (lastState (Machine.load idVendor) (xs ++ ys)).drv i := by
  obtain ⟨hxs, hys⟩ := isRun_append.mp hrun
  rw [lastState_append]
  exact ((laidOut_of_run hxs).resting_run ⟨hi, Or.inl hdone⟩ hys hno hacc).2

/-- With the vendor whose pictures are repaired, buffer 0 is filled. -/
def repairedLog : Log :=
  exec (step .th10) (Machine.load 0x1B3B)
    [.call (.sFmt captureFormat), .call (.reqbufs 2 fun _ => some fun _ => 0),
      .call (.qbuf (queueRequest 0)), .call (.qbuf (queueRequest 1)),
      .call (.streamon plainEnv), .irq 1 0,
      .packet ⟨0, [12, 2, 0, 0, 0, 0, 0, 0, 0, 0, 0, 0, 0xD8, 0xFF, 0xC4, 0x01], true⟩]

/-- Then a packet for buffer 1 arrives, and buffer 0 is taken. -/
def takenLog : Log :=
  exec (step .th10) (lastState (Machine.load 0x1B3B) repairedLog)
    [.packet ⟨0, [12, 0, 0, 0, 0, 0, 0, 0, 0, 0, 0, 0, 0xD8, 0xFF, 0xC4, 0x02], true⟩,
      .resubmit 0, .call .dqbuf]

/-- A frame whose header was repaired stays as it is until it is taken. -/
theorem repaired_frame_stable :
    (lastState (Machine.load 0x1B3B) repairedLog).drv.bytesusedOf 0 = 4 ∧
    SameFrame (lastState (Machine.load 0x1B3B) repairedLog).drv
      (lastState (Machine.load 0x1B3B) (repairedLog ++ takenLog)).drv 0 := by
  refine ⟨by decide +kernel, ?_⟩
  refine delivered_frame_stable (isRun_append.mpr ⟨isRun_exec _ _, isRun_exec _ _⟩)
    (by decide +kernel) (by decide +kernel) ?_ (by decide +kernel)
  intro e he
  have hin := input_mem_of_mem_exec he
  simp only [List.mem_cons, List.not_mem_nil, or_false] at hin
  rcases hin with h | h | h <;> simp [h, Input.IsReqbufs, Call.IsReqbufs]

end Myuvc
