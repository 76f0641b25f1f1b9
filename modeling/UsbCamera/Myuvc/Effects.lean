import UsbCamera.Myuvc.Machine

/-!
# What a step can do

One inversion lemma for each entry point of the driver, so that no later proof
has to unfold the source functions again.

A step is `Quiet` when it leaves the frame memory, the queues, the frame ids and
of every buffer the public part and the state alone, and sets the size of a
picture only to the one there is.  All calls but
`VIDIOC_REQBUFS`, `VIDIOC_QBUF` and `VIDIOC_DQBUF` are quiet, and so are the
refused ones of the last two.  A packet either is passed over, or only sets the
frame ids, or touches the current buffer (`Touches`).
-/

namespace Myuvc

/-- The frame memory, the queues and the public part and state of every buffer
are as they were. -/
structure SameBuffers (d d' : Driver) : Prop where
  mem : d'.queue.mem = d.queue.mem
  count : d'.queue.count = d.queue.count
  bufSize : d'.queue.bufSize = d.queue.bufSize
  main : d'.queue.mainqueue = d.queue.mainqueue
  irq : d'.queue.irqqueue = d.queue.irqqueue
  buf : ∀ i, (d'.queue.buffer i).buf = (d.queue.buffer i).buf
  state : ∀ i, (d'.queue.buffer i).state = (d.queue.buffer i).state
  idVendor : d'.idVendor = d.idVendor

/-- The size of a picture is as it was, or the one that `VIDIOC_S_FMT` sets. -/
def SameSize (d d' : Driver) : Prop :=
  d'.format.pix.sizeimage = d.format.pix.sizeimage ∨
    d'.format.pix.sizeimage = dwMaxVideoFrameSize

/-- Two steps that keep the size keep it together. -/
theorem SameSize.trans {d₁ d₂ d₃ : Driver} (h₁ : SameSize d₁ d₂) (h₂ : SameSize d₂ d₃) :
    SameSize d₁ d₃ := by
  rcases h₂ with h₂ | h₂
  · exact h₁.imp h₂.trans h₂.trans
  · exact Or.inr h₂

/-- Nothing that concerns the buffers has changed, and the frame ids have not
either. -/
structure Quiet (d d' : Driver) : Prop extends SameBuffers d d' where
  lastFid : d'.lastFid = d.lastFid
  fid : d'.fid = d.fid
  size : SameSize d d'

/-- A change of the queue record alone that spares all fields that concern the
buffers. -/
theorem SameBuffers.of_queue {d d' : Driver} (hqueue : d'.queue = d.queue)
    (hvendor : d'.idVendor = d.idVendor) : SameBuffers d d' := by
  refine ⟨?_, ?_, ?_, ?_, ?_, ?_, ?_, hvendor⟩ <;> simp [hqueue]

theorem Quiet.refl (d : Driver) : Quiet d d :=
  ⟨SameBuffers.of_queue rfl rfl, rfl, rfl, Or.inl rfl⟩

/-- Nothing has changed but what concerns the URBs. -/
def UrbsOnly (d d' : Driver) : Prop :=
  ∃ params usb urb urbBuffer urbSize, d' = { d with
    params := params
    usb := usb
    queue := { d.queue with urb := urb, urbBuffer := urbBuffer, urbSize := urbSize } }

/-- A change of the USB side alone. -/
theorem UrbsOnly.of_urbs (d : Driver) (params : StreamingControl) (usb : UsbCore)
    (urb : Nat → Option UrbObj) (urbBuffer : Nat → Option Nat) (urbSize : Nat) :
    UrbsOnly d { d with
      params := params
      usb := usb
      queue := { d.queue with urb := urb, urbBuffer := urbBuffer, urbSize := urbSize } } :=
  ⟨params, usb, urb, urbBuffer, urbSize, rfl⟩

theorem UrbsOnly.refl (d : Driver) : UrbsOnly d d := UrbsOnly.of_urbs d _ _ _ _ _

/-- Two such changes are one. -/
theorem UrbsOnly.trans {d₁ d₂ d₃ : Driver} (h₁ : UrbsOnly d₁ d₂) (h₂ : UrbsOnly d₂ d₃) :
    UrbsOnly d₁ d₃ := by
  obtain ⟨_, _, _, _, _, rfl⟩ := h₁
  obtain ⟨_, _, _, _, _, rfl⟩ := h₂
  exact UrbsOnly.of_urbs d₁ _ _ _ _ _

/-- What concerns the URBs does not concern the buffers. -/
theorem UrbsOnly.quiet {d d' : Driver} (h : UrbsOnly d d') : Quiet d d' := by
  obtain ⟨_, _, _, _, _, rfl⟩ := h
  exact ⟨⟨rfl, rfl, rfl, rfl, rfl, fun _ => rfl, fun _ => rfl, rfl⟩, rfl, rfl, Or.inl rfl⟩

/-- A loop over slots deals with URBs only when its body does. -/
theorem UrbsOnly.foldl {f : Driver → Nat → Driver} (hf : ∀ d i, UrbsOnly d (f d i))
    (is : List Nat) (d : Driver) : UrbsOnly d (is.foldl f d) := by
  apply List.foldlRecOn (motive := UrbsOnly d)
  · exact UrbsOnly.refl d
  · intro e he i _
    exact he.trans (hf e i)

/-- Freeing a slot is a change of the USB side alone. -/
theorem uninitSlot_urbsOnly (d : Driver) (i : Nat) : UrbsOnly d (uninitSlot d i) := by
  unfold uninitSlot
  cases hbuf : d.queue.urbBuffer i <;> cases hurb : d.queue.urb i <;>
    simp only [hurb] <;> exact UrbsOnly.of_urbs d _ _ _ _ _

/-- `uninit_urbs` changes the USB side alone. -/
theorem uninitUrbs_urbsOnly (d : Driver) : UrbsOnly d (uninitUrbs d) :=
  UrbsOnly.foldl uninitSlot_urbsOnly urbSlots d

/-- So does `usb_kill_urb`. -/
theorem killSlot_urbsOnly (d : Driver) (i : Nat) : UrbsOnly d (killSlot d i) := by
  unfold killSlot
  cases d.queue.urb i <;> exact UrbsOnly.of_urbs d _ _ _ _ _

/-- The allocation of the URBs changes the USB side alone, also when it gives up. -/
theorem allocUrbSlots_urbsOnly (env : StreamonEnv) (packets : Nat) (is : List Nat)
    (d : Driver) : UrbsOnly d (allocUrbSlots env packets is d).2 := by
  induction is generalizing d with
  | nil => exact UrbsOnly.refl d
  | cons i rest ih =>
      simp only [allocUrbSlots]
      split
      · refine UrbsOnly.trans ?_ (uninitUrbs_urbsOnly _)
        exact UrbsOnly.of_urbs d _ _ _ _ _
      · refine UrbsOnly.trans ?_ (ih _)
        exact UrbsOnly.of_urbs d _ _ _ _ _

theorem allocInitUrbs_urbsOnly (d : Driver) (env : StreamonEnv) :
    UrbsOnly d (allocInitUrbs d env).2 := by
  have hslots := allocUrbSlots_urbsOnly env (npackets d.params.dwMaxVideoFrameSize) urbSlots
    { d with queue := { d.queue with
        urbSize := wMaxPacketSize * npackets d.params.dwMaxVideoFrameSize } }
  have hstart : UrbsOnly d { d with queue := { d.queue with
      urbSize := wMaxPacketSize * npackets d.params.dwMaxVideoFrameSize } } :=
    UrbsOnly.of_urbs d _ _ _ _ _
  unfold allocInitUrbs
  simp only
  split
  · rename_i d₁ heq
    rw [heq] at hslots
    exact hstart.trans hslots
  · rename_i d₁ heq
    rw [heq] at hslots
    exact (hstart.trans hslots).trans (UrbsOnly.of_urbs _ _ _ _ _ _)

/-- **The submitting loop** keeps what submitting one of its URBs and freeing them all keep. -/
theorem submitUrbs_keeps {P : Driver → Prop} {env : StreamonEnv} {is : List Nat}
    (hsubmit : ∀ d, P d → ∀ i ∈ is, ∀ u, d.queue.urb i = some u →
      P { d with usb := (d.usb.submitUrb u.handle u.numberOfPackets (env.submit i)).2 })
    (huninit : ∀ d, P d → P (uninitUrbs d)) {d : Driver} (hd : P d) :
    P (submitUrbs env is d).2 := by
  induction is generalizing d with
  | nil => exact hd
  | cons i rest ih =>
      simp only [submitUrbs]
      split
      · exact huninit d hd
      · rename_i u hu
        have hnext := hsubmit d hd i List.mem_cons_self u hu
        split
        · exact huninit _ hnext
        · exact ih (fun e he j hj => hsubmit e he j (List.mem_cons_of_mem _ hj)) hnext

/-- So does their submission. -/
theorem submitUrbs_urbsOnly (env : StreamonEnv) (is : List Nat) (d : Driver) :
    UrbsOnly d (submitUrbs env is d).2 := by
  apply submitUrbs_keeps (P := UrbsOnly d)
  · intro e he i _ u _
    exact he.trans (UrbsOnly.of_urbs e _ _ _ _ _)
  · intro e he
    exact he.trans (uninitUrbs_urbsOnly e)
  · exact UrbsOnly.refl d

/-- Starting the stream deals with URBs only. -/
theorem vidiocStreamon_urbsOnly (d : Driver) (env : StreamonEnv) :
    UrbsOnly d (vidiocStreamon d env).2 := by
  have hparams : UrbsOnly d { d with params := negotiate uvcVersion env.negotiation d.params } :=
    UrbsOnly.of_urbs d _ _ _ _ _
  exact (hparams.trans (allocInitUrbs_urbsOnly _ env)).trans (submitUrbs_urbsOnly env urbSlots _)

/-- So does stopping it. -/
theorem vidiocStreamoff_urbsOnly (d : Driver) : UrbsOnly d (vidiocStreamoff d).2 :=
  (UrbsOnly.foldl killSlot_urbsOnly urbSlots d).trans (uninitUrbs_urbsOnly _)

/-- The count of mappings is nothing to the lists and the frames. -/
theorem addVmaUse_quiet (d : Driver) (i : Nat) (k : Int) : Quiet d (addVmaUse d i k) := by
  have hbuf : ∀ j, ((addVmaUse d i k).queue.buffer j).buf = (d.queue.buffer j).buf ∧
      ((addVmaUse d i k).queue.buffer j).state = (d.queue.buffer j).state := by
    intro j
    by_cases hj : j = i
    · subst hj
      simp [addVmaUse]
    · simp [addVmaUse, Queue.setBuffer_other _ _ hj]
  exact ⟨⟨rfl, rfl, rfl, rfl, rfl, fun j => (hbuf j).1, fun j => (hbuf j).2, rfl⟩, rfl, rfl,
    Or.inl rfl⟩

/-- `mmap` changes that count at most. -/
theorem mmap_quiet (d : Driver) (pgoff size : Nat) (insert : Nat → Int) :
    Quiet d (mmap d pgoff size insert).2 := by
  unfold mmap
  split
  · exact Quiet.refl d
  · simp only
    split
    · exact Quiet.refl d
    · split
      · exact Quiet.refl d
      · exact addVmaUse_quiet d _ 1

/-- An accepted format has the one size there is. -/
theorem sizeimage_vidiocTryFmtVidCap (f : V4l2Format) :
    (vidiocTryFmtVidCap f).1 < 0 ∨
      (vidiocTryFmtVidCap f).2.pix.sizeimage = dwMaxVideoFrameSize := by
  have hneg : -EINVAL < 0 := by decide
  unfold vidiocTryFmtVidCap
  split
  · exact Or.inl hneg
  · split
    · exact Or.inl hneg
    · exact Or.inr rfl

/-- Setting a format changes nothing but the format. -/
theorem vidiocSFmtVidCap_quiet (d : Driver) (f : V4l2Format) :
    Quiet d (vidiocSFmtVidCap d f).2 := by
  have hsize := sizeimage_vidiocTryFmtVidCap f
  unfold vidiocSFmtVidCap
  simp only
  split
  · exact Quiet.refl d
  · rename_i hret
    exact ⟨⟨rfl, rfl, rfl, rfl, rfl, fun _ => rfl, fun _ => rfl, rfl⟩, rfl, rfl,
      Or.inr (hsize.resolve_left hret)⟩

/-- The driver after buffer `i` was queued. -/
def queued (d : Driver) (i : Nat) (main irq : List Nat) : Driver :=
  { d with queue := { d.queue.setBuffer i { d.queue.buffer i with
        state := .queued, buf := { (d.queue.buffer i).buf with bytesused := 0 } } with
      mainqueue := some (main ++ [i]), irqqueue := some (irq ++ [i]) } }

/-- `VIDIOC_QBUF` concerns one buffer only. -/
theorem queued_other (d : Driver) {i j : Nat} (main irq : List Nat) (h : j ≠ i) :
    (queued d i main irq).queue.buffer j = d.queue.buffer j := Queue.setBuffer_other _ _ h

/-- That buffer is `QUEUED` afterwards. -/
@[simp] theorem queued_state (d : Driver) (i : Nat) (main irq : List Nat) :
    (queued d i main irq).stateOf i = .queued := by simp [Driver.stateOf, queued]

/-- It holds no bytes yet. -/
@[simp] theorem queued_bytesused (d : Driver) (i : Nat) (main irq : List Nat) :
    (queued d i main irq).bytesusedOf i = 0 := by simp [Driver.bytesusedOf, queued]

/-- **`VIDIOC_QBUF`** either refuses and changes nothing, or accepts an idle
buffer and appends it to both queues. -/
theorem vidiocQbuf_cases {d d' : Driver} {b : V4l2Buffer} {r : Reply}
    (h : vidiocQbuf d b = .ok (r, d')) :
    (r = .ret (-EINVAL) ∧ d' = d) ∨
    (∃ main irq, r = .ret 0 ∧ b.index < d.queue.count ∧
      (d.queue.buffer b.index).state = .idle ∧
      d.queue.mainqueue = some main ∧ d.queue.irqqueue = some irq ∧
      d' = queued d b.index main irq) := by
  unfold vidiocQbuf at h
  split at h
  · cases h
    exact Or.inl ⟨rfl, rfl⟩
  split at h
  · cases h
    exact Or.inl ⟨rfl, rfl⟩
  rename_i hcount
  simp only at h
  split at h
  · cases h
    exact Or.inl ⟨rfl, rfl⟩
  rename_i hidle
  right
  cases hmain : d.queue.mainqueue with
  | none => simp [hmain, ListHead.addTail] at h
  | some main =>
      cases hirq : d.queue.irqqueue with
      | none => simp [hmain, hirq, ListHead.addTail] at h
      | some irq =>
          simp only [hmain, hirq, ListHead.addTail_some, Except.ok.injEq, Prod.mk.injEq] at h
          refine ⟨main, irq, h.1.symm, by omega, by simpa using hidle, rfl, rfl, ?_⟩
          rw [← h.2]
          rfl

/-- The driver after the finished buffer `i` was handed to the application. -/
def dequeued (d : Driver) (i : Nat) (rest : List Nat) : Driver :=
  { d with queue := { d.queue.setBuffer i { d.queue.buffer i with state := .idle } with
      mainqueue := some rest } }

/-- `VIDIOC_DQBUF` concerns one buffer only. -/
theorem dequeued_other (d : Driver) {i j : Nat} (rest : List Nat) (h : j ≠ i) :
    (dequeued d i rest).queue.buffer j = d.queue.buffer j := Queue.setBuffer_other _ _ h

/-- That buffer is `IDLE` afterwards. -/
@[simp] theorem dequeued_state (d : Driver) (i : Nat) (rest : List Nat) :
    (dequeued d i rest).stateOf i = .idle := by simp [Driver.stateOf, dequeued]

/-- A buffer that is taken keeps its bytes. -/
theorem dequeued_buf (d : Driver) (i j : Nat) (rest : List Nat) :
    ((dequeued d i rest).queue.buffer j).buf = (d.queue.buffer j).buf := by
  by_cases h : j = i
  · subst h
    simp [dequeued]
  · rw [dequeued_other d rest h]

/-- **`VIDIOC_DQBUF`** either refuses and changes nothing, or takes the finished
buffer at the head of `mainqueue`. -/
theorem vidiocDqbuf_cases {d d' : Driver} {r : Reply} (h : vidiocDqbuf d = .ok (r, d')) :
    ((r = .ret (-EINVAL) ∨ r = .ret (- EIO)) ∧ d' = d) ∨
    (∃ i rest, r = .buffer (d.queue.buffer i).buf ∧ d.queue.mainqueue = some (i :: rest) ∧
      (d.queue.buffer i).state = .done ∧ d' = dequeued d i rest) := by
  unfold vidiocDqbuf at h
  rcases hmain : d.queue.mainqueue with _ | _ | ⟨i, rest⟩
  · simp [hmain, ListHead.listEmpty, ListHead.firstEntry] at h
  · simp only [hmain, ListHead.listEmpty, List.isEmpty_nil, if_true, Except.ok.injEq,
      Prod.mk.injEq] at h
    exact Or.inl ⟨Or.inl h.1.symm, h.2.symm⟩
  · simp only [hmain, ListHead.listEmpty, List.isEmpty_cons, Bool.false_eq_true, if_false,
      ListHead.firstEntry] at h
    cases hstate : (d.queue.buffer i).state <;> simp only [hstate] at h
    case done =>
      cases h
      refine Or.inr ⟨i, rest, rfl, rfl, hstate, ?_⟩
      simp [dequeued, ListHead.del]
    case error =>
      cases h
      exact Or.inl ⟨Or.inr rfl, rfl⟩
    all_goals
      cases h
      exact Or.inl ⟨Or.inl rfl, rfl⟩

/-- **`myuvc_poll`** answers from the head of `mainqueue`. -/
theorem poll_cases {d : Driver} {r : Reply} (h : poll d = .ok r) :
    (d.queue.mainqueue = some [] ∧ r = .mask POLLERR) ∨
    (∃ i rest, d.queue.mainqueue = some (i :: rest) ∧
      ((d.queue.buffer i).state = .done ∨ (d.queue.buffer i).state = .error) ∧
      r = .mask (POLLIN ||| POLLRDNORM)) ∨
    (∃ i rest, d.queue.mainqueue = some (i :: rest) ∧ (d.queue.buffer i).state ≠ .done ∧
      r = .mask 0) := by
  unfold poll at h
  rcases hmain : d.queue.mainqueue with _ | _ | ⟨i, rest⟩
  · simp [hmain, ListHead.listEmpty, ListHead.firstEntry] at h
  · simp only [hmain, ListHead.listEmpty, List.isEmpty_nil, if_true, Except.ok.injEq] at h
    exact Or.inl ⟨rfl, h.symm⟩
  · simp only [hmain, ListHead.listEmpty, List.isEmpty_cons, Bool.false_eq_true, if_false,
      ListHead.firstEntry] at h
    cases hstate : (d.queue.buffer i).state <;> simp only [hstate, Except.ok.injEq] at h
    case done => exact Or.inr (Or.inl ⟨i, rest, rfl, Or.inl hstate, h.symm⟩)
    case error => exact Or.inr (Or.inl ⟨i, rest, rfl, Or.inr hstate, h.symm⟩)
    all_goals exact Or.inr (Or.inr ⟨i, rest, rfl, by simp [hstate], h.symm⟩)

/-- Only the statics of the scratch block change when it is made ready. -/
theorem scratchBlock_spec {d d' : Driver} {n : Nat} {k : Bool}
    (h : scratchBlock d n k = .ok d') :
    ∃ t s, d' = { d with memTemp := t, nArrayTempSize := s } := by
  unfold scratchBlock at h
  split at h
  · split at h
    · cases h
      exact ⟨_, _, rfl⟩
    · cases h
  · split at h
    · split at h
      · cases h
        exact ⟨_, _, rfl⟩
      · cases h
    · cases h
      exact ⟨_, _, rfl⟩

/-- The repair writes at most one byte more than was stored. -/
theorem repair_spec {d d' : Driver} {mem mem' : FrameMem} {dest n : Nat} {k : Bool}
    (h : repair d mem dest n k = .ok (d', mem')) :
    (∃ t s, d' = { d with memTemp := t, nArrayTempSize := s }) ∧ mem'.size = mem.size ∧
      ∀ x, x < dest ∨ dest + n + 1 ≤ x → mem'.bytes x = mem.bytes x := by
  unfold repair at h
  cases hs : scratchBlock d n k with
  | error e => simp [hs] at h
  | ok d₁ =>
      have hd := scratchBlock_spec hs
      simp only [hs] at h
      split at h
      · split at h
        · cases h
        · cases h
          refine ⟨hd, rfl, fun x hx => ?_⟩
          apply ByteStore.write_outside
          simp only [List.length_cons, ByteStore.length_read]
          omega
      · cases h
        exact ⟨hd, rfl, fun _ _ => rfl⟩

/-- The three bytes from `x` on are those of a picture whose first byte is
missing. -/
def TornAt (bytes : Nat → UInt8) (x : Nat) : Prop :=
  bytes x = 0xD8 ∧ bytes (x + 1) = 0xFF ∧ bytes (x + 2) = 0xC4

instance (bytes : Nat → UInt8) (x : Nat) : Decidable (TornAt bytes x) :=
  inferInstanceAs (Decidable (_ ∧ _))

/-- What is not torn is not repaired. -/
theorem repair_plain {d d' : Driver} {mem mem' : FrameMem} {dest n : Nat} {k : Bool}
    (h : repair d mem dest n k = .ok (d', mem')) (hplain : ¬ TornAt mem.bytes dest) :
    mem' = mem := by
  unfold repair at h
  cases hs : scratchBlock d n k with
  | error e => simp [hs] at h
  | ok d₁ =>
      simp only [hs] at h
      split at h
      · rename_i htorn
        exact absurd htorn hplain
      · cases h
        rfl

/-- The frame memory once the payload of `p` has been copied behind what buffer `b`
holds. -/
def copied (bytes : Nat → UInt8) (b : V4l2Buffer) (p : Packet) : Nat → UInt8 :=
  ByteStore.write bytes (b.offset + b.bytesused) (storedBytes b p)

/-- The payload is copied and then left as it is: the vendor is not the one whose
pictures are repaired, or there is nothing to repair. -/
def CopiesPlainly (idVendor : Nat) (bytes : Nat → UInt8) (b : V4l2Buffer) (p : Packet) : Prop :=
  idVendor ≠ 0x1B3B ∨ ¬ TornAt (copied bytes b p) (b.offset + b.bytesused)

/-- **Storing a payload** accounts for the stored bytes in buffer `i`, and
writes them behind what the buffer holds and at most one byte further. -/
theorem storePayload_spec {d d' : Driver} {i : Nat} {p : Packet}
    (h : storePayload d i p = .ok d') :
    ∃ mem mem' t s, d.queue.mem = some mem ∧
      (d.queue.buffer i).buf.bytesused ≤ (d.queue.buffer i).buf.length ∧
      d' = { d with
        memTemp := t
        nArrayTempSize := s
        queue := { d.queue.setBuffer i (received (d.queue.buffer i) p) with mem := some mem' } } ∧
      mem'.size = mem.size ∧
      (∀ x, x < (d.queue.buffer i).buf.offset + (d.queue.buffer i).buf.bytesused ∨
          (d.queue.buffer i).buf.offset + (d.queue.buffer i).buf.bytesused +
            (storedBytes (d.queue.buffer i).buf p).length + 1 ≤ x →
        mem'.bytes x = mem.bytes x) ∧
      (CopiesPlainly d.idVendor mem.bytes (d.queue.buffer i).buf p →
        mem'.bytes = copied mem.bytes (d.queue.buffer i).buf p) := by
  unfold storePayload at h
  simp only at h
  split at h
  · cases h
  rename_i hroom
  cases hmem : d.queue.mem with
  | none => simp [hmem] at h
  | some mem =>
      simp only [hmem] at h
      split at h
      · rename_i hvendor
        split at h
        · cases h
        · rename_i d₁ mem₁ hrep
          cases h
          obtain ⟨⟨t, s, rfl⟩, hsize, hout⟩ := repair_spec hrep
          refine ⟨mem, mem₁, t, s, rfl, by omega, rfl, hsize, ?_, ?_⟩
          · intro x hx
            rw [hout x hx]
            exact ByteStore.write_outside _ _ _ _ (by omega)
          · rintro (hne | hplain)
            · exact absurd hvendor hne
            · rw [repair_plain hrep hplain]
              rfl
      · cases h
        refine ⟨mem, _, _, _, rfl, by omega, rfl, rfl, ?_, fun _ => rfl⟩
        intro x hx
        exact ByteStore.write_outside _ _ _ _ (by omega)

/-- What `fillBuffer` can do: wait for a new frame, close the buffer at a frame
boundary, or store. -/
theorem fillBuffer_cases {d d' : Driver} {i : Nat} {p : Packet} {buf' : BufPtr}
    (h : fillBuffer d i p = .ok (d', buf')) :
    (d.stateOf i ≠ .active ∧ d.fid = d.lastFid ∧ d' = d ∧ buf' = .entry i) ∨
    (d.fid ≠ d.lastFid ∧ d.bytesusedOf i ≠ 0 ∧ d' = finishBuffer d i ∧
      buf' = d'.queue.irqqueue.current) ∨
    (∃ d₁, (d.stateOf i = .active ∨ d.fid ≠ d.lastFid) ∧
      (d.fid = d.lastFid ∨ d.bytesusedOf i = 0) ∧
      storePayload { setState d i .active with lastFid := d.fid } i p = .ok d₁ ∧
      ((frameComplete (d.queue.buffer i).buf p (d₁.bytesusedOf i) ∧ d' = finishBuffer d₁ i ∧
          buf' = d'.queue.irqqueue.current) ∨
        (¬ frameComplete (d.queue.buffer i).buf p (d₁.bytesusedOf i) ∧ d' = d₁ ∧
          buf' = .entry i))) := by
  unfold fillBuffer at h
  split at h
  · rename_i hwait
    cases h
    exact Or.inl ⟨hwait.1, hwait.2, rfl, rfl⟩
  rename_i hstart
  have hstart' : d.stateOf i = .active ∨ d.fid ≠ d.lastFid := by tauto
  have hbuf : ((setState d i .active).queue.buffer i).buf = (d.queue.buffer i).buf := by
    simp [setState]
  have hused : (setState d i .active).bytesusedOf i = d.bytesusedOf i := by
    simp [Driver.bytesusedOf, hbuf]
  simp only [hused, hbuf] at h
  split at h
  · rename_i hcut
    cases h
    refine Or.inr (Or.inl ⟨hcut.1, hcut.2, ?_, rfl⟩)
    simp [finishBuffer, setState, Queue.setBuffer]
  rename_i hcut
  have hstay : d.fid = d.lastFid ∨ d.bytesusedOf i = 0 := by
    by_contra! hne
    exact hcut hne
  refine Or.inr (Or.inr ?_)
  split at h
  · cases h
  rename_i d₁ hstore
  refine ⟨d₁, hstart', hstay, hstore, ?_⟩
  split at h
  · rename_i hdone
    cases h
    exact Or.inl ⟨hdone, rfl, rfl⟩
  · rename_i hdone
    cases h
    exact Or.inr ⟨hdone, rfl, rfl⟩

/-- What one iteration of the packet loop can do. -/
theorem packetBody_cases {v : Version} {d d' : Driver} {buf buf' : BufPtr} {p : Packet}
    (h : packetBody v d buf p = .ok (d', buf')) :
    (¬ p.Valid ∧ d' = d ∧ buf' = buf) ∨
    (p.Valid ∧ buf = .null ∧ buf' = .null ∧
      d' = { d with fid := nextFid d p, lastFid := nextFid d p }) ∨
    (∃ i, p.Valid ∧ buf = .entry i ∧
      fillBuffer { d with fid := nextFid d p } i p = .ok (d', buf')) := by
  unfold packetBody at h
  split at h
  · rename_i hlost
    cases h
    exact Or.inl ⟨fun hv => absurd hv.1 (by omega), rfl, rfl⟩
  rename_i hstatus
  split at h
  · cases h
  split at h
  · cases h
  split at h
  · rename_i hheader
    cases h
    exact Or.inl ⟨fun hv => hheader hv.2.1, rfl, rfl⟩
  rename_i hheader
  split at h
  · rename_i herr
    cases h
    exact Or.inl ⟨fun hv => hv.2.2 herr, rfl, rfl⟩
  rename_i herr
  have hvalid : p.Valid := ⟨by omega, not_not.mp hheader, herr⟩
  right
  cases buf with
  | null =>
      cases h
      exact Or.inl ⟨hvalid, rfl, rfl, rfl⟩
  | entry i => exact Or.inr ⟨i, hvalid, rfl, h⟩
  | wild => cases h

/-- Buffer `i` may have received bytes and may have been finished; every other
buffer is as it was. -/
structure Touches (d d' : Driver) (i : Nat) : Prop where
  count : d'.queue.count = d.queue.count
  bufSize : d'.queue.bufSize = d.queue.bufSize
  main : d'.queue.mainqueue = d.queue.mainqueue
  other : ∀ j, j ≠ i → d'.queue.buffer j = d.queue.buffer j
  slot : ∃ n, (d'.queue.buffer i).buf = { (d.queue.buffer i).buf with bytesused := n }
  grows : d.bytesusedOf i ≤ d'.bytesusedOf i
  fits : d.bytesusedOf i ≤ (d.queue.buffer i).buf.length →
    d'.bytesusedOf i ≤ (d.queue.buffer i).buf.length
  outcome : (d'.stateOf i = .active ∧ d'.queue.irqqueue = d.queue.irqqueue) ∨
    (d'.stateOf i = .done ∧ d'.queue.irqqueue = d.queue.irqqueue.del i)
  mem : d'.queue.mem.isSome = d.queue.mem.isSome
  idVendor : d'.idVendor = d.idVendor

/-- No more is stored than there is room for. -/
theorem length_storedBytes_le (b : V4l2Buffer) (p : Packet) :
    (storedBytes b p).length ≤ b.length - b.bytesused := by
  simp [storedBytes]

/-- A finished buffer is `DONE`; nothing else of it changes. -/
theorem finishBuffer_buffer (d : Driver) (i : Nat) :
    (finishBuffer d i).queue.buffer i = { d.queue.buffer i with state := .done } := by
  simp [finishBuffer, setState]

/-- The other buffers stay. -/
theorem finishBuffer_other (d : Driver) {i j : Nat} (h : j ≠ i) :
    (finishBuffer d i).queue.buffer j = d.queue.buffer j := by
  simp [finishBuffer, setState, Queue.setBuffer_other _ _ h]

/-- Closing a buffer touches it. -/
theorem finishBuffer_touches (d : Driver) (i : Nat) : Touches d (finishBuffer d i) i where
  count := rfl
  bufSize := rfl
  main := rfl
  other := fun _ hj => finishBuffer_other d hj
  slot := ⟨d.bytesusedOf i, by rw [finishBuffer_buffer]; rfl⟩
  grows := by simp [Driver.bytesusedOf, finishBuffer_buffer]
  fits := by simp [Driver.bytesusedOf, finishBuffer_buffer]
  outcome := Or.inr ⟨by simp [Driver.stateOf, finishBuffer_buffer], rfl⟩
  mem := rfl
  idVendor := rfl

/-- Storing into an activated buffer touches it and leaves it active. -/
theorem storePayload_touches {d d₁ : Driver} {i : Nat} {p : Packet} {f : Int}
    (h : storePayload { setState d i .active with lastFid := f } i p = .ok d₁) :
    Touches d d₁ i ∧ d₁.stateOf i = .active ∧ d₁.queue.irqqueue = d.queue.irqqueue := by
  obtain ⟨mem, mem', t, s, hmem, hroom, rfl, -, -, -⟩ := storePayload_spec h
  have hbuf : (setState d i .active).queue.buffer i =
      { d.queue.buffer i with state := .active } := by simp [setState]
  have hlen := length_storedBytes_le (d.queue.buffer i).buf p
  simp only [setState] at hmem
  simp only [hbuf] at hroom
  refine ⟨?_, by simp [Driver.stateOf, received, setState], rfl⟩
  exact
    { count := rfl
      bufSize := rfl
      main := rfl
      other := fun j hj => by simp [setState, Queue.setBuffer, hj]
      slot := ⟨_, by simp [received, setState]; rfl⟩
      grows := by simp [Driver.bytesusedOf, received, setState]
      fits := by
        simp only [Driver.bytesusedOf, received, setState, Queue.setBuffer_same]
        omega
      outcome := Or.inl ⟨by simp [Driver.stateOf, received, setState], rfl⟩
      mem := by simpa using (congrArg Option.isSome hmem).symm
      idVendor := rfl }

/-- Touching in two steps, the first of which leaves the buffer queued. -/
theorem Touches.finish {d d₁ : Driver} {i : Nat} (h : Touches d d₁ i)
    (hirq : d₁.queue.irqqueue = d.queue.irqqueue) : Touches d (finishBuffer d₁ i) i where
  count := h.count
  bufSize := h.bufSize
  main := h.main
  other := fun j hj => (finishBuffer_other d₁ hj).trans (h.other j hj)
  slot := by
    obtain ⟨n, hn⟩ := h.slot
    exact ⟨n, by rw [finishBuffer_buffer]; exact hn⟩
  grows := by simpa [Driver.bytesusedOf, finishBuffer_buffer] using h.grows
  fits := by simpa [Driver.bytesusedOf, finishBuffer_buffer] using h.fits
  outcome := Or.inr ⟨by simp [Driver.stateOf, finishBuffer_buffer], by
    rw [← hirq]
    rfl⟩
  mem := h.mem
  idVendor := h.idVendor

/-- **One packet.**  Either the packet leaves the queue record alone, or there
is a current buffer and it touches that one.  The handler's `buf` is the first
entry of `irqqueue` again afterwards. -/
theorem packetBody_effect {v : Version} {d d' : Driver} {buf buf' : BufPtr} {p : Packet}
    (h : packetBody v d buf p = .ok (d', buf')) :
    (d'.queue = d.queue ∧ d'.idVendor = d.idVendor ∧ buf' = buf) ∨
    (∃ i, p.Valid ∧ buf = .entry i ∧ Touches d d' i ∧
      ((d'.stateOf i = .active ∧ buf' = .entry i) ∨ buf' = d'.queue.irqqueue.current)) := by
  rcases packetBody_cases h with ⟨_, rfl, rfl⟩ | ⟨_, rfl, rfl, rfl⟩ | ⟨i, hvalid, rfl, hfill⟩
  · exact Or.inl ⟨rfl, rfl, rfl⟩
  · exact Or.inl ⟨rfl, rfl, rfl⟩
  · rcases fillBuffer_cases hfill with ⟨_, _, rfl, rfl⟩ | ⟨_, _, rfl, rfl⟩ |
        ⟨d₁, _, _, hstore, hend⟩
    · exact Or.inl ⟨rfl, rfl, rfl⟩
    · have ht := finishBuffer_touches { d with fid := nextFid d p } i
      exact Or.inr ⟨i, hvalid, rfl, ⟨ht.count, ht.bufSize, ht.main, ht.other, ht.slot, ht.grows,
        ht.fits, ht.outcome, ht.mem, ht.idVendor⟩, Or.inr rfl⟩
    · obtain ⟨ht, hactive, hirq⟩ := storePayload_touches hstore
      have ht' : Touches d d₁ i := ⟨ht.count, ht.bufSize, ht.main, ht.other, ht.slot, ht.grows,
        ht.fits, ht.outcome, ht.mem, ht.idVendor⟩
      rcases hend with ⟨_, rfl, rfl⟩ | ⟨_, rfl, rfl⟩
      · exact Or.inr ⟨i, hvalid, rfl, ht'.finish hirq, Or.inr rfl⟩
      · exact Or.inr ⟨i, hvalid, rfl, ht', Or.inl ⟨hactive, rfl⟩⟩

/-- The buffer index a step accepts into the queues, if it does. -/
def accepted : Input → Reply → List Nat
  | .call (.qbuf b), .ret r => if r = 0 then [b.index] else []
  | _, _ => []

/-- The buffer index a step hands to the application, if it does. -/
def delivered : Input → Reply → List Nat
  | .call .dqbuf, .buffer b => [b.index]
  | _, _ => []

/-- A call that asks for new buffers. -/
def Call.IsReqbufs : Call → Prop
  | .reqbufs _ _ => True
  | _ => False

/-- An input that asks for new buffers. -/
def Input.IsReqbufs : Input → Prop
  | .call c => c.IsReqbufs
  | _ => False

/-- The input of a request for buffers. -/
theorem Input.IsReqbufs.eq {i : Input} (h : i.IsReqbufs) :
    ∃ count alloc, i = .call (.reqbufs count alloc) := by
  cases i with
  | call c =>
      cases c with
      | reqbufs count alloc => exact ⟨count, alloc, rfl⟩
      | _ => exact absurd h id
  | _ => exact absurd h id

/-- **One call.**  It asks for new buffers, or queues one, or takes one, or is
quiet. -/
theorem call_cases {d d' : Driver} {c : Call} {r : Reply} (h : call d c = .ok (r, d')) :
    (∃ n alloc, c = .reqbufs n alloc ∧ vidiocReqbufs d n alloc = .ok (r, d')) ∨
    (∃ b main irq, c = .qbuf b ∧ r = .ret 0 ∧ b.index < d.queue.count ∧
      (d.queue.buffer b.index).state = .idle ∧ d.queue.mainqueue = some main ∧
      d.queue.irqqueue = some irq ∧ d' = queued d b.index main irq) ∨
    (∃ i rest, c = .dqbuf ∧ r = .buffer (d.queue.buffer i).buf ∧
      d.queue.mainqueue = some (i :: rest) ∧ (d.queue.buffer i).state = .done ∧
      d' = dequeued d i rest) ∨
    (¬ c.IsReqbufs ∧ accepted (.call c) r = [] ∧ delivered (.call c) r = [] ∧ Quiet d d') := by
  cases c with
  | reqbufs n alloc => exact Or.inl ⟨n, alloc, rfl, h⟩
  | qbuf b =>
      right
      rcases vidiocQbuf_cases h with ⟨rfl, rfl⟩ | ⟨main, irq, hr, hi, hidle, hm, hq, hd⟩
      · exact Or.inr (Or.inr ⟨id, by simp [accepted, EINVAL], rfl, Quiet.refl _⟩)
      · exact Or.inl ⟨b, main, irq, rfl, hr, hi, hidle, hm, hq, hd⟩
  | dqbuf =>
      right; right
      rcases vidiocDqbuf_cases h with ⟨hr, rfl⟩ | ⟨i, rest, hr, hm, hdone, hd⟩
      · refine Or.inr ⟨id, rfl, ?_, Quiet.refl _⟩
        rcases hr with rfl | rfl <;> rfl
      · exact Or.inl ⟨i, rest, rfl, hr, hm, hdone, hd⟩
  | poll =>
      right; right; right
      obtain ⟨-, rfl⟩ := call_poll h
      exact ⟨id, rfl, rfl, Quiet.refl _⟩
  | sFmt f =>
      right; right; right
      have hd : (vidiocSFmtVidCap d f).2 = d' := congrArg Prod.snd (Except.ok.inj h)
      exact ⟨id, rfl, rfl, hd ▸ vidiocSFmtVidCap_quiet d f⟩
  | mmap pgoff size insert =>
      right; right; right
      have hd : (mmap d pgoff size insert).2 = d' := congrArg Prod.snd (Except.ok.inj h)
      exact ⟨id, rfl, rfl, hd ▸ mmap_quiet d pgoff size insert⟩
  | vmOpen i =>
      right; right; right
      cases h
      exact ⟨id, rfl, rfl, addVmaUse_quiet d i 1⟩
  | vmClose i =>
      right; right; right
      cases h
      exact ⟨id, rfl, rfl, addVmaUse_quiet d i (-1)⟩
  | streamon env =>
      right; right; right
      have hd : (vidiocStreamon d env).2 = d' := congrArg Prod.snd (Except.ok.inj h)
      exact ⟨id, rfl, rfl, hd ▸ (vidiocStreamon_urbsOnly d env).quiet⟩
  | streamoff =>
      right; right; right
      cases h
      exact ⟨id, rfl, rfl, (vidiocStreamoff_urbsOnly d).quiet⟩
  | close =>
      right; right; right
      cases h
      exact ⟨id, rfl, rfl, (vidiocStreamoff_urbsOnly d).quiet⟩
  | openDev | gFmt | tryFmt | querybuf =>
      right; right; right
      cases h
      exact ⟨id, rfl, rfl, Quiet.refl d⟩

/-- The allocation loop settles for the largest number it can have memory
for. -/
theorem allocLoop_some {bufsize k n : Nat} {alloc : Nat → Option (Nat → UInt8)}
    {mem : FrameMem} (h : allocLoop bufsize alloc k = some (n, mem)) :
    0 < n ∧ n ≤ k ∧ vmalloc32 (alloc n) (n * bufsize % 2 ^ 32) = some mem := by
  induction k with
  | zero => cases h
  | succ k ih =>
      simp only [allocLoop] at h
      split at h
      · rename_i mem' hmem
        cases h
        exact ⟨by omega, le_refl _, hmem⟩
      · obtain ⟨hpos, hle, hmem⟩ := ih h
        exact ⟨hpos, by omega, hmem⟩

/-- The allocation loop fails when no number of buffers can be had. -/
theorem allocLoop_none {bufsize k : Nat} {alloc : Nat → Option (Nat → UInt8)} :
    allocLoop bufsize alloc k = none ↔
      ∀ n, 0 < n → n ≤ k → vmalloc32 (alloc n) (n * bufsize % 2 ^ 32) = none := by
  induction k with
  | zero => exact ⟨fun _ n hpos hle => absurd hpos (by omega), fun _ => rfl⟩
  | succ k ih =>
      simp only [allocLoop]
      constructor
      · intro h n hpos hle
        split at h
        · cases h
        · rename_i hnone
          rcases Nat.lt_or_ge k n with hlt | hge
          · rw [show n = k + 1 by omega]
            exact hnone
          · exact ih.mp h n hpos hge
      · intro h
        rw [h (k + 1) (by omega) (le_refl _)]
        exact ih.mpr fun n hpos hle => h n hpos (by omega)

/-- The memory that was allocated has the size that was asked for. -/
theorem vmalloc32_size {answer : Option (Nat → UInt8)} {size : Nat} {mem : FrameMem}
    (h : vmalloc32 answer size = some mem) : mem.size = size ∧ size ≠ 0 := by
  unfold vmalloc32 at h
  split at h
  · cases h
  · rename_i hne
    obtain ⟨bytes, -, rfl⟩ := Option.map_eq_some_iff.mp h
    exact ⟨rfl, hne⟩

/-- Freeing the buffers leaves the format. -/
theorem freeBuffers_format (d : Driver) : (freeBuffers d).format = d.format := by
  unfold freeBuffers
  split <;> rfl

/-- `VIDIOC_REQBUFS` either gives `n` new buffers, or returns `0` or `-ENOMEM`
after giving the old ones back. -/
theorem vidiocReqbufs_cases {d d' : Driver} {count : UInt32}
    {alloc : Nat → Option (Nat → UInt8)} {r : Reply}
    (h : vidiocReqbufs d count alloc = .ok (r, d')) :
    (∃ (n : Nat) (mem : FrameMem), r = .ret n ∧ 0 < n ∧ n ≤ BUFFERS ∧
      n ≤ count.toNat ∧ count.toNat < 2 ^ 31 ∧
      vmalloc32 (alloc n) (n * pageAlign d.format.pix.sizeimage % 2 ^ 32) = some mem ∧
      d' = { freeBuffers d with
        queue := initQueue (pageAlign d.format.pix.sizeimage) d.format.pix.sizeimage n mem }) ∨
    ((r = .ret 0 ∨ r = .ret (-ENOMEM)) ∧ d' = freeBuffers d ∧
      ∀ n, 0 < n → n ≤ count.toNat → count.toNat < 2 ^ 31 →
        vmalloc32 (alloc n) (n * pageAlign d.format.pix.sizeimage % 2 ^ 32) = none) := by
  unfold vidiocReqbufs at h
  simp only [freeBuffers_format] at h
  split at h
  · rename_i hzero
    cases h
    refine Or.inr ⟨Or.inl rfl, rfl, fun n hpos hle => ?_⟩
    rw [hzero] at hle
    exact absurd hpos (by simpa using hle)
  · split at h
    · rename_i hnone
      cases h
      refine Or.inr ⟨Or.inr rfl, rfl, fun n hpos hle hlt => ?_⟩
      rw [if_pos hlt] at hnone
      exact allocLoop_none.mp hnone n hpos hle
    · rename_i n mem hsome
      split at h
      · cases h
      · rename_i hle
        cases h
        split at hsome
        · rename_i hlt
          obtain ⟨hpos, hn, hmem⟩ := allocLoop_some hsome
          exact Or.inl ⟨n, mem, rfl, hpos, by omega, hn, hlt, hmem, by
            rw [← freeBuffers_format]⟩
        · cases hsome

/-- A positive answer to `VIDIOC_REQBUFS` is the number of new buffers. -/
theorem vidiocReqbufs_gave {d d' : Driver} {count : UInt32}
    {alloc : Nat → Option (Nat → UInt8)} {n : Nat} (hn : 1 ≤ n)
    (h : vidiocReqbufs d count alloc = .ok (.ret n, d')) :
    ∃ mem, n ≤ BUFFERS ∧
      vmalloc32 (alloc n) (n * pageAlign d.format.pix.sizeimage % 2 ^ 32) = some mem ∧
      d' = { freeBuffers d with
        queue := initQueue (pageAlign d.format.pix.sizeimage) d.format.pix.sizeimage n mem } := by
  rcases vidiocReqbufs_cases h with ⟨k, mem, hr, -, hle, -, -, hmem, rfl⟩ | ⟨hr, -, -⟩
  · have hk : n = k := Int.ofNat.inj (Reply.ret.inj hr)
    subst hk
    exact ⟨mem, hle, hmem, rfl⟩
  · exfalso
    rcases hr with hr | hr
    · have : (n : Int) = 0 := Reply.ret.inj hr
      omega
    · have : (n : Int) = -ENOMEM := Reply.ret.inj hr
      unfold ENOMEM at this
      omega

/-- The handler's local `buf` is what `irqqueue` offers. -/
def CursorOk (m : Machine) : Prop :=
  ∀ k, m.irq = some k → k.buf = m.drv.queue.irqqueue.current

/-- Between two URBs no handler is running. -/
theorem cursorOk_of_none {m : Machine} (h : m.irq = none) : CursorOk m := by
  intro k hk
  rw [h] at hk
  cases hk

/-- **One step** of the machine: it asks for new buffers, queues or takes one,
touches the current one, or leaves all buffers alone. -/
theorem step_effect {v : Version} {m m' : Machine} {i : Input} {r : Reply}
    (hcur : CursorOk m) (h : step v m i = .ok (r, m')) :
    (i.IsReqbufs ∧ ∃ n alloc, i = .call (.reqbufs n alloc) ∧
      vidiocReqbufs m.drv n alloc = .ok (r, m'.drv) ∧ m'.irq = none) ∨
    (∃ b main irq, i = .call (.qbuf b) ∧ r = .ret 0 ∧ b.index < m.drv.queue.count ∧
      (m.drv.queue.buffer b.index).state = .idle ∧ m.drv.queue.mainqueue = some main ∧
      m.drv.queue.irqqueue = some irq ∧ m' = ⟨queued m.drv b.index main irq, none⟩) ∨
    (∃ j rest, i = .call .dqbuf ∧ r = .buffer (m.drv.queue.buffer j).buf ∧
      m.drv.queue.mainqueue = some (j :: rest) ∧ (m.drv.queue.buffer j).state = .done ∧
      m' = ⟨dequeued m.drv j rest, none⟩) ∨
    (∃ p j rest, i = .packet p ∧ p.Valid ∧ m.drv.queue.irqqueue = some (j :: rest) ∧
      Touches m.drv m'.drv j ∧ CursorOk m') ∨
    (¬ i.IsReqbufs ∧ accepted i r = [] ∧ delivered i r = [] ∧ CursorOk m' ∧
      SameBuffers m.drv m'.drv) := by
  rcases step_cases h with ⟨c, d', rfl, hnone, hc, rfl⟩ | ⟨urb, status, rfl, hnone, hd, hirq⟩ |
      ⟨p, k, d', buf', rfl, hsome, hbody, rfl⟩ | ⟨answer, k, rfl, hsome, rfl⟩
  · rcases call_cases hc with ⟨n, alloc, rfl, hreq⟩ |
        ⟨b, main, irq, rfl, hr, hi, hidle, hm, hq, rfl⟩ | ⟨j, rest, rfl, hr, hm, hdone, rfl⟩ |
        ⟨hno, hacc, hdel, hq⟩
    · exact Or.inl ⟨trivial, n, alloc, rfl, hreq, rfl⟩
    · exact Or.inr (Or.inl ⟨b, main, irq, rfl, hr, hi, hidle, hm, hq, rfl⟩)
    · exact Or.inr (Or.inr (Or.inl ⟨j, rest, rfl, hr, hm, hdone, rfl⟩))
    · refine Or.inr (Or.inr (Or.inr (Or.inr ⟨hno, hacc, hdel, ?_, hq.toSameBuffers⟩)))
      intro k hk
      cases hk
  · refine Or.inr (Or.inr (Or.inr (Or.inr ⟨id, rfl, rfl, ?_,
      SameBuffers.of_queue (by rw [hd]) (by rw [hd])⟩)))
    intro k hk
    rcases hirq with hirq | hirq
    · simp [hirq] at hk
    · rw [hirq] at hk
      cases hk
      rw [hd]
  · rcases packetBody_effect hbody with ⟨hqueue, hvendor, rfl⟩ | ⟨j, hvalid, hbuf, ht, hend⟩
    · refine Or.inr (Or.inr (Or.inr (Or.inr ⟨id, rfl, rfl, ?_,
        SameBuffers.of_queue hqueue hvendor⟩)))
      intro k' hk'
      cases hk'
      simpa [hqueue] using hcur k hsome
    · have hhead := (hcur k hsome).symm.trans hbuf
      obtain ⟨rest, hrest⟩ := ListHead.current_eq_entry.mp hhead
      refine Or.inr (Or.inr (Or.inr (Or.inl ⟨p, j, rest, rfl, hvalid, hrest, ht, ?_⟩)))
      intro k' hk'
      cases hk'
      rcases hend with ⟨hactive, rfl⟩ | rfl
      · rcases ht.outcome with ⟨_, hirq⟩ | ⟨hdone, _⟩
        · simp [hirq, hrest]
        · simp [hactive] at hdone
      · rfl
  · refine Or.inr (Or.inr (Or.inr (Or.inr ⟨id, rfl, rfl, ?_, SameBuffers.of_queue rfl rfl⟩)))
    intro k' hk'
    cases hk'

/-- The buffers are as many as before and have the same places. -/
structure SameShape (d d' : Driver) : Prop where
  count : d'.queue.count = d.queue.count
  bufSize : d'.queue.bufSize = d.queue.bufSize
  buf : ∀ i, ∃ n, (d'.queue.buffer i).buf = { (d.queue.buffer i).buf with bytesused := n }

/-- The fields of a buffer that `REQBUFS` sets are part of its shape. -/
theorem SameShape.index {d d' : Driver} (h : SameShape d d') (i : Nat) :
    (d'.queue.buffer i).buf.index = (d.queue.buffer i).buf.index := by
  obtain ⟨n, hn⟩ := h.buf i
  rw [hn]

theorem SameShape.offset {d d' : Driver} (h : SameShape d d') (i : Nat) :
    (d'.queue.buffer i).buf.offset = (d.queue.buffer i).buf.offset := by
  obtain ⟨n, hn⟩ := h.buf i
  rw [hn]

theorem SameShape.length {d d' : Driver} (h : SameShape d d') (i : Nat) :
    (d'.queue.buffer i).buf.length = (d.queue.buffer i).buf.length := by
  obtain ⟨n, hn⟩ := h.buf i
  rw [hn]

/-- Only a request for new buffers moves them. -/
theorem step_sameShape {v : Version} {m m' : Machine} {i : Input} {r : Reply}
    (hcur : CursorOk m) (hno : ¬ i.IsReqbufs) (h : step v m i = .ok (r, m')) :
    SameShape m.drv m'.drv := by
  rcases step_effect hcur h with ⟨hreq, -⟩ | ⟨b, main, irq, -, -, -, -, -, -, rfl⟩ |
      ⟨j, rest, -, -, -, -, rfl⟩ | ⟨p, j, rest, -, -, -, ht, -⟩ | ⟨-, -, -, -, hs⟩
  · exact absurd hreq hno
  · refine ⟨rfl, rfl, fun k => ?_⟩
    by_cases hk : k = b.index
    · subst hk
      exact ⟨0, by simp [queued]⟩
    · exact ⟨(m.drv.queue.buffer k).buf.bytesused, by rw [queued_other _ _ _ hk]⟩
  · exact ⟨rfl, rfl, fun k => ⟨(m.drv.queue.buffer k).buf.bytesused, dequeued_buf _ _ _ _⟩⟩
  · refine ⟨ht.count, ht.bufSize, fun k => ?_⟩
    by_cases hk : k = j
    · subst hk
      exact ht.slot
    · exact ⟨(m.drv.queue.buffer k).buf.bytesused, by rw [ht.other k hk]⟩
  · exact ⟨hs.count, hs.bufSize, fun k => ⟨(m.drv.queue.buffer k).buf.bytesused, hs.buf k⟩⟩

/-- **A packet that stores.**  `d₁` is the driver after the payload of `p` went
into buffer `j`. -/
def Stores (d d₁ : Driver) (j : Nat) (p : Packet) : Prop :=
  (d.stateOf j = .active ∨ nextFid d p ≠ d.lastFid) ∧
  (nextFid d p = d.lastFid ∨ d.bytesusedOf j = 0) ∧
  storePayload { setState { d with fid := nextFid d p } j .active with lastFid := nextFid d p }
    j p = .ok d₁

/-- **One packet**, seen from the machine: it is invalid; or there is no buffer
and it only leaves its frame id; or, with current buffer `j`, the driver waits
for a new frame, closes the buffer, or stores. -/
theorem step_packet_cases {v : Version} {m m' : Machine} {p : Packet} {r : Reply}
    (hcur : CursorOk m) (h : step v m (.packet p) = .ok (r, m')) :
    (¬ p.Valid ∧ m'.drv = m.drv) ∨
    (p.Valid ∧ m.drv.queue.irqqueue = some [] ∧
      m'.drv = { m.drv with fid := nextFid m.drv p, lastFid := nextFid m.drv p }) ∨
    (∃ j rest, p.Valid ∧ m.drv.queue.irqqueue = some (j :: rest) ∧
      ((m.drv.stateOf j ≠ .active ∧ nextFid m.drv p = m.drv.lastFid ∧
          m'.drv = { m.drv with fid := nextFid m.drv p }) ∨
        (nextFid m.drv p ≠ m.drv.lastFid ∧ m.drv.bytesusedOf j ≠ 0 ∧
          m'.drv = finishBuffer { m.drv with fid := nextFid m.drv p } j) ∨
        (∃ d₁, Stores m.drv d₁ j p ∧
          ((frameComplete (m.drv.queue.buffer j).buf p (d₁.bytesusedOf j) ∧
              m'.drv = finishBuffer d₁ j) ∨
            (¬ frameComplete (m.drv.queue.buffer j).buf p (d₁.bytesusedOf j) ∧
              m'.drv = d₁))))) := by
  rcases step_cases h with ⟨c, d', hc, -⟩ | ⟨_, _, hc, -⟩ | ⟨p', k, d', buf', hp, hk, hbody, rfl⟩ |
      ⟨_, _, hc, -⟩
  · cases hc
  · cases hc
  · cases hp
    rcases packetBody_cases hbody with ⟨hinv, rfl, -⟩ | ⟨hvalid, hnull, -, rfl⟩ |
        ⟨j, hvalid, hentry, hfill⟩
    · exact Or.inl ⟨hinv, rfl⟩
    · have hcurrent := (hcur k hk).symm.trans hnull
      exact Or.inr (Or.inl ⟨hvalid, ListHead.current_eq_null.mp hcurrent, rfl⟩)
    · obtain ⟨rest, hrest⟩ := ListHead.current_eq_entry.mp ((hcur k hk).symm.trans hentry)
      refine Or.inr (Or.inr ⟨j, rest, hvalid, hrest, ?_⟩)
      rcases fillBuffer_cases hfill with ⟨hwait, hfid, rfl, -⟩ | ⟨hfid, hused, rfl, -⟩ |
          ⟨d₁, hstart, hsame, hstore, hend⟩
      · exact Or.inl ⟨hwait, hfid, rfl⟩
      · exact Or.inr (Or.inl ⟨hfid, hused, rfl⟩)
      · refine Or.inr (Or.inr ⟨d₁, ⟨hstart, hsame, hstore⟩, ?_⟩)
        rcases hend with ⟨hdone, rfl, -⟩ | ⟨hdone, rfl, -⟩
        · exact Or.inl ⟨hdone, rfl⟩
        · exact Or.inr ⟨hdone, rfl⟩
  · cases hc

/-- A packet that stores touches the current buffer, which stays queued for
more. -/
theorem Stores.touches {d d₁ : Driver} {j : Nat} {p : Packet} (h : Stores d d₁ j p) :
    Touches d d₁ j ∧ d₁.stateOf j = .active ∧ d₁.queue.irqqueue = d.queue.irqqueue := by
  obtain ⟨ht, hactive, hirq⟩ := storePayload_touches h.2.2
  exact ⟨⟨ht.count, ht.bufSize, ht.main, ht.other, ht.slot, ht.grows, ht.fits, ht.outcome,
    ht.mem, ht.idVendor⟩, hactive, hirq⟩

/-- A buffer that is closed at a frame boundary is touched. -/
theorem closed_touches (d : Driver) (j : Nat) (f : Int) :
    Touches d (finishBuffer { d with fid := f } j) j := by
  have ht := finishBuffer_touches { d with fid := f } j
  exact ⟨ht.count, ht.bufSize, ht.main, ht.other, ht.slot, ht.grows, ht.fits, ht.outcome,
    ht.mem, ht.idVendor⟩

/-- Every step leaves a running handler at the head of `irqqueue`. -/
theorem CursorOk.kept {v : Version} {m m' : Machine} {i : Input} {r : Reply}
    (hcur : CursorOk m) (h : step v m i = .ok (r, m')) : CursorOk m' := by
  rcases step_effect hcur h with ⟨-, _, _, -, -, hnone⟩ | ⟨_, _, _, -, -, -, -, -, -, rfl⟩ |
      ⟨_, _, -, -, -, -, rfl⟩ | ⟨_, _, _, -, -, -, -, hkept⟩ | ⟨-, -, -, hkept, -⟩
  · exact cursorOk_of_none hnone
  · exact cursorOk_of_none rfl
  · exact cursorOk_of_none rfl
  · exact hkept
  · exact hkept

/-- What only a packet changes, or nothing at all: the frame ids and the vendor. -/
structure SameIds (d d' : Driver) : Prop where
  lastFid : d'.lastFid = d.lastFid
  fid : d'.fid = d.fid
  idVendor : d'.idVendor = d.idVendor

/-- Freeing the buffers changes neither. -/
theorem freeBuffers_sameIds (d : Driver) : SameIds d (freeBuffers d) := by
  unfold freeBuffers
  split <;> exact ⟨rfl, rfl, rfl⟩

/-- Only a packet changes the frame ids, and what is not a packet keeps the size of a
picture, or sets it to the one there is. -/
theorem step_unless_packet {v : Version} {m m' : Machine} {i : Input} {r : Reply}
    (hp : ∀ p, i ≠ .packet p) (h : step v m i = .ok (r, m')) :
    SameIds m.drv m'.drv ∧ SameSize m.drv m'.drv := by
  rcases step_cases h with ⟨c, d', rfl, -, hc, rfl⟩ | ⟨_, _, rfl, -, hd, -⟩ |
      ⟨p, _, _, _, rfl, -⟩ | ⟨_, _, rfl, -, rfl⟩
  · rcases call_cases hc with ⟨n, alloc, rfl, hreq⟩ | ⟨_, _, _, rfl, -, -, -, -, -, rfl⟩ |
        ⟨_, _, rfl, -, -, -, rfl⟩ | ⟨-, -, -, hq⟩
    · have hfree := freeBuffers_sameIds m.drv
      rcases vidiocReqbufs_cases hreq with ⟨_, _, -, -, -, -, -, -, rfl⟩ | ⟨-, rfl, -⟩
      · exact ⟨⟨hfree.lastFid, hfree.fid, hfree.idVendor⟩, Or.inl (by rw [freeBuffers_format])⟩
      · exact ⟨hfree, Or.inl (by rw [freeBuffers_format])⟩
    · exact ⟨⟨rfl, rfl, rfl⟩, Or.inl rfl⟩
    · exact ⟨⟨rfl, rfl, rfl⟩, Or.inl rfl⟩
    · exact ⟨⟨hq.lastFid, hq.fid, hq.idVendor⟩, hq.size⟩
  · rw [hd]
    exact ⟨⟨rfl, rfl, rfl⟩, Or.inl rfl⟩
  · exact absurd rfl (hp p)
  · exact ⟨⟨rfl, rfl, rfl⟩, Or.inl rfl⟩

/-- The device stays the same. -/
theorem step_idVendor {v : Version} {m m' : Machine} {i : Input} {r : Reply}
    (hcur : CursorOk m) (h : step v m i = .ok (r, m')) : m'.drv.idVendor = m.drv.idVendor := by
  by_cases hpacket : ∃ p, i = .packet p
  · obtain ⟨p, rfl⟩ := hpacket
    rcases step_effect hcur h with ⟨hreq, -⟩ | ⟨_, _, _, hi, -⟩ | ⟨_, _, hi, -⟩ |
        ⟨_, _, _, -, -, -, ht, -⟩ | ⟨-, -, -, -, hs⟩
    · exact hreq.elim
    · cases hi
    · cases hi
    · exact ht.idVendor
    · exact hs.idVendor
  · exact (step_unless_packet (fun p hp => hpacket ⟨p, hp⟩) h).1.idVendor

/-- A packet does not change the format. -/
theorem step_packet_format {v : Version} {m m' : Machine} {p : Packet} {r : Reply}
    (hcur : CursorOk m) (h : step v m (.packet p) = .ok (r, m')) :
    m'.drv.format = m.drv.format := by
  rcases step_packet_cases hcur h with ⟨-, hd⟩ | ⟨-, -, hd⟩ | ⟨j, rest, -, -, hcase⟩
  · rw [hd]
  · rw [hd]
  · have hstores : ∀ d₁, Stores m.drv d₁ j p → d₁.format = m.drv.format := by
      rintro d₁ ⟨-, -, hstore⟩
      obtain ⟨_, _, _, _, -, -, rfl, -⟩ := storePayload_spec hstore
      rfl
    rcases hcase with ⟨-, -, hd⟩ | ⟨-, -, hd⟩ | ⟨d₁, hs, ⟨-, hd⟩ | ⟨-, hd⟩⟩
    · rw [hd]
    · rw [hd]
      rfl
    · rw [hd]
      exact hstores d₁ hs
    · rw [hd]
      exact hstores d₁ hs

/-- Every step keeps the size of a picture, or sets it to the one there is. -/
theorem step_sameSize {v : Version} {m m' : Machine} {i : Input} {r : Reply}
    (hcur : CursorOk m) (h : step v m i = .ok (r, m')) : SameSize m.drv m'.drv := by
  by_cases hpacket : ∃ p, i = .packet p
  · obtain ⟨p, rfl⟩ := hpacket
    exact Or.inl (by rw [step_packet_format hcur h])
  · exact (step_unless_packet (fun p hp => hpacket ⟨p, hp⟩) h).2

end Myuvc
