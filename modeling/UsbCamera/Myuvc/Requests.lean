import UsbCamera.Myuvc.FrameStability

/-!
# What `VIDIOC_REQBUFS` hands out

A request for buffers is a 32-bit number taken from the application as it is.
The handler multiplies it by the size of a slot in 32-bit arithmetic, tries
smaller and smaller numbers until the allocator agrees, and then fills that many
entries of a table that has 32 of them.  Nothing compares the number with 32.

Whether a request is sound is therefore up to the allocator: it is, exactly when
the allocator refuses every block for more buffers than the table has
(`reqbufs_sound_iff`).

When the request was sound, everything later is in order: the offsets that
`VIDIOC_QUERYBUF` reports lead `mmap` to the buffer they came from and to the
pages of its slot, and no other offset or length is accepted
(`querybuf_mmap_agree`).
-/

namespace Myuvc

open FaultRun

/-- The bytes from one buffer to the next. -/
def slotSize : Nat := pageAlign dwMaxVideoFrameSize

/-- A format that `VIDIOC_S_FMT` has accepted. -/
def AcceptedFormat (f : V4l2Format) : Prop := ∃ g, vidiocTryFmtVidCap g = (0, f)

/-- Every accepted format has the one size of the camera. -/
theorem AcceptedFormat.sizeimage {f : V4l2Format} (h : AcceptedFormat f) :
    f.pix.sizeimage = dwMaxVideoFrameSize := by
  obtain ⟨g, hg⟩ := h
  have hneg : (-EINVAL : Int) ≠ 0 := by decide
  unfold vidiocTryFmtVidCap at hg
  split at hg
  · exact absurd (Prod.mk.inj hg).1 hneg
  · split at hg
    · exact absurd (Prod.mk.inj hg).1 hneg
    · rw [← (Prod.mk.inj hg).2]

/-! ## Soundness of a request -/

/-- The buffers that a request reports are entries of the table, no other entry is
set up, and their slots are separate parts of the block that was allocated. -/
def RequestSound (d : Driver) (count : UInt32) (alloc : Nat → Option (Nat → UInt8)) : Prop :=
  match vidiocReqbufs d count alloc with
  | .error _ => False
  | .ok (r, d') => ∀ n : Nat, 0 < n → r = .ret n →
      n ≤ BUFFERS ∧ (∀ i, n ≤ i → d'.queue.buffer i = Buffer.zero) ∧
      (∀ i < n, ∀ j < n, i ≠ j →
        (d'.queue.buffer i).buf.offset + d'.queue.bufSize ≤ (d'.queue.buffer j).buf.offset ∨
          (d'.queue.buffer j).buf.offset + d'.queue.bufSize ≤ (d'.queue.buffer i).buf.offset) ∧
      ∃ mem, d'.queue.mem = some mem ∧
        ∀ i < n, (d'.queue.buffer i).buf.offset + d'.queue.bufSize ≤ mem.size

/-- The allocator refuses every block for more buffers than the table has. -/
def RefusesBeyondTable (count : UInt32) (alloc : Nat → Option (Nat → UInt8)) : Prop :=
  ∀ n, BUFFERS < n → n ≤ count.toNat → count.toNat < 2 ^ 31 →
    vmalloc32 (alloc n) (n * slotSize % 2 ^ 32) = none

/-- Up to the size of the table the product does not wrap. -/
theorem size_of_request {n : Nat} (hn : n ≤ BUFFERS) : n * slotSize % 2 ^ 32 = n * slotSize := by
  have hslot : slotSize = 77824 := by decide
  unfold BUFFERS at hn
  rw [hslot]
  omega

/-- Slots of one size do not overlap. -/
theorem slots_apart {size i j : Nat} (hij : i ≠ j) :
    i * size + size ≤ j * size ∨ j * size + size ≤ i * size := by
  rw [← Nat.succ_mul, ← Nat.succ_mul]
  exact (Nat.lt_or_gt_of_ne hij).imp (Nat.mul_le_mul_right _) (Nat.mul_le_mul_right _)

/-- The loop gives more than `bound` buffers when some larger number can be
had. -/
theorem allocLoop_beyond {bufsize bound k : Nat} {alloc : Nat → Option (Nat → UInt8)} :
    (∃ n mem, bound < n ∧ allocLoop bufsize alloc k = some (n, mem)) ↔
      ∃ n, bound < n ∧ n ≤ k ∧ vmalloc32 (alloc n) (n * bufsize % 2 ^ 32) ≠ none := by
  constructor
  · rintro ⟨n, mem, hbound, hloop⟩
    obtain ⟨-, hle, hmem⟩ := allocLoop_some hloop
    exact ⟨n, hbound, hle, by rw [hmem]; exact Option.some_ne_none mem⟩
  · intro hlarger
    induction k with
    | zero =>
        obtain ⟨n, hbound, hle, -⟩ := hlarger
        omega
    | succ k ih =>
        obtain ⟨n, hbound, hle, hgiven⟩ := hlarger
        cases hmem : vmalloc32 (alloc (k + 1)) ((k + 1) * bufsize % 2 ^ 32) with
        | some mem => exact ⟨k + 1, mem, by omega, by simp only [allocLoop, hmem]⟩
        | none =>
            have hne : n ≠ k + 1 := by
              intro heq
              rw [heq] at hgiven
              exact hgiven hmem
            obtain ⟨j, mem, hj, hloop⟩ := ih ⟨n, hbound, by omega, hgiven⟩
            exact ⟨j, mem, hj, by simp only [allocLoop, hmem, hloop]⟩

/-- The only fault is the write behind the table. -/
theorem vidiocReqbufs_error_iff {d : Driver} {count : UInt32}
    {alloc : Nat → Option (Nat → UInt8)} :
    (∃ e, vidiocReqbufs d count alloc = .error e) ↔
      count.toNat < 2 ^ 31 ∧ ∃ n mem, BUFFERS < n ∧
        allocLoop (pageAlign d.format.pix.sizeimage) alloc count.toNat = some (n, mem) := by
  constructor
  · rintro ⟨e, hout⟩
    unfold vidiocReqbufs at hout
    simp only [freeBuffers_format] at hout
    split at hout
    · cases hout
    · split at hout
      · cases hout
      · rename_i n mem hsome
        split at hout
        · rename_i hbig
          split at hsome
          · rename_i hlt
            exact ⟨hlt, n, mem, hbig, hsome⟩
          · cases hsome
        · cases hout
  · rintro ⟨hlt, n, mem, hbig, hloop⟩
    have hne : count ≠ 0 := by
      rintro rfl
      cases hloop
    refine ⟨.bufferTable, ?_⟩
    simp only [vidiocReqbufs, if_neg hne, if_pos hlt, hloop, if_pos hbig]

/-- What a request that reports buffers has set up. -/
theorem request_set_up {d d' : Driver} {count : UInt32} {alloc : Nat → Option (Nat → UInt8)}
    {n : Nat} (hpos : 0 < n) (hformat : AcceptedFormat d.format)
    (hout : vidiocReqbufs d count alloc = .ok (.ret n, d')) :
    ∃ mem, n ≤ BUFFERS ∧ mem.size = n * slotSize ∧
      d'.queue = initQueue slotSize dwMaxVideoFrameSize n mem := by
  obtain ⟨mem, hle, hmem, rfl⟩ := vidiocReqbufs_gave hpos hout
  rw [hformat.sizeimage] at hmem ⊢
  exact ⟨mem, hle, (vmalloc32_size hmem).1.trans (size_of_request hle), rfl⟩

/-- **Soundness of a request.**  For every count, every accepted format and every
pattern of allocation failures: the request is sound exactly when no block is
given for more buffers than the table has. -/
theorem reqbufs_sound_iff (d : Driver) (hformat : AcceptedFormat d.format) (count : UInt32)
    (alloc : Nat → Option (Nat → UInt8)) :
    RequestSound d count alloc ↔ RefusesBeyondTable count alloc := by
  have hsize : pageAlign d.format.pix.sizeimage = slotSize := by
    rw [hformat.sizeimage]
    rfl
  have hrefuses :
      RefusesBeyondTable count alloc ↔ ¬ ∃ e, vidiocReqbufs d count alloc = .error e := by
    rw [vidiocReqbufs_error_iff, hsize, allocLoop_beyond]
    constructor
    · rintro hnone ⟨hlt, n, hbig, hle, hgiven⟩
      exact hgiven (hnone n hbig hle hlt)
    · intro hnone n hbig hle hlt
      by_contra hgiven
      exact hnone ⟨hlt, n, hbig, hle, hgiven⟩
  rw [hrefuses, RequestSound]
  cases hout : vidiocReqbufs d count alloc with
  | error e => simp
  | ok out =>
      obtain ⟨r, d'⟩ := out
      refine iff_of_true (fun n hpos hr => ?_) (by simp)
      obtain ⟨mem, hle, hmem, hqueue⟩ := request_set_up hpos hformat (hr ▸ hout)
      have hslot : ∀ i < n, (d'.queue.buffer i).buf.offset = i * slotSize := by
        intro i hi
        simp [hqueue, initQueue, hi, initBuffer]
      have hbufSize : d'.queue.bufSize = slotSize := by rw [hqueue]; rfl
      refine ⟨hle, fun i hi => ?_, fun i hi j hj hij => ?_, mem, by rw [hqueue]; rfl,
        fun i hi => ?_⟩
      · simp [hqueue, initQueue, Nat.not_lt.mpr hi]
      · rw [hslot i hi, hslot j hj, hbufSize]
        exact slots_apart hij
      · rw [hslot i hi, hbufSize, hmem, ← Nat.succ_mul]
        exact Nat.mul_le_mul_right _ hi

/-- The machine that the runs below start from has an accepted format. -/
theorem acceptedFormat_withFormat (idVendor : Nat) :
    AcceptedFormat (Machine.withFormat idVendor).drv.format := ⟨captureFormat, rfl⟩

/-- A request for 33 buffers, when there is memory for all of them, writes behind
the table. -/
theorem thirty_three_buffers :
    ¬ RequestSound (Machine.withFormat 0).drv 33 (fun _ => some fun _ => 0) := by
  have hout : vidiocReqbufs (Machine.withFormat 0).drv 33 (fun _ => some fun _ => 0) =
      .error .bufferTable := rfl
  simp only [RequestSound, hout, not_false_eq_true]

/-- A request for 32 buffers is sound, also when the allocator would have given
more. -/
theorem reqbufs_sound_full_table :
    RefusesBeyondTable 32 (fun _ => some fun _ => 0) ∧
      RequestSound (Machine.withFormat 0).drv 32 (fun _ => some fun _ => 0) := by
  have hrefuses : RefusesBeyondTable 32 (fun _ => some fun _ => 0) := by
    intro n hbig hle
    exact absurd (Nat.lt_of_lt_of_le hbig hle) (by decide)
  exact ⟨hrefuses, (reqbufs_sound_iff _ (acceptedFormat_withFormat 0) 32 _).mpr hrefuses⟩

/-! ## Querying and mapping -/

/-- There are `n` buffers, each with room for a picture, in slots that follow one
another. -/
structure Slots (d : Driver) (n : Nat) : Prop where
  count : d.queue.count = n
  bufSize : 0 < n → d.queue.bufSize = slotSize
  offset : ∀ i < n, (d.queue.buffer i).buf.offset = i * slotSize
  length : ∀ i < n, (d.queue.buffer i).buf.length = dwMaxVideoFrameSize

/-- A step that keeps the shape keeps the slots. -/
theorem Slots.kept {d d' : Driver} {n : Nat} (h : Slots d n) (hs : SameShape d d') :
    Slots d' n where
  count := hs.count.trans h.count
  bufSize := fun hn => hs.bufSize.trans (h.bufSize hn)
  offset := fun i hi => (hs.offset i).trans (h.offset i hi)
  length := fun i hi => (hs.length i).trans (h.length i hi)

/-- In a reachable machine an answered request leaves its slots, whether it gave
buffers or none. -/
theorem LaidOut.slots {v : Version} {m m' : Machine} {count : UInt32}
    {alloc : Nat → Option (Nat → UInt8)} {n : Nat} (h : LaidOut m)
    (hstep : step v m (.call (.reqbufs count alloc)) = .ok (.ret n, m')) : Slots m'.drv n := by
  obtain ⟨d', rfl, -, hcall⟩ := step_call hstep
  rcases Nat.eq_zero_or_pos n with rfl | hpos
  · have hgave : ¬ GaveBuffers (.call (.reqbufs count alloc)) (.ret (0 : Nat)) := by
      simp [GaveBuffers]
    have hreq : Input.IsReqbufs (.call (.reqbufs count alloc)) := trivial
    have hcleared := h.coherent.cleared hreq hgave hstep
    exact ⟨hcleared.count, fun hn => absurd hn (Nat.lt_irrefl 0),
      fun i hi => absurd hi (Nat.not_lt_zero i), fun i hi => absurd hi (Nat.not_lt_zero i)⟩
  · obtain ⟨mem, -, hmem, hd⟩ := vidiocReqbufs_gave hpos hcall
    -- No memory is given before a format has been set.
    have hset : m.drv.format.pix.sizeimage = dwMaxVideoFrameSize := by
      rcases h.size with hzero | hset
      · have hlt := lt_pageAlign_of_vmalloc32 h.size hmem
        rw [hzero] at hlt
        exact absurd hlt (by decide)
      · exact hset
    rw [hset] at hd
    subst hd
    refine ⟨rfl, fun _ => rfl, fun i hi => ?_, fun i hi => ?_⟩ <;>
      simp [initQueue, hi, initBuffer, slotSize]

/-- A laid out machine whose buffers all have the one length there is. -/
structure Sized (m : Machine) : Prop where
  laidOut : LaidOut m
  full : ∀ i < m.drv.queue.count, (m.drv.queue.buffer i).buf.length = dwMaxVideoFrameSize

theorem Sized.cursor {m : Machine} (h : Sized m) : CursorOk m := h.laidOut.coherent.cursor

/-- **Step lemma.**  The invariant is kept by every step. -/
theorem Sized.kept {v : Version} {m m' : Machine} {i : Input} {r : Reply} (h : Sized m)
    (hstep : step v m i = .ok (r, m')) : Sized m' := by
  refine ⟨h.laidOut.kept hstep, ?_⟩
  by_cases hreq : i.IsReqbufs
  · obtain ⟨count, alloc, rfl⟩ := hreq.eq
    by_cases hgave : GaveBuffers (.call (.reqbufs count alloc)) r
    · cases r with
      | ret k =>
          obtain ⟨n, rfl⟩ := Int.eq_ofNat_of_zero_le (le_of_lt hgave)
          have hslots := h.laidOut.slots hstep
          rw [hslots.count]
          exact hslots.length
      | _ => exact hgave.elim
    · have hclear := h.laidOut.coherent.cleared hreq hgave hstep
      intro j hj
      rw [hclear.count] at hj
      exact absurd hj (Nat.not_lt_zero j)
  · have hshape := step_sameShape h.cursor hreq hstep
    intro j hj
    rw [hshape.length j]
    exact h.full j (hshape.count ▸ hj)

/-- After module load there are no buffers to size. -/
theorem sized_load (idVendor : Nat) : Sized (Machine.load idVendor) :=
  ⟨laidOut_load idVendor, fun i hi => absurd hi (Nat.not_lt_zero i)⟩

/-- The buffers of a reachable machine have the one length there is. -/
theorem sized_of_run {v : Version} {idVendor : Nat} {es : Log}
    (hrun : IsRun (step v) (Machine.load idVendor) es) :
    Sized (lastState (Machine.load idVendor) es) :=
  hrun.keeps (fun _ _ _ _ h hstep => h.kept hstep) (sized_load idVendor)

/-- If no page is refused, all are mapped, one after the other. -/
theorem insertPages_of_success {insert : Nat → Int} (hinsert : ∀ p, 0 ≤ insert p) (left p : Nat) :
    insertPages insert left p = (0, List.range' p left) := by
  induction left generalizing p with
  | zero => rfl
  | succ left ih => rw [insertPages, if_neg (Int.not_lt.mpr (hinsert p)), ih, List.range'_succ]

/-- The pages of the slot of buffer `i`, in order. -/
def slotPages (d : Driver) (i : Nat) : List Nat :=
  List.range' ((d.queue.buffer i).buf.offset / PAGE_SIZE) (d.queue.bufSize / PAGE_SIZE)

/-- A slot begins at a page. -/
theorem slot_div_page (i : Nat) : i * slotSize / PAGE_SIZE = 19 * i := by
  have hslot : slotSize = 19 * PAGE_SIZE := by decide
  rw [hslot, ← Nat.mul_assoc, Nat.mul_div_cancel _ (by decide), Nat.mul_comm]

/-- So does the buffer in it. -/
theorem Slots.firstPage {d : Driver} {n i : Nat} (h : Slots d n) (hi : i < n) :
    (d.queue.buffer i).buf.offset / PAGE_SIZE = 19 * i := by
  rw [h.offset i hi, slot_div_page]

/-- The nineteen pages of a slot. -/
theorem Slots.pages_eq {d : Driver} {n i : Nat} (h : Slots d n) (hi : i < n) :
    slotPages d i = List.range' (19 * i) 19 := by
  rw [slotPages, h.firstPage hi, h.bufSize (Nat.zero_lt_of_lt hi)]
  rfl

/-- The search by page number finds the buffer whose slot starts there. -/
theorem Slots.find {d : Driver} {n i : Nat} (h : Slots d n) (hi : i < n) :
    (List.range d.queue.count).find?
      (fun j => (d.queue.buffer j).buf.offset / PAGE_SIZE == 19 * i) = some i := by
  cases hfind : (List.range d.queue.count).find?
      (fun j => (d.queue.buffer j).buf.offset / PAGE_SIZE == 19 * i) with
  | none =>
      have hno := List.find?_eq_none.mp hfind i (List.mem_range.mpr (h.count ▸ hi))
      exact absurd (beq_iff_eq.mpr (h.firstPage hi)) hno
  | some j =>
      have hj : j < n := h.count ▸ List.mem_range.mp (List.mem_of_find?_eq_some hfind)
      have hpage := List.find?_some hfind
      simp only [beq_iff_eq, h.firstPage hj] at hpage
      rw [show j = i by omega]

/-- A slot mapped by its first page and its size is mapped as a whole. -/
theorem Slots.mmap_slot {d : Driver} {n i : Nat} {insert : Nat → Int} (h : Slots d n) (hi : i < n)
    (hinsert : ∀ p, 0 ≤ insert p) :
    mmap d (19 * i) slotSize insert = (.pages 0 (slotPages d i), addVmaUse d i 1) := by
  have hsize := h.bufSize (Nat.zero_lt_of_lt hi)
  rw [mmap, h.find hi]
  simp only [hsize, ne_eq, not_true_eq_false, if_false, insertPages_of_success hinsert, slotPages]
  rfl

/-- Nothing else is mapped. -/
theorem Slots.mmap_other {d : Driver} {n pgoff size : Nat} {insert : Nat → Int} (h : Slots d n)
    (hother : ∀ i < n, ¬ (pgoff = 19 * i ∧ size = slotSize)) :
    mmap d pgoff size insert = (.pages (-EINVAL) [], d) := by
  unfold mmap
  split
  · rfl
  · rename_i i hfind
    have hi : i < n := h.count ▸ List.mem_range.mp (List.mem_of_find?_eq_some hfind)
    have hpage := List.find?_some hfind
    simp only [beq_iff_eq, h.firstPage hi] at hpage
    have hsize : size ≠ d.queue.bufSize := by
      rw [h.bufSize (Nat.zero_lt_of_lt hi)]
      exact fun heq => hother i hi ⟨hpage.symm, heq⟩
    rw [if_pos hsize]

/-- What `VIDIOC_QUERYBUF` reports of a slot. -/
theorem Slots.querybuf {d : Driver} {n i : Nat} (h : Slots d n) (hi : i < n) :
    ∃ b, vidiocQuerybuf d i = .buffer b ∧ b.offset = i * slotSize ∧
      b.length = dwMaxVideoFrameSize := by
  have hin : ¬ d.queue.count ≤ i := by
    rw [h.count]
    exact Nat.not_le.mpr hi
  rw [vidiocQuerybuf, if_neg hin]
  exact ⟨_, rfl, h.offset i hi, h.length i hi⟩

/-- A slot is the frame size, rounded up to pages. -/
theorem pageAlign_dwMaxVideoFrameSize : pageAlign dwMaxVideoFrameSize = slotSize := rfl

/-- **Querying and mapping agree.**  In any run from module load, after a request
that was answered with `n` buffers and until the next one: the page of the offset
and the page-rounded length that `VIDIOC_QUERYBUF` reports for buffer `i` map
buffer `i`, with the pages of its slot in order, which are the pages of the bytes
of the slot and of no other slot; any other page or size maps nothing. -/
theorem querybuf_mmap_agree {v : Version} {idVendor : Nat} {xs ys : Log}
    {e : Entry Input Reply Machine} {count : UInt32} {alloc : Nat → Option (Nat → UInt8)} {n : Nat}
    (hrun : IsRun (step v) (Machine.load idVendor) (xs ++ e :: ys))
    (hcall : e.input = .call (.reqbufs count alloc)) (hgave : e.reply = .ret n)
    (hno : ∀ x ∈ ys, ¬ x.input.IsReqbufs) {insert : Nat → Int} (hinsert : ∀ p, 0 ≤ insert p) :
    let d := (lastState (Machine.load idVendor) (xs ++ e :: ys)).drv
    (∀ i < n, ∃ b, vidiocQuerybuf d i = .buffer b ∧
      mmap d (b.offset / PAGE_SIZE) (pageAlign b.length) insert =
        (.pages 0 (slotPages d i), addVmaUse d i 1) ∧
      ∀ x, x / PAGE_SIZE ∈ slotPages d i ↔ b.offset ≤ x ∧ x < b.offset + d.queue.bufSize) ∧
    (∀ i < n, ∀ j < n, i ≠ j → List.Disjoint (slotPages d i) (slotPages d j)) ∧
    ∀ pgoff size, (∀ i < n, ∀ b, vidiocQuerybuf d i = .buffer b →
        ¬ (pgoff = b.offset / PAGE_SIZE ∧ size = pageAlign b.length)) →
      mmap d pgoff size insert = (.pages (-EINVAL) [], d) := by
  intro d
  obtain ⟨hxs, hstep, hys⟩ := isRun_append.mp hrun
  rw [hcall, hgave] at hstep
  have hlaid := laidOut_of_run hxs
  have hslots : Slots d n := by
    have hkept := (hlaid.slots hstep).kept ((hlaid.kept hstep).shape_kept hys hno)
    rwa [← lastState_cons (lastState (Machine.load idVendor) xs), ← lastState_append] at hkept
  refine ⟨fun i hi => ?_, fun i hi j hj hij => ?_, fun pgoff size hother => ?_⟩
  · obtain ⟨b, hquery, hoffset, hlength⟩ := hslots.querybuf hi
    refine ⟨b, hquery, ?_, fun x => ?_⟩
    · rw [hoffset, hlength, slot_div_page, pageAlign_dwMaxVideoFrameSize]
      exact hslots.mmap_slot hi hinsert
    · have hslot : slotSize = 77824 := by decide
      rw [hslots.pages_eq hi, hslots.bufSize (Nat.zero_lt_of_lt hi), hoffset, List.mem_range'_1,
        hslot]
      simp only [PAGE_SIZE]
      omega
  · rw [hslots.pages_eq hi, hslots.pages_eq hj]
    intro p hpi hpj
    rw [List.mem_range'_1] at hpi hpj
    omega
  · refine hslots.mmap_other fun i hi => ?_
    obtain ⟨b, hquery, hoffset, hlength⟩ := hslots.querybuf hi
    have hne := hother i hi b hquery
    rwa [hoffset, hlength, slot_div_page, pageAlign_dwMaxVideoFrameSize] at hne

/-- With three buffers, the third is mapped by what is reported of it. -/
theorem querybuf_mmap_agree_three :
    ∃ b, vidiocQuerybuf (Machine.withBuffers 0 3).drv 2 = .buffer b ∧
      mmap (Machine.withBuffers 0 3).drv (b.offset / PAGE_SIZE) (pageAlign b.length) (fun _ => 0) =
        (.pages 0 (slotPages (Machine.withBuffers 0 3).drv 2),
          addVmaUse (Machine.withBuffers 0 3).drv 2 1) := by
  have hrun := isRun_setupLog .th10 0 (show 1 ≤ 3 by decide) (by decide)
  have hagree := @querybuf_mmap_agree .th10 0 [_] [] _ _ _ 3 hrun rfl rfl (by simp) (fun _ => 0)
    fun _ => le_refl 0
  obtain ⟨b, hquery, hmap, -⟩ := hagree.1 2 (by decide)
  exact ⟨b, hquery, hmap⟩

end Myuvc
