import UsbCamera.Myvivi.Driver

/-!
# How much a tick fills

Three sizes meet in a buffer.  `REQBUFS` fixes its length from the format of that
moment, `mmap` allocates that length, and `QBUF` takes from the format of its own
moment how many bytes a tick will fill.  Nothing compares them: a format set between
`REQBUFS` and `QBUF` lets a tick write past the pages.

`fills_within` is the rule that keeps a tick inside: each buffer that `QBUF` takes
is at least as long, in whole pages, as the pictures of the format then set.
-/

namespace Myvivi

open FaultRun

/-- The bytes a tick fills lie within the memory of the buffer it fills. -/
def FillsWithin (s : Driver) : Event → Prop
  | .tick waiting => ∀ o, filledBuffer s waiting = some o →
      ∃ n, (s.heap o).mem = some n ∧ (s.heap o).size.toNat ≤ n.toNat
  | _ => True

/-- `QBUF` takes the buffer: it is mapped, and neither queued nor finished. -/
def Takes (vb : VideobufBuffer) : Prop :=
  (vb.state = .needsInit ∨ vb.state = .idle) ∧ vb.map = true

instance (vb : VideobufBuffer) : Decidable (Takes vb) :=
  inferInstanceAs (Decidable (_ ∧ _))

/-- A buffer that `QBUF` takes has pages enough for a picture of the current format. -/
def QueuesFitting (s : Driver) : Event → Prop
  | .qbuf _ index => ∀ o ∈ s.vidqueue.bufs index, Takes (s.heap o) →
      s.format.sizeimage.toNat ≤ (pageAlign (s.heap o).bsize).toNat
  | _ => True

instance (s : Driver) (ev : Event) : Decidable (QueuesFitting s ev) := by
  unfold QueuesFitting; split <;> infer_instance

/-! ## The invariant -/

/-- What the sizes of a buffer are as long as it is queued: it has its memory, and what
a tick fills fits. -/
def VideobufBuffer.Fits (vb : VideobufBuffer) : Prop :=
  vb.mem = some (pageAlign vb.bsize) ∧ vb.size.toNat ≤ (pageAlign vb.bsize).toNat

/-- The object numbered `o` is linked from one of the two lists. -/
def Driver.Linked (d : Driver) (o : Nat) : Prop :=
  o ∈ d.vidqueue.stream ∨ o ∈ d.localQueue

/-- A mapped object has memory for its length, the objects linked fit, and the numbers
of the objects in use have been given out. -/
structure Fitting (d : Driver) : Prop where
  mapped : ∀ o, (d.heap o).map = true → (d.heap o).mem = some (pageAlign (d.heap o).bsize)
  linked : ∀ o, d.Linked o → (d.heap o).Fits
  given : ∀ o, d.Linked o → o < d.nextBuffer
  table : ∀ i o, d.vidqueue.bufs i = some o → o < d.nextBuffer

/-- The driver starts without buffers. -/
theorem fitting_load : Fitting load := by
  have hnone (o : Nat) : ¬ load.Linked o := by simp [Driver.Linked, load]
  exact ⟨fun o h => (by cases h), fun o h => absurd h (hnone o), fun o h => absurd h (hnone o),
    fun i o h => (by cases h)⟩

/-- What `vb` says of the sizes: the length, the mapping, its memory and the bytes to
fill. -/
def VideobufBuffer.sizes (vb : VideobufBuffer) :
    BitVec 32 × Bool × Option (BitVec 32) × BitVec 32 :=
  (vb.bsize, vb.map, vb.mem, vb.size)

/-- A step that only moves buffers about: the sizes of every object stay, and no object
is newly linked. -/
structure Moves (s t : Driver) : Prop where
  sizes : ∀ o, (t.heap o).sizes = (s.heap o).sizes
  linked : ∀ o, t.Linked o → s.Linked o
  table : ∀ i o, t.vidqueue.bufs i = some o → s.vidqueue.bufs i = some o
  given : t.nextBuffer = s.nextBuffer

theorem Moves.refl (s : Driver) : Moves s s := ⟨fun _ => rfl, fun _ h => h, fun _ _ h => h, rfl⟩

/-- Moving buffers about twice is moving them about. -/
theorem Moves.trans {s t u : Driver} (h : Moves s t) (h' : Moves t u) : Moves s u :=
  ⟨fun o => (h'.sizes o).trans (h.sizes o), fun o ho => h.linked o (h'.linked o ho),
    fun i o ho => h.table i o (h'.table i o ho), h'.given.trans h.given⟩

/-- Moving buffers about keeps the sizes right. -/
theorem Fitting.moves {s t : Driver} (h : Fitting s) (hmoves : Moves s t) : Fitting t := by
  have hsizes (o : Nat) := hmoves.sizes o
  simp only [VideobufBuffer.sizes, Prod.mk.injEq] at hsizes
  refine ⟨fun o ho => ?_, fun o ho => ?_, fun o ho => ?_, fun i o ho => ?_⟩
  · obtain ⟨hbsize, hmap, hmem, -⟩ := hsizes o
    rw [hmem, hbsize]
    exact h.mapped o (hmap ▸ ho)
  · obtain ⟨hbsize, -, hmem, hsize⟩ := hsizes o
    have hfits := h.linked o (hmoves.linked o ho)
    unfold VideobufBuffer.Fits at hfits ⊢
    rwa [hmem, hbsize, hsize]
  · rw [hmoves.given]
    exact h.given o (hmoves.linked o ho)
  · rw [hmoves.given]
    exact h.table i o (hmoves.table i o ho)

/-- Changing an object's state, or its count of fields, moves nothing. -/
theorem moves_update {d : Driver} {o : Nat} {f : VideobufBuffer → VideobufBuffer}
    (hf : (f (d.heap o)).sizes = (d.heap o).sizes) : Moves d (d.update o f) := by
  refine ⟨fun x => ?_, fun x hx => hx, fun i x hx => hx, rfl⟩
  unfold Driver.update
  by_cases hx : x = o
  · subst hx
    simpa using hf
  · simp [hx]

/-- A loop moves buffers about if each of its rounds does. -/
theorem moves_foldl {f : Driver → Nat → Driver} (hf : ∀ d o, Moves d (f d o)) (d : Driver)
    (os : List Nat) : Moves d (os.foldl f d) := by
  induction os generalizing d with
  | nil => exact Moves.refl d
  | cons o rest ih => exact (hf d o).trans (ih (f d o))

/-! ## The operations -/

/-- Cancelling a buffer takes it off the local list and changes its state. -/
theorem moves_cancelQueued (d : Driver) (o : Nat) : Moves d (cancelQueued d o) := by
  unfold cancelQueued
  split
  · have hstate : Moves d (d.update o fun vb => { vb with state := .error }) := moves_update rfl
    refine hstate.trans ⟨fun x => rfl, fun x hx => ?_, fun i x hx => hx, rfl⟩
    exact hx.imp id List.mem_of_mem_erase
  · exact Moves.refl d

/-- `STREAMOFF` cancels and releases; the sizes stay. -/
theorem moves_videobufStreamoff (d : Driver) : Moves d (videobufStreamoff d) := by
  unfold videobufStreamoff videobufQueueCancel
  split
  · have hoff : Moves d { d with vidqueue := { d.vidqueue with streaming := false } } :=
      ⟨fun o => rfl, fun o ho => ho, fun i o ho => ho, rfl⟩
    have hcancel := hoff.trans (moves_foldl moves_cancelQueued _ d.table)
    have hrelease (d : Driver) (o : Nat) : Moves d (bufferRelease d o) := moves_update rfl
    have hloops (os : List Nat) := hcancel.trans (moves_foldl hrelease _ os)
    refine (hloops _).trans ⟨fun o => rfl, fun o ho => ?_, fun i o ho => ho, rfl⟩
    rcases ho with ho | ho
    · cases ho
    · exact Or.inr ho
  · exact Moves.refl d

/-- An emptied table links no buffer anew. -/
theorem moves_videobufFree (d : Driver) : Moves d (videobufFree d).2 := by
  unfold videobufFree
  split
  · exact Moves.refl d
  · split
    · exact Moves.refl d
    · exact ⟨fun o => rfl, fun o ho => ho, fun i o ho => (by cases ho), rfl⟩

/-- The buffer that the driver links was linked by the core. -/
theorem moves_bufferQueue {d : Driver} {o : Nat} (ho : d.Linked o) :
    Moves d (bufferQueue d o) := by
  have hstate : Moves d (d.update o fun vb => { vb with state := .queued }) := moves_update rfl
  refine hstate.trans ⟨fun x => rfl, fun x hx => ?_, fun i x hx => hx, rfl⟩
  rcases hx with hx | hx
  · exact Or.inl hx
  · rcases List.mem_append.mp hx with hx | hx
    · exact Or.inr hx
    · rw [List.mem_singleton.mp hx]
      exact ho

/-- The loop of `STREAMON` adds to the local list what the videobuf queue holds. -/
theorem moves_foldl_queuePrepared (d : Driver) (os : List Nat)
    (hos : ∀ o ∈ os, o ∈ d.vidqueue.stream) : Moves d (os.foldl queuePrepared d) := by
  induction os generalizing d with
  | nil => exact Moves.refl d
  | cons o rest ih =>
      have hround : Moves d (queuePrepared d o) ∧
          (queuePrepared d o).vidqueue = d.vidqueue := by
        unfold queuePrepared
        split
        · exact ⟨moves_bufferQueue (Or.inl (hos o List.mem_cons_self)), rfl⟩
        · exact ⟨Moves.refl d, rfl⟩
      refine hround.1.trans (ih _ fun x hx => ?_)
      rw [hround.2]
      exact hos x (List.mem_cons_of_mem _ hx)

/-- `STREAMON` hands over buffers that are linked already. -/
theorem moves_videobufStreamon (d : Driver) : Moves d (videobufStreamon d).2 := by
  unfold videobufStreamon
  split
  · exact Moves.refl d
  · have hon : Moves d { d with vidqueue := { d.vidqueue with streaming := true } } :=
      ⟨fun o => rfl, fun o ho => ho, fun i o ho => ho, rfl⟩
    exact hon.trans (moves_foldl_queuePrepared _ _ fun o ho => ho)

/-- `DQBUF` unlinks a buffer. -/
theorem moves_videobufDqbuf (d : Driver) : Moves d (videobufDqbuf d).2 := by
  unfold videobufDqbuf
  split
  · exact Moves.refl d
  · split
    · exact Moves.refl d
    · rename_i o rest hstream
      split
      · exact Moves.refl d
      · split
        · have hstate : Moves d (d.update o fun vb => { vb with state := .idle }) :=
            moves_update rfl
          refine hstate.trans ⟨fun x => rfl, fun x hx => ?_, fun i x hx => hx, rfl⟩
          refine hx.imp (fun hx => ?_) id
          have hmem : x ∈ d.vidqueue.stream := hstream ▸ List.mem_cons_of_mem o hx
          exact hmem
        · exact Moves.refl d

/-- A tick fills a picture and unlinks its buffer from the local list. -/
theorem moves_tick (d : Driver) (waiting : Bool) : Moves d (myviviTimerFunction d waiting) := by
  unfold myviviTimerFunction
  split
  · exact ⟨fun o => rfl, fun o ho => ho, fun i o ho => ho, rfl⟩
  · rename_i o hfilled
    have hstate : Moves d (d.update o fun vb =>
        { vb with fieldCount := vb.fieldCount + 1, state := .done }) := moves_update rfl
    refine hstate.trans ⟨fun x => rfl, fun x hx => ?_, fun i x hx => hx, rfl⟩
    exact hx.imp id List.mem_of_mem_erase

/-- Mapping a buffer gives it memory for its length, mapped before or not. -/
theorem Fitting.videobufMmapMapper {d : Driver} (h : Fitting d) (offset : BitVec 32) :
    Fitting (videobufMmapMapper d offset).2 := by
  unfold Myvivi.videobufMmapMapper
  split
  · exact h
  · rename_i o hfind
    split
    · exact h
    · refine ⟨fun x hx => ?_, fun x hx => ?_, h.given, h.table⟩
      all_goals
        unfold Driver.update at hx ⊢
        by_cases hxo : x = o
      · subst hxo
        simp
      · simp only [Function.update_of_ne hxo] at hx ⊢
        exact h.mapped x hx
      · subst hxo
        simp only [VideobufBuffer.Fits, Function.update_self, true_and]
        exact (h.linked x hx).2
      · simp only [Function.update_of_ne hxo]
        exact h.linked x hx

/-- A new object has a number that no list holds yet. -/
theorem Fitting.allocVb {d : Driver} (h : Fitting d) (bsize : BitVec 32) (i : Nat) :
    Fitting (allocVb bsize d i) := by
  have hother (o : Nat) (ho : d.Linked o) : o ≠ d.nextBuffer := (h.given o ho).ne
  unfold Myvivi.allocVb
  refine ⟨fun o ho => ?_, fun o ho => ?_, fun o ho => ?_, fun j o ho => ?_⟩
  · by_cases hnew : o = d.nextBuffer
    · subst hnew
      simp at ho
    · simp only [Function.update_of_ne hnew] at ho ⊢
      exact h.mapped o ho
  · simp only [Function.update_of_ne (hother o ho)]
    exact h.linked o ho
  · exact Nat.lt_succ_of_lt (h.given o ho)
  · by_cases hj : j = i
    · subst hj
      simp only [Function.update_self, Option.some.injEq] at ho
      exact Nat.lt_succ_of_le ho.ge
    · simp only [Function.update_of_ne hj] at ho
      exact Nat.lt_succ_of_lt (h.table j o ho)

/-- New buffers are not linked, so they need not fit yet. -/
theorem Fitting.foldl_allocVb {d : Driver} (h : Fitting d) (bsize : BitVec 32) (is : List Nat) :
    Fitting (is.foldl (Myvivi.allocVb bsize) d) := by
  induction is generalizing d with
  | nil => exact h
  | cons i rest ih => exact ih (h.allocVb bsize i)

/-- `REQBUFS` makes new buffers only. -/
theorem Fitting.videobufReqbufs {d : Driver} (h : Fitting d) (count avail : Nat) :
    Fitting (videobufReqbufs d count avail).2 := by
  have hfree := h.moves (moves_videobufFree d)
  have halloc (bsize : BitVec 32) (n : Nat) := hfree.foldl_allocVb bsize (List.range n)
  unfold Myvivi.videobufReqbufs videobufMmapSetup
  grind

/-- Preparing a buffer that is long enough for the current format makes it fit. -/
theorem Fitting.bufferPrepare {d : Driver} (h : Fitting d) {o : Nat} (field : Field)
    (hmap : (d.heap o).map = true)
    (hsize : d.format.sizeimage.toNat ≤ (pageAlign (d.heap o).bsize).toNat) :
    Fitting (bufferPrepare d o field) ∧ ((bufferPrepare d o field).heap o).Fits := by
  have hmem := h.mapped o hmap
  have hfits : ((Myvivi.bufferPrepare d o field).heap o).Fits := by
    unfold Myvivi.bufferPrepare Driver.update VideobufBuffer.Fits
    simpa using ⟨hmem, hsize⟩
  refine ⟨⟨fun x hx => ?_, fun x hx => ?_, h.given, h.table⟩, hfits⟩
  all_goals by_cases hxo : x = o
  · subst hxo
    exact hfits.1
  · unfold Myvivi.bufferPrepare Driver.update at hx ⊢
    simp only [Function.update_of_ne hxo] at hx ⊢
    exact h.mapped x hx
  · subst hxo
    exact hfits
  · unfold Myvivi.bufferPrepare Driver.update
    simp only [Function.update_of_ne hxo]
    exact h.linked x hx

/-- A buffer that fits may be linked to the videobuf queue. -/
theorem Fitting.enqueue {d : Driver} (h : Fitting d) {o : Nat} (hfits : (d.heap o).Fits)
    (ho : o < d.nextBuffer) :
    Fitting { d with vidqueue := { d.vidqueue with stream := d.vidqueue.stream ++ [o] } } := by
  have hold (x : Nat) (hx : (x ∈ d.vidqueue.stream ++ [o]) ∨ x ∈ d.localQueue) :
      d.Linked x ∨ x = o := by
    unfold Driver.Linked
    rw [List.mem_append, List.mem_singleton] at hx
    tauto
  refine ⟨h.mapped, fun x hx => ?_, fun x hx => ?_, h.table⟩
  · rcases hold x hx with hx | rfl
    · exact h.linked x hx
    · exact hfits
  · rcases hold x hx with hx | rfl
    · exact h.given x hx
    · exact ho

/-- `QBUF` of a buffer that is long enough for the current format. -/
theorem Fitting.videobufQbuf {d : Driver} (h : Fitting d) (f index : Nat)
    (hfit : QueuesFitting d (.qbuf f index)) : Fitting (videobufQbuf d f index).2 := by
  unfold Myvivi.videobufQbuf
  split
  · exact h
  · split
    · exact h
    · rename_i o hbuf
      split
      · exact h
      · rename_i hstate
        split
        · exact h
        · rename_i hmap
          have hmap : (d.heap o).map = true := by simpa using hmap
          have hsize := hfit o hbuf ⟨by tauto, hmap⟩
          obtain ⟨hprep, hfits⟩ := h.bufferPrepare .interlaced hmap hsize
          have hvia : Moves (Myvivi.bufferPrepare d o .interlaced)
              ((Myvivi.bufferPrepare d o .interlaced).update o fun vb => { vb with via := f }) :=
            moves_update rfl
          have hqueued := (hprep.moves hvia).enqueue (o := o)
            (by unfold VideobufBuffer.Fits Driver.update at *; simpa using hfits)
            (h.table index o hbuf)
          dsimp only
          split
          · exact hqueued.moves (moves_bufferQueue (Or.inl (by simp)))
          · exact hqueued

/-! ## Whole runs -/

/-- **Sizes, step by step.**  Every event keeps the sizes right, if the buffers that
`QBUF` takes are long enough for the format then set. -/
theorem Fitting.step {s t : Driver} {ev : Event} {r : Int} (h : Fitting s)
    (hfit : QueuesFitting s ev) (hstep : step s ev = .ok (r, t)) : Fitting t := by
  cases ev with
  | «open» =>
      obtain ⟨-, rfl⟩ := Prod.mk.inj (Except.ok.inj hstep)
      refine h.moves ⟨fun o => rfl, fun o ho => ?_, fun i o ho => (by cases ho), rfl⟩
      rcases ho with ho | ho
      · cases ho
      · exact Or.inr ho
  | close f =>
      obtain ⟨-, rfl⟩ := Driver.via_eq_ok hstep
      have hclosed : Moves s { s with timerPending := false, handles := s.handles.erase f } :=
        ⟨fun o => rfl, fun o ho => ho, fun i o ho => ho, rfl⟩
      have hoff := hclosed.trans (moves_videobufStreamoff _)
      exact h.moves (hoff.trans (moves_videobufFree _))
  | sFmt f fmt =>
      obtain ⟨-, rfl⟩ := Driver.via_eq_ok hstep
      unfold Myvivi.sFmt
      split
      · exact h
      · exact h.moves ⟨fun o => rfl, fun o ho => ho, fun i o ho => ho, rfl⟩
  | reqbufs f count avail =>
      obtain ⟨-, rfl⟩ := Driver.via_eq_ok hstep
      exact h.videobufReqbufs count avail
  | mmap f offset =>
      obtain ⟨-, rfl⟩ := Driver.via_eq_ok hstep
      exact h.videobufMmapMapper offset
  | qbuf f index =>
      obtain ⟨-, rfl⟩ := Driver.via_eq_ok hstep
      exact h.videobufQbuf f index hfit
  | dqbuf f =>
      obtain ⟨-, rfl⟩ := Driver.via_eq_ok hstep
      exact h.moves (moves_videobufDqbuf s)
  | streamon f =>
      obtain ⟨-, rfl⟩ := Driver.via_eq_ok hstep
      exact h.moves (moves_videobufStreamon s)
  | streamoff f =>
      obtain ⟨-, rfl⟩ := Driver.via_eq_ok hstep
      exact h.moves (moves_videobufStreamoff s)
  | tick waiting =>
      simp only [Myvivi.step] at hstep
      split at hstep
      · obtain ⟨-, rfl⟩ := Prod.mk.inj (Except.ok.inj hstep)
        exact h.moves (moves_tick s waiting)
      · cases hstep

/-- With the sizes right, no event fills past a buffer's memory. -/
theorem Fitting.fillsWithin {s : Driver} (h : Fitting s) (ev : Event) : FillsWithin s ev := by
  cases ev with
  | tick waiting =>
      intro o ho
      have hmem : o ∈ s.localQueue := by
        unfold filledBuffer at ho
        split at ho
        · exact List.mem_of_head? ho
        · cases ho
      exact ⟨_, h.linked o (Or.inr hmem)⟩
  | _ => trivial

/-- **The virtual camera overruns no buffer that was queued with room.**  In every
sequence of events from loading the driver on, if each buffer that `QBUF` takes has
pages enough for a picture of the format then set, every tick fills within the memory
of its buffer. -/
theorem fills_within (es : EventLog) (hrun : IsRun step load es)
    (hfit : Along QueuesFitting load es) :
    ∀ xs e ys, es = xs ++ e :: ys → FillsWithin (lastState load xs) e.input := by
  rintro xs e ys rfl
  obtain ⟨hpast, -⟩ := isRun_append.mp hrun
  obtain ⟨hfits, -⟩ := along_append.mp hfit
  have hkeep (s : Driver) (ev : Event) (r : Int) (t : Driver) (h : Fitting s)
      (hev : QueuesFitting s ev) (hstep : step s ev = .ok (r, t)) : Fitting t := h.step hev hstep
  exact (IsRun.keeps_along hkeep hpast hfits fitting_load).fillsWithin e.input

/-- A YUYV format of the size given. -/
def yuyv (width height : BitVec 32) : PixFormat :=
  { width := width, height := height, pixelformat := V4L2_PIX_FMT_YUYV }

/-- A capture whose buffer is requested and mapped in one format and queued in
another. -/
def reformatted (first second : PixFormat) : List Event :=
  [.open, .sFmt 0 first, .reqbufs 0 1 1, .mmap 0 0#32, .sFmt 0 second, .qbuf 0 0, .streamon 0,
    .tick true]

/-- A buffer requested for 48 by 32 pixels and queued for 1024 by 768: the tick fills
1572864 bytes of a page. -/
theorem grown_format_overruns :
    let s := lastState load
      ((exec step load (reformatted (yuyv 48#32 32#32) (yuyv 1024#32 768#32))).take 7)
    s.timerPending = true ∧ filledBuffer s true = some 0 ∧ (s.heap 0).mem = some 4096#32 ∧
      (s.heap 0).size = 1572864#32 ∧ ¬ FillsWithin s (.tick true) := by
  intro s
  have hfilled : filledBuffer s true = some 0 := by decide +kernel
  have hmem : (s.heap 0).mem = some 4096#32 := by decide +kernel
  have hsize : (s.heap 0).size = 1572864#32 := by decide +kernel
  refine ⟨by decide +kernel, hfilled, hmem, hsize, fun hfills => ?_⟩
  obtain ⟨n, hn, hle⟩ := hfills 0 hfilled
  obtain rfl := Option.some.inj (hmem.symm.trans hn)
  rw [hsize] at hle
  exact absurd hle (by decide)

/-- A smaller format in between does no harm. -/
theorem fills_within_shrunk :
    let es := exec step load (reformatted (yuyv 1024#32 768#32) (yuyv 48#32 32#32))
    es.length = 8 ∧
      ∀ xs e ys, es = xs ++ e :: ys → FillsWithin (lastState load xs) e.input :=
  ⟨by decide +kernel, fills_within _ (isRun_exec load _) (by decide +kernel)⟩

end Myvivi
