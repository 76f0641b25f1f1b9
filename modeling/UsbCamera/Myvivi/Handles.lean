import UsbCamera.Myvivi.Driver

/-!
# Several openers of the virtual camera

The queue, the local list and the timer are one each, and `open` and `close`
treat them as their caller's own.  So a second `open` adds a timer that is
pending and empties the queue of the first, and a `close` stops the timer for
everyone.

`opens_undisturbed_iff` says when no one notices: exactly when each `open` comes
while no file is open.  The argument is one invariant: as long as that is so, at
most one file is open, and the timer is pending precisely while one is.
-/

namespace Myvivi

open FaultRun

/-! ## What the steps do to the timer and to the open files -/

/-- The timer and the open files are as before. -/
def SameFiles (s t : Driver) : Prop :=
  t.timerPending = s.timerPending ∧ t.handles = s.handles

/-- Doing nothing keeps the files. -/
theorem SameFiles.refl (s : Driver) : SameFiles s s := ⟨rfl, rfl⟩

/-- Two steps that keep the files keep them together. -/
theorem SameFiles.trans {s t u : Driver} (h : SameFiles s t) (h' : SameFiles t u) :
    SameFiles s u := ⟨h'.1.trans h.1, h'.2.trans h.2⟩

/-- A loop changes neither the timer nor the open files if no round does. -/
theorem sameFiles_foldl {α : Type} {f : Driver → α → Driver}
    (hf : ∀ d a, SameFiles d (f d a)) (d : Driver) (as : List α) :
    SameFiles d (as.foldl f d) := by
  induction as generalizing d with
  | nil => exact SameFiles.refl d
  | cons a rest ih => exact (hf d a).trans (ih (f d a))

/-- Handing a prepared buffer to the driver is nothing to the files. -/
theorem sameFiles_queuePrepared (d : Driver) (o : Nat) : SameFiles d (queuePrepared d o) := by
  unfold queuePrepared
  split
  · exact ⟨rfl, rfl⟩
  · exact SameFiles.refl d

/-- Neither is giving up a queued buffer. -/
theorem sameFiles_cancelQueued (d : Driver) (o : Nat) : SameFiles d (cancelQueued d o) := by
  unfold cancelQueued
  split
  · exact ⟨rfl, rfl⟩
  · exact SameFiles.refl d

/-- The table of buffers can be emptied without touching the files. -/
theorem sameFiles_videobufFree (d : Driver) : SameFiles d (videobufFree d).2 := by
  unfold videobufFree
  split
  · exact SameFiles.refl d
  · split
    · exact SameFiles.refl d
    · exact ⟨rfl, rfl⟩

/-- `STREAMOFF` cancels buffers; it opens and closes nothing. -/
theorem sameFiles_videobufStreamoff (d : Driver) : SameFiles d (videobufStreamoff d) := by
  unfold videobufStreamoff videobufQueueCancel
  split
  · have hcancel := sameFiles_foldl sameFiles_cancelQueued
      { d with vidqueue := { d.vidqueue with streaming := false } }
    have hrelease := sameFiles_foldl (fun d o => (⟨rfl, rfl⟩ : SameFiles d (bufferRelease d o)))
    exact (hcancel _).trans (hrelease _ _)
  · exact SameFiles.refl d

/-- `STREAMON` hands buffers to the driver; it opens and closes nothing. -/
theorem sameFiles_videobufStreamon (d : Driver) : SameFiles d (videobufStreamon d).2 := by
  unfold videobufStreamon
  split
  · exact SameFiles.refl d
  · exact sameFiles_foldl sameFiles_queuePrepared
      { d with vidqueue := { d.vidqueue with streaming := true } } _

/-- `REQBUFS` allocates and frees buffers only, whether it succeeds or not. -/
theorem sameFiles_videobufReqbufs (d : Driver) (count avail : Nat) :
    SameFiles d (videobufReqbufs d count avail).2 := by
  have hfree := sameFiles_videobufFree d
  have halloc (bsize : BitVec 32) (n : Nat) :
      SameFiles d ((List.range n).foldl (allocVb bsize) (videobufFree d).2) :=
    hfree.trans (sameFiles_foldl (fun d i => (⟨rfl, rfl⟩ : SameFiles d (allocVb bsize d i))) _ _)
  unfold videobufReqbufs videobufMmapSetup
  grind [SameFiles]

/-- `QBUF` changes the lists of buffers only. -/
theorem sameFiles_videobufQbuf (d : Driver) (h index : Nat) :
    SameFiles d (videobufQbuf d h index).2 := by
  unfold videobufQbuf bufferQueue bufferPrepare Driver.update SameFiles
  grind

/-- So does `DQBUF`. -/
theorem sameFiles_videobufDqbuf (d : Driver) : SameFiles d (videobufDqbuf d).2 := by
  unfold videobufDqbuf Driver.update SameFiles
  grind

/-- A mapping belongs to a buffer, not to a file. -/
theorem sameFiles_videobufMmapMapper (d : Driver) (offset : BitVec 32) :
    SameFiles d (videobufMmapMapper d offset).2 := by
  unfold videobufMmapMapper Driver.update SameFiles
  grind

/-- A new format, taken or refused, leaves the files as they are. -/
theorem sameFiles_sFmt (d : Driver) (f : PixFormat) : SameFiles d (sFmt d f).2 := by
  unfold sFmt SameFiles
  grind

/-- The timer function starts the timer again, so a tick leaves it pending. -/
theorem sameFiles_tick (d : Driver) (waiting : Bool) (hpending : d.timerPending = true) :
    SameFiles d (myviviTimerFunction d waiting) := by
  unfold myviviTimerFunction Driver.update SameFiles
  grind

/-- **Files and timer, step by step.**  An `open` adds a file and starts the timer,
a `close` removes its file and stops it, and nothing else changes either. -/
theorem step_files {s t : Driver} {ev : Event} {r : Int} (hstep : step s ev = .ok (r, t)) :
    match ev with
    | .open => t.timerPending = true ∧ t.handles = s.nextHandle :: s.handles
    | .close h => h ∈ s.handles ∧ t.timerPending = false ∧ t.handles = s.handles.erase h
    | _ => SameFiles s t := by
  cases ev with
  | «open» =>
      obtain ⟨-, rfl⟩ := Prod.mk.inj (Except.ok.inj hstep)
      exact ⟨rfl, rfl⟩
  | close h =>
      obtain ⟨hmem, rfl⟩ := Driver.via_eq_ok hstep
      have hoff := sameFiles_videobufStreamoff
        { s with timerPending := false, handles := s.handles.erase h }
      have hfree := hoff.trans (sameFiles_videobufFree _)
      exact ⟨hmem, hfree⟩
  | sFmt h f =>
      obtain ⟨-, rfl⟩ := Driver.via_eq_ok hstep
      exact sameFiles_sFmt s f
  | reqbufs h count avail =>
      obtain ⟨-, rfl⟩ := Driver.via_eq_ok hstep
      exact sameFiles_videobufReqbufs s count avail
  | mmap h offset =>
      obtain ⟨-, rfl⟩ := Driver.via_eq_ok hstep
      exact sameFiles_videobufMmapMapper s offset
  | qbuf h index =>
      obtain ⟨-, rfl⟩ := Driver.via_eq_ok hstep
      exact sameFiles_videobufQbuf s h index
  | dqbuf h =>
      obtain ⟨-, rfl⟩ := Driver.via_eq_ok hstep
      exact sameFiles_videobufDqbuf s
  | streamon h =>
      obtain ⟨-, rfl⟩ := Driver.via_eq_ok hstep
      exact sameFiles_videobufStreamon s
  | streamoff h =>
      obtain ⟨-, rfl⟩ := Driver.via_eq_ok hstep
      exact sameFiles_videobufStreamoff s
  | tick waiting =>
      simp only [step] at hstep
      split at hstep
      · rename_i hpending
        obtain ⟨-, rfl⟩ := Prod.mk.inj (Except.ok.inj hstep)
        exact sameFiles_tick s waiting hpending
      · cases hstep

/-! ## When no one is disturbed -/

/-- From `s` to `t`, the buffers queued through file `h` stay where they are: in the
videobuf queue and in the local list. -/
def KeepsQueued (s t : Driver) (h : Nat) : Prop :=
  ∀ o, (s.heap o).via = h →
    (o ∈ s.vidqueue.stream → o ∈ t.vidqueue.stream) ∧ (o ∈ s.localQueue → o ∈ t.localQueue)

/-- An event disturbs no one: `add_timer` finds the timer at rest, the timer is pending
afterwards if a file is open, and an `open` or `close` keeps what other open files have
queued. -/
structure Undisturbed (s : Driver) (ev : Event) (t : Driver) : Prop where
  addTimer : ev = .open → s.timerPending = false
  pending : t.handles ≠ [] → t.timerPending = true
  opening : ev = .open → ∀ h ∈ s.handles, KeepsQueued s t h
  closing : ∀ g, ev = .close g → ∀ h ∈ s.handles, h ≠ g → KeepsQueued s t h

/-- An `open` comes while no file is open. -/
def OpensAlone (s : Driver) : Event → Prop
  | .open => s.handles = []
  | _ => True

instance (s : Driver) (ev : Event) : Decidable (OpensAlone s ev) := by
  unfold OpensAlone; split <;> infer_instance

/-- At most one file is open, and the timer is pending while one is. -/
structure OneOpener (s : Driver) : Prop where
  single : s.handles.length ≤ 1
  pending : s.timerPending = true ↔ s.handles ≠ []

/-- A step that keeps the files keeps the single opener. -/
theorem OneOpener.of_sameFiles {s t : Driver} (h : OneOpener s) (hsame : SameFiles s t) :
    OneOpener t := by
  obtain ⟨htimer, hhandles⟩ := hsame
  exact ⟨hhandles ▸ h.single, by rw [htimer, hhandles]; exact h.pending⟩

/-- The file that makes a call is then the only one. -/
theorem OneOpener.handles_eq {s : Driver} (h : OneOpener s) {g : Nat} (hg : g ∈ s.handles) :
    s.handles = [g] := by
  obtain ⟨a, ha⟩ := List.length_eq_one_iff.mp
    (le_antisymm h.single (List.length_pos_of_mem hg))
  rw [ha, List.mem_singleton] at hg
  rw [ha, hg]

/-- One opener at a time stays so, as long as an `open` comes while no file is open. -/
theorem OneOpener.step {s t : Driver} {ev : Event} {r : Int} (h : OneOpener s)
    (halone : OpensAlone s ev) (hstep : step s ev = .ok (r, t)) : OneOpener t := by
  have hfiles := step_files hstep
  cases ev with
  | «open» =>
      have hnone : s.handles = [] := halone
      obtain ⟨htimer, hhandles⟩ := hfiles
      rw [hnone] at hhandles
      exact ⟨by simp [hhandles], by simp [htimer, hhandles]⟩
  | close g =>
      obtain ⟨hmem, htimer, hhandles⟩ := hfiles
      rw [h.handles_eq hmem] at hhandles
      exact ⟨by simp [hhandles], by simp [htimer, hhandles]⟩
  | _ => exact h.of_sameFiles hfiles

/-- With one opener at a time, an event disturbs no one exactly when it is not an
`open` beside an open file. -/
theorem OneOpener.undisturbed_iff {s t : Driver} {ev : Event} {r : Int} (h : OneOpener s)
    (hstep : Myvivi.step s ev = .ok (r, t)) : Undisturbed s ev t ↔ OpensAlone s ev := by
  constructor
  · intro hquiet
    cases ev with
    | «open» =>
        have hrest := hquiet.addTimer rfl
        have hnone : ¬ s.handles ≠ [] := fun hne => by
          rw [h.pending.mpr hne] at hrest
          cases hrest
        exact not_not.mp hnone
    | _ => trivial
  · intro halone
    refine ⟨?_, (h.step halone hstep).pending.mpr, ?_, ?_⟩
    · rintro rfl
      have hnone : s.handles = [] := halone
      rw [← Bool.not_eq_true, h.pending, hnone]
      simp
    · rintro rfl g hg
      have hnone : s.handles = [] := halone
      rw [hnone] at hg
      cases hg
    · rintro g rfl f hf hne
      have hmem : g ∈ s.handles := (step_files hstep).1
      rw [h.handles_eq hmem, List.mem_singleton] at hf
      exact absurd hf hne

/-- **Opening the camera again.**  In a sequence of events from loading the driver on,
no event disturbs anyone exactly when each `open` comes while no file is open. -/
theorem opens_undisturbed_iff (es : EventLog) (hrun : IsRun step load es) :
    (∀ xs e ys, es = xs ++ e :: ys → Undisturbed (lastState load xs) e.input e.state) ↔
      Along OpensAlone load es := by
  have hload : OneOpener load := ⟨by decide, by decide⟩
  have hkeep (s : Driver) (ev : Event) (r : Int) (t : Driver) (h : OneOpener s)
      (halone : OpensAlone s ev) (hstep : step s ev = .ok (r, t)) : OneOpener t :=
    h.step halone hstep
  have hiff (s : Driver) (ev : Event) (r : Int) (t : Driver) (h : OneOpener s)
      (hstep : step s ev = .ok (r, t)) : Undisturbed s ev t ↔ OpensAlone s ev :=
    h.undisturbed_iff hstep
  exact IsRun.entries_iff_along (Q := fun s ev _ t => Undisturbed s ev t) hkeep hiff hrun hload

/-- A capture of 48 by 32 pixels, with one buffer queued and the stream on. -/
def oneQueued : List Event :=
  [.open, .sFmt 0 { width := 48#32, height := 32#32, pixelformat := V4L2_PIX_FMT_YUYV },
    .reqbufs 0 1 1, .mmap 0 0#32, .qbuf 0 0, .streamon 0]

/-- A second `open` beside that capture: the timer it adds is pending, and the buffer
queued through the first file is in the videobuf queue no more. -/
theorem second_open_disturbs :
    let es := exec step load oneQueued
    let s := lastState load es
    let t := lastState load (exec step load (oneQueued ++ [.open]))
    s.timerPending = true ∧ (s.heap 0).via ∈ s.handles ∧ 0 ∈ s.vidqueue.stream ∧
      0 ∉ t.vidqueue.stream ∧ ¬ Undisturbed s .open t := by
  refine ⟨by decide +kernel, by decide +kernel, by decide +kernel, by decide +kernel, ?_⟩
  intro hquiet
  have hrest := hquiet.addTimer rfl
  revert hrest
  decide +kernel

/-- One file after another disturbs no one: the camera is opened, used, closed and
opened again. -/
theorem opens_undisturbed_reopened :
    let es := exec step load (oneQueued ++ [.tick true, .close 0, .open])
    es.length = 9 ∧
      ∀ xs e ys, es = xs ++ e :: ys → Undisturbed (lastState load xs) e.input e.state :=
  ⟨by decide +kernel,
    (opens_undisturbed_iff _ (isRun_exec load _)).mpr (by decide +kernel)⟩

end Myvivi
