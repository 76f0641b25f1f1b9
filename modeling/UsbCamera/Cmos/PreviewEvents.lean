import UsbCamera.Base.Run

/-!
# Frame interrupts and reads of the `cmos_ov7740` driver

The preview interrupt sets `ev_cam`, and `cmos_ov7740_read` waits for it, copies
the four image buffers to the application and clears it again.  Nothing is locked,
so interrupts fall anywhere between the steps of a read, and any number of reads
may be under way at once.  A read is taken apart into the steps that such an
interleaving can tell apart: the call, the test of the flag, the four copies, the
clearing and the return.

Whether an event is lost is a question about the past, which the driver does not
record.  So the machine is observed: beside its state goes what an observer has
seen (`Seen`), and no step of the driver looks at that.  The observer knows for
each read whether an interrupt has come since its wait ended, and knows the same
of the read that cleared the flag last.

The flag is one bit, tested at the beginning and cleared at the end.  So an
interrupt in between is cleared together with the one that the read has waited
for, and that is the only way to lose one (`interrupts_remembered_iff`).
-/

namespace Cmos

namespace Preview

open FaultRun

def EFAULT : Int := 14

/-- Where a call of `cmos_ov7740_read` is, with its `end`. -/
inductive Phase
  | idle
  | waiting (bytes : Nat)
  | copying (bytes i : Nat)
  | clearing (bytes : Nat)
  | returning (ret : Int)
deriving DecidableEq, Repr

/-- The statics that a read and the interrupt share, and the reads under way. -/
structure Camera where
  bufSize : Nat
  evCam : Bool := false
  phase : Nat → Phase := fun _ => .idle

/-- What happens next, by the interrupt or in the read of task `r`. -/
inductive Event
  | irq
  | call (r count : Nat)
  /-- The flag is not set, and the task sleeps. -/
  | sleep (r : Nat)
  /-- The flag is set, and the wait ends. -/
  | wait (r : Nat)
  /-- A signal ends the wait; the driver does not look at the result. -/
  | signal (r : Nat)
  | copy (r : Nat) (copied : Bool)
  | clear (r : Nat)
  | ret (r : Nat)
deriving DecidableEq, Repr

/-- The event is not one that can happen in the state. -/
inductive Disabled
  | disabled
deriving DecidableEq, Repr

def Camera.enter (s : Camera) (r : Nat) (p : Phase) : Camera :=
  { s with phase := Function.update s.phase r p }

/-- One event, with what the read returns if it does. -/
def step (s : Camera) : Event → Except Disabled (Option Int × Camera)
  | .irq => .ok (none, { s with evCam := true })
  | .call r count =>
      match s.phase r with
      | .idle => .ok (none, s.enter r (.waiting (min s.bufSize count)))
      | _ => .error .disabled
  | .sleep r =>
      match s.phase r, s.evCam with
      | .waiting _, false => .ok (none, s)
      | _, _ => .error .disabled
  | .wait r =>
      match s.phase r, s.evCam with
      | .waiting bytes, true => .ok (none, s.enter r (.copying bytes 0))
      | _, _ => .error .disabled
  | .signal r =>
      match s.phase r, s.evCam with
      | .waiting bytes, false => .ok (none, s.enter r (.copying bytes 0))
      | _, _ => .error .disabled
  | .copy r copied =>
      match s.phase r with
      | .copying bytes i =>
          if copied then
            .ok (none, s.enter r (if i + 1 < 4 then .copying bytes (i + 1) else .clearing bytes))
          else .ok (none, s.enter r (.returning (-EFAULT)))
      | _ => .error .disabled
  | .clear r =>
      match s.phase r with
      | .clearing bytes => .ok (none, { s with evCam := false }.enter r (.returning bytes))
      | _ => .error .disabled
  | .ret r =>
      match s.phase r with
      | .returning ret => .ok (some ret, s.enter r .idle)
      | _ => .error .disabled

/-! ## The observer -/

/-- What an observer knows about the interrupts. -/
structure Seen where
  /-- One has come since the wait of this read ended. -/
  sinceWait : Nat → Bool := fun _ => false
  /-- One has come since the wait of the last read that cleared the flag ended. -/
  sincePrevious : Bool := false

def Seen.next (h : Seen) : Event → Seen
  | .irq => { sinceWait := fun _ => true, sincePrevious := true }
  | .wait r => { h with sinceWait := Function.update h.sinceWait r false }
  | .signal r => { h with sinceWait := Function.update h.sinceWait r false }
  | .clear r => { h with sincePrevious := h.sinceWait r }
  | _ => h

/-- The observed machine. -/
def observe (s : Camera × Seen) (e : Event) : Except Disabled (Option Int × Camera × Seen) :=
  (step s.1 e).map fun (v, t) => (v, t, s.2.next e)

abbrev Log := List (Entry Event (Option Int) (Camera × Seen))

/-- A driver just loaded. -/
def loaded (bufSize : Nat) : Camera × Seen := ({ bufSize }, {})

/-- A read that comes to its wait here sleeps only if no interrupt has come since
the wait of the previous successful read. -/
def Remembers (s : Camera × Seen) : Prop := s.1.evCam = false → s.2.sincePrevious = false

/-- No read clears the flag after an interrupt has come behind its own wait. -/
def ClearsOwn (s : Camera × Seen) : Event → Prop
  | .clear r => s.2.sinceWait r = false
  | _ => True

instance (s : Camera × Seen) (e : Event) : Decidable (ClearsOwn s e) := by
  cases e <;> unfold ClearsOwn <;> infer_instance

/-! ## What a step does to the flag -/

/-- The flag after an event. -/
def Event.flag (b : Bool) : Event → Bool
  | .irq => true
  | .clear _ => false
  | _ => b

@[simp] theorem enter_evCam (s : Camera) (r : Nat) (p : Phase) : (s.enter r p).evCam = s.evCam :=
  rfl

/-- Only the interrupt sets the flag, and only the end of a read clears it. -/
theorem step_evCam {s t : Camera} {e : Event} {v : Option Int} (h : step s e = .ok (v, t)) :
    t.evCam = e.flag s.evCam := by
  unfold step at h
  split at h
  · cases h
    rfl
  all_goals
    split at h
    · first
        | (cases h; rfl)
        | (split at h <;> (cases h; rfl))
    · cases h

/-- An observed step is a step, and the observer takes note of it. -/
theorem observe_ok {s t : Camera × Seen} {e : Event} {v : Option Int}
    (h : observe s e = .ok (v, t)) : step s.1 e = .ok (v, t.1) ∧ t.2 = s.2.next e := by
  obtain ⟨⟨w, u⟩, hstep, hnext⟩ := map_eq_ok.mp h
  cases hnext
  exact ⟨hstep, rfl⟩

/-- A step that clears only what its read has waited for forgets nothing. -/
theorem Remembers.next {s t : Camera × Seen} {e : Event} {v : Option Int} (hs : Remembers s)
    (hclear : ClearsOwn s e) (h : observe s e = .ok (v, t)) : Remembers t := by
  obtain ⟨hstep, hseen⟩ := observe_ok h
  have hflag := step_evCam hstep
  unfold Remembers
  rw [hseen, hflag]
  cases e with
  | irq =>
      intro hset
      cases hset
  | clear r =>
      intro _
      exact hclear
  | call | sleep | wait | signal | copy | ret => exact hs

/-- After a step that forgets nothing, the read that has cleared the flag had seen
no interrupt behind its wait. -/
theorem clearsOwn_of_remembers {s t : Camera × Seen} {e : Event} {v : Option Int}
    (h : observe s e = .ok (v, t)) (ht : Remembers t) : ClearsOwn s e := by
  obtain ⟨hstep, hseen⟩ := observe_ok h
  have hflag := step_evCam hstep
  cases e with
  | clear r =>
      have hprevious := ht hflag
      rw [hseen] at hprevious
      exact hprevious
  | irq | call | sleep | wait | signal | copy | ret => trivial

/-- **Interrupts are remembered.**  In every interleaving of interrupts and reads
since the driver was loaded, a read sleeps only if no interrupt has come since the
wait of the previous successful read, exactly when no interrupt comes between the
wait of a read and its clearing of the flag. -/
theorem interrupts_remembered_iff {bufSize : Nat} {log : Log}
    (hrun : IsRun observe (loaded bufSize) log) :
    (∀ xs ys, log = xs ++ ys → Remembers (lastState (loaded bufSize) xs)) ↔
      Along ClearsOwn (loaded bufSize) log := by
  have hH : Along (fun _ _ => True) (loaded bufSize) log :=
    along_of_forall (A := fun _ => True) fun _ _ => trivial
  apply hrun.holds_iff_along (I := Remembers) _ _ _ hH
  · intro _
    rfl
  · intro s e v t hs _ hclear h
    exact hs.next hclear h
  · intro s hs
    exact hs
  · intro s e v t _ h ht
    exact clearsOwn_of_remembers h ht

/-- A read waits for a frame, gets it and returns. -/
def undisturbedRead : List Event :=
  [.call 0 640, .sleep 0, .irq, .wait 0, .copy 0 true, .copy 0 true, .copy 0 true, .copy 0 true,
    .clear 0, .irq, .ret 0]

/-- A second frame, after the flag is cleared, is kept for the next read. -/
theorem undisturbed_read_remembers :
    Remembers (lastState (loaded 640) (exec observe (loaded 640) undisturbedRead)) := by
  have hclears : Along ClearsOwn (loaded 640) (exec observe (loaded 640) undisturbedRead) := by
    decide
  exact (interrupts_remembered_iff (isRun_exec _ undisturbedRead)).mpr hclears _ [] (by simp)

/-- The second frame comes while the first is copied. -/
def disturbedRead : List Event :=
  [.irq, .call 0 640, .wait 0, .copy 0 true, .irq, .copy 0 true, .copy 0 true, .copy 0 true,
    .clear 0, .ret 0, .call 0 640, .sleep 0]

/-- Then the next read sleeps, although an interrupt has come since the wait of the
first. -/
theorem frame_while_copying_forgotten :
    (exec observe (loaded 640) disturbedRead).length = disturbedRead.length ∧
      ¬ Remembers (lastState (loaded 640) (exec observe (loaded 640) disturbedRead)) := by
  refine ⟨rfl, ?_⟩
  intro h
  have hprevious := h rfl
  cases hprevious

end Preview

end Cmos
