import Mathlib.Data.List.Nodup
import Mathlib.Tactic

/-!
# Runs of a machine whose steps may fault

A machine is a function `step` that takes a state and an input to either a
fault or a reply and a next state.  A run is kept as data: the list of its
executed steps, each with its input, its reply and the state it left.  A step
that faults is never part of a run, so a run ends there.

The file gives the induction rules that the developments over it use: how a
run splits at an append, what one step has to keep for a whole run to keep it,
and the same for runs whose every step meets a side condition in the state it
starts from (`Along`).
-/

namespace FaultRun

variable {σ ι ρ ε : Type}

/-- One executed step: its input, its reply, and the state it left. -/
structure Entry (ι ρ σ : Type) where
  input : ι
  reply : ρ
  state : σ

/-- The state in which a list of executed steps ends. -/
def lastState (s : σ) : List (Entry ι ρ σ) → σ
  | [] => s
  | e :: rest => lastState e.state rest

/-- The listed steps are what `step` does from `s`, one after another. -/
def IsRun (step : σ → ι → Except ε (ρ × σ)) : σ → List (Entry ι ρ σ) → Prop
  | _, [] => True
  | s, e :: rest => step s e.input = .ok (e.reply, e.state) ∧ IsRun step e.state rest

/-- Every executed step meets `C` in the state it starts from. -/
def Along (C : σ → ι → Prop) : σ → List (Entry ι ρ σ) → Prop
  | _, [] => True
  | s, e :: rest => C s e.input ∧ Along C e.state rest

instance Along.decidable {C : σ → ι → Prop} [∀ s i, Decidable (C s i)] (s : σ) :
    (es : List (Entry ι ρ σ)) → Decidable (Along C s es)
  | [] => .isTrue trivial
  | e :: rest =>
      have := Along.decidable (C := C) e.state rest
      inferInstanceAs (Decidable (C s e.input ∧ Along C e.state rest))

/-- Execute a list of inputs up to the first fault. -/
def exec (step : σ → ι → Except ε (ρ × σ)) : σ → List ι → List (Entry ι ρ σ)
  | _, [] => []
  | s, i :: rest =>
      match step s i with
      | .error _ => []
      | .ok (r, t) => ⟨i, r, t⟩ :: exec step t rest

/-- A mapped outcome is a success exactly when the outcome is one. -/
theorem map_eq_ok {α β : Type} {x : Except ε α} {f : α → β} {b : β} :
    x.map f = .ok b ↔ ∃ a, x = .ok a ∧ f a = b := by
  cases x <;> simp [Except.map]

/-- Two computations in a row succeed exactly when both do. -/
theorem bind_eq_ok {α β : Type} {x : Except ε α} {f : α → Except ε β} {b : β} :
    (x >>= f) = .ok b ↔ ∃ a, x = .ok a ∧ f a = .ok b := by
  cases x <;> simp [bind, Except.bind]

variable {step : σ → ι → Except ε (ρ × σ)}

@[simp] theorem lastState_nil (s : σ) :
    lastState s ([] : List (Entry ι ρ σ)) = s := rfl

@[simp] theorem lastState_cons (s : σ) (e : Entry ι ρ σ) (rest : List (Entry ι ρ σ)) :
    lastState s (e :: rest) = lastState e.state rest := rfl

@[simp] theorem lastState_append (s : σ) (xs ys : List (Entry ι ρ σ)) :
    lastState s (xs ++ ys) = lastState (lastState s xs) ys := by
  induction xs generalizing s with
  | nil => rfl
  | cons e rest ih => exact ih e.state

/-- A run splits at an append, the second part starting where the first
ends. -/
theorem isRun_append {s : σ} {xs ys : List (Entry ι ρ σ)} :
    IsRun step s (xs ++ ys) ↔ IsRun step s xs ∧ IsRun step (lastState s xs) ys := by
  induction xs generalizing s with
  | nil => simp [IsRun]
  | cons e rest ih => simp [IsRun, ih, and_assoc]

/-- Side conditions split the same way. -/
theorem along_append {C : σ → ι → Prop} {s : σ} {xs ys : List (Entry ι ρ σ)} :
    Along C s (xs ++ ys) ↔ Along C s xs ∧ Along C (lastState s xs) ys := by
  induction xs generalizing s with
  | nil => simp [Along]
  | cons e rest ih => simp [Along, ih, and_assoc]

/-- Side conditions are met along a run when they are met at each of its
entries. -/
theorem along_iff {C : σ → ι → Prop} {s : σ} {es : List (Entry ι ρ σ)} :
    Along C s es ↔ ∀ xs e ys, es = xs ++ e :: ys → C (lastState s xs) e.input := by
  induction es generalizing s with
  | nil => simp [Along]
  | cons e rest ih =>
      constructor
      · rintro ⟨hhead, htail⟩ xs x ys hsplit
        cases xs with
        | nil =>
            obtain ⟨rfl, -⟩ := List.cons.inj hsplit
            exact hhead
        | cons y zs =>
            obtain ⟨rfl, hrest⟩ := List.cons.inj hsplit
            exact ih.mp htail zs x ys hrest
      · intro h
        refine ⟨h [] e rest rfl, ih.mpr fun xs x ys hsplit => ?_⟩
        exact h (e :: xs) x ys (by rw [hsplit, List.cons_append])

/-- Executing inputs produces a run. -/
theorem isRun_exec (s : σ) (inputs : List ι) : IsRun step s (exec step s inputs) := by
  induction inputs generalizing s with
  | nil => trivial
  | cons i rest ih =>
      unfold exec
      split
      · trivial
      · rename_i r t hstep
        exact ⟨hstep, ih t⟩

/-- Executing a list of inputs executes no other input. -/
theorem input_mem_of_mem_exec {s : σ} {inputs : List ι} {e : Entry ι ρ σ}
    (he : e ∈ exec step s inputs) : e.input ∈ inputs := by
  induction inputs generalizing s with
  | nil => cases he
  | cons i rest ih =>
      unfold exec at he
      split at he
      · cases he
      · rcases List.mem_cons.mp he with rfl | he
        · exact List.mem_cons_self
        · exact List.mem_cons_of_mem _ (ih he)

/-- **Conditional invariants.**  What every step keeps under the condition `C`
holds at the end of every run that meets `C` throughout. -/
theorem IsRun.keeps_along {P : σ → Prop} {C : σ → ι → Prop}
    (hkeep : ∀ s i r t, P s → C s i → step s i = .ok (r, t) → P t)
    {s : σ} {es : List (Entry ι ρ σ)} (hrun : IsRun step s es)
    (hC : Along C s es) (hs : P s) : P (lastState s es) := by
  induction es generalizing s with
  | nil => exact hs
  | cons e rest ih =>
      obtain ⟨hstep, htail⟩ := hrun
      exact ih htail hC.2 (hkeep s e.input e.reply e.state hs hC.1 hstep)

/-- A condition on the inputs alone holds along a run when it holds of each
input. -/
theorem along_of_forall {A : ι → Prop} {s : σ} {es : List (Entry ι ρ σ)}
    (h : ∀ e ∈ es, A e.input) : Along (fun _ i => A i) s es := by
  induction es generalizing s with
  | nil => trivial
  | cons e rest ih =>
      exact ⟨h e List.mem_cons_self, ih fun x hx => h x (List.mem_cons_of_mem _ hx)⟩

/-- **Invariants.**  What every step keeps holds at the end of every run. -/
theorem IsRun.keeps {P : σ → Prop}
    (hkeep : ∀ s i r t, P s → step s i = .ok (r, t) → P t)
    {s : σ} {es : List (Entry ι ρ σ)} (hrun : IsRun step s es) (hs : P s) :
    P (lastState s es) :=
  hrun.keeps_along (C := fun _ _ => True) (fun s i r t hp _ => hkeep s i r t hp)
    (along_of_forall (A := fun _ => True) fun _ _ => trivial) hs

/-- **Exact side conditions.**  `I` is kept by the steps that meet `C`, and `P`
holds wherever `I` does.  If a step from `I` to `P` has to meet `C`, the runs that
stay in `P` are those that meet `C` throughout.  The steps may all be assumed to
meet a further condition `H`. -/
theorem IsRun.holds_iff_along {I P : σ → Prop} {H C : σ → ι → Prop}
    (hkeep : ∀ s i r t, I s → H s i → C s i → step s i = .ok (r, t) → I t)
    (hholds : ∀ s, I s → P s)
    (hneeds : ∀ s i r t, I s → step s i = .ok (r, t) → P t → C s i)
    {s : σ} {es : List (Entry ι ρ σ)} (hrun : IsRun step s es) (hH : Along H s es)
    (hs : I s) :
    (∀ xs ys, es = xs ++ ys → P (lastState s xs)) ↔ Along C s es := by
  induction es generalizing s with
  | nil =>
      refine iff_of_true (fun xs ys hsplit => ?_) trivial
      obtain ⟨rfl, -⟩ := List.append_eq_nil_iff.mp hsplit.symm
      exact hholds s hs
  | cons e rest ih =>
      obtain ⟨hstep, htail⟩ := hrun
      constructor
      · intro hP
        have hC := hneeds s e.input e.reply e.state hs hstep (hP [e] rest rfl)
        have hI := hkeep s e.input e.reply e.state hs hH.1 hC hstep
        refine ⟨hC, (ih htail hH.2 hI).mp fun xs ys hsplit => ?_⟩
        exact hP (e :: xs) ys (by rw [hsplit, List.cons_append])
      · rintro ⟨hC, hrest⟩ xs ys hsplit
        have hI := hkeep s e.input e.reply e.state hs hH.1 hC hstep
        cases xs with
        | nil => exact hholds s hs
        | cons x zs =>
            obtain ⟨rfl, hzs⟩ := List.cons.inj hsplit
            exact (ih htail hH.2 hI).mpr hrest zs ys hzs

/-- **Exact conditions on steps.**  `I` is kept by the steps that meet `C`, and from
`I` a step has the property `Q` exactly when it meets `C`.  Then all steps of a run
have `Q` exactly when the run meets `C` throughout. -/
theorem IsRun.entries_iff_along {I : σ → Prop} {C : σ → ι → Prop} {Q : σ → ι → ρ → σ → Prop}
    (hkeep : ∀ s i r t, I s → C s i → step s i = .ok (r, t) → I t)
    (hiff : ∀ s i r t, I s → step s i = .ok (r, t) → (Q s i r t ↔ C s i))
    {s : σ} {es : List (Entry ι ρ σ)} (hrun : IsRun step s es) (hs : I s) :
    (∀ xs e ys, es = xs ++ e :: ys → Q (lastState s xs) e.input e.reply e.state) ↔
      Along C s es := by
  induction es generalizing s with
  | nil => exact iff_of_true (fun xs e ys hsplit => by simp at hsplit) trivial
  | cons e rest ih =>
      obtain ⟨hstep, htail⟩ := hrun
      have hhead := hiff s e.input e.reply e.state hs hstep
      constructor
      · intro hQ
        have hC := hhead.mp (hQ [] e rest rfl)
        refine ⟨hC, (ih htail (hkeep s _ _ _ hs hC hstep)).mp fun xs x ys hsplit => ?_⟩
        exact hQ (e :: xs) x ys (by rw [hsplit, List.cons_append])
      · intro hC xs x ys hsplit
        cases xs with
        | nil =>
            obtain ⟨rfl, -⟩ := List.cons.inj hsplit
            exact hhead.mpr hC.1
        | cons y zs =>
            obtain ⟨rfl, hrest⟩ := List.cons.inj hsplit
            exact (ih htail (hkeep s _ _ _ hs hC.1 hstep)).mpr hC.2 zs x ys hrest

/-- **Implied side conditions.**  What is kept by the steps that meet `C` may be
used to conclude `D` from `C`, along the whole run. -/
theorem IsRun.along_imp {I : σ → Prop} {C D : σ → ι → Prop}
    (hkeep : ∀ s i r t, I s → C s i → step s i = .ok (r, t) → I t)
    (himp : ∀ s i r t, I s → C s i → step s i = .ok (r, t) → D s i)
    {s : σ} {es : List (Entry ι ρ σ)} (hrun : IsRun step s es) (hs : I s)
    (hC : Along C s es) : Along D s es := by
  induction es generalizing s with
  | nil => trivial
  | cons e rest ih =>
      obtain ⟨hstep, htail⟩ := hrun
      obtain ⟨hhead, hrest⟩ := hC
      have hnext := hkeep s e.input e.reply e.state hs hhead hstep
      exact ⟨himp s e.input e.reply e.state hs hhead hstep, ih htail hnext hrest⟩

/-- **Equivalent side conditions.**  Two conditions that agree wherever `I` holds
are met by the same runs, when `I` is kept by the steps that meet one of them. -/
theorem IsRun.along_congr {I : σ → Prop} {A C : σ → ι → Prop}
    (hkeep : ∀ s i r t, I s → C s i → step s i = .ok (r, t) → I t)
    (hiff : ∀ s i, I s → (A s i ↔ C s i))
    {s : σ} {es : List (Entry ι ρ σ)} (hrun : IsRun step s es) (hs : I s) :
    Along A s es ↔ Along C s es := by
  induction es generalizing s with
  | nil => exact Iff.rfl
  | cons e rest ih =>
      obtain ⟨hstep, htail⟩ := hrun
      constructor
      · rintro ⟨hA, hrest⟩
        have hC := (hiff s e.input hs).mp hA
        exact ⟨hC, (ih htail (hkeep s e.input e.reply e.state hs hC hstep)).mp hrest⟩
      · rintro ⟨hC, hrest⟩
        have hI := hkeep s e.input e.reply e.state hs hC hstep
        exact ⟨(hiff s e.input hs).mpr hC, (ih htail hI).mpr hrest⟩

/-- The step recorded in the middle of a run starts where the steps before it
end. -/
theorem IsRun.step_at {s : σ} {xs ys : List (Entry ι ρ σ)} {e : Entry ι ρ σ}
    (hrun : IsRun step s (xs ++ e :: ys)) :
    step (lastState s xs) e.input = .ok (e.reply, e.state) :=
  (isRun_append.mp hrun).2.1

/-- The last entry of a log with `P` exists, and `Q` holds of it and of the
entries before it. -/
def LastSatisfies {α : Type} (P : α → Prop) (Q : List α → α → Prop) (l : List α) : Prop :=
  ∃ xs e ys, l = xs ++ e :: ys ∧ P e ∧ (∀ x ∈ ys, ¬ P x) ∧ Q xs e

theorem not_lastSatisfies_nil {α : Type} (P : α → Prop) (Q : List α → α → Prop) :
    ¬ LastSatisfies P Q [] := by
  rintro ⟨xs, e, ys, hsplit, -⟩
  simp at hsplit

/-- A further entry is the last with `P`, or the last one stays. -/
theorem lastSatisfies_concat {α : Type} {P : α → Prop} {Q : List α → α → Prop} {l : List α}
    {a : α} :
    LastSatisfies P Q (l ++ [a]) ↔ (P a ∧ Q l a) ∨ (¬ P a ∧ LastSatisfies P Q l) := by
  constructor
  · rintro ⟨xs, e, ys, hsplit, he, hys, hq⟩
    rcases List.eq_nil_or_concat ys with rfl | ⟨zs, z, rfl⟩
    · obtain ⟨rfl, hlast⟩ := List.append_inj' hsplit rfl
      obtain ⟨rfl, -⟩ := List.cons.inj hlast
      exact Or.inl ⟨he, hq⟩
    · have hsame : l ++ [a] = (xs ++ e :: zs) ++ [z] := by simpa using hsplit
      obtain ⟨rfl, hlast⟩ := List.append_inj' hsame rfl
      obtain ⟨rfl, -⟩ := List.cons.inj hlast
      exact Or.inr ⟨hys a (by simp), xs, e, zs, rfl, he, fun x hx => hys x (by simp [hx]), hq⟩
  · rintro (⟨ha, hq⟩ | ⟨ha, xs, e, ys, rfl, he, hys, hq⟩)
    · exact ⟨l, a, [], rfl, ha, by simp, hq⟩
    · refine ⟨xs, e, ys ++ [a], by simp, he, ?_, hq⟩
      intro x hx
      rcases List.mem_append.mp hx with hx | hx
      · exact hys x hx
      · rw [List.mem_singleton.mp hx]
        exact ha

end FaultRun
