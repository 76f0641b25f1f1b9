import Mathlib.Data.List.Nodup
import Mathlib.Tactic

/-!
# A first-in first-out channel with two stages

Tokens enter a channel at its back, wait there to be worked on, become ready
in the order in which they entered, and leave from the front.  A channel is
the tokens that are ready followed by those still waiting; no token is in it
twice, and the structure carries that fact.

Over any run of the three operations the tokens taken so far followed by the
tokens inside are the tokens that were inside at the start followed by the
tokens that entered (`Steps.conserved`).  So nothing is lost, duplicated or
overtaken, and the token at the front of the ready part stays there until it is
taken (`Steps.front_stays`).
-/

namespace TwoStageFifo

variable {α : Type}

/-- A channel: `ready` tokens, then `waiting` tokens, all different. -/
@[ext] structure Channel (α : Type) where
  ready : List α
  waiting : List α
  nodup : (ready ++ waiting).Nodup

namespace Channel

/-- The tokens inside, front first. -/
def inside (c : Channel α) : List α := c.ready ++ c.waiting

/-- The channel with nothing in it. -/
def empty : Channel α := ⟨[], [], by simp⟩

/-- A new token enters at the back. -/
def enter (c : Channel α) (a : α) (h : a ∉ c.inside) : Channel α where
  ready := c.ready
  waiting := c.waiting ++ [a]
  nodup := by
    rw [← List.append_assoc]
    exact List.nodup_append.mpr ⟨c.nodup, by simp, by
      intro x hx y hy
      rw [List.mem_singleton.mp hy]
      rintro rfl
      exact h hx⟩

/-- The first waiting token becomes ready. -/
def finish (c : Channel α) (a : α) (rest : List α) (h : c.waiting = a :: rest) :
    Channel α where
  ready := c.ready ++ [a]
  waiting := rest
  nodup := by
    have hnd := c.nodup
    rw [h] at hnd
    simpa using hnd

/-- The first ready token leaves. -/
def take (c : Channel α) (a : α) (rest : List α) (h : c.ready = a :: rest) :
    Channel α where
  ready := rest
  waiting := c.waiting
  nodup := by
    have hnd := c.nodup
    rw [h, List.cons_append] at hnd
    exact hnd.of_cons

/-- What enters comes last. -/
theorem inside_enter (c : Channel α) (a : α) (h : a ∉ c.inside) :
    (c.enter a h).inside = c.inside ++ [a] := by
  simp [inside, enter]

/-- To finish moves nothing in or out. -/
theorem inside_finish (c : Channel α) {a : α} {rest : List α} (h : c.waiting = a :: rest) :
    (c.finish a rest h).inside = c.inside := by
  simp [inside, finish, h]

/-- What is taken was first. -/
theorem inside_take (c : Channel α) {a : α} {rest : List α} (h : c.ready = a :: rest) :
    c.inside = a :: (c.take a rest h).inside := by
  simp [inside, take, h]

/-- What waits is inside. -/
theorem mem_inside_of_waiting {c : Channel α} {a : α} (h : a ∈ c.waiting) : a ∈ c.inside :=
  List.mem_append_right _ h

/-- The token at the front is the first ready one, or the first waiting one if none
is ready. -/
theorem front_cases {c : Channel α} {a : α} {rest : List α} (h : c.inside = a :: rest) :
    (c.ready = [] ∧ c.waiting = a :: rest) ∨
      ∃ ready, c.ready = a :: ready ∧ rest = ready ++ c.waiting :=
  List.append_eq_cons_iff.mp h

end Channel

/-- What can happen to a channel. -/
inductive Op (α : Type)
  | enter (a : α)
  | finish (a : α)
  | take (a : α)

/-- One operation, where the channel allows it. -/
inductive Step : Channel α → Op α → Channel α → Prop
  | enter (c : Channel α) (a : α) (h : a ∉ c.inside) : Step c (.enter a) (c.enter a h)
  | finish (c : Channel α) (a : α) (rest : List α) (h : c.waiting = a :: rest) :
      Step c (.finish a) (c.finish a rest h)
  | take (c : Channel α) (a : α) (rest : List α) (h : c.ready = a :: rest) :
      Step c (.take a) (c.take a rest h)

/-- Operations one after another. -/
inductive Steps : Channel α → List (Op α) → Channel α → Prop
  | nil (c : Channel α) : Steps c [] c
  | cons {c d e : Channel α} {op : Op α} {ops : List (Op α)}
      (hstep : Step c op d) (tail : Steps d ops e) : Steps c (op :: ops) e

/-- The tokens that entered, in order. -/
def entered : List (Op α) → List α
  | [] => []
  | .enter a :: ops => a :: entered ops
  | _ :: ops => entered ops

/-- The tokens that were taken, in order. -/
def taken : List (Op α) → List α
  | [] => []
  | .take a :: ops => a :: taken ops
  | _ :: ops => taken ops

/-- The tokens that became ready, in order. -/
def finished : List (Op α) → List α
  | [] => []
  | .finish a :: ops => a :: finished ops
  | _ :: ops => finished ops

/-- What enters, finishes and leaves is collected operation by operation. -/
theorem entered_append (xs ys : List (Op α)) :
    entered (xs ++ ys) = entered xs ++ entered ys := by
  induction xs with
  | nil => rfl
  | cons op ops ih => cases op <;> simp [entered, ih]

theorem taken_append (xs ys : List (Op α)) :
    taken (xs ++ ys) = taken xs ++ taken ys := by
  induction xs with
  | nil => rfl
  | cons op ops ih => cases op <;> simp [taken, ih]

theorem finished_append (xs ys : List (Op α)) :
    finished (xs ++ ys) = finished xs ++ finished ys := by
  induction xs with
  | nil => rfl
  | cons op ops ih => cases op <;> simp [finished, ih]

/-- A single operation as a run. -/
theorem Step.steps {c d : Channel α} {op : Op α} (h : Step c op d) : Steps c [op] d :=
  Steps.cons h (Steps.nil d)

/-- Runs compose. -/
theorem Steps.append {c d e : Channel α} {xs ys : List (Op α)}
    (hleft : Steps c xs d) (hright : Steps d ys e) : Steps c (xs ++ ys) e := by
  induction hleft with
  | nil => exact hright
  | cons hstep tail ih => exact Steps.cons hstep (ih hright)

/-- One operation neither loses nor duplicates nor reorders a token. -/
theorem Step.conserved {c d : Channel α} {op : Op α} (h : Step c op d) :
    taken [op] ++ d.inside = c.inside ++ entered [op] := by
  cases h with
  | enter a h => simp [taken, entered, Channel.inside_enter]
  | finish a rest h => simp [taken, entered, Channel.inside_finish]
  | take a rest h => simp [taken, entered, c.inside_take h]

/-- **Conservation.**  What was taken, followed by what is inside, is what was
inside followed by what entered. -/
theorem Steps.conserved {c d : Channel α} {ops : List (Op α)} (h : Steps c ops d) :
    taken ops ++ d.inside = c.inside ++ entered ops := by
  induction h with
  | nil => simp [taken, entered]
  | @cons c d e op ops hstep tail ih =>
      have hhead := hstep.conserved
      calc taken (op :: ops) ++ e.inside
          = taken [op] ++ (taken ops ++ e.inside) := by
            rw [← List.append_assoc, ← taken_append, List.singleton_append]
        _ = taken [op] ++ d.inside ++ entered ops := by rw [ih, List.append_assoc]
        _ = c.inside ++ (entered [op] ++ entered ops) := by rw [hhead, List.append_assoc]
        _ = c.inside ++ entered (op :: ops) := by
            rw [← entered_append, List.singleton_append]

/-- Conservation in the waiting part: what became ready, followed by what waits, is what
waited followed by what entered. -/
theorem Steps.waiting_conserved {c d : Channel α} {ops : List (Op α)} (h : Steps c ops d) :
    finished ops ++ d.waiting = c.waiting ++ entered ops := by
  induction h with
  | nil => simp [finished, entered]
  | @cons c d e op ops hstep tail ih =>
      cases hstep with
      | enter a h => simpa [finished, entered, Channel.enter] using ih
      | finish a rest h => simpa [finished, entered, Channel.finish, h] using ih
      | take a rest h => simpa [finished, entered, Channel.take] using ih

/-- Conservation in the ready part: what was taken, followed by what is ready, is what was
ready followed by what became ready. -/
theorem Steps.ready_conserved {c d : Channel α} {ops : List (Op α)} (h : Steps c ops d) :
    taken ops ++ d.ready = c.ready ++ finished ops := by
  induction h with
  | nil => simp [taken, finished]
  | @cons c d e op ops hstep tail ih =>
      cases hstep with
      | enter a h => simpa [taken, finished, Channel.enter] using ih
      | finish a rest h => simpa [taken, finished, Channel.finish] using ih
      | take a rest h => simpa [taken, finished, Channel.take, h] using ih

/-- The front ready token stays at the front until a token is taken. -/
theorem Steps.front_stays {c d : Channel α} {ops : List (Op α)} (h : Steps c ops d)
    {a : α} {rest : List α} (hready : c.ready = a :: rest) (htaken : taken ops = []) :
    ∃ rest', d.ready = a :: rest' := by
  induction h generalizing rest with
  | nil => exact ⟨rest, hready⟩
  | @cons c d e op ops hstep tail ih =>
      cases hstep with
      | enter b h => exact ih hready htaken
      | finish b waiting h =>
          have hkept : (c.finish b waiting h).ready = a :: (rest ++ [b]) := by
            simp [Channel.finish, hready]
          exact ih hkept htaken
      | take b waiting h => simp [taken] at htaken

end TwoStageFifo
