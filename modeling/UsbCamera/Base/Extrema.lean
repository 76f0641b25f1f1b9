import Mathlib.Order.Bounds.Basic
import Mathlib.Tactic

/-!
# Loops that look for an extreme value

A loop that looks for the least of some values keeps the least value seen so far,
and often where it was seen.  It starts from a sentinel, a value larger than any
that it expects, and it replaces what it keeps when a value is strictly smaller.

Two such loops are described here.  `minLoop` counts through indices and keeps the
index as well: if some value lies below the sentinel, the loop ends with the first
index of the least value.  `runningMin` goes through a list and keeps the value
alone: if all values lie below the sentinel, it ends with the least of them.  For
the loop that looks for the greatest value the order is turned around.
-/

namespace Extrema

variable {α β : Type} [LinearOrder β]

/-! ## The first index of the least value -/

/-- `i` is the first of the `n` indices at which `f` is least. -/
structure FirstMin (f : Nat → β) (n i : Nat) : Prop where
  lt : i < n
  le : ∀ j < n, f i ≤ f j
  first : ∀ j < i, f i < f j

/-- One round: the pair of the least value and its index. -/
def minRound (f : Nat → β) (best : β × Nat) (j : Nat) : β × Nat :=
  if f j < best.1 then (f j, j) else best

/-- The loop over the first `n` indices. -/
def minLoop (f : Nat → β) (n : Nat) (best : β × Nat) : β × Nat :=
  (List.range n).foldl (minRound f) best

@[simp] theorem minLoop_zero (f : Nat → β) (best : β × Nat) : minLoop f 0 best = best := rfl

/-- The loop, one round on. -/
theorem minLoop_succ (f : Nat → β) (n : Nat) (best : β × Nat) :
    minLoop f (n + 1) best = minRound f (minLoop f n best) n := by
  rw [minLoop, List.range_succ, List.foldl_append]
  rfl

/-- An index with a smaller value than all before it is the new minimum. -/
theorem firstMin_last {f : Nat → β} {n : Nat} (h : ∀ j < n, f n < f j) : FirstMin f (n + 1) n := by
  refine ⟨Nat.lt_succ_self n, fun j hj => ?_, h⟩
  obtain hj | rfl := Nat.lt_succ_iff_lt_or_eq.mp hj
  · exact (h j hj).le
  · exact le_rfl

/-- An index with no smaller value leaves the minimum where it was. -/
theorem FirstMin.succ {f : Nat → β} {n i : Nat} (h : FirstMin f n i) (hn : f i ≤ f n) :
    FirstMin f (n + 1) i := by
  refine ⟨h.lt.trans (Nat.lt_succ_self n), fun j hj => ?_, h.first⟩
  obtain hj | rfl := Nat.lt_succ_iff_lt_or_eq.mp hj
  · exact h.le j hj
  · exact hn

/-- After `n` rounds the loop has what it started with, and no value was smaller, or
it has the first index of the least value. -/
theorem minLoop_cases (f : Nat → β) (n : Nat) (best : β × Nat) :
    (minLoop f n best = best ∧ ∀ j < n, best.1 ≤ f j) ∨
      ∃ i, minLoop f n best = (f i, i) ∧ FirstMin f n i ∧ f i < best.1 := by
  induction n with
  | zero => exact Or.inl ⟨rfl, fun j hj => absurd hj (Nat.not_lt_zero j)⟩
  | succ n ih =>
      rw [minLoop_succ]
      obtain ⟨hsame, hall⟩ | ⟨i, hfound, hmin, hbelow⟩ := ih
      · rw [hsame, minRound]
        by_cases hlt : f n < best.1
        · rw [if_pos hlt]
          have hlast := firstMin_last fun j hj => hlt.trans_le (hall j hj)
          exact Or.inr ⟨n, rfl, hlast, hlt⟩
        · rw [if_neg hlt]
          refine Or.inl ⟨rfl, fun j hj => ?_⟩
          obtain hj | rfl := Nat.lt_succ_iff_lt_or_eq.mp hj
          · exact hall j hj
          · exact not_lt.mp hlt
      · rw [hfound, minRound]
        by_cases hlt : f n < f i
        · rw [if_pos hlt]
          have hlast := firstMin_last fun j hj => hlt.trans_le (hmin.le j hj)
          exact Or.inr ⟨n, rfl, hlast, hlt.trans hbelow⟩
        · rw [if_neg hlt]
          exact Or.inr ⟨i, rfl, hmin.succ (not_lt.mp hlt), hbelow⟩

/-- **The loop finds the first minimum**, when some value is below the sentinel. -/
theorem minLoop_firstMin {f : Nat → β} {n j : Nat} {best : β × Nat} (hj : j < n)
    (hbelow : f j < best.1) : FirstMin f n (minLoop f n best).2 := by
  obtain ⟨-, hall⟩ | ⟨i, hfound, hmin, -⟩ := minLoop_cases f n best
  · exact absurd hbelow (not_lt.mpr (hall j hj))
  · rw [hfound]
    exact hmin

/-! ## The least and the greatest value of a list -/

/-- The loop over a list that keeps the least value. -/
def runningMin (f : α → β) (sentinel : β) (l : List α) : β :=
  l.foldl (fun best a => if f a < best then f a else best) sentinel

/-- The loop over a list that keeps the greatest value. -/
def runningMax (f : α → β) (sentinel : β) (l : List α) : β :=
  l.foldl (fun best a => if best < f a then f a else best) sentinel

/-- The minimum so far, one element on. -/
theorem runningMin_concat (f : α → β) (sentinel : β) (l : List α) (a : α) :
    runningMin f sentinel (l ++ [a]) =
      if f a < runningMin f sentinel l then f a else runningMin f sentinel l := by
  rw [runningMin, List.foldl_append]
  rfl

/-- What the loop ends with is below the sentinel and below every value, and it is one of
these. -/
theorem runningMin_cases (f : α → β) (sentinel : β) (l : List α) :
    (∀ a ∈ l, runningMin f sentinel l ≤ f a) ∧
      (runningMin f sentinel l = sentinel ∨ ∃ a ∈ l, f a = runningMin f sentinel l) := by
  induction l using List.reverseRecOn with
  | nil => exact ⟨fun a ha => absurd ha List.not_mem_nil, Or.inl rfl⟩
  | append_singleton l a ih =>
      obtain ⟨hbound, hvalue⟩ := ih
      rw [runningMin_concat]
      by_cases hlt : f a < runningMin f sentinel l
      · rw [if_pos hlt]
        refine ⟨fun b hb => ?_, Or.inr ⟨a, by simp, rfl⟩⟩
        obtain hb | hb := List.mem_append.mp hb
        · exact hlt.le.trans (hbound b hb)
        · rw [List.mem_singleton.mp hb]
      · rw [if_neg hlt]
        refine ⟨fun b hb => ?_, ?_⟩
        · obtain hb | hb := List.mem_append.mp hb
          · exact hbound b hb
          · rw [List.mem_singleton.mp hb]
            exact not_lt.mp hlt
        · obtain hsame | ⟨b, hb, hfound⟩ := hvalue
          · exact Or.inl hsame
          · exact Or.inr ⟨b, List.mem_append_left _ hb, hfound⟩

/-- **The loop finds the least value**, when all values are below the sentinel. -/
theorem isLeast_runningMin {f : α → β} {sentinel : β} {l : List α} (hl : l ≠ [])
    (hbelow : ∀ a ∈ l, f a < sentinel) :
    IsLeast {b | ∃ a ∈ l, f a = b} (runningMin f sentinel l) := by
  obtain ⟨hbound, hvalue⟩ := runningMin_cases f sentinel l
  constructor
  · obtain hsame | hfound := hvalue
    · obtain ⟨a, ha⟩ := List.exists_mem_of_ne_nil l hl
      have hle := hbound a ha
      rw [hsame] at hle
      exact absurd hle (not_le.mpr (hbelow a ha))
    · exact hfound
  · intro b hb
    obtain ⟨a, ha, rfl⟩ := hb
    exact hbound a ha

/-- **The loop finds the greatest value**, when all values are above the sentinel: it is the
least in the order turned around. -/
theorem isGreatest_runningMax {f : α → β} {sentinel : β} {l : List α} (hl : l ≠ [])
    (habove : ∀ a ∈ l, sentinel < f a) :
    IsGreatest {b | ∃ a ∈ l, f a = b} (runningMax f sentinel l) :=
  isLeast_runningMin (β := βᵒᵈ) hl habove

end Extrema
