import Mathlib.Data.List.Basic
import Mathlib.Tactic

/-!
# Blocks that are owned once

An allocator hands out blocks and takes them back.  Seen from outside it is the
list of the blocks that are out, and a block handed back must be one of them.  A
block that is handed back twice, or not as it was handed out, is noted as a wrong
free; what the allocator does then is its own affair, and nothing is assumed about
it.

The lemmas say what a user of the allocator needs: a block handed back right after
it was given leaves no trace, and a wrong free is never forgotten.

A user keeps the blocks in slots, which may also hold what is no longer a block.
`Owned` says that every block that is out is in exactly one slot.
-/

/-- The blocks that are out, and the wrong frees so far. -/
structure Blocks (α : Type) where
  live : List α := []
  wrong : List α := []
deriving DecidableEq, Repr

namespace Blocks

section Allocator

variable {α : Type} [DecidableEq α]

/-- A block is handed out. -/
def give (p : Blocks α) (b : α) : Blocks α := { p with live := b :: p.live }

/-- A block is handed back. -/
def free (p : Blocks α) (b : α) : Blocks α :=
  if b ∈ p.live then { p with live := p.live.erase b } else { p with wrong := p.wrong ++ [b] }

/-- Giving and handing back at once leaves no trace. -/
@[simp] theorem free_give (p : Blocks α) (b : α) : (p.give b).free b = p := by
  simp [free, give]

/-- Handing back does not see a block that was given since, unless it is that one. -/
theorem free_give_of_ne (p : Blocks α) {b c : α} (h : b ≠ c) :
    (p.give c).free b = (p.free b).give c := by
  by_cases hb : b ∈ p.live
  · simp [free, give, hb, List.erase_cons_tail, h.symm]
  · simp [free, give, hb, h]

theorem wrong_free_of_not_mem {p : Blocks α} {b : α} (h : b ∉ p.live) :
    (p.free b).wrong = p.wrong ++ [b] := by
  rw [free, if_neg h]

/-- With nothing out, every free is a wrong one. -/
theorem wrong_free_of_live_nil {p : Blocks α} (h : p.live = []) (b : α) :
    (p.free b).wrong = p.wrong ++ [b] ∧ (p.free b).live = [] := by
  have hb : b ∉ p.live := by simp [h]
  refine ⟨wrong_free_of_not_mem hb, ?_⟩
  rw [free, if_neg hb, h]

/-- Blocks handed out one after another, the last on top. -/
def stack (p : Blocks α) (blocks : Nat → α) : Nat → Blocks α
  | 0 => p
  | n + 1 => (p.stack blocks n).give (blocks n)

end Allocator

section Owners

variable {α ρ : Type}

/-- Every block that is out is in exactly one slot. -/
structure Owned (live : List α) (slots : ρ → Option α) : Prop where
  nodup : live.Nodup
  owner : ∀ b ∈ live, ∃! r, slots r = some b

/-- A slot without a block that is out may be set to anything but such a block. -/
theorem Owned.retarget [DecidableEq ρ] {live : List α} {slots : ρ → Option α}
    (h : Owned live slots) {r : ρ} {x : Option α} (hold : ∀ b ∈ live, slots r ≠ some b)
    (hnew : ∀ b ∈ live, x ≠ some b) : Owned live (Function.update slots r x) where
  nodup := h.nodup
  owner := by
    intro b hb
    have hsame : ∀ r', Function.update slots r x r' = some b ↔ slots r' = some b := by
      intro r'
      by_cases hr : r' = r
      · subst hr
        rw [Function.update_self]
        exact iff_of_false (hnew b hb) (hold b hb)
      · rw [Function.update_of_ne hr]
    simpa only [hsame] using h.owner b hb

/-- A new block is put into a slot without one. -/
theorem Owned.give [DecidableEq ρ] {live : List α} {slots : ρ → Option α} (h : Owned live slots)
    {r : ρ} {b : α} (hold : ∀ c ∈ live, slots r ≠ some c) (hout : b ∉ live)
    (hnone : ∀ r', slots r' ≠ some b) :
    Owned (b :: live) (Function.update slots r (some b)) where
  nodup := List.nodup_cons.mpr ⟨hout, h.nodup⟩
  owner := by
    intro c hc
    rcases List.mem_cons.mp hc with rfl | hc
    · refine ⟨r, Function.update_self r (some c) slots, ?_⟩
      intro r' hr'
      by_contra hne
      rw [Function.update_of_ne hne] at hr'
      exact hnone r' hr'
    · have hne : ∀ d ∈ live, some b ≠ some d := by
        intro d hd hbd
        rw [Option.some.inj hbd] at hout
        exact hout hd
      exact (h.retarget hold hne).owner c hc

/-- A block is handed back; its slot may keep it. -/
theorem Owned.free [DecidableEq α] {live : List α} {slots : ρ → Option α}
    (h : Owned live slots) (b : α) : Owned (live.erase b) slots where
  nodup := h.nodup.erase b
  owner := fun c hc => h.owner c (List.mem_of_mem_erase hc)

end Owners

end Blocks
