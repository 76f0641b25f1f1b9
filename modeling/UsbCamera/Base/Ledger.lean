import Mathlib.Data.List.Nodup
import Mathlib.Data.List.Perm.Basic
import Mathlib.Tactic

/-!
# Handles in a table of slots

A table keeps handles in numbered slots.  Handles are issued one at a time, none
twice; they are held by the table until they are released.  `Balanced` says that
what is held and what has been released together are what has been issued, each
handle once.  Then every issued handle is either held or has been released exactly
once (`Balanced.once`).

`held` lists the handles of a table, and the lemmas about it say how filling,
clearing and overwriting one slot changes the list, up to order.
-/

namespace Ledger

variable {α : Type}

/-- The handles in the given slots of a table. -/
def held (slots : List Nat) (table : Nat → Option α) : List α := slots.filterMap table

theorem mem_held {slots : List Nat} {table : Nat → Option α} {a : α} :
    a ∈ held slots table ↔ ∃ i ∈ slots, table i = some a := by
  simp [held, List.mem_filterMap]

/-- An empty table holds nothing. -/
theorem held_eq_nil {slots : List Nat} {table : Nat → Option α}
    (h : ∀ i ∈ slots, table i = none) : held slots table = [] :=
  List.filterMap_eq_nil_iff.mpr h

theorem held_congr {slots : List Nat} {table table' : Nat → Option α}
    (h : ∀ i ∈ slots, table' i = table i) : held slots table' = held slots table :=
  List.filterMap_congr h

/-- Changing a slot outside the list does not change what is held. -/
theorem held_update_of_not_mem {slots : List Nat} {table : Nat → Option α} {i : Nat}
    (x : Option α) (hi : i ∉ slots) :
    held slots (Function.update table i x) = held slots table := by
  refine held_congr fun j hj => Function.update_of_ne ?_ _ _
  rintro rfl
  exact hi hj

/-- The handle of one slot, in front of those of the others. -/
theorem held_perm {slots : List Nat} (hnd : slots.Nodup) {table : Nat → Option α} {i : Nat}
    (hi : i ∈ slots) :
    (held slots table).Perm
      ((table i).toList ++ held slots (Function.update table i none)) := by
  induction slots with
  | nil => cases hi
  | cons j rest ih =>
      obtain ⟨hj, hrest⟩ := List.nodup_cons.mp hnd
      have hcons : ∀ t : Nat → Option α,
          held (j :: rest) t = (t j).toList ++ held rest t := by
        intro t
        unfold held
        cases ht : t j <;> simp [ht]
      rcases List.mem_cons.mp hi with rfl | hi
      · rw [hcons, hcons, held_update_of_not_mem _ hj, Function.update_self]
        simp
      · have hne : j ≠ i := by
          rintro rfl
          exact hj hi
        rw [hcons, hcons, Function.update_of_ne hne]
        refine ((ih hrest hi).append_left _).trans ?_
        rw [← List.append_assoc, ← List.append_assoc]
        exact List.perm_append_comm.append_right _

/-- Clearing a slot gives up its handle. -/
theorem held_perm_cons {slots : List Nat} (hnd : slots.Nodup) {table : Nat → Option α} {i : Nat}
    (hi : i ∈ slots) {a : α} (ha : table i = some a) :
    (held slots table).Perm (a :: held slots (Function.update table i none)) := by
  have hperm : (held slots table).Perm _ := held_perm hnd hi
  rw [ha] at hperm
  exact hperm

/-- Filling an empty slot adds its handle. -/
theorem held_update_perm {slots : List Nat} (hnd : slots.Nodup) {table : Nat → Option α} {i : Nat}
    (hi : i ∈ slots) (hempty : table i = none) (a : α) :
    (held slots (Function.update table i (some a))).Perm (a :: held slots table) := by
  have hperm : (held slots (Function.update table i (some a))).Perm _ :=
    held_perm_cons hnd hi (Function.update_self i (some a) table)
  rw [Function.update_idem] at hperm
  rwa [← hempty, Function.update_eq_self] at hperm

/-- Two slots with the same handle are one. -/
theorem slot_unique {slots : List Nat} {table : Nat → Option α} (hnd : slots.Nodup)
    (hheld : (held slots table).Nodup) {i j : Nat} (hi : i ∈ slots) (hj : j ∈ slots) {a : α}
    (hia : table i = some a) (hja : table j = some a) : i = j := by
  by_contra hne
  have hperm := held_perm_cons hnd hi hia
  have hnot := (List.nodup_cons.mp (hperm.nodup_iff.mp hheld)).1
  refine hnot (mem_held.mpr ⟨j, hj, ?_⟩)
  rw [Function.update_of_ne (Ne.symm hne)]
  exact hja

/-- The handles held and the handles released are the handles issued, each
once. -/
structure Balanced (held released issued : List α) : Prop where
  perm : (held ++ released).Perm issued
  nodup : issued.Nodup

/-- A new handle is issued and held. -/
theorem Balanced.issue {held held' released issued : List α} {a : α}
    (h : Balanced held released issued) (hnew : a ∉ issued) (hheld : held'.Perm (a :: held)) :
    Balanced held' released (issued ++ [a]) where
  perm := by
    have hfront : (held' ++ released).Perm (a :: (held ++ released)) :=
      hheld.append_right released
    exact (hfront.trans (h.perm.cons a)).trans (List.perm_append_singleton a issued).symm
  nodup := by
    refine List.nodup_append.mpr ⟨h.nodup, by simp, ?_⟩
    intro x hx y hy
    rw [List.mem_singleton.mp hy]
    rintro rfl
    exact hnew hx

/-- A held handle is released. -/
theorem Balanced.release {held held' released issued : List α} {a : α}
    (h : Balanced held released issued) (hheld : held.Perm (a :: held')) :
    Balanced held' (released ++ [a]) issued where
  perm := by
    refine List.Perm.trans ?_ h.perm
    refine List.Perm.trans ?_ (hheld.append_right released).symm
    rw [← List.append_assoc]
    exact List.perm_append_singleton a _
  nodup := h.nodup

theorem Balanced.held_nodup {held released issued : List α} (h : Balanced held released issued) :
    held.Nodup :=
  (h.perm.nodup_iff.mpr h.nodup).of_append_left

/-- What is held has been issued and not released. -/
theorem Balanced.of_mem_held {held released issued : List α} (h : Balanced held released issued)
    {a : α} (ha : a ∈ held) : a ∈ issued ∧ a ∉ released := by
  have hnd := h.perm.nodup_iff.mpr h.nodup
  exact ⟨h.perm.mem_iff.mp (List.mem_append_left _ ha),
    fun hr => (List.nodup_append.mp hnd).2.2 a ha a hr rfl⟩

/-- **Exactly once.**  An issued handle is held and has not been released, or is
not held and has been released once. -/
theorem Balanced.once [DecidableEq α] {held released issued : List α}
    (h : Balanced held released issued) {a : α} (ha : a ∈ issued) :
    (a ∈ held ∧ a ∉ released) ∨ (a ∉ held ∧ released.count a = 1) := by
  have hnd := h.perm.nodup_iff.mpr h.nodup
  by_cases hheld : a ∈ held
  · exact Or.inl ⟨hheld, (h.of_mem_held hheld).2⟩
  · have hrel : a ∈ released := (List.mem_append.mp (h.perm.mem_iff.mpr ha)).resolve_left hheld
    exact Or.inr ⟨hheld, List.count_eq_one_of_mem hnd.of_append_right hrel⟩

end Ledger
