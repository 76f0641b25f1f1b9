import UsbCamera.Base.ByteStore

/-!
# Copies inside one store

A copy takes a stretch of cells of a store to another place of the same store, and
a run makes its copies one after the other.  As long as no copy takes its cells from
where one of the run puts them, the order does not matter to what is copied: every
target gets the cells that its source had before the run (`run_eq_writeAll`).
-/

namespace Copies

open ByteStore

variable {β : Type}

/-- Take the `len` cells from `src` on to `dst`. -/
structure Copy where
  dst : Nat
  src : Nat
  len : Nat
deriving DecidableEq, Repr

/-- Make the copies, one after the other. -/
def run (m : Nat → β) (copies : List Copy) : Nat → β :=
  copies.foldl (fun m c => write m c.dst (read m c.src c.len)) m

/-- What a copy lays down, if it is made in the store `m`. -/
def Copy.piece (m : Nat → β) (c : Copy) : Nat × List β := (c.dst, read m c.src c.len)

/-- No copy takes its cells from where a copy puts them. -/
def Separate (copies : List Copy) : Prop :=
  ∀ c ∈ copies, ∀ d ∈ copies, c.src + c.len ≤ d.dst ∨ d.dst + d.len ≤ c.src

/-- A run leaves every cell alone that is in no target. -/
theorem run_outside {copies : List Copy} (m : Nat → β) {x : Nat}
    (h : ∀ c ∈ copies, x < c.dst ∨ c.dst + c.len ≤ x) : run m copies x = m x := by
  induction copies generalizing m with
  | nil => rfl
  | cons c rest ih =>
      have hhead : write m c.dst (read m c.src c.len) x = m x := by
        apply write_outside
        rw [length_read]
        exact h c List.mem_cons_self
      have hrest : ∀ c ∈ rest, x < c.dst ∨ c.dst + c.len ≤ x :=
        fun c hc => h c (List.mem_cons_of_mem _ hc)
      exact (ih (write m c.dst (read m c.src c.len)) hrest).trans hhead

/-- **Separate copies.**  Every target gets what its source had before the run. -/
theorem run_eq_writeAll {copies : List Copy} (hsep : Separate copies) (m : Nat → β) :
    run m copies = writeAll m (copies.map (Copy.piece m)) := by
  induction copies generalizing m with
  | nil => rfl
  | cons c rest ih =>
      have hrest : Separate rest := fun d hd e he =>
        hsep d (List.mem_cons_of_mem _ hd) e (List.mem_cons_of_mem _ he)
      have hpieces : rest.map (Copy.piece (write m c.dst (read m c.src c.len))) =
          rest.map (Copy.piece m) := by
        apply List.map_congr_left
        intro d hd
        have hkeep := hsep d (List.mem_cons_of_mem _ hd) c List.mem_cons_self
        unfold Copy.piece
        rw [read_write_outside _ _ _ _ _ (by rwa [length_read])]
      have htail := ih hrest (write m c.dst (read m c.src c.len))
      rw [hpieces] at htail
      exact htail

end Copies
