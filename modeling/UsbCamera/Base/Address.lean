import Mathlib.Tactic

/-!
# Addresses that step

Addresses are 32 bits wide and wrap around.  A loop that adds the same amount to an address in
every round is after `i` rounds at the base and `i` times the amount; inside the memory this
is a sum of numbers.

What such a loop does is listed round by round (`Stepping.flatMap_rounds`).  Its state may be an
address, an index or a counter, or several of them; all that matters is where it stands after
`i` rounds.
-/

namespace Address

/-- The offset of line `y`, as the machine computes it. -/
theorem toNat_lines_mod (line : UInt32) (y : Nat) :
    (UInt32.ofNat y * line).toNat = y * line.toNat % 2 ^ 32 := by
  rw [UInt32.toNat_mul, UInt32.toNat_ofNat', Nat.mod_mul_mod]

/-- Stepping from line to line, the address wraps around at the end of the memory. -/
theorem toNat_step_mod (base line : UInt32) (y : Nat) :
    (base + UInt32.ofNat y * line).toNat = (base.toNat + y * line.toNat) % 2 ^ 32 := by
  rw [UInt32.toNat_add, toNat_lines_mod, Nat.add_mod_mod]

/-- Inside the memory it does not. -/
theorem toNat_step {base line : UInt32} {y : Nat} (h : base.toNat + y * line.toNat < 2 ^ 32) :
    (base + UInt32.ofNat y * line).toNat = base.toNat + y * line.toNat := by
  rw [toNat_step_mod, Nat.mod_eq_of_lt h]

/-- The address of a pixel, stepping over lines and then over pixels. -/
theorem toNat_two_steps {base line px : UInt32} {x y stride p : Nat} (hline : line.toNat = stride)
    (hpx : px.toNat = p) (hfits : base.toNat + (y * stride + x * p) < 2 ^ 32) :
    (base + UInt32.ofNat y * line + UInt32.ofNat x * px).toNat =
      base.toNat + (y * stride + x * p) := by
  have hfirst : (base + UInt32.ofNat y * line).toNat = base.toNat + y * stride := by
    rw [toNat_step (by rw [hline]; omega), hline]
  rw [toNat_step (by rw [hfirst, hpx]; omega), hfirst, hpx, Nat.add_assoc]

/-- The index of a loop. -/
theorem index_next (x : UInt32) (i : Nat) :
    x + 1 + UInt32.ofNat i = x + UInt32.ofNat (i + 1) := by
  rw [UInt32.add_assoc, ← UInt32.ofNat_one, ← UInt32.ofNat_add, Nat.add_comm]

theorem index_zero (x : UInt32) : x + UInt32.ofNat 0 = x := UInt32.add_zero x

/-- A pointer that goes from line to line, one round on. -/
theorem step_next (base line : UInt32) (i : Nat) :
    base + line + UInt32.ofNat i * line = base + UInt32.ofNat (i + 1) * line := by
  have hone : UInt32.ofNat 1 * line = line := UInt32.one_mul line
  rw [UInt32.ofNat_add, UInt32.add_mul, hone, UInt32.add_assoc, UInt32.add_comm line]

/-- It starts at the base. -/
theorem step_zero (base line : UInt32) : base + UInt32.ofNat 0 * line = base := by
  rw [show UInt32.ofNat 0 = 0 from rfl, UInt32.zero_mul, UInt32.add_zero]

/-! ## Loops, round by round -/

/-- How the state of a loop moves on: in one round, and in `i` rounds. -/
structure Stepping (σ : Type) where
  next : σ → σ
  after : σ → Nat → σ
  after_zero : ∀ s, after s 0 = s
  after_next : ∀ s i, after (next s) i = after s (i + 1)

namespace Stepping

variable {σ τ α : Type}

/-- Two states that move on together. -/
def prod (a : Stepping σ) (b : Stepping τ) : Stepping (σ × τ) where
  next s := (a.next s.1, b.next s.2)
  after s i := (a.after s.1 i, b.after s.2 i)
  after_zero s := by rw [a.after_zero, b.after_zero]
  after_next s i := by rw [a.after_next, b.after_next]

/-- **A loop, round by round.**  A loop that does `g s` from the state `s` and goes on from
the next one does what `g` is at the states that it comes to. -/
theorem flatMap_rounds (st : Stepping σ) (g : σ → List α) {f : Nat → σ → List α}
    (hzero : ∀ s, f 0 s = []) (hsucc : ∀ n s, f (n + 1) s = g s ++ f n (st.next s)) (n : Nat)
    (s : σ) : f n s = (List.range n).flatMap fun i => g (st.after s i) := by
  induction n generalizing s with
  | zero => exact hzero s
  | succ n ih =>
      rw [hsucc, ih, List.range_succ_eq_map, List.flatMap_cons, List.flatMap_map, st.after_zero]
      simp only [st.after_next, Nat.succ_eq_add_one]

/-- The same for a loop that does one thing in a round. -/
theorem map_rounds (st : Stepping σ) (g : σ → α) {f : Nat → σ → List α}
    (hzero : ∀ s, f 0 s = []) (hsucc : ∀ n s, f (n + 1) s = g s :: f n (st.next s)) (n : Nat)
    (s : σ) : f n s = (List.range n).map fun i => g (st.after s i) := by
  rw [List.map_eq_flatMap]
  exact st.flatMap_rounds (fun s => [g s]) hzero hsucc n s

end Stepping

/-- An address that moves on by `line` in every round. -/
def steps (line : UInt32) : Stepping UInt32 where
  next base := base + line
  after base i := base + UInt32.ofNat i * line
  after_zero base := step_zero base line
  after_next base i := step_next base line i

/-- An index that is counted up. -/
def index : Stepping UInt32 where
  next x := x + 1
  after x i := x + UInt32.ofNat i
  after_zero := index_zero
  after_next := index_next

end Address
