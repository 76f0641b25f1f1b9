import Mathlib.Data.List.Nodup
import Mathlib.Tactic

/-!
# Addressed stores

A store is a function from addresses to cells.  `write` lays a list of cells
down from an address on and `read` takes a stretch of cells out again.  A write
is read back, it leaves everything outside its stretch alone, and a stretch
read in two parts is the two parts appended.
-/

namespace ByteStore

variable {β : Type}

/-- Lay `cells` down from address `a` on. -/
def write (m : Nat → β) (a : Nat) (cells : List β) : Nat → β :=
  fun x => if a ≤ x then cells[x - a]?.getD (m x) else m x

/-- The `n` cells from address `a` on. -/
def read (m : Nat → β) (a n : Nat) : List β :=
  (List.range n).map fun k => m (a + k)

@[simp] theorem length_read (m : Nat → β) (a n : Nat) : (read m a n).length = n := by
  simp [read]

/-- A write leaves the cells below and above its stretch alone. -/
theorem write_outside (m : Nat → β) (a x : Nat) (cells : List β)
    (h : x < a ∨ a + cells.length ≤ x) : write m a cells x = m x := by
  unfold write
  split
  · rw [List.getElem?_eq_none (by omega)]
    rfl
  · rfl

@[simp] theorem write_nil (m : Nat → β) (a : Nat) : write m a [] = m := by
  funext x
  exact write_outside m a x [] (by simp; omega)

/-- Two writes, one behind the other, are one. -/
theorem write_append (m : Nat → β) (a : Nat) (cells more : List β) :
    write (write m a cells) (a + cells.length) more = write m a (cells ++ more) := by
  funext x
  unfold write
  by_cases hfirst : a ≤ x
  · by_cases hsecond : a + cells.length ≤ x
    · have hlast : x - a - cells.length = x - (a + cells.length) := by omega
      rw [if_pos hsecond, if_pos hfirst, if_pos hfirst, List.getElem?_append_right (by omega),
        List.getElem?_eq_none (by omega : cells.length ≤ x - a), hlast]
      rfl
    · rw [if_neg hsecond, if_pos hfirst, if_pos hfirst, List.getElem?_append_left (by omega)]
  · rw [if_neg (by omega), if_neg hfirst, if_neg hfirst]

/-- Reading depends on the cells that are read alone. -/
theorem read_congr {m m' : Nat → β} {a n : Nat}
    (h : ∀ x, a ≤ x → x < a + n → m' x = m x) : read m' a n = read m a n := by
  unfold read
  apply List.map_congr_left
  intro k hk
  have hk' : k < n := List.mem_range.mp hk
  exact h (a + k) (by omega) (by omega)

/-- Two stretches are equal when their cells are. -/
theorem read_eq_iff {m m' : Nat → β} {a a' n : Nat} :
    read m' a' n = read m a n ↔ ∀ k < n, m' (a' + k) = m (a + k) := by
  unfold read
  rw [List.map_inj_left]
  simp only [List.mem_range]

/-- Reading does not see a write that lies outside what is read. -/
theorem read_write_outside (m : Nat → β) (a b n : Nat) (cells : List β)
    (h : b + n ≤ a ∨ a + cells.length ≤ b) :
    read (write m a cells) b n = read m b n :=
  read_congr fun x hlow hhigh => write_outside m a x cells (by omega)

/-- What was written is read back. -/
theorem read_write_same (m : Nat → β) (a : Nat) (cells : List β) :
    read (write m a cells) a cells.length = cells := by
  apply List.ext_getElem
  · simp
  · intro k h₁ h₂
    simp [read, write, List.getElem?_eq_getElem h₂]

/-- And so is every part of it. -/
theorem read_write_part (m : Nat → β) (a : Nat) (cells : List β) {k n : Nat}
    (h : k + n ≤ cells.length) :
    read (write m a cells) (a + k) n = (cells.drop k).take n := by
  apply List.ext_getElem
  · simp
    omega
  · intro i h₁ h₂
    have hi : i < n := by simpa using h₁
    have hplace : a + k + i - a = k + i := by omega
    simp [read, write, hplace, List.getElem?_eq_getElem (show k + i < cells.length by omega),
      show a ≤ a + k + i by omega]

/-- So a write of so many cells is known by the cells. -/
theorem write_inj {m : Nat → β} {a : Nat} {cells cells' : List β}
    (hlen : cells.length = cells'.length) :
    write m a cells = write m a cells' ↔ cells = cells' := by
  constructor
  · intro h
    have hread := congrArg (fun m => read m a cells.length) h
    simp only [read_write_same] at hread
    rwa [hlen, read_write_same] at hread
  · intro h
    rw [h]

/-- A stretch read in two parts is the two parts appended. -/
theorem read_add (m : Nat → β) (a n k : Nat) :
    read m a (n + k) = read m a n ++ read m (a + n) k := by
  simp [read, List.range_add, Nat.add_assoc, Function.comp_def]

/-- **Appending in place.**  Writing `cells` right behind a stretch extends the
stretch by `cells`. -/
theorem read_write_append (m : Nat → β) (a n : Nat) (cells : List β) :
    read (write m (a + n) cells) a (n + cells.length) = read m a n ++ cells := by
  rw [read_add, read_write_same, read_write_outside _ _ _ _ _ (Or.inl (Nat.le_refl _))]

/-- What is read in two parts is known in two parts. -/
theorem read_split {m : Nat → β} {a n k : Nat} {l r : List β}
    (h : read m a (n + k) = l ++ r) (hlen : l.length = n) :
    read m a n = l ∧ read m (a + n) k = r := by
  rw [read_add] at h
  exact List.append_inj h (by rw [length_read, hlen])

/-- Stretches that agree as a whole agree in every part. -/
theorem read_part {m m' : Nat → β} {a a' n k len : Nat} (h : read m' a' n = read m a n)
    (hlen : k + len ≤ n) : read m' (a' + k) len = read m (a + k) len := by
  obtain ⟨rest, rfl⟩ : ∃ rest, n = k + (len + rest) := ⟨n - k - len, by omega⟩
  rw [read_add, read_add, read_add m, read_add m] at h
  have htail := (List.append_inj h (by simp)).2
  exact (List.append_inj htail (by simp)).1

/-- The pieces lie one behind the other from address `a` on. -/
def Contiguous : Nat → List (Nat × List β) → Prop
  | _, [] => True
  | a, (b, cells) :: rest => b = a ∧ Contiguous (a + cells.length) rest

/-- Lay down several pieces, each at its address. -/
def writeAll (m : Nat → β) (pieces : List (Nat × List β)) : Nat → β :=
  pieces.foldl (fun m piece => write m piece.1 piece.2) m

/-- **Piece by piece.**  Pieces that lie one behind the other are read back as
one stretch, behind whatever stretch they follow. -/
theorem read_writeAll {pieces : List (Nat × List β)} (m : Nat → β) (a n : Nat)
    (h : Contiguous (a + n) pieces) :
    read (writeAll m pieces) a (n + (pieces.flatMap Prod.snd).length) =
      read m a n ++ pieces.flatMap Prod.snd := by
  induction pieces generalizing m n with
  | nil => simp [writeAll]
  | cons piece rest ih =>
      obtain ⟨b, cells⟩ := piece
      obtain ⟨hb, hrest⟩ := h
      rw [Nat.add_assoc] at hrest
      have htail := ih (write m b cells) (n + cells.length) hrest
      rw [hb] at htail
      rw [read_write_append] at htail
      simpa [writeAll, hb, Nat.add_assoc] using htail

/-- Pieces leave every cell alone that belongs to none of them. -/
theorem writeAll_outside {pieces : List (Nat × List β)} (m : Nat → β) {x : Nat}
    (h : ∀ piece ∈ pieces, x < piece.1 ∨ piece.1 + piece.2.length ≤ x) :
    writeAll m pieces x = m x := by
  induction pieces generalizing m with
  | nil => rfl
  | cons piece rest ih =>
      have hrest : ∀ piece ∈ rest, x < piece.1 ∨ piece.1 + piece.2.length ≤ x :=
        fun piece hpiece => h piece (List.mem_cons_of_mem _ hpiece)
      have hhead := write_outside m piece.1 x piece.2 (h piece List.mem_cons_self)
      exact (ih (write m piece.1 piece.2) hrest).trans hhead

/-- Two pieces have no cell in common. -/
def Apart (p q : Nat × List β) : Prop :=
  p.1 + p.2.length ≤ q.1 ∨ q.1 + q.2.length ≤ p.1

/-- **Scattered pieces.**  Of pieces that keep apart, each is read back. -/
theorem read_writeAll_mem {pieces : List (Nat × List β)} (m : Nat → β) {piece : Nat × List β}
    (hapart : pieces.Pairwise Apart) (hmem : piece ∈ pieces) :
    read (writeAll m pieces) piece.1 piece.2.length = piece.2 := by
  induction pieces generalizing m with
  | nil => cases hmem
  | cons first rest ih =>
      obtain ⟨hfirst, hrest⟩ := List.pairwise_cons.mp hapart
      rcases List.mem_cons.mp hmem with rfl | hlater
      · have hkeep : ∀ x, piece.1 ≤ x → x < piece.1 + piece.2.length →
            writeAll (write m piece.1 piece.2) rest x = write m piece.1 piece.2 x := by
          intro x hlow hhigh
          apply writeAll_outside
          intro q hq
          have hq' : Apart piece q := hfirst q hq
          unfold Apart at hq'
          omega
        exact (read_congr hkeep).trans (read_write_same m piece.1 piece.2)
      · exact ih (write m first.1 first.2) hrest hlater

/-- Groups of equal length, laid down one behind the other, are found at the
multiples of the length. -/
theorem read_write_flatMap (m : Nat → β) {n k : Nat} {g : Nat → List β}
    (hlen : ∀ i, (g i).length = k) (a : Nat) {i : Nat} (hi : i < n) :
    read (write m a ((List.range n).flatMap g)) (a + i * k) k = g i := by
  have hsplit : (List.range n).flatMap g =
      (List.range i).flatMap g ++ g i ++
        (List.range (n - (i + 1))).flatMap fun j => g (i + 1 + j) := by
    obtain ⟨rest, rfl⟩ : ∃ rest, n = i + 1 + rest := ⟨n - (i + 1), by omega⟩
    rw [List.range_add, List.range_succ]
    simp [List.flatMap_map]
  have hbefore : ((List.range i).flatMap g).length = i * k := by
    simp [List.length_flatMap, hlen]
  have hall := read_write_same m a ((List.range n).flatMap g)
  rw [hsplit, List.length_append, List.length_append, hbefore, hlen] at hall
  obtain ⟨hfront, -⟩ := read_split hall (by simp [hbefore, hlen])
  obtain ⟨-, hgroup⟩ := read_split hfront hbefore
  rw [hsplit]
  exact hgroup

/-- The part of a store from an address on, as a store. -/
def window (m : Nat → β) (base : Nat) : Nat → β := fun k => m (base + k)

theorem read_window (m : Nat → β) (base a n : Nat) :
    read (window m base) a n = read m (base + a) n := by
  simp [read, window, Nat.add_assoc]

theorem window_write (m : Nat → β) (base a : Nat) (cells : List β) :
    window (write m (base + a) cells) base = write (window m base) a cells := by
  funext k
  simp only [window, write, Nat.add_le_add_iff_left, Nat.add_sub_add_left]

/-- Pieces that lie behind an address are laid down in the part behind it. -/
theorem window_writeAll (m : Nat → β) (base : Nat) (pieces : List (Nat × List β)) :
    window (writeAll m (pieces.map fun piece => (base + piece.1, piece.2))) base =
      writeAll (window m base) pieces := by
  induction pieces generalizing m with
  | nil => rfl
  | cons piece rest ih =>
      have hrest := ih (write m (base + piece.1) piece.2)
      rw [window_write] at hrest
      exact hrest

/-- Stretches that are equal have equal cells. -/
theorem eq_of_read {m m' : Nat → β} {a n x : Nat} (h : read m' a n = read m a n)
    (hlow : a ≤ x) (hhigh : x < a + n) : m' x = m x := by
  have hcell := congrArg (fun cells => cells[x - a]?) h
  have hlt : x - a < n := by omega
  have hx : a + (x - a) = x := by omega
  simpa [read, hlt, hx] using hcell

/-- Groups laid down one behind the other are so many pieces. -/
theorem write_flatMap (m : Nat → β) {k : Nat} {g : Nat → List β} (hlen : ∀ i, (g i).length = k)
    (a n : Nat) :
    write m a ((List.range n).flatMap g) =
      writeAll m ((List.range n).map fun i => (a + i * k, g i)) := by
  induction n with
  | zero => simp [writeAll]
  | succ n ih =>
      have hbefore : ((List.range n).flatMap g).length = n * k := by
        simp [List.length_flatMap, hlen]
      rw [List.range_succ, List.flatMap_append, List.map_append, ← write_append, hbefore, ih]
      simp [writeAll]

/-! ## Cells changed in place -/

/-- Change the cells at the listed addresses, one after another. -/
def modifyAll (f : β → β) (m : Nat → β) (cells : List Nat) : Nat → β :=
  cells.foldl (fun m a => Function.update m a (f (m a))) m

/-- A cell is changed as often as it is listed. -/
theorem modifyAll_apply (f : β → β) (m : Nat → β) (cells : List Nat) (a : Nat) :
    modifyAll f m cells a = f^[cells.count a] (m a) := by
  induction cells generalizing m with
  | nil => rfl
  | cons b rest ih =>
      have hrest := ih (Function.update m b (f (m b)))
      by_cases hb : a = b
      · subst hb
        rw [Function.update_self] at hrest
        rw [List.count_cons_self, Function.iterate_succ_apply]
        exact hrest
      · rw [Function.update_of_ne hb] at hrest
        rw [List.count_cons_of_ne (Ne.symm hb)]
        exact hrest

/-- If none is listed twice, the listed cells are changed once. -/
theorem modifyAll_of_nodup {f : β → β} {m : Nat → β} {cells : List Nat} (h : cells.Nodup)
    (a : Nat) : modifyAll f m cells a = if a ∈ cells then f (m a) else m a := by
  rw [modifyAll_apply]
  split
  · rename_i hmem
    rw [List.count_eq_one_of_mem h hmem, Function.iterate_one]
  · rename_i hnot
    rw [List.count_eq_zero_of_not_mem hnot, Function.iterate_zero, id]

end ByteStore
