import UsbCamera.Base.ByteStore

/-!
# Loads and stores

What a piece of code does to memory, as the loads and stores it makes one after the
other.  The memory it loads from and the one it stores to are addressed apart from each
other, each from its own beginning.

`Reads` and `Writes` say which cells are touched, and `stores` is what is left of a
trace for the memory that is stored to.  A cell that ends up the same whatever was in it
before has been written (`writes_of_determined`).
-/

namespace ByteStore

variable {β : Type}

/-- A load of `n` cells, or a store. -/
inductive Access (β : Type)
  | load (a n : Nat)
  | store (a : Nat) (cells : List β)
deriving DecidableEq, Repr

/-- The cell at `a` is loaded. -/
def Reads (trace : List (Access β)) (a : Nat) : Prop :=
  ∃ b n, Access.load b n ∈ trace ∧ b ≤ a ∧ a < b + n

/-- The stores of a trace, each with its address. -/
def stores (trace : List (Access β)) : List (Nat × List β) :=
  trace.filterMap fun
    | .load _ _ => none
    | .store a cells => some (a, cells)

/-- The cell at `a` is stored to. -/
def Writes (trace : List (Access β)) (a : Nat) : Prop :=
  ∃ piece ∈ stores trace, piece.1 ≤ a ∧ a < piece.1 + piece.2.length

@[simp] theorem reads_nil (a : Nat) : ¬ Reads ([] : List (Access β)) a := by
  simp [Reads]

/-- A load reads its own bytes. -/
@[simp] theorem reads_load (b n : Nat) (trace : List (Access β)) (a : Nat) :
    Reads (.load b n :: trace) a ↔ (b ≤ a ∧ a < b + n) ∨ Reads trace a := by
  constructor
  · rintro ⟨c, k, hmem, hin⟩
    rcases List.mem_cons.mp hmem with heq | hlater
    · cases heq
      exact Or.inl hin
    · exact Or.inr ⟨c, k, hlater, hin⟩
  · rintro (hin | ⟨c, k, hmem, hin⟩)
    · exact ⟨b, n, List.mem_cons_self, hin⟩
    · exact ⟨c, k, List.mem_cons_of_mem _ hmem, hin⟩

/-- A store reads nothing. -/
@[simp] theorem reads_store (b : Nat) (cells : List β) (trace : List (Access β)) (a : Nat) :
    Reads (.store b cells :: trace) a ↔ Reads trace a := by
  simp [Reads]

/-- Staying below an address, load by load. -/
theorem reads_lt_load {b n length : Nat} (hn : 0 < n) (trace : List (Access β)) :
    (∀ a, Reads (.load b n :: trace) a → a < length) ↔
      b + n ≤ length ∧ ∀ a, Reads trace a → a < length := by
  simp only [reads_load]
  constructor
  · intro h
    have hlast := h (b + n - 1) (Or.inl ⟨by omega, by omega⟩)
    exact ⟨by omega, fun a ha => h a (Or.inr ha)⟩
  · intro h a ha
    rcases ha with hin | hlater
    · have := h.1
      omega
    · exact h.2 a hlater

/-- The bytes that two traces read, one after the other. -/
theorem reads_append (trace more : List (Access β)) (a : Nat) :
    Reads (trace ++ more) a ↔ Reads trace a ∨ Reads more a := by
  simp only [Reads, List.mem_append, or_and_right, exists_or]

/-- A loop reads what one of its rounds reads. -/
theorem reads_flatMap {α : Type} (l : List α) (f : α → List (Access β)) (a : Nat) :
    Reads (l.flatMap f) a ↔ ∃ i ∈ l, Reads (f i) a := by
  constructor
  · rintro ⟨b, n, hmem, hin⟩
    obtain ⟨i, hi, hload⟩ := List.mem_flatMap.mp hmem
    exact ⟨i, hi, b, n, hload, hin⟩
  · rintro ⟨i, hi, b, n, hload, hin⟩
    exact ⟨b, n, List.mem_flatMap.mpr ⟨i, hi, hload⟩, hin⟩

/-- The stores of a trace are computed access by access. -/
@[simp] theorem stores_nil : stores ([] : List (Access β)) = [] := rfl

@[simp] theorem stores_load (b n : Nat) (trace : List (Access β)) :
    stores (.load b n :: trace) = stores trace := rfl

@[simp] theorem stores_store (b : Nat) (cells : List β) (trace : List (Access β)) :
    stores (.store b cells :: trace) = (b, cells) :: stores trace := rfl

/-- The stores of two traces, one after the other. -/
theorem stores_append (trace more : List (Access β)) :
    stores (trace ++ more) = stores trace ++ stores more :=
  List.filterMap_append

/-- The stores of a loop are those of its rounds, in their order. -/
theorem stores_flatMap {α : Type} (l : List α) (f : α → List (Access β)) :
    stores (l.flatMap f) = l.flatMap fun i => stores (f i) := by
  unfold stores
  exact List.filterMap_flatMap

/-- A load writes nothing. -/
@[simp] theorem writes_load (b n : Nat) (trace : List (Access β)) (a : Nat) :
    Writes (.load b n :: trace) a ↔ Writes trace a := by
  unfold Writes
  rw [stores_load]

/-- A loop writes what one of its rounds writes. -/
theorem writes_flatMap {α : Type} (l : List α) (f : α → List (Access β)) (a : Nat) :
    Writes (l.flatMap f) a ↔ ∃ i ∈ l, Writes (f i) a := by
  unfold Writes
  rw [stores_flatMap]
  constructor
  · rintro ⟨piece, hmem, hin⟩
    obtain ⟨i, hi, hpiece⟩ := List.mem_flatMap.mp hmem
    exact ⟨i, hi, piece, hpiece, hin⟩
  · rintro ⟨i, hi, piece, hpiece, hin⟩
    exact ⟨piece, List.mem_flatMap.mpr ⟨i, hi, hpiece⟩, hin⟩

/-- What the second trace writes, both write. -/
theorem writes_append_right {trace more : List (Access β)} {a : Nat} (h : Writes more a) :
    Writes (trace ++ more) a := by
  obtain ⟨piece, hpiece, hin⟩ := h
  exact ⟨piece, by rw [stores_append]; exact List.mem_append_right _ hpiece, hin⟩

/-- Groups of stores may be replaced by others that leave the same. -/
theorem writeAll_flatMap_congr {α : Type} {l : List α} {f g : α → List (Nat × List β)}
    (h : ∀ i ∈ l, ∀ m : Nat → β, writeAll m (f i) = writeAll m (g i)) (m : Nat → β) :
    writeAll m (l.flatMap f) = writeAll m (l.flatMap g) := by
  induction l generalizing m with
  | nil => rfl
  | cons i l ih =>
      have hhead := h i List.mem_cons_self m
      have htail := ih fun j hj => h j (List.mem_cons_of_mem _ hj)
      unfold writeAll at hhead htail ⊢
      rw [List.flatMap_cons, List.flatMap_cons, List.foldl_append, List.foldl_append, hhead, htail]

/-- A cell that is the same in the end, whatever was in it before, has been written. -/
theorem writes_of_determined [Nontrivial β] {trace : List (Access β)} {a : Nat}
    (h : ∀ m m' : Nat → β, writeAll m' (stores trace) a = writeAll m (stores trace) a) :
    Writes trace a := by
  by_contra hnot
  have hkeep : ∀ m : Nat → β, writeAll m (stores trace) a = m a := by
    intro m
    apply writeAll_outside
    intro piece hpiece
    by_contra hin
    exact hnot ⟨piece, hpiece, by omega, by omega⟩
  obtain ⟨b, c, hne⟩ := exists_pair_ne β
  have hsame := h (fun _ => b) (fun _ => c)
  rw [hkeep, hkeep] at hsame
  exact hne hsame.symm

end ByteStore
