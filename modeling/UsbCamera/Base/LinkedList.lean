import Mathlib.Data.List.Nodup
import Mathlib.Data.List.TakeWhile
import Mathlib.Logic.Relation
import Mathlib.Tactic

/-!
# Lists in a heap

A node of a singly linked list has a pointer to the next one.  For any nodes this is a map
`next`, with `none` for NULL.  Where it is a list and which one is a matter of following it:
`Segment next p l q` says that from the pointer `p` one comes through the nodes `l` to the
pointer `q`, and `Chain next p l` that one comes through `l` to NULL.

A chain is all there is to say.  It is the only one from its pointer (`Chain.unique`), it has
no node twice (`Chain.nodup`), its nodes are those that can be reached
(`Chain.reachable_iff`), none of them lies on a cycle (`Chain.acyclic`), and the loops that
walk along it come to an end (`Chain.visit_eq`, `Chain.nodes_eq`, `Chain.lastFrom_eq`).

The pointers of other nodes do not matter, so a chain survives every change to them
(`Segment.congr`).  `Chain.relink` is the change that appending makes: the last node gets a
new one behind it, which then gets NULL.  If that one was in the list already, everything
behind it is cut off (`appendOnce`).
-/

namespace LinkedList

variable {α ρ : Type} {next : α → Option α}

/-- From the pointer `p` through the nodes `l` to the pointer `q`. -/
inductive Segment (next : α → Option α) : Option α → List α → Option α → Prop
  | nil (p : Option α) : Segment next p [] p
  | cons {a : α} {l : List α} {q : Option α} (rest : Segment next (next a) l q) :
      Segment next (some a) (a :: l) q

/-- From the pointer `p` through the nodes `l` to NULL. -/
def Chain (next : α → Option α) (p : Option α) (l : List α) : Prop := Segment next p l none

/-! ## Segments -/

/-- An empty segment ends where it begins. -/
theorem segment_nil_iff {p q : Option α} : Segment next p [] q ↔ p = q := by
  constructor
  · intro h
    cases h
    rfl
  · intro h
    subst h
    exact Segment.nil p

/-- A segment begins with its first entry, and goes on from its link. -/
theorem segment_cons_iff {p q : Option α} {a : α} {l : List α} :
    Segment next p (a :: l) q ↔ p = some a ∧ Segment next (next a) l q := by
  constructor
  · intro h
    cases h with
    | cons rest => exact ⟨rfl, rest⟩
  · intro h
    obtain ⟨rfl, rest⟩ := h
    exact Segment.cons rest

/-- A segment may be cut anywhere. -/
theorem segment_append {p q : Option α} {l l' : List α} :
    Segment next p (l ++ l') q ↔ ∃ r, Segment next p l r ∧ Segment next r l' q := by
  induction l generalizing p with
  | nil => simp [segment_nil_iff]
  | cons a l ih =>
      rw [List.cons_append, segment_cons_iff, ih]
      simp only [segment_cons_iff, and_assoc, exists_and_left]

/-- Only the pointers of its nodes matter. -/
theorem Segment.congr {next' : α → Option α} {p q : Option α} {l : List α}
    (h : Segment next p l q) (hsame : ∀ a ∈ l, next' a = next a) : Segment next' p l q := by
  induction h with
  | nil p => exact Segment.nil p
  | @cons a l q rest ih =>
      have hrest := ih fun b hb => hsame b (List.mem_cons_of_mem a hb)
      rw [← hsame a List.mem_cons_self] at hrest
      exact Segment.cons hrest

/-- One comes to each node of a segment. -/
theorem Segment.upTo {p q : Option α} {l m : List α} {a : α} (h : Segment next p (l ++ a :: m) q) :
    Segment next p l (some a) := by
  obtain ⟨r, hfirst, hrest⟩ := segment_append.mp h
  obtain ⟨rfl, -⟩ := segment_cons_iff.mp hrest
  exact hfirst

/-- The rest of a segment, from one of its entries on. -/
theorem Segment.from {p q : Option α} {l m : List α} {a : α} (h : Segment next p (l ++ a :: m) q) :
    Segment next (some a) (a :: m) q := by
  obtain ⟨r, -, hrest⟩ := segment_append.mp h
  obtain ⟨rfl, -⟩ := segment_cons_iff.mp hrest
  exact hrest

/-! ## Chains -/

/-- **Determinism.**  There is one chain from a pointer at most. -/
theorem Chain.unique {p : Option α} {l l' : List α} (h : Chain next p l) (h' : Chain next p l') :
    l = l' := by
  unfold Chain at h
  generalize hnull : none = q at h
  induction h generalizing l' with
  | nil p =>
      subst hnull
      cases h' with
      | nil => rfl
  | cons rest ih =>
      cases h' with
      | cons rest' => rw [ih rest' hnull]

/-- **No node twice.**  From a node that occurred again the list would be as long as a part of
itself. -/
theorem Chain.nodup {p : Option α} {l : List α} (h : Chain next p l) : l.Nodup := by
  induction l generalizing p with
  | nil => exact List.nodup_nil
  | cons a l ih =>
      obtain ⟨rfl, hrest⟩ := segment_cons_iff.mp h
      refine List.nodup_cons.mpr ⟨fun hmem => ?_, ih hrest⟩
      obtain ⟨m, r, rfl⟩ := List.append_of_mem hmem
      have hagain : Chain next (some a) (a :: r) := Segment.from hrest
      have hlength := congrArg List.length (hagain.unique h)
      simp only [List.length_cons, List.length_append] at hlength
      omega

/-- The link from a node to the next one. -/
def Link (next : α → Option α) (a b : α) : Prop := next a = some b

/-- The node `a` can be reached from the pointer `p`. -/
def Reachable (next : α → Option α) (p : Option α) (a : α) : Prop :=
  ∃ b, p = some b ∧ Relation.ReflTransGen (Link next) b a

/-- No node that can be reached from the pointer `p` lies on a cycle. -/
def Acyclic (next : α → Option α) (p : Option α) : Prop :=
  ∀ a, Reachable next p a → ¬ Relation.TransGen (Link next) a a

/-- Behind a link the chain is shorter. -/
theorem Chain.of_link {a b : α} {l : List α} (h : Chain next (some a) l) (hlink : Link next a b) :
    ∃ m, l = a :: m ∧ Chain next (some b) m := by
  unfold Chain at h
  cases h with
  | cons rest =>
      rw [hlink] at rest
      exact ⟨_, rfl, rest⟩

/-- From a node that can be reached the chain is a rest of the whole one. -/
theorem Chain.of_reachable {p : Option α} {a : α} {l : List α} (h : Chain next p l)
    (hreach : Reachable next p a) : ∃ m, m <:+ l ∧ Chain next (some a) m := by
  obtain ⟨b, rfl, hpath⟩ := hreach
  induction hpath with
  | refl => exact ⟨l, List.suffix_rfl, h⟩
  | tail _ hlink ih =>
      obtain ⟨m, hsuffix, hchain⟩ := ih
      obtain ⟨m', rfl, hchain'⟩ := hchain.of_link hlink
      exact ⟨m', (List.suffix_cons _ m').trans hsuffix, hchain'⟩

/-- Behind at least one link it is shorter. -/
theorem Chain.of_path {a b : α} {l : List α} (h : Chain next (some a) l)
    (hpath : Relation.TransGen (Link next) a b) :
    ∃ m, m.length < l.length ∧ Chain next (some b) m := by
  obtain ⟨c, hlink, hrest⟩ := Relation.TransGen.head'_iff.mp hpath
  obtain ⟨m, rfl, hchain⟩ := h.of_link hlink
  obtain ⟨m', hsuffix, hchain'⟩ := hchain.of_reachable ⟨c, rfl, hrest⟩
  have hle := hsuffix.length_le
  exact ⟨m', by simp only [List.length_cons]; omega, hchain'⟩

/-- **A chain has no cycle.** -/
theorem Chain.acyclic {p : Option α} {l : List α} (h : Chain next p l) : Acyclic next p := by
  intro a hreach hcycle
  obtain ⟨m, -, hchain⟩ := h.of_reachable hreach
  obtain ⟨m', hshorter, hchain'⟩ := hchain.of_path hcycle
  rw [hchain'.unique hchain] at hshorter
  exact Nat.lt_irrefl _ hshorter

/-- **The nodes of a chain** are those that can be reached. -/
theorem Chain.reachable_iff {p : Option α} {a : α} {l : List α} (h : Chain next p l) :
    Reachable next p a ↔ a ∈ l := by
  constructor
  · intro hreach
    obtain ⟨m, hsuffix, hchain⟩ := h.of_reachable hreach
    unfold Chain at hchain
    cases hchain with
    | cons rest => exact hsuffix.mem List.mem_cons_self
  · intro hmem
    induction l generalizing p with
    | nil => cases hmem
    | cons b l ih =>
        obtain ⟨rfl, hrest⟩ := segment_cons_iff.mp h
        obtain rfl | hmem := List.mem_cons.mp hmem
        · exact ⟨a, rfl, Relation.ReflTransGen.refl⟩
        · obtain ⟨c, hlink, hpath⟩ := ih hrest hmem
          exact ⟨b, rfl, Relation.ReflTransGen.head hlink hpath⟩

/-! ## Loops along a chain -/

/-- A loop `while (p)` that ends at the first node for which `f` has a result; `none` is a loop
that has not ended when its fuel is used up. -/
def visit (next : α → Option α) (f : α → Option ρ) : Nat → Option α → Option (Option ρ)
  | 0, _ => none
  | _ + 1, none => some none
  | fuel + 1, some a =>
      match f a with
      | some r => some (some r)
      | none => visit next f fuel (next a)

/-- A loop `while (p)` that passes all nodes. -/
def nodes (next : α → Option α) : Nat → Option α → Option (List α)
  | 0, _ => none
  | _ + 1, none => some []
  | fuel + 1, some a => (nodes next fuel (next a)).map (a :: ·)

/-- A loop `while (p->next)`, which ends at the last node. -/
def lastFrom (next : α → Option α) : Nat → α → Option α
  | 0, _ => none
  | fuel + 1, a =>
      match next a with
      | none => some a
      | some b => lastFrom next fuel b

/-- The first loop ends along a chain, with the first result. -/
theorem Chain.visit_eq {p : Option α} {l : List α} (h : Chain next p l) (f : α → Option ρ)
    {fuel : Nat} (hfuel : l.length < fuel) : visit next f fuel p = some (l.findSome? f) := by
  induction l generalizing p fuel with
  | nil =>
      obtain ⟨fuel, rfl⟩ := Nat.exists_eq_add_one_of_ne_zero (Nat.ne_zero_of_lt hfuel)
      obtain rfl := segment_nil_iff.mp h
      rfl
  | cons a l ih =>
      obtain ⟨fuel, rfl⟩ := Nat.exists_eq_add_one_of_ne_zero (Nat.ne_zero_of_lt hfuel)
      obtain ⟨rfl, hrest⟩ := segment_cons_iff.mp h
      rw [visit, List.findSome?_cons]
      cases f a with
      | some r => rfl
      | none => exact ih hrest (Nat.succ_lt_succ_iff.mp hfuel)

/-- The second loop ends along a chain, with all of it. -/
theorem Chain.nodes_eq {p : Option α} {l : List α} (h : Chain next p l) {fuel : Nat}
    (hfuel : l.length < fuel) : nodes next fuel p = some l := by
  induction l generalizing p fuel with
  | nil =>
      obtain ⟨fuel, rfl⟩ := Nat.exists_eq_add_one_of_ne_zero (Nat.ne_zero_of_lt hfuel)
      obtain rfl := segment_nil_iff.mp h
      rfl
  | cons a l ih =>
      obtain ⟨fuel, rfl⟩ := Nat.exists_eq_add_one_of_ne_zero (Nat.ne_zero_of_lt hfuel)
      obtain ⟨rfl, hrest⟩ := segment_cons_iff.mp h
      rw [nodes, ih hrest (Nat.succ_lt_succ_iff.mp hfuel)]
      rfl

/-- The third loop ends along a chain, at its last node. -/
theorem Chain.lastFrom_eq {a t : α} {l : List α} (h : Chain next (some a) (l ++ [t])) {fuel : Nat}
    (hfuel : l.length < fuel) : lastFrom next fuel a = some t := by
  induction l generalizing a fuel with
  | nil =>
      obtain ⟨fuel, rfl⟩ := Nat.exists_eq_add_one_of_ne_zero (Nat.ne_zero_of_lt hfuel)
      obtain ⟨hfirst, hrest⟩ := segment_cons_iff.mp h
      obtain rfl := Option.some.inj hfirst
      rw [lastFrom, segment_nil_iff.mp hrest]
  | cons b l ih =>
      obtain ⟨fuel, rfl⟩ := Nat.exists_eq_add_one_of_ne_zero (Nat.ne_zero_of_lt hfuel)
      obtain ⟨hfirst, hrest⟩ := segment_cons_iff.mp h
      obtain rfl := Option.some.inj hfirst
      rw [lastFrom]
      cases hnext : next a with
      | none =>
          rw [hnext] at hrest
          cases l with
          | nil => cases hrest
          | cons c l => cases hrest
      | some c =>
          rw [hnext] at hrest
          exact ih hrest (Nat.succ_lt_succ_iff.mp hfuel)

/-! ## Appending a node -/

section AppendOnce

variable [DecidableEq α]

/-- The list with `x` as its last element: what was behind `x` before is gone. -/
def appendOnce (l : List α) (x : α) : List α := l.takeWhile (fun a => decide (a ≠ x)) ++ [x]

/-- An element that does not occur does not stop `takeWhile`. -/
theorem forall_ne_of_notMem {l : List α} {x : α} (hx : x ∉ l) :
    ∀ a ∈ l, decide (a ≠ x) = true := by
  intro a ha
  rw [decide_eq_true_iff]
  exact fun heq => hx (heq ▸ ha)

/-- A new entry is appended. -/
theorem appendOnce_of_notMem {l : List α} {x : α} (hx : x ∉ l) : appendOnce l x = l ++ [x] := by
  rw [appendOnce, List.takeWhile_eq_self_iff.mpr (forall_ne_of_notMem hx)]

/-- An entry that is in the list already becomes its end. -/
theorem appendOnce_append_cons {l m : List α} {x : α} (hx : x ∉ l) :
    appendOnce (l ++ x :: m) x = l ++ [x] := by
  rw [appendOnce, List.takeWhile_append_of_pos (forall_ne_of_notMem hx)]
  simp

/-- The entry is last in any case. -/
theorem getLast?_appendOnce (l : List α) (x : α) : (appendOnce l x).getLast? = some x := by
  rw [appendOnce, List.getLast?_concat]

/-- The list grows by one at most. -/
theorem length_appendOnce_le (l : List α) (x : α) : (appendOnce l x).length ≤ l.length + 1 := by
  have hle := (List.takeWhile_sublist (p := fun a => decide (a ≠ x)) (l := l)).length_le
  rw [appendOnce, List.length_append, List.length_singleton]
  omega

/-- New elements are appended in their order. -/
theorem foldl_appendOnce {l xs : List α} (h : (l ++ xs).Nodup) :
    xs.foldl appendOnce l = l ++ xs := by
  induction xs generalizing l with
  | nil => rw [List.foldl_nil, List.append_nil]
  | cons x xs ih =>
      have hx : x ∉ l := by
        intro hmem
        exact (List.nodup_append.mp h).2.2 x hmem x List.mem_cons_self rfl
      rw [List.append_cons] at h
      rw [List.foldl_cons, appendOnce_of_notMem hx, ih h, ← List.append_cons]

/-- Over several entries it grows by their number at most. -/
theorem length_foldl_appendOnce_le (l xs : List α) :
    (xs.foldl appendOnce l).length ≤ l.length + xs.length := by
  induction xs generalizing l with
  | nil => rw [List.foldl_nil, List.length_nil, Nat.add_zero]
  | cons x xs ih =>
      have hrest := ih (appendOnce l x)
      have hfirst := length_appendOnce_le l x
      rw [List.foldl_cons, List.length_cons]
      omega

/-- The element added last is the last one. -/
theorem getLast?_foldl_appendOnce (xs : List α) :
    (xs.foldl appendOnce []).getLast? = xs.getLast? := by
  induction xs using List.reverseRecOn with
  | nil => rfl
  | append_singleton xs x _ =>
      rw [List.foldl_append, List.foldl_cons, List.foldl_nil, getLast?_appendOnce,
        List.getLast?_concat]

/-- The node that a segment leads to gets another pointer. -/
theorem Segment.set {p : Option α} {l : List α} {t : α} (h : Segment next p l (some t))
    (ht : t ∉ l) (q : Option α) : Segment (Function.update next t q) p (l ++ [t]) q := by
  have hbefore : Segment (Function.update next t q) p l (some t) := by
    refine h.congr fun a ha => ?_
    have hne : a ≠ t := fun heq => ht (heq ▸ ha)
    rw [Function.update_of_ne hne]
  refine segment_append.mpr ⟨some t, hbefore, segment_cons_iff.mpr ⟨rfl, ?_⟩⟩
  rw [Function.update_self]
  exact Segment.nil q

/-- **Relinking.**  The last node of a chain gets `x` behind it, and then `x` gets NULL. -/
theorem Chain.relink {p : Option α} {l : List α} {t : α} (h : Chain next p (l ++ [t])) (x : α) :
    Chain (Function.update (Function.update next t (some x)) x none) p
      (appendOnce (l ++ [t]) x) := by
  have ht : t ∉ l := by
    have hnodup := h.nodup
    rw [← List.concat_eq_append, List.nodup_concat] at hnodup
    exact hnodup.1
  have hlinked := (Segment.upTo h).set ht (some x)
  by_cases hmem : x ∈ l ++ [t]
  · -- for the moment there is a cycle, which the second store opens
    obtain ⟨m, r, hsplit, hx⟩ := List.eq_append_cons_of_mem hmem
    rw [hsplit] at hlinked ⊢
    rw [appendOnce_append_cons hx]
    exact (Segment.upTo hlinked).set hx none
  · rw [appendOnce_of_notMem hmem]
    exact hlinked.set hmem none

end AppendOnce

end LinkedList
