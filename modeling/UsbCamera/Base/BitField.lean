import Mathlib.Tactic

/-!
# Bit fields of a machine word

A device register packs several numbers into one word.  `field lo len w` is the
number in the `len` bits of `w` from bit `lo` on.

A word is usually put together as a disjunction of shifted numbers.  The lemmas
here say what such a disjunction leaves in one field: the number shifted to the
field's own place is read back, the numbers shifted above it and the numbers that
end below it leave nothing.

Writing a register with "or" can only add bits.  So the bits of a value are
compared by inclusion (`Within`), and a disjunction lies within a value exactly
when each of its parts does.
-/

namespace BitField

variable {n lo len k m : Nat}

/-- The `len` bits of a word from bit `lo` on. -/
def field (lo len : Nat) (w : BitVec n) : BitVec len := w.extractLsb' lo len

/-- Every bit of `a` is a bit of `b`. -/
def Within (a b : BitVec n) : Prop := a ||| b = b

instance (a b : BitVec n) : Decidable (Within a b) :=
  inferInstanceAs (Decidable (a ||| b = b))

/-- The bits of a field are bits of the word. -/
theorem getLsbD_field {w : BitVec n} {i : Nat} :
    (field lo len w).getLsbD i = (decide (i < len) && w.getLsbD (lo + i)) :=
  BitVec.getLsbD_extractLsb' lo len w i

/-- The bits of a mask. -/
theorem getLsbD_mask (hfit : k ≤ n) (i : Nat) :
    (BitVec.ofNat n (2 ^ k - 1)).getLsbD i = decide (i < k) := by
  rw [BitVec.getLsbD_ofNat, Nat.testBit_two_pow_sub_one]
  grind

/-- All fields of zero are zero. -/
@[simp] theorem field_zero : field lo len (0#n) = 0#(len) := by
  apply BitVec.eq_of_getLsbD_eq
  intro i _
  simp [getLsbD_field]

/-- Fields are set independently by `|`. -/
@[simp] theorem field_or (a b : BitVec n) :
    field lo len (a ||| b) = field lo len a ||| field lo len b :=
  BitVec.extractLsb'_or

/-- A number shifted to the place of the field is what the field holds. -/
theorem field_shiftLeft_self (x : BitVec n) (hfit : lo + len ≤ n) :
    field lo len (x <<< lo) = x.setWidth len := by
  apply BitVec.eq_of_getLsbD_eq
  intro i hi
  have hin : lo + i < n := by omega
  rw [getLsbD_field, BitVec.getLsbD_shiftLeft, BitVec.getLsbD_setWidth]
  simp [hi, hin]

/-- A number shifted above the field leaves nothing in it. -/
theorem field_shiftLeft_above (x : BitVec n) (habove : lo + len ≤ k) :
    field lo len (x <<< k) = 0#(len) := by
  apply BitVec.eq_of_getLsbD_eq
  intro i hi
  have hlow : lo + i < k := by omega
  simp [getLsbD_field, hlow]

/-- A number that ends below the field leaves nothing in it. -/
theorem field_shiftLeft_below {x : BitVec n} (hx : x.toNat < 2 ^ m) (hbelow : k + m ≤ lo) :
    field lo len (x <<< k) = 0#(len) := by
  apply BitVec.eq_of_getLsbD_eq
  intro i hi
  have hhigh : x.getLsbD (lo + i - k) = false := by
    apply Nat.testBit_lt_two_pow
    calc x.toNat < 2 ^ m := hx
      _ ≤ 2 ^ (lo + i - k) := Nat.pow_le_pow_right (by omega) (by omega)
  simp [getLsbD_field, hhigh]

/-- Clearing a bit below or above the field leaves the field alone. -/
theorem field_clear_of_outside (w : BitVec n) (hk : k < lo ∨ lo + len ≤ k) :
    field lo len (w &&& ~~~(1#n <<< k)) = field lo len w := by
  apply BitVec.eq_of_getLsbD_eq
  intro i hi
  have hne : lo + i - k ≠ 0 ∨ lo + i < k := by omega
  rcases Nat.lt_or_ge (lo + i) n with hin | hout
  · simp only [getLsbD_field, BitVec.getLsbD_and, BitVec.getLsbD_not, BitVec.getLsbD_shiftLeft,
      BitVec.getLsbD_one]
    grind
  · simp [getLsbD_field, BitVec.getLsbD_of_ge _ _ hout]

/-- A cleared bit reads as zero. -/
theorem field_clear_self (w : BitVec n) : field k 1 (w &&& ~~~(1#n <<< k)) = 0#1 := by
  apply BitVec.eq_of_getLsbD_eq
  intro i hi
  have hzero : i = 0 := by omega
  subst hzero
  simp only [getLsbD_field, BitVec.getLsbD_and, BitVec.getLsbD_not, BitVec.getLsbD_shiftLeft,
    BitVec.getLsbD_one]
  grind

/-- A field has a number that fits it exactly when it has the number's low
bits. -/
theorem setWidth_eq_iff {a : BitVec m} {x : BitVec n} (hmn : m ≤ n) (hx : x.toNat < 2 ^ m) :
    a.setWidth n = x ↔ a = x.setWidth m := by
  have ha : a.toNat < 2 ^ n := lt_of_lt_of_le a.isLt (Nat.pow_le_pow_right (by omega) hmn)
  rw [BitVec.toNat_eq, BitVec.toNat_eq, BitVec.toNat_setWidth, BitVec.toNat_setWidth,
    Nat.mod_eq_of_lt ha, Nat.mod_eq_of_lt hx]

/-- Zero sets no bit. -/
@[simp] theorem zero_within (a : BitVec n) : Within 0#n a := BitVec.zero_or

/-- A disjunction lies within a value exactly when both its parts do. -/
theorem or_within {a b c : BitVec n} : Within (a ||| b) c ↔ Within a c ∧ Within b c := by
  unfold Within
  constructor
  · intro h
    constructor
    · rw [← h, ← BitVec.or_assoc, ← BitVec.or_assoc, BitVec.or_self]
    · rw [← h, BitVec.or_comm a b, ← BitVec.or_assoc, ← BitVec.or_assoc, BitVec.or_self]
  · rintro ⟨ha, hb⟩
    rw [BitVec.or_assoc, hb, ha]

end BitField
