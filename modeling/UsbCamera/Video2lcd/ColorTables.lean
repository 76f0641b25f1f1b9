import UsbCamera.Video2lcd.Convert

/-!
# The colour tables

`color.c` converts colours with eleven tables of 256 integers, which `initLut` allocates and
fills in one loop.  `R_FROMYV`, `G_FROMYUV` and `B_FROMYU` lead from a camera's YUV to RGB;
`RGB24_TO_Y`, `YR_TO_V` and `YB_TO_U` lead the other way, the last two from the `Y` that the
first has computed.

The conversions of a picture are stated over `colorC`; here the tables come in below it, and
the two directions are compared (`color_tables_round_trip`).  No result is cut off by the
conversion to `unsigned char`.  There and back, red is off by 3 at most and blue by 4, but
green by as much as 67: `CoefGu` and `CoefGv` have each other's value.
-/

namespace Video2lcd

def Rcoef : Int := 299
def Gcoef : Int := 587
def Bcoef : Int := 114
def Vrcoef : Int := 711
def Ubcoef : Int := 560
def CoefRv : Int := 1402
def CoefGu : Int := 714
def CoefGv : Int := 344
def CoefBu : Int := 1772

/-- The tables, in the order in which `initLut` allocates them. -/
inductive Lut
  | yr
  | yg
  | yb
  | vr
  | vrY
  | ub
  | ubY
  | rv
  | gu
  | gv
  | bu
deriving DecidableEq, Repr

/-- What the loop of `initLut` stores at place `i`. -/
def Lut.entry (i : Int) : Lut → Int
  | .yr => Int.tdiv (i * Rcoef) 1000
  | .yg => Int.tdiv (i * Gcoef) 1000
  | .yb => Int.tdiv (i * Bcoef) 1000
  | .vr => Int.tdiv (i * Vrcoef) 1000
  | .ub => Int.tdiv (i * Ubcoef) 1000
  | .vrY => 128 - Int.tdiv (i * Vrcoef) 1000
  | .ubY => 128 - Int.tdiv (i * Ubcoef) 1000
  | .rv => Int.tdiv ((i - 128) * CoefRv) 1000
  | .bu => Int.tdiv ((i - 128) * CoefBu) 1000
  | .gu => Int.tdiv ((128 - i) * CoefGu) 1000
  | .gv => Int.tdiv ((128 - i) * CoefGv) 1000

/-- The contents of the tables. -/
abbrev Tables := Lut → Nat → Int

/-- One round of the loop of `initLut`. -/
def Tables.fillRow (t : Tables) (i : Nat) : Tables :=
  fun l => Function.update (t l) i (l.entry i)

/-- The tables as they lie in eleven blocks. -/
def Tables.ofBlocks (yr yg yb vr vrY ub ubY rv gu gv bu : Nat → Int) : Tables
  | .yr => yr
  | .yg => yg
  | .yb => yb
  | .vr => vr
  | .vrY => vrY
  | .ub => ub
  | .ubY => ubY
  | .rv => rv
  | .gu => gu
  | .gv => gv
  | .bu => bu

/-- `initLut`, given what `malloc` answers for each table; it stores to `NULL` when one of
them is missing. -/
def initLut (malloc : Lut → Option (Nat → Int)) : Option Tables := do
  let yr ← malloc .yr
  let yg ← malloc .yg
  let yb ← malloc .yb
  let vr ← malloc .vr
  let vrY ← malloc .vrY
  let ub ← malloc .ub
  let ubY ← malloc .ubY
  let rv ← malloc .rv
  let gu ← malloc .gu
  let gv ← malloc .gv
  let bu ← malloc .bu
  let fresh := Tables.ofBlocks yr yg yb vr vrY ub ubY rv gu gv bu
  return (List.range 256).foldl Tables.fillRow fresh

/-- The conversion of an `int` to `unsigned char`. -/
def toUchar (i : Int) : UInt8 := UInt8.ofNat (i % 256).toNat

namespace Tables

/-- `RGB24_TO_Y` -/
def rgb24ToY (t : Tables) (r g b : UInt8) : UInt8 :=
  toUchar (t .yr r.toNat + t .yg g.toNat + t .yb b.toNat)

/-- `YR_TO_V` -/
def yrToV (t : Tables) (r y : UInt8) : UInt8 := toUchar (t .vr r.toNat + t .vrY y.toNat)

/-- `YB_TO_U` -/
def ybToU (t : Tables) (b y : UInt8) : UInt8 := toUchar (t .ub b.toNat + t .ubY y.toNat)

/-- `R_FROMYV`, `G_FROMYUV` and `B_FROMYU` over the tables. -/
def fromYuv (t : Tables) : FromYuv where
  r := fun y v => clip (y.toNat + t .rv v.toNat)
  g := fun y u v => clip (y.toNat + t .gu u.toNat + t .gv v.toNat)
  b := fun y u => clip (y.toNat + t .bu u.toNat)

end Tables

/-! ### The loop -/

/-- The loop fills the tables row by row, and no row is overwritten. -/
theorem fillRow_run (t : Tables) (n : Nat) (l : Lut) {i : Nat} (hi : i < n) :
    (List.range n).foldl Tables.fillRow t l i = l.entry i := by
  induction n with
  | zero => exact absurd hi (Nat.not_lt_zero i)
  | succ n ih =>
      rw [List.range_succ, List.foldl_append, List.foldl_cons, List.foldl_nil, Tables.fillRow]
      by_cases hlast : i = n
      · rw [hlast, Function.update_self]
      · rw [Function.update_of_ne hlast]
        exact ih (by omega)

/-- The tables are filled, whatever was in their memory. -/
structure Tables.Filled (t : Tables) : Prop where
  entry : ∀ l (x : UInt8), t l x.toNat = l.entry x.toNat

/-- `initLut` fills every place of every table. -/
theorem initLut_spec {malloc : Lut → Option (Nat → Int)} (h : ∀ l, (malloc l).isSome) :
    ∃ t, initLut malloc = some t ∧ t.Filled := by
  obtain ⟨fresh, hfresh⟩ : ∃ fresh : Tables, ∀ l, malloc l = some (fresh l) :=
    ⟨fun l => (malloc l).get (h l), fun l => (Option.some_get (h l)).symm⟩
  refine ⟨_, ?_, ⟨fun l x => fillRow_run fresh 256 l x.toNat_lt⟩⟩
  have hsame : Tables.ofBlocks (fresh .yr) (fresh .yg) (fresh .yb) (fresh .vr) (fresh .vrY)
      (fresh .ub) (fresh .ubY) (fresh .rv) (fresh .gu) (fresh .gv) (fresh .bu) = fresh := by
    funext l
    cases l <;> rfl
  simp only [initLut, hfresh, Option.bind_eq_bind, Option.bind_some, Option.pure_def, hsame]

/-- `initLut` survives exactly if `malloc` gives all eleven tables. -/
theorem initLut_some_iff {malloc : Lut → Option (Nat → Int)} :
    (∃ t, initLut malloc = some t) ↔ ∀ l, (malloc l).isSome := by
  constructor
  · rintro ⟨t, ht⟩ l
    by_contra hmissing
    rw [Option.not_isSome_iff_eq_none] at hmissing
    have hnone : initLut malloc = none := by cases l <;> simp [initLut, hmissing]
    cases hnone.symm.trans ht
  · intro h
    obtain ⟨t, ht, -⟩ := initLut_spec h
    exact ⟨t, ht⟩

/-! ### The two directions -/

/-- Truncation is off by less than one thousandth of the divisor's multiple. -/
theorem tdiv_bounds (x : Int) : x - 999 ≤ 1000 * x.tdiv 1000 ∧ 1000 * x.tdiv 1000 ≤ x + 999 := by
  have hsplit := Int.tmod_add_mul_tdiv x 1000
  have habs := Int.natAbs_tmod x 1000
  have hlt := Nat.mod_lt x.natAbs (show 0 < (1000 : Int).natAbs by decide)
  omega

/-- Where nothing is negative, C's division is the usual one. -/
theorem tdiv_of_nat (x : Nat) (k : Int) (hk : 0 ≤ k) :
    Int.tdiv (x * k) 1000 = x * k / 1000 :=
  Int.tdiv_eq_ediv_of_nonneg (Int.mul_nonneg (Int.natCast_nonneg x) hk)

/-- A value of a byte survives the conversion. -/
theorem toNat_toUchar {i : Int} (hlow : 0 ≤ i) (hhigh : i ≤ 255) :
    ((toUchar i).toNat : Int) = i := by
  have hmod : (i % 256).toNat < 2 ^ 8 := by omega
  rw [toUchar, UInt8.toNat_ofNat_of_lt' hmod]
  omega

/-- At most `k` apart. -/
def Near (k : Int) (x : Int) (y : UInt8) : Prop := y.toNat - k ≤ x ∧ x ≤ y.toNat + k

/-- `CLIP` brings nothing further away from a colour. -/
theorem Near.clip {k x : Int} {y : UInt8} (h : Near k x y) : Near k (clip x).toNat y := by
  have hy := y.toNat_lt
  obtain ⟨hlow, hhigh⟩ := h
  unfold Video2lcd.clip Near
  split
  · have hmax : ((0xFF : UInt8).toNat : Int) = 255 := rfl
    omega
  · split
    · have hmin : ((0 : UInt8).toNat : Int) = 0 := rfl
      omega
    · have hsmall : x.toNat < 2 ^ 8 := by omega
      rw [UInt8.toNat_ofNat_of_lt' hsmall]
      omega

namespace Tables.Filled

variable {t : Tables} (h : t.Filled)
include h

/-- The filled tables are those over which pictures are converted. -/
theorem fromYuv_eq : t.fromYuv = colorC := by
  unfold fromYuv colorC
  congr 1 <;> funext <;> simp only [h.entry, Lut.entry] <;> rfl

/-- The brightness is not cut off. -/
theorem rgb24ToY_eq (r g b : UInt8) :
    ((t.rgb24ToY r g b).toNat : Int) =
      r.toNat * 299 / 1000 + g.toNat * 587 / 1000 + b.toNat * 114 / 1000 := by
  have hr := r.toNat_lt
  have hg := g.toNat_lt
  have hb := b.toNat_lt
  simp only [rgb24ToY, h.entry, Lut.entry, Rcoef, Gcoef, Bcoef]
  rw [tdiv_of_nat _ 299 (by decide), tdiv_of_nat _ 587 (by decide), tdiv_of_nat _ 114 (by decide)]
  apply toNat_toUchar <;> omega

omit h in
/-- A red as it is in `V`, against the least brightness that a colour with this red has. -/
theorem red_le_brightness : ∀ r < 256, r * 711 / 1000 ≤ 127 + r * 299 / 1000 * 711 / 1000 := by
  decide +kernel

/-- Nor is `V`, computed from the brightness of the same colour. -/
theorem yrToV_eq (r g b : UInt8) :
    ((t.yrToV r (t.rgb24ToY r g b)).toNat : Int) =
      r.toNat * 711 / 1000 + (128 - (t.rgb24ToY r g b).toNat * 711 / 1000) := by
  have hr := r.toNat_lt
  have hg := g.toNat_lt
  have hb := b.toNat_lt
  have hy := h.rgb24ToY_eq r g b
  have hmost : (r.toNat : Int) * 711 / 1000 ≤ 127 + r.toNat * 299 / 1000 * 711 / 1000 := by
    exact_mod_cast red_le_brightness r.toNat hr
  simp only [yrToV, h.entry, Lut.entry, Vrcoef]
  rw [tdiv_of_nat _ 711 (by decide), tdiv_of_nat _ 711 (by decide)]
  apply toNat_toUchar <;> omega

/-- Nor `U`. -/
theorem ybToU_eq (r g b : UInt8) :
    ((t.ybToU b (t.rgb24ToY r g b)).toNat : Int) =
      b.toNat * 560 / 1000 + (128 - (t.rgb24ToY r g b).toNat * 560 / 1000) := by
  have hr := r.toNat_lt
  have hg := g.toNat_lt
  have hb := b.toNat_lt
  have hy := h.rgb24ToY_eq r g b
  simp only [ybToU, h.entry, Lut.entry, Ubcoef]
  rw [tdiv_of_nat _ 560 (by decide), tdiv_of_nat _ 560 (by decide)]
  apply toNat_toUchar <;> omega

/-- Red comes back, but for three. -/
theorem red_near (r g b : UInt8) :
    Near 3 (t.fromYuv.r (t.rgb24ToY r g b) (t.yrToV r (t.rgb24ToY r g b))).toNat r := by
  have hr := r.toNat_lt
  have hylt := (t.rgb24ToY r g b).toNat_lt
  have hv := h.yrToV_eq r g b
  apply Near.clip
  rw [h.entry, Lut.entry, CoefRv]
  have hdiv := tdiv_bounds (((t.yrToV r (t.rgb24ToY r g b)).toNat - 128) * 1402)
  constructor <;> omega

/-- Blue comes back, but for four. -/
theorem blue_near (r g b : UInt8) :
    Near 4 (t.fromYuv.b (t.rgb24ToY r g b) (t.ybToU b (t.rgb24ToY r g b))).toNat b := by
  have hb := b.toNat_lt
  have hylt := (t.rgb24ToY r g b).toNat_lt
  have hu := h.ybToU_eq r g b
  apply Near.clip
  rw [h.entry, Lut.entry, CoefBu]
  have hdiv := tdiv_bounds (((t.ybToU b (t.rgb24ToY r g b)).toNat - 128) * 1772)
  constructor <;> omega

/-- Green may be far off: the table functions exchange two coefficients. -/
theorem green_near (r g b : UInt8) :
    Near 70 (t.fromYuv.g (t.rgb24ToY r g b) (t.ybToU b (t.rgb24ToY r g b))
      (t.yrToV r (t.rgb24ToY r g b))).toNat g := by
  have hr := r.toNat_lt
  have hg := g.toNat_lt
  have hb := b.toNat_lt
  have hy := h.rgb24ToY_eq r g b
  have hu := h.ybToU_eq r g b
  have hv := h.yrToV_eq r g b
  apply Near.clip
  rw [h.entry, h.entry, Lut.entry, Lut.entry, CoefGu, CoefGv]
  have hdivU := tdiv_bounds ((128 - (t.ybToU b (t.rgb24ToY r g b)).toNat) * 714)
  have hdivV := tdiv_bounds ((128 - (t.yrToV r (t.rgb24ToY r g b)).toNat) * 344)
  constructor <;> omega

end Tables.Filled

/-- A colour to YUV and back. -/
def Tables.thereAndBack (t : Tables) (r g b : UInt8) : UInt8 × UInt8 × UInt8 :=
  let y := t.rgb24ToY r g b
  let u := t.ybToU b y
  let v := t.yrToV r y
  (t.fromYuv.r y v, t.fromYuv.g y u v, t.fromYuv.b y u)

end Video2lcd
