import UsbCamera.Base.ByteStore

/-!
# Pictures in a store

A picture is laid out in a store line by line: pixel `(x, y)` is the `p` cells at
`y * stride + x * p`.  `Overlays` says what it is for a store to be another one
with a rectangle of it replaced: the pixels of the rectangle are the given ones,
and every cell of no such pixel is as before.

A rectangle is copied by writing its lines, each at its place
(`overlays_rows`), or its pixels (`overlays_pixels`).  What is overlaid is determined
by the rectangle and the pixels (`Overlays.unique`); hence overlaying the same once
more changes nothing, and overlaying rectangles that have no pixel in common may be
done in any order.  `OverlaysAt` is the same for a picture that begins at some
address of the store.
-/

namespace Raster

open ByteStore

variable {β : Type}

/-- Pixel `(x, y)` of a picture. -/
def pixel (m : Nat → β) (stride p x y : Nat) : List β := read m (y * stride + x * p) p

/-- Place and size of a rectangle, in pixels. -/
structure Rect where
  left : Nat
  top : Nat
  width : Nat
  height : Nat
deriving DecidableEq, Repr

/-- The cell at `a` belongs to a pixel of the rectangle. -/
def Rect.Covers (r : Rect) (stride p a : Nat) : Prop :=
  ∃ x < r.width, ∃ y < r.height,
    (r.top + y) * stride + (r.left + x) * p ≤ a ∧ a < (r.top + y) * stride + (r.left + x) * p + p

/-- The pixels of the rectangle are those of `picture`. -/
def Rect.Holds (r : Rect) (stride p : Nat) (picture : Nat → Nat → List β) (m : Nat → β) : Prop :=
  ∀ x < r.width, ∀ y < r.height, pixel m stride p (r.left + x) (r.top + y) = picture x y

/-- `m'` is `m` with `picture` in the place of the rectangle. -/
structure Overlays (r : Rect) (stride p : Nat) (picture : Nat → Nat → List β)
    (m m' : Nat → β) : Prop where
  inside : r.Holds stride p picture m'
  outside : ∀ a, ¬ r.Covers stride p a → m' a = m a

/-- Where nothing is changed, a picture is overlaid exactly if it was there. -/
theorem overlays_self {r : Rect} {stride p : Nat} {picture : Nat → Nat → List β} {m : Nat → β} :
    Overlays r stride p picture m m ↔ r.Holds stride p picture m :=
  ⟨Overlays.inside, fun h => ⟨h, fun _ _ => rfl⟩⟩

/-- Only the pixels of the rectangle matter. -/
theorem Overlays.congr {r : Rect} {stride p : Nat} {picture picture' : Nat → Nat → List β}
    {m m' : Nat → β} (h : Overlays r stride p picture m m')
    (hsame : ∀ x < r.width, ∀ y < r.height, picture x y = picture' x y) :
    Overlays r stride p picture' m m' :=
  ⟨fun x hx y hy => (h.inside x hx y hy).trans (hsame x hx y hy), h.outside⟩

/-- Lines of a rectangle, each with its place. -/
def rows (base stride height : Nat) (row : Nat → List β) : List (Nat × List β) :=
  (List.range height).map fun y => (base + y * stride, row y)

theorem mem_rows {base stride height : Nat} {row : Nat → List β} {piece : Nat × List β} :
    piece ∈ rows base stride height row ↔
      ∃ y < height, piece = (base + y * stride, row y) := by
  simp [rows, eq_comm]

/-- Lines that are no longer than the stride keep apart. -/
theorem rows_apart {base stride height : Nat} {row : Nat → List β}
    (hlen : ∀ y, (row y).length ≤ stride) : (rows base stride height row).Pairwise Apart := by
  unfold rows
  rw [List.pairwise_map]
  apply List.pairwise_lt_range.imp
  intro y y' hlt
  left
  have hle : (y + 1) * stride ≤ y' * stride := Nat.mul_le_mul_right stride hlt
  have hexp : (y + 1) * stride = y * stride + stride := by ring
  have hy := hlen y
  simp only
  omega

/-- **Copying a rectangle.**  Writing the lines of a picture `src` without gaps
to a place that has room for them overlays the rectangle. -/
theorem overlays_rows {r : Rect} {stride p : Nat} (hfit : (r.left + r.width) * p ≤ stride)
    (src m : Nat → β) :
    Overlays r stride p (pixel src (r.width * p) p) m
      (writeAll m (rows (r.top * stride + r.left * p) stride r.height
        fun y => read src (y * (r.width * p)) (r.width * p))) := by
  have hwidth : r.width * p ≤ stride := by
    have hexp : (r.left + r.width) * p = r.left * p + r.width * p := by ring
    omega
  constructor
  · intro x hx y hy
    have hapart : (rows (r.top * stride + r.left * p) stride r.height
        fun y => read src (y * (r.width * p)) (r.width * p)).Pairwise Apart :=
      rows_apart fun y => by rw [length_read]; exact hwidth
    have hline := read_writeAll_mem m hapart (mem_rows.mpr ⟨y, hy, rfl⟩)
    simp only [length_read] at hline
    have hpart : x * p + p ≤ r.width * p := by
      have := Nat.mul_le_mul_right p hx
      rw [Nat.succ_mul] at this
      exact this
    have hpixel := read_part hline hpart
    unfold pixel
    rw [← hpixel]
    congr 1
    ring
  · intro a ha
    apply writeAll_outside
    intro piece hpiece
    obtain ⟨y, hy, rfl⟩ := mem_rows.mp hpiece
    simp only [length_read]
    by_contra hin
    -- the cell belongs to the pixel it is that many cells behind the line's start
    obtain ⟨k, rfl⟩ : ∃ k, a = r.top * stride + r.left * p + y * stride + k :=
      ⟨a - (r.top * stride + r.left * p + y * stride), by omega⟩
    have hk : k < r.width * p := by omega
    have hp : 0 < p := by
      rcases Nat.eq_zero_or_pos p with h0 | hpos
      · rw [h0] at hk
        omega
      · exact hpos
    apply ha
    refine ⟨k / p, Nat.div_lt_of_lt_mul (by rw [Nat.mul_comm]; exact hk), y, hy, ?_⟩
    have hdiv := Nat.div_add_mod k p
    have hmod := Nat.mod_lt k hp
    have hcomm : p * (k / p) = k / p * p := Nat.mul_comm _ _
    have hexp : (r.top + y) * stride + (r.left + k / p) * p =
        r.top * stride + r.left * p + y * stride + k / p * p := by ring
    rw [hexp]
    omega

/-- Pixels of a rectangle, each with its place. -/
def pixels (r : Rect) (stride p : Nat) (picture : Nat → Nat → List β) : List (Nat × List β) :=
  (List.range r.height).flatMap fun y =>
    (List.range r.width).map fun x => ((r.top + y) * stride + (r.left + x) * p, picture x y)

theorem mem_pixels {r : Rect} {stride p : Nat} {picture : Nat → Nat → List β}
    {piece : Nat × List β} :
    piece ∈ pixels r stride p picture ↔ ∃ y < r.height, ∃ x < r.width,
      piece = ((r.top + y) * stride + (r.left + x) * p, picture x y) := by
  simp [pixels, eq_comm]

/-- A pixel ends before the next one of its line begins. -/
theorem pixel_before {p x x' : Nat} (h : x < x') : x * p + p ≤ x' * p := by
  have hle := Nat.mul_le_mul_right p h
  rwa [Nat.succ_mul] at hle

/-- A line ends before the last one of `h` lines does. -/
theorem line_le {stride y h : Nat} (hy : y < h) : y * stride + stride ≤ stride * h := by
  have hle := Nat.mul_le_mul_left stride hy
  rw [Nat.mul_succ, Nat.mul_comm stride y] at hle
  exact hle

/-- The pixels of a rectangle that has room in its lines keep apart. -/
theorem pixels_apart {r : Rect} {stride p : Nat} (hfit : (r.left + r.width) * p ≤ stride)
    {picture : Nat → Nat → List β} (hlen : ∀ x y, (picture x y).length = p) :
    (pixels r stride p picture).Pairwise Apart := by
  unfold pixels
  rw [List.pairwise_flatMap]
  constructor
  · intro y _
    rw [List.pairwise_map]
    apply List.pairwise_lt_range.imp
    intro x x' hlt
    left
    have hbefore : (r.left + x) * p + p ≤ (r.left + x') * p := pixel_before (by omega)
    simp only [hlen]
    omega
  · apply List.pairwise_lt_range.imp
    intro y y' hlt a ha b hb
    obtain ⟨x, hx, rfl⟩ := List.mem_map.mp ha
    obtain ⟨x', -, rfl⟩ := List.mem_map.mp hb
    left
    have hline : (r.top + y) * stride + stride ≤ (r.top + y') * stride :=
      pixel_before (by omega)
    have hend : (r.left + x) * p + p ≤ (r.left + r.width) * p :=
      pixel_before (by have := List.mem_range.mp hx; omega)
    simp only [hlen]
    omega

/-- The pixels of a whole picture without gaps, counted through. -/
theorem pixels_whole (w h p : Nat) (g : Nat → List β) :
    pixels ⟨0, 0, w, h⟩ (w * p) p (fun x y => g (y * w + x)) =
      (List.range (h * w)).map fun i => (i * p, g i) := by
  induction h with
  | zero => simp [pixels]
  | succ h ih =>
      have hlast : pixels ⟨0, 0, w, h + 1⟩ (w * p) p (fun x y => g (y * w + x)) =
          pixels ⟨0, 0, w, h⟩ (w * p) p (fun x y => g (y * w + x)) ++
            (List.range w).map fun x => (h * (w * p) + x * p, g (h * w + x)) := by
        simp [pixels, List.range_succ]
      rw [hlast, ih, Nat.succ_mul, List.range_add, List.map_append, List.map_map]
      congr 1
      apply List.map_congr_left
      intro x _
      simp only [Function.comp_apply, Prod.mk.injEq, and_true]
      ring

/-- **Pixel by pixel.**  Writing the pixels of a rectangle overlays it. -/
theorem overlays_pixels {r : Rect} {stride p : Nat} (hfit : (r.left + r.width) * p ≤ stride)
    {picture : Nat → Nat → List β} (hlen : ∀ x y, (picture x y).length = p) (m : Nat → β) :
    Overlays r stride p picture m (writeAll m (pixels r stride p picture)) := by
  constructor
  · intro x hx y hy
    have hback := read_writeAll_mem m (pixels_apart hfit hlen) (mem_pixels.mpr ⟨y, hy, x, hx, rfl⟩)
    rwa [hlen] at hback
  · intro a ha
    apply writeAll_outside
    intro piece hpiece
    obtain ⟨y, hy, x, hx, rfl⟩ := mem_pixels.mp hpiece
    rw [hlen]
    by_contra hin
    exact ha ⟨x, hx, y, hy, by omega, by omega⟩

/-- The pixels of a whole picture without gaps are read back. -/
theorem pixel_writeAll_whole {w h p : Nat} {picture : Nat → Nat → List β}
    (hlen : ∀ x y, (picture x y).length = p) (m : Nat → β) {x y : Nat} (hx : x < w) (hy : y < h) :
    pixel (writeAll m (pixels ⟨0, 0, w, h⟩ (w * p) p picture)) (w * p) p x y = picture x y := by
  have hfit : (0 + w) * p ≤ w * p := by rw [Nat.zero_add]
  have hpixel := (overlays_pixels (r := ⟨0, 0, w, h⟩) hfit hlen m).inside x hx y hy
  rwa [Nat.zero_add, Nat.zero_add] at hpixel

/-- Writing the lines of a rectangle is writing its pixels. -/
theorem writeAll_lines {r : Rect} {stride p : Nat} {picture : Nat → Nat → List β}
    (hlen : ∀ x y, (picture x y).length = p) (m : Nat → β) :
    writeAll m ((List.range r.height).map fun y =>
        ((r.top + y) * stride + r.left * p, (List.range r.width).flatMap fun x => picture x y)) =
      writeAll m (pixels r stride p picture) := by
  unfold pixels writeAll
  rw [List.foldl_flatMap, List.foldl_map]
  congr 1
  funext m y
  rw [write_flatMap m (fun x => hlen x y)]
  unfold writeAll
  congr 2
  funext x
  congr 1
  ring

/-- A cell that the rectangle covers is one of the picture's, whatever was there. -/
theorem Overlays.eq_of_covers {r : Rect} {stride p : Nat} {picture : Nat → Nat → List β}
    {m m' n n' : Nat → β} (h : Overlays r stride p picture m m')
    (h' : Overlays r stride p picture n n') {a : Nat} (ha : r.Covers stride p a) :
    n' a = m' a := by
  obtain ⟨x, hx, y, hy, hlow, hhigh⟩ := ha
  have hsame := (h'.inside x hx y hy).trans (h.inside x hx y hy).symm
  exact eq_of_read hsame hlow hhigh

/-- What is overlaid is determined by the rectangle and its pixels. -/
theorem Overlays.unique {r : Rect} {stride p : Nat} {picture : Nat → Nat → List β}
    {m m' m'' : Nat → β} (h' : Overlays r stride p picture m m')
    (h'' : Overlays r stride p picture m m'') : m'' = m' := by
  funext a
  by_cases ha : r.Covers stride p a
  · exact h'.eq_of_covers h'' ha
  · rw [h''.outside a ha, h'.outside a ha]

/-- Overlaying the same once more changes nothing. -/
theorem Overlays.again {r : Rect} {stride p : Nat} {picture : Nat → Nat → List β}
    {m m' m'' : Nat → β} (h' : Overlays r stride p picture m m')
    (h'' : Overlays r stride p picture m' m'') : m'' = m' := by
  funext a
  by_cases ha : r.Covers stride p a
  · exact h'.eq_of_covers h'' ha
  · exact h''.outside a ha

/-- A whole picture without gaps covers all its cells. -/
theorem covers_whole {w h p a : Nat} (ha : a < w * p * h) :
    (⟨0, 0, w, h⟩ : Rect).Covers (w * p) p a := by
  have hline : 0 < w * p := Nat.pos_of_mul_pos_right (Nat.zero_lt_of_lt ha)
  have hp : 0 < p := Nat.pos_of_mul_pos_left hline
  have hcolumn : a % (w * p) < w * p := Nat.mod_lt a hline
  refine ⟨a % (w * p) / p, Nat.div_lt_of_lt_mul (by rwa [Nat.mul_comm p]), a / (w * p),
    Nat.div_lt_of_lt_mul ha, ?_⟩
  have hrow := Nat.div_add_mod a (w * p)
  have hpixel := Nat.div_add_mod (a % (w * p)) p
  have hmod := Nat.mod_lt (a % (w * p)) hp
  rw [Nat.mul_comm (w * p)] at hrow
  rw [Nat.mul_comm p] at hpixel
  simp only [Nat.zero_add]
  omega

/-- A rectangle inside a picture of `h` lines covers cells of the picture only. -/
theorem Rect.Covers.lt {r : Rect} {stride p h a : Nat} (ha : r.Covers stride p a)
    (hfit : (r.left + r.width) * p ≤ stride) (hbottom : r.top + r.height ≤ h) : a < stride * h := by
  obtain ⟨x, hx, y, hy, -, hhigh⟩ := ha
  have hend : (r.left + x) * p + p ≤ (r.left + r.width) * p := pixel_before (by omega)
  have hline : (r.top + y) * stride + stride ≤ h * stride := pixel_before (by omega)
  rw [Nat.mul_comm stride h]
  omega

/-- A pixel of the rectangle. -/
def Rect.Has (r : Rect) (x y : Nat) : Prop :=
  (r.left ≤ x ∧ x < r.left + r.width) ∧ r.top ≤ y ∧ y < r.top + r.height

instance (r : Rect) (x y : Nat) : Decidable (r.Has x y) :=
  inferInstanceAs (Decidable ((_ ∧ _) ∧ _ ∧ _))

theorem Rect.has_add (r : Rect) {x y : Nat} (hx : x < r.width) (hy : y < r.height) :
    r.Has (r.left + x) (r.top + y) :=
  ⟨⟨by omega, by omega⟩, by omega, by omega⟩

/-- A cell of a pixel of the rectangle is covered by it. -/
theorem Rect.Has.covers {r : Rect} {x y stride p a : Nat} (h : r.Has x y)
    (hlow : y * stride + x * p ≤ a) (hhigh : a < y * stride + x * p + p) :
    r.Covers stride p a := by
  obtain ⟨⟨hleft, hright⟩, htop, hbottom⟩ := h
  have hx : r.left + (x - r.left) = x := by omega
  have hy : r.top + (y - r.top) = y := by omega
  refine ⟨x - r.left, by omega, y - r.top, by omega, ?_⟩
  rw [hx, hy]
  exact ⟨hlow, hhigh⟩

/-- Every piece is a pixel of the rectangle, in a picture that begins at `base`. -/
def Confined (base : Nat) (r : Rect) (stride p : Nat) (pieces : List (Nat × List β)) : Prop :=
  ∀ piece ∈ pieces, ∃ x y, r.Has x y ∧ piece.1 = base + (y * stride + x * p) ∧
    piece.2.length = p

theorem Confined.nil (base : Nat) (r : Rect) (stride p : Nat) :
    Confined base r stride p ([] : List (Nat × List β)) :=
  fun _ hpiece => absurd hpiece List.not_mem_nil

theorem Confined.append {base : Nat} {r : Rect} {stride p : Nat}
    {pieces rest : List (Nat × List β)} (h : Confined base r stride p pieces)
    (h' : Confined base r stride p rest) : Confined base r stride p (pieces ++ rest) := by
  intro piece hpiece
  obtain hfirst | hrest := List.mem_append.mp hpiece
  · exact h piece hfirst
  · exact h' piece hrest

/-- The pixels of a picture, all moved on by `base`. -/
theorem confined_pixels (base : Nat) (r : Rect) (stride : Nat) {p : Nat}
    {picture : Nat → Nat → List β} (hlen : ∀ x y, (picture x y).length = p) :
    Confined base r stride p
      ((pixels r stride p picture).map fun piece => (base + piece.1, piece.2)) := by
  intro piece hpiece
  obtain ⟨moved, hmoved, rfl⟩ := List.mem_map.mp hpiece
  obtain ⟨y, hy, x, hx, rfl⟩ := mem_pixels.mp hmoved
  exact ⟨r.left + x, r.top + y, r.has_add hx hy, rfl, hlen x y⟩

/-- **Confined stores** leave every cell alone that belongs to no pixel of the rectangle. -/
theorem Confined.writeAll_eq {base : Nat} {r : Rect} {stride p : Nat}
    {pieces : List (Nat × List β)} (h : Confined base r stride p pieces) (m : Nat → β) {a : Nat}
    (ha : a < base ∨ ¬ r.Covers stride p (a - base)) : writeAll m pieces a = m a := by
  apply writeAll_outside
  intro piece hpiece
  obtain ⟨x, y, hxy, hplace, hlen⟩ := h piece hpiece
  by_contra hin
  obtain hbelow | houtside := ha
  · omega
  · exact houtside (hxy.covers (by omega) (by omega))

/-- Two rectangles have no pixel in common. -/
def Rect.Disjoint (r s : Rect) : Prop := ∀ x y, r.Has x y → ¬ s.Has x y

/-- A cell belongs to one pixel at most. -/
theorem pixel_unique {stride p x y x' y' a : Nat} (hx : x * p + p ≤ stride)
    (hx' : x' * p + p ≤ stride) (hlow : y * stride + x * p ≤ a)
    (hhigh : a < y * stride + x * p + p) (hlow' : y' * stride + x' * p ≤ a)
    (hhigh' : a < y' * stride + x' * p + p) : x = x' ∧ y = y' := by
  have hline : y = y' := by
    rcases Nat.lt_trichotomy y y' with h | h | h
    · have := pixel_before (p := stride) h
      omega
    · exact h
    · have := pixel_before (p := stride) h
      omega
  subst hline
  rcases Nat.lt_trichotomy x x' with h | h | h
  · have := pixel_before (p := p) h
    omega
  · exact ⟨h, rfl⟩
  · have := pixel_before (p := p) h
    omega

/-- The cells of two pixels keep apart. -/
theorem pixel_apart {stride p x y x' y' : Nat} (hx : x * p + p ≤ stride)
    (hx' : x' * p + p ≤ stride) (hne : ¬ (x = x' ∧ y = y')) :
    y' * stride + x' * p + p ≤ y * stride + x * p ∨
      y * stride + x * p + p ≤ y' * stride + x' * p := by
  by_contra hcommon
  rcases Nat.eq_zero_or_pos p with rfl | hp
  · omega
  · rcases Nat.le_total (y * stride + x * p) (y' * stride + x' * p) with hle | hle
    · exact hne (pixel_unique hx hx' hle (by omega) le_rfl (by omega))
    · exact hne (pixel_unique hx hx' le_rfl (by omega) hle (by omega))

/-- A pixel outside the rectangle is not changed. -/
theorem Overlays.pixel_outside {r : Rect} {stride p : Nat} {picture : Nat → Nat → List β}
    {m m' : Nat → β} (h : Overlays r stride p picture m m')
    (hfit : (r.left + r.width) * p ≤ stride) {x y : Nat} (hx : x * p + p ≤ stride)
    (hout : ¬ r.Has x y) : pixel m' stride p x y = pixel m stride p x y := by
  apply read_congr
  intro a hlow hhigh
  apply h.outside
  intro hcovers
  obtain ⟨x', hx', y', hy', hlow', hhigh'⟩ := hcovers
  have hend : (r.left + x') * p + p ≤ (r.left + r.width) * p := pixel_before (by omega)
  obtain ⟨rfl, rfl⟩ := pixel_unique hx (by omega) hlow hhigh hlow' hhigh'
  exact hout (r.has_add hx' hy')

/-- Rectangles with no pixel in common cover no cell in common. -/
theorem Rect.Disjoint.not_covers {r s : Rect} {stride p a : Nat} (h : r.Disjoint s)
    (hr : (r.left + r.width) * p ≤ stride) (hs : (s.left + s.width) * p ≤ stride)
    (ha : r.Covers stride p a) : ¬ s.Covers stride p a := by
  obtain ⟨x, hx, y, hy, hlow, hhigh⟩ := ha
  rintro ⟨x', hx', y', hy', hlow', hhigh'⟩
  have hend : (r.left + x) * p + p ≤ (r.left + r.width) * p := pixel_before (by omega)
  have hend' : (s.left + x') * p + p ≤ (s.left + s.width) * p := pixel_before (by omega)
  obtain ⟨hcol, hrow⟩ := pixel_unique (by omega) (by omega) hlow hhigh hlow' hhigh'
  have hboth := s.has_add hx' hy'
  rw [← hcol, ← hrow] at hboth
  exact h _ _ (r.has_add hx hy) hboth

/-- **In any order.**  Rectangles with no pixel in common may be overlaid in any
order. -/
theorem Overlays.comm {r s : Rect} {stride p : Nat} {picture picture' : Nat → Nat → List β}
    {m mr ms mrs msr : Nat → β} (hdisj : r.Disjoint s)
    (hr : (r.left + r.width) * p ≤ stride) (hs : (s.left + s.width) * p ≤ stride)
    (hmr : Overlays r stride p picture m mr) (hmrs : Overlays s stride p picture' mr mrs)
    (hms : Overlays s stride p picture' m ms) (hmsr : Overlays r stride p picture ms msr) :
    mrs = msr := by
  funext a
  by_cases har : r.Covers stride p a
  · have has := hdisj.not_covers hr hs har
    rw [hmrs.outside a has]
    exact hmsr.eq_of_covers hmr har
  · by_cases has : s.Covers stride p a
    · rw [hmsr.outside a har]
      exact hms.eq_of_covers hmrs has
    · rw [hmrs.outside a has, hmr.outside a har, hmsr.outside a har, hms.outside a has]

/-- `m'` is `m` with `picture` in the place of the rectangle, in the picture that
begins at `base`. -/
structure OverlaysAt (base : Nat) (r : Rect) (stride p : Nat) (picture : Nat → Nat → List β)
    (m m' : Nat → β) : Prop where
  behind : Overlays r stride p picture (window m base) (window m' base)
  below : ∀ a < base, m' a = m a

theorem OverlaysAt.congr {base : Nat} {r : Rect} {stride p : Nat}
    {picture picture' : Nat → Nat → List β} {m m' : Nat → β}
    (h : OverlaysAt base r stride p picture m m')
    (hsame : ∀ x < r.width, ∀ y < r.height, picture x y = picture' x y) :
    OverlaysAt base r stride p picture' m m' :=
  ⟨h.behind.congr hsame, h.below⟩

/-- Overlaying leaves everything outside the picture alone. -/
theorem OverlaysAt.outside {base : Nat} {r : Rect} {stride p h : Nat}
    {picture : Nat → Nat → List β} {m m' : Nat → β}
    (hover : OverlaysAt base r stride p picture m m')
    (hfit : (r.left + r.width) * p ≤ stride) (hbottom : r.top + r.height ≤ h) {a : Nat}
    (ha : a < base ∨ base + stride * h ≤ a) : m' a = m a := by
  rcases ha with hlt | hge
  · exact hover.below a hlt
  · have hcell := hover.behind.outside (a - base) fun hcov => by
      have := hcov.lt hfit hbottom
      omega
    unfold window at hcell
    rwa [Nat.add_sub_cancel' (by omega)] at hcell

/-- Pieces behind an address leave everything below it alone. -/
theorem writeAll_below {base : Nat} (m : Nat → β) (pieces : List (Nat × List β)) {a : Nat}
    (ha : a < base) :
    writeAll m (pieces.map fun piece => (base + piece.1, piece.2)) a = m a := by
  apply writeAll_outside
  intro piece hpiece
  obtain ⟨q, -, rfl⟩ := List.mem_map.mp hpiece
  simp only
  omega

/-- A picture at an address, written piece by piece. -/
theorem overlaysAt_of_pieces {base : Nat} {r : Rect} {stride p : Nat}
    {picture : Nat → Nat → List β} {m : Nat → β} {pieces : List (Nat × List β)}
    (h : Overlays r stride p picture (window m base) (writeAll (window m base) pieces)) :
    OverlaysAt base r stride p picture m
      (writeAll m (pieces.map fun piece => (base + piece.1, piece.2))) := by
  constructor
  · rw [window_writeAll]
    exact h
  · intro a ha
    exact writeAll_below m pieces ha

/-- Stores that agree below an address and from it on are equal. -/
theorem eq_of_window {base : Nat} {m m' : Nat → β} (hbelow : ∀ a < base, m' a = m a)
    (hbehind : window m' base = window m base) : m' = m := by
  funext a
  rcases Nat.lt_or_ge a base with hlt | hge
  · exact hbelow a hlt
  · have hcell := congrFun hbehind (a - base)
    unfold window at hcell
    rwa [Nat.add_sub_cancel' hge] at hcell

/-- Pieces that leave the same, leave the same behind an address. -/
theorem writeAll_shift_congr {base : Nat} {m : Nat → β} {pieces pieces' : List (Nat × List β)}
    (h : writeAll (window m base) pieces' = writeAll (window m base) pieces) :
    writeAll m (pieces'.map fun piece => (base + piece.1, piece.2)) =
      writeAll m (pieces.map fun piece => (base + piece.1, piece.2)) := by
  apply eq_of_window
  · intro a ha
    rw [writeAll_below m pieces ha, writeAll_below m pieces' ha]
  · rw [window_writeAll, window_writeAll, h]

theorem OverlaysAt.again {base : Nat} {r : Rect} {stride p : Nat}
    {picture : Nat → Nat → List β} {m m' m'' : Nat → β}
    (h' : OverlaysAt base r stride p picture m m')
    (h'' : OverlaysAt base r stride p picture m' m'') : m'' = m' :=
  eq_of_window h''.below (h'.behind.again h''.behind)

theorem OverlaysAt.comm {base : Nat} {r s : Rect} {stride p : Nat}
    {picture picture' : Nat → Nat → List β} {m mr ms mrs msr : Nat → β} (hdisj : r.Disjoint s)
    (hr : (r.left + r.width) * p ≤ stride) (hs : (s.left + s.width) * p ≤ stride)
    (hmr : OverlaysAt base r stride p picture m mr)
    (hmrs : OverlaysAt base s stride p picture' mr mrs)
    (hms : OverlaysAt base s stride p picture' m ms)
    (hmsr : OverlaysAt base r stride p picture ms msr) : mrs = msr := by
  apply eq_of_window
  · intro a ha
    rw [hmrs.below a ha, hmr.below a ha, hmsr.below a ha, hms.below a ha]
  · exact hmr.behind.comm hdisj hr hs hmrs.behind hms.behind hmsr.behind

/-! ## Cells changed in place -/

/-- The cells of a rectangle, line by line, in a picture that begins at `base`. -/
def Rect.cells (r : Rect) (base stride p : Nat) : List Nat :=
  (List.range r.height).flatMap fun y =>
    (List.range (r.width * p)).map fun k => base + ((r.top + y) * stride + r.left * p + k)

theorem Rect.mem_cells {r : Rect} {base stride p a : Nat} :
    a ∈ r.cells base stride p ↔ ∃ y < r.height, ∃ k < r.width * p,
      base + ((r.top + y) * stride + r.left * p + k) = a := by
  simp only [Rect.cells, List.mem_flatMap, List.mem_map, List.mem_range]

section
variable {r : Rect} {base stride p : Nat} (hfit : (r.left + r.width) * p ≤ stride)
include hfit

/-- No cell is listed twice. -/
theorem Rect.nodup_cells : (r.cells base stride p).Nodup := by
  rw [Nat.add_mul] at hfit
  rw [Rect.cells, List.nodup_flatMap]
  constructor
  · intro y _
    refine List.Nodup.map (fun k k' hkk => ?_) List.nodup_range
    omega
  · refine List.nodup_range.pairwise_of_forall_ne fun y hy y' hy' hne => ?_
    intro a ha ha'
    obtain ⟨k, hk, rfl⟩ := List.mem_map.mp ha
    obtain ⟨k', hk', heq⟩ := List.mem_map.mp ha'
    have hk := List.mem_range.mp hk
    have hk' := List.mem_range.mp hk'
    rcases Nat.lt_or_gt_of_ne hne with hlt | hlt
    · have hline := pixel_before (p := stride) (show r.top + y < r.top + y' by omega)
      omega
    · have hline := pixel_before (p := stride) (show r.top + y' < r.top + y by omega)
      omega

/-- The cells of a pixel are listed exactly if it is a pixel of the rectangle. -/
theorem Rect.mem_cells_iff {x y k : Nat} (hx : x * p + p ≤ stride) (hk : k < p) :
    base + (y * stride + x * p + k) ∈ r.cells base stride p ↔ r.Has x y := by
  rw [Nat.add_mul] at hfit
  rw [Rect.mem_cells]
  constructor
  · rintro ⟨y', hy', k', hk', heq⟩
    have hline : y = r.top + y' := by
      rcases Nat.lt_trichotomy y (r.top + y') with hlt | hline | hlt
      · have := pixel_before (p := stride) hlt
        omega
      · exact hline
      · have := pixel_before (p := stride) hlt
        omega
    subst hline
    refine ⟨⟨?_, ?_⟩, by omega, by omega⟩
    · by_contra hlt
      have := pixel_before (p := p) (show x < r.left by omega)
      omega
    · by_contra hge
      have hpast : (r.left + r.width) * p ≤ x * p := Nat.mul_le_mul_right p (by omega)
      rw [Nat.add_mul] at hpast
      omega
  · rintro ⟨⟨hleft, hright⟩, htop, hbottom⟩
    have hlast : (x - r.left) * p + p ≤ r.width * p := pixel_before (by omega)
    have hcol : r.left * p + (x - r.left) * p = x * p := by
      rw [← Nat.add_mul, Nat.add_sub_cancel' hleft]
    refine ⟨y - r.top, by omega, (x - r.left) * p + k, by omega, ?_⟩
    rw [Nat.add_sub_cancel' htop]
    omega

/-- **Changing a rectangle in place** changes its pixels, each cell once, and no other. -/
theorem pixel_modifyAll (f : β → β) (m : Nat → β) {x y : Nat} (hx : x * p + p ≤ stride) :
    pixel (window (modifyAll f m (r.cells base stride p)) base) stride p x y =
      if r.Has x y then (pixel (window m base) stride p x y).map f
      else pixel (window m base) stride p x y := by
  have hcell : ∀ k < p, modifyAll f m (r.cells base stride p) (base + (y * stride + x * p + k)) =
      if r.Has x y then f (m (base + (y * stride + x * p + k)))
      else m (base + (y * stride + x * p + k)) := by
    intro k hk
    simp only [modifyAll_of_nodup (Rect.nodup_cells hfit), Rect.mem_cells_iff hfit hx hk]
  simp only [pixel, ByteStore.read, window]
  split
  · rename_i hhas
    rw [List.map_map]
    refine List.map_congr_left fun k hk => ?_
    rw [hcell k (List.mem_range.mp hk), if_pos hhas]
    rfl
  · rename_i hnot
    refine List.map_congr_left fun k hk => ?_
    rw [hcell k (List.mem_range.mp hk), if_neg hnot]

/-- Outside the picture nothing is changed. -/
theorem modifyAll_cells_outside (f : β → β) (m : Nat → β) {h a : Nat}
    (hbottom : r.top + r.height ≤ h) (ha : a < base ∨ base + stride * h ≤ a) :
    modifyAll f m (r.cells base stride p) a = m a := by
  rw [modifyAll_of_nodup (Rect.nodup_cells hfit), if_neg]
  rw [Rect.mem_cells]
  rintro ⟨y, hy, k, hk, rfl⟩
  rw [Nat.add_mul] at hfit
  have hline : (r.top + y) * stride + stride ≤ stride * h := line_le (by omega)
  omega

end

end Raster
