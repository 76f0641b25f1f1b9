import UsbCamera.Base.Extrema
import UsbCamera.Video2lcd.FontBitmap

/-!
# Text in the centre of a rectangle

`MergerStringToCenterOfRectangleInVideoMem` clears a rectangle and goes through its text
twice.  The first time it measures: every glyph has a box, and the four edges of the box
around all of them are kept as running extrema.  From the size of that box it computes
where the text has to begin so as to stand in the middle.  The second time it draws, glyph
by glyph, and it stops at the first glyph that would leave the rectangle.

What the characters of a text are and what their glyphs look like is decided by functions
outside this program, `GetCodeFrmBuf` and `GetFontBitmap`.  Nothing is assumed of them but
that a text has an end (`Font`).

The lower edge of the box is not what it should be: the comparison that guards it looks at
the right edge of the glyph instead (`text_box_iff`).  No harm is done by that to what is
around the rectangle, because every glyph is looked at again before it is drawn
(`text_stays_in_rectangle`).
-/

namespace Video2lcd.InMemory

open ByteStore CInt Raster Extrema

/-! ## The functions -/

/-- The font functions, as far as one call of the drawing function meets them: the codes
that `GetCodeFrmBuf` finds when the text is measured and when it is drawn, and what
`GetFontBitmap` makes of the code and the `T_FontBitMap` that it is given.  It may depend on
how often it was called before. -/
structure Font where
  measured : List UInt32
  drawn : List UInt32
  getFontBitmap : Nat → UInt32 → FontBitMap → Int32 × FontBitMap

/-- The box around the glyphs measured so far. -/
structure Extent where
  iMinX : Int32 := 32000
  iMaxX : Int32 := -1
  iMinY : Int32 := 32000
  iMaxY : Int32 := -1
deriving DecidableEq, Repr

/-- A glyph is added.  The last comparison is the source's. -/
def Extent.add (e : Extent) (t : FontBitMap) : Extent where
  iMinX := if e.iMinX > t.iXLeft then t.iXLeft else e.iMinX
  iMaxX := if e.iMaxX < t.iXMax then t.iXMax else e.iMaxX
  iMinY := if e.iMinY > t.iYTop then t.iYTop else e.iMinY
  iMaxY := if e.iMaxY < t.iXMax then t.iYMax else e.iMaxY

/-- The origin moves on to the next glyph. -/
def FontBitMap.advance (t : FontBitMap) : FontBitMap :=
  { t with iCurOriginX := t.iNextOriginX, iCurOriginY := t.iNextOriginY }

/-- The measuring loop, after `calls` calls of `GetFontBitmap`. -/
def measure (font : Font) : List UInt32 → Nat → FontBitMap → Extent → FontBitMap × Extent
  | [], _, t, e => (t, e)
  | dwCode :: rest, calls, t, e =>
      let (iError, t) := font.getFontBitmap calls dwCode t
      if iError = 0 then measure font rest (calls + 1) t.advance (e.add t)
      else measure font rest (calls + 1) t e

/-- `isFontInArea`. -/
def isFontInArea (layout : Layout) (t : FontBitMap) : Int32 :=
  if t.iXLeft ≥ layout.iTopLeftX ∧ t.iXMax ≤ layout.iBotRightX ∧ t.iYTop ≥ layout.iTopLeftY ∧
    t.iYMax ≤ layout.iBotRightY then 1
  else 0

/-- The drawing loop.  A text that turns out to be empty is an error here as well. -/
def drawString (font : Font) (layout : Layout) (vm : Picture) :
    List UInt32 → (bHasGetCode : Bool) → Nat → FontBitMap → Int32 × Stores
  | [], bHasGetCode, _, _ => (if bHasGetCode then 0 else -1, [])
  | dwCode :: rest, _, calls, t =>
      let (iError, t) := font.getFontBitmap calls dwCode t
      if iError = 0 then
        if isFontInArea layout t ≠ 0 then
          let (ret, stored) := mergeOneFontToVideoMem t vm
          if ret ≠ 0 then (-1, stored)
          else
            let (ret, more) := drawString font layout vm rest true (calls + 1) t.advance
            (ret, stored ++ more)
        else (0, [])
      else drawString font layout vm rest true (calls + 1) t

/-- `MergerStringToCenterOfRectangleInVideoMem`, with what its local `tFontBitMap` happens to
hold. -/
def mergerStringToCenterOfRectangleInVideoMem (font : Font) (layout : Layout)
    (tFontBitMap : FontBitMap) (vm : Picture) : Int32 × Stores :=
  let t := { tFontBitMap with iCurOriginX := 0, iCurOriginY := 0 }
  let cleared := clearRectangleInVideoMem layout.iTopLeftX layout.iTopLeftY layout.iBotRightX
    layout.iBotRightY vm COLOR_BACKGROUND
  if font.measured = [] then (-1, cleared)
  else
    let (t, e) := measure font font.measured 0 t {}
    let iWidth := e.iMaxX - e.iMinX
    let iHeight := e.iMaxY - e.iMinY
    let iWidth :=
      if iWidth > layout.iBotRightX - layout.iTopLeftX then layout.iBotRightX - layout.iTopLeftX
      else iWidth
    if iHeight > layout.iBotRightY - layout.iTopLeftY then (-1, cleared)
    else
      let iStrTopLeftX :=
        layout.iTopLeftX + (layout.iBotRightX - layout.iTopLeftX - iWidth) / 2
      let iStrTopLeftY :=
        layout.iTopLeftY + (layout.iBotRightY - layout.iTopLeftY - iHeight) / 2
      let t := { t with
        iCurOriginX := iStrTopLeftX - e.iMinX
        iCurOriginY := iStrTopLeftY - e.iMinY }
      let (ret, stored) := drawString font layout vm font.drawn false font.measured.length t
      (ret, cleared ++ stored)

/-! ## The box around the glyphs -/

/-- The glyphs that the measuring loop finds. -/
def foundGlyphs (font : Font) : List UInt32 → Nat → FontBitMap → List FontBitMap
  | [], _, _ => []
  | dwCode :: rest, calls, t =>
      let (iError, t) := font.getFontBitmap calls dwCode t
      if iError = 0 then t :: foundGlyphs font rest (calls + 1) t.advance
      else foundGlyphs font rest (calls + 1) t

/-- The extent of some glyphs, as the source computes it. -/
def extentOf (found : List FontBitMap) : Extent := found.foldl Extent.add {}

/-- The measuring loop adds the glyphs that it finds. -/
theorem measure_extent (font : Font) (codes : List UInt32) (calls : Nat) (t : FontBitMap)
    (e : Extent) :
    (measure font codes calls t e).2 = (foundGlyphs font codes calls t).foldl Extent.add e := by
  induction codes generalizing calls t e with
  | nil => rfl
  | cons dwCode rest ih =>
      simp only [measure, foundGlyphs]
      split
      · rw [ih, List.foldl_cons]
      · rw [ih]

/-- The extent is the box around the glyphs. -/
structure IsTextBox (found : List FontBitMap) (e : Extent) : Prop where
  left : IsLeast {x | ∃ t ∈ found, t.iXLeft.toInt = x} e.iMinX.toInt
  top : IsLeast {y | ∃ t ∈ found, t.iYTop.toInt = y} e.iMinY.toInt
  right : IsGreatest {x | ∃ t ∈ found, t.iXMax.toInt = x} e.iMaxX.toInt
  bottom : IsGreatest {y | ∃ t ∈ found, t.iYMax.toInt = y} e.iMaxY.toInt

/-- The edges of a glyph are where the initial values of the extent expect them. -/
structure FontBitMap.WellPlaced (t : FontBitMap) : Prop where
  left : t.iXLeft.toInt < 32000
  top : t.iYTop.toInt < 32000
  right : 0 ≤ t.iXMax.toInt ∧ t.iXMax.toInt < 32000
  bottom : 0 ≤ t.iYMax.toInt ∧ t.iYMax.toInt < 32000

/-- A comparison of edges is one of numbers. -/
theorem toInt_replace (a b : Int32) (c d : Int32) :
    (if a < b then c else d).toInt = if a.toInt < b.toInt then c.toInt else d.toInt := by
  rw [apply_ite Int32.toInt]
  simp only [Int32.lt_iff_toInt_lt]

section Edges

variable (found : List FontBitMap)

theorem extentOf_iMinX :
    (extentOf found).iMinX.toInt = runningMin (fun t => t.iXLeft.toInt) 32000 found :=
  (List.foldl_hom (fun e : Extent => e.iMinX.toInt) fun _ _ => (toInt_replace _ _ _ _).symm).symm

theorem extentOf_iMinY :
    (extentOf found).iMinY.toInt = runningMin (fun t => t.iYTop.toInt) 32000 found :=
  (List.foldl_hom (fun e : Extent => e.iMinY.toInt) fun _ _ => (toInt_replace _ _ _ _).symm).symm

theorem extentOf_iMaxX :
    (extentOf found).iMaxX.toInt = runningMax (fun t => t.iXMax.toInt) (-1) found :=
  (List.foldl_hom (fun e : Extent => e.iMaxX.toInt) fun _ _ => (toInt_replace _ _ _ _).symm).symm

/-- The lower edge is replaced when the glyph ends to the right of it. -/
theorem extentOf_iMaxY_concat (t : FontBitMap) :
    (extentOf (found ++ [t])).iMaxY.toInt =
      if (extentOf found).iMaxY.toInt < t.iXMax.toInt then t.iYMax.toInt
      else (extentOf found).iMaxY.toInt := by
  rw [extentOf, List.foldl_append]
  exact toInt_replace _ _ _ _

end Edges

/-- Three of the edges are always right. -/
theorem extentOf_edges {found : List FontBitMap} (hfound : found ≠ [])
    (hplaced : ∀ t ∈ found, t.WellPlaced) :
    IsLeast {x | ∃ t ∈ found, t.iXLeft.toInt = x} (extentOf found).iMinX.toInt ∧
      IsLeast {y | ∃ t ∈ found, t.iYTop.toInt = y} (extentOf found).iMinY.toInt ∧
      IsGreatest {x | ∃ t ∈ found, t.iXMax.toInt = x} (extentOf found).iMaxX.toInt := by
  rw [extentOf_iMinX, extentOf_iMinY, extentOf_iMaxX]
  refine ⟨isLeast_runningMin hfound fun t ht => (hplaced t ht).left,
    isLeast_runningMin hfound fun t ht => (hplaced t ht).top,
    isGreatest_runningMax hfound fun t ht => ?_⟩
  have hright := (hplaced t ht).right
  omega

/-- A glyph that reaches lowest is taken, because it ends to the right of the lower edge of
those before it, and none behind it ends to the right of its own lower edge. -/
def LowestTaken (found : List FontBitMap) : Prop :=
  ∃ before t after, found = before ++ t :: after ∧
    (∀ u ∈ found, u.iYMax.toInt ≤ t.iYMax.toInt) ∧
    (extentOf before).iMaxY.toInt < t.iXMax.toInt ∧
    ∀ u ∈ after, u.iXMax.toInt ≤ t.iYMax.toInt

/-- The lower edge is the initial value, or that of the glyph taken last. -/
theorem extentOf_iMaxY_cases (found : List FontBitMap) :
    (extentOf found).iMaxY.toInt = -1 ∨ ∃ before t after, found = before ++ t :: after ∧
      (extentOf found).iMaxY.toInt = t.iYMax.toInt ∧
      (extentOf before).iMaxY.toInt < t.iXMax.toInt ∧
      ∀ u ∈ after, u.iXMax.toInt ≤ t.iYMax.toInt := by
  induction found using List.reverseRecOn with
  | nil => exact Or.inl rfl
  | append_singleton found u ih =>
      rw [extentOf_iMaxY_concat]
      by_cases htaken : (extentOf found).iMaxY.toInt < u.iXMax.toInt
      · rw [if_pos htaken]
        exact Or.inr ⟨found, u, [], rfl, rfl, htaken, fun v hv => absurd hv List.not_mem_nil⟩
      · rw [if_neg htaken]
        obtain hnone | ⟨before, t, after, rfl, hedge, hbefore, hafter⟩ := ih
        · exact Or.inl hnone
        · refine Or.inr ⟨before, t, after ++ [u], by simp, hedge, hbefore, fun v hv => ?_⟩
          obtain hv | hv := List.mem_append.mp hv
          · exact hafter v hv
          · rw [List.mem_singleton.mp hv]
            omega

/-- Glyphs that do not end to the right of the lower edge leave it. -/
theorem extentOf_iMaxY_append {found after : List FontBitMap}
    (hafter : ∀ u ∈ after, u.iXMax.toInt ≤ (extentOf found).iMaxY.toInt) :
    (extentOf (found ++ after)).iMaxY.toInt = (extentOf found).iMaxY.toInt := by
  induction after using List.reverseRecOn with
  | nil => rw [List.append_nil]
  | append_singleton after u ih =>
      have hkept := ih fun v hv => hafter v (List.mem_append_left _ hv)
      have hlast := hafter u (by simp)
      rw [← List.append_assoc, extentOf_iMaxY_concat, hkept, if_neg (by omega)]

/-- The lower edge is right exactly when a lowest glyph is taken last. -/
theorem isGreatest_iMaxY_iff {found : List FontBitMap} (hfound : found ≠ [])
    (hplaced : ∀ t ∈ found, t.WellPlaced) :
    IsGreatest {y | ∃ t ∈ found, t.iYMax.toInt = y} (extentOf found).iMaxY.toInt ↔
      LowestTaken found := by
  constructor
  · intro hgreatest
    obtain hnone | ⟨before, t, after, hsplit, hedge, hbefore, hafter⟩ :=
      extentOf_iMaxY_cases found
    · obtain ⟨u, hu⟩ := List.exists_mem_of_ne_nil found hfound
      have hbound := hgreatest.2 ⟨u, hu, rfl⟩
      have hbottom := (hplaced u hu).bottom
      omega
    · refine ⟨before, t, after, hsplit, fun u hu => ?_, hbefore, hafter⟩
      rw [← hedge]
      exact hgreatest.2 ⟨u, hu, rfl⟩
  · intro htaken
    obtain ⟨before, t, after, hsplit, hlowest, hbefore, hafter⟩ := htaken
    have hedge : (extentOf (before ++ [t])).iMaxY.toInt = t.iYMax.toInt := by
      rw [extentOf_iMaxY_concat, if_pos hbefore]
    have hall : (extentOf found).iMaxY.toInt = t.iYMax.toInt := by
      rw [hsplit, ← hedge, List.append_cons, extentOf_iMaxY_append]
      intro u hu
      rw [hedge]
      exact hafter u hu
    rw [hall]
    refine ⟨⟨t, by rw [hsplit]; simp, rfl⟩, fun y hy => ?_⟩
    obtain ⟨u, hu, rfl⟩ := hy
    exact hlowest u hu

/-- **The box of a text.**  After the measuring loop the left, the upper and the right edge are
those of the box around all glyphs found.  The lower edge is as well exactly when a glyph that
reaches lowest is taken and none behind it replaces it. -/
theorem text_box_iff (font : Font) (codes : List UInt32) (t : FontBitMap)
    (hplaced : ∀ u ∈ foundGlyphs font codes 0 t, u.WellPlaced) :
    let found := foundGlyphs font codes 0 t
    let e := (measure font codes 0 t {}).2
    (found ≠ [] →
      IsLeast {x | ∃ u ∈ found, u.iXLeft.toInt = x} e.iMinX.toInt ∧
      IsLeast {y | ∃ u ∈ found, u.iYTop.toInt = y} e.iMinY.toInt ∧
      IsGreatest {x | ∃ u ∈ found, u.iXMax.toInt = x} e.iMaxX.toInt) ∧
    ((found ≠ [] → IsTextBox found e) ↔ found = [] ∨ LowestTaken found) := by
  intro found e
  have he : e = extentOf found := measure_extent font codes 0 t {}
  rw [he]
  refine ⟨fun hfound => extentOf_edges hfound hplaced, ?_⟩
  by_cases hfound : found = []
  · exact iff_of_true (fun hne => absurd hfound hne) (Or.inl hfound)
  · obtain ⟨hleft, htop, hright⟩ := extentOf_edges hfound hplaced
    have hbottom := isGreatest_iMaxY_iff hfound hplaced
    constructor
    · intro hbox
      exact Or.inr (hbottom.mp (hbox hfound).bottom)
    · intro htaken _
      exact ⟨hleft, htop, hright, hbottom.mpr (htaken.resolve_left hfound)⟩

/-- A font whose glyphs are full boxes, 10 pixels wide and as high as the code says, below
and to the right of the origin. -/
def blockFont (text : List UInt32) : Font where
  measured := text
  drawn := text
  getFontBitmap _ dwCode t := (0, {
    iXLeft := t.iCurOriginX
    iYTop := t.iCurOriginY
    iXMax := t.iCurOriginX + 10
    iYMax := t.iCurOriginY + dwCode.toInt32
    iBpp := 8
    iPitch := 10
    iCurOriginX := t.iCurOriginX
    iCurOriginY := t.iCurOriginY
    iNextOriginX := t.iCurOriginX + 10
    iNextOriginY := t.iCurOriginY
    pucBuffer := fun _ => 0xFF })

/-- The `T_FontBitMap` before the first glyph. -/
def atOrigin : FontBitMap := ⟨0, 0, 0, 0, 0, 0, 0, 0, 0, 0, fun _ => 0⟩

/-- The box around a glyph of 5 lines and one of 8. -/
theorem text_box_of_rising_glyphs :
    IsTextBox (foundGlyphs (blockFont [5, 8]) [5, 8] 0 atOrigin)
      (measure (blockFont [5, 8]) [5, 8] 0 atOrigin {}).2 := by
  have hfound : ∃ t u, foundGlyphs (blockFont [5, 8]) [5, 8] 0 atOrigin = [t, u] ∧
      t.WellPlaced ∧ u.WellPlaced ∧ t.iYMax.toInt ≤ u.iYMax.toInt ∧
      (extentOf [t]).iMaxY.toInt < u.iXMax.toInt :=
    ⟨_, _, rfl, ⟨by decide, by decide, by decide, by decide⟩,
      ⟨by decide, by decide, by decide, by decide⟩, by decide, by decide⟩
  obtain ⟨t, u, hfound, ht, hu, hlower, hpast⟩ := hfound
  have hplaced : ∀ v ∈ foundGlyphs (blockFont [5, 8]) [5, 8] 0 atOrigin, v.WellPlaced := by
    simp [hfound, ht, hu]
  obtain ⟨-, hbox⟩ := text_box_iff (blockFont [5, 8]) [5, 8] atOrigin hplaced
  apply hbox.mpr
  · right
    rw [hfound]
    exact ⟨[t], u, [], rfl, by simp [hlower], hpast, by simp⟩
  · simp [hfound]

/-- A glyph of 20 lines and one of 30: the second one ends in column 20, and that is not to the
right of line 20. -/
theorem lower_glyph_missed :
    (∀ u ∈ foundGlyphs (blockFont [20, 30]) [20, 30] 0 atOrigin, u.WellPlaced) ∧
      (foundGlyphs (blockFont [20, 30]) [20, 30] 0 atOrigin).map (·.iYMax) = [20, 30] ∧
      (measure (blockFont [20, 30]) [20, 30] 0 atOrigin {}).2.iMaxY = 20 ∧
      ¬ IsTextBox (foundGlyphs (blockFont [20, 30]) [20, 30] 0 atOrigin)
        (measure (blockFont [20, 30]) [20, 30] 0 atOrigin {}).2 := by
  have hfound : ∃ t u, foundGlyphs (blockFont [20, 30]) [20, 30] 0 atOrigin = [t, u] ∧
      t.WellPlaced ∧ u.WellPlaced ∧ t.iYMax = 20 ∧ u.iYMax = 30 :=
    ⟨_, _, rfl, ⟨by decide, by decide, by decide, by decide⟩,
      ⟨by decide, by decide, by decide, by decide⟩, by decide, by decide⟩
  have hedge : (measure (blockFont [20, 30]) [20, 30] 0 atOrigin {}).2.iMaxY = 20 := by decide
  obtain ⟨t, u, hfound, ht, hu, htop, hlow⟩ := hfound
  rw [hfound]
  refine ⟨by simp [ht, hu], by simp [htop, hlow], hedge, fun hbox => ?_⟩
  have hbound := hbox.bottom.2 ⟨u, by simp, rfl⟩
  rw [hedge, hlow] at hbound
  exact absurd hbound (by decide)

/-! ## What the text is drawn on -/

/-- The test of the source. -/
theorem isFontInArea_ne {layout : Layout} {t : FontBitMap} (h : isFontInArea layout t ≠ 0) :
    layout.iTopLeftX.toInt ≤ t.iXLeft.toInt ∧ t.iXMax.toInt ≤ layout.iBotRightX.toInt ∧
      layout.iTopLeftY.toInt ≤ t.iYTop.toInt ∧ t.iYMax.toInt ≤ layout.iBotRightY.toInt := by
  unfold isFontInArea at h
  split at h
  · rename_i harea
    simpa only [ge_iff_le, Int32.le_iff_toInt_le] using harea
  · exact absurd rfl h

section Confined

variable {vm : Picture} {w h p : Nat} {layout : Layout}

/-- A glyph that passes the test is drawn on pixels of the rectangle. -/
theorem confined_glyph (hvm : Allocated vm w h p) (hin : layout.Inside w h) {t : FontBitMap}
    (harea : isFontInArea layout t ≠ 0) :
    Confined vm.aucPixelDatas.toNat layout.rect (w * p) p (mergeOneFontToVideoMem t vm).2 := by
  obtain ⟨hleft, hright, htop, hbottom⟩ := isFontInArea_ne harea
  have hw := hvm.width_lt
  have hh := hvm.height_lt
  have hbox := hin
  obtain ⟨hx0, -, hx1, hy0, -, hy1⟩ := hbox
  intro piece hpiece
  obtain ⟨r, hr, c, hc, color, hstored⟩ := mem_mergeOneFont hpiece
  simp only [roundsBelow] at hr hc
  have hx : t.iXLeft.toInt = (t.iXLeft.toInt.toNat : Int) := by omega
  have hy : t.iYTop.toInt = (t.iYTop.toInt.toNat : Int) := by omega
  rw [hvm.setColor_eq color (toInt_counter hx (by omega)) (toInt_counter hy (by omega))
    (by omega) (by omega), List.mem_singleton] at hstored
  rw [hstored]
  refine ⟨_, _, ?_, rfl, hvm.length_colorBytes color⟩
  simp only [Rect.Has, Layout.rect, rounds]
  omega

/-- The drawing loop draws glyph after glyph on such pixels, and its result is 0 or -1. -/
theorem confined_drawString (hvm : Allocated vm w h p) (hin : layout.Inside w h) (font : Font)
    (codes : List UInt32) (bHasGetCode : Bool) (calls : Nat) (t : FontBitMap) :
    let (ret, stored) := drawString font layout vm codes bHasGetCode calls t
    (ret = 0 ∨ ret = -1) ∧ Confined vm.aucPixelDatas.toNat layout.rect (w * p) p stored := by
  induction codes generalizing bHasGetCode calls t with
  | nil =>
      cases bHasGetCode with
      | false => exact ⟨Or.inr rfl, Confined.nil _ _ _ _⟩
      | true => exact ⟨Or.inl rfl, Confined.nil _ _ _ _⟩
  | cons dwCode rest ih =>
      simp only [drawString]
      split
      · split
        · rename_i harea
          have hglyph := confined_glyph hvm hin harea
          split
          · exact ⟨Or.inr rfl, hglyph⟩
          · obtain ⟨hret, hrest⟩ := ih true (calls + 1)
              (font.getFontBitmap calls dwCode t).2.advance
            exact ⟨hret, hglyph.append hrest⟩
        · exact ⟨Or.inl rfl, Confined.nil _ _ _ _⟩
      · exact ih true (calls + 1) (font.getFontBitmap calls dwCode t).2

/-- Every path through the function stores in the rectangle. -/
theorem confined_merger (hvm : Allocated vm w h p) (hin : layout.Inside w h) (font : Font)
    (tFontBitMap : FontBitMap) :
    let (ret, stored) := mergerStringToCenterOfRectangleInVideoMem font layout tFontBitMap vm
    (ret = 0 ∨ ret = -1) ∧ Confined vm.aucPixelDatas.toNat layout.rect (w * p) p stored := by
  have hcleared : Confined vm.aucPixelDatas.toNat layout.rect (w * p) p
      (clearRectangleInVideoMem layout.iTopLeftX layout.iTopLeftY layout.iBotRightX
        layout.iBotRightY vm COLOR_BACKGROUND) := by
    rw [hvm.clearRectangle_eq hin]
    exact confined_pixels _ _ _ fun _ _ => hvm.length_colorBytes _
  simp only [mergerStringToCenterOfRectangleInVideoMem]
  split
  · exact ⟨Or.inr rfl, hcleared⟩
  · generalize measure font font.measured 0 _ {} = measured
    split
    · exact ⟨Or.inr rfl, hcleared⟩
    · obtain ⟨hret, hdrawn⟩ := confined_drawString hvm hin font font.drawn false
        font.measured.length _
      exact ⟨hret, hcleared.append hdrawn⟩

end Confined

/-- **The rectangle of a text.**  Whatever the text and the glyphs are, and whether the
function succeeds or not, every byte that belongs to no pixel of the rectangle is what it
was. -/
theorem text_stays_in_rectangle {vm : Picture} {w h p : Nat} (hvm : Allocated vm w h p)
    {layout : Layout} (hin : layout.Inside w h) (font : Font) (tFontBitMap : FontBitMap)
    (m : Memory) :
    let (ret, stored) := mergerStringToCenterOfRectangleInVideoMem font layout tFontBitMap vm
    (ret = 0 ∨ ret = -1) ∧
      ∀ a, a < vm.aucPixelDatas.toNat ∨
        ¬ layout.rect.Covers (w * p) p (a - vm.aucPixelDatas.toNat) →
        writeAll m stored a = m a := by
  obtain ⟨hret, hconfined⟩ := confined_merger hvm hin font tFontBitMap
  exact ⟨hret, fun a ha => hconfined.writeAll_eq m ha⟩

/-- A picture of 12 times 8 pixels of one byte. -/
def smallPicture : Picture := ⟨12, 8, 8, 12, 96, 0x100⟩

/-- A text of one glyph in the upper six lines: the glyph is drawn, and the last line keeps its
bytes. -/
theorem line_below_text_kept :
    (mergerStringToCenterOfRectangleInVideoMem (blockFont [4]) ⟨0, 0, 10, 5⟩ atOrigin
        smallPicture).2.length = 106 ∧
      ∀ x < 12, writeAll (fun _ => 7) (mergerStringToCenterOfRectangleInVideoMem (blockFont [4])
        ⟨0, 0, 10, 5⟩ atOrigin smallPicture).2 (0x100 + 84 + x) = 7 := by
  have hvm : Allocated smallPicture 12 8 1 :=
    ⟨⟨rfl, rfl, rfl, rfl, by decide, by decide⟩, by decide, rfl, by decide⟩
  have hin : (⟨0, 0, 10, 5⟩ : Layout).Inside 12 8 :=
    ⟨by decide, by decide, by decide, by decide, by decide, by decide⟩
  have hrect : (⟨0, 0, 10, 5⟩ : Layout).rect = ⟨0, 0, 11, 6⟩ := rfl
  have hbase : smallPicture.aucPixelDatas.toNat = 0x100 := rfl
  obtain ⟨-, hkept⟩ := text_stays_in_rectangle hvm hin (blockFont [4]) atOrigin fun _ => 7
  refine ⟨by decide +kernel, fun x hx => hkept _ (Or.inr ?_)⟩
  rw [hrect, hbase]
  rintro ⟨x', hx', y', hy', -, hhigh⟩
  simp only at hx' hy' hhigh
  omega

end Video2lcd.InMemory
