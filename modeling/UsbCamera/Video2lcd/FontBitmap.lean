import Mathlib.Data.Nat.Bitwise
import UsbCamera.Video2lcd.RectFill

/-!
# Drawing a glyph

`MergeOneFontToVideoMem` draws the bitmap of a glyph into a `VideoMem`, every element of
it in the colour of the text or of the background.  A bitmap has one bit for an element
or one byte, and `iPitch` says how many bytes its rows are apart.

Both branches go through the box of the glyph line by line and differ in how they come
to the next element.  So there is one pair of loops here, over a state that the branch
chooses: for bits the bit number, the byte at hand and the index of the next byte, for
bytes the index alone.  The loop for bits sets its index anew for every line.  The loop
for bytes just counts on, and the pitch does not come into it; so it takes a bitmap
apart as if its rows followed one another (`glyph_encodings_agree_iff`).
-/

namespace Video2lcd.InMemory

open ByteStore CInt Raster Myuvc

/-- The colours of `config.h`. -/
def COLOR_BACKGROUND : UInt32 := 0xE7DBB5

def COLOR_FOREGROUND : UInt32 := 0x514438

/-- `T_FontBitMap`.  The buffer is known by its bytes; an index is an `int`. -/
structure FontBitMap where
  iXLeft : Int32
  iYTop : Int32
  iXMax : Int32
  iYMax : Int32
  iBpp : Int32
  iPitch : Int32
  iCurOriginX : Int32
  iCurOriginY : Int32
  iNextOriginX : Int32
  iNextOriginY : Int32
  pucBuffer : Int32 → UInt8

/-- How often `for (i = first; i < last; i++)` goes round. -/
def roundsBelow (first last : Int32) : Nat := (last.toInt - first.toInt).toNat

/-! ## The loops -/

section Loops

variable {σ : Type}

/-- The colour of an element. -/
def elementColor (isSet : Bool) : UInt32 := if isSet then COLOR_FOREGROUND else COLOR_BACKGROUND

/-- The inner loop, which ends with -1 when the depth of the `VideoMem` is unknown. -/
def drawColumns (next : σ → Bool × σ) (vm : Picture) (y : Int32) :
    Nat → Int32 → σ → Int32 × σ × Stores
  | 0, _, s => (0, s, [])
  | n + 1, x, s =>
      let (isSet, s) := next s
      let (iNum, stored) := setColorForPixelInVideoMem x y vm (elementColor isSet)
      if iNum = -1 then (-1, s, stored)
      else
        let (ret, s, rest) := drawColumns next vm y n (x + 1) s
        (ret, s, stored ++ rest)

/-- The outer loop; `start` is what it does to the state before a line. -/
def drawLines (next : σ → Bool × σ) (start : Int32 → σ → σ) (vm : Picture) (columns : Nat)
    (iXLeft : Int32) : Nat → Int32 → σ → Int32 × σ × Stores
  | 0, _, s => (0, s, [])
  | n + 1, y, s =>
      let (ret, s, line) := drawColumns next vm y columns iXLeft (start y s)
      if ret = -1 then (-1, s, line)
      else
        let (ret, s, rest) := drawLines next start vm columns iXLeft n (y + 1) s
        (ret, s, line ++ rest)

end Loops

/-- The variables of the branch for bits. -/
structure MonoState where
  bit : Int32
  ucByte : UInt8
  i : Int32

/-- A new byte is fetched when the last one is used up. -/
def FontBitMap.fetch (font : FontBitMap) (s : MonoState) : MonoState :=
  if s.bit = 7 then { s with ucByte := font.pucBuffer s.i, i := s.i + 1 } else s

/-- The next bit. -/
def FontBitMap.nextBit (font : FontBitMap) (s : MonoState) : Bool × MonoState :=
  let s := font.fetch s
  let isSet := decide (s.ucByte.toUInt32 &&& (1 : UInt32) <<< s.bit.toUInt32 ≠ 0)
  let bit := s.bit - 1
  (isSet, { s with bit := if bit = -1 then 7 else bit })

/-- What the branch for bits does before a line. -/
def FontBitMap.startBits (font : FontBitMap) (y : Int32) (s : MonoState) : MonoState :=
  { s with i := (y - font.iYTop) * font.iPitch, bit := 7 }

/-- The next byte. -/
def FontBitMap.nextByte (font : FontBitMap) (i : Int32) : Bool × Int32 :=
  (decide (font.pucBuffer i ≠ 0), i + 1)

/-- `MergeOneFontToVideoMem`. -/
def mergeOneFontToVideoMem (font : FontBitMap) (vm : Picture) : Int32 × Stores :=
  let columns := roundsBelow font.iXLeft font.iXMax
  let lines := roundsBelow font.iYTop font.iYMax
  if font.iBpp = 1 then
    let (ret, _, stored) := drawLines font.nextBit font.startBits vm columns font.iXLeft lines
      font.iYTop ⟨7, 0, 0⟩
    (ret, stored)
  else if font.iBpp = 8 then
    let (ret, _, stored) := drawLines font.nextByte (fun _ i => i) vm columns font.iXLeft lines
      font.iYTop 0
    (ret, stored)
  else (-1, [])

/-! ## What the loops store -/

section Loops

variable {σ : Type} {next : σ → Bool × σ} {start : Int32 → σ → σ} {vm : Picture}

/-- Whatever the bitmap is, the inner loop stores at pixels of its line only. -/
theorem mem_drawColumns {y : Int32} {n : Nat} {x : Int32} {s : σ} {piece : Nat × List UInt8}
    (h : piece ∈ (drawColumns next vm y n x s).2.2) :
    ∃ c < n, ∃ color, piece ∈ (setColorForPixelInVideoMem (x + Int32.ofNat c) y vm color).2 := by
  induction n generalizing x s with
  | zero => cases h
  | succ n ih =>
      simp only [drawColumns] at h
      have hfirst : piece ∈ (setColorForPixelInVideoMem x y vm (elementColor (next s).1)).2 →
          ∃ c < n + 1, ∃ color,
            piece ∈ (setColorForPixelInVideoMem (x + Int32.ofNat c) y vm color).2 := by
        intro hpiece
        refine ⟨0, by omega, elementColor (next s).1, ?_⟩
        rw [counter_zero]
        exact hpiece
      split at h
      · exact hfirst h
      · obtain hhere | hrest := List.mem_append.mp h
        · exact hfirst hhere
        · obtain ⟨c, hc, color, hpiece⟩ := ih hrest
          rw [counter_next] at hpiece
          exact ⟨c + 1, by omega, color, hpiece⟩

/-- The outer loop stores at pixels of its lines only. -/
theorem mem_drawLines {columns : Nat} {iXLeft : Int32} {n : Nat} {y : Int32} {s : σ}
    {piece : Nat × List UInt8}
    (h : piece ∈ (drawLines next start vm columns iXLeft n y s).2.2) :
    ∃ r < n, ∃ c < columns, ∃ color,
      piece ∈ (setColorForPixelInVideoMem (iXLeft + Int32.ofNat c) (y + Int32.ofNat r) vm
        color).2 := by
  induction n generalizing y s with
  | zero => cases h
  | succ n ih =>
      simp only [drawLines] at h
      have hfirst : piece ∈ (drawColumns next vm y columns iXLeft (start y s)).2.2 →
          ∃ r < n + 1, ∃ c < columns, ∃ color,
            piece ∈ (setColorForPixelInVideoMem (iXLeft + Int32.ofNat c) (y + Int32.ofNat r) vm
              color).2 := by
        intro hpiece
        obtain ⟨c, hc, color, hstored⟩ := mem_drawColumns hpiece
        refine ⟨0, by omega, c, hc, color, ?_⟩
        rw [counter_zero y]
        exact hstored
      split at h
      · exact hfirst h
      · obtain hhere | hrest := List.mem_append.mp h
        · exact hfirst hhere
        · obtain ⟨r, hr, c, hc, color, hpiece⟩ := ih hrest
          rw [counter_next y] at hpiece
          exact ⟨r + 1, by omega, c, hc, color, hpiece⟩

/-- So does the drawing of a glyph, whatever its depth. -/
theorem mem_mergeOneFont {font : FontBitMap} {piece : Nat × List UInt8}
    (h : piece ∈ (mergeOneFontToVideoMem font vm).2) :
    ∃ r < roundsBelow font.iYTop font.iYMax, ∃ c < roundsBelow font.iXLeft font.iXMax, ∃ color,
      piece ∈ (setColorForPixelInVideoMem (font.iXLeft + Int32.ofNat c)
        (font.iYTop + Int32.ofNat r) vm color).2 := by
  unfold mergeOneFontToVideoMem at h
  simp only at h
  split at h
  · exact mem_drawLines h
  · split at h
    · exact mem_drawLines h
    · cases h

end Loops

namespace Allocated

variable {σ : Type} {next : σ → Bool × σ} {start : Int32 → σ → σ} {vm : Picture} {w h p : Nat}

/-- A `VideoMem` of a known depth takes every pixel. -/
theorem setColor_ne (hvm : Allocated vm w h p) (iX iY : Int32) (dwColor : UInt32) :
    (setColorForPixelInVideoMem iX iY vm dwColor).1 ≠ -1 := by
  unfold setColorForPixelInVideoMem
  simp only
  rw [hvm.switch_eq]
  split
  · exact (by decide : (1 : Int32) ≠ -1)
  split
  · exact (by decide : (2 : Int32) ≠ -1)
  · exact (by decide : (4 : Int32) ≠ -1)

/-- A line of elements, each at its place.  The states that the loop goes through are
given, with the element that each yields. -/
theorem drawColumns_eq (hvm : Allocated vm w h p) {iY : Int32} {y : Nat} (hy : iY.toInt = y)
    (hyh : y < h) {n : Nat} {iX : Int32} {x : Nat} (hx : iX.toInt = x) (hxw : x + n ≤ w)
    (state : Nat → σ) (element : Nat → Bool)
    (hnext : ∀ c < n, next (state c) = (element c, state (c + 1))) :
    drawColumns next vm iY n iX (state 0) = (0, state n, (List.range n).map fun c =>
      (vm.aucPixelDatas.toNat + (y * (w * p) + (x + c) * p),
        colorBytes p (elementColor (element c)))) := by
  have hw := hvm.width_lt
  induction n generalizing iX x state element with
  | zero => rfl
  | succ n ih =>
      have hx' : (iX + 1).toInt = ((x + 1 : Nat) : Int) := toInt_counter (i := 1) hx (by omega)
      have hrest := ih hx' (by omega) (fun c => state (c + 1)) (fun c => element (c + 1))
        fun c hc => hnext (c + 1) (by omega)
      simp only [drawColumns, hnext 0 (by omega), if_neg (hvm.setColor_ne _ _ _), hrest,
        hvm.setColor_eq _ hx hy (by omega) hyh, List.range_succ_eq_map, List.map_cons, List.map_map]
      refine congrArg _ (congrArg _ (congrArg _ ?_))
      apply List.map_congr_left
      intro c _
      simp only [Function.comp_apply, Nat.succ_eq_add_one]
      rw [Nat.add_assoc x 1 c, Nat.add_comm 1 c]

/-- **The box of a glyph.**  If from every state that can come before line `r` the loops go
through states that yield the elements of that line, they draw all elements. -/
theorem drawLines_eq (hvm : Allocated vm w h p) {columns : Nat} {iXLeft : Int32} {x : Nat}
    (hx : iXLeft.toInt = x) (hxw : x + columns ≤ w) {n : Nat} {iY : Int32} {y : Nat}
    (hy : iY.toInt = y) (hyh : y + n ≤ h) (Before : Nat → σ → Prop)
    (element : Nat → Nat → Bool)
    (hline : ∀ r < n, ∀ s, Before r s → ∃ state : Nat → σ,
      start (iY + Int32.ofNat r) s = state 0 ∧ Before (r + 1) (state columns) ∧
      ∀ c < columns, next (state c) = (element r c, state (c + 1)))
    {s : σ} (hs : Before 0 s) :
    ∃ t, drawLines next start vm columns iXLeft n iY s = (0, t, (List.range n).flatMap fun r =>
      (List.range columns).map fun c =>
        (vm.aucPixelDatas.toNat + ((y + r) * (w * p) + (x + c) * p),
          colorBytes p (elementColor (element r c)))) := by
  have hh := hvm.height_lt
  induction n generalizing iY y Before element s with
  | zero => exact ⟨s, rfl⟩
  | succ n ih =>
      obtain ⟨state, hstart, hbefore, hnext⟩ := hline 0 (by omega) s hs
      have hy' : (iY + 1).toInt = ((y + 1 : Nat) : Int) := toInt_counter (i := 1) hy (by omega)
      have hfirst := hvm.drawColumns_eq hy (by omega) hx hxw state (element 0) hnext
      obtain ⟨t, hrest⟩ := ih hy' (by omega) (fun r => Before (r + 1))
        (fun r => element (r + 1)) (fun r hr s hs => by
          rw [counter_next]
          exact hline (r + 1) (by omega) s hs) hbefore
      refine ⟨t, ?_⟩
      rw [counter_zero] at hstart
      simp only [drawLines, hstart, hfirst, if_neg (by decide : ¬ (0 : Int32) = -1), hrest,
        List.range_succ_eq_map, List.flatMap_cons, List.flatMap_map]
      refine congrArg _ (congrArg _ (congrArg _ ?_))
      apply List.flatMap_congr
      intro r _
      rw [Nat.add_assoc y 1 r, Nat.add_comm 1 r]

end Allocated

/-! ## Elements -/

/-- The box of a glyph; the column `iXMax` and the line `iYMax` do not belong to it. -/
structure Box where
  iXLeft : Int32
  iYTop : Int32
  iXMax : Int32
  iYMax : Int32

def FontBitMap.box (font : FontBitMap) : Box := ⟨font.iXLeft, font.iYTop, font.iXMax, font.iYMax⟩

def Box.rect (box : Box) : Rect :=
  ⟨box.iXLeft.toInt.toNat, box.iYTop.toInt.toNat, roundsBelow box.iXLeft box.iXMax,
    roundsBelow box.iYTop box.iYMax⟩

/-- A box inside a picture. -/
structure Box.Inside (box : Box) (w h : Nat) : Prop where
  left : 0 ≤ box.iXLeft.toInt
  columns : box.iXLeft.toInt ≤ box.iXMax.toInt
  right : box.iXMax.toInt ≤ w
  top : 0 ≤ box.iYTop.toInt
  lines : box.iYTop.toInt ≤ box.iYMax.toInt
  bottom : box.iYMax.toInt ≤ h

namespace Box.Inside

variable {box : Box} {w h : Nat}

theorem left_eq (hin : box.Inside w h) : box.iXLeft.toInt = box.rect.left :=
  (Int.toNat_of_nonneg hin.left).symm

theorem top_eq (hin : box.Inside w h) : box.iYTop.toInt = box.rect.top :=
  (Int.toNat_of_nonneg hin.top).symm

theorem right_le (hin : box.Inside w h) : box.rect.left + box.rect.width ≤ w := by
  have hleft := hin.left
  have hcolumns := hin.columns
  have hright := hin.right
  simp only [Box.rect, roundsBelow]
  omega

theorem bottom_le (hin : box.Inside w h) : box.rect.top + box.rect.height ≤ h := by
  have htop := hin.top
  have hlines := hin.lines
  have hbottom := hin.bottom
  simp only [Box.rect, roundsBelow]
  omega

end Box.Inside

/-- The bytes from one row to the next. -/
def FontBitMap.pitch (font : FontBitMap) : Nat := font.iPitch.toInt.toNat

/-- Element `(r, c)` of a bitmap with one bit for an element, the highest bit first. -/
def FontBitMap.bitAt (font : FontBitMap) (r c : Nat) : Bool :=
  (font.pucBuffer (Int32.ofNat (r * font.pitch + c / 8))).toNat.testBit (7 - c % 8)

/-- Element `(r, c)` of a bitmap with one byte for an element. -/
def FontBitMap.byteAt (font : FontBitMap) (r c : Nat) : Bool :=
  decide (font.pucBuffer (Int32.ofNat (r * font.pitch + c)) ≠ 0)

/-- The element that the loop for bytes takes for `(r, c)`, in a box of that width. -/
def FontBitMap.runningByteAt (font : FontBitMap) (width r c : Nat) : Bool :=
  decide (font.pucBuffer (Int32.ofNat (r * width + c)) ≠ 0)

/-- A glyph in the colours of the text. -/
def glyph (p : Nat) (element : Nat → Nat → Bool) (c r : Nat) : List UInt8 :=
  colorBytes p (elementColor (element r c))

/-- The test of a bit. -/
theorem test_bit (b : UInt8) {k : Nat} (hk : k < 8) :
    decide (b.toUInt32 &&& (1 : UInt32) <<< (7 - Int32.ofNat k).toUInt32 ≠ 0) =
      b.toNat.testBit (7 - k) := by
  have hmask : ((1 : UInt32) <<< (7 - Int32.ofNat k).toUInt32).toNat = 2 ^ (7 - k) := by
    interval_cases k <;> rfl
  have hzero : (0 : UInt32).toNat = 0 := rfl
  rw [Bool.eq_iff_iff, decide_eq_true_iff, ne_eq, ← UInt32.toNat_inj, UInt32.toNat_and, hmask,
    UInt8.toNat_toUInt32, Nat.and_two_pow, hzero]
  cases b.toNat.testBit (7 - k) <;> simp

/-- The bit number counts down and starts again. -/
theorem next_bit {k : Nat} (hk : k < 8) :
    (7 - Int32.ofNat k = 7 ↔ k = 0) ∧
      (if 7 - Int32.ofNat k - 1 = -1 then 7 else 7 - Int32.ofNat k - 1) =
        7 - Int32.ofNat ((k + 1) % 8) := by
  interval_cases k <;> decide

/-- The states of the loop for bits in a row that begins at byte `a`, with the byte that
was at hand before. -/
def FontBitMap.bitState (font : FontBitMap) (a : Nat) (ucByte : UInt8) (c : Nat) : MonoState where
  bit := 7 - Int32.ofNat (c % 8)
  ucByte := if c = 0 then ucByte else font.pucBuffer (Int32.ofNat (a + (c - 1) / 8))
  i := Int32.ofNat (a + (c + 7) / 8)

/-- After the fetch the byte with the element is at hand, and the index is behind it. -/
theorem FontBitMap.fetch_bitState (font : FontBitMap) (a : Nat) (ucByte : UInt8) (c : Nat) :
    font.fetch (font.bitState a ucByte c) =
      ⟨7 - Int32.ofNat (c % 8), font.pucBuffer (Int32.ofNat (a + c / 8)),
        Int32.ofNat (a + (c + 1 + 7) / 8)⟩ := by
  have hseven := (next_bit (Nat.mod_lt c (by omega : 0 < 8))).1
  by_cases hzero : c % 8 = 0
  · have hhere : (c + 7) / 8 = c / 8 := by omega
    have hbehind : a + (c + 1 + 7) / 8 = a + c / 8 + 1 := by omega
    have hindex : Int32.ofNat (a + c / 8) + 1 = Int32.ofNat (a + c / 8 + 1) :=
      (Int32.ofNat_add _ _).symm
    rw [fetch, bitState, if_pos (hseven.mpr hzero), hhere, hbehind, ← hindex]
  · have hhere : (c - 1) / 8 = c / 8 := by omega
    have hbehind : (c + 7) / 8 = (c + 1 + 7) / 8 := by omega
    have hpos : c ≠ 0 := by
      intro h
      exact hzero (by rw [h])
    rw [fetch, bitState, if_neg (mt hseven.mp hzero), if_neg hpos, hhere, hbehind]

/-- From one element of a row to the next. -/
theorem FontBitMap.nextBit_bitState (font : FontBitMap) (r : Nat) (ucByte : UInt8) (c : Nat) :
    font.nextBit (font.bitState (r * font.pitch) ucByte c) =
      (font.bitAt r c, font.bitState (r * font.pitch) ucByte (c + 1)) := by
  have hlt : c % 8 < 8 := Nat.mod_lt c (by omega)
  have hbit : (c % 8 + 1) % 8 = (c + 1) % 8 := by omega
  have hnext := (next_bit hlt).2
  rw [hbit] at hnext
  unfold nextBit
  rw [fetch_bitState]
  simp only [test_bit _ hlt, hnext]
  rfl

/-- A row of bits, whatever was at hand before. -/
theorem FontBitMap.startBits_eq {font : FontBitMap} (hpitch : 0 ≤ font.iPitch.toInt) (r : Nat)
    (s : MonoState) :
    font.startBits (font.iYTop + Int32.ofNat r) s = font.bitState (r * font.pitch) s.ucByte 0 := by
  have hword : Int32.ofNat font.pitch = font.iPitch := by
    have hlt := font.iPitch.toInt_lt
    rw [← Int32.toInt_inj, Int32.toInt_ofNat_of_lt (by unfold pitch; omega)]
    exact Int.toNat_of_nonneg hpitch
  have hindex : (font.iYTop + Int32.ofNat r - font.iYTop) * font.iPitch =
      Int32.ofNat (r * font.pitch + (0 + 7) / 8) := by
    have hrow : font.iYTop + Int32.ofNat r - font.iYTop = Int32.ofNat r := by grind
    rw [hrow, ← hword, ← Int32.ofNat_mul]
    rfl
  rw [startBits, hindex]
  rfl

/-- The loop for bytes counts on from row to row. -/
theorem FontBitMap.nextByte_eq (font : FontBitMap) (width r c : Nat) :
    font.nextByte (Int32.ofNat (r * width + c)) =
      (font.runningByteAt width r c, Int32.ofNat (r * width + (c + 1))) := by
  have hnext : Int32.ofNat (r * width + c) + 1 = Int32.ofNat (r * width + (c + 1)) :=
    (Int32.ofNat_add _ _).symm
  rw [nextByte, hnext]
  rfl

/-! ## What is drawn -/

/-- A picture, stored pixel by pixel in a rectangle. -/
def drawn (vm : Picture) (r : Rect) (w p : Nat) (picture : Nat → Nat → List UInt8) : Stores :=
  (pixels r (w * p) p picture).map fun piece => (vm.aucPixelDatas.toNat + piece.1, piece.2)

namespace Allocated

variable {vm : Picture} {w h p : Nat}

theorem drawn_overlaysAt (hvm : Allocated vm w h p) {r : Rect} (hright : r.left + r.width ≤ w)
    (element : Nat → Nat → Bool) (m : Memory) :
    OverlaysAt vm.aucPixelDatas.toNat r (w * p) p (glyph p element) m
      (writeAll m (drawn vm r w p (glyph p element))) := by
  apply overlaysAt_of_pieces
  exact overlays_pixels (Nat.mul_le_mul_right p hright)
    (fun _ _ => hvm.length_colorBytes _) _

/-- The loops draw a glyph when they come to its elements. -/
theorem drawLines_drawn {σ : Type} (hvm : Allocated vm w h p) {box : Box}
    (hin : box.Inside w h) (next : σ → Bool × σ) (start : Int32 → σ → σ)
    (Before : Nat → σ → Prop) (element : Nat → Nat → Bool)
    (hline : ∀ r s, Before r s → ∃ state : Nat → σ,
      start (box.iYTop + Int32.ofNat r) s = state 0 ∧ Before (r + 1) (state box.rect.width) ∧
      ∀ c, next (state c) = (element r c, state (c + 1)))
    {s : σ} (hs : Before 0 s) :
    ∃ t, drawLines next start vm box.rect.width box.iXLeft box.rect.height box.iYTop s =
      (0, t, drawn vm box.rect w p (glyph p element)) := by
  obtain ⟨t, ht⟩ := hvm.drawLines_eq hin.left_eq hin.right_le hin.top_eq hin.bottom_le Before
    element (fun r _ s hs => by
      obtain ⟨state, hstart, hbefore, hnext⟩ := hline r s hs
      exact ⟨state, hstart, hbefore, fun c _ => hnext c⟩) hs
  refine ⟨t, ?_⟩
  rw [ht, drawn, pixels, List.map_flatMap]
  simp only [List.map_map]
  rfl

/-- A bitmap of bits is drawn as it is. -/
theorem mergeOneFont_bits (hvm : Allocated vm w h p) {font : FontBitMap}
    (hin : font.box.Inside w h) (hbpp : font.iBpp = 1) (hpitch : 0 ≤ font.iPitch.toInt) :
    mergeOneFontToVideoMem font vm = (0, drawn vm font.box.rect w p (glyph p font.bitAt)) := by
  obtain ⟨t, ht⟩ := hvm.drawLines_drawn hin font.nextBit font.startBits (fun _ _ => True)
    font.bitAt (fun r s _ => ⟨font.bitState (r * font.pitch) s.ucByte,
      FontBitMap.startBits_eq hpitch r s, trivial, font.nextBit_bitState r s.ucByte⟩)
    (s := ⟨7, 0, 0⟩) trivial
  have hcall : drawLines font.nextBit font.startBits vm (roundsBelow font.iXLeft font.iXMax)
      font.iXLeft (roundsBelow font.iYTop font.iYMax) font.iYTop ⟨7, 0, 0⟩ =
      (0, t, drawn vm font.box.rect w p (glyph p font.bitAt)) := ht
  rw [mergeOneFontToVideoMem, if_pos hbpp, hcall]

/-- A bitmap of bytes is drawn as if its rows followed one another. -/
theorem mergeOneFont_bytes (hvm : Allocated vm w h p) {font : FontBitMap}
    (hin : font.box.Inside w h) (hbpp : font.iBpp = 8) :
    mergeOneFontToVideoMem font vm =
      (0, drawn vm font.box.rect w p (glyph p (font.runningByteAt font.box.rect.width))) := by
  obtain ⟨t, ht⟩ := hvm.drawLines_drawn hin font.nextByte (fun _ i => i)
    (fun r i => i = Int32.ofNat (r * font.box.rect.width))
    (font.runningByteAt font.box.rect.width)
    (fun r i hi => ⟨fun c => Int32.ofNat (r * font.box.rect.width + c), hi,
      by rw [Nat.succ_mul], font.nextByte_eq font.box.rect.width r⟩) (s := 0)
    (by rw [Nat.zero_mul]; rfl)
  have hcall : drawLines font.nextByte (fun _ i => i) vm (roundsBelow font.iXLeft font.iXMax)
      font.iXLeft (roundsBelow font.iYTop font.iYMax) font.iYTop 0 =
      (0, t, drawn vm font.box.rect w p (glyph p (font.runningByteAt font.box.rect.width))) := ht
  have hne : font.iBpp ≠ 1 := by
    rw [hbpp]
    decide
  rw [mergeOneFontToVideoMem, if_neg hne, if_pos hbpp, hcall]

/-- The two colours differ in every depth. -/
theorem elementColor_inj (hvm : Allocated vm w h p) {a b : Bool}
    (heq : colorBytes p (elementColor a) = colorBytes p (elementColor b)) : a = b := by
  obtain rfl | rfl | rfl := hvm.known <;> revert a b <;> decide

/-- So a glyph that is drawn twice is the same glyph. -/
theorem drawn_inj (hvm : Allocated vm w h p) {r : Rect} (hright : r.left + r.width ≤ w)
    {element element' : Nat → Nat → Bool} {m : Memory}
    (heq : writeAll m (drawn vm r w p (glyph p element)) =
      writeAll m (drawn vm r w p (glyph p element'))) :
    ∀ y < r.height, ∀ x < r.width, element y x = element' y x := by
  intro y hy x hx
  have hfirst := (hvm.drawn_overlaysAt hright element m).behind.inside x hx y hy
  have hsecond := (hvm.drawn_overlaysAt hright element' m).behind.inside x hx y hy
  rw [heq] at hfirst
  exact hvm.elementColor_inj (hfirst.symm.trans hsecond)

theorem drawn_congr (r : Rect) {element element' : Nat → Nat → Bool}
    (heq : ∀ y < r.height, ∀ x < r.width, element y x = element' y x) :
    drawn vm r w p (glyph p element) = drawn vm r w p (glyph p element') := by
  have hpixels : pixels r (w * p) p (glyph p element) = pixels r (w * p) p (glyph p element') := by
    unfold pixels
    apply List.flatMap_congr
    intro y hy
    apply List.map_congr_left
    intro x hx
    rw [glyph, glyph, heq y (List.mem_range.mp hy) x (List.mem_range.mp hx)]
  rw [drawn, drawn, hpixels]

end Allocated

/-- Rows without a gap, and a single row, are the same to the loop for bytes. -/
theorem FontBitMap.runningByteAt_eq {font : FontBitMap} {width r c : Nat}
    (h : font.iPitch.toInt = width ∨ r = 0) : font.runningByteAt width r c = font.byteAt r c := by
  have hindex : r * width = r * font.pitch := by
    obtain hpitch | hrow := h
    · have hwidth : font.pitch = width := by
        unfold pitch
        omega
      rw [hwidth]
    · rw [hrow, Nat.zero_mul, Nat.zero_mul]
  rw [runningByteAt, byteAt, hindex]

/-- **Both encodings.**  A glyph whose box is inside the picture is given with a bit and with
a byte for every element.  The bits are drawn as they are, with a foreground pixel for every
element that is set and a background pixel for every other.  The bytes leave the same memory
exactly when, counted on from row to row, they have the elements in the same places; so they
do if the rows follow one another without a gap or there is but one. -/
theorem glyph_encodings_agree_iff {vm : Picture} {w h p : Nat} (hvm : Allocated vm w h p)
    {mono gray : FontBitMap} (hmono : mono.iBpp = 1) (hgray : gray.iBpp = 8)
    (hbox : gray.box = mono.box) (hin : mono.box.Inside w h)
    (hrow : (mono.box.rect.width : Int) ≤ 8 * mono.iPitch.toInt)
    (hsame : ∀ r < mono.box.rect.height, ∀ c < mono.box.rect.width,
      gray.byteAt r c = mono.bitAt r c) (m : Memory) :
    (mergeOneFontToVideoMem mono vm).1 = 0 ∧
    OverlaysAt vm.aucPixelDatas.toNat mono.box.rect (w * p) p (glyph p mono.bitAt) m
      (writeAll m (mergeOneFontToVideoMem mono vm).2) ∧
    (mergeOneFontToVideoMem gray vm).1 = 0 ∧
    (writeAll m (mergeOneFontToVideoMem gray vm).2 =
        writeAll m (mergeOneFontToVideoMem mono vm).2 ↔
      ∀ r < mono.box.rect.height, ∀ c < mono.box.rect.width,
        gray.runningByteAt mono.box.rect.width r c = gray.byteAt r c) ∧
    (gray.iPitch.toInt = mono.box.rect.width ∨ mono.box.rect.height ≤ 1 →
      writeAll m (mergeOneFontToVideoMem gray vm).2 =
        writeAll m (mergeOneFontToVideoMem mono vm).2) := by
  have hbits := hvm.mergeOneFont_bits hin hmono (by omega)
  have hbytes := hvm.mergeOneFont_bytes (hbox ▸ hin) hgray
  rw [hbox] at hbytes
  have hiff : writeAll m (mergeOneFontToVideoMem gray vm).2 =
        writeAll m (mergeOneFontToVideoMem mono vm).2 ↔
      ∀ r < mono.box.rect.height, ∀ c < mono.box.rect.width,
        gray.runningByteAt mono.box.rect.width r c = gray.byteAt r c := by
    rw [hbits, hbytes]
    constructor
    · intro heq r hr c hc
      rw [hsame r hr c hc]
      exact hvm.drawn_inj hin.right_le heq r hr c hc
    · intro heq
      have hdrawn : drawn vm mono.box.rect w p
          (glyph p (gray.runningByteAt mono.box.rect.width)) =
          drawn vm mono.box.rect w p (glyph p mono.bitAt) := by
        apply Allocated.drawn_congr
        intro r hr c hc
        rw [heq r hr c hc, hsame r hr c hc]
      rw [hdrawn]
  refine ⟨by rw [hbits], ?_, by rw [hbytes], hiff, ?_⟩
  · rw [hbits]
    exact hvm.drawn_overlaysAt hin.right_le mono.bitAt m
  · intro hgap
    apply hiff.mpr
    intro r hr c hc
    apply FontBitMap.runningByteAt_eq
    omega

/-- A glyph of two by two elements with the diagonal set, as bits in rows of `iPitch` bytes. -/
def diagonalBits (iPitch : Int32) : FontBitMap where
  iXLeft := 0
  iYTop := 0
  iXMax := 2
  iYMax := 2
  iBpp := 1
  iPitch := iPitch
  iCurOriginX := 0
  iCurOriginY := 0
  iNextOriginX := 2
  iNextOriginY := 0
  pucBuffer := fun i => if i = 0 then 0x80 else if i = iPitch then 0x40 else 0

/-- The same glyph as bytes. -/
def diagonalBytes (iPitch : Int32) : FontBitMap :=
  { diagonalBits iPitch with
    iBpp := 8
    pucBuffer := fun i => if i = 0 ∨ i = iPitch + 1 then 0xFF else 0 }

/-- A picture of two by two pixels of one byte. -/
def tinyPicture : Picture := ⟨2, 2, 8, 2, 4, 0x100⟩

/-- In rows of two bytes the glyph is drawn the same way. -/
theorem dense_glyph_agrees :
    writeAll (fun _ => 0) (mergeOneFontToVideoMem (diagonalBytes 2) tinyPicture).2 =
      writeAll (fun _ => 0) (mergeOneFontToVideoMem (diagonalBits 2) tinyPicture).2 := by
  have hvm : Allocated tinyPicture 2 2 1 :=
    ⟨⟨rfl, rfl, rfl, rfl, by decide, by decide⟩, by decide, rfl, by decide⟩
  have hin : (diagonalBits 2).box.Inside 2 2 :=
    ⟨by decide, by decide, by decide, by decide, by decide, by decide⟩
  have hsame : ∀ r < (diagonalBits 2).box.rect.height, ∀ c < (diagonalBits 2).box.rect.width,
      (diagonalBytes 2).byteAt r c = (diagonalBits 2).bitAt r c := by decide
  have hbox : (diagonalBytes 2).box = (diagonalBits 2).box := rfl
  obtain ⟨-, -, -, -, hdense⟩ :=
    glyph_encodings_agree_iff hvm rfl rfl hbox hin (by decide) hsame fun _ => 0
  exact hdense (Or.inl rfl)

/-- In rows of four bytes the loop takes the gap for the second row, and the last pixel is
background where the bits have it in the foreground. -/
theorem padded_glyph_differs :
    (∀ r < 2, ∀ c < 2, (diagonalBytes 4).byteAt r c = (diagonalBits 4).bitAt r c) ∧
      writeAll (fun _ => 0) (mergeOneFontToVideoMem (diagonalBytes 4) tinyPicture).2 0x103 =
        0xB5 ∧
      writeAll (fun _ => 0) (mergeOneFontToVideoMem (diagonalBits 4) tinyPicture).2 0x103 =
        0x38 := by
  refine ⟨by decide, by decide, by decide⟩

end Video2lcd.InMemory
