import UsbCamera.Video2lcd.PictureMemory
import UsbCamera.Video2lcd.PixelPaths

/-!
# Filling a rectangle

Three functions fill a part of a `VideoMem` with a colour.  `ClearVideoMemRegion` walks
a pointer from line to line, `ClearRectangleInVideoMem` computes the address of every
pixel anew, and `ClearVideoMem` fills the whole picture from its first byte to its last.

Each is modelled as the stores it makes, in their order.  Each turns out to store the
colour at the pixels of the rectangle (`filled`), so all leave the same memory.
-/

namespace Video2lcd.InMemory

open ByteStore CInt Raster Myuvc Address

/-- `T_Layout`, without the name of an icon. -/
structure Layout where
  iTopLeftX : Int32
  iTopLeftY : Int32
  iBotRightX : Int32
  iBotRightY : Int32

/-- Stores, each with its address. -/
abbrev Stores := List (Nat × List UInt8)

/-- How often `for (i = first; i <= last; i++)` goes round. -/
def rounds (first last : Int32) : Nat := (last.toInt - first.toInt + 1).toNat

/-- The `while` loop of `ClearVideoMem`, which counts bytes and stores words. -/
def fillWords (word : List UInt8) (iSize iTotalBytes : Int32) : Nat → Int32 → UInt32 → Stores
  | 0, _, _ => []
  | fuel + 1, i, pVM =>
      if i < iTotalBytes then
        (pVM.toNat, word) ::
          fillWords word iSize iTotalBytes fuel (i + iSize) (pVM + iSize.toUInt32)
      else []

/-- `ClearVideoMem`. -/
def clearVideoMem (vm : Picture) (dwColor : UInt32) : Stores :=
  let fuel := vm.iTotalBytes.toUInt32.toNat
  if vm.iBpp = 8 then
    [(vm.aucPixelDatas.toNat, List.replicate vm.iTotalBytes.toUInt32.toNat dwColor.toUInt8)]
  else if vm.iBpp = 16 then
    fillWords (le16 (pack565 dwColor)) 2 vm.iTotalBytes fuel 0 vm.aucPixelDatas
  else if vm.iBpp = 32 then
    fillWords (le32 dwColor) 4 vm.iTotalBytes fuel 0 vm.aucPixelDatas
  else []

/-- The loop of `ClearVideoMemRegion` for one byte a pixel. -/
def memsetLines (c : UInt8) (iLineBytesClear iLineBytes : UInt32) : Nat → UInt32 → Stores
  | 0, _ => []
  | iY + 1, pucVM =>
      (pucVM.toNat, List.replicate iLineBytesClear.toNat c) ::
        memsetLines c iLineBytesClear iLineBytes iY (pucVM + iLineBytes)

/-- The inner loop of `ClearVideoMemRegion` for words. -/
def storeLine (word : List UInt8) (size pVM : UInt32) : Nat → UInt32 → Stores
  | 0, _ => []
  | iX + 1, i => ((pVM + i * size).toNat, word) :: storeLine word size pVM iX (i + 1)

/-- The outer loop of `ClearVideoMemRegion` for words. -/
def storeLines (word : List UInt8) (size iLineBytes : UInt32) (columns : Nat) :
    Nat → UInt32 → Stores
  | 0, _ => []
  | iY + 1, pVM =>
      storeLine word size pVM columns 0 ++
        storeLines word size iLineBytes columns iY (pVM + iLineBytes)

/-- `ClearVideoMemRegion`. -/
def clearVideoMemRegion (vm : Picture) (layout : Layout) (dwColor : UInt32) : Stores :=
  let pucVM := pixelAddress vm layout.iTopLeftX layout.iTopLeftY
  let iLineBytesClear := (layout.iBotRightX - layout.iTopLeftX + 1) * vm.iBpp / 8
  let lines := rounds layout.iTopLeftY layout.iBotRightY
  let columns := rounds layout.iTopLeftX layout.iBotRightX
  if vm.iBpp = 8 then
    memsetLines dwColor.toUInt8 iLineBytesClear.toUInt32 vm.iLineBytes.toUInt32 lines pucVM
  else if vm.iBpp = 16 then
    storeLines (le16 (pack565 dwColor)) 2 vm.iLineBytes.toUInt32 columns lines pucVM
  else if vm.iBpp = 32 then
    storeLines (le32 dwColor) 4 vm.iLineBytes.toUInt32 columns lines pucVM
  else []

/-- `SetColorForPixelInVideoMem`: the bytes of the pixel, or -1, and the store. -/
def setColorForPixelInVideoMem (iX iY : Int32) (vm : Picture) (dwColor : UInt32) :
    Int32 × Stores :=
  let pucVideoMem := vm.aucPixelDatas + (iY * vm.iLineBytes + iX * vm.iBpp / 8).toUInt32
  if vm.iBpp = 8 then (1, [(pucVideoMem.toNat, [dwColor.toUInt8])])
  else if vm.iBpp = 16 then (2, [(pucVideoMem.toNat, le16 (pack565 dwColor))])
  else if vm.iBpp = 32 then (4, [(pucVideoMem.toNat, le32 dwColor)])
  else (-1, [])

/-- The inner loop of `ClearRectangleInVideoMem`. -/
def clearColumns (vm : Picture) (dwColor : UInt32) (y : Int32) : Nat → Int32 → Stores
  | 0, _ => []
  | n + 1, x =>
      (setColorForPixelInVideoMem x y vm dwColor).2 ++ clearColumns vm dwColor y n (x + 1)

/-- The outer loop of `ClearRectangleInVideoMem`. -/
def clearLines (vm : Picture) (dwColor : UInt32) (columns : Nat) (iTopLeftX : Int32) :
    Nat → Int32 → Stores
  | 0, _ => []
  | n + 1, y =>
      clearColumns vm dwColor y columns iTopLeftX ++
        clearLines vm dwColor columns iTopLeftX n (y + 1)

/-- `ClearRectangleInVideoMem`. -/
def clearRectangleInVideoMem (iTopLeftX iTopLeftY iBotRightX iBotRightY : Int32) (vm : Picture)
    (dwColor : UInt32) : Stores :=
  clearLines vm dwColor (rounds iTopLeftX iBotRightX) iTopLeftX (rounds iTopLeftY iBotRightY)
    iTopLeftY

/-- A `VideoMem` as `AllocVideoMem` sets it up, of `w` times `h` pixels of `p` bytes. -/
structure Allocated (vm : Picture) (w h p : Nat) : Prop where
  placed : Placed vm w h p (w * p)
  bits : w * (8 * p) < 2 ^ 31
  total : vm.iTotalBytes.toInt = (w * p * h : Nat)
  known : p = 1 ∨ p = 2 ∨ p = 4

/-- The rectangle of a layout; the right column and the bottom line belong to it. -/
def Layout.rect (layout : Layout) : Rect :=
  ⟨layout.iTopLeftX.toInt.toNat, layout.iTopLeftY.toInt.toNat,
    rounds layout.iTopLeftX layout.iBotRightX, rounds layout.iTopLeftY layout.iBotRightY⟩

/-- A layout inside a picture. -/
structure Layout.Inside (layout : Layout) (w h : Nat) : Prop where
  left : 0 ≤ layout.iTopLeftX.toInt
  columns : layout.iTopLeftX.toInt ≤ layout.iBotRightX.toInt
  right : layout.iBotRightX.toInt < w
  top : 0 ≤ layout.iTopLeftY.toInt
  lines : layout.iTopLeftY.toInt ≤ layout.iBotRightY.toInt
  bottom : layout.iBotRightY.toInt < h

/-- The colour in the depth of a picture. -/
def colorBytes (p : Nat) (dwColor : UInt32) : List UInt8 :=
  if p = 1 then [dwColor.toUInt8]
  else if p = 2 then le16 (pack565 dwColor)
  else le32 dwColor

/-- The colour, stored at every pixel of a rectangle. -/
def filled (vm : Picture) (r : Rect) (w p : Nat) (dwColor : UInt32) : Stores :=
  (pixels r (w * p) p fun _ _ => colorBytes p dwColor).map fun piece =>
    (vm.aucPixelDatas.toNat + piece.1, piece.2)

/-- The loop of `ClearVideoMem` goes through all words. -/
theorem fillWords_eq {word : List UInt8} {iSize iTotalBytes : Int32} (hsize : 0 < iSize.toInt) :
    ∀ (n fuel : Nat) (i : Int32) (pVM : UInt32), n ≤ fuel → 0 ≤ i.toInt →
      i.toInt + n * iSize.toInt = iTotalBytes.toInt →
      fillWords word iSize iTotalBytes fuel i pVM =
        (List.range n).map fun j => ((pVM + UInt32.ofNat j * iSize.toUInt32).toNat, word) := by
  intro n
  induction n with
  | zero =>
      intro fuel i pVM _ _ htotal
      have hdone : ¬ i < iTotalBytes := by
        rw [Int32.lt_iff_toInt_lt]
        omega
      cases fuel with
      | zero => rfl
      | succ fuel => rw [fillWords, if_neg hdone]; rfl
  | succ n ih =>
      intro fuel i pVM hfuel hi htotal
      obtain ⟨fuel, rfl⟩ : ∃ f, fuel = f + 1 := ⟨fuel - 1, by omega⟩
      have hexp : ((n + 1 : Nat) : Int) * iSize.toInt = n * iSize.toInt + iSize.toInt := by
        push_cast
        ring
      have hpos : 0 ≤ (n : Int) * iSize.toInt := by positivity
      have hlt : i < iTotalBytes := by
        rw [Int32.lt_iff_toInt_lt]
        omega
      have hbound := iTotalBytes.toInt_lt
      have hnext : (i + iSize).toInt = i.toInt + iSize.toInt := by
        apply toInt_add_of_range <;> omega
      rw [fillWords, if_pos hlt, ih fuel _ _ (by omega) (by omega) (by omega),
        List.range_succ_eq_map, List.map_cons, List.map_map, step_zero]
      congr 1
      apply List.map_congr_left
      intro j _
      rw [step_next]
      rfl

/-- The lines of `ClearVideoMemRegion` for one byte a pixel. -/
theorem memsetLines_eq (c : UInt8) (n line : UInt32) (lines : Nat) (pucVM : UInt32) :
    memsetLines c n line lines pucVM =
      (List.range lines).map fun y =>
        ((pucVM + UInt32.ofNat y * line).toNat, List.replicate n.toNat c) := by
  exact (steps line).map_rounds (fun pucVM => (pucVM.toNat, List.replicate n.toNat c))
    (fun _ => rfl) (fun _ _ => rfl) lines pucVM

/-- A line of words. -/
theorem storeLine_eq (word : List UInt8) (size pVM : UInt32) (columns : Nat) (i : UInt32) :
    storeLine word size pVM columns i =
      (List.range columns).map fun x => ((pVM + (i + UInt32.ofNat x) * size).toNat, word) := by
  exact index.map_rounds (fun i => ((pVM + i * size).toNat, word)) (fun _ => rfl)
    (fun _ _ => rfl) columns i

/-- The lines of `ClearVideoMemRegion` for words. -/
theorem storeLines_eq (word : List UInt8) (size line : UInt32) (columns lines : Nat)
    (pVM : UInt32) :
    storeLines word size line columns lines pVM =
      (List.range lines).flatMap fun y => (List.range columns).map fun x =>
        ((pVM + UInt32.ofNat y * line + UInt32.ofNat x * size).toNat, word) := by
  have hlines : storeLines word size line columns lines pVM =
      (List.range lines).flatMap fun y =>
        storeLine word size (pVM + UInt32.ofNat y * line) columns 0 :=
    (steps line).flatMap_rounds (fun pVM => storeLine word size pVM columns 0) (fun _ => rfl)
      (fun _ _ => rfl) lines pVM
  simp only [hlines, storeLine_eq, UInt32.zero_add]

/-- A line of `ClearRectangleInVideoMem`. -/
theorem clearColumns_eq (vm : Picture) (dwColor : UInt32) (y : Int32) (columns : Nat)
    (x : Int32) :
    clearColumns vm dwColor y columns x =
      (List.range columns).flatMap fun i =>
        (setColorForPixelInVideoMem (x + Int32.ofNat i) y vm dwColor).2 := by
  exact counter.flatMap_rounds (fun x => (setColorForPixelInVideoMem x y vm dwColor).2)
    (fun _ => rfl) (fun _ _ => rfl) columns x

/-- The lines of `ClearRectangleInVideoMem`. -/
theorem clearLines_eq (vm : Picture) (dwColor : UInt32) (columns : Nat) (x : Int32)
    (lines : Nat) (y : Int32) :
    clearLines vm dwColor columns x lines y =
      (List.range lines).flatMap fun j =>
        clearColumns vm dwColor (y + Int32.ofNat j) columns x := by
  exact counter.flatMap_rounds (fun y => clearColumns vm dwColor y columns x) (fun _ => rfl)
    (fun _ _ => rfl) lines y

namespace Layout.Inside

variable {layout : Layout} {w h : Nat}

/-- The corner of a layout inside the picture is the corner of its rectangle. -/
theorem left_eq (hin : layout.Inside w h) : layout.iTopLeftX.toInt = layout.rect.left :=
  (Int.toNat_of_nonneg hin.left).symm

theorem top_eq (hin : layout.Inside w h) : layout.iTopLeftY.toInt = layout.rect.top :=
  (Int.toNat_of_nonneg hin.top).symm

/-- The rectangle ends inside the picture. -/
theorem right_le (hin : layout.Inside w h) : layout.rect.left + layout.rect.width ≤ w := by
  have hleft := hin.left
  have hcolumns := hin.columns
  have hright := hin.right
  simp only [Layout.rect, rounds]
  omega

/-- The rectangle ends inside the picture. -/
theorem bottom_le (hin : layout.Inside w h) : layout.rect.top + layout.rect.height ≤ h := by
  have htop := hin.top
  have hlines := hin.lines
  have hbottom := hin.bottom
  simp only [Layout.rect, rounds]
  omega

/-- It has at least one column. -/
theorem width_pos (hin : layout.Inside w h) : 0 < layout.rect.width := by
  have hcolumns := hin.columns
  simp only [Layout.rect, rounds]
  omega

/-- The columns, as `ClearVideoMemRegion` counts them. -/
theorem columns_eq (hin : layout.Inside w h) (hw : w < 2 ^ 31) :
    (layout.iBotRightX - layout.iTopLeftX + 1).toInt = layout.rect.width := by
  have hleft := hin.left
  have hcolumns := hin.columns
  have hright := hin.right
  have hone : (1 : Int32).toInt = 1 := rfl
  have hsub : (layout.iBotRightX - layout.iTopLeftX).toInt =
      layout.iBotRightX.toInt - layout.iTopLeftX.toInt := by
    rw [Int32.toInt_sub]
    apply Int.bmod_eq_of_le <;> norm_num <;> omega
  rw [toInt_add_of_range (by omega) (by omega), hsub, hone]
  simp only [Layout.rect, rounds]
  omega

end Layout.Inside

namespace Allocated

variable {vm : Picture} {w h p : Nat}

/-- The sizes of a picture are positive `int`s. -/
theorem width_lt (hvm : Allocated vm w h p) : w < 2 ^ 31 := by
  have hlt := vm.iWidth.toInt_lt
  have hwidth := hvm.placed.width
  omega

theorem height_lt (hvm : Allocated vm w h p) : h < 2 ^ 31 := by
  have hlt := vm.iHeight.toInt_lt
  have hheight := hvm.placed.height
  omega

/-- The cases of a `switch` over the depth. -/
theorem switch_eq {α : Type} (hvm : Allocated vm w h p) (a b c d : α) :
    (if vm.iBpp = 8 then a else if vm.iBpp = 16 then b else if vm.iBpp = 32 then c else d) =
      if p = 1 then a else if p = 2 then b else c := by
  have hdepth := hvm.placed.depth
  have hcase : ∀ {q : Nat} {bpp : Int32}, bpp.toInt = 8 * q → (vm.iBpp = bpp ↔ p = q) := by
    intro q bpp hbpp
    rw [← Int32.toInt_inj, hdepth, hbpp]
    omega
  rcases hvm.known with rfl | rfl | rfl
  · rw [if_pos ((hcase (by decide)).mpr rfl), if_pos rfl]
  · rw [if_neg (fun h => absurd ((hcase (q := 1) (by decide)).mp h) (by decide)),
      if_pos ((hcase (by decide)).mpr rfl), if_neg (by decide), if_pos rfl]
  · rw [if_neg (fun h => absurd ((hcase (q := 1) (by decide)).mp h) (by decide)),
      if_neg (fun h => absurd ((hcase (q := 2) (by decide)).mp h) (by decide)),
      if_pos ((hcase (by decide)).mpr rfl), if_neg (by decide), if_neg (by decide)]

/-- A colour has as many bytes as a pixel. -/
theorem length_colorBytes (hvm : Allocated vm w h p) (dwColor : UInt32) :
    (colorBytes p dwColor).length = p := by
  rcases hvm.known with rfl | rfl | rfl <;> rfl

/-- The address of a pixel. -/
theorem address (hvm : Allocated vm w h p) {iX iY : Int32} {x y : Nat} (hx : iX.toInt = x)
    (hy : iY.toInt = y) (hxw : x < w) (hyh : y < h) :
    (pixelAddress vm iX iY).toNat = vm.aucPixelDatas.toNat + (y * (w * p) + x * p) := by
  have hline : y * (w * p) + w * p ≤ w * p * h := line_le hyh
  have hcol : x * p + p ≤ w * p := pixel_before hxw
  have hfits := hvm.placed.fits
  have hbits : x * (8 * p) < 2 ^ 31 := by
    have hle : x * (8 * p) ≤ w * (8 * p) := Nat.mul_le_mul_right _ hxw.le
    have := hvm.bits
    omega
  rw [hvm.placed.pixelAddress_toNat hx hy hbits (by omega), Nat.add_assoc]

/-- One pixel. -/
theorem setColor_eq (hvm : Allocated vm w h p) (dwColor : UInt32) {iX iY : Int32} {x y : Nat}
    (hx : iX.toInt = x) (hy : iY.toInt = y) (hxw : x < w) (hyh : y < h) :
    (setColorForPixelInVideoMem iX iY vm dwColor).2 =
      [(vm.aucPixelDatas.toNat + (y * (w * p) + x * p), colorBytes p dwColor)] := by
  have haddress : vm.aucPixelDatas + (iY * vm.iLineBytes + iX * vm.iBpp / 8).toUInt32 =
      pixelAddress vm iX iY := by
    rw [pixelAddress, Int32.toUInt32_add, UInt32.add_assoc]
  unfold setColorForPixelInVideoMem
  simp only [haddress]
  rw [hvm.switch_eq, hvm.address hx hy hxw hyh]
  rcases hvm.known with rfl | rfl | rfl <;> rfl

/-- `ClearRectangleInVideoMem` stores the colour at every pixel. -/
theorem clearRectangle_eq (hvm : Allocated vm w h p) {layout : Layout}
    (hin : layout.Inside w h) (dwColor : UInt32) :
    clearRectangleInVideoMem layout.iTopLeftX layout.iTopLeftY layout.iBotRightX
      layout.iBotRightY vm dwColor = filled vm layout.rect w p dwColor := by
  have hright := hin.right_le
  have hbottom := hin.bottom_le
  have hw := hvm.width_lt
  have hh := hvm.height_lt
  rw [clearRectangleInVideoMem, clearLines_eq, filled, pixels, List.map_flatMap]
  apply List.flatMap_congr
  intro y hy
  have hy' : y < layout.rect.height := List.mem_range.mp hy
  rw [clearColumns_eq, List.map_map, List.map_eq_flatMap]
  apply List.flatMap_congr
  intro x hx
  have hx' : x < layout.rect.width := List.mem_range.mp hx
  exact hvm.setColor_eq dwColor (toInt_counter hin.left_eq (by omega))
    (toInt_counter hin.top_eq (by omega)) (by omega) (by omega)

/-- The address of a pixel of a rectangle, from its first pixel on. -/
theorem region_address (hvm : Allocated vm w h p) {layout : Layout} (hin : layout.Inside w h)
    {size : UInt32} (hsize : size.toNat = p) {x y : Nat} (hx : x < layout.rect.width)
    (hy : y < layout.rect.height) :
    (pixelAddress vm layout.iTopLeftX layout.iTopLeftY +
        UInt32.ofNat y * vm.iLineBytes.toUInt32 + UInt32.ofNat x * size).toNat =
      vm.aucPixelDatas.toNat +
        ((layout.rect.top + y) * (w * p) + (layout.rect.left + x) * p) := by
  have hright := hin.right_le
  have hbottom := hin.bottom_le
  have hstart := hvm.address hin.left_eq hin.top_eq (by omega) (by omega)
  have hline : (layout.rect.top + y) * (w * p) + w * p ≤ w * p * h := line_le (by omega)
  have hcol : (layout.rect.left + x) * p + p ≤ w * p := pixel_before (by omega)
  have hfits := hvm.placed.fits
  rw [Nat.add_mul] at hline hcol
  rw [toNat_two_steps (toNat_of_toInt hvm.placed.line) hsize (by omega), hstart, Nat.add_mul,
    Nat.add_mul layout.rect.left]
  omega

/-- The words that `ClearVideoMemRegion` stores. -/
theorem storeLines_filled (hvm : Allocated vm w h p) {layout : Layout}
    (hin : layout.Inside w h) {size : UInt32} (hsize : size.toNat = p) {dwColor : UInt32} :
    storeLines (colorBytes p dwColor) size vm.iLineBytes.toUInt32
        (rounds layout.iTopLeftX layout.iBotRightX) (rounds layout.iTopLeftY layout.iBotRightY)
        (pixelAddress vm layout.iTopLeftX layout.iTopLeftY) =
      filled vm layout.rect w p dwColor := by
  rw [storeLines_eq, filled, pixels, List.map_flatMap]
  apply List.flatMap_congr
  intro y hy
  rw [List.map_map]
  apply List.map_congr_left
  intro x hx
  rw [hvm.region_address hin hsize (List.mem_range.mp hx) (List.mem_range.mp hy)]
  rfl

/-- One byte stored many times. -/
theorem replicate_eq_flatMap (n : Nat) (c : UInt8) :
    List.replicate n c = (List.range n).flatMap fun _ => [c] := by
  rw [← List.map_eq_flatMap, List.map_const', List.length_range]

/-- The lines that `ClearVideoMemRegion` sets, byte by byte. -/
theorem memsetLines_filled (hvm : Allocated vm w h 1) {layout : Layout}
    (hin : layout.Inside w h) (dwColor : UInt32) (m : Memory) :
    writeAll m (memsetLines dwColor.toUInt8
        ((layout.iBotRightX - layout.iTopLeftX + 1) * vm.iBpp / 8).toUInt32
        vm.iLineBytes.toUInt32 (rounds layout.iTopLeftY layout.iBotRightY)
        (pixelAddress vm layout.iTopLeftX layout.iTopLeftY)) =
      writeAll m (filled vm layout.rect w 1 dwColor) := by
  have hright := hin.right_le
  have hbytes : ((layout.iBotRightX - layout.iTopLeftX + 1) * vm.iBpp / 8).toUInt32.toNat =
      layout.rect.width := by
    have hbits := hvm.bits
    have hle := toInt_pixel_bytes (hin.columns_eq hvm.width_lt) hvm.placed.depth (by omega)
    rw [Nat.mul_one] at hle
    exact toNat_of_toInt hle
  have hlines : memsetLines dwColor.toUInt8
        ((layout.iBotRightX - layout.iTopLeftX + 1) * vm.iBpp / 8).toUInt32
        vm.iLineBytes.toUInt32 (rounds layout.iTopLeftY layout.iBotRightY)
        (pixelAddress vm layout.iTopLeftX layout.iTopLeftY) =
      ((List.range layout.rect.height).map fun y =>
        ((layout.rect.top + y) * (w * 1) + layout.rect.left * 1,
          (List.range layout.rect.width).flatMap fun _ => colorBytes 1 dwColor)).map
            fun piece => (vm.aucPixelDatas.toNat + piece.1, piece.2) := by
    rw [memsetLines_eq, List.map_map]
    apply List.map_congr_left
    intro y hy
    have hfirst := hvm.region_address hin (rfl : (1 : UInt32).toNat = 1) hin.width_pos
      (List.mem_range.mp hy)
    rw [step_zero, Nat.add_zero] at hfirst
    rw [hfirst, hbytes, replicate_eq_flatMap]
    rfl
  rw [hlines, filled]
  apply writeAll_shift_congr
  exact writeAll_lines (fun _ _ => hvm.length_colorBytes dwColor) _

/-- `ClearVideoMemRegion` leaves what storing the colour at every pixel leaves. -/
theorem clearRegion_eq (hvm : Allocated vm w h p) {layout : Layout} (hin : layout.Inside w h)
    (dwColor : UInt32) (m : Memory) :
    writeAll m (clearVideoMemRegion vm layout dwColor) =
      writeAll m (filled vm layout.rect w p dwColor) := by
  unfold clearVideoMemRegion
  simp only
  rw [hvm.switch_eq]
  rcases hvm.known with rfl | rfl | rfl
  · exact hvm.memsetLines_filled hin dwColor m
  · exact congrArg (writeAll m) (hvm.storeLines_filled hin rfl)
  · exact congrArg (writeAll m) (hvm.storeLines_filled hin rfl)

/-- The stores at all pixels of the picture, counted through. -/
theorem filled_whole (vm : Picture) (w h p : Nat) (dwColor : UInt32) :
    filled vm ⟨0, 0, w, h⟩ w p dwColor =
      ((List.range (h * w)).map fun i => (i * p, colorBytes p dwColor)).map fun piece =>
        (vm.aucPixelDatas.toNat + piece.1, piece.2) := by
  rw [filled, ← pixels_whole w h p fun _ => colorBytes p dwColor]

/-- The words that `ClearVideoMem` stores. -/
theorem fillWords_filled (hvm : Allocated vm w h p) {iSize : Int32} (hsize : iSize.toInt = p)
    (dwColor : UInt32) :
    fillWords (colorBytes p dwColor) iSize vm.iTotalBytes vm.iTotalBytes.toUInt32.toNat 0
      vm.aucPixelDatas = filled vm ⟨0, 0, w, h⟩ w p dwColor := by
  have hpos : 0 < p := by
    have hknown := hvm.known
    omega
  have hbytes : h * w * p = w * p * h := by ring
  have hwords : h * w ≤ h * w * p := Nat.le_mul_of_pos_right _ hpos
  have hfits := hvm.placed.fits
  have hzero : (0 : Int32).toInt = 0 := rfl
  rw [fillWords_eq (by omega) (h * w), filled_whole, List.map_map]
  · apply List.map_congr_left
    intro i hi
    have hnext : i * p + p ≤ h * w * p := pixel_before (List.mem_range.mp hi)
    have hword : iSize.toUInt32.toNat = p := toNat_of_toInt hsize
    rw [toNat_step (by rw [hword]; omega), hword]
    rfl
  · rw [toNat_of_toInt hvm.total]
    omega
  · omega
  · rw [hvm.total, hsize, ← hbytes, hzero]
    push_cast
    ring

/-- `ClearVideoMem` leaves what storing the colour at every pixel of the picture leaves. -/
theorem clearVideoMem_eq (hvm : Allocated vm w h p) (dwColor : UInt32) (m : Memory) :
    writeAll m (clearVideoMem vm dwColor) = writeAll m (filled vm ⟨0, 0, w, h⟩ w p dwColor) := by
  unfold clearVideoMem
  simp only
  rw [hvm.switch_eq]
  rcases hvm.known with rfl | rfl | rfl
  · have htotal : vm.iTotalBytes.toUInt32.toNat = h * w := by
      rw [toNat_of_toInt hvm.total]
      ring
    have hbytes : writeAll (window m vm.aucPixelDatas.toNat)
          [(0, List.replicate (h * w) dwColor.toUInt8)] =
        writeAll (window m vm.aucPixelDatas.toNat)
          ((List.range (h * w)).map fun i => (i * 1, colorBytes 1 dwColor)) := by
      have hwrite := write_flatMap (window m vm.aucPixelDatas.toNat)
        (fun _ => hvm.length_colorBytes dwColor) 0 (h * w)
      simp only [Nat.zero_add] at hwrite
      rw [← hwrite, replicate_eq_flatMap]
      rfl
    rw [filled_whole, htotal]
    exact writeAll_shift_congr hbytes
  · exact congrArg (writeAll m) (hvm.fillWords_filled rfl dwColor)
  · exact congrArg (writeAll m) (hvm.fillWords_filled rfl dwColor)

/-- The stores at the pixels of a rectangle overlay it. -/
theorem filled_overlaysAt (hvm : Allocated vm w h p) {r : Rect} (hright : r.left + r.width ≤ w)
    (dwColor : UInt32) (m : Memory) :
    OverlaysAt vm.aucPixelDatas.toNat r (w * p) p (fun _ _ => colorBytes p dwColor) m
      (writeAll m (filled vm r w p dwColor)) := by
  apply overlaysAt_of_pieces
  exact overlays_pixels (Nat.mul_le_mul_right p hright)
    (fun _ _ => hvm.length_colorBytes dwColor) _

end Allocated

/-- **Three ways to fill a rectangle.**  `ClearVideoMemRegion` and
`ClearRectangleInVideoMem` leave the same memory: the pixels of the rectangle have the
colour in the depth of the picture, and every other byte is as before.  For the whole
picture it is the memory that `ClearVideoMem` leaves. -/
theorem rectangle_fills_agree {vm : Picture} {w h p : Nat} (hvm : Allocated vm w h p)
    {layout : Layout} (hin : layout.Inside w h) (dwColor : UInt32) (m : Memory) :
    let m' := writeAll m (clearVideoMemRegion vm layout dwColor)
    OverlaysAt vm.aucPixelDatas.toNat layout.rect (w * p) p (fun _ _ => colorBytes p dwColor) m m' ∧
    writeAll m (clearRectangleInVideoMem layout.iTopLeftX layout.iTopLeftY layout.iBotRightX
      layout.iBotRightY vm dwColor) = m' ∧
    (layout.rect = ⟨0, 0, w, h⟩ → writeAll m (clearVideoMem vm dwColor) = m') := by
  intro m'
  have hm' : m' = writeAll m (filled vm layout.rect w p dwColor) := hvm.clearRegion_eq hin dwColor m
  rw [hm']
  refine ⟨hvm.filled_overlaysAt hin.right_le dwColor m, ?_, ?_⟩
  · rw [hvm.clearRectangle_eq hin]
  · intro hwhole
    rw [hvm.clearVideoMem_eq, hwhole]

/-- Two lines of three pixels turn red in a 16-bit picture of five by four, and then the whole
of it. -/
theorem red_rectangle_fills_agree :
    let vm : Picture := ⟨5, 4, 16, 10, 40, 0x100⟩
    let layout : Layout := ⟨1, 2, 3, 3⟩
    let whole : Layout := ⟨0, 0, 4, 3⟩
    let m := writeAll (fun _ => 0) (clearVideoMemRegion vm layout 0xFF0000)
    OverlaysAt 0x100 ⟨1, 2, 3, 2⟩ 10 2 (fun _ _ => [0x00, 0xF8]) (fun _ => 0) m ∧
      writeAll (fun _ => 0) (clearRectangleInVideoMem 1 2 3 3 vm 0xFF0000) = m ∧
      writeAll m (clearVideoMem vm 0xFF0000) =
        writeAll m (clearVideoMemRegion vm whole 0xFF0000) := by
  intro vm layout whole m
  have hvm : Allocated vm 5 4 2 :=
    ⟨⟨rfl, rfl, rfl, rfl, by decide, by decide⟩, by decide, rfl, by decide⟩
  have hin : layout.Inside 5 4 :=
    ⟨by decide, by decide, by decide, by decide, by decide, by decide⟩
  have hwhole : whole.Inside 5 4 :=
    ⟨by decide, by decide, by decide, by decide, by decide, by decide⟩
  obtain ⟨hred, hsame, -⟩ := rectangle_fills_agree hvm hin 0xFF0000 fun _ => 0
  obtain ⟨-, -, hall⟩ := rectangle_fills_agree hvm hwhole 0xFF0000 m
  exact ⟨hred, hsame, hall rfl⟩

end Video2lcd.InMemory
