import UsbCamera.Video2lcd.Bmp

/-!
# The line converters

The parser for BMP files and the parsers for JPEG data each have a `CovertOneLine` of
their own, which turns a line of 24 bits a pixel into the depth of the display.  The
copies differ in the order of the three bytes: a BMP file has blue first, and what
`libjpeg` delivers has red first.  So the copies should make the same of the same colours.

They do where the loop takes the colours apart.  For a display of 24 bits a line is not
taken apart but copied, by all of them, and then the order of the source is the order of
the result (`converters_agree_iff`).
-/

namespace Video2lcd

open ByteStore Address Myuvc

namespace Jpg

/-- One round of the loop of `CovertOneLine` in `jpg.c` and `mjpeg2rgb.c`. -/
def covertPixel (line : Nat → UInt8) (iDstBpp : Int32) (pudSrcDatas pos dst : UInt32) :
    List (Access UInt8) :=
  let dwRed := (line (pudSrcDatas + pos).toNat).toUInt32
  let dwGreen := (line (pudSrcDatas + pos + 1).toNat).toUInt32
  let dwBlue := (line (pudSrcDatas + pos + 2).toNat).toUInt32
  .load (pudSrcDatas + pos).toNat 1 :: .load (pudSrcDatas + pos + 1).toNat 1 ::
    .load (pudSrcDatas + pos + 2).toNat 1 ::
    if iDstBpp = 32 then [.store dst.toNat (le32 (color32 dwRed dwGreen dwBlue))]
    else if iDstBpp = 16 then [.store dst.toNat (le16 (color565 dwRed dwGreen dwBlue).toUInt16)]
    else []

/-- The loop, with `i` rounds to go. -/
def covertPixels (line : Nat → UInt8) (iDstBpp : Int32) (pudSrcDatas : UInt32) :
    (i : Nat) → (pos dst : UInt32) → List (Access UInt8)
  | 0, _, _ => []
  | i + 1, pos, dst =>
      covertPixel line iDstBpp pudSrcDatas pos dst ++
        covertPixels line iDstBpp pudSrcDatas i (pos + 3) (dst + Bmp.dstStep iDstBpp)

/-- `CovertOneLine` of `jpg.c` and `mjpeg2rgb.c`. -/
def covertOneLine (line : Nat → UInt8) (iWidth iSrcBpp iDstBpp : Int32)
    (pudSrcDatas pudDstDatas : UInt32) : Int32 × List (Access UInt8) :=
  if iSrcBpp ≠ 24 then (-1, [])
  else if iDstBpp = 24 then
    let n := (iWidth * 3).toUInt32.toNat
    (0, [.load pudSrcDatas.toNat n, .store pudDstDatas.toNat (read line pudSrcDatas.toNat n)])
  else (0, covertPixels line iDstBpp pudSrcDatas iWidth.toInt.toNat 0 pudDstDatas)

/-- The loop over a line, round by round. -/
theorem covertPixels_eq (line : Nat → UInt8) (iDstBpp : Int32) (pudSrcDatas : UInt32) (n : Nat)
    (pos dst : UInt32) :
    covertPixels line iDstBpp pudSrcDatas n pos dst =
      (List.range n).flatMap fun x =>
        covertPixel line iDstBpp pudSrcDatas (pos + UInt32.ofNat x * 3)
          (dst + UInt32.ofNat x * Bmp.dstStep iDstBpp) := by
  exact ((steps 3).prod (steps (Bmp.dstStep iDstBpp))).flatMap_rounds
    (fun s => covertPixel line iDstBpp pudSrcDatas s.1 s.2)
    (f := fun n s => covertPixels line iDstBpp pudSrcDatas n s.1 s.2) (fun _ => rfl)
    (fun _ _ => rfl) n (pos, dst)

/-- A line of 24 bits a pixel for 24 is one copy. -/
theorem covertOneLine_copy {line : Nat → UInt8} {iWidth : Int32} {w : Nat}
    (hw : iWidth.toInt = w) (hline : 3 * w < 2 ^ 32) (src dst : UInt32) :
    (covertOneLine line iWidth 24 24 src dst).2 =
      [.load src.toNat (3 * w), .store dst.toNat (read line src.toNat (3 * w))] := by
  unfold covertOneLine
  rw [if_neg (by decide), if_pos rfl]
  simp only [Bmp.toNat_line hw hline]

/-- For any other depth the loop runs over the pixels. -/
theorem covertOneLine_loop {line : Nat → UInt8} {iWidth iBpp : Int32} {w : Nat}
    (hw : iWidth.toInt = w) (hloop : iBpp ≠ 24) (src dst : UInt32) :
    (covertOneLine line iWidth 24 iBpp src dst).2 = covertPixels line iBpp src w 0 dst := by
  have hrounds : iWidth.toInt.toNat = w := by omega
  unfold covertOneLine
  rw [if_neg (by decide), if_neg hloop, hrounds]

end Jpg

/-! ## The same colours in two orders -/

structure Rgb where
  red : UInt8
  green : UInt8
  blue : UInt8
deriving DecidableEq, Repr

/-- The line at `a`, with blue first in every pixel. -/
def StoredBgr (m : Nat → UInt8) (a w : Nat) (colors : Nat → Rgb) : Prop :=
  ∀ x < w, m (a + 3 * x) = (colors x).blue ∧ m (a + 3 * x + 1) = (colors x).green ∧
    m (a + 3 * x + 2) = (colors x).red

/-- The line at `a`, with red first. -/
def StoredRgb (m : Nat → UInt8) (a w : Nat) (colors : Nat → Rgb) : Prop :=
  ∀ x < w, m (a + 3 * x) = (colors x).red ∧ m (a + 3 * x + 1) = (colors x).green ∧
    m (a + 3 * x + 2) = (colors x).blue

/-- What a round of either loop stores for a colour. -/
def pixelStores (iDstBpp : Int32) (dst : UInt32) (c : Rgb) : List (Nat × List UInt8) :=
  if iDstBpp = 32 then
    [(dst.toNat, le32 (color32 c.red.toUInt32 c.green.toUInt32 c.blue.toUInt32))]
  else if iDstBpp = 16 then
    [(dst.toNat, le16 (color565 c.red.toUInt32 c.green.toUInt32 c.blue.toUInt32).toUInt16)]
  else []

section Rounds

variable {bmp jpg : Nat → UInt8} {src : UInt32} {w : Nat} {colors : Nat → Rgb}

/-- The stores of a round, once its colours are known. -/
theorem stores_colors (iDstBpp : Int32) (dst : UInt32) (c : Rgb) :
    stores (if iDstBpp = 32 then
        [.store dst.toNat (le32 (color32 c.red.toUInt32 c.green.toUInt32 c.blue.toUInt32))]
      else if iDstBpp = 16 then
        [.store dst.toNat
          (le16 (color565 c.red.toUInt32 c.green.toUInt32 c.blue.toUInt32).toUInt16)]
      else []) = pixelStores iDstBpp dst c := by
  unfold pixelStores
  split
  · rfl
  · split <;> rfl

/-- What the BMP function stores for a pixel depends on its colour only. -/
theorem stores_bmpPixel (hs : src.toNat + 3 * w < 2 ^ 32)
    (hbmp : StoredBgr bmp src.toNat w colors) {x : Nat} (hx : x < w) (iDstBpp : Int32)
    (dst : UInt32) :
    stores (Bmp.covertPixel bmp iDstBpp src (0 + UInt32.ofNat x * 3) dst) =
      pixelStores iDstBpp dst (colors x) := by
  obtain ⟨hfirst, hsecond, hthird⟩ := Bmp.toNat_source hx hs
  obtain ⟨hblue, hgreen, hred⟩ := hbmp x hx
  unfold Bmp.covertPixel
  simp only [stores_load, hfirst, hsecond, hthird, hblue, hgreen, hred]
  exact stores_colors iDstBpp dst (colors x)

/-- So does what the JPG function stores, and it is the same. -/
theorem stores_jpgPixel (hs : src.toNat + 3 * w < 2 ^ 32)
    (hjpg : StoredRgb jpg src.toNat w colors) {x : Nat} (hx : x < w) (iDstBpp : Int32)
    (dst : UInt32) :
    stores (Jpg.covertPixel jpg iDstBpp src (0 + UInt32.ofNat x * 3) dst) =
      pixelStores iDstBpp dst (colors x) := by
  obtain ⟨hfirst, hsecond, hthird⟩ := Bmp.toNat_source hx hs
  obtain ⟨hred, hgreen, hblue⟩ := hjpg x hx
  unfold Jpg.covertPixel
  simp only [stores_load, hfirst, hsecond, hthird, hblue, hgreen, hred]
  exact stores_colors iDstBpp dst (colors x)

/-- What either loop stores for a line. -/
def lineStores (iDstBpp : Int32) (dst : UInt32) (w : Nat) (colors : Nat → Rgb) :
    List (Nat × List UInt8) :=
  (List.range w).flatMap fun x =>
    pixelStores iDstBpp (dst + UInt32.ofNat x * Bmp.dstStep iDstBpp) (colors x)

/-- The stores of the BMP function for a line. -/
theorem stores_bmpLoop (hs : src.toNat + 3 * w < 2 ^ 32)
    (hbmp : StoredBgr bmp src.toNat w colors) (iDstBpp : Int32) (dst : UInt32) :
    stores (Bmp.covertPixels bmp iDstBpp src w 0 dst) = lineStores iDstBpp dst w colors := by
  rw [Bmp.covertPixels_eq, stores_flatMap]
  apply List.flatMap_congr
  intro x hx
  exact stores_bmpPixel hs hbmp (List.mem_range.mp hx) iDstBpp _

/-- The stores of the JPG function for a line. -/
theorem stores_jpgLoop (hs : src.toNat + 3 * w < 2 ^ 32)
    (hjpg : StoredRgb jpg src.toNat w colors) (iDstBpp : Int32) (dst : UInt32) :
    stores (Jpg.covertPixels jpg iDstBpp src w 0 dst) = lineStores iDstBpp dst w colors := by
  rw [Jpg.covertPixels_eq, stores_flatMap]
  apply List.flatMap_congr
  intro x hx
  exact stores_jpgPixel hs hjpg (List.mem_range.mp hx) iDstBpp _

end Rounds

/-! ## The bytes of the JPEG converter -/

/-- A line stored at its place, with red first. -/
def colorsAt (line : Nat → UInt8) (a x : Nat) : Rgb :=
  ⟨line (a + 3 * x), line (a + 3 * x + 1), line (a + 3 * x + 2)⟩

/-- The pixels of a line, each at its place in the line of the display. -/
theorem lineStores_eq {iDstBpp : Int32} {p : Nat} {pack : Rgb → List UInt8}
    (hstep : (Bmp.dstStep iDstBpp).toNat = p)
    (hpack : ∀ dst c, pixelStores iDstBpp dst c = [(dst.toNat, pack c)]) {dst : UInt32} {w : Nat}
    (hd : dst.toNat + w * p < 2 ^ 32) (colors : Nat → Rgb) :
    lineStores iDstBpp dst w colors =
      (List.range w).map fun x => (dst.toNat + x * p, pack (colors x)) := by
  unfold lineStores
  rw [List.map_eq_flatMap]
  apply List.flatMap_congr
  intro x hx
  have hbefore : x * p + p ≤ w * p := Raster.pixel_before (List.mem_range.mp hx)
  rw [hpack, toNat_step (by rw [hstep]; omega), hstep]

/-- **One line of a JPEG.**  The loads and stores of the converter leave the bytes that the
shorter description of it lists, one behind the other from the destination on. -/
theorem writeAll_jpgLine {line : Nat → UInt8} {iWidth iBpp : Int32} {p w : Nat}
    (hdepth : Bmp.Depth iBpp p) (hw : iWidth.toInt = w) {src dst : UInt32}
    (hs : src.toNat + 3 * w < 2 ^ 32) (hd : dst.toNat + w * p < 2 ^ 32) (m : Nat → UInt8) :
    writeAll m (stores (Jpg.covertOneLine line iWidth 24 iBpp src dst).2) =
      write m dst.toNat (covertOneLine iWidth iBpp (window line src.toNat)) := by
  have hrounds : iWidth.toInt.toNat = w := by omega
  have hstored : StoredRgb line src.toNat w (colorsAt line src.toNat) :=
    fun x _ => ⟨rfl, rfl, rfl⟩
  unfold covertOneLine
  rw [hrounds]
  cases hdepth with
  | rgb24 =>
      rw [Jpg.covertOneLine_copy hw (by omega), if_pos rfl, read_window, Nat.mul_comm w 3]
      rfl
  | rgb32 =>
      rw [Jpg.covertOneLine_loop hw (by decide), stores_jpgLoop hs hstored,
        lineStores_eq rfl (fun _ _ => rfl) hd, if_neg (by decide), if_pos rfl,
        write_flatMap m fun x => length_rgb32Bytes _ _ _]
      rfl
  | rgb565 =>
      have hpack : ∀ (dst : UInt32) (c : Rgb), pixelStores 16 dst c =
          [(dst.toNat, rgb565Bytes c.red c.green c.blue)] := by
        intro dst c
        rw [rgb565Bytes_eq, ← Bmp.color565_toUInt16]
        rfl
      rw [Jpg.covertOneLine_loop hw (by decide), stores_jpgLoop hs hstored,
        lineStores_eq rfl hpack hd, if_neg (by decide), if_neg (by decide), if_pos rfl,
        write_flatMap m fun x => length_rgb565Bytes _ _ _]
      rfl

/-- Two lines of the same colours in the two orders have the same bytes when no colour
changes by exchanging red and blue. -/
theorem read_orders_iff {bmp jpg : Nat → UInt8} {a b w : Nat} {colors : Nat → Rgb}
    (hbmp : StoredBgr bmp a w colors) (hjpg : StoredRgb jpg b w colors) :
    read bmp a (3 * w) = read jpg b (3 * w) ↔ ∀ x < w, (colors x).red = (colors x).blue := by
  rw [read_eq_iff]
  constructor
  · intro h x hx
    have hfirst := h (3 * x) (by omega)
    rw [(hbmp x hx).1, (hjpg x hx).1] at hfirst
    exact hfirst.symm
  · intro h k hk
    obtain ⟨x, r, hr, rfl⟩ : ∃ x r, r < 3 ∧ k = 3 * x + r :=
      ⟨k / 3, k % 3, Nat.mod_lt k (by omega), (Nat.div_add_mod k 3).symm⟩
    have hx : x < w := by omega
    obtain ⟨hblue, hgreen, hred⟩ := hbmp x hx
    obtain ⟨hred', hgreen', hblue'⟩ := hjpg x hx
    rw [← Nat.add_assoc, ← Nat.add_assoc]
    interval_cases r
    · exact hblue.trans ((h x hx).symm.trans hred'.symm)
    · exact hgreen.trans hgreen'.symm
    · exact hred.trans ((h x hx).trans hblue'.symm)

/-- **The converters.**  A line of `w` colours, stored for each converter in its own
order, is made into the same bytes by the BMP and by the JPEG converter exactly when the
display does not have 24 bits a pixel, or no colour changes by exchanging red and blue. -/
theorem converters_agree_iff {bmp jpg : Nat → UInt8} {iWidth iDstBpp : Int32} {w : Nat}
    {src src' dst : UInt32} {colors : Nat → Rgb} (hw : iWidth.toInt = w)
    (hs : src.toNat + 3 * w < 2 ^ 32) (hs' : src'.toNat + 3 * w < 2 ^ 32)
    (hbmp : StoredBgr bmp src.toNat w colors) (hjpg : StoredRgb jpg src'.toNat w colors)
    (m : Nat → UInt8) :
    writeAll m (stores (Bmp.covertOneLine bmp iWidth 24 iDstBpp src dst).2) =
        writeAll m (stores (Jpg.covertOneLine jpg iWidth 24 iDstBpp src' dst).2) ↔
      iDstBpp ≠ 24 ∨ ∀ x < w, (colors x).red = (colors x).blue := by
  by_cases hcopy : iDstBpp = 24
  · rw [hcopy, Bmp.covertOneLine_copy hw (by omega), Jpg.covertOneLine_copy hw (by omega)]
    have hmemory : ∀ (m : Nat → UInt8) (cells : List UInt8),
        writeAll m [(dst.toNat, cells)] = write m dst.toNat cells := fun _ _ => rfl
    simp only [stores_load, stores_store, stores_nil, hmemory]
    rw [write_inj (by simp), read_orders_iff hbmp hjpg]
    simp
  · rw [Bmp.covertOneLine_loop hw hcopy, Jpg.covertOneLine_loop hw hcopy,
      stores_bmpLoop hs hbmp, stores_jpgLoop hs' hjpg]
    simp [hcopy]

/-- Two pixels, red and blue, in the order of a BMP file and in the order of a JPEG. -/
def redBlue (x : Nat) : Rgb := if x = 0 then ⟨255, 0, 0⟩ else ⟨0, 0, 255⟩

def redBlueBmp (a : Nat) : UInt8 := if a = 2 ∨ a = 3 then 255 else 0

def redBlueJpg (a : Nat) : UInt8 := if a = 0 ∨ a = 5 then 255 else 0

/-- In 16 bits they are the same. -/
theorem red_and_blue_agree :
    writeAll (fun _ => 0) (stores (Bmp.covertOneLine redBlueBmp 2 24 16 0 0).2) =
      writeAll (fun _ => 0) (stores (Jpg.covertOneLine redBlueJpg 2 24 16 0 0).2) := by
  have hbmp : StoredBgr redBlueBmp 0 2 redBlue := by
    unfold StoredBgr
    decide
  have hjpg : StoredRgb redBlueJpg 0 2 redBlue := by
    unfold StoredRgb
    decide
  exact (converters_agree_iff (w := 2) rfl (by decide) (by decide) hbmp hjpg _).mpr
    (Or.inl (by decide))

/-- In 24 bits the BMP converter stores blue first and the JPEG converter red. -/
theorem red_pixel_differs :
    writeAll (fun _ => 0) (stores (Bmp.covertOneLine redBlueBmp 1 24 24 0 0).2) 0 = 0 ∧
      writeAll (fun _ => 0) (stores (Jpg.covertOneLine redBlueJpg 1 24 24 0 0).2) 0 = 255 ∧
      StoredBgr redBlueBmp 0 1 redBlue ∧ StoredRgb redBlueJpg 0 1 redBlue := by
  refine ⟨rfl, rfl, ?_, ?_⟩
  · unfold StoredBgr
    decide
  · unfold StoredRgb
    decide

end Video2lcd
