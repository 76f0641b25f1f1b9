import UsbCamera.Video2lcd.RectFill

/-!
# The framebuffer

`fb.c` draws on the screen in three ways: `FBShowPixel` sets one pixel, `FBCleanScreen`
fills the screen with a colour, and `FBShowPage` copies a page into it, unless the page is the
memory of the framebuffer itself.  All three go by what `FBDeviceInit` worked out from the
answers of the driver.

A screen is for seeing: what matters is the colour of each pixel.  Over any sequence of these
calls every pixel has the colour that the last call gave it which reaches it, a call outside
the screen is refused, with negative coordinates too, and no byte behind the screen is
touched (`framebuffer_shows_last`).
-/

namespace Video2lcd.Fb

open ByteStore CInt Raster InMemory
open Myuvc (le16 le32)

/-- The variables of `fb.c`; the memory is counted from `g_pucFBMem` on. -/
structure Framebuffer where
  xres : UInt32
  yres : UInt32
  bitsPerPixel : UInt32
  dwScreenSize : UInt32
  dwLineWidth : UInt32
  dwPixelWidth : UInt32

/-- What `FBDeviceInit` works out. -/
def deviceInit (xres yres bitsPerPixel : UInt32) : Framebuffer where
  xres := xres
  yres := yres
  bitsPerPixel := bitsPerPixel
  dwScreenSize := xres * yres * bitsPerPixel / 8
  dwLineWidth := xres * bitsPerPixel / 8
  dwPixelWidth := bitsPerPixel / 8

/-- `FBShowPixel`; the coordinates are compared as unsigned numbers. -/
def showPixel (fb : Framebuffer) (iX iY : Int32) (dwColor : UInt32) : Int32 × Stores :=
  if iX.toUInt32 ≥ fb.xres ∨ iY.toUInt32 ≥ fb.yres then (-1, [])
  else
    let pucFB := (fb.dwLineWidth * iY.toUInt32).toNat + (fb.dwPixelWidth * iX.toUInt32).toNat
    if fb.bitsPerPixel = 8 then (0, [(pucFB, [dwColor.toUInt8])])
    else if fb.bitsPerPixel = 16 then (0, [(pucFB, le16 (pack565 dwColor))])
    else if fb.bitsPerPixel = 32 then (0, [(pucFB, le32 dwColor)])
    else (-1, [])

/-- The `while` loop of `FBCleanScreen`; `none` means that it is still running. -/
def cleanWords (word : List UInt8) (size : Nat) (dwScreenSize : UInt32) :
    (fuel : Nat) → (i : Int32) → (pFB : Nat) → Option Stores
  | 0, _, _ => none
  | fuel + 1, i, pFB =>
      if i.toUInt32 < dwScreenSize then do
        let rest ← cleanWords word size dwScreenSize fuel (i + Int32.ofNat size) (pFB + size)
        return (pFB, word) :: rest
      else some []

/-- `FBCleanScreen` -/
def cleanScreen (fuel : Nat) (fb : Framebuffer) (dwBackColor : UInt32) :
    Option (Int32 × Stores) :=
  if fb.bitsPerPixel = 8 then
    some (0, [(0, List.replicate fb.dwScreenSize.toNat dwBackColor.toUInt8)])
  else if fb.bitsPerPixel = 16 then
    (cleanWords (le16 (pack565 dwBackColor)) 2 fb.dwScreenSize fuel 0 0).map fun s => (0, s)
  else if fb.bitsPerPixel = 32 then
    (cleanWords (le32 dwBackColor) 4 fb.dwScreenSize fuel 0 0).map fun s => (0, s)
  else some (-1, [])

/-- A page: the memory of the framebuffer itself, or other memory. -/
inductive PagePtr
  | dispMem
  | other (bytes : Nat → UInt8)

/-- `FBShowPage` -/
def showPage (page : PagePtr) (iTotalBytes : Int32) : Int32 × Stores :=
  match page with
  | .dispMem => (0, [])
  | .other bytes => (0, [(0, read bytes 0 iTotalBytes.toUInt32.toNat)])

/-- A call. -/
inductive Op
  | showPixel (iX iY : Int32) (dwColor : UInt32)
  | cleanScreen (dwBackColor : UInt32)
  | showPage (page : PagePtr) (iTotalBytes : Int32)

/-- What a call returns and stores. -/
def Op.stores (fuel : Nat) (fb : Framebuffer) : Op → Option (Int32 × Stores)
  | .showPixel iX iY dwColor => some (Fb.showPixel fb iX iY dwColor)
  | .cleanScreen dwBackColor => Fb.cleanScreen fuel fb dwBackColor
  | .showPage page iTotalBytes => some (Fb.showPage page iTotalBytes)

/-- The calls, one after the other: what they return, and the memory behind them. -/
def draw (fuel : Nat) (fb : Framebuffer) : List Op → Memory → Option (List Int32 × Memory)
  | [], m => some ([], m)
  | op :: ops, m => do
      let (ret, stores) ← op.stores fuel fb
      let (rets, m) ← draw fuel fb ops (writeAll m stores)
      return (ret :: rets, m)

/-! ### What is to be seen -/

/-- The screen as the colour of each pixel, in the depth of the screen. -/
abbrev Canvas := Nat → Nat → List UInt8

/-- What a call paints. -/
def Op.paint (w p : Nat) (canvas : Canvas) : Op → Canvas
  | .showPixel iX iY dwColor => fun x y =>
      if iX.toInt = x ∧ iY.toInt = y then colorBytes p dwColor else canvas x y
  | .cleanScreen dwBackColor => fun _ _ => colorBytes p dwBackColor
  | .showPage .dispMem _ => canvas
  | .showPage (.other bytes) _ => fun x y => pixel bytes (w * p) p x y

theorem Op.paint_showPixel (w p : Nat) (canvas : Canvas) (iX iY : Int32) (dwColor : UInt32)
    (x y : Nat) : Op.paint w p canvas (.showPixel iX iY dwColor) x y =
      if iX.toInt = x ∧ iY.toInt = y then colorBytes p dwColor else canvas x y := rfl

/-- What a call returns on a screen of `w` times `h` pixels. -/
def Op.answer (w h : Nat) : Op → Int32
  | .showPixel iX iY _ =>
      if 0 ≤ iX.toInt ∧ iX.toInt < w ∧ 0 ≤ iY.toInt ∧ iY.toInt < h then 0 else -1
  | _ => 0

/-- A screen of `w` times `h` pixels of `p` bytes, whose number of bits fits in 32 bits. -/
structure Sized (fb : Framebuffer) (w h p : Nat) : Prop where
  xres : fb.xres.toNat = w
  yres : fb.yres.toNat = h
  bits : fb.bitsPerPixel.toNat = 8 * p
  known : p = 1 ∨ p = 2 ∨ p = 4
  wide : 0 < w
  high : 0 < h
  small : w * h * (8 * p) < 2 ^ 32
  screen : fb.dwScreenSize.toNat = w * p * h
  line : fb.dwLineWidth.toNat = w * p
  pixel : fb.dwPixelWidth.toNat = p

/-- The pages of the program have the size of the screen. -/
def Op.Fits (size : Nat) : Op → Prop
  | .showPage (.other _) iTotalBytes => iTotalBytes.toInt = size
  | _ => True

/-- `FBDeviceInit` computes its sizes without overflow on such a screen. -/
theorem sized_deviceInit {xres yres bitsPerPixel : UInt32} {p : Nat}
    (hp : p = 1 ∨ p = 2 ∨ p = 4) (hbits : bitsPerPixel.toNat = 8 * p)
    (hwide : 0 < xres.toNat) (hhigh : 0 < yres.toNat)
    (hsmall : xres.toNat * yres.toNat * (8 * p) < 2 ^ 32) :
    Sized (deviceInit xres yres bitsPerPixel) xres.toNat yres.toNat p := by
  have hrow : xres.toNat * (8 * p) ≤ xres.toNat * yres.toNat * (8 * p) :=
    Nat.mul_le_mul_right _ (Nat.le_mul_of_pos_right _ hhigh)
  have hall : xres.toNat * yres.toNat ≤ xres.toNat * yres.toNat * (8 * p) :=
    Nat.le_mul_of_pos_right _ (by omega)
  have height : (8 : UInt32).toNat = 8 := rfl
  refine ⟨rfl, rfl, hbits, hp, hwide, hhigh, hsmall, ?_, ?_, ?_⟩
  · have harea : (xres * yres).toNat = xres.toNat * yres.toNat := by
      rw [UInt32.toNat_mul]
      exact Nat.mod_eq_of_lt (by omega)
    have htotal : (xres * yres * bitsPerPixel).toNat = xres.toNat * p * yres.toNat * 8 := by
      rw [UInt32.toNat_mul, harea, hbits, Nat.mod_eq_of_lt (by omega)]
      ring
    change (xres * yres * bitsPerPixel / 8).toNat = _
    rw [UInt32.toNat_div, htotal, height, Nat.mul_div_cancel _ (by decide)]
  · have htotal : (xres * bitsPerPixel).toNat = xres.toNat * p * 8 := by
      rw [UInt32.toNat_mul, hbits, Nat.mod_eq_of_lt (by omega)]
      ring
    change (xres * bitsPerPixel / 8).toNat = _
    rw [UInt32.toNat_div, htotal, height, Nat.mul_div_cancel _ (by decide)]
  · change (bitsPerPixel / 8).toNat = _
    rw [UInt32.toNat_div, hbits, height, Nat.mul_div_cancel_left _ (by decide)]

/-- The loop of `FBCleanScreen` goes through all words, and ends. -/
theorem cleanWords_eq {word : List UInt8} {size : Nat} {dwScreenSize : UInt32} (hsize : 0 < size)
    (hshort : dwScreenSize.toNat < 2 ^ 31) :
    ∀ (n fuel k : Nat) (i : Int32) (pFB : Nat), n < fuel → i.toInt = k →
      k + n * size = dwScreenSize.toNat →
      cleanWords word size dwScreenSize fuel i pFB =
        some ((List.range n).map fun j => (pFB + j * size, word)) := by
  intro n
  induction n with
  | zero =>
      intro fuel k i pFB hfuel hi htotal
      obtain ⟨fuel, rfl⟩ := Nat.exists_eq_add_one.mpr hfuel
      have hdone : ¬ i.toUInt32 < dwScreenSize := by
        rw [UInt32.lt_iff_toNat_lt, toNat_of_toInt hi]
        omega
      rw [cleanWords, if_neg hdone]
      rfl
  | succ n ih =>
      intro fuel k i pFB hfuel hi htotal
      obtain ⟨fuel, rfl⟩ := Nat.exists_eq_add_one.mpr (Nat.zero_lt_of_lt hfuel)
      have hexp : (n + 1) * size = n * size + size := Nat.succ_mul n size
      have hmore : i.toUInt32 < dwScreenSize := by
        rw [UInt32.lt_iff_toNat_lt, toNat_of_toInt hi]
        omega
      have hnext : (i + Int32.ofNat size).toInt = ((k + size : Nat) : Int) :=
        toInt_counter hi (by omega)
      rw [cleanWords, if_pos hmore, ih fuel (k + size) _ (pFB + size) (by omega) hnext (by omega),
        List.range_succ_eq_map, List.map_cons, List.map_map]
      simp only [Option.bind_eq_bind, Option.bind_some, Option.pure_def, Nat.zero_mul, Nat.add_zero]
      congr 2
      apply List.map_congr_left
      intro j _
      simp only [Function.comp_apply, Nat.succ_mul, Prod.mk.injEq, and_true]
      omega

namespace Sized

variable {fb : Framebuffer} {w h p : Nat} (hfb : Sized fb w h p)
include hfb

/-- A colour has as many bytes as a pixel. -/
theorem length_colorBytes (dwColor : UInt32) : (colorBytes p dwColor).length = p := by
  rcases hfb.known with rfl | rfl | rfl <;> rfl

/-- The `switch` over the depth. -/
theorem switch_eq {α : Type} (a b c d : α) :
    (if fb.bitsPerPixel = 8 then a else if fb.bitsPerPixel = 16 then b
      else if fb.bitsPerPixel = 32 then c else d) =
      if p = 1 then a else if p = 2 then b else c := by
  have hbits : fb.bitsPerPixel = UInt32.ofNat (8 * p) := by
    rw [← hfb.bits, UInt32.ofNat_toNat]
  rw [hbits]
  rcases hfb.known with rfl | rfl | rfl <;> rfl

/-- The bytes of the screen fit an `int`, and so do its sizes. -/
theorem screen_lt : w * p * h < 2 ^ 29 := by
  have hsmall := hfb.small
  have hexp : w * h * (8 * p) = 8 * (w * p * h) := by ring
  omega

theorem width_lt : w < 2 ^ 31 := by
  have hscreen := hfb.screen_lt
  have hp : 0 < p := by
    rcases hfb.known with rfl | rfl | rfl <;> decide
  have hline : w ≤ w * p := Nat.le_mul_of_pos_right w hp
  have hall : w * p ≤ w * p * h := Nat.le_mul_of_pos_right _ hfb.high
  omega

theorem height_lt : h < 2 ^ 31 := by
  have hscreen := hfb.screen_lt
  have hp : 0 < p := by
    rcases hfb.known with rfl | rfl | rfl <;> decide
  have hall : h ≤ w * p * h := Nat.le_mul_of_pos_left h (Nat.mul_pos hfb.wide hp)
  omega

/-- **One pixel** inside the screen. -/
theorem showPixel_inside {iX iY : Int32} {x y : Nat} (hx : iX.toInt = x) (hy : iY.toInt = y)
    (hxw : x < w) (hyh : y < h) (dwColor : UInt32) :
    showPixel fb iX iY dwColor = (0, [(y * (w * p) + x * p, colorBytes p dwColor)]) := by
  have hX := toNat_of_toInt hx
  have hY := toNat_of_toInt hy
  have hin : ¬ (iX.toUInt32 ≥ fb.xres ∨ iY.toUInt32 ≥ fb.yres) := by
    rw [ge_iff_le, ge_iff_le, UInt32.le_iff_toNat_le, UInt32.le_iff_toNat_le, hX, hY, hfb.xres,
      hfb.yres]
    omega
  have hscreen := hfb.screen_lt
  have hline : y * (w * p) + w * p ≤ w * p * h := line_le hyh
  have hcol : x * p + p ≤ w * p := pixel_before hxw
  have hrow : (fb.dwLineWidth * iY.toUInt32).toNat = y * (w * p) := by
    rw [UInt32.toNat_mul, hfb.line, hY, Nat.mul_comm, Nat.mod_eq_of_lt (by omega)]
  have hplace : (fb.dwPixelWidth * iX.toUInt32).toNat = x * p := by
    rw [UInt32.toNat_mul, hfb.pixel, hX, Nat.mul_comm, Nat.mod_eq_of_lt (by omega)]
  rw [showPixel, if_neg hin, hrow, hplace]
  simp only [hfb.switch_eq, colorBytes]
  split
  · rfl
  · split <;> rfl

/-- Outside the screen nothing is stored. -/
theorem showPixel_outside {iX iY : Int32} (dwColor : UInt32)
    (hout : ¬ (0 ≤ iX.toInt ∧ iX.toInt < w ∧ 0 ≤ iY.toInt ∧ iY.toInt < h)) :
    showPixel fb iX iY dwColor = (-1, []) := by
  have hwidth := hfb.width_lt
  have hheight := hfb.height_lt
  have hX := toInt_of_small (x := iX)
  have hY := toInt_of_small (x := iY)
  rw [showPixel, if_pos]
  rw [ge_iff_le, ge_iff_le, UInt32.le_iff_toNat_le, UInt32.le_iff_toNat_le, hfb.xres, hfb.yres]
  omega

/-- **The whole screen**, filled pixel by pixel. -/
theorem cleanScreen_eq {fuel : Nat} (hfuel : w * p * h < fuel) (dwBackColor : UInt32) :
    ∃ stores, cleanScreen fuel fb dwBackColor = some (0, stores) ∧
      ∀ m : Nat → UInt8, writeAll m stores =
        writeAll m (pixels ⟨0, 0, w, h⟩ (w * p) p fun _ _ => colorBytes p dwBackColor) := by
  have hscreen := hfb.screen_lt
  have hcount : h * w * p = w * p * h := by ring
  have hwords : ∀ word : List UInt8, 0 < p →
      cleanWords word p fb.dwScreenSize fuel 0 0 =
        some ((List.range (h * w)).map fun j => (0 + j * p, word)) := by
    intro word hp
    have hle : h * w ≤ h * w * p := Nat.le_mul_of_pos_right _ hp
    refine cleanWords_eq hp (by rw [hfb.screen]; omega) (h * w) fuel 0 0 0 (by omega) rfl ?_
    rw [hfb.screen]
    omega
  have hpixels := pixels_whole w h p fun _ => colorBytes p dwBackColor
  rw [cleanScreen, hfb.switch_eq, hpixels]
  rcases hfb.known with rfl | rfl | rfl
  · refine ⟨_, rfl, fun m => ?_⟩
    have hbytes := write_flatMap m (g := fun _ => [dwBackColor.toUInt8]) (fun _ => rfl) 0 (h * w)
    rw [← Allocated.replicate_eq_flatMap] at hbytes
    rw [hfb.screen, ← hcount, Nat.mul_one]
    simpa [colorBytes, writeAll] using hbytes
  · refine ⟨_, by rw [if_neg (by decide), if_pos rfl, hwords _ (by decide)]; rfl, fun m => ?_⟩
    simp [colorBytes]
  · refine ⟨_, by rw [if_neg (by decide), if_neg (by decide), hwords _ (by decide)]; rfl,
      fun m => ?_⟩
    simp [colorBytes]

end Sized

/-- The screen shows the canvas. -/
def Shows (w h p : Nat) (canvas : Canvas) (m : Memory) : Prop :=
  ∀ x < w, ∀ y < h, pixel m (w * p) p x y = canvas x y

/-- The stores leave the memory behind the screen alone. -/
def KeepsRest (size : Nat) (stores : Stores) : Prop :=
  ∀ m : Memory, ∀ a, size ≤ a → writeAll m stores a = m a

namespace Sized

variable {fb : Framebuffer} {w h p : Nat} (hfb : Sized fb w h p)
include hfb

/-- One pixel is painted. -/
theorem paint_pixel {iX iY : Int32} {x y : Nat} (hx : iX.toInt = x) (hy : iY.toInt = y)
    (hxw : x < w) (dwColor : UInt32) {canvas : Canvas} {m : Memory}
    (hm : Shows w h p canvas m) :
    Shows w h p (Op.paint w p canvas (.showPixel iX iY dwColor))
      (writeAll m [(y * (w * p) + x * p, colorBytes p dwColor)]) := by
  intro x' hx' y' hy'
  have hlen := hfb.length_colorBytes dwColor
  have hstore : writeAll m [(y * (w * p) + x * p, colorBytes p dwColor)] =
      write m (y * (w * p) + x * p) (colorBytes p dwColor) := rfl
  simp only [hstore, Op.paint_showPixel, hx, hy, Nat.cast_inj]
  by_cases hsame : x = x' ∧ y = y'
  · obtain ⟨rfl, rfl⟩ := hsame
    have hback := read_write_same m (y * (w * p) + x * p) (colorBytes p dwColor)
    rw [hlen] at hback
    rw [if_pos ⟨rfl, rfl⟩]
    exact hback
  · rw [if_neg hsame, ← hm x' hx' y' hy']
    apply read_write_outside
    rw [hlen]
    exact pixel_apart (pixel_before hxw) (pixel_before hx') hsame

/-- **Step lemma.**  A call returns what it should, paints what it should, and stores nothing
behind the screen. -/
theorem step {fuel : Nat} (hfuel : w * p * h < fuel) {op : Op} (hfits : op.Fits (w * p * h)) :
    ∃ stores, op.stores fuel fb = some (op.answer w h, stores) ∧ KeepsRest (w * p * h) stores ∧
      ∀ canvas m, Shows w h p canvas m → Shows w h p (op.paint w p canvas) (writeAll m stores) := by
  cases op with
  | showPixel iX iY dwColor =>
      by_cases hin : 0 ≤ iX.toInt ∧ iX.toInt < w ∧ 0 ≤ iY.toInt ∧ iY.toInt < h
      · obtain ⟨x, hx⟩ := Int.eq_ofNat_of_zero_le hin.1
        obtain ⟨y, hy⟩ := Int.eq_ofNat_of_zero_le hin.2.2.1
        have hxw : x < w := by omega
        have hyh : y < h := by omega
        refine ⟨_, ?_, ?_, fun canvas m hm => hfb.paint_pixel hx hy hxw dwColor hm⟩
        · rw [Op.stores, hfb.showPixel_inside hx hy hxw hyh, Op.answer, if_pos hin]
        · intro m a ha
          apply writeAll_outside
          intro piece hpiece
          obtain rfl := List.mem_singleton.mp hpiece
          have hline : y * (w * p) + w * p ≤ w * p * h := line_le hyh
          have hcol : x * p + p ≤ w * p := pixel_before hxw
          rw [hfb.length_colorBytes]
          omega
      · refine ⟨[], ?_, fun _ _ _ => rfl, ?_⟩
        · rw [Op.stores, hfb.showPixel_outside dwColor hin, Op.answer, if_neg hin]
        · intro canvas m hm x hx y hy
          have hnot : ¬ (iX.toInt = x ∧ iY.toInt = y) := by omega
          rw [Op.paint_showPixel, if_neg hnot]
          exact hm x hx y hy
  | cleanScreen dwBackColor =>
      obtain ⟨stores, hclean, hsame⟩ := hfb.cleanScreen_eq hfuel dwBackColor
      have hlen : ∀ x y : Nat, (colorBytes p dwBackColor).length = p :=
        fun _ _ => hfb.length_colorBytes dwBackColor
      refine ⟨stores, hclean, ?_, ?_⟩
      · intro m a ha
        have hfit : (0 + w) * p ≤ w * p := by rw [Nat.zero_add]
        have hover := overlays_pixels (r := ⟨0, 0, w, h⟩) hfit hlen m
        rw [hsame]
        apply hover.outside
        intro hcovers
        have hlt := hcovers.lt (h := h) hfit (Nat.zero_add h).le
        omega
      · intro canvas m _ x hx y hy
        rw [hsame]
        exact pixel_writeAll_whole hlen m hx hy
  | showPage page iTotalBytes =>
      cases page with
      | dispMem => exact ⟨[], rfl, fun _ _ _ => rfl, fun canvas m hm => hm⟩
      | other bytes =>
          have hsize : iTotalBytes.toUInt32.toNat = w * p * h := toNat_of_toInt hfits
          refine ⟨[(0, read bytes 0 (w * p * h))], ?_, ?_, ?_⟩
          · rw [Op.stores, Fb.showPage, hsize]
            rfl
          · intro m a ha
            apply writeAll_outside
            intro piece hpiece
            obtain rfl := List.mem_singleton.mp hpiece
            rw [length_read]
            omega
          · intro canvas m _ x hx y hy
            have hline : y * (w * p) + w * p ≤ w * p * h := line_le hy
            have hcol : x * p + p ≤ w * p := pixel_before hx
            have hcopy := read_write_same m 0 (read bytes 0 (w * p * h))
            rw [length_read] at hcopy
            have hpart : read (write m 0 (read bytes 0 (w * p * h))) (0 + (y * (w * p) + x * p)) p =
                read bytes (0 + (y * (w * p) + x * p)) p := read_part hcopy (by omega)
            rw [Nat.zero_add] at hpart
            exact hpart

/-- **Run lemma.** -/
theorem run {fuel : Nat} (hfuel : w * p * h < fuel) {ops : List Op}
    (hfits : ∀ op ∈ ops, op.Fits (w * p * h)) {canvas : Canvas} {m : Memory}
    (hm : Shows w h p canvas m) :
    ∃ m', draw fuel fb ops m = some (ops.map (Op.answer w h), m') ∧
      Shows w h p (ops.foldl (Op.paint w p) canvas) m' ∧ ∀ a, w * p * h ≤ a → m' a = m a := by
  induction ops generalizing canvas m with
  | nil => exact ⟨m, rfl, hm, fun _ _ => rfl⟩
  | cons op ops ih =>
      obtain ⟨stores, hstores, hrest, hpaint⟩ := hfb.step hfuel (hfits op List.mem_cons_self)
      obtain ⟨m', hdraw, hshows, hkeep⟩ :=
        ih (fun x hx => hfits x (List.mem_cons_of_mem _ hx)) (hpaint canvas m hm)
      refine ⟨m', ?_, hshows, fun a ha => (hkeep a ha).trans (hrest m a ha)⟩
      simp only [draw, hstores, Option.bind_eq_bind, Option.bind_some, hdraw, Option.pure_def,
        List.map_cons]

end Sized

/-- **The screen shows what was drawn last.**  On a framebuffer of 8, 16 or 32 bits a pixel,
for any sequence of calls whose pages have the size of the screen: every call returns, with -1
exactly for a pixel outside the screen; each pixel has the colour that the last call that
reaches it gives it; and no byte behind the screen changes. -/
theorem framebuffer_shows_last (xres yres bitsPerPixel : UInt32) {p : Nat}
    (hp : p = 1 ∨ p = 2 ∨ p = 4) (hbits : bitsPerPixel.toNat = 8 * p)
    (hwide : 0 < xres.toNat) (hhigh : 0 < yres.toNat)
    (hsmall : xres.toNat * yres.toNat * (8 * p) < 2 ^ 32) (ops : List Op)
    (hfits : ∀ op ∈ ops, op.Fits (xres.toNat * p * yres.toNat)) (m : Memory) (fuel : Nat)
    (hfuel : xres.toNat * p * yres.toNat < fuel) :
    ∃ m', draw fuel (deviceInit xres yres bitsPerPixel) ops m =
        some (ops.map (Op.answer xres.toNat yres.toNat), m') ∧
      (∀ x < xres.toNat, ∀ y < yres.toNat, pixel m' (xres.toNat * p) p x y =
        ops.foldl (Op.paint xres.toNat p) (pixel m (xres.toNat * p) p) x y) ∧
      ∀ a, xres.toNat * p * yres.toNat ≤ a → m' a = m a :=
  (sized_deviceInit hp hbits hwide hhigh hsmall).run hfuel hfits fun _ _ _ _ => rfl

/-- Two pixels of 16 bits: the screen is cleared, one pixel is set, and one is refused. -/
theorem framebuffer_two_pixels :
    ∃ m', draw 5 (deviceInit 2 1 16)
        [.cleanScreen 0, .showPixel 1 0 0xFF0000, .showPixel (-1) 0 0xFFFFFF] (fun _ => 7) =
          some ([0, 0, -1], m') ∧
      pixel m' 4 2 0 0 = [0, 0] ∧ pixel m' 4 2 1 0 = [0x00, 0xF8] ∧ m' 4 = 7 := by
  obtain ⟨m', hdraw, hpixels, hrest⟩ := framebuffer_shows_last 2 1 16 (p := 2) (by decide)
    (by decide) (by decide) (by decide) (by decide)
    [.cleanScreen 0, .showPixel 1 0 0xFF0000, .showPixel (-1) 0 0xFFFFFF]
    (by simp [Op.Fits]) (fun _ => 7) 5 (by decide)
  exact ⟨m', hdraw, hpixels 0 (by decide) 0 (by decide), hpixels 1 (by decide) 0 (by decide),
    hrest 4 (by decide)⟩

end Video2lcd.Fb
