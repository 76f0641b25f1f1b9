import UsbCamera.Video2lcd.RectFill

/-!
# Pages and buttons

The pages of the picture viewer in `1_th` are shown by `FlushVideoMemToDev`, which copies a page
to the screen unless it is the screen itself.  `PressButton` and `ReleaseButton` answer the
finger on such a page.  Both are `InvertButton`: every byte of a rectangle of the screen is
replaced by its complement, whatever is there.

So pressing and releasing are not two things but one, and what they leave depends on how often
they were called.  The abstract screen (`Look`) is a page and the set of pixels that are
pressed: a button call turns a pixel of its rectangle from pressed to not pressed and back, and
a page releases everything.  The program's screen is that one after any sequence of calls
(`screen_is_page_with_buttons`).
-/

namespace Video2lcd.InMemory

open ByteStore CInt Raster Address

/-- `T_DispOpr`, as far as drawing needs it. -/
structure Screen where
  iXres : Int32
  iYres : Int32
  iBpp : Int32
  iLineWidth : Int32
  pucDispMem : UInt32

/-- The screen as a picture. -/
def Screen.picture (o : Screen) : Picture where
  iWidth := o.iXres
  iHeight := o.iYres
  iBpp := o.iBpp
  iLineBytes := o.iLineWidth
  iTotalBytes := o.iLineWidth * o.iYres
  aucPixelDatas := o.pucDispMem

/-- The inner loop of `InvertButton`: the addresses of the bytes that it replaces. -/
def invertLine (pucVideoMem : UInt32) : Nat → UInt32 → List Nat
  | 0, _ => []
  | n + 1, i => (pucVideoMem + i).toNat :: invertLine pucVideoMem n (i + 1)

/-- The outer loop of `InvertButton`. -/
def invertLines (iButtonWidthBytes : Nat) (iLineWidth : UInt32) : Nat → UInt32 → List Nat
  | 0, _ => []
  | iY + 1, pucVideoMem =>
      invertLine pucVideoMem iButtonWidthBytes 0 ++
        invertLines iButtonWidthBytes iLineWidth iY (pucVideoMem + iLineWidth)

/-- `InvertButton`. -/
def invertButton (o : Screen) (layout : Layout) (m : Memory) : Memory :=
  let pucVideoMem := o.pucDispMem +
    (layout.iTopLeftY * o.iLineWidth + layout.iTopLeftX * o.iBpp / 8).toUInt32
  let iButtonWidthBytes := (layout.iBotRightX - layout.iTopLeftX + 1) * o.iBpp / 8
  modifyAll (~~~ ·) m (invertLines iButtonWidthBytes.toInt.toNat o.iLineWidth.toUInt32
    (rounds layout.iTopLeftY layout.iBotRightY) pucVideoMem)

/-- `PressButton`. -/
def pressButton : Screen → Layout → Memory → Memory := invertButton

/-- `ReleaseButton`. -/
def releaseButton : Screen → Layout → Memory → Memory := invertButton

/-- `T_VideoMem`, as far as `FlushVideoMemToDev` reads it: the bytes are those that the data
pointer leads to, `iTotalBytes` of them. -/
structure Page where
  bDevFrameBuffer : Bool
  bytes : List UInt8

/-- `FlushVideoMemToDev`, with `FBShowPage`. -/
def flushVideoMemToDev (o : Screen) (page : Page) (m : Memory) : Memory :=
  if page.bDevFrameBuffer then m else write m o.pucDispMem.toNat page.bytes

/-- A call that changes what is seen. -/
inductive UiCall
  | flush (page : Page)
  | press (layout : Layout)
  | release (layout : Layout)

def UiCall.run (o : Screen) (m : Memory) : UiCall → Memory
  | .flush page => flushVideoMemToDev o page m
  | .press layout => pressButton o layout m
  | .release layout => releaseButton o layout m

/-! ## What is seen -/

/-- The screen as one looks at it: the page, and which pixels are pressed. -/
structure Look where
  page : Nat → Nat → List UInt8
  pressed : Nat → Nat → Bool

/-- The colour of a pixel: a pressed one has the complement of the page's. -/
def Look.pixel (look : Look) (x y : Nat) : List UInt8 :=
  if look.pressed x y then (look.page x y).map (~~~ ·) else look.page x y

/-- A page with nothing pressed. -/
def Look.ofPage (w p : Nat) (page : Page) : Look where
  page := fun x y => (page.bytes.drop (y * (w * p) + x * p)).take p
  pressed := fun _ _ => false

/-- Pressing what is pressed releases it. -/
def Look.toggle (look : Look) (r : Rect) : Look :=
  { look with pressed := fun x y => (look.pressed x y).xor (r.Has x y) }

/-- What a call is for, on a screen of `w` pixels in a line and `p` bytes in a pixel. -/
def UiCall.show (w p : Nat) (look : Look) : UiCall → Look
  | .flush page =>
      if page.bDevFrameBuffer then look else .ofPage w p page
  | .press layout => look.toggle layout.rect
  | .release layout => look.toggle layout.rect

/-- Buttons lie on the screen, and a page is as large as it. -/
def UiCall.Fits (w h p : Nat) : UiCall → Prop
  | .flush page => page.bDevFrameBuffer = false → page.bytes.length = w * p * h
  | .press layout => layout.Inside w h
  | .release layout => layout.Inside w h

/-- The memory shows what is to be seen, and is `m₀` where the screen is not. -/
structure Displays (o : Screen) (w h p : Nat) (m₀ : Memory) (look : Look) (m : Memory) : Prop where
  pixels : ∀ x < w, ∀ y < h,
    pixel (window m o.pucDispMem.toNat) (w * p) p x y = look.pixel x y
  rest : ∀ a, a < o.pucDispMem.toNat ∨ o.pucDispMem.toNat + w * p * h ≤ a → m a = m₀ a

/-! ## The bytes of a button -/

/-- The bytes that the inner loop inverts. -/
theorem invertLine_eq (pucVideoMem : UInt32) (n : Nat) (i : UInt32) :
    invertLine pucVideoMem n i =
      (List.range n).map fun k => (pucVideoMem + (i + UInt32.ofNat k)).toNat :=
  index.map_rounds (fun i => (pucVideoMem + i).toNat) (fun _ => rfl) (fun _ _ => rfl) n i

/-- The bytes that both loops invert, line by line. -/
theorem invertLines_eq (n : Nat) (line : UInt32) (lines : Nat) (pucVideoMem : UInt32) :
    invertLines n line lines pucVideoMem =
      (List.range lines).flatMap fun y =>
        (List.range n).map fun k =>
          (pucVideoMem + UInt32.ofNat y * line + UInt32.ofNat k).toNat := by
  have hrounds := (steps line).flatMap_rounds (fun s => invertLine s n 0)
    (f := invertLines n line) (fun _ => rfl) (fun _ _ => rfl) lines pucVideoMem
  simp only [invertLine_eq, UInt32.zero_add] at hrounds
  exact hrounds

/-- A screen of `w` times `h` pixels of `p` bytes, as `FBDeviceInit` sets it up. -/
structure Screen.Sized (o : Screen) (w h p : Nat) : Prop where
  placed : Placed o.picture w h p (w * p)
  bits : w * (8 * p) < 2 ^ 31

section
variable {o : Screen} {w h p : Nat} {layout : Layout}

/-- The width of a screen is a positive `int`. -/
theorem Screen.Sized.width_lt (hscreen : o.Sized w h p) : w < 2 ^ 31 := by
  have hlt := o.iXres.toInt_lt
  have hwidth := hscreen.placed.width
  simp only [Screen.picture] at hwidth
  omega

/-- A button on the screen does not run over the end of a line. -/
theorem Layout.Inside.fit (hin : layout.Inside w h) :
    (layout.rect.left + layout.rect.width) * p ≤ w * p :=
  Nat.mul_le_mul_right p hin.right_le

/-- The address of a byte of a button, from its first byte on. -/
theorem Screen.Sized.button_address (hscreen : o.Sized w h p) (hin : layout.Inside w h)
    {y k : Nat} (hy : y < layout.rect.height) (hk : k < layout.rect.width * p) :
    (pixelAddress o.picture layout.iTopLeftX layout.iTopLeftY +
        UInt32.ofNat y * o.iLineWidth.toUInt32 + UInt32.ofNat k).toNat =
      o.pucDispMem.toNat + ((layout.rect.top + y) * (w * p) + layout.rect.left * p + k) := by
  have hfit := hin.fit (p := p)
  have hbottom := hin.bottom_le
  have hline : (layout.rect.top + y) * (w * p) + w * p ≤ w * p * h := line_le (by omega)
  have hfits : o.pucDispMem.toNat + w * p * h < 2 ^ 32 := hscreen.placed.fits
  rw [Nat.add_mul] at hfit hline
  have hbits : layout.rect.left * (8 * p) < 2 ^ 31 := by
    have hle : layout.rect.left * (8 * p) ≤ w * (8 * p) :=
      Nat.mul_le_mul_right _ (le_trans (Nat.le_add_right _ _) hin.right_le)
    have hwide := hscreen.bits
    omega
  have hstart := hscreen.placed.pixelAddress_toNat hin.left_eq hin.top_eq hbits
    (by simp only [Screen.picture]; omega)
  have hroom : (pixelAddress o.picture layout.iTopLeftX layout.iTopLeftY).toNat +
      (y * (w * p) + k * 1) < 2 ^ 32 := by
    rw [hstart]
    simp only [Screen.picture]
    omega
  have hstep := toNat_two_steps (toNat_of_toInt hscreen.placed.line)
    (show (1 : UInt32).toNat = 1 from rfl) hroom
  rw [hstart, UInt32.mul_one] at hstep
  rw [Nat.add_mul]
  refine hstep.trans ?_
  simp only [Screen.picture]
  omega

/-- `InvertButton` replaces the bytes of its rectangle. -/
theorem invertButton_eq (hscreen : o.Sized w h p) (hin : layout.Inside w h) (m : Memory) :
    invertButton o layout m =
      modifyAll (~~~ ·) m (layout.rect.cells o.pucDispMem.toNat (w * p) p) := by
  have haddress : o.pucDispMem +
      (layout.iTopLeftY * o.iLineWidth + layout.iTopLeftX * o.iBpp / 8).toUInt32 =
      pixelAddress o.picture layout.iTopLeftX layout.iTopLeftY := by
    rw [pixelAddress, Int32.toUInt32_add, UInt32.add_assoc]
    rfl
  have hwide : layout.rect.width * (8 * p) < 2 ^ 31 := by
    have hle : layout.rect.width * (8 * p) ≤ w * (8 * p) :=
      Nat.mul_le_mul_right _ (le_trans (Nat.le_add_left _ _) hin.right_le)
    have hbits := hscreen.bits
    omega
  have hbytes : ((layout.iBotRightX - layout.iTopLeftX + 1) * o.iBpp / 8).toInt =
      (layout.rect.width * p : Nat) :=
    toInt_pixel_bytes (hin.columns_eq hscreen.width_lt) hscreen.placed.depth hwide
  have hlines : rounds layout.iTopLeftY layout.iBotRightY = layout.rect.height := rfl
  unfold invertButton
  simp only [haddress, hbytes, Int.toNat_natCast, hlines, invertLines_eq, Rect.cells]
  congr 1
  refine List.flatMap_congr fun y hy => List.map_congr_left fun k hk => ?_
  exact hscreen.button_address hin (List.mem_range.mp hy) (List.mem_range.mp hk)

/-! ## One call, and all of them -/

/-- The complement of the complement. -/
theorem complement_twice (bytes : List UInt8) :
    (bytes.map (~~~ ·)).map (~~~ ·) = bytes := by
  simp [List.map_map, Function.comp_def]

/-- Pressing a button inverts its pixels and no others. -/
theorem Look.pixel_toggle (look : Look) (r : Rect) (x y : Nat) :
    (look.toggle r).pixel x y =
      if r.Has x y then (look.pixel x y).map (~~~ ·) else look.pixel x y := by
  by_cases hr : r.Has x y
  · cases hpressed : look.pressed x y with
    | false => simp [Look.pixel, Look.toggle, hr, hpressed]
    | true =>
        rw [if_pos hr, Look.pixel, Look.pixel, if_pos hpressed, complement_twice]
        simp [Look.toggle, hr, hpressed]
  · simp [Look.pixel, Look.toggle, hr]

/-- **Step lemma**, for a button. -/
theorem Displays.invert {m₀ m : Memory} {look : Look} (hd : Displays o w h p m₀ look m)
    (hscreen : o.Sized w h p) (hin : layout.Inside w h) :
    Displays o w h p m₀ (look.toggle layout.rect) (invertButton o layout m) := by
  rw [invertButton_eq hscreen hin]
  refine ⟨fun x hx y hy => ?_, fun a ha => ?_⟩
  · rw [pixel_modifyAll hin.fit _ _ (pixel_before hx), hd.pixels x hx y hy, look.pixel_toggle]
  · rw [modifyAll_cells_outside hin.fit _ _ hin.bottom_le ha]
    exact hd.rest a ha

/-- **Step lemma**, for a page. -/
theorem Displays.flush {m₀ m : Memory} {look : Look} (hd : Displays o w h p m₀ look m)
    {page : Page} (hfits : (UiCall.flush page).Fits w h p) :
    Displays o w h p m₀ ((UiCall.flush page).show w p look) (flushVideoMemToDev o page m) := by
  cases hdevice : page.bDevFrameBuffer with
  | true =>
      have hshow : (UiCall.flush page).show w p look = look := by simp [UiCall.show, hdevice]
      have hsame : flushVideoMemToDev o page m = m := by simp [flushVideoMemToDev, hdevice]
      rw [hshow, hsame]
      exact hd
  | false =>
      have hlen : page.bytes.length = w * p * h := hfits hdevice
      have hshow : (UiCall.flush page).show w p look = .ofPage w p page := by
        simp [UiCall.show, hdevice]
      have hcopy : flushVideoMemToDev o page m = write m (o.pucDispMem.toNat + 0) page.bytes := by
        simp [flushVideoMemToDev, hdevice]
      rw [hshow, hcopy]
      refine ⟨fun x hx y hy => ?_, fun a ha => ?_⟩
      · have hline : y * (w * p) + w * p ≤ w * p * h := line_le hy
        have hcol : x * p + p ≤ w * p := pixel_before hx
        have hread := read_write_part (window m o.pucDispMem.toNat) 0 page.bytes
          (show y * (w * p) + x * p + p ≤ page.bytes.length by omega)
        rw [Nat.zero_add] at hread
        rw [window_write]
        exact hread
      · rw [write_outside _ _ _ _ (by omega)]
        exact hd.rest a ha

/-- **One call.** -/
theorem Displays.step {m₀ m : Memory} {look : Look} (hd : Displays o w h p m₀ look m)
    (hscreen : o.Sized w h p) {call : UiCall} (hfits : call.Fits w h p) :
    Displays o w h p m₀ (call.show w p look) (call.run o m) := by
  cases call with
  | flush page => exact hd.flush hfits
  | press layout => exact hd.invert hscreen hfits
  | release layout => exact hd.invert hscreen hfits

/-- **Any number of calls.** -/
theorem Displays.run {m₀ m : Memory} {look : Look} (hd : Displays o w h p m₀ look m)
    (hscreen : o.Sized w h p) {calls : List UiCall} (hfits : ∀ call ∈ calls, call.Fits w h p) :
    Displays o w h p m₀ (calls.foldl (UiCall.show w p) look) (calls.foldl (UiCall.run o) m) := by
  induction calls generalizing m look with
  | nil => exact hd
  | cons call rest ih =>
      have hhead := hd.step hscreen (hfits call List.mem_cons_self)
      exact ih hhead fun c hc => hfits c (List.mem_cons_of_mem _ hc)

/-- A call that keeps the page: a button, or a flush of the device's own page, which is on the
screen already. -/
def UiCall.KeepsPage : UiCall → Prop
  | .flush page => page.bDevFrameBuffer = true
  | .press _ => True
  | .release _ => True

/-- A button call that reaches the pixel. -/
def UiCall.hits (x y : Nat) : UiCall → Bool
  | .flush _ => false
  | .press layout => layout.rect.Has x y
  | .release layout => layout.rect.Has x y

/-- A call that keeps the page inverts the pixels that it hits. -/
theorem UiCall.show_keeps {call : UiCall} (hkeeps : call.KeepsPage) (look : Look) :
    (call.show w p look).page = look.page ∧
      ∀ x y, (call.show w p look).pressed x y = (look.pressed x y).xor (call.hits x y) := by
  cases call with
  | flush page =>
      have hown : page.bDevFrameBuffer = true := hkeeps
      simp [UiCall.show, UiCall.hits, hown]
  | press layout => exact ⟨rfl, fun _ _ => rfl⟩
  | release layout => exact ⟨rfl, fun _ _ => rfl⟩

/-- Buttons leave the page, and a pixel is pressed by every other call. -/
theorem look_after_buttons {calls : List UiCall} (hbuttons : ∀ call ∈ calls, call.KeepsPage)
    (look : Look) :
    (calls.foldl (UiCall.show w p) look).page = look.page ∧
      ∀ x y, (calls.foldl (UiCall.show w p) look).pressed x y =
        (look.pressed x y).xor (calls.countP (·.hits x y) % 2 = 1) := by
  induction calls generalizing look with
  | nil => simp
  | cons call rest ih =>
      obtain ⟨hpage, hpressed⟩ :=
        UiCall.show_keeps (w := w) (p := p) (hbuttons call List.mem_cons_self) look
      obtain ⟨hpages, hrest⟩ :=
        ih (fun c hc => hbuttons c (List.mem_cons_of_mem _ hc)) (call.show w p look)
      refine ⟨hpages.trans hpage, fun x y => ?_⟩
      rw [List.foldl_cons, hrest, hpressed, Bool.xor_assoc, List.countP_cons]
      cases hhit : call.hits x y with
      | false => simp
      | true =>
          congr 1
          rcases Nat.mod_two_eq_zero_or_one (rest.countP (·.hits x y)) with heven | hodd
          · simp [heven, Nat.add_mod]
          · simp [hodd, Nat.add_mod]

/-- **The screen is the last page with its buttons.**  Let all pages have the size of the screen,
and let all buttons lie on it.  After a page that is not the device's own has been shown, and
whatever came before it, a pixel has the page's colour, or its complement if an odd number of
button calls have reached it since.  No byte outside the screen is touched. -/
theorem screen_is_page_with_buttons (hscreen : o.Sized w h p) {before since : List UiCall}
    {page : Page} (hpage : page.bDevFrameBuffer = false)
    (hlen : page.bytes.length = w * p * h) (hbefore : ∀ call ∈ before, call.Fits w h p)
    (hsince : ∀ call ∈ since, call.KeepsPage ∧ call.Fits w h p) (m : Memory) :
    let m' := (before ++ .flush page :: since).foldl (UiCall.run o) m
    (∀ x < w, ∀ y < h, pixel (window m' o.pucDispMem.toNat) (w * p) p x y =
      if since.countP (·.hits x y) % 2 = 1 then
        ((page.bytes.drop (y * (w * p) + x * p)).take p).map (~~~ ·)
      else (page.bytes.drop (y * (w * p) + x * p)).take p) ∧
    ∀ a, a < o.pucDispMem.toNat ∨ o.pucDispMem.toNat + w * p * h ≤ a → m' a = m a := by
  intro m'
  have hstart : Displays o w h p m
      ⟨pixel (window m o.pucDispMem.toNat) (w * p) p, fun _ _ => false⟩ m :=
    ⟨fun _ _ _ _ => rfl, fun _ _ => rfl⟩
  have hfits : ∀ call ∈ before ++ .flush page :: since, call.Fits w h p := by
    intro call hcall
    rcases List.mem_append.mp hcall with hcall | hcall
    · exact hbefore call hcall
    · rcases List.mem_cons.mp hcall with rfl | hcall
      · exact fun _ => hlen
      · exact (hsince call hcall).2
  have hshown := hstart.run hscreen hfits
  obtain ⟨hlook, hpressed⟩ := look_after_buttons (w := w) (p := p)
    (fun call hcall => (hsince call hcall).1) (.ofPage w p page)
  have hflush : ∀ look, (UiCall.flush page).show w p look = .ofPage w p page := by
    intro look
    simp [UiCall.show, hpage]
  rw [List.foldl_append, List.foldl_cons, hflush] at hshown
  refine ⟨fun x hx y hy => ?_, hshown.rest⟩
  rw [hshown.pixels x hx y hy, Look.pixel, hlook, hpressed]
  simp [Look.ofPage]

end

/-- A screen of three pixels by two, of one byte each. -/
def smallScreen : Screen := ⟨3, 2, 8, 3, 0x1000⟩

/-- A page with the button on its right pressed, and then the device's own page is flushed. -/
theorem page_with_button_pressed :
    let m' := ([UiCall.press ⟨0, 0, 0, 0⟩] ++ UiCall.flush ⟨false, [10, 20, 30, 40, 50, 60]⟩ ::
        [UiCall.press ⟨1, 0, 2, 1⟩, UiCall.flush ⟨true, []⟩]).foldl
      (UiCall.run smallScreen) fun _ => 7
    pixel (window m' 0x1000) 3 1 0 1 = [40] ∧ pixel (window m' 0x1000) 3 1 2 1 = [195] ∧
      m' 0x1006 = 7 := by
  have hscreen : smallScreen.Sized 3 2 1 :=
    ⟨⟨rfl, rfl, rfl, rfl, by decide, by decide⟩, by decide⟩
  have hinside : (⟨1, 0, 2, 1⟩ : Layout).Inside 3 2 :=
    ⟨by decide, by decide, by decide, by decide, by decide, by decide⟩
  have hcorner : (⟨0, 0, 0, 0⟩ : Layout).Inside 3 2 :=
    ⟨by decide, by decide, by decide, by decide, by decide, by decide⟩
  have hbefore : ∀ call ∈ [UiCall.press ⟨0, 0, 0, 0⟩], call.Fits 3 2 1 := by
    intro call hcall
    obtain rfl := List.mem_singleton.mp hcall
    exact hcorner
  have hsince : ∀ call ∈ [UiCall.press ⟨1, 0, 2, 1⟩, UiCall.flush ⟨true, []⟩],
      call.KeepsPage ∧ call.Fits 3 2 1 := by
    intro call hcall
    rcases List.mem_cons.mp hcall with rfl | hcall
    · exact ⟨trivial, hinside⟩
    · obtain rfl := List.mem_singleton.mp hcall
      exact ⟨rfl, fun hother => by cases hother⟩
  have hpage : (⟨false, [10, 20, 30, 40, 50, 60]⟩ : Page).bDevFrameBuffer = false := rfl
  have hmain := screen_is_page_with_buttons hscreen hpage rfl hbefore hsince fun _ => 7
  exact ⟨hmain.1 0 (by decide) 1 (by decide), hmain.1 2 (by decide) 1 (by decide),
    hmain.2 0x1006 (by decide)⟩

end Video2lcd.InMemory
