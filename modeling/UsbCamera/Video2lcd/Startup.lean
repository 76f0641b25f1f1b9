import UsbCamera.Video2lcd.ColorTables
import UsbCamera.Video2lcd.Framebuffer
import UsbCamera.Video2lcd.InitUndo
import UsbCamera.Video2lcd.ShownFrames

/-!
# The program from its start

Before its loop `main` registers and initialises the display, clears the screen, sets up the
camera, looks for a converter between the two formats and starts the camera.  Not every
failure is noticed: `SelectAndInitDefaultDispDev` throws the result of `FBDeviceInit` away,
`FBDeviceInit` goes on when the framebuffer cannot be opened and takes `MAP_FAILED` for an
address, `V4l2InitDevice` may leave a pixel format that was on the stack before, and `initLut`
stores to tables that `malloc` has refused.

None of this gets far: a display that does not work has no format, there are converters from
three formats only, and a store to `NULL` ends the program.  So the loop is reached with a
display of 16 or 32 bits and a camera format that the converter takes, and only then is the
camera started (`main_starts_iff`).  The one thing that nothing stops are more buffers than
`pucVideBuf` has room for.
What is on the screen in the loop is then known to the last pixel: the last frame in the
middle, and black around it (`program_shows_last_frame`).
-/

namespace Video2lcd

open ByteStore CInt Raster

/-- What the kernel answers to `FBDeviceInit`. -/
structure FbAnswers where
  -- `FBIOGET_VSCREENINFO`: `xres`, `yres` and `bits_per_pixel`
  var : Option (UInt32 × UInt32 × UInt32)
  -- whether `FBIOGET_FSCREENINFO` succeeds
  fix : Bool
  -- the memory, or `MAP_FAILED`
  mmap : Option (Nat → UInt8)

/-- The variables of `fb.c`, and the display operations. -/
structure Display where
  statics : Fb.Framebuffer
  -- `none` for `NULL` and for `MAP_FAILED`
  pucFBMem : Option (Nat → UInt8)
  opr : DispOpr

/-- The variables when the program is started. -/
def Display.cleared : Display where
  statics := ⟨0, 0, 0, 0, 0, 0⟩
  pucFBMem := none
  opr := ⟨0, 0, 0, 0, .null⟩

/-- `FBDeviceInit` -/
def Display.deviceInit (a : FbAnswers) : Int32 × Display :=
  match a.var with
  | none => (-1, .cleared)
  | some (xres, yres, bitsPerPixel) =>
      if a.fix then
        let opr := fbDeviceInit xres yres bitsPerPixel (a.mmap.getD fun _ => 0)
        -- the pointer is compared as one without a sign, and `MAP_FAILED` is not below 0
        (0, { statics := Fb.deviceInit xres yres bitsPerPixel
              pucFBMem := a.mmap
              opr := { opr with pucDispMem := if a.mmap.isSome then opr.pucDispMem else .null } })
      else (-1, { Display.cleared with statics := ⟨xres, yres, bitsPerPixel, 0, 0, 0⟩ })

/-- Why `main` does not reach its loop. -/
inductive Stop
  -- it returns -1
  | usage
  | device
  | convert
  | start
  -- a store to memory that is not there
  | fault
  -- a store behind the array `pucVideBuf`; nothing is said of what follows
  | overrun
  -- the loop of `FBCleanScreen` is still running
  | cleaning
deriving DecidableEq, Repr

/-- The modules that `DisplayInit` registers, by their names. -/
def dispOprs : List String := ["fb"]

/-- `SelectAndInitDefaultDispDev`; `none` is a `g_ptDefaultDispOpr` of `NULL`. -/
def selectAndInitDefaultDispDev (fuel : Nat) (name : String) (a : FbAnswers) :
    Except Stop (Option DispOpr) :=
  match dispOprs.find? (· == name) with
  | none => .ok none
  | some _ =>
      let display := (Display.deviceInit a).2
      match Fb.cleanScreen fuel display.statics 0 with
      | none => .error .cleaning
      | some (_, stores) =>
          match display.pucFBMem with
          | some _ =>
              .ok (some { display.opr with pucDispMem := display.opr.pucDispMem.store stores })
          | none =>
              if stores.all (·.2.isEmpty) then .ok (some display.opr) else .error .fault

/-- What `main` is given from outside before its loop. -/
structure Env where
  argc : Int32
  fb : FbAnswers
  camera : Answers
  -- `tVideoDevice`, which is on the stack and not initialised
  device : VideoDevice
  -- the answers of `malloc` to `initLut`
  lut : Lut → Option (Nat → Int)
  streamon : Int32

/-- What `VideoDeviceInit` makes of the camera, on a display of this size. -/
def Env.videoDevice (env : Env) (iXres iYres : Int32) : Option Initialised :=
  (videoDeviceInit [v4l2InitTraced { env.camera with lcdWidth := iXres, lcdHeight := iYres }
    g_tV4l2VideoOpr] env.device).2

/-- `V4l2InitDevice` has mapped more buffers than `pucVideBuf` has room for. -/
def Env.Overruns (env : Env) (r : Initialised) : Prop :=
  env.camera.Streams ∧ NB_BUFFER.toInt32 < r.device.iVideoBufCnt

instance (env : Env) (r : Initialised) : Decidable (env.Overruns r) :=
  inferInstanceAs (Decidable (_ ∧ _))

/-- `main` in front of its loop. -/
structure Started where
  loop : Main
  camera : Initialised
  -- the tables of `color.c`
  tables : Tables

/-- `main` up to its loop. -/
def startMain (fuel : Nat) (env : Env) : Except Stop Started :=
  if env.argc ≠ 2 then .error .usage
  else
    match selectAndInitDefaultDispDev fuel "fb" env.fb with
    | .error stop => .error stop
    -- `GetVideoBufForDisplay` follows the pointer
    | .ok none => .error .fault
    | .ok (some o) =>
        match env.videoDevice o.iXres o.iYres with
        | none => .error .device
        | some r =>
            if env.Overruns r then .error .overrun
            else
              -- `VideoConvertInit`
              match initLut env.lut with
              | none => .error .fault
              | some tables =>
                  match getVideoConvertForFormats r.device.iPixelFormat
                      (getVideoBufForDisplay o).iPixelFormat with
                  | none => .error .convert
                  | some ptVideoConvert =>
                      if env.streamon ≠ 0 then .error .start
                      else .ok ⟨Main.start o r.device.iPixelFormat ptVideoConvert, r, tables⟩

/-! ### The display -/

/-- The sizes that the framebuffer's driver reports can be computed with, and `fuel` is enough
for them. -/
def FbAnswers.Fits (a : FbAnswers) (fuel : Nat) : Prop :=
  ∀ xres yres bitsPerPixel, a.var = some (xres, yres, bitsPerPixel) →
    0 < xres.toNat ∧ 0 < yres.toNat ∧
      xres.toNat * yres.toNat * bitsPerPixel.toNat < 2 ^ 32 ∧
      xres.toNat * yres.toNat * bitsPerPixel.toNat < fuel

/-- All pixels of the screen are black. -/
def Black (W H p : Nat) (mem : Nat → UInt8) : Prop :=
  ∀ x < W, ∀ y < H, pixel mem (W * p) p x y = List.replicate p 0

theorem colorBytes_black {p : Nat} (hp : p = 1 ∨ p = 2 ∨ p = 4) :
    InMemory.colorBytes p 0 = List.replicate p 0 := by
  rcases hp with rfl | rfl | rfl <;> rfl

/-- A depth of 16 or 32, as the display's variable keeps it. -/
theorem depth_cases {bitsPerPixel : UInt32}
    (h : bitsPerPixel.toInt32 = 16 ∨ bitsPerPixel.toInt32 = 32) :
    bitsPerPixel = 16 ∨ bitsPerPixel = 32 := by
  refine h.imp (fun h => ?_) (fun h => ?_)
  · rw [← UInt32.toUInt32_toInt32 bitsPerPixel, h]
    rfl
  · rw [← UInt32.toUInt32_toInt32 bitsPerPixel, h]
    rfl

/-- Such a depth is of two or four bytes. -/
theorem bytes_of_depth {bitsPerPixel : UInt32} (h : bitsPerPixel = 16 ∨ bitsPerPixel = 32) :
    ∃ p, (p = 2 ∨ p = 4) ∧ bitsPerPixel.toNat = 8 * p := by
  rcases h with rfl | rfl
  · exact ⟨2, Or.inl rfl, rfl⟩
  · exact ⟨4, Or.inr rfl, rfl⟩

/-- Stores of nothing do nothing. -/
theorem writeAll_of_empty {stores : InMemory.Stores} (h : stores.all (·.2.isEmpty))
    (mem : Nat → UInt8) : writeAll mem stores = mem := by
  funext x
  apply writeAll_outside
  intro piece hpiece
  have hempty : piece.2 = [] := by simpa using List.all_eq_true.mp h piece hpiece
  rw [hempty, List.length_nil]
  omega

section
variable {fuel : Nat} {a : FbAnswers} {xres yres bitsPerPixel : UInt32} {p : Nat}

/-- What `FBCleanScreen` stores on a screen of a known depth. -/
theorem FbAnswers.Fits.cleanScreen (hfits : a.Fits fuel)
    (hvar : a.var = some (xres, yres, bitsPerPixel)) (hp : p = 1 ∨ p = 2 ∨ p = 4)
    (hbits : bitsPerPixel.toNat = 8 * p) :
    ∃ stores, Fb.cleanScreen fuel (Fb.deviceInit xres yres bitsPerPixel) 0 = some (0, stores) ∧
      ∀ mem, Black xres.toNat yres.toNat p (writeAll mem stores) := by
  obtain ⟨hwide, hhigh, hsmall, hfuel⟩ := hfits _ _ _ hvar
  rw [hbits] at hsmall hfuel
  have hexp : xres.toNat * yres.toNat * (8 * p) = 8 * (xres.toNat * p * yres.toNat) := by ring
  have hsized := Fb.sized_deviceInit hp hbits hwide hhigh hsmall
  have hrounds : xres.toNat * p * yres.toNat < fuel := by omega
  obtain ⟨stores, hclean, hsame⟩ := hsized.cleanScreen_eq hrounds 0
  refine ⟨stores, hclean, ?_⟩
  intro mem x hx y hy
  rw [hsame, pixel_writeAll_whole (fun _ _ => hsized.length_colorBytes 0) mem hx hy,
    colorBytes_black hp]

/-- Clearing a screen of 16 or 32 bits takes stores. -/
theorem FbAnswers.Fits.stores_something (hfits : a.Fits fuel)
    (hvar : a.var = some (xres, yres, bitsPerPixel))
    (hdepth : bitsPerPixel = 16 ∨ bitsPerPixel = 32) {ret : Int32} {stores : InMemory.Stores}
    (hclean : Fb.cleanScreen fuel (Fb.deviceInit xres yres bitsPerPixel) 0 = some (ret, stores)) :
    ¬ stores.all (·.2.isEmpty) := by
  intro hempty
  obtain ⟨p, hp, hbits⟩ := bytes_of_depth hdepth
  obtain ⟨stores', hclean', hblack⟩ := hfits.cleanScreen hvar (Or.inr hp) hbits
  obtain ⟨-, rfl⟩ := Prod.mk.inj (Option.some.inj (hclean.symm.trans hclean'))
  obtain ⟨hwide, hhigh, -⟩ := hfits _ _ _ hvar
  have hpixel := hblack (fun _ => 1) 0 hwide 0 hhigh
  rw [writeAll_of_empty hempty] at hpixel
  rcases hp with rfl | rfl <;> simp [pixel, ByteStore.read, List.range_succ] at hpixel

/-- A framebuffer that works is cleared. -/
theorem FbAnswers.Fits.select (hfits : a.Fits fuel)
    (hvar : a.var = some (xres, yres, bitsPerPixel)) (hfix : a.fix = true) {mem : Nat → UInt8}
    (hmmap : a.mmap = some mem) (hp : p = 1 ∨ p = 2 ∨ p = 4)
    (hbits : bitsPerPixel.toNat = 8 * p) :
    ∃ mem', selectAndInitDefaultDispDev fuel "fb" a =
        .ok (some (fbDeviceInit xres yres bitsPerPixel mem')) ∧
      Black xres.toNat yres.toNat p mem' := by
  obtain ⟨stores, hclean, hblack⟩ := hfits.cleanScreen hvar hp hbits
  refine ⟨writeAll mem stores, ?_, hblack mem⟩
  have hfound : dispOprs.find? (· == "fb") = some "fb" := by decide
  simp only [selectAndInitDefaultDispDev, hfound, Display.deviceInit, hvar, hfix, if_true, hclean,
    hmmap, Option.getD_some, Option.isSome_some]
  rfl

/-- The depth of a display that was selected is 16 or 32 only if its framebuffer works. -/
theorem FbAnswers.Fits.works (hfits : a.Fits fuel) {o : DispOpr}
    (hselect : selectAndInitDefaultDispDev fuel "fb" a = .ok (some o))
    (hdepth : o.iBpp = 16 ∨ o.iBpp = 32) :
    ∃ xres yres bitsPerPixel mem, a.var = some (xres, yres, bitsPerPixel) ∧ a.fix = true ∧
      a.mmap = some mem ∧ (bitsPerPixel = 16 ∨ bitsPerPixel = 32) := by
  have hfound : dispOprs.find? (· == "fb") = some "fb" := by decide
  have hshallow : ∀ d : Display, d.opr.iBpp = 0 → d.pucFBMem = none →
      (Display.deviceInit a).2 = d → False := by
    intro d hzero hnone hd
    simp only [selectAndInitDefaultDispDev, hfound, hd, hnone] at hselect
    split at hselect
    · cases hselect
    · split at hselect
      · cases hselect
        rw [hzero] at hdepth
        exact absurd hdepth (by decide)
      · cases hselect
  cases hvar : a.var with
  | none => exact absurd (by simp [Display.deviceInit, hvar]) (hshallow .cleared rfl rfl)
  | some v =>
      obtain ⟨xres, yres, bitsPerPixel⟩ := v
      cases hfix : a.fix with
      | false =>
          exact absurd (by simp [Display.deviceInit, hvar, hfix])
            (hshallow { Display.cleared with statics := ⟨xres, yres, bitsPerPixel, 0, 0, 0⟩ }
              rfl rfl)
      | true =>
          have hinit : (Display.deviceInit a).2.opr.iBpp = bitsPerPixel.toInt32 := by
            simp only [Display.deviceInit, hvar, hfix, if_true]
            rfl
          have hstatics : (Display.deviceInit a).2.statics =
              Fb.deviceInit xres yres bitsPerPixel := by
            simp only [Display.deviceInit, hvar, hfix, if_true]
          have hmem : (Display.deviceInit a).2.pucFBMem = a.mmap := by
            simp only [Display.deviceInit, hvar, hfix, if_true]
          simp only [selectAndInitDefaultDispDev, hfound, hstatics, hmem] at hselect
          split at hselect
          · cases hselect
          · rename_i ret stores hclean
            cases hmmap : a.mmap with
            | some mem =>
                rw [hmmap] at hselect
                cases hselect
                exact ⟨xres, yres, bitsPerPixel, mem, rfl, rfl, rfl, depth_cases (hinit ▸ hdepth)⟩
            | none =>
                rw [hmmap] at hselect
                simp only at hselect
                split at hselect
                · rename_i hempty
                  cases hselect
                  exact absurd hempty
                    (hfits.stores_something hvar (depth_cases (hinit ▸ hdepth)) hclean)
                · cases hselect

end

/-! ### The formats -/

/-- There are converters from the formats that `isSupportThisFormat` knows, to the two formats of
a display. -/
theorem getVideoConvertForFormats_some_iff {iPixelFormatIn iPixelFormatOut : Int32} :
    (∃ c, getVideoConvertForFormats iPixelFormatIn iPixelFormatOut = some c) ↔
      iPixelFormatIn ∈ g_aiSupportedFormats ∧
        (iPixelFormatOut = V4L2_PIX_FMT_RGB565 ∨ iPixelFormatOut = V4L2_PIX_FMT_RGB32) := by
  rw [← Option.isSome_iff_exists, getVideoConvertForFormats, List.find?_isSome]
  simp only [videoConverts, Converter.isSupport, Converter.formatIn, g_aiSupportedFormats,
    List.mem_cons, List.not_mem_nil, or_false, Bool.and_eq_true, Bool.or_eq_true, beq_iff_eq]
  constructor
  · rintro ⟨c, rfl | rfl | rfl, hin, hout⟩
    · exact ⟨Or.inl hin, hout⟩
    · exact ⟨Or.inr (Or.inl hin), hout⟩
    · exact ⟨Or.inr (Or.inr hin), hout⟩
  · rintro ⟨hin, hout⟩
    rcases hin with hin | hin | hin
    · exact ⟨.yuv2Rgb, by simp, hin, hout⟩
    · exact ⟨.mjpeg2Rgb, by simp, hin, hout⟩
    · exact ⟨.rgb2Rgb, by simp, hin, hout⟩

/-- A display has one of these formats when its depth is 16 or 32. -/
theorem display_format_iff (o : DispOpr) :
    ((getVideoBufForDisplay o).iPixelFormat = V4L2_PIX_FMT_RGB565 ∨
      (getVideoBufForDisplay o).iPixelFormat = V4L2_PIX_FMT_RGB32) ↔
      o.iBpp = 16 ∨ o.iBpp = 32 := by
  simp only [getVideoBufForDisplay]
  by_cases h16 : o.iBpp = 16
  · simp [h16]
  · by_cases h32 : o.iBpp = 32
    · simp [h32]
    · simp only [h16, h32, if_false, or_self, iff_false]
      decide

/-- The stages of `main` in turn. -/
theorem startMain_ok_iff {fuel : Nat} {env : Env} {s : Started} :
    startMain fuel env = .ok s ↔ env.argc = 2 ∧ ∃ o,
      selectAndInitDefaultDispDev fuel "fb" env.fb = .ok (some o) ∧
      env.videoDevice o.iXres o.iYres = some s.camera ∧ ¬ env.Overruns s.camera ∧
      initLut env.lut = some s.tables ∧
      (∃ c, getVideoConvertForFormats s.camera.device.iPixelFormat
          (getVideoBufForDisplay o).iPixelFormat = some c ∧
        s.loop = Main.start o s.camera.device.iPixelFormat c) ∧ env.streamon = 0 := by
  constructor
  · intro h
    unfold startMain at h
    split at h
    · cases h
    · rename_i hargc
      split at h
      · cases h
      · cases h
      · rename_i o hselect
        split at h
        · cases h
        · rename_i r hinit
          split at h
          · cases h
          · rename_i hroom
            split at h
            · cases h
            · rename_i tables htables
              split at h
              · cases h
              · rename_i c hconvert
                split at h
                · cases h
                · rename_i hstart
                  cases h
                  exact ⟨not_not.mp hargc, o, hselect, hinit, hroom, htables, ⟨c, hconvert, rfl⟩,
                    not_not.mp hstart⟩
  · intro h
    obtain ⟨loop, camera, tables⟩ := s
    obtain ⟨hargc, o, hselect, hinit, hroom, htables, ⟨c, hconvert, hloop⟩, hstart⟩ := h
    simp only at hinit hroom htables hconvert hloop
    simp [startMain, hargc, hselect, hinit, hroom, htables, hconvert, hloop, hstart]

/-- A framebuffer of two pixels with something in it, and a camera of one pixel that has the
display's format. -/
def smallEnv : Env where
  argc := 2
  fb := ⟨some (2, 1, 16), true, some fun _ => 7⟩
  camera := { obligingDriver [0x50424752] 4 with sFmt := fun _ _ _ => (0, 1, 1) }
  device := uninitialisedDevice 0
  lut := fun _ => some fun _ => 0
  streamon := 0

theorem smallEnv_fits : smallEnv.fb.Fits 33 := by
  intro xres yres bitsPerPixel hvar
  cases hvar
  decide

/-- **The screen, to the last pixel.**  Let the program start on a framebuffer of `W` by `H`
pixels, whatever was in it, with a camera that delivers the display's format or JPEG pictures
of three components, all frames of one size, and with memory enough.  After any number of
passes `main` has not returned, the last frame is in the middle of the screen, in its own size
or scaled down to the screen, and all around it is black. -/
theorem program_shows_last_frame {w h W H p : Nat} (g : Geometry w h W H p) {fuel : Nat}
    (hfuel : W * H * (8 * p) < fuel) {env : Env} {mem : Nat → UInt8}
    (hfb : env.fb = ⟨some (UInt32.ofNat W, UInt32.ofNat H, UInt32.ofNat (8 * p)), true, some mem⟩)
    {s : Started} (hstart : startMain fuel env = .ok s) (earlier : List Pass) (i : Pass)
    (picture : Nat → Nat → List UInt8)
    (hearlier : ∀ j ∈ earlier, j.HasMemory ∧ ∃ picture, s.loop.Takes j w h p picture)
    (hmem : i.HasMemory) (htakes : s.loop.Takes i w h p picture) :
    ∃ m, Main.passes s.tables.fromYuv scaleToScreen (earlier ++ [i]) s.loop = some m ∧
      (∀ x < (shownRect w h W H).width, ∀ y < (shownRect w h W H).height,
        pixel m.screen (W * p) p ((shownRect w h W H).left + x) ((shownRect w h W H).top + y) =
          shownPicture w h W H picture x y) ∧
      ∀ x < W, ∀ y < H, ¬ (shownRect w h W H).Has x y →
        pixel m.screen (W * p) p x y = List.replicate p 0 := by
  have hwidth := g.lcdWidth
  have hheight := g.lcdHeight
  have hscreen := g.screen
  have hexp : W * H * (8 * p) = 8 * (W * p * H) := by ring
  have hW : (UInt32.ofNat W).toNat = W := UInt32.toNat_ofNat_of_lt' (show W < 2 ^ 32 by omega)
  have hH : (UInt32.ofNat H).toNat = H := UInt32.toNat_ofNat_of_lt' (show H < 2 ^ 32 by omega)
  have hbits : (UInt32.ofNat (8 * p)).toNat = 8 * p := by
    rcases g.pixel with rfl | rfl <;> rfl
  have hfits : env.fb.Fits fuel := by
    intro xres yres bitsPerPixel hvar
    rw [hfb] at hvar
    cases hvar
    rw [hW, hH, hbits]
    omega
  obtain ⟨-, o, hselect, -, -, -, ⟨c, -, hloop⟩, -⟩ := startMain_ok_iff.mp hstart
  obtain ⟨mem', hselect', hblack⟩ :=
    hfits.select (by rw [hfb]) (by rw [hfb]) (by rw [hfb]) (Or.inr g.pixel) hbits
  obtain rfl := Option.some.inj (Except.ok.inj (hselect.symm.trans hselect'))
  rw [hloop] at hearlier htakes ⊢
  obtain ⟨m, hrun, hover⟩ := (g.running_start mem' _ c).last g hearlier hmem htakes
    s.tables.fromYuv
  refine ⟨m, hrun, hover.inside, ?_⟩
  intro x hx y hy hout
  have hfit : ((shownRect w h W H).left + (shownRect w h W H).width) * p ≤ W * p := by
    apply Nat.mul_le_mul_right
    have hshown := g.shown_fits.1
    simp only [shownRect]
    omega
  rw [hover.pixel_outside hfit (pixel_before hx) hout]
  rw [hW, hH] at hblack
  exact hblack x hx y hy

/-- A white frame of one pixel, twice. -/
theorem program_shows_white_pixel :
    ∃ s m, startMain 33 smallEnv = .ok s ∧
      Main.passes s.tables.fromYuv scaleToScreen [whitePixel, whitePixel] s.loop = some m ∧
      pixel m.screen 4 2 0 0 = [255, 255] ∧ pixel m.screen 4 2 1 0 = [0, 0] := by
  obtain ⟨s, hs⟩ : ∃ s, startMain 33 smallEnv = .ok s := ⟨_, rfl⟩
  have htakes : s.loop.Takes whitePixel 1 1 2 (pixel (fun _ => 255) 2 2) := by
    cases hs
    exact .same (by decide) ⟨rfl, rfl, rfl, rfl, by decide⟩
  obtain ⟨m, hrun, hshown, hblack⟩ := program_shows_last_frame geometry_twoPixels (by decide) rfl
    hs [whitePixel] whitePixel _ (by
      intro j hj
      obtain rfl := List.mem_singleton.mp hj
      exact ⟨whitePixel_hasMemory, _, htakes⟩) whitePixel_hasMemory htakes
  have hrect : shownRect 1 1 2 1 = ⟨0, 0, 1, 1⟩ := rfl
  refine ⟨s, m, hs, hrun, hshown 0 (by decide) 0 (by decide), hblack 1 (by decide) 0 (by decide) ?_⟩
  rw [hrect]
  intro hin
  exact absurd hin.1.2 (by decide)

end Video2lcd
