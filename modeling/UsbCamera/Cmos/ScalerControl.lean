import UsbCamera.Base.BitField
import UsbCamera.Cmos.ScalerInfo

/-!
# The scaler control register over a sequence of formats

`CIPRSCCTRL` holds the two main ratios, the direction of the scaling, the output
format and the start bit.  `S_FMT` clears or sets the format bit, `STREAMOFF`
clears the start bit.  But `STREAMON` only ever adds: it writes the ratios and the
direction with `|=`, where the registers before it are assigned.  So what a field
holds is the union of the values of all formats that have been started since the
register was zero.

Such a union is not a function of the formats' order or number, and it is best
known by what it lies within: within a value exactly when every format started
lies within that value (`Tracks.settings`).  From that follows when the register
describes the current format.  It does when no format started before has a bit
that the current one lacks.
-/

namespace Cmos

open FaultRun BitField

/-! ## The fields of the register -/

/-- The fields that `STREAMON` computes. -/
inductive Setting
  | mainHorRatio | mainVerRatio | scaleUpDown
deriving DecidableEq, Repr

/-- There are three settings. -/
theorem Setting.forall_iff {p : Setting → Prop} :
    (∀ k, p k) ↔ p .mainHorRatio ∧ p .mainVerRatio ∧ p .scaleUpDown := by
  constructor
  · intro h
    exact ⟨h _, h _, h _⟩
  · rintro ⟨hhor, hver, hup⟩ k
    cases k <;> assumption

instance (p : Setting → Prop) [DecidablePred p] : Decidable (∀ k, p k) :=
  decidable_of_iff _ Setting.forall_iff.symm

/-- The lowest bit of the field. -/
def Setting.lo : Setting → Nat
  | .mainHorRatio => 16
  | .mainVerRatio => 0
  | .scaleUpDown => 28

/-- The number of bits of the field. -/
def Setting.len : Setting → Nat
  | .mainHorRatio => 9
  | .mainVerRatio => 9
  | .scaleUpDown => 2

/-- The computed number that belongs in the field. -/
def Setting.ofScaler (sc : Scaler) : Setting → BitVec 32
  | .mainHorRatio => sc.mainHorRatio
  | .mainVerRatio => sc.mainVerRatio
  | .scaleUpDown => sc.scaleUpDown

/-- What the register has in the field. -/
def Setting.read (s : Camif) (k : Setting) : BitVec k.len := field k.lo k.len s.ciprscctrl

/-- Bit 30, the output format. -/
def Camif.outputFormat (s : Camif) : BitVec 1 := field 30 1 s.ciprscctrl

/-- Bit 15, the start of the scaler. -/
def Camif.start (s : Camif) : BitVec 1 := field 15 1 s.ciprscctrl

/-- The bit that `S_FMT` chooses for a format. -/
def V4l2Format.outputFormat (f : V4l2Format) : BitVec 1 :=
  if f.pixelformat = V4L2_PIX_FMT_RGB24 then 1#1 else 0#1

/-- The register describes the format `f`: each field has the number that
`cmos_ov7740_calculate_scaler_info` computes for it, the output format is that of
`f`, and the scaler is started. -/
def Camif.Describes (s : Camif) (f : V4l2Format) : Prop :=
  match calculateScalerInfo CAM_SRC_HSIZE CAM_SRC_VSIZE f.width f.height {} with
  | .error _ => False
  | .ok sc => (∀ k : Setting, (k.read s).setWidth 32 = k.ofScaler sc) ∧
      s.outputFormat = f.outputFormat ∧ s.start = 1#1

/-! ## Formats and histories -/

/-- The formats that the interface is made for. -/
def V4l2Format.Supported (f : V4l2Format) : Prop :=
  f.type = .videoCapture ∧
    (f.pixelformat = V4L2_PIX_FMT_RGB565 ∨ f.pixelformat = V4L2_PIX_FMT_RGB24) ∧
    (11 ≤ f.width.toNat ∧ f.width.toNat ≤ 640) ∧ (8 ≤ f.height.toNat ∧ f.height.toNat ≤ 480)

instance (f : V4l2Format) : Decidable f.Supported :=
  inferInstanceAs (Decidable (_ ∧ _))

def Call.Supported : Call → Prop
  | .sFmt f => f.Supported
  | _ => True

instance (c : Call) : Decidable c.Supported := by
  cases c <;> unfold Call.Supported <;> infer_instance

/-- The format of the most recent `S_FMT`, and the formats that were in force at
the `STREAMON`s so far. -/
structure History where
  current : Option V4l2Format := none
  started : List V4l2Format := []

def History.next (h : History) : Call → History
  | .sFmt f => { h with current := some f }
  | .streamon => { h with started := h.started ++ h.current.toList }
  | .streamoff => h

def History.after (h : History) (log : Log) : History :=
  log.foldl (fun h e => h.next e.input) h

/-- The history of the calls since the driver was loaded. -/
def history (log : Log) : History := History.after {} log

/-- The settings of a format, by the two stages of the scaler. -/
def V4l2Format.scaler (f : V4l2Format) : Scaler :=
  scalerFor 640 480 f.width.toNat f.height.toNat

/-- The value of a format for a field. -/
def Setting.value (f : V4l2Format) (k : Setting) : BitVec k.len :=
  (k.ofScaler f.scaler).setWidth k.len

/-- In no field has `g` a bit that `f` lacks. -/
def V4l2Format.AddsNothingTo (g f : V4l2Format) : Prop :=
  ∀ k : Setting, Within (k.value g) (k.value f)

/-- A driver as it is loaded, with the register at zero: its statics are zero, and
the other registers are as they may be. -/
def Camif.Loaded (s : Camif) : Prop :=
  s.srcWidth = 0#32 ∧ s.srcHeight = 0#32 ∧ s.targetHsizePr = 0#32 ∧ s.targetVsizePr = 0#32 ∧
    s.bufSize = 0#32 ∧ s.bytesperline = 0#32 ∧ s.sc = {} ∧ s.ciprscctrl = 0#32

/-! ## What the calls do to the fields -/

/-- Every number fits the field it belongs in. -/
def Scaler.Fits (sc : Scaler) : Prop := ∀ k : Setting, (k.ofScaler sc).toNat < 2 ^ k.len

/-- The settings of a supported format fit their fields. -/
theorem V4l2Format.Supported.fits {f : V4l2Format} (h : f.Supported) : f.scaler.Fits := by
  obtain ⟨-, -, ⟨hwidth, -⟩, ⟨hheight, -⟩⟩ := h
  have hhor : mainRatio 640 f.width.toNat < 2 ^ 9 := mainRatio_lt (by omega)
  have hver : mainRatio 480 f.height.toNat < 2 ^ 9 := mainRatio_lt (by omega)
  intro k
  cases k with
  | mainHorRatio =>
      apply lt_of_eq_of_lt (toNat_ofNat_of_lt (by omega))
      exact hhor
  | mainVerRatio =>
      apply lt_of_eq_of_lt (toNat_ofNat_of_lt (by omega))
      exact hver
  | scaleUpDown =>
      simp only [Setting.ofScaler, V4l2Format.scaler, scalerFor, Setting.len]
      split <;> decide

/-- The driver computes the settings of a supported format. -/
theorem V4l2Format.Supported.calculates {f : V4l2Format} (h : f.Supported) (sc : Scaler) :
    calculateScalerInfo 640#32 480#32 f.width f.height sc = .ok f.scaler := by
  obtain ⟨-, -, hw, hh⟩ := h
  have hsx : (640#32).toNat = 640 := rfl
  have hsy : (480#32).toNat = 480 := rfl
  apply calculateScalerInfo_eq
  all_goals omega

section Fields

variable {s : Camif} {sc : Scaler}

/-- Preparing the source does not change the settings. -/
theorem read_prepareSource (k : Setting) : k.read (prepareSource s) = k.read s := by
  unfold Setting.read
  rw [prepareSource_ciprscctrl]

/-- Nor does it change the output format. -/
theorem outputFormat_prepareSource : (prepareSource s).outputFormat = s.outputFormat := by
  unfold Camif.outputFormat
  rw [prepareSource_ciprscctrl]

/-- `STREAMON` adds the computed number to what the field already holds. -/
theorem read_startScaler (hfits : sc.Fits) (k : Setting) :
    k.read (startScaler s sc) = k.read s ||| (k.ofScaler sc).setWidth k.len := by
  have hhor : sc.mainHorRatio.toNat < 2 ^ 9 := hfits .mainHorRatio
  have hver : sc.mainVerRatio.toNat < 2 ^ 9 := hfits .mainVerRatio
  have hone : (1#32).toNat < 2 ^ 1 := by decide
  cases k with
  | mainHorRatio =>
      change field 16 9 (startScaler s sc).ciprscctrl =
        field 16 9 s.ciprscctrl ||| sc.mainHorRatio.setWidth 9
      simp only [startScaler, field_or,
        field_shiftLeft_self sc.mainHorRatio (by omega : 16 + 9 ≤ 32),
        field_shiftLeft_above (k := 31) 1#32 (by omega : 16 + 9 ≤ 31),
        field_shiftLeft_above sc.scaleUpDown (by omega : 16 + 9 ≤ 28),
        field_shiftLeft_below hver (by omega : 0 + 9 ≤ 16),
        field_shiftLeft_below hone (by omega : 15 + 1 ≤ 16), BitVec.zero_or, BitVec.or_zero]
  | mainVerRatio =>
      change field 0 9 (startScaler s sc).ciprscctrl =
        field 0 9 s.ciprscctrl ||| sc.mainVerRatio.setWidth 9
      simp only [startScaler, field_or,
        field_shiftLeft_self sc.mainVerRatio (by omega : 0 + 9 ≤ 32),
        field_shiftLeft_above (k := 31) 1#32 (by omega : 0 + 9 ≤ 31),
        field_shiftLeft_above sc.scaleUpDown (by omega : 0 + 9 ≤ 28),
        field_shiftLeft_above sc.mainHorRatio (by omega : 0 + 9 ≤ 16),
        field_shiftLeft_above (k := 15) 1#32 (by omega : 0 + 9 ≤ 15), BitVec.zero_or,
        BitVec.or_zero]
  | scaleUpDown =>
      change field 28 2 (startScaler s sc).ciprscctrl =
        field 28 2 s.ciprscctrl ||| sc.scaleUpDown.setWidth 2
      simp only [startScaler, field_or,
        field_shiftLeft_self sc.scaleUpDown (by omega : 28 + 2 ≤ 32),
        field_shiftLeft_above (k := 31) 1#32 (by omega : 28 + 2 ≤ 31),
        field_shiftLeft_below hhor (by omega : 16 + 9 ≤ 28),
        field_shiftLeft_below hver (by omega : 0 + 9 ≤ 28),
        field_shiftLeft_below hone (by omega : 15 + 1 ≤ 28), BitVec.zero_or, BitVec.or_zero]

/-- It leaves the output format alone. -/
theorem outputFormat_startScaler (hfits : sc.Fits) :
    (startScaler s sc).outputFormat = s.outputFormat := by
  have hhor : sc.mainHorRatio.toNat < 2 ^ 9 := hfits .mainHorRatio
  have hver : sc.mainVerRatio.toNat < 2 ^ 9 := hfits .mainVerRatio
  have hup : sc.scaleUpDown.toNat < 2 ^ 2 := hfits .scaleUpDown
  have hone : (1#32).toNat < 2 ^ 1 := by decide
  simp only [Camif.outputFormat, startScaler, field_or,
    field_shiftLeft_above (k := 31) 1#32 (by omega : 30 + 1 ≤ 31),
    field_shiftLeft_below hup (by omega : 28 + 2 ≤ 30),
    field_shiftLeft_below hhor (by omega : 16 + 9 ≤ 30),
    field_shiftLeft_below hver (by omega : 0 + 9 ≤ 30),
    field_shiftLeft_below hone (by omega : 15 + 1 ≤ 30), BitVec.or_zero]

/-- It sets the start bit. -/
theorem start_startScaler : (startScaler s sc).start = 1#1 := by
  simp only [Camif.start, startScaler, field_or,
    field_shiftLeft_self 1#32 (by omega : 15 + 1 ≤ 32)]
  exact BitVec.or_allOnes

/-- Clearing a bit outside the fields of `STREAMON` leaves those alone. -/
theorem read_clear {b : Nat} (hb : b = 15 ∨ b = 30) {t : Camif}
    (ht : t.ciprscctrl = s.ciprscctrl &&& ~~~(1#32 <<< b)) (k : Setting) :
    k.read t = k.read s := by
  unfold Setting.read
  rw [ht]
  apply field_clear_of_outside
  cases k <;> simp only [Setting.lo, Setting.len] <;> omega

/-- So does setting the format bit. -/
theorem read_setFormat {t : Camif} (ht : t.ciprscctrl = s.ciprscctrl ||| 1#32 <<< 30)
    (k : Setting) : k.read t = k.read s := by
  have hzero : field k.lo k.len (1#32 <<< 30) = 0#k.len := by
    cases k <;> rfl
  unfold Setting.read
  rw [ht, field_or, hzero, BitVec.or_zero]

end Fields

/-! ## What the calls do to the state -/

section Calls

variable {s t : Camif} {f : V4l2Format} {r : Reply}

/-- `S_FMT` stores a supported format and chooses the format bit. -/
theorem sFmt_stores (hf : f.Supported) (hstep : step s (.sFmt f) = .ok (r, t)) :
    t.targetHsizePr = f.width ∧ t.targetVsizePr = f.height ∧
      t.outputFormat = f.outputFormat ∧ ∀ k : Setting, k.read t = k.read s := by
  obtain ⟨htype, hpixel, -⟩ := hf
  have hne : V4L2_PIX_FMT_RGB565 ≠ V4L2_PIX_FMT_RGB24 := by decide
  have ht : (vidiocSFmtVidCap s f).2.2 = t := (Prod.mk.inj (Except.ok.inj hstep)).2
  subst ht
  rcases hpixel with hpixel | hpixel
  · have htry : vidiocTryFmtVidCap f = 0 := by simp [vidiocTryFmtVidCap, htype, hpixel]
    simp only [vidiocSFmtVidCap, htry, lt_irrefl, if_false, hpixel, if_true, storeLine,
      V4l2Format.outputFormat, if_neg hne]
    exact ⟨trivial, trivial, field_clear_self _, read_clear (Or.inr rfl) rfl⟩
  · have htry : vidiocTryFmtVidCap f = 0 := by simp [vidiocTryFmtVidCap, htype, hpixel]
    simp only [vidiocSFmtVidCap, htry, lt_irrefl, if_false, hpixel, if_true, storeLine,
      V4l2Format.outputFormat, if_neg hne.symm]
    refine ⟨trivial, trivial, ?_, read_setFormat rfl⟩
    simp only [Camif.outputFormat, field_or, field_shiftLeft_self 1#32 (by omega : 30 + 1 ≤ 32)]
    exact BitVec.or_allOnes

/-- `STREAMON` as a step of the machine. -/
theorem step_streamon (s : Camif) : step s .streamon =
    (calculateScalerInfo 640#32 480#32 s.targetHsizePr s.targetVsizePr s.sc).map
      fun sc => (.ret 0, startScaler (prepareSource s) sc) := by
  unfold step
  simp only [vidiocStreamon_eq]
  cases calculateScalerInfo 640#32 480#32 s.targetHsizePr s.targetVsizePr s.sc <;> rfl

/-- `STREAMON` computes the settings of the stored size and adds them. -/
theorem streamon_eq (hf : f.Supported) (hwidth : s.targetHsizePr = f.width)
    (hheight : s.targetVsizePr = f.height) :
    step s .streamon = .ok (.ret 0, startScaler (prepareSource s) f.scaler) := by
  rw [step_streamon, hwidth, hheight, hf.calculates]
  rfl

/-- Before the first `S_FMT` the target width is zero, and `STREAMON` divides by
it. -/
theorem streamon_unset (hwidth : s.targetHsizePr = 0#32) : step s .streamon ≠ .ok (r, t) := by
  intro hstep
  rw [step_streamon, hwidth] at hstep
  obtain ⟨sc, hinfo, -⟩ := map_eq_ok.mp hstep
  exact calculateScalerInfo_zero_width hinfo

/-- `STREAMOFF` clears the start bit and nothing else that matters here. -/
theorem streamoff_keeps (hstep : step s .streamoff = .ok (r, t)) :
    t.targetHsizePr = s.targetHsizePr ∧ t.targetVsizePr = s.targetVsizePr ∧
      t.outputFormat = s.outputFormat ∧ ∀ k : Setting, k.read t = k.read s := by
  have ht : (vidiocStreamoff s).2 = t := (Prod.mk.inj (Except.ok.inj hstep)).2
  subst ht
  refine ⟨rfl, rfl, ?_, read_clear (Or.inl rfl) rfl⟩
  exact field_clear_of_outside s.ciprscctrl (Or.inl (by omega))

end Calls

/-! ## Whole runs -/

/-- The state goes with the history: the statics hold the current format, the
format bit is its own, and each field is the union of what has been started. -/
structure Tracks (h : History) (s : Camif) : Prop where
  unset : h.current = none → s.targetHsizePr = 0#32
  format : ∀ f, h.current = some f → f.Supported ∧ s.targetHsizePr = f.width ∧
    s.targetVsizePr = f.height ∧ s.outputFormat = f.outputFormat
  settings : ∀ (k : Setting) (w : BitVec k.len),
    Within (k.read s) w ↔ ∀ g ∈ h.started, Within (k.value g) w

/-- A driver just loaded holds no settings. -/
theorem Camif.Loaded.tracks {s : Camif} (hs : s.Loaded) : Tracks {} s := by
  obtain ⟨-, -, hwidth, -, -, -, -, hctrl⟩ := hs
  refine ⟨fun _ => hwidth, fun f hf => (by cases hf), fun k w => ?_⟩
  have hread : k.read s = 0#k.len := by
    unfold Setting.read
    rw [hctrl, field_zero]
  simp [hread]

/-- Every call keeps the state with the history. -/
theorem Tracks.next {h : History} {s t : Camif} {c : Call} {r : Reply} (hs : Tracks h s)
    (hc : c.Supported) (hstep : step s c = .ok (r, t)) : Tracks (h.next c) t := by
  cases c with
  | sFmt f =>
      obtain ⟨hwidth, hheight, hformat, hread⟩ := sFmt_stores hc hstep
      refine ⟨fun hnone => (by cases hnone), ?_, ?_⟩
      · rintro g hg
        obtain rfl : f = g := Option.some.inj hg
        exact ⟨hc, hwidth, hheight, hformat⟩
      · intro k w
        rw [hread]
        exact hs.settings k w
  | streamon =>
      cases hcur : h.current with
      | none => exact absurd hstep (streamon_unset (hs.unset hcur))
      | some f =>
          obtain ⟨hf, hwidth, hheight, hformat⟩ := hs.format f hcur
          rw [streamon_eq hf hwidth hheight] at hstep
          obtain ⟨-, rfl⟩ := Prod.mk.inj (Except.ok.inj hstep)
          refine ⟨fun hnone => ?_, fun g hg => ?_, fun k w => ?_⟩
          · exact absurd (hcur.symm.trans hnone) (by simp)
          · obtain rfl : f = g := Option.some.inj (hcur.symm.trans hg)
            rw [outputFormat_startScaler hf.fits, outputFormat_prepareSource]
            exact ⟨hf, by simpa using hwidth, by simpa using hheight, hformat⟩
          · rw [read_startScaler hf.fits, read_prepareSource, or_within, hs.settings k w]
            simp only [History.next, hcur, Option.toList_some, List.forall_mem_append,
              List.forall_mem_singleton]
            exact Iff.rfl
  | streamoff =>
      obtain ⟨hwidth, hheight, hformat, hread⟩ := streamoff_keeps hstep
      refine ⟨fun hnone => ?_, fun f hf => ?_, fun k w => ?_⟩
      · rw [hwidth]
        exact hs.unset hnone
      · rw [hwidth, hheight, hformat]
        exact hs.format f hf
      · rw [hread]
        exact hs.settings k w

/-- A whole run keeps the state with the history. -/
theorem Tracks.after {h : History} {s : Camif} {log : Log} (hs : Tracks h s)
    (hrun : IsRun step s log) (hlog : ∀ e ∈ log, e.input.Supported) :
    Tracks (h.after log) (lastState s log) := by
  induction log generalizing h s with
  | nil => exact hs
  | cons e rest ih =>
      obtain ⟨hstep, hrest⟩ := hrun
      have hnext := hs.next (hlog e List.mem_cons_self) hstep
      exact ih hnext hrest fun x hx => hlog x (List.mem_cons_of_mem _ hx)

/-- For a supported format the numbers are compared in the fields' own widths. -/
theorem V4l2Format.Supported.describes_iff {f : V4l2Format} {s : Camif} (hf : f.Supported)
    (hformat : s.outputFormat = f.outputFormat) (hstart : s.start = 1#1) :
    s.Describes f ↔ ∀ k : Setting, k.read s = k.value f := by
  have hinfo : calculateScalerInfo CAM_SRC_HSIZE CAM_SRC_VSIZE f.width f.height {} =
      .ok f.scaler := hf.calculates {}
  have hwidth : ∀ k : Setting, (k.read s).setWidth 32 = k.ofScaler f.scaler ↔
      k.read s = k.value f := by
    intro k
    apply setWidth_eq_iff _ (hf.fits k)
    cases k <;> simp [Setting.len]
  unfold Camif.Describes
  rw [hinfo]
  simp only [hwidth, hformat, hstart, and_true]

/-- **The control register.**  After any calls with supported formats since the
driver was loaded, a `STREAMON` succeeds, and the register then describes the
current format exactly when no format started before has a bit that the current
one lacks. -/
theorem register_describes_format_iff {s : Camif} {log : Log} {f : V4l2Format}
    (hs : s.Loaded) (hrun : IsRun step s log) (hlog : ∀ e ∈ log, e.input.Supported)
    (hcurrent : (history log).current = some f) :
    ∃ t, step (lastState s log) .streamon = .ok (.ret 0, t) ∧
      (t.Describes f ↔ ∀ g ∈ (history log).started, g.AddsNothingTo f) := by
  have htracks : Tracks (history log) (lastState s log) := hs.tracks.after hrun hlog
  obtain ⟨hf, hwidth, hheight, hformat⟩ := htracks.format f hcurrent
  refine ⟨_, streamon_eq hf hwidth hheight, ?_⟩
  rw [hf.describes_iff _ start_startScaler]
  · have hread : ∀ k : Setting,
        k.read (startScaler (prepareSource (lastState s log)) f.scaler) = k.value f ↔
          ∀ g ∈ (history log).started, Within (k.value g) (k.value f) := by
      intro k
      rw [read_startScaler hf.fits, read_prepareSource, ← htracks.settings k]
      exact Iff.rfl
    simp only [hread]
    constructor
    · intro h g hg k
      exact h k g hg
    · intro h k g hg
      exact h g hg k
  · rw [outputFormat_startScaler hf.fits, outputFormat_prepareSource, hformat]

/-- A format of the given size. -/
def sized (pixelformat : BitVec 32) (width height : BitVec 32) : V4l2Format :=
  { type := .videoCapture, width, height, pixelformat }

/-- A capture at 400 by 300 is started and stopped, and 320 by 240 is chosen. -/
def shrinkingCalls : List Call :=
  [.sFmt (sized V4L2_PIX_FMT_RGB565 400#32 300#32), .streamon, .streamoff,
    .sFmt (sized V4L2_PIX_FMT_RGB565 320#32 240#32)]

/-- The next start leaves the main ratio of the first size in the register, where
the second size needs 256. -/
theorem ratio_of_earlier_format :
    ∃ t, step (lastState {} (exec step {} shrinkingCalls)) .streamon = .ok (.ret 0, t) ∧
      (history (exec step {} shrinkingCalls)).current =
        some (sized V4L2_PIX_FMT_RGB565 320#32 240#32) ∧
      Setting.read t .mainHorRatio = 409#9 ∧ t.sc.mainHorRatio = 256#32 ∧
      ¬ t.Describes (sized V4L2_PIX_FMT_RGB565 320#32 240#32) := by
  refine ⟨_, rfl, rfl, rfl, rfl, ?_⟩
  intro h
  have hhor := h.1 .mainHorRatio
  revert hhor
  decide

/-- A capture at 320 by 240 is started and stopped, and 400 by 300 in the other
pixel format is chosen. -/
def growingCalls : List Call :=
  [.sFmt (sized V4L2_PIX_FMT_RGB565 320#32 240#32), .streamon, .streamoff,
    .sFmt (sized V4L2_PIX_FMT_RGB24 400#32 300#32)]

/-- The ratios of the second size have all the bits of those of the first, and
the register is right. -/
theorem growing_format_described :
    ∃ t, step (lastState {} (exec step {} growingCalls)) .streamon = .ok (.ret 0, t) ∧
      t.Describes (sized V4L2_PIX_FMT_RGB24 400#32 300#32) := by
  have hloaded : Camif.Loaded {} := ⟨rfl, rfl, rfl, rfl, rfl, rfl, rfl, rfl⟩
  have hsupported : ∀ e ∈ exec step {} growingCalls, e.input.Supported := by
    intro e he
    have hinputs : ∀ c ∈ growingCalls, c.Supported := by decide
    exact hinputs e.input (input_mem_of_mem_exec he)
  obtain ⟨t, hstep, hiff⟩ := register_describes_format_iff hloaded
    (isRun_exec _ growingCalls) hsupported rfl
  refine ⟨t, hstep, hiff.mpr ?_⟩
  intro g hg
  have hg' : g ∈ [sized V4L2_PIX_FMT_RGB565 320#32 240#32] := hg
  obtain rfl := List.mem_singleton.mp hg'
  unfold V4l2Format.AddsNothingTo
  decide

end Cmos
