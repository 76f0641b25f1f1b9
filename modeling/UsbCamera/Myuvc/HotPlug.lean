import UsbCamera.Myuvc.Machine

/-!
# Plugging and unplugging

`myuvc_probe` runs once for each interface of the camera, first for VideoControl
and then for VideoStreaming, and `myuvc_disconnect` once for each when the camera
is gone.  Both find out by a counter of their own which of the two calls they are
in.  The counters are never set back: the device is registered by the call in
which the one reaches two, and unregistered by the call in which the other does.

A plug is the two calls of `myuvc_probe`, an unplug the two calls of
`myuvc_disconnect`.  After `n` cycles each counter stands at `2 n`, modulo
`2 ^ 32`, so of all plugs only the first registers a device, until the counters
come round again (`afterPlug_iff`).  Unplugging leaves no device registered, and
releases each that was allocated, however often it happens (`Plugged.unplug`).
For the calls, the first plug leaves the driver of `Machine.load`
(`hotPlug_first_drv`).
-/

namespace Myuvc

open FaultRun

/-- An interface of a plugged camera. -/
structure UsbInterface where
  idVendor : Nat
  bInterfaceNumber : Nat
deriving DecidableEq, Repr

/-- The video devices as the V4L2 core sees them. -/
structure V4l2Core where
  next : Nat
  registered : List Nat
  released : List Nat
deriving DecidableEq, Repr

namespace V4l2Core

/-- `video_device_alloc`. -/
def videoDeviceAlloc (c : V4l2Core) (ok : Bool) : Option Nat × V4l2Core :=
  if ok then (some c.next, { c with next := c.next + 1 }) else (none, c)

/-- `video_register_device`. -/
def videoRegisterDevice (c : V4l2Core) (v : Nat) (ok : Bool) : V4l2Core :=
  if ok then { c with registered := c.registered ++ [v] } else c

/-- `video_unregister_device`, which does nothing for `NULL` and for a device
that is not registered. -/
def videoUnregisterDevice (c : V4l2Core) (v : Option Nat) : V4l2Core :=
  { c with registered := c.registered.filter fun x => some x ≠ v }

/-- `video_device_release`, which is `kfree`. -/
def videoDeviceRelease (c : V4l2Core) (v : Option Nat) : V4l2Core :=
  { c with released := c.released ++ v.toList }

end V4l2Core

/-- The driver with what `myuvc_probe` and `myuvc_disconnect` keep. -/
structure HotPlug where
  drv : Driver
  controlIntf : Nat
  streamingIntf : Nat
  vdev : Option Nat
  -- the static `cnt` of each function, an `int` that wraps around
  probeCnt : Nat
  disconnectCnt : Nat
  v4l2 : V4l2Core

/-- The state at module load. -/
def HotPlug.load : HotPlug where
  drv := Driver.load 0
  controlIntf := 0
  streamingIntf := 0
  vdev := none
  probeCnt := 0
  disconnectCnt := 0
  v4l2 := ⟨0, [], []⟩

/-- The answers of the environment to one `myuvc_probe`. -/
structure ProbeEnv where
  alloc : Bool
  register : Bool
  negotiation : Negotiation

/-- What stops the kernel in the middle of `myuvc_probe`. -/
inductive ProbeFault
  -- a field of `myuvc_vdev` is set while it is `NULL`
  | noVideoDevice
deriving DecidableEq, Repr

/-- `cnt++` on a 32-bit counter. -/
def increment (cnt : Nat) : Nat := (cnt + 1) % 2 ^ 32

/-- `myuvc_probe`.  The result of `video_register_device` is not looked at. -/
def probe (s : HotPlug) (intf : UsbInterface) (env : ProbeEnv) : Except ProbeFault HotPlug :=
  let s := { s with
    drv := { s.drv with idVendor := intf.idVendor }
    probeCnt := increment s.probeCnt }
  let s :=
    if s.probeCnt = 1 then { s with controlIntf := intf.bInterfaceNumber }
    else if s.probeCnt = 2 then { s with streamingIntf := intf.bInterfaceNumber }
    else s
  if s.probeCnt = 2 then
    match s.v4l2.videoDeviceAlloc env.alloc with
    | (none, _) => .error .noVideoDevice
    | (some v, core) =>
        .ok { s with
          vdev := some v
          v4l2 := core.videoRegisterDevice v env.register
          drv := { s.drv with params := negotiate uvcVersion env.negotiation s.drv.params } }
  else .ok s

/-- `myuvc_disconnect`, which does not look at its interface.  `myuvc_vdev` keeps
pointing to the released device. -/
def disconnect (s : HotPlug) : HotPlug :=
  let s := { s with disconnectCnt := increment s.disconnectCnt }
  if s.disconnectCnt = 2 then
    { s with v4l2 := (s.v4l2.videoUnregisterDevice s.vdev).videoDeviceRelease s.vdev }
  else s

/-- A camera that is plugged in: its interfaces, and what the environment answers
to the probes. -/
structure Plug where
  control : UsbInterface
  streaming : UsbInterface
  env : ProbeEnv

inductive PlugEvent
  | plug (p : Plug)
  | unplug

/-- What happens to the driver when the camera is plugged in or unplugged. -/
def hotPlug (s : HotPlug) : PlugEvent → Except ProbeFault (Reply × HotPlug)
  | .plug p => do
      let s ← probe s p.control p.env
      let s ← probe s p.streaming p.env
      return (.ret 0, s)
  | .unplug => .ok (.nothing, disconnect (disconnect s))

abbrev PlugLog := List (Entry PlugEvent Reply HotPlug)

/-- What a plug is for: one device is registered, and the interface numbers are
those of this plug. -/
def AfterPlug (s : HotPlug) (p : Plug) : Prop :=
  s.v4l2.registered.length = 1 ∧ s.controlIntf = p.control.bInterfaceNumber ∧
    s.streamingIntf = p.streaming.bInterfaceNumber

instance (s : HotPlug) (p : Plug) : Decidable (AfterPlug s p) :=
  inferInstanceAs (Decidable (_ ∧ _ ∧ _))

/-- The state after an event is as it should be. -/
def Completed (e : Entry PlugEvent Reply HotPlug) : Prop :=
  match e.input with
  | .plug p => AfterPlug e.state p
  | .unplug => e.state.v4l2.registered = []

instance (e : Entry PlugEvent Reply HotPlug) : Decidable (Completed e) :=
  match e with
  | ⟨.plug p, _, s⟩ => inferInstanceAs (Decidable (AfterPlug s p))
  | ⟨.unplug, _, s⟩ => inferInstanceAs (Decidable (s.v4l2.registered = []))

/-- Plugs and unplugs take turns; the flag tells whether the camera is plugged in
at the start. -/
def Alternates : Bool → List PlugEvent → Prop
  | _, [] => True
  | false, .plug _ :: rest => Alternates true rest
  | true, .unplug :: rest => Alternates false rest
  | _, _ => False

/-- The plugs of a history. -/
def plugs (es : PlugLog) : List Plug :=
  es.filterMap fun e =>
    match e.input with
    | .plug p => some p
    | .unplug => none

/-- The camera is not plugged in, after `n` cycles. -/
structure Unplugged (s : HotPlug) (n : Nat) : Prop where
  probeCnt : s.probeCnt = 2 * n % 2 ^ 32
  disconnectCnt : s.disconnectCnt = 2 * n % 2 ^ 32
  registered : s.v4l2.registered = []
  released : s.v4l2.released = List.range s.v4l2.next

/-- The camera is plugged in, after `n` cycles: this plug has allocated a device,
or the counters have passed two. -/
structure Plugged (s : HotPlug) (n : Nat) : Prop where
  probeCnt : s.probeCnt = 2 * (n + 1) % 2 ^ 32
  disconnectCnt : s.disconnectCnt = 2 * n % 2 ^ 32
  device : (n % 2 ^ 31 = 0 ∧ ∃ v, s.vdev = some v ∧ (∀ x ∈ s.v4l2.registered, x = v) ∧
      s.v4l2.released ++ [v] = List.range s.v4l2.next) ∨
    (n % 2 ^ 31 ≠ 0 ∧ s.v4l2.registered = [] ∧ s.v4l2.released = List.range s.v4l2.next)

theorem unplugged_load : Unplugged HotPlug.load 0 := ⟨rfl, rfl, rfl, rfl⟩

/-- Whenever the counters have come round, they stand at zero. -/
theorem Unplugged.probeCnt_eq_zero {s : HotPlug} {n : Nat} (h : Unplugged s n)
    (hn : n % 2 ^ 31 = 0) : s.probeCnt = 0 := by
  rw [h.probeCnt]
  omega

/-- The plug in which the counter reaches two. -/
theorem hotPlug_first {s : HotPlug} (hcnt : s.probeCnt = 0) (p : Plug) :
    hotPlug s (.plug p) =
      if p.env.alloc then
        .ok (.ret 0,
          { s with
            drv := { s.drv with
              idVendor := p.streaming.idVendor
              params := negotiate uvcVersion p.env.negotiation s.drv.params }
            probeCnt := 2
            controlIntf := p.control.bInterfaceNumber
            streamingIntf := p.streaming.bInterfaceNumber
            vdev := some s.v4l2.next
            v4l2 := V4l2Core.videoRegisterDevice { s.v4l2 with next := s.v4l2.next + 1 }
              s.v4l2.next p.env.register })
      else .error .noVideoDevice := by
  have hone : increment 0 = 1 := rfl
  have htwo : increment 1 = 2 := rfl
  cases halloc : p.env.alloc <;>
    simp [hotPlug, probe, hcnt, hone, htwo, halloc, V4l2Core.videoDeviceAlloc, bind, Except.bind,
      pure, Except.pure]

/-- Any other plug: the counter passes neither one nor two. -/
theorem hotPlug_later {s : HotPlug} {n : Nat} (hcnt : s.probeCnt = 2 * n % 2 ^ 32)
    (hn : n % 2 ^ 31 ≠ 0) (p : Plug) :
    hotPlug s (.plug p) =
      .ok (.ret 0,
        { s with
          drv := { s.drv with idVendor := p.streaming.idVendor }
          probeCnt := 2 * (n + 1) % 2 ^ 32 }) := by
  have hstep : increment s.probeCnt = 2 * n % 2 ^ 32 + 1 := by
    unfold increment
    omega
  have hstep' : increment (2 * n % 2 ^ 32 + 1) = 2 * (n + 1) % 2 ^ 32 := by
    unfold increment
    omega
  have hne₁ : 2 * n % 2 ^ 32 + 1 ≠ 1 := by omega
  have hne₂ : 2 * n % 2 ^ 32 + 1 ≠ 2 := by omega
  have hne₃ : 2 * (n + 1) % 2 ^ 32 ≠ 1 := by omega
  have hne₄ : 2 * (n + 1) % 2 ^ 32 ≠ 2 := by omega
  simp only [hotPlug, probe, hstep, hstep', hne₁, hne₂, hne₃, hne₄, if_false, bind, Except.bind,
    pure, Except.pure]

/-- **What the first plug leaves for the calls**: the driver at module load, for
this camera, up to the stream parameters.  `VIDIOC_STREAMON` negotiates these from
the start and does not see the difference. -/
theorem hotPlug_first_drv {s : HotPlug} {p : Plug} {r : Reply}
    (h : hotPlug HotPlug.load (.plug p) = .ok (r, s)) :
    (∃ params, s.drv = { Driver.load p.streaming.idVendor with params := params }) ∧
      ∀ env, vidiocStreamon s.drv env = vidiocStreamon (Driver.load p.streaming.idVendor) env := by
  rw [hotPlug_first rfl] at h
  split at h
  · cases h
    exact ⟨⟨_, rfl⟩, fun _ => rfl⟩
  · cases h

/-- **A plug** after `n` cycles. -/
theorem Unplugged.plug {s s' : HotPlug} {n : Nat} {p : Plug} {r : Reply} (h : Unplugged s n)
    (hstep : hotPlug s (.plug p) = .ok (r, s')) : Plugged s' n := by
  by_cases hn : n % 2 ^ 31 = 0
  · rw [hotPlug_first (h.probeCnt_eq_zero hn)] at hstep
    split at hstep
    · cases hstep
      have htwo : 2 = 2 * (n + 1) % 2 ^ 32 := by omega
      refine ⟨htwo, h.disconnectCnt, Or.inl ⟨hn, s.v4l2.next, rfl, ?_, ?_⟩⟩
      · unfold V4l2Core.videoRegisterDevice
        split <;> simp [h.registered]
      · unfold V4l2Core.videoRegisterDevice
        split <;> simp [h.released, List.range_succ]
    · cases hstep
  · rw [hotPlug_later h.probeCnt hn] at hstep
    cases hstep
    exact ⟨rfl, h.disconnectCnt, Or.inr ⟨hn, h.registered, h.released⟩⟩

/-- **Which plugs work**: those after a multiple of `2 ^ 31` cycles, if the device
can be registered. -/
theorem afterPlug_iff {s s' : HotPlug} {n : Nat} {p : Plug} {r : Reply} (h : Unplugged s n)
    (hstep : hotPlug s (.plug p) = .ok (r, s')) :
    AfterPlug s' p ↔ n % 2 ^ 31 = 0 ∧ p.env.register = true := by
  by_cases hn : n % 2 ^ 31 = 0
  · rw [hotPlug_first (h.probeCnt_eq_zero hn)] at hstep
    split at hstep
    · cases hstep
      rw [and_iff_right hn]
      cases p.env.register <;> simp [AfterPlug, V4l2Core.videoRegisterDevice, h.registered]
    · cases hstep
  · rw [hotPlug_later h.probeCnt hn] at hstep
    cases hstep
    refine iff_of_false (fun hafter => ?_) (fun hworks => hn hworks.1)
    have hone := hafter.1
    simp [h.registered] at hone

/-- **An unplug** leaves no device registered and has released all. -/
theorem Plugged.unplug {s s' : HotPlug} {n : Nat} {r : Reply} (h : Plugged s n)
    (hstep : hotPlug s .unplug = .ok (r, s')) : Unplugged s' (n + 1) := by
  have hs' : disconnect (disconnect s) = s' := congrArg Prod.snd (Except.ok.inj hstep)
  have hfirst : increment s.disconnectCnt = 2 * n % 2 ^ 32 + 1 := by
    rw [h.disconnectCnt]
    unfold increment
    omega
  have hsecond : increment (2 * n % 2 ^ 32 + 1) = 2 * (n + 1) % 2 ^ 32 := by
    unfold increment
    omega
  have hodd : 2 * n % 2 ^ 32 + 1 ≠ 2 := by omega
  rcases h.device with ⟨hn, v, hv, hreg, hrel⟩ | ⟨hn, hreg, hrel⟩
  · have htwo : 2 * (n + 1) % 2 ^ 32 = 2 := by omega
    simp only [disconnect, hfirst, hsecond, hodd, htwo, if_false, if_true] at hs'
    subst hs'
    refine ⟨h.probeCnt, htwo.symm, ?_, ?_⟩
    · refine List.filter_eq_nil_iff.mpr fun x hx => ?_
      simp [hv, hreg x hx]
    · simpa [V4l2Core.videoDeviceRelease, V4l2Core.videoUnregisterDevice, hv] using hrel
  · have htwo : 2 * (n + 1) % 2 ^ 32 ≠ 2 := by omega
    simp only [disconnect, hfirst, hsecond, hodd, htwo, if_false] at hs'
    subst hs'
    exact ⟨h.probeCnt, rfl, hreg, hrel⟩

/-- The plug at place `i` of the list comes after `n + i` cycles: every one of
them is one that works. -/
def PlugsWork (n : Nat) (ps : List Plug) : Prop :=
  ∀ i p, ps[i]? = some p → (n + i) % 2 ^ 31 = 0 ∧ p.env.register = true

theorem plugsWork_cons {n : Nat} {p : Plug} {ps : List Plug} :
    PlugsWork n (p :: ps) ↔ (n % 2 ^ 31 = 0 ∧ p.env.register = true) ∧ PlugsWork (n + 1) ps := by
  constructor
  · intro h
    refine ⟨h 0 p rfl, fun i q hq => ?_⟩
    have hlater := h (i + 1) q hq
    rwa [show n + (i + 1) = n + 1 + i by omega] at hlater
  · rintro ⟨hfirst, hlater⟩ i q hq
    cases i with
    | zero =>
        cases hq
        exact hfirst
    | succ i =>
        rw [show n + (i + 1) = n + 1 + i by omega]
        exact hlater i q hq

/-- From the start of the count, no plug but the first works soon enough. -/
theorem plugsWork_zero {ps : List Plug} :
    PlugsWork 0 ps ↔ ps.length ≤ 1 ∧ ∀ p ∈ ps, p.env.register = true := by
  constructor
  · intro h
    constructor
    · by_contra hlong
      obtain ⟨q, hq⟩ : ∃ q, ps[1]? = some q := ⟨ps[1], List.getElem?_eq_getElem (by omega)⟩
      have hsecond := (h 1 q hq).1
      omega
    · intro p hp
      obtain ⟨i, hi⟩ := List.mem_iff_getElem?.mp hp
      exact (h i p hi).2
  · rintro ⟨hshort, hreg⟩ i p hp
    have hi := (List.getElem?_eq_some_iff.mp hp).1
    exact ⟨by omega, hreg p (List.mem_of_getElem? hp)⟩

/-- **A history** from either state of the camera: every event leaves what it
should exactly when every plug is one that works. -/
theorem completed_iff {es : PlugLog} {s : HotPlug} (hrun : IsRun hotPlug s es) (n : Nat) :
    (Unplugged s n → Alternates false (es.map Entry.input) →
      ((∀ e ∈ es, Completed e) ↔ PlugsWork n (plugs es))) ∧
    (Plugged s n → Alternates true (es.map Entry.input) →
      ((∀ e ∈ es, Completed e) ↔ PlugsWork (n + 1) (plugs es))) := by
  induction es generalizing s n with
  | nil => simp [plugs, PlugsWork]
  | cons e rest ih =>
      obtain ⟨input, r, t⟩ := e
      obtain ⟨hstep, hrest⟩ := hrun
      cases input with
      | plug p =>
          refine ⟨fun h halt => ?_, fun _ halt => halt.elim⟩
          have htail := (ih hrest n).2 (h.plug hstep) halt
          rw [List.forall_mem_cons, htail]
          exact (and_congr_left fun _ => afterPlug_iff h hstep).trans plugsWork_cons.symm
      | unplug =>
          refine ⟨fun _ halt => halt.elim, fun h halt => ?_⟩
          have hidle := h.unplug hstep
          have htail := (ih hrest (n + 1)).1 hidle halt
          rw [List.forall_mem_cons, htail]
          exact and_iff_right hidle.registered

/-- **Hot-plugging.**  In a history from module load every plug leaves one
registered device with this plug's interface numbers, and every unplug none,
exactly when there is at most one plug and the device can be registered in it. -/
theorem hotPlug_completed_iff {es : PlugLog} (hrun : IsRun hotPlug HotPlug.load es)
    (halt : Alternates false (es.map Entry.input)) :
    (∀ e ∈ es, Completed e) ↔
      (plugs es).length ≤ 1 ∧ ∀ p ∈ plugs es, p.env.register = true := by
  rw [((completed_iff hrun 0).1 unplugged_load halt), plugsWork_zero]

/-- A camera with interfaces 0 and 1, plugged into a machine on which everything
succeeds. -/
def plainPlug : Plug :=
  ⟨⟨0x1B3B, 0⟩, ⟨0x1B3B, 1⟩, true, true, plainEnv.negotiation⟩

/-- The camera is plugged in, unplugged and plugged in again. -/
def replugLog : PlugLog :=
  exec hotPlug HotPlug.load [.plug plainPlug, .unplug, .plug plainPlug]

/-- After the second plug no device is registered, although everything has
succeeded. -/
theorem second_plug_registers_nothing :
    IsRun hotPlug HotPlug.load replugLog ∧ Alternates false (replugLog.map Entry.input) ∧
      replugLog.map (fun e => e.state.v4l2.registered) = [[0], [], []] ∧
      ¬ ∀ e ∈ replugLog, Completed e := by
  exact ⟨isRun_exec _ _, trivial, by decide +kernel, by decide +kernel⟩

/-- One whole cycle. -/
def cycleLog : PlugLog := exec hotPlug HotPlug.load [.plug plainPlug, .unplug]

theorem hotPlug_completed_cycle : cycleLog.length = 2 ∧ ∀ e ∈ cycleLog, Completed e := by
  have hrun : IsRun hotPlug HotPlug.load cycleLog := isRun_exec _ _
  have hplugs : plugs cycleLog = [plainPlug] := rfl
  refine ⟨rfl, (hotPlug_completed_iff hrun trivial).mpr ?_⟩
  rw [hplugs]
  exact ⟨le_rfl, fun p hp => by rw [List.mem_singleton.mp hp]; rfl⟩

end Myuvc
