import UsbCamera.Base.LinkedList
import UsbCamera.Video2lcd.Convert

/-!
# The registry of converters

`convert_manager.c` keeps the converters in a singly linked list.  The link is a field of the
module itself, so registering a module that is in the list already moves no copy of it: the
last module is made to point to it, for the moment there is a cycle, and then its own link is
cleared.  What was behind it is no longer in the list, and keeps links into it.

Here the modules are a memory, the registry is the head pointer, and the functions of the
file follow the links with loops that need not come to an end.  They do: after any
registrations the links from the head are a list without repetitions that ends in the module
registered last (`registry_stays_list`).  Which list it is, is said by `registered`; it is a
matter of `LinkedList.appendOnce` alone.

The converters of `Convert.lean` were asked in the order of a list `videoConverts`.  That the
linked list which `VideoConvertInit` builds amounts to the same is
`getVideoConvertForFormats_init`.
-/

namespace Video2lcd.ConvertManager

open LinkedList

/-! ## The functions -/

/-- `T_VideoConvert`, with the fields that the registry looks at.  Modules are found by their
addresses `α`. -/
structure VideoConvert (α : Type) where
  name : Option String
  isSupport : Int32 → Int32 → Int32
  ptNext : Option α

/-- `g_ptVideoConvertHead`, and the modules in the memory. -/
structure Registry (α : Type) where
  ptVideoConvertHead : Option α
  modules : α → VideoConvert α

/-- The registry when the program is started. -/
def Registry.empty {α : Type} (modules : α → VideoConvert α) : Registry α := ⟨none, modules⟩

/-- The links between the modules. -/
def Registry.next {α : Type} (s : Registry α) (a : α) : Option α := (s.modules a).ptNext

variable {α : Type}

/-- `GetVideoConvertForFormats`; `none` is a loop that is still running after `fuel` rounds. -/
def getVideoConvertForFormats (fuel : Nat) (s : Registry α)
    (iPixelFormatIn iPixelFormatOut : Int32) : Option (Option α) :=
  visit s.next (fun ptTmp =>
      if (s.modules ptTmp).isSupport iPixelFormatIn iPixelFormatOut ≠ 0 then some ptTmp else none)
    fuel s.ptVideoConvertHead

/-- How a comparison of names can go wrong: `strcmp` is given a module's NULL. -/
inductive Fault
  | nullName
deriving DecidableEq, Repr

/-- `GetVideoConvert`. -/
def getVideoConvert (fuel : Nat) (s : Registry α) (pcName : String) :
    Option (Option (Except Fault α)) :=
  visit s.next (fun ptTmp =>
      match (s.modules ptTmp).name with
      | none => some (.error .nullName)
      | some name => if name = pcName then some (.ok ptTmp) else none)
    fuel s.ptVideoConvertHead

/-- `ShowVideoConvert`: the number and the name in each line that is printed. -/
def showVideoConvert (fuel : Nat) (s : Registry α) : Option (List (Nat × Option String)) :=
  (nodes s.next fuel s.ptVideoConvertHead).map fun l =>
    l.mapIdx fun i ptTmp => (i, (s.modules ptTmp).name)

variable [DecidableEq α]

/-- `p->ptNext = q;` -/
def Registry.setNext (s : Registry α) (p : α) (q : Option α) : Registry α :=
  { s with modules := Function.update s.modules p { s.modules p with ptNext := q } }

/-- `RegisterVideoConvert`. -/
def registerVideoConvert (fuel : Nat) (s : Registry α) (ptVideoConvert : α) :
    Option (Int32 × Registry α) :=
  match s.ptVideoConvertHead with
  | none =>
      let s := { s with ptVideoConvertHead := some ptVideoConvert }
      some (0, s.setNext ptVideoConvert none)
  | some head =>
      match lastFrom s.next fuel head with
      | none => none
      | some ptTmp =>
          let s := s.setNext ptTmp (some ptVideoConvert)
          some (0, s.setNext ptVideoConvert none)

/-- Calls of `RegisterVideoConvert`, one after the other. -/
def registerAll (fuel : Nat) : Registry α → List α → Option (Registry α)
  | s, [] => some s
  | s, ptVideoConvert :: rest => do
      let (_, s) ← registerVideoConvert fuel s ptVideoConvert
      registerAll fuel s rest

/-- `g_tYuv2RgbConvert`, `g_tMjpeg2RgbConvert` and `g_tRgb2RgbConvert`.  None of them has been
given a name. -/
def tVideoConvert (c : Converter) : VideoConvert α where
  name := none
  isSupport := fun iPixelFormatIn iPixelFormatOut =>
    if c.isSupport iPixelFormatIn iPixelFormatOut then 1 else 0
  ptNext := none

/-- `Yuv2RgbInit`; `g` are the addresses of the three modules of the program.  The tables that
it fills with `initLut` before are no part of the registry. -/
def yuv2RgbInit (g : Converter ↪ α) (fuel : Nat) (s : Registry α) : Option (Int32 × Registry α) :=
  registerVideoConvert fuel s (g .yuv2Rgb)

/-- `Mjpeg2RgbInit`. -/
def mjpeg2RgbInit (g : Converter ↪ α) (fuel : Nat) (s : Registry α) :
    Option (Int32 × Registry α) :=
  registerVideoConvert fuel s (g .mjpeg2Rgb)

/-- `Rgb2RgbInit`. -/
def rgb2RgbInit (g : Converter ↪ α) (fuel : Nat) (s : Registry α) : Option (Int32 × Registry α) :=
  registerVideoConvert fuel s (g .rgb2Rgb)

/-- `VideoConvertInit`. -/
def videoConvertInit (g : Converter ↪ α) (fuel : Nat) (s : Registry α) :
    Option (Int32 × Registry α) := do
  let (iError, s) ← yuv2RgbInit g fuel s
  let (ret, s) ← mjpeg2RgbInit g fuel s
  let iError := iError ||| ret
  let (ret, s) ← rgb2RgbInit g fuel s
  let iError := iError ||| ret
  return (iError, s)

/-- `VideoConvertInit`, called `n` times. -/
def videoConvertInits (g : Converter ↪ α) (fuel : Nat) : Nat → Registry α → Option (Registry α)
  | 0, s => some s
  | n + 1, s => do
      let (_, s) ← videoConvertInit g fuel s
      videoConvertInits g fuel n s

/-! ## The list behind the links -/

/-- The links of the registry are the list `l`, and nothing but links has been changed in the
modules. -/
structure Registry.Represents (s : Registry α) (modules : α → VideoConvert α) (l : List α) :
    Prop where
  chain : Chain s.next s.ptVideoConvertHead l
  name : ∀ a, (s.modules a).name = (modules a).name
  isSupport : ∀ a, (s.modules a).isSupport = (modules a).isSupport

@[simp] theorem Registry.setNext_head (s : Registry α) (p : α) (q : Option α) :
    (s.setNext p q).ptVideoConvertHead = s.ptVideoConvertHead := rfl

/-- Setting `ptNext` is an update of the links. -/
@[simp] theorem Registry.setNext_next (s : Registry α) (p : α) (q : Option α) :
    (s.setNext p q).next = Function.update s.next p q := by
  funext a
  by_cases ha : a = p
  · subst ha
    simp [Registry.next, Registry.setNext]
  · simp [Registry.next, Registry.setNext, ha]

/-- The rest of a module is as before. -/
@[simp] theorem Registry.setNext_name (s : Registry α) (p : α) (q : Option α) (a : α) :
    ((s.setNext p q).modules a).name = (s.modules a).name := by
  by_cases ha : a = p
  · subst ha
    simp [Registry.setNext]
  · simp [Registry.setNext, ha]

@[simp] theorem Registry.setNext_isSupport (s : Registry α) (p : α) (q : Option α) (a : α) :
    ((s.setNext p q).modules a).isSupport = (s.modules a).isSupport := by
  by_cases ha : a = p
  · subst ha
    simp [Registry.setNext]
  · simp [Registry.setNext, ha]

omit [DecidableEq α] in

/-- Before the first registration the list is empty. -/
theorem represents_empty (modules : α → VideoConvert α) :
    (Registry.empty modules).Represents modules [] :=
  ⟨Segment.nil none, fun _ => rfl, fun _ => rfl⟩

namespace Registry.Represents

variable {s : Registry α} {modules : α → VideoConvert α} {l : List α}

/-- **One registration.**  It comes to an end, with as many rounds as there are modules in the
list, and puts its module at the end of the list. -/
theorem register (h : s.Represents modules l) (x : α) :
    ∃ t : Registry α, (∀ fuel, l.length ≤ fuel → registerVideoConvert fuel s x = some (0, t)) ∧
      t.Represents modules (appendOnce l x) := by
  obtain ⟨hchain, hname, hsupport⟩ := h
  obtain rfl | ⟨m, ptTmp, rfl⟩ := List.eq_nil_or_concat' l
  · have hhead : s.ptVideoConvertHead = none := segment_nil_iff.mp hchain
    refine ⟨{ s with ptVideoConvertHead := some x }.setNext x none, fun fuel _ => ?_, ?_, ?_, ?_⟩
    · simp only [registerVideoConvert, hhead]
    · rw [setNext_next, setNext_head]
      exact (Segment.nil (some x)).set List.not_mem_nil none
    · intro a
      rw [setNext_name, hname]
    · intro a
      rw [setNext_isSupport, hsupport]
  · obtain ⟨head, hhead⟩ : ∃ head, s.ptVideoConvertHead = some head := by
      cases m with
      | nil => exact ⟨_, (segment_cons_iff.mp hchain).1⟩
      | cons a m => exact ⟨_, (segment_cons_iff.mp hchain).1⟩
    refine ⟨(s.setNext ptTmp (some x)).setNext x none, fun fuel hfuel => ?_, ?_, ?_, ?_⟩
    · have hlast : lastFrom s.next fuel head = some ptTmp := by
        rw [hhead] at hchain
        rw [List.length_append, List.length_singleton] at hfuel
        exact hchain.lastFrom_eq (by omega)
      simp only [registerVideoConvert, hhead, hlast]
    · rw [setNext_next, setNext_next, setNext_head, setNext_head]
      exact hchain.relink x
    · intro a
      rw [setNext_name, setNext_name, hname]
    · intro a
      rw [setNext_isSupport, setNext_isSupport, hsupport]

/-- **Any registrations.** -/
theorem registerAll (h : s.Represents modules l) (xs : List α) :
    ∃ t : Registry α,
      (∀ fuel, l.length + xs.length ≤ fuel → ConvertManager.registerAll fuel s xs = some t) ∧
      t.Represents modules (xs.foldl appendOnce l) := by
  induction xs generalizing s l with
  | nil => exact ⟨s, fun _ _ => rfl, h⟩
  | cons x xs ih =>
      obtain ⟨t, hfirst, ht⟩ := h.register x
      obtain ⟨u, hrest, hu⟩ := ih ht
      refine ⟨u, fun fuel hfuel => ?_, hu⟩
      have hlength := length_appendOnce_le l x
      rw [List.length_cons] at hfuel
      rw [ConvertManager.registerAll, hfirst fuel (by omega)]
      exact hrest fuel (by omega)

omit [DecidableEq α] in
/-- **The search for a converter** comes to an end, with the first one that supports the
formats. -/
theorem getForFormats (h : s.Represents modules l) {fuel : Nat} (hfuel : l.length < fuel)
    (iPixelFormatIn iPixelFormatOut : Int32) :
    getVideoConvertForFormats fuel s iPixelFormatIn iPixelFormatOut =
      some (l.find? fun c => (modules c).isSupport iPixelFormatIn iPixelFormatOut ≠ 0) := by
  have hbody : (fun ptTmp =>
        if (s.modules ptTmp).isSupport iPixelFormatIn iPixelFormatOut ≠ 0 then some ptTmp
        else none) =
      Option.guard fun c => decide ((modules c).isSupport iPixelFormatIn iPixelFormatOut ≠ 0) := by
    funext c
    simp only [h.isSupport, Option.guard, decide_eq_true_eq]
  rw [getVideoConvertForFormats, h.chain.visit_eq _ hfuel, hbody, List.findSome?_guard]

omit [DecidableEq α] in
/-- **The search for a name** comes to an end at the first module that has it, if all modules
before that one have names. -/
theorem getByName (h : s.Represents modules l) {fuel : Nat} (hfuel : l.length < fuel)
    (pcName : String) :
    getVideoConvert fuel s pcName = some (l.findSome? fun c =>
      match (modules c).name with
      | none => some (.error .nullName)
      | some name => if name = pcName then some (.ok c) else none) := by
  rw [getVideoConvert, h.chain.visit_eq _ hfuel]
  simp only [h.name]

omit [DecidableEq α] in
/-- **The printing** comes to an end, with all of the list. -/
theorem showAll (h : s.Represents modules l) {fuel : Nat} (hfuel : l.length < fuel) :
    showVideoConvert fuel s = some (l.mapIdx fun i c => (i, (modules c).name)) := by
  rw [showVideoConvert, h.chain.nodes_eq hfuel, Option.map_some]
  simp only [h.name]

/-- The three modules of the program, in the order of `VideoConvertInit`. -/
theorem init {g : Converter ↪ α} (h : s.Represents modules l)
    (hl : l = [] ∨ l = videoConverts.map g) :
    ∃ t : Registry α, (∀ fuel, 3 ≤ fuel → videoConvertInit g fuel s = some (0, t)) ∧
      t.Represents modules (videoConverts.map g) := by
  have hlength : l.length ≤ 3 := by
    obtain rfl | rfl := hl
    · exact Nat.zero_le 3
    · exact Nat.le_refl 3
  -- what is left of a list that begins with the first module is that module
  have hfirst : appendOnce l (g .yuv2Rgb) = [g .yuv2Rgb] := by
    obtain rfl | rfl := hl
    · rfl
    · exact appendOnce_append_cons List.not_mem_nil
  have hsecond : appendOnce [g .yuv2Rgb] (g .mjpeg2Rgb) = [g .yuv2Rgb, g .mjpeg2Rgb] := by
    apply appendOnce_of_notMem
    simp
  have hthird : appendOnce [g .yuv2Rgb, g .mjpeg2Rgb] (g .rgb2Rgb) = videoConverts.map g := by
    apply appendOnce_of_notMem
    simp
  obtain ⟨s₁, hrun₁, h₁⟩ := h.register (g .yuv2Rgb)
  rw [hfirst] at h₁
  obtain ⟨s₂, hrun₂, h₂⟩ := h₁.register (g .mjpeg2Rgb)
  rw [hsecond] at h₂
  obtain ⟨s₃, hrun₃, h₃⟩ := h₂.register (g .rgb2Rgb)
  rw [hthird] at h₃
  refine ⟨s₃, fun fuel hfuel => ?_, h₃⟩
  have hyuv : yuv2RgbInit g fuel s = some (0, s₁) := hrun₁ fuel (by omega)
  have hmjpeg : mjpeg2RgbInit g fuel s₁ = some (0, s₂) :=
    hrun₂ fuel (by simp only [List.length_singleton]; omega)
  have hrgb : rgb2RgbInit g fuel s₂ = some (0, s₃) :=
    hrun₃ fuel (by simp only [List.length_cons, List.length_nil]; omega)
  have herror : (0 : Int32) ||| 0 ||| 0 = 0 := by decide
  simp only [videoConvertInit, hyuv, hmjpeg, hrgb, Option.bind_eq_bind, Option.bind_some, herror]
  rfl

/-- **Any number of times, but at least once.** -/
theorem inits {g : Converter ↪ α} (h : s.Represents modules l)
    (hl : l = [] ∨ l = videoConverts.map g) (n : Nat) :
    ∃ t : Registry α,
      (∀ fuel, 3 ≤ fuel → videoConvertInits g fuel (n + 1) s = some t) ∧
      t.Represents modules (videoConverts.map g) := by
  induction n generalizing s l with
  | zero =>
      obtain ⟨t, hrun, ht⟩ := h.init hl
      refine ⟨t, fun fuel hfuel => ?_, ht⟩
      rw [videoConvertInits, hrun fuel hfuel]
      rfl
  | succ n ih =>
      obtain ⟨t, hrun, ht⟩ := h.init hl
      obtain ⟨u, hrest, hu⟩ := ih ht (Or.inr rfl)
      refine ⟨u, fun fuel hfuel => ?_, hu⟩
      rw [videoConvertInits, hrun fuel hfuel]
      exact hrest fuel hfuel

end Registry.Represents

/-! ## The registry -/

/-- The list that a sequence of registrations leaves. -/
def registered (xs : List α) : List α := xs.foldl appendOnce []

/-- There are at most as many modules as registrations. -/
theorem length_registered_le (xs : List α) : (registered xs).length ≤ xs.length := by
  have hle := length_foldl_appendOnce_le [] xs
  rwa [List.length_nil, Nat.zero_add] at hle

/-- Different modules are all kept, in their order. -/
theorem registered_of_nodup {xs : List α} (hxs : xs.Nodup) : registered xs = xs :=
  foldl_appendOnce (l := []) hxs

/-- From the head, the links are the list `l`: they lead through its modules to NULL, there is
no module twice and no cycle, and no other module can be reached. -/
structure Registry.IsList (s : Registry α) (l : List α) : Prop where
  chain : Chain s.next s.ptVideoConvertHead l
  nodup : l.Nodup
  acyclic : Acyclic s.next s.ptVideoConvertHead
  reachable : ∀ a, Reachable s.next s.ptVideoConvertHead a ↔ a ∈ l

omit [DecidableEq α] in

/-- The links are a list that ends. -/
theorem Registry.Represents.isList {s : Registry α} {modules : α → VideoConvert α} {l : List α}
    (h : s.Represents modules l) : s.IsList l :=
  ⟨h.chain, h.chain.nodup, h.chain.acyclic, fun _ => h.chain.reachable_iff⟩

/-- **The registry stays a list.**  Any modules are registered in any order and as often as one
likes.  All calls come to an end, and then the links from the head are a list that ends in the
module registered last; so every loop along them comes to an end as well, the search for the
last module and the search for a converter among them.  Modules that are registered once each
stand in the order of their registrations, and the first one that supports the formats is
found.  `VideoConvertInit`, called once or more often, leaves its three modules in their
order. -/
theorem registry_stays_list (modules : α → VideoConvert α) :
    (∀ xs : List α, ∃ s : Registry α,
      (∀ fuel, xs.length ≤ fuel → registerAll fuel (Registry.empty modules) xs = some s) ∧
      s.IsList (registered xs) ∧
      (registered xs).getLast? = xs.getLast? ∧
      (∀ fuel, xs.length ≤ fuel → ∀ x, ∃ t, registerVideoConvert fuel s x = some (0, t)) ∧
      (∀ fuel, xs.length < fuel → ∀ iPixelFormatIn iPixelFormatOut,
        getVideoConvertForFormats fuel s iPixelFormatIn iPixelFormatOut =
          some ((registered xs).find? fun c =>
            (modules c).isSupport iPixelFormatIn iPixelFormatOut ≠ 0)) ∧
      (∀ fuel, xs.length < fuel → ∀ pcName, ∃ r, getVideoConvert fuel s pcName = some r) ∧
      (∀ fuel, xs.length < fuel → showVideoConvert fuel s =
        some ((registered xs).mapIdx fun i c => (i, (modules c).name))) ∧
      (xs.Nodup → registered xs = xs)) ∧
    ∀ (g : Converter ↪ α) (n : Nat), ∃ s : Registry α,
      (∀ fuel, 3 ≤ fuel → videoConvertInits g fuel (n + 1) (Registry.empty modules) = some s) ∧
      s.IsList [g .yuv2Rgb, g .mjpeg2Rgb, g .rgb2Rgb] := by
  have hempty := represents_empty modules
  constructor
  · intro xs
    have hlength := length_registered_le xs
    obtain ⟨s, hrun, hs⟩ := hempty.registerAll xs
    refine ⟨s, fun fuel hfuel => hrun fuel (by rwa [List.length_nil, Nat.zero_add]), hs.isList,
      getLast?_foldl_appendOnce xs, fun fuel hfuel x => ?_, fun fuel hfuel => ?_,
      fun fuel hfuel pcName => ?_, fun fuel hfuel => ?_, registered_of_nodup⟩
    · obtain ⟨t, ht, -⟩ := hs.register x
      exact ⟨t, ht fuel (hlength.trans hfuel)⟩
    · exact hs.getForFormats (hlength.trans_lt hfuel)
    · exact ⟨_, hs.getByName (hlength.trans_lt hfuel) pcName⟩
    · exact hs.showAll (hlength.trans_lt hfuel)
  · intro g n
    obtain ⟨s, hrun, hs⟩ := hempty.inits (Or.inl rfl) n
    exact ⟨s, hrun, hs.isList⟩

/-- The three modules are registered, and then the second one again: the third is lost, and
with it the conversion from RGB565.  Two others are registered once each, and the program's
own are initialized twice. -/
theorem registered_again_cuts_off :
    (∃ s : Registry Converter,
      registerAll 4 (Registry.empty tVideoConvert) [.yuv2Rgb, .mjpeg2Rgb, .rgb2Rgb, .mjpeg2Rgb] =
        some s ∧
      s.IsList [.yuv2Rgb, .mjpeg2Rgb] ∧
      (∃ t, registerVideoConvert 4 s .rgb2Rgb = some (0, t)) ∧
      getVideoConvertForFormats 5 s V4L2_PIX_FMT_RGB565 V4L2_PIX_FMT_RGB32 = some none) ∧
    registered [Converter.rgb2Rgb, .yuv2Rgb] = [.rgb2Rgb, .yuv2Rgb] ∧
    ∃ s : Registry Converter,
      videoConvertInits (Function.Embedding.refl Converter) 3 2 (Registry.empty tVideoConvert) =
        some s ∧
      s.IsList [.yuv2Rgb, .mjpeg2Rgb, .rgb2Rgb] := by
  obtain ⟨hregistrations, hinits⟩ := registry_stays_list (α := Converter) tVideoConvert
  refine ⟨?_, ?_, ?_⟩
  · obtain ⟨s, hrun, hlist, -, htail, hfind, -, -, -⟩ :=
      hregistrations [.yuv2Rgb, .mjpeg2Rgb, .rgb2Rgb, .mjpeg2Rgb]
    have hcut : registered [Converter.yuv2Rgb, .mjpeg2Rgb, .rgb2Rgb, .mjpeg2Rgb] =
        [.yuv2Rgb, .mjpeg2Rgb] := by decide
    rw [hcut] at hlist hfind
    refine ⟨s, hrun 4 (by decide), hlist, htail 4 (by decide) _, ?_⟩
    rw [hfind 5 (by decide)]
    decide
  · obtain ⟨s, -, -, -, -, -, -, -, horder⟩ := hregistrations [.rgb2Rgb, .yuv2Rgb]
    exact horder (by decide)
  · obtain ⟨s, hrun, hlist⟩ := hinits (Function.Embedding.refl Converter) 1
    exact ⟨s, hrun 3 (by decide), hlist⟩

/-! ## The modules of the program -/

section Program

variable {g : Converter ↪ α} {modules : α → VideoConvert α} {s : Registry α}

/-- After any number of initialisations the list has the three modules, in their order. -/
theorem represents_init {n fuel : Nat} (hfuel : 3 ≤ fuel)
    (hs : videoConvertInits g fuel (n + 1) (Registry.empty modules) = some s) :
    s.Represents modules (videoConverts.map g) := by
  obtain ⟨t, hrun, ht⟩ := (represents_empty modules).inits (g := g) (Or.inl rfl) n
  obtain rfl : s = t := Option.some.inj (hs.symm.trans (hrun fuel hfuel))
  exact ht

/-- **The program's registry.**  When the three modules of the program have been registered,
the search along the links is the search through `videoConverts`. -/
theorem getVideoConvertForFormats_init (hmodules : ∀ c, modules (g c) = tVideoConvert c)
    {n fuel : Nat} (hfuel : 3 < fuel)
    (hs : videoConvertInits g fuel (n + 1) (Registry.empty modules) = some s)
    (iPixelFormatIn iPixelFormatOut : Int32) :
    getVideoConvertForFormats fuel s iPixelFormatIn iPixelFormatOut =
      some ((Video2lcd.getVideoConvertForFormats iPixelFormatIn iPixelFormatOut).map g) := by
  have hsupport : (fun c => decide ((modules c).isSupport iPixelFormatIn iPixelFormatOut ≠ 0)) ∘ g =
      fun c => c.isSupport iPixelFormatIn iPixelFormatOut := by
    funext c
    simp [hmodules, tVideoConvert]
  have hlength : (videoConverts.map g).length < fuel := hfuel
  rw [(represents_init hfuel.le hs).getForFormats hlength, List.find?_map, hsupport]
  rfl

/-- **No module has a name.**  `GetVideoConvert` hands the NULL of the first one to `strcmp`,
whichever name it is asked for. -/
theorem getVideoConvert_init (hmodules : ∀ c, modules (g c) = tVideoConvert c)
    {n fuel : Nat} (hfuel : 3 < fuel)
    (hs : videoConvertInits g fuel (n + 1) (Registry.empty modules) = some s) (pcName : String) :
    getVideoConvert fuel s pcName = some (some (.error .nullName)) := by
  have hlength : (videoConverts.map g).length < fuel := hfuel
  rw [(represents_init hfuel.le hs).getByName hlength]
  simp [videoConverts, hmodules, tVideoConvert]

end Program

end Video2lcd.ConvertManager
