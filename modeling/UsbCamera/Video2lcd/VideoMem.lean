import UsbCamera.Base.Run

/-!
# The pool of VideoMems

`AllocVideoMem` builds a list of picture memories: one for the framebuffer of the
device itself and behind it, nearer to the head, those used as caches.
`GetVideoMem` looks for one in four passes over the list and `PutVideoMem` makes
one free again.  In between its owner notes in `ePicState` how far the picture in
it has come.

A `Pool` is the list together with what its users know: which pointers were handed
out, and for every VideoMem the ID it had when its `ePicState` was last set.  The
second is the point of the cache: a VideoMem that is handed out for an ID and is
not blank holds the picture of that very ID (`videoMem_pool`).
-/

namespace Video2lcd

open FaultRun

/-- `E_VideoMemState`. -/
inductive VideoMemState
  | free
  | usedForPrepare
  | usedForCur
deriving DecidableEq, Repr

/-- `E_PicState`. -/
inductive PicState
  | blank
  | generating
  | generated
deriving DecidableEq, Repr

/-- `T_VideoMem` at its address, without the picture itself. -/
structure VideoMem where
  addr : Nat
  iID : Int32
  bDevFrameBuffer : Bool
  eVideoMemState : VideoMemState
  ePicState : PicState
deriving DecidableEq, Repr

/-- The loop of `AllocVideoMem`; `malloc i` is the answer to request `i`. -/
def allocCaches (malloc : Nat → Option Nat) : Nat → Nat → List VideoMem → Int32 × List VideoMem
  | 0, _, mems => (0, mems)
  | left + 1, i, mems =>
      match malloc i with
      | none => (-1, mems)
      | some addr => allocCaches malloc left (i + 1) (⟨addr, 0, false, .free, .blank⟩ :: mems)

/-- `AllocVideoMem`: its return value, and the list it leaves. -/
def allocVideoMem (iNum : Int32) (malloc : Nat → Option Nat) (mems : List VideoMem) :
    Int32 × List VideoMem :=
  match malloc 0 with
  | none => (-1, mems)
  | some addr =>
      let eVideoMemState : VideoMemState := if iNum ≠ 0 then .usedForCur else .free
      allocCaches malloc iNum.toInt.toNat 1 (⟨addr, 0, true, eVideoMemState, .blank⟩ :: mems)

/-- One pass over the list: the first VideoMem with `p` is changed by `f` and
returned. -/
def takeFirst (p : VideoMem → Bool) (f : VideoMem → VideoMem) :
    List VideoMem → Option (Nat × List VideoMem)
  | [] => none
  | m :: rest =>
      if p m then some (m.addr, f m :: rest)
      else (takeFirst p f rest).map fun x => (x.1, m :: x.2)

def VideoMem.isFree (m : VideoMem) : Bool := m.eVideoMemState == .free

/-- The state of a VideoMem that is handed out. -/
def usedState (bCur : Bool) : VideoMemState := if bCur then .usedForCur else .usedForPrepare

/-- What users do that they should not, or the code with a pointer. -/
inductive PoolFault
  | nullPointer
  | notHandedOut
deriving DecidableEq, Repr

/-- `GetVideoMem`: the pointer it returns, and the list it leaves. -/
def getVideoMem (iID : Int32) (bCur : Bool) (mems : List VideoMem) :
    Except PoolFault (Option Nat × List VideoMem) :=
  match takeFirst (fun m => m.isFree && m.iID == iID)
      (fun m => { m with eVideoMemState := usedState bCur }) mems with
  | some (addr, mems') => .ok (some addr, mems')
  | none =>
    match takeFirst (fun m => m.isFree && m.ePicState == .blank)
        (fun m => { m with iID := iID, eVideoMemState := usedState bCur }) mems with
    | some (addr, mems') => .ok (some addr, mems')
    | none =>
      match takeFirst VideoMem.isFree
          (fun m => { m with
            iID := iID, ePicState := .blank, eVideoMemState := usedState bCur }) mems with
      | some (addr, mems') => .ok (some addr, mems')
      | none =>
        if bCur then
          -- any VideoMem, free or not
          match mems with
          | [] => .error .nullPointer
          | m :: rest =>
              .ok (some m.addr, { m with
                iID := iID, ePicState := .blank, eVideoMemState := usedState bCur } :: rest)
        else .ok (none, mems)

/-- Change the VideoMem at an address. -/
def updateAt (addr : Nat) (f : VideoMem → VideoMem) (mems : List VideoMem) : List VideoMem :=
  mems.map fun m => if m.addr = addr then f m else m

/-- `PutVideoMem`. -/
def putVideoMem (addr : Nat) (mems : List VideoMem) : List VideoMem :=
  updateAt addr (fun m => { m with
    eVideoMemState := .free
    ePicState := if m.iID = -1 then .blank else m.ePicState }) mems

/-- The list, the pointers handed out so far, and for every VideoMem the ID it
belonged to when its `ePicState` was set last. -/
structure Pool where
  mems : List VideoMem
  handedOut : List Nat
  markedFor : Nat → Option Int32

/-- What the users of the pool do. -/
inductive PoolCall
  | get (iID : Int32) (bCur : Bool)
  | put (addr : Nat)
  -- an owner sets `ePicState`
  | mark (addr : Nat) (ePicState : PicState)
deriving DecidableEq, Repr

/-- The ID of the VideoMem at an address. -/
def idAt (addr : Nat) (mems : List VideoMem) : Option Int32 :=
  (mems.find? fun m => m.addr = addr).map VideoMem.iID

/-- One call.  Users put back and mark only what was handed out. -/
def Pool.step (s : Pool) : PoolCall → Except PoolFault (Option Nat × Pool)
  | .get iID bCur =>
      (getVideoMem iID bCur s.mems).map fun x =>
        (x.1, { s with mems := x.2, handedOut := x.1.toList ++ s.handedOut })
  | .put addr =>
      if addr ∈ s.handedOut then .ok (none, { s with mems := putVideoMem addr s.mems })
      else .error .notHandedOut
  | .mark addr ePicState =>
      if addr ∈ s.handedOut then
        .ok (none, { s with
          mems := updateAt addr (fun m => { m with ePicState := ePicState }) s.mems
          markedFor := Function.update s.markedFor addr (idAt addr s.mems) })
      else .error .notHandedOut

/-- The pool right after its allocation. -/
def Pool.start (mems : List VideoMem) : Pool := ⟨mems, [], fun _ => none⟩

theorem Pool.step_get {s t : Pool} {iID : Int32} {bCur : Bool} {r : Option Nat}
    (h : s.step (.get iID bCur) = .ok (r, t)) :
    ∃ mems, getVideoMem iID bCur s.mems = .ok (r, mems) ∧
      t = { s with mems := mems, handedOut := r.toList ++ s.handedOut } := by
  obtain ⟨⟨reply, mems⟩, hget, heq⟩ := map_eq_ok.mp h
  obtain ⟨rfl, rfl⟩ := Prod.mk.inj heq
  exact ⟨mems, hget, rfl⟩

theorem Pool.step_put {s t : Pool} {addr : Nat} {r : Option Nat}
    (h : s.step (.put addr) = .ok (r, t)) :
    addr ∈ s.handedOut ∧ r = none ∧ t = { s with mems := putVideoMem addr s.mems } := by
  simp only [Pool.step] at h
  split at h
  · rename_i hout
    obtain ⟨rfl, rfl⟩ := Prod.mk.inj (Except.ok.inj h)
    exact ⟨hout, rfl, rfl⟩
  · cases h

theorem Pool.step_mark {s t : Pool} {addr : Nat} {ePicState : PicState} {r : Option Nat}
    (h : s.step (.mark addr ePicState) = .ok (r, t)) :
    addr ∈ s.handedOut ∧ r = none ∧
      t = { s with
        mems := updateAt addr (fun m => { m with ePicState := ePicState }) s.mems
        markedFor := Function.update s.markedFor addr (idAt addr s.mems) } := by
  simp only [Pool.step] at h
  split at h
  · rename_i hout
    obtain ⟨rfl, rfl⟩ := Prod.mk.inj (Except.ok.inj h)
    exact ⟨hout, rfl, rfl⟩
  · cases h

/-- A pass fails exactly if it finds nothing. -/
theorem takeFirst_eq_none {p : VideoMem → Bool} {f : VideoMem → VideoMem} {mems : List VideoMem} :
    takeFirst p f mems = none ↔ ∀ m ∈ mems, p m = false := by
  induction mems with
  | nil => simp [takeFirst]
  | cons m rest ih =>
      unfold takeFirst
      by_cases hp : p m = true
      · simp [hp]
      · simp [hp, ih]

/-- What a pass finds, and that it leaves the rest of the list alone. -/
theorem takeFirst_eq_some {p : VideoMem → Bool} {f : VideoMem → VideoMem}
    {mems mems' : List VideoMem} {addr : Nat} (h : takeFirst p f mems = some (addr, mems')) :
    ∃ xs m ys, mems = xs ++ m :: ys ∧ mems' = xs ++ f m :: ys ∧ addr = m.addr ∧ p m = true := by
  induction mems generalizing addr mems' with
  | nil => cases h
  | cons m rest ih =>
      unfold takeFirst at h
      by_cases hp : p m = true
      · rw [if_pos hp] at h
        obtain ⟨rfl, rfl⟩ := Prod.mk.inj (Option.some.inj h)
        exact ⟨[], m, rest, rfl, rfl, rfl, hp⟩
      · rw [if_neg hp] at h
        obtain ⟨⟨addr', rest'⟩, hrest, hsome⟩ := Option.map_eq_some_iff.mp h
        obtain ⟨rfl, rfl⟩ := Prod.mk.inj hsome
        obtain ⟨xs, x, ys, rfl, rfl, haddr, hx⟩ := ih hrest
        exact ⟨m :: xs, x, ys, rfl, rfl, haddr, hx⟩

/-- Some VideoMem that is free satisfies `q`. -/
def AnyFree (q : VideoMem → Prop) (mems : List VideoMem) : Prop :=
  ∃ m ∈ mems, m.eVideoMemState = .free ∧ q m

/-- `m` is what `GetVideoMem` should choose for an ID: a free one, with that ID if
there is any, else a blank one if there is any. -/
structure Chosen (iID : Int32) (mems : List VideoMem) (m : VideoMem) : Prop where
  free : m.eVideoMemState = .free
  same : AnyFree (fun x => x.iID = iID) mems → m.iID = iID
  blank : ¬ AnyFree (fun x => x.iID = iID) mems →
    AnyFree (fun x => x.ePicState = .blank) mems → m.ePicState = .blank

/-- How the VideoMem that is handed out changes. -/
structure HandedFor (iID : Int32) (bCur : Bool) (m m' : VideoMem) : Prop where
  addr : m'.addr = m.addr
  device : m'.bDevFrameBuffer = m.bDevFrameBuffer
  id : m'.iID = iID
  state : m'.eVideoMemState = usedState bCur
  pic : m'.ePicState = .blank ∨ m.iID = iID ∧ m'.ePicState = m.ePicState

/-- **What `GetVideoMem` does.**  It finds the right one of the free VideoMems; if
none is free, it finds nothing, or takes the head of the list for the current
user. -/
theorem getVideoMem_cases {iID : Int32} {bCur : Bool} {mems mems' : List VideoMem}
    {reply : Option Nat} (h : getVideoMem iID bCur mems = .ok (reply, mems')) :
    (reply = none ∧ mems' = mems ∧ bCur = false ∧ ∀ m ∈ mems, m.eVideoMemState ≠ .free) ∨
    ∃ xs m m' ys, mems = xs ++ m :: ys ∧ mems' = xs ++ m' :: ys ∧ reply = some m.addr ∧
      HandedFor iID bCur m m' ∧
      (Chosen iID mems m ∨
        bCur = true ∧ xs = [] ∧ ∀ m ∈ mems, m.eVideoMemState ≠ .free) := by
  unfold getVideoMem at h
  split at h
  · rename_i addr found hfirst
    obtain ⟨rfl, rfl⟩ := Prod.mk.inj (Except.ok.inj h)
    obtain ⟨xs, m, ys, hmems, hfound, rfl, hm⟩ := takeFirst_eq_some hfirst
    simp only [VideoMem.isFree, Bool.and_eq_true, beq_iff_eq] at hm
    right
    refine ⟨xs, m, _, ys, hmems, hfound, rfl, ⟨rfl, rfl, hm.2, rfl, Or.inr ⟨hm.2, rfl⟩⟩,
      Or.inl ⟨hm.1, fun _ => hm.2, ?_⟩⟩
    intro hnone
    exact absurd ⟨m, by simp [hmems], hm.1, hm.2⟩ hnone
  · rename_i hfirst
    have hnoId : ¬ AnyFree (fun x => x.iID = iID) mems := by
      intro ⟨x, hx, hfree, hid⟩
      have hnot := takeFirst_eq_none.mp hfirst x hx
      simp [VideoMem.isFree, hfree, hid] at hnot
    split at h
    · rename_i addr found hsecond
      obtain ⟨rfl, rfl⟩ := Prod.mk.inj (Except.ok.inj h)
      obtain ⟨xs, m, ys, hmems, hfound, rfl, hm⟩ := takeFirst_eq_some hsecond
      simp only [VideoMem.isFree, Bool.and_eq_true, beq_iff_eq] at hm
      right
      exact ⟨xs, m, _, ys, hmems, hfound, rfl, ⟨rfl, rfl, rfl, rfl, Or.inl hm.2⟩,
        Or.inl ⟨hm.1, fun hany => absurd hany hnoId, fun _ _ => hm.2⟩⟩
    · rename_i hsecond
      have hnoBlank : ¬ AnyFree (fun x => x.ePicState = .blank) mems := by
        intro ⟨x, hx, hfree, hblank⟩
        have hnot := takeFirst_eq_none.mp hsecond x hx
        simp [VideoMem.isFree, hfree, hblank] at hnot
      split at h
      · rename_i addr found hthird
        obtain ⟨rfl, rfl⟩ := Prod.mk.inj (Except.ok.inj h)
        obtain ⟨xs, m, ys, hmems, hfound, rfl, hm⟩ := takeFirst_eq_some hthird
        simp only [VideoMem.isFree, beq_iff_eq] at hm
        right
        exact ⟨xs, m, _, ys, hmems, hfound, rfl, ⟨rfl, rfl, rfl, rfl, Or.inl rfl⟩,
          Or.inl ⟨hm, fun hany => absurd hany hnoId, fun _ hany => absurd hany hnoBlank⟩⟩
      · rename_i hthird
        have hnoFree : ∀ m ∈ mems, m.eVideoMemState ≠ .free := by
          intro m hm hfree
          have hnot := takeFirst_eq_none.mp hthird m hm
          simp [VideoMem.isFree, hfree] at hnot
        split at h
        · rename_i hcur
          split at h
          · cases h
          · rename_i m rest
            obtain ⟨rfl, rfl⟩ := Prod.mk.inj (Except.ok.inj h)
            right
            exact ⟨[], m, _, rest, rfl, rfl, rfl, ⟨rfl, rfl, rfl, rfl, Or.inl rfl⟩,
              Or.inr ⟨hcur, rfl, hnoFree⟩⟩
        · rename_i hcur
          obtain ⟨rfl, rfl⟩ := Prod.mk.inj (Except.ok.inj h)
          exact Or.inl ⟨rfl, rfl, by simpa using hcur, hnoFree⟩

/-! ## The invariant -/

/-- What is always so of a pool with a cache: the device's own memory is in use, is
not at the head and was never handed out, and a picture that is not blank was
marked for the ID its memory has. -/
structure Pool.Sound (s : Pool) : Prop where
  nodup : (s.mems.map VideoMem.addr).Nodup
  device : ∀ m ∈ s.mems, m.bDevFrameBuffer = true →
    m.eVideoMemState = .usedForCur ∧ m.addr ∉ s.handedOut
  head : ∀ m ∈ s.mems.head?, m.bDevFrameBuffer = false
  marks : ∀ m ∈ s.mems, m.ePicState ≠ .blank → s.markedFor m.addr = some m.iID

/-- How a VideoMem may change in a call: it stays what it is, and loses its picture
with its ID. -/
structure VideoMem.Becomes (m m' : VideoMem) : Prop where
  addr : m'.addr = m.addr
  device : m'.bDevFrameBuffer = m.bDevFrameBuffer
  pic : m'.iID ≠ m.iID → m'.ePicState = .blank

theorem VideoMem.Becomes.refl (m : VideoMem) : m.Becomes m :=
  ⟨rfl, rfl, fun h => absurd rfl h⟩

theorem HandedFor.becomes {iID : Int32} {bCur : Bool} {m m' : VideoMem}
    (h : HandedFor iID bCur m m') : m.Becomes m' := by
  refine ⟨h.addr, h.device, fun hid => ?_⟩
  rcases h.pic with hblank | ⟨hsame, -⟩
  · exact hblank
  · exact absurd (h.id.trans hsame.symm) hid

/-- One VideoMem of a list changes. -/
theorem forall₂_becomes_split {xs ys : List VideoMem} {m m' : VideoMem} (h : m.Becomes m') :
    List.Forall₂ VideoMem.Becomes (xs ++ m :: ys) (xs ++ m' :: ys) := by
  have hrefl : ∀ l : List VideoMem, List.Forall₂ VideoMem.Becomes l l := fun l =>
    List.forall₂_same.mpr fun m _ => VideoMem.Becomes.refl m
  exact List.rel_append (hrefl xs) (.cons h (hrefl ys))

/-- The VideoMems with an address change. -/
theorem forall₂_becomes_updateAt {addr : Nat} {f : VideoMem → VideoMem} (mems : List VideoMem)
    (h : ∀ m : VideoMem, m.Becomes (f m)) :
    List.Forall₂ VideoMem.Becomes mems (updateAt addr f mems) := by
  unfold updateAt
  rw [List.forall₂_map_right_iff]
  apply List.forall₂_same.mpr
  intro m _
  split
  · exact h m
  · exact VideoMem.Becomes.refl m

/-- **Every call leaves the same VideoMems.** -/
theorem Pool.step_becomes {s t : Pool} {c : PoolCall} {r : Option Nat}
    (h : s.step c = .ok (r, t)) : List.Forall₂ VideoMem.Becomes s.mems t.mems := by
  cases c with
  | get iID bCur =>
      obtain ⟨mems', hget, rfl⟩ := Pool.step_get h
      rcases getVideoMem_cases hget with ⟨-, rfl, -⟩ | ⟨xs, m, m', ys, hmems, rfl, -, hfor, -⟩
      · exact List.forall₂_same.mpr fun m _ => VideoMem.Becomes.refl m
      · simp only [hmems]
        exact forall₂_becomes_split hfor.becomes
  | put addr =>
      obtain ⟨-, -, rfl⟩ := Pool.step_put h
      exact forall₂_becomes_updateAt s.mems fun m => ⟨rfl, rfl, fun hid => absurd rfl hid⟩
  | mark addr ePicState =>
      obtain ⟨-, -, rfl⟩ := Pool.step_mark h
      exact forall₂_becomes_updateAt s.mems fun m => ⟨rfl, rfl, fun hid => absurd rfl hid⟩

/-- Address and kind of a VideoMem. -/
def VideoMem.key (m : VideoMem) : Nat × Bool := (m.addr, m.bDevFrameBuffer)

/-- Lists of VideoMems that become each other have the same keys. -/
theorem keys_eq {mems mems' : List VideoMem} (h : List.Forall₂ VideoMem.Becomes mems mems') :
    mems'.map VideoMem.key = mems.map VideoMem.key := by
  induction h with
  | nil => rfl
  | cons hm _ ih => simp [VideoMem.key, hm.addr, hm.device, ih]

theorem addrs_eq {mems mems' : List VideoMem} (h : mems'.map VideoMem.key = mems.map VideoMem.key) :
    mems'.map VideoMem.addr = mems.map VideoMem.addr := by
  have hfst := congrArg (List.map Prod.fst) h
  simpa [Function.comp_def, VideoMem.key] using hfst

/-- The head stays what it is. -/
theorem head_kept {mems mems' : List VideoMem} (h : List.Forall₂ VideoMem.Becomes mems mems')
    (hhead : ∀ m ∈ mems.head?, m.bDevFrameBuffer = false) :
    ∀ m ∈ mems'.head?, m.bDevFrameBuffer = false := by
  cases h with
  | nil => simp
  | cons hm hrest =>
      intro m hmem
      obtain rfl := Option.some.inj hmem
      rw [hm.device]
      exact hhead _ rfl

/-- Where addresses are unique, an address determines the VideoMem. -/
theorem eq_of_addr {mems : List VideoMem} (hnodup : (mems.map VideoMem.addr).Nodup)
    {m m' : VideoMem} (hm : m ∈ mems) (hm' : m' ∈ mems) (haddr : m.addr = m'.addr) : m = m' :=
  List.inj_on_of_nodup_map hnodup hm hm' haddr

theorem idAt_eq {mems : List VideoMem} (hnodup : (mems.map VideoMem.addr).Nodup) {m : VideoMem}
    (hm : m ∈ mems) : idAt m.addr mems = some m.iID := by
  unfold idAt
  cases hfind : mems.find? fun x => x.addr = m.addr with
  | none =>
      have hnot := List.find?_eq_none.mp hfind m hm
      simp at hnot
  | some x =>
      have haddr : x.addr = m.addr := by simpa using List.find?_some hfind
      rw [eq_of_addr hnodup (List.mem_of_find?_eq_some hfind) hm haddr]
      rfl

/-- What `GetVideoMem` hands out is a cache: the device's own memory is never free
and never at the head. -/
theorem Pool.Sound.cache_of_cases {s : Pool} (h : s.Sound) {iID : Int32} {xs ys : List VideoMem}
    {m : VideoMem} (hmems : s.mems = xs ++ m :: ys) (hcase : Chosen iID s.mems m ∨ xs = []) :
    m.bDevFrameBuffer = false := by
  rcases hcase with hchosen | rfl
  · by_contra hdevice
    have hused := (h.device m (by simp [hmems]) (by simpa using hdevice)).1
    rw [hchosen.free] at hused
    cases hused
  · exact h.head m (by simp [hmems])

/-- A call of `GetVideoMem` keeps the invariant. -/
theorem Pool.Sound.get {s t : Pool} (h : s.Sound) {iID : Int32} {bCur : Bool} {r : Option Nat}
    (hstep : s.step (.get iID bCur) = .ok (r, t)) : t.Sound := by
  have hbecomes := Pool.step_becomes hstep
  have haddrs := addrs_eq (keys_eq hbecomes)
  have hhead := head_kept hbecomes h.head
  have hnodup : (t.mems.map VideoMem.addr).Nodup := by
    rw [haddrs]
    exact h.nodup
  obtain ⟨mems', hget, rfl⟩ := Pool.step_get hstep
  rcases getVideoMem_cases hget with
    ⟨rfl, rfl, -⟩ | ⟨xs, m, m', ys, hmems, rfl, rfl, hfor, hcase⟩
  · exact ⟨h.nodup, h.device, h.head, h.marks⟩
  · have hcache := h.cache_of_cases hmems (hcase.imp id fun hforced => hforced.2.1)
    have hother : ∀ x ∈ xs ++ m' :: ys, x = m' ∨ x ∈ s.mems := by
      intro x hx
      rw [hmems]
      simp only [List.mem_append, List.mem_cons] at hx ⊢
      tauto
    refine ⟨hnodup, ?_, hhead, ?_⟩
    · intro x hx hdevice
      rcases hother x hx with rfl | hold
      · rw [hfor.device, hcache] at hdevice
        cases hdevice
      · obtain ⟨hused, hnever⟩ := h.device x hold hdevice
        refine ⟨hused, ?_⟩
        simp only [Option.toList_some, List.singleton_append, List.mem_cons, not_or]
        refine ⟨fun haddr => ?_, hnever⟩
        have hsame : x = m := eq_of_addr h.nodup hold (by simp [hmems]) haddr
        rw [hsame, hcache] at hdevice
        cases hdevice
    · intro x hx hpic
      rcases hother x hx with rfl | hold
      · rcases hfor.pic with hblank | ⟨hsame, hkept⟩
        · exact absurd hblank hpic
        · have hmark := h.marks m (by simp [hmems]) (hkept ▸ hpic)
          rw [hfor.addr, hfor.id, ← hsame]
          exact hmark
      · exact h.marks x hold hpic

/-- Changing what was handed out keeps the invariant, if a picture that is not blank
afterwards is marked for the ID that its memory has. -/
theorem Pool.Sound.update {s : Pool} (h : s.Sound) {addr : Nat} {f : VideoMem → VideoMem}
    {markedFor : Nat → Option Int32} (hout : addr ∈ s.handedOut)
    (hf : ∀ m, (f m).addr = m.addr ∧ (f m).bDevFrameBuffer = m.bDevFrameBuffer ∧
      (f m).iID = m.iID)
    (hother : ∀ a ≠ addr, markedFor a = s.markedFor a)
    (hmark : ∀ m ∈ s.mems, m.addr = addr → (f m).ePicState ≠ .blank →
      markedFor addr = some m.iID) :
    ({ s with mems := updateAt addr f s.mems, markedFor := markedFor } : Pool).Sound := by
  have hbecomes : List.Forall₂ VideoMem.Becomes s.mems (updateAt addr f s.mems) :=
    forall₂_becomes_updateAt s.mems
      fun m => ⟨(hf m).1, (hf m).2.1, fun hid => absurd (hf m).2.2 hid⟩
  have haddrs := addrs_eq (keys_eq hbecomes)
  refine ⟨by rw [haddrs]; exact h.nodup, ?_, head_kept hbecomes h.head, ?_⟩
  · intro x hx hdevice
    obtain ⟨m, hm, rfl⟩ := List.mem_map.mp hx
    by_cases haddr : m.addr = addr
    · simp only [haddr, if_true, (hf m).2.1] at hdevice
      have hnever := (h.device m hm hdevice).2
      rw [haddr] at hnever
      exact absurd hout hnever
    · simp only [haddr, if_false] at hdevice ⊢
      exact h.device m hm hdevice
  · intro x hx hpic
    obtain ⟨m, hm, rfl⟩ := List.mem_map.mp hx
    by_cases haddr : m.addr = addr
    · simp only [haddr, if_true] at hpic ⊢
      rw [(hf m).1, (hf m).2.2, haddr]
      exact hmark m hm haddr hpic
    · simp only [haddr, if_false] at hpic ⊢
      rw [hother m.addr haddr]
      exact h.marks m hm hpic

/-- Putting back keeps it. -/
theorem Pool.Sound.put {s t : Pool} (h : s.Sound) {addr : Nat} {r : Option Nat}
    (hstep : s.step (.put addr) = .ok (r, t)) : t.Sound := by
  obtain ⟨hout, -, rfl⟩ := Pool.step_put hstep
  unfold putVideoMem
  refine h.update hout ?_ (fun _ _ => rfl) ?_
  · exact fun m => ⟨rfl, rfl, rfl⟩
  · intro m hm haddr hpic
    have hkept : m.ePicState ≠ .blank := by
      intro hblank
      simp [hblank] at hpic
    rw [← haddr]
    exact h.marks m hm hkept

/-- Marking keeps it: the mark is made for the ID that the memory has. -/
theorem Pool.Sound.mark {s t : Pool} (h : s.Sound) {addr : Nat} {ePicState : PicState}
    {r : Option Nat} (hstep : s.step (.mark addr ePicState) = .ok (r, t)) : t.Sound := by
  obtain ⟨hout, -, rfl⟩ := Pool.step_mark hstep
  refine h.update hout ?_ (fun a hne => Function.update_of_ne hne _ _) ?_
  · exact fun m => ⟨rfl, rfl, rfl⟩
  · intro m hm haddr _
    rw [Function.update_self, ← haddr]
    exact idAt_eq h.nodup hm

/-- **Every call keeps the invariant.** -/
theorem Pool.Sound.kept {s t : Pool} (h : s.Sound) {c : PoolCall} {r : Option Nat}
    (hstep : s.step c = .ok (r, t)) : t.Sound := by
  cases c with
  | get iID bCur => exact h.get hstep
  | put addr => exact h.put hstep
  | mark addr ePicState => exact h.mark hstep

/-- The caches that `AllocVideoMem` allocates, with their addresses. -/
theorem allocCaches_ok {malloc : Nat → Option Nat} {left i : Nat} {mems mems' : List VideoMem}
    (h : allocCaches malloc left i mems = (0, mems')) :
    ∃ addrs : List Nat, addrs.length = left ∧
      addrs.map some = (List.range left).map (fun k => malloc (i + k)) ∧
      mems' = addrs.reverse.map (fun addr => ⟨addr, 0, false, .free, .blank⟩) ++ mems := by
  induction left generalizing i mems with
  | zero =>
      obtain ⟨-, rfl⟩ := Prod.mk.inj h
      exact ⟨[], rfl, rfl, rfl⟩
  | succ left ih =>
      unfold allocCaches at h
      split at h
      · cases (Prod.mk.inj h).1
      · rename_i addr haddr
        obtain ⟨addrs, hlen, hmalloc, rfl⟩ := ih h
        refine ⟨addr :: addrs, by rw [List.length_cons, hlen], ?_, by simp⟩
        rw [List.map_cons, hmalloc, List.range_succ_eq_map, List.map_cons, List.map_map]
        simp only [Nat.add_zero, haddr]
        congr 1
        apply List.map_congr_left
        intro k _
        simp only [Function.comp_def]
        congr 1
        omega

/-- Requests that are answered with different addresses give different VideoMems. -/
theorem nodup_of_fresh {malloc : Nat → Option Nat} {addrs : List Nat} {n : Nat}
    (hfresh : ∀ i j a, malloc i = some a → malloc j = some a → i = j)
    (h : addrs.map some = (List.range n).map malloc) : addrs.Nodup := by
  have hsome : (addrs.map some).Nodup := by
    rw [h]
    apply List.Nodup.map_on _ List.nodup_range
    intro i hi j _ hij
    have hmem : malloc i ∈ addrs.map some := by
      rw [h]
      exact List.mem_map_of_mem hi
    obtain ⟨a, -, ha⟩ := List.mem_map.mp hmem
    exact hfresh i j a ha.symm (hij ▸ ha.symm)
  exact List.Nodup.of_map _ hsome

/-- A successful `AllocVideoMem` leaves as many caches as it was asked for, and behind
them the device's own memory, all at different addresses. -/
theorem allocVideoMem_eq {iNum : Int32} {malloc : Nat → Option Nat} {mems : List VideoMem}
    (hfresh : ∀ i j a, malloc i = some a → malloc j = some a → i = j)
    (h : allocVideoMem iNum malloc [] = (0, mems)) :
    ∃ device addrs, addrs.length = iNum.toInt.toNat ∧ (device :: addrs).Nodup ∧
      mems = addrs.reverse.map (fun addr => ⟨addr, 0, false, .free, .blank⟩) ++
        [⟨device, 0, true, if iNum ≠ 0 then .usedForCur else .free, .blank⟩] := by
  unfold allocVideoMem at h
  split at h
  · cases (Prod.mk.inj h).1
  · rename_i device hdevice
    obtain ⟨addrs, hlen, hmalloc, rfl⟩ := allocCaches_ok h
    refine ⟨device, addrs, hlen, ?_, rfl⟩
    apply nodup_of_fresh (n := iNum.toInt.toNat + 1) hfresh
    rw [List.map_cons, hmalloc, List.range_succ_eq_map, List.map_cons, hdevice, List.map_map]
    congr 1
    apply List.map_congr_left
    intro k _
    simp only [Function.comp_def]
    congr 1
    omega

/-- What is so of the device's memory and of every cache is so of all of them. -/
theorem forall_mem_allocated {p : VideoMem → Prop} {addrs : List Nat} {device : VideoMem}
    (hcache : ∀ addr, p ⟨addr, 0, false, .free, .blank⟩) (hdevice : p device) :
    ∀ m ∈ addrs.reverse.map (fun addr => ⟨addr, 0, false, .free, .blank⟩) ++ [device],
      p m := by
  intro m hm
  rcases List.mem_append.mp hm with hm | hm
  · obtain ⟨addr, -, rfl⟩ := List.mem_map.mp hm
    exact hcache addr
  · rw [List.mem_singleton.mp hm]
    exact hdevice

/-- **The allocated pool.** -/
theorem allocVideoMem_ok {iNum : Int32} {malloc : Nat → Option Nat} {mems : List VideoMem}
    (hnum : 0 < iNum.toInt) (hfresh : ∀ i j a, malloc i = some a → malloc j = some a → i = j)
    (h : allocVideoMem iNum malloc [] = (0, mems)) :
    (Pool.start mems).Sound ∧ mems.length = iNum.toInt.toNat + 1 ∧
      mems.countP VideoMem.bDevFrameBuffer = 1 := by
  have hne : iNum ≠ 0 := by
    intro h0
    rw [h0] at hnum
    exact absurd hnum (by decide)
  obtain ⟨device, addrs, hlen, hall, rfl⟩ := allocVideoMem_eq hfresh h
  obtain ⟨hnew, hnodup⟩ := List.nodup_cons.mp hall
  refine ⟨⟨?_, ?_, ?_, ?_⟩, by simp [hlen], ?_⟩
  · simp only [Pool.start, List.map_append, List.map_map, List.map_cons, List.map_nil]
    rw [show (VideoMem.addr ∘ fun addr => (⟨addr, 0, false, .free, .blank⟩ : VideoMem)) = id
      from rfl, List.map_id, List.nodup_append']
    refine ⟨List.nodup_reverse.mpr hnodup, by simp, ?_⟩
    simp [hnew]
  · apply forall_mem_allocated
    · intro addr hdev
      cases hdev
    · intro _
      exact ⟨if_pos hne, by simp [Pool.start]⟩
  · intro m hm
    have hpos : addrs.reverse ≠ [] := by
      rw [ne_eq, List.reverse_eq_nil_iff, ← List.length_eq_zero_iff, hlen]
      omega
    obtain ⟨first, rest, hcons⟩ := List.exists_cons_of_ne_nil hpos
    simp only [Pool.start, hcons, List.map_cons, List.cons_append, List.head?_cons,
      Option.mem_def, Option.some.injEq] at hm
    rw [← hm]
  · apply forall_mem_allocated
    · exact fun addr hpic => absurd rfl hpic
    · exact fun hpic => absurd rfl hpic
  · rw [List.countP_append, List.countP_eq_zero.mpr]
    · rfl
    · intro m hm
      obtain ⟨addr, -, rfl⟩ := List.mem_map.mp hm
      exact Bool.false_ne_true

/-! ## The pool over its life -/

/-- What is expected of a call of `GetVideoMem` that takes the pool from `s` to `t`:
it hands out a cache, with `bCur = 0` exactly if one is free and then the right one,
and a picture in it was marked for the ID it is handed out for. -/
structure GetOk (s : Pool) (iID : Int32) (bCur : Bool) (r : Option Nat) (t : Pool) : Prop where
  cache : ∀ addr ∈ r, ∃ m ∈ s.mems, m.addr = addr ∧ m.bDevFrameBuffer = false
  exhausted : bCur = false → (r = none ↔ ∀ m ∈ s.mems, m.eVideoMemState ≠ .free)
  chosen : bCur = false → ∀ addr ∈ r, ∃ m ∈ s.mems, m.addr = addr ∧ Chosen iID s.mems m
  picture : ∀ addr ∈ r, ∃ m ∈ t.mems, m.addr = addr ∧ m.iID = iID ∧
    (m.ePicState ≠ .blank → t.markedFor addr = some iID)

/-- **One call.** -/
theorem Pool.Sound.getOk {s t : Pool} (h : s.Sound) {iID : Int32} {bCur : Bool}
    {r : Option Nat} (hstep : s.step (.get iID bCur) = .ok (r, t)) : GetOk s iID bCur r t := by
  have hsound := h.get hstep
  obtain ⟨mems', hget, rfl⟩ := Pool.step_get hstep
  rcases getVideoMem_cases hget with
    ⟨rfl, rfl, -, hnone⟩ | ⟨xs, m, m', ys, hmems, rfl, rfl, hfor, hcase⟩
  · exact ⟨by simp, fun _ => ⟨fun _ => hnone, fun _ => rfl⟩, by simp, by simp⟩
  · have hmem : m ∈ s.mems := by simp [hmems]
    have hcache := h.cache_of_cases hmems (hcase.imp id fun hforced => hforced.2.1)
    have hchosen : bCur = false → Chosen iID s.mems m := by
      intro hcur
      rcases hcase with hchosen | ⟨hforced, -⟩
      · exact hchosen
      · rw [hcur] at hforced
        cases hforced
    refine ⟨?_, ?_, ?_, ?_⟩
    · intro addr haddr
      obtain rfl := Option.some.inj haddr
      exact ⟨m, hmem, rfl, hcache⟩
    · intro hcur
      refine iff_of_false (by simp) fun hnone => ?_
      exact hnone m hmem (hchosen hcur).free
    · intro hcur addr haddr
      obtain rfl := Option.some.inj haddr
      exact ⟨m, hmem, rfl, hchosen hcur⟩
    · intro addr haddr
      obtain rfl := Option.some.inj haddr
      refine ⟨m', by simp, hfor.addr, hfor.id, fun hpic => ?_⟩
      have hmark := hsound.marks m' (by simp) hpic
      rw [hfor.addr, hfor.id] at hmark
      exact hmark

/-- **The VideoMem pool.**  After an allocation with at least one cache, along every
sequence of calls, the list consists of the same VideoMems, one of which is the
framebuffer of the device; every `GetVideoMem` does what is expected of it; and a
VideoMem whose ID changes is blank. -/
theorem videoMem_pool {iNum : Int32} {malloc : Nat → Option Nat} {mems : List VideoMem}
    {log : List (Entry PoolCall (Option Nat) Pool)} (hnum : 1 ≤ iNum.toInt)
    (hfresh : ∀ i j a, malloc i = some a → malloc j = some a → i = j)
    (halloc : allocVideoMem iNum malloc [] = (0, mems))
    (hrun : IsRun Pool.step (Pool.start mems) log) :
    mems.length = iNum.toInt.toNat + 1 ∧ mems.countP VideoMem.bDevFrameBuffer = 1 ∧
    ∀ xs e ys, log = xs ++ e :: ys →
      let s := lastState (Pool.start mems) xs
      e.state.mems.map VideoMem.key = mems.map VideoMem.key ∧
      (∀ iID bCur, e.input = .get iID bCur → GetOk s iID bCur e.reply e.state) ∧
      List.Forall₂ (fun m m' => m'.iID ≠ m.iID → m'.ePicState = .blank) s.mems e.state.mems := by
  obtain ⟨hsound, hlen, hdevice⟩ := allocVideoMem_ok (by omega) hfresh halloc
  refine ⟨hlen, hdevice, ?_⟩
  intro xs e ys hsplit s
  rw [hsplit] at hrun
  have hbefore := (isRun_append.mp hrun).1
  have hstep := hrun.step_at
  have hinv : s.Sound ∧ s.mems.map VideoMem.key = mems.map VideoMem.key := by
    apply hbefore.keeps (P := fun t => t.Sound ∧ t.mems.map VideoMem.key = mems.map VideoMem.key)
    · intro t c r t' ⟨ht, hkeys⟩ hcall
      exact ⟨ht.kept hcall, (keys_eq (Pool.step_becomes hcall)).trans hkeys⟩
    · exact ⟨hsound, rfl⟩
  have hbecomes := Pool.step_becomes hstep
  refine ⟨(keys_eq hbecomes).trans hinv.2, ?_, hbecomes.imp fun _ _ h => h.pic⟩
  intro iID bCur hinput
  rw [hinput] at hstep
  exact hinv.1.getOk hstep

/-- Two caches, at the addresses 1 and 2. -/
def twoCaches : List VideoMem := (allocVideoMem 2 some []).2

/-- A picture is generated for ID 7 and put back. -/
def generateLog : List (Entry PoolCall (Option Nat) Pool) :=
  exec Pool.step (Pool.start twoCaches) [.get 7 false, .mark 2 .generated, .put 2]

/-- The same VideoMem is then handed out again for that ID, with its picture. -/
theorem videoMem_pool_reused :
    ∃ t, (lastState (Pool.start twoCaches) generateLog).step (.get 7 true) = .ok (some 2, t) ∧
      t.markedFor 2 = some 7 ∧
      GetOk (lastState (Pool.start twoCaches) generateLog) 7 true (some 2) t := by
  have hrun : IsRun Pool.step (Pool.start twoCaches)
      (generateLog ++ [⟨.get 7 true, some 2, _⟩]) := isRun_append.mpr ⟨isRun_exec _ _, rfl, trivial⟩
  have hpool := videoMem_pool (by decide)
    (fun i j a hi hj => (Option.some.inj hi).trans (Option.some.inj hj).symm)
    (show allocVideoMem 2 some [] = (0, twoCaches) from rfl) hrun
  exact ⟨_, rfl, rfl, (hpool.2.2 generateLog _ [] rfl).2.1 7 true rfl⟩

end Video2lcd
