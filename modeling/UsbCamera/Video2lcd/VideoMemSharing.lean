import UsbCamera.Video2lcd.VideoMem

/-!
# Two users of the pool

A caller that prepares pages ahead (`bCur = 0`) and one that shows the current page
(`bCur = 1`) share the pool.  Each puts back what it got, once for each time it got
it.

The current caller always gets a VideoMem, if need be one that somebody still
holds.  Nobody tells that holder.  When it puts the VideoMem back, `PutVideoMem`
makes free what the current caller is using, and the next call may hand it out
again.

So the memory of the current page is exclusive as long as nothing is put back that
the current caller holds as well (`current_exclusive`), which is the case in
particular while its calls find something free (`putsApart_of_free`).
-/

namespace Video2lcd

open FaultRun

/-- The pool and what its two callers hold; `true` is the current one. -/
structure Callers where
  pool : Pool
  held : Bool → List Nat

/-- What a caller does. -/
inductive CallerCall
  | get (bCur : Bool) (iID : Int32)
  | put (bCur : Bool) (addr : Nat)
  | mark (bCur : Bool) (addr : Nat) (ePicState : PicState)
deriving DecidableEq, Repr

/-- What a caller holds after putting a VideoMem back once. -/
def Callers.heldAfterPut (s : Callers) (bCur : Bool) (addr : Nat) : Bool → List Nat :=
  Function.update s.held bCur ((s.held bCur).erase addr)

/-- One call of one of the two. -/
def Callers.step (s : Callers) : CallerCall → Except PoolFault (Option Nat × Callers)
  | .get bCur iID =>
      (s.pool.step (.get iID bCur)).map fun x =>
        (x.1, ⟨x.2, Function.update s.held bCur (x.1.toList ++ s.held bCur)⟩)
  | .put bCur addr =>
      if addr ∈ s.held bCur then
        (s.pool.step (.put addr)).map fun x => (x.1, ⟨x.2, s.heldAfterPut bCur addr⟩)
      else .error .notHandedOut
  | .mark bCur addr ePicState =>
      if addr ∈ s.held bCur then
        (s.pool.step (.mark addr ePicState)).map fun x => (x.1, ⟨x.2, s.held⟩)
      else .error .notHandedOut

/-- Nobody holds anything yet. -/
def Callers.start (mems : List VideoMem) : Callers := ⟨Pool.start mems, fun _ => []⟩

/-- No VideoMem of the current caller is free. -/
def Callers.Exclusive (s : Callers) : Prop :=
  ∀ m ∈ s.pool.mems, m.addr ∈ s.held true → m.eVideoMemState ≠ .free

/-- Nothing is put back that the current caller still holds. -/
def PutsApart (s : Callers) : CallerCall → Prop
  | .put bCur addr => addr ∉ s.heldAfterPut bCur addr true
  | _ => True

instance PutsApart.decidable (s : Callers) : (c : CallerCall) → Decidable (PutsApart s c)
  | .get _ _ => .isTrue trivial
  | .put bCur addr => inferInstanceAs (Decidable (addr ∉ s.heldAfterPut bCur addr true))
  | .mark _ _ _ => .isTrue trivial

/-- The current caller finds something free. -/
def FindsFree (s : Callers) : CallerCall → Prop
  | .get true _ => ∃ m ∈ s.pool.mems, m.eVideoMemState = .free
  | _ => True

/-- The invariant of the two callers: the VideoMems have addresses of their own, and
what is held is one of them. -/
structure Callers.Sound (s : Callers) : Prop where
  nodup : (s.pool.mems.map VideoMem.addr).Nodup
  held : ∀ bCur, ∀ addr ∈ s.held bCur, addr ∈ s.pool.mems.map VideoMem.addr

/-! ## The calls -/

theorem Callers.step_get {s t : Callers} {bCur : Bool} {iID : Int32} {r : Option Nat}
    (h : s.step (.get bCur iID) = .ok (r, t)) :
    s.pool.step (.get iID bCur) = .ok (r, t.pool) ∧
      t.held = Function.update s.held bCur (r.toList ++ s.held bCur) := by
  obtain ⟨⟨reply, pool⟩, hpool, heq⟩ := map_eq_ok.mp h
  obtain ⟨rfl, rfl⟩ := Prod.mk.inj heq
  exact ⟨hpool, rfl⟩

theorem Callers.step_put {s t : Callers} {bCur : Bool} {addr : Nat} {r : Option Nat}
    (h : s.step (.put bCur addr) = .ok (r, t)) :
    addr ∈ s.held bCur ∧ s.pool.step (.put addr) = .ok (r, t.pool) ∧
      t.held = s.heldAfterPut bCur addr := by
  simp only [Callers.step] at h
  split at h
  · rename_i hheld
    obtain ⟨⟨reply, pool⟩, hpool, heq⟩ := map_eq_ok.mp h
    obtain ⟨rfl, rfl⟩ := Prod.mk.inj heq
    exact ⟨hheld, hpool, rfl⟩
  · cases h

theorem Callers.step_mark {s t : Callers} {bCur : Bool} {addr : Nat} {ePicState : PicState}
    {r : Option Nat} (h : s.step (.mark bCur addr ePicState) = .ok (r, t)) :
    s.pool.step (.mark addr ePicState) = .ok (r, t.pool) ∧ t.held = s.held := by
  simp only [Callers.step] at h
  split at h
  · obtain ⟨⟨reply, pool⟩, hpool, heq⟩ := map_eq_ok.mp h
    obtain ⟨rfl, rfl⟩ := Prod.mk.inj heq
    exact ⟨hpool, rfl⟩
  · cases h

/-- Putting back makes nobody hold more. -/
theorem Callers.mem_of_mem_heldAfterPut {s : Callers} {bCur who : Bool} {addr a : Nat}
    (h : a ∈ s.heldAfterPut bCur addr who) : a ∈ s.held who := by
  unfold Callers.heldAfterPut at h
  by_cases hwho : who = bCur
  · rw [hwho, Function.update_self] at h
    rw [hwho]
    exact List.mem_of_mem_erase h
  · rwa [Function.update_of_ne hwho] at h

/-- What is held after a call was held before, or was just handed out. -/
theorem Callers.held_after {s t : Callers} {c : CallerCall} {r : Option Nat}
    (h : s.step c = .ok (r, t)) {who : Bool} {a : Nat} (ha : a ∈ t.held who) :
    a ∈ s.held who ∨ ∃ iID, c = .get who iID ∧ r = some a := by
  cases c with
  | get bCur iID =>
      obtain ⟨-, hheld⟩ := Callers.step_get h
      rw [hheld] at ha
      by_cases hwho : who = bCur
      · subst hwho
        rw [Function.update_self, List.mem_append] at ha
        rcases ha with hnew | hold
        · exact Or.inr ⟨iID, rfl, Option.mem_toList.mp hnew⟩
        · exact Or.inl hold
      · rw [Function.update_of_ne hwho] at ha
        exact Or.inl ha
  | put bCur addr =>
      obtain ⟨-, -, hheld⟩ := Callers.step_put h
      rw [hheld] at ha
      exact Or.inl (Callers.mem_of_mem_heldAfterPut ha)
  | mark bCur addr ePicState =>
      obtain ⟨-, hheld⟩ := Callers.step_mark h
      rw [hheld] at ha
      exact Or.inl ha

/-- The call that a caller's call makes of the pool. -/
def CallerCall.poolCall : CallerCall → PoolCall
  | .get bCur iID => .get iID bCur
  | .put _ addr => .put addr
  | .mark _ addr ePicState => .mark addr ePicState

theorem Callers.pool_step {s t : Callers} {c : CallerCall} {r : Option Nat}
    (h : s.step c = .ok (r, t)) : s.pool.step c.poolCall = .ok (r, t.pool) := by
  cases c with
  | get bCur iID => exact (Callers.step_get h).1
  | put bCur addr => exact (Callers.step_put h).2.1
  | mark bCur addr ePicState => exact (Callers.step_mark h).1

/-- What is handed out is a VideoMem of the pool. -/
theorem Pool.mem_of_get {s t : Pool} {iID : Int32} {bCur : Bool} {a : Nat}
    (h : s.step (.get iID bCur) = .ok (some a, t)) : a ∈ s.mems.map VideoMem.addr := by
  obtain ⟨mems', hget, -⟩ := Pool.step_get h
  rcases getVideoMem_cases hget with ⟨hnone, -⟩ | ⟨xs, m, m', ys, hmems, -, hsome, -⟩
  · cases hnone
  · obtain rfl := Option.some.inj hsome
    exact List.mem_map_of_mem (by simp [hmems])

/-- **Every call keeps the invariant.** -/
theorem Callers.Sound.kept {s t : Callers} (h : s.Sound) {c : CallerCall} {r : Option Nat}
    (hstep : s.step c = .ok (r, t)) : t.Sound := by
  have haddrs := addrs_eq (keys_eq (Pool.step_becomes (Callers.pool_step hstep)))
  refine ⟨by rw [haddrs]; exact h.nodup, fun who a ha => ?_⟩
  rw [haddrs]
  rcases Callers.held_after hstep ha with hold | ⟨iID, rfl, rfl⟩
  · exact h.held who a hold
  · exact Pool.mem_of_get (Callers.step_get hstep).1

/-- How the state of a VideoMem changes in a call of the pool: it is handed out, or
put back, or stays as it is. -/
theorem Pool.state_after {s t : Pool} (h : (s.mems.map VideoMem.addr).Nodup) {pc : PoolCall}
    {r : Option Nat} (hstep : s.step pc = .ok (r, t)) {m' : VideoMem} (hm' : m' ∈ t.mems) :
    (r = some m'.addr ∧ m'.eVideoMemState ≠ .free) ∨
    (pc = .put m'.addr ∧ m'.eVideoMemState = .free) ∨
    (r ≠ some m'.addr ∧
      ∃ m ∈ s.mems, m.addr = m'.addr ∧ m.eVideoMemState = m'.eVideoMemState) := by
  have hnodup : (t.mems.map VideoMem.addr).Nodup := by
    rw [addrs_eq (keys_eq (Pool.step_becomes hstep))]
    exact h
  cases pc with
  | get iID bCur =>
      obtain ⟨mems', hget, rfl⟩ := Pool.step_get hstep
      rcases getVideoMem_cases hget with
        ⟨rfl, rfl, -⟩ | ⟨xs, m, x, ys, hmems, rfl, rfl, hfor, -⟩
      · exact Or.inr (Or.inr ⟨by simp, m', hm', rfl, rfl⟩)
      · by_cases hx : m' = x
        · left
          rw [hx, hfor.addr, hfor.state]
          exact ⟨rfl, by cases bCur <;> decide⟩
        · have hold : m' ∈ s.mems := by
            rw [hmems]
            simp only [List.mem_append, List.mem_cons] at hm' ⊢
            tauto
          refine Or.inr (Or.inr ⟨fun hsame => hx ?_, m', hold, rfl, rfl⟩)
          apply eq_of_addr hnodup hm' (by simp)
          rw [hfor.addr]
          exact (Option.some.inj hsame).symm
  | put addr =>
      obtain ⟨-, rfl, rfl⟩ := Pool.step_put hstep
      obtain ⟨m, hm, rfl⟩ := List.mem_map.mp hm'
      by_cases haddr : m.addr = addr
      · right
        left
        simp [haddr]
      · exact Or.inr (Or.inr ⟨by simp, m, hm, by simp [haddr], by simp [haddr]⟩)
  | mark addr ePicState =>
      obtain ⟨-, rfl, rfl⟩ := Pool.step_mark hstep
      obtain ⟨m, hm, rfl⟩ := List.mem_map.mp hm'
      refine Or.inr (Or.inr ⟨by simp, m, hm, ?_, ?_⟩)
      · split <;> rfl
      · split <;> rfl

/-! ## The memory of the current page -/

/-- What a caller holds does not become free, if nothing is put back that it still
holds. -/
theorem Callers.used_after {s t : Callers} (h : s.Sound) {c : CallerCall} {r : Option Nat}
    {who : Bool} (hstep : s.step c = .ok (r, t))
    (hused : ∀ m ∈ s.pool.mems, m.addr ∈ s.held who → m.eVideoMemState ≠ .free)
    (hapart : ∀ bCur addr, c = .put bCur addr → addr ∉ t.held who) :
    ∀ m ∈ t.pool.mems, m.addr ∈ t.held who → m.eVideoMemState ≠ .free := by
  intro m' hm' hheld
  rcases Pool.state_after h.nodup (Callers.pool_step hstep) hm' with
    ⟨-, hused'⟩ | ⟨hput, -⟩ | ⟨hother, m, hm, haddr, hstate⟩
  · exact hused'
  · cases c with
    | get bCur iID => cases hput
    | mark bCur addr ePicState => cases hput
    | put bCur addr =>
        obtain rfl := PoolCall.put.inj hput
        exact absurd hheld (hapart bCur _ rfl)
  · rw [← hstate]
    apply hused m hm
    rw [haddr]
    rcases Callers.held_after hstep hheld with hold | ⟨-, -, hnew⟩
    · exact hold
    · exact absurd hnew hother

/-- A call keeps the current caller's memory, if nothing of it is put back. -/
theorem Callers.Exclusive.kept {s t : Callers} (hex : s.Exclusive) (h : s.Sound)
    {c : CallerCall} {r : Option Nat} (hapart : PutsApart s c)
    (hstep : s.step c = .ok (r, t)) : t.Exclusive := by
  apply Callers.used_after h hstep hex
  intro bCur addr hc
  subst hc
  rw [(Callers.step_put hstep).2.2]
  exact hapart

/-- Putting back what the current caller holds as well makes it free. -/
theorem Callers.Exclusive.putsApart {s t : Callers} (h : s.Sound) {c : CallerCall}
    {r : Option Nat} (hstep : s.step c = .ok (r, t)) (hex : t.Exclusive) : PutsApart s c := by
  cases c with
  | get bCur iID => trivial
  | mark bCur addr ePicState => trivial
  | put bCur addr =>
      intro hstill
      obtain ⟨hheld, hpool, heq⟩ := Callers.step_put hstep
      obtain ⟨m, hm, haddr⟩ := List.mem_map.mp (h.held bCur addr hheld)
      obtain ⟨-, -, hput⟩ := Pool.step_put hpool
      have hfreed : { m with
          eVideoMemState := .free
          ePicState := if m.iID = -1 then .blank else m.ePicState } ∈ t.pool.mems := by
        rw [hput]
        exact List.mem_map.mpr ⟨m, hm, if_pos haddr⟩
      apply hex _ hfreed _ rfl
      rw [heq]
      simp only [haddr]
      exact hstill

/-- **Exclusive memory.**  The current caller's memory is never free exactly in
those runs in which nothing is put back that it still holds. -/
theorem exclusive_iff_putsApart {s : Callers} {log : List (Entry CallerCall (Option Nat) Callers)}
    (h : s.Sound) (hex : s.Exclusive) (hrun : IsRun Callers.step s log) :
    (∀ xs ys, log = xs ++ ys → (lastState s xs).Exclusive) ↔ Along PutsApart s log := by
  have hall : Along (fun (_ : Callers) (_ : CallerCall) => True) s log :=
    along_of_forall fun _ _ => trivial
  refine hrun.holds_iff_along (I := fun s => s.Sound ∧ s.Exclusive) (P := Callers.Exclusive)
    ?_ (fun _ hs => hs.2) ?_ hall ⟨h, hex⟩
  · intro s c r t hs _ hapart hstep
    exact ⟨hs.1.kept hstep, hs.2.kept hs.1 hapart hstep⟩
  · intro s c r t hs hstep ht
    exact Callers.Exclusive.putsApart hs.1 hstep ht

/-- Each caller holds what it holds once, the other one does not, and none of it is
free. -/
structure Callers.Separate (s : Callers) : Prop where
  nodup : ∀ who, (s.held who).Nodup
  disjoint : ∀ addr ∈ s.held true, addr ∉ s.held false
  used : ∀ who, ∀ m ∈ s.pool.mems, m.addr ∈ s.held who → m.eVideoMemState ≠ .free

/-- What separate callers put back is then held by nobody. -/
theorem Callers.Separate.not_held {s : Callers} (h : s.Separate) {bCur : Bool} {addr : Nat}
    (hheld : addr ∈ s.held bCur) (who : Bool) : addr ∉ s.heldAfterPut bCur addr who := by
  unfold Callers.heldAfterPut
  by_cases hwho : who = bCur
  · rw [hwho, Function.update_self]
    exact (h.nodup bCur).not_mem_erase
  · rw [Function.update_of_ne hwho]
    intro hother
    cases who <;> cases bCur
    · exact hwho rfl
    · exact h.disjoint addr hheld hother
    · exact h.disjoint addr hother hheld
    · exact hwho rfl

/-- What is handed out while something is free was held by nobody. -/
theorem Callers.Separate.fresh {s t : Callers} (h : s.Separate) {bCur : Bool} {iID : Int32}
    {a : Nat} (hfinds : FindsFree s (.get bCur iID))
    (hstep : s.step (.get bCur iID) = .ok (some a, t)) (who : Bool) : a ∉ s.held who := by
  obtain ⟨mems', hget, -⟩ := Pool.step_get (Callers.step_get hstep).1
  rcases getVideoMem_cases hget with ⟨hnone, -⟩ | ⟨xs, m, m', ys, hmems, -, hsome, -, hcase⟩
  · cases hnone
  · obtain rfl := Option.some.inj hsome
    have hfree : m.eVideoMemState = .free := by
      rcases hcase with hchosen | ⟨rfl, -, hnone⟩
      · exact hchosen.free
      · obtain ⟨x, hx, hxfree⟩ := hfinds
        exact absurd hxfree (hnone x hx)
    intro hheld
    exact h.used who m (by simp [hmems]) hheld hfree

/-- Nothing that is held becomes free, as long as what is put back is held once. -/
theorem Callers.Separate.used_kept {s t : Callers} (h : s.Separate) (hs : s.Sound)
    {c : CallerCall} {r : Option Nat} (hstep : s.step c = .ok (r, t)) (who : Bool) :
    ∀ m ∈ t.pool.mems, m.addr ∈ t.held who → m.eVideoMemState ≠ .free := by
  apply Callers.used_after hs hstep (h.used who)
  intro bCur addr hc
  subst hc
  obtain ⟨hhad, -, heq⟩ := Callers.step_put hstep
  rw [heq]
  exact h.not_held hhad who

/-- **Separate callers stay separate** while the current one finds something
free. -/
theorem Callers.Separate.kept {s t : Callers} (h : s.Separate) (hs : s.Sound) {c : CallerCall}
    {r : Option Nat} (hfinds : FindsFree s c) (hstep : s.step c = .ok (r, t)) : t.Separate := by
  refine ⟨?_, ?_, h.used_kept hs hstep⟩
  · intro who
    cases c with
    | get bCur iID =>
        rw [(Callers.step_get hstep).2]
        by_cases hwho : who = bCur
        · rw [hwho, Function.update_self]
          cases r with
          | none => exact h.nodup bCur
          | some a => exact List.nodup_cons.mpr ⟨h.fresh hfinds hstep bCur, h.nodup bCur⟩
        · rw [Function.update_of_ne hwho]
          exact h.nodup who
    | put bCur addr =>
        rw [(Callers.step_put hstep).2.2, Callers.heldAfterPut]
        by_cases hwho : who = bCur
        · rw [hwho, Function.update_self]
          exact (h.nodup bCur).erase addr
        · rw [Function.update_of_ne hwho]
          exact h.nodup who
    | mark bCur addr ePicState =>
        rw [(Callers.step_mark hstep).2]
        exact h.nodup who
  · intro a hcur hprepare
    rcases Callers.held_after hstep hcur with hcurOld | ⟨iID, rfl, rfl⟩
    · rcases Callers.held_after hstep hprepare with hprepareOld | ⟨iID, rfl, rfl⟩
      · exact h.disjoint a hcurOld hprepareOld
      · exact h.fresh hfinds hstep true hcurOld
    · rcases Callers.held_after hstep hprepare with hprepareOld | ⟨iID, hget, -⟩
      · exact h.fresh hfinds hstep false hprepareOld
      · cases hget

/-- **Enough memory.**  While every call of the current caller finds something free,
nothing is put back that it still holds. -/
theorem putsApart_of_free {s : Callers} {log : List (Entry CallerCall (Option Nat) Callers)}
    (hs : s.Sound) (h : s.Separate) (hrun : IsRun Callers.step s log)
    (hfinds : Along FindsFree s log) : Along PutsApart s log := by
  refine hrun.along_imp (I := fun s => s.Sound ∧ s.Separate) ?_ ?_ ⟨hs, h⟩ hfinds
  · intro s c r t ⟨hsound, hsep⟩ hfree hstep
    exact ⟨hsound.kept hstep, hsep.kept hsound hfree hstep⟩
  · intro s c r t ⟨hsound, hsep⟩ hfree hstep
    cases c with
    | get bCur iID => trivial
    | mark bCur addr ePicState => trivial
    | put bCur addr => exact hsep.not_held (Callers.step_put hstep).1 true

/-- **The current page's memory is exclusive.**  Two callers share a pool of any
VideoMems.  If nothing is put back that the current caller still holds, what it holds
is never handed out to the other one. -/
theorem current_exclusive {mems : List VideoMem}
    {log : List (Entry CallerCall (Option Nat) Callers)}
    (hmems : (mems.map VideoMem.addr).Nodup)
    (hrun : IsRun Callers.step (Callers.start mems) log)
    (hapart : Along PutsApart (Callers.start mems) log) :
    ∀ xs e ys, log = xs ++ e :: ys → ∀ iID, e.input = .get false iID →
      ∀ addr ∈ e.reply, addr ∉ (lastState (Callers.start mems) xs).held true := by
  have hsound : (Callers.start mems).Sound := ⟨hmems, fun _ addr haddr => by cases haddr⟩
  have hstart : (Callers.start mems).Exclusive := fun m _ hheld => by cases hheld
  have hexclusive := (exclusive_iff_putsApart hsound hstart hrun).mpr hapart
  intro xs e ys hsplit iID hinput addr haddr hheld
  rw [hsplit] at hrun
  have hstep := hrun.step_at
  rw [hinput] at hstep
  obtain ⟨mems', hget, -⟩ := Pool.step_get (Callers.step_get hstep).1
  rcases getVideoMem_cases hget with
    ⟨hnone, -⟩ | ⟨before, m, m', after, hlist, -, hsome, -, hchosen | ⟨hcur, -⟩⟩
  · rw [hnone] at haddr
    cases haddr
  · rw [hsome] at haddr
    obtain rfl := Option.some.inj haddr
    exact hexclusive xs (e :: ys) hsplit m (by simp [hlist]) hheld hchosen.free
  · cases hcur

/-- A single cache. -/
def oneCache : List VideoMem := (allocVideoMem 1 some []).2

/-- The preparing caller holds the only cache, the current one takes it over, and the
first one puts it back. -/
def lateLog : List (Entry CallerCall (Option Nat) Callers) :=
  exec Callers.step (Callers.start oneCache) [.get false 5, .get true 7, .put false 1]

/-- The next call for a page ahead is handed the memory of the current page. -/
theorem current_page_handed_out :
    ∃ t, (lastState (Callers.start oneCache) lateLog).step (.get false 7) = .ok (some 1, t) ∧
      lateLog.map Entry.reply = [some 1, some 1, none] ∧
      1 ∈ (lastState (Callers.start oneCache) lateLog).held true :=
  ⟨_, rfl, rfl, by decide⟩

/-- With two caches both callers work undisturbed. -/
def sharedLog : List (Entry CallerCall (Option Nat) Callers) :=
  exec Callers.step (Callers.start twoCaches)
    [.get false 5, .get true 7, .put false 2, .get false 6]

theorem current_exclusive_two_caches :
    ∃ xs e, sharedLog = xs ++ [e] ∧ e.input = .get false 6 ∧ e.reply = some 2 ∧
      2 ∉ (lastState (Callers.start twoCaches) xs).held true := by
  have hexclusive := current_exclusive (by decide) (isRun_exec (Callers.start twoCaches) _)
    (show Along PutsApart _ sharedLog by decide)
  exact ⟨sharedLog.take 3, ⟨.get false 6, some 2, lastState (Callers.start twoCaches) sharedLog⟩,
    rfl, rfl, rfl, hexclusive (sharedLog.take 3) _ [] rfl 6 rfl 2 rfl⟩

end Video2lcd
