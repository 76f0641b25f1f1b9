import UsbCamera.Myuvc.UrbLifecycle

/-!
# Starting a stream that was not negotiated

`VIDIOC_STREAMON` first agrees with the camera on the parameters of the stream, in
three control transfers.  Each of the three functions that make them looks at the
sign of what `usb_control_msg` returns and hands an error on; none looks at the
number of bytes, and the caller drops all three results, as it drops the result of
allocating the URBs.

So a failed negotiation does not keep the stream from starting, and a short
answer of the camera leaves in `myuvc_params` what happened to be in the memory
behind it.  `streamon_negotiated_iff` says when this goes well nevertheless: when
nothing failed, or when the URBs fail for reasons of their own.  One such reason is
the size of a frame.  A probe that is not answered leaves it at 0, the URBs are given
no packets, and `usb_submit_urb` refuses them.  The theorem is about a driver whose
handles are fresh, as those of every run are (`freshHandles_of_run`).
-/

namespace Myuvc

open FaultRun

/-- All bytes of the block were transferred. -/
def ControlTransfer.Full (t : ControlTransfer) : Prop :=
  t.buffer = true ∧ (controlSize uvcVersion : Int) ≤ t.ret

/-- Some bytes of the block were not transferred, without an error. -/
def ControlTransfer.Short (t : ControlTransfer) : Prop :=
  t.buffer = true ∧ 0 ≤ t.ret ∧ t.ret < (controlSize uvcVersion : Int)

/-- All three transfers were complete. -/
def Negotiation.Full (n : Negotiation) : Prop :=
  n.tryParams.Full ∧ n.getParams.Full ∧ n.setParams.Full

/-- The same answers, with other bytes in the buffer of the probe `GET_CUR`. -/
def StreamonEnv.withData (env : StreamonEnv) (data : Nat → UInt8) : StreamonEnv :=
  { env with negotiation := { env.negotiation with
      getParams := { env.negotiation.getParams with data := data } } }

/-- What `VIDIOC_STREAMON` leaves in `myuvc_params` does not depend on the bytes
that the device did not send. -/
def ParamsAsSent (d : Driver) (env : StreamonEnv) : Prop :=
  ∀ data : Nat → UInt8,
    (∀ k : Nat, (k : Int) < env.negotiation.getParams.ret →
      data k = env.negotiation.getParams.data k) →
    (vidiocStreamon d (env.withData data)).2.params = (vidiocStreamon d env).2.params

/-- **The property.**  After an incomplete negotiation no URB is submitted, the
call fails, and the parameters hold nothing the device did not send. -/
def StartsOnlyNegotiated (d : Driver) (env : StreamonEnv) : Prop :=
  ¬ env.negotiation.Full →
    (vidiocStreamon d env).2.usb.inFlight = d.usb.inFlight ∧
    (∃ r, (vidiocStreamon d env).1 = .ret r ∧ r < 0) ∧ ParamsAsSent d env

/-- All URBs and transfer buffers can be had, the URBs have packets, and the host
controller takes the first of them. -/
def StreamonEnv.Starts (env : StreamonEnv) : Prop :=
  (∀ i ∈ urbSlots, env.Gives i) ∧ env.packets ≠ 0 ∧ 0 ≤ env.submit 0

/-- The USB core hands out URBs that are not in flight. -/
def FreshHandles (d : Driver) : Prop := ∀ h ∈ d.usb.inFlight, h < d.usb.nextHandle

/-! ## Which URBs end up in flight -/

/-- `uninit_urbs` frees memory and does not ask the USB core for anything back. -/
theorem uninitUrbs_inFlight (d : Driver) : (uninitUrbs d).usb.inFlight = d.usb.inFlight :=
  uninitSlots_inFlight urbSlots d

/-- Allocating submits nothing. -/
theorem allocUrbSlots_inFlight (env : StreamonEnv) (packets : Nat) (is : List Nat) (d : Driver) :
    (allocUrbSlots env packets is d).2.usb.inFlight = d.usb.inFlight := by
  apply allocUrbSlots_keeps (P := fun e => e.usb.inFlight = d.usb.inFlight)
  · intro e i he
    rw [allocSlot_inFlight, he]
  · intro e he
    rw [uninitUrbs_inFlight, he]
  · rfl

/-- A slot gets a buffer and then a URB, with the next two handles. -/
theorem allocSlot_handles {env : StreamonEnv} {i : Nat} (hgives : env.Gives i) (packets : Nat)
    (d : Driver) :
    (allocSlot env packets d i).urbTable i = some (d.usb.nextHandle + 1) ∧
      (allocSlot env packets d i).usb.nextHandle = d.usb.nextHandle + 2 := by
  simp [allocSlot, giveBuffer, giveUrb, UsbCore.bufferAlloc, UsbCore.allocUrb, hgives.1, hgives.2,
    Driver.urbTable]

/-- The first URB allocated is a new one. -/
theorem allocUrbSlots_first {env : StreamonEnv} {i : Nat} {rest : List Nat}
    (hnd : (i :: rest).Nodup) (hgives : ∀ j ∈ i :: rest, env.Gives j) (packets : Nat) (d : Driver) :
    (allocUrbSlots env packets (i :: rest) d).2.urbTable i = some (d.usb.nextHandle + 1) := by
  obtain ⟨hi, hrest⟩ := List.nodup_cons.mp hnd
  have hhead := hgives i List.mem_cons_self
  have htail : ∀ j ∈ rest, env.Gives j := fun j hj => hgives j (List.mem_cons_of_mem _ hj)
  rcases allocUrbSlots_cons env packets i rest d with ⟨-, heq⟩ | ⟨hno, -⟩
  · rcases allocUrbSlots_tables hrest env packets (allocSlot env packets d i) with
        ⟨-, -, -, hother⟩ | ⟨hnot, -, -⟩
    · rw [heq, Driver.urbTable, (hother i hi).1]
      exact (allocSlot_handles hhead packets d).1
    · exact absurd htail hnot
  · exact absurd hhead hno

/-- The submitting loop takes nothing out of flight. -/
theorem submitUrbs_mem_inFlight {env : StreamonEnv} {is : List Nat} {d : Driver} {h : Nat}
    (hmem : h ∈ d.usb.inFlight) : h ∈ (submitUrbs env is d).2.usb.inFlight := by
  apply submitUrbs_keeps (P := fun e => h ∈ e.usb.inFlight)
  · intro e he i _ u _
    rcases submitUrb_cases e.usb u.handle u.numberOfPackets (env.submit i) with
        ⟨-, heq⟩ | ⟨-, -, heq⟩
    · rw [heq]
      exact he
    · rw [heq]
      exact List.mem_append_left _ he
  · intro e he
    rw [uninitUrbs_inFlight]
    exact he
  · exact hmem

/-- What the submitting loop finds: no URB in the first slot, or a new one. -/
theorem allocInitUrbs_first (d : Driver) (env : StreamonEnv) :
    (allocInitUrbs d env).2.usb.inFlight = d.usb.inFlight ∧
      ((¬ ∀ i ∈ urbSlots, env.Gives i) → (allocInitUrbs d env).2.queue.urb 0 = none) ∧
      ((∀ i ∈ urbSlots, env.Gives i) →
        (allocInitUrbs d env).2.urbTable 0 = some (d.usb.nextHandle + 1)) := by
  obtain ⟨packets, d₁, hsame, hsame'⟩ := sameUrbs_allocInitUrbs d env
  have hslots : urbSlots = 0 :: [1, 2, 3, 4] := rfl
  refine ⟨?_, fun hno => ?_, fun hgives => ?_⟩
  · rw [hsame'.usb, allocUrbSlots_inFlight, hsame.usb]
  · rcases allocUrbSlots_tables nodup_urbSlots env packets d₁ with ⟨hall, -⟩ | ⟨-, -, hempty⟩
    · exact absurd hall hno
    · exact (hsame'.isNone 0).mpr (hempty 0 (by decide)).1
  · rw [hsame'.urbTable, hslots,
      allocUrbSlots_first (by decide) (by rwa [← hslots]) packets d₁, hsame.usb]

/-- The driver when the submitting loop starts. -/
def beforeSubmit (d : Driver) (env : StreamonEnv) : Driver :=
  (allocInitUrbs { d with params := negotiate uvcVersion env.negotiation d.params } env).2

/-- `STREAMON` ends with the loop that submits the URBs. -/
theorem vidiocStreamon_eq (d : Driver) (env : StreamonEnv) :
    vidiocStreamon d env = (.ret (submitUrbs env urbSlots (beforeSubmit d env)).1,
      (submitUrbs env urbSlots (beforeSubmit d env)).2) := rfl

/-- The URBs that the submitting loop finds have the packets of the frame size. -/
theorem beforeSubmit_packets {d : Driver} {env : StreamonEnv} {u : UrbObj}
    (hu : (beforeSubmit d env).queue.urb 0 = some u) : u.numberOfPackets = env.packets := by
  rw [allocInitUrbs_packets (by decide) hu]
  exact npackets_negotiate env d.params

/-- **Nothing is submitted** when the URBs cannot be had, have no packets, or the
first of them is refused, and then the call fails. -/
theorem streamon_not_started (d : Driver) {env : StreamonEnv} (hno : ¬ env.Starts) :
    (vidiocStreamon d env).2.usb.inFlight = d.usb.inFlight ∧
      ∃ r, (vidiocStreamon d env).1 = .ret r ∧ r < 0 := by
  obtain ⟨hflight, hempty, -⟩ :=
    allocInitUrbs_first { d with params := negotiate uvcVersion env.negotiation d.params } env
  have hslots : urbSlots = 0 :: [1, 2, 3, 4] := rfl
  have hneg : (-EINVAL : Int) < 0 := by decide
  rw [vidiocStreamon_eq, hslots, submitUrbs]
  cases hurb : (beforeSubmit d env).queue.urb 0 with
  | none => exact ⟨(uninitUrbs_inFlight _).trans hflight, _, rfl, hneg⟩
  | some u =>
      have hgives : ∀ i ∈ urbSlots, env.Gives i := by
        by_contra hnot
        rw [beforeSubmit, hempty hnot] at hurb
        cases hurb
      rcases submitUrb_cases (beforeSubmit d env).usb u.handle u.numberOfPackets
          (env.submit 0) with ⟨hret, husb⟩ | ⟨hpackets, hpos, -⟩
      · simp only [if_pos hret, husb]
        exact ⟨(uninitUrbs_inFlight _).trans hflight, _, rfl, hret⟩
      · rw [beforeSubmit_packets hurb] at hpackets
        exact absurd ⟨hgives, hpackets, hpos⟩ hno

/-- **A URB is submitted** otherwise. -/
theorem streamon_started {d : Driver} (hfresh : FreshHandles d) {env : StreamonEnv}
    (hstarts : env.Starts) : (vidiocStreamon d env).2.usb.inFlight ≠ d.usb.inFlight := by
  obtain ⟨hflight, -, hfirst⟩ :=
    allocInitUrbs_first { d with params := negotiate uvcVersion env.negotiation d.params } env
  have hslots : urbSlots = 0 :: [1, 2, 3, 4] := rfl
  have hhandle : (beforeSubmit d env).urbTable 0 = some (d.usb.nextHandle + 1) := hfirst hstarts.1
  have hnew : d.usb.nextHandle + 1 ∉ d.usb.inFlight := by
    intro hmem
    have hlt := hfresh _ hmem
    omega
  have hidle : d.usb.nextHandle + 1 ∉ (beforeSubmit d env).usb.inFlight := by
    rw [beforeSubmit, hflight]
    exact hnew
  obtain ⟨u, hurb, hu⟩ := Option.map_eq_some_iff.mp hhandle
  have hpackets : u.numberOfPackets ≠ 0 := (beforeSubmit_packets hurb).trans_ne hstarts.2.1
  have hsubmit := submitUrb_ok hidle hpackets hstarts.2.2
  have hpos : ¬ env.submit 0 < 0 := not_lt.mpr hstarts.2.2
  have hin : d.usb.nextHandle + 1 ∈ (vidiocStreamon d env).2.usb.inFlight := by
    rw [vidiocStreamon_eq, hslots, submitUrbs, hurb]
    simp only [hu, hsubmit, if_neg hpos]
    exact submitUrbs_mem_inFlight (List.mem_append_right _ (List.mem_singleton_self _))
  intro hsame
  rw [hsame] at hin
  exact hnew hin

/-! ## The handles of a run are fresh -/

/-- The handles that are recorded or in flight have been handed out. -/
structure Numbered (d : Driver) : Prop where
  table : ∀ i ∈ urbSlots, ∀ u, d.urbTable i = some u → u < d.usb.nextHandle
  flight : FreshHandles d

/-- The numbering depends on the URBs only. -/
theorem Numbered.of_same {d d' : Driver} (h : Numbered d) (hs : SameUrbs d d') : Numbered d' where
  table := by
    rw [hs.urbTable, hs.usb]
    exact h.table
  flight := by
    unfold FreshHandles
    rw [hs.usb]
    exact h.flight

/-- An empty table is numbered, whatever is still in flight. -/
theorem Numbered.of_empty {d d' : Driver} (h : Numbered d) (he : TableEmpty d')
    (hflight : ∀ u ∈ d'.usb.inFlight, u ∈ d.usb.inFlight)
    (hnext : d'.usb.nextHandle = d.usb.nextHandle) : Numbered d' where
  table := by
    intro i hi u hu
    rw [Driver.urbTable, (he i hi).1] at hu
    cases hu
  flight := by
    intro u hu
    rw [hnext]
    exact h.flight u (hflight u hu)

/-- Freeing does not give handles back. -/
theorem uninitSlots_nextHandle (is : List Nat) (d : Driver) :
    (is.foldl uninitSlot d).usb.nextHandle = d.usb.nextHandle := by
  apply List.foldlRecOn (motive := fun e : Driver => e.usb.nextHandle = d.usb.nextHandle)
  · rfl
  · intro e he i _
    have hbuffer : (freeSlotBuffer e i).usb.nextHandle = e.usb.nextHandle := by
      unfold freeSlotBuffer
      split <;> rfl
    rw [← he, uninitSlot_eq, freeSlotUrb]
    split
    · exact hbuffer
    · exact hbuffer

/-- `uninit_urbs` keeps the numbering. -/
theorem Numbered.uninitUrbs {d : Driver} (h : Numbered d) : Numbered (uninitUrbs d) := by
  refine h.of_empty (tableEmpty_uninitUrbs d) (fun u hu => ?_) (uninitSlots_nextHandle urbSlots d)
  rwa [uninitUrbs_inFlight] at hu

/-- A buffer takes the next handle, which no URB has. -/
theorem Numbered.giveBuffer {d : Driver} (h : Numbered d) (i : Nat) (ok : Bool) :
    Numbered (giveBuffer d i ok) := by
  cases ok with
  | false => exact ⟨h.table, h.flight⟩
  | true =>
      exact ⟨fun j hj u hu => Nat.lt_succ_of_lt (h.table j hj u hu),
        fun u hu => Nat.lt_succ_of_lt (h.flight u hu)⟩

/-- So does a URB, and it is recorded under it. -/
theorem Numbered.giveUrb {d : Driver} (h : Numbered d) (packets i : Nat) (ok : Bool) :
    Numbered (giveUrb packets d i ok) := by
  have htable : (Myuvc.giveUrb packets d i ok).urbTable =
      Function.update d.urbTable i (d.usb.allocUrb ok).1 := by
    rw [urbTable_update (d := d) (i := i) rfl]
    cases ok <;> rfl
  have hnext : d.usb.nextHandle ≤ (Myuvc.giveUrb packets d i ok).usb.nextHandle := by
    cases ok with
    | false => exact le_refl _
    | true => exact Nat.le_succ _
  refine ⟨fun j hj u hu => ?_, fun u hu => ?_⟩
  · rw [htable] at hu
    by_cases hji : j = i
    · -- the URB just handed out
      subst hji
      rw [Function.update_self] at hu
      cases ok with
      | false => cases hu
      | true =>
          cases hu
          exact Nat.lt_succ_self _
    · rw [Function.update_of_ne hji] at hu
      exact lt_of_lt_of_le (h.table j hj u hu) hnext
  · have hold : u ∈ d.usb.inFlight := by
      cases ok <;> exact hu
    exact lt_of_lt_of_le (h.flight u hold) hnext

/-- The loop over the slots keeps the numbering, also when it gives up. -/
theorem Numbered.allocUrbSlots {d : Driver} (h : Numbered d) (env : StreamonEnv) (packets : Nat)
    (is : List Nat) : Numbered (allocUrbSlots env packets is d).2 := by
  apply allocUrbSlots_keeps (P := Numbered)
  · intro e i he
    exact (he.giveBuffer i _).giveUrb packets i _
  · intro e he
    exact he.uninitUrbs
  · exact h

/-- A URB that has been handed out may be submitted. -/
theorem Numbered.submit {d : Driver} (h : Numbered d) {u : Nat} (hu : u < d.usb.nextHandle)
    (packets : Nat) (answer : Int) :
    Numbered { d with usb := (d.usb.submitUrb u packets answer).2 } := by
  rcases submitUrb_cases d.usb u packets answer with ⟨-, heq⟩ | ⟨-, -, heq⟩
  · rw [heq]
    exact ⟨h.table, h.flight⟩
  · rw [heq]
    refine ⟨h.table, fun x hx => ?_⟩
    rcases List.mem_append.mp hx with hx | hx
    · exact h.flight x hx
    · rw [List.mem_singleton.mp hx]
      exact hu

/-- Only recorded URBs are submitted. -/
theorem Numbered.submitUrbs {is : List Nat} (his : ∀ i ∈ is, i ∈ urbSlots) {d : Driver}
    (h : Numbered d) (env : StreamonEnv) : Numbered (submitUrbs env is d).2 := by
  apply submitUrbs_keeps (P := Numbered)
  · intro e he i hi x hx
    have hslot : e.urbTable i = some x.handle := by
      rw [Driver.urbTable, hx]
      rfl
    exact he.submit (he.table i (his i hi) _ hslot) x.numberOfPackets (env.submit i)
  · intro e he
    exact he.uninitUrbs
  · exact h

/-- `STREAMON` keeps the numbering. -/
theorem Numbered.vidiocStreamon {d : Driver} (h : Numbered d) (env : StreamonEnv) :
    Numbered (vidiocStreamon d env).2 := by
  rw [vidiocStreamon_eq]
  refine Numbered.submitUrbs (fun _ hi => hi) ?_ env
  obtain ⟨packets, d₁, hsame, hsame'⟩ := sameUrbs_allocInitUrbs
    { d with params := negotiate uvcVersion env.negotiation d.params } env
  have hstart : Numbered { d with params := negotiate uvcVersion env.negotiation d.params } :=
    h.of_same ⟨rfl, rfl, rfl⟩
  exact ((hstart.of_same hsame).allocUrbSlots env packets urbSlots).of_same hsame'

/-- `STREAMOFF` takes URBs out of flight and keeps it too. -/
theorem Numbered.vidiocStreamoff {d : Driver} (h : Numbered d) :
    Numbered (vidiocStreamoff d).2 := by
  have hkill : Numbered (urbSlots.foldl killSlot d) := by
    apply List.foldlRecOn (motive := Numbered)
    · exact h
    · intro e he i _
      refine ⟨?_, fun u hu => ?_⟩
      · unfold Driver.urbTable killSlot
        split <;> exact he.table
      · have hold := he.flight u (mem_killSlot_inFlight.mp hu).1
        unfold killSlot
        split <;> exact hold
  exact hkill.uninitUrbs

/-- The URB of a running handler has been handed out, too. -/
structure HandlesNumbered (m : Machine) : Prop where
  drv : Numbered m.drv
  handler : ∀ k, m.irq = some k → k.urb < m.drv.usb.nextHandle

/-- **A call** keeps the numbering. -/
theorem Numbered.call {d d' : Driver} {c : Call} {r : Reply} (h : Numbered d)
    (hcall : call d c = .ok (r, d')) : Numbered d' := by
  by_cases hc : c.TouchesUrbs
  · cases c with
    | reqbufs count alloc =>
        rcases vidiocReqbufs_tables hcall with ⟨rfl, -, -⟩ | ⟨husb, hempty, -⟩
        · exact h
        · exact h.of_empty hempty (fun u hu => by rwa [husb] at hu) (by rw [husb])
    | streamon env =>
        have hd : (Myuvc.vidiocStreamon d env).2 = d' := congrArg Prod.snd (Except.ok.inj hcall)
        subst hd
        exact h.vidiocStreamon env
    | streamoff | close =>
        cases hcall
        exact h.vidiocStreamoff
    | _ => exact absurd hc id
  · exact h.of_same (call_sameUrbs hcall hc)

/-- **One step.**  The USB core completes only URBs that are in flight. -/
theorem HandlesNumbered.kept {v : Version} {m m' : Machine} {i : Input} {r : Reply}
    (h : HandlesNumbered m) (hhonest : Honest m i) (hstep : step v m i = .ok (r, m')) :
    HandlesNumbered m' := by
  rcases step_cases hstep with ⟨c, d', rfl, hirq, hcall, rfl⟩ |
      ⟨urb, status, rfl, -, hd, hirq⟩ | ⟨p, k, d', buf', rfl, hk, hbody, rfl⟩ |
      ⟨answer, k, rfl, hk, rfl⟩
  · exact ⟨h.drv.call hcall, fun _ hk => by cases hk⟩
  · refine ⟨?_, fun k hk => ?_⟩
    · rw [hd]
      exact ⟨h.drv.table, fun u hu => h.drv.flight u (List.mem_of_mem_filter hu)⟩
    · rw [hd]
      rcases hirq with hnone | hsome
      · rw [hnone] at hk
        cases hk
      · rw [hsome] at hk
        cases hk
        exact h.drv.flight urb hhonest
  · have hsame := packetBody_sameUrbs hbody
    refine ⟨h.drv.of_same hsame, fun k' hk' => ?_⟩
    cases hk'
    rw [hsame.usb]
    exact h.handler k hk
  · exact ⟨h.drv.submit (h.handler k hk) k.packets answer, fun _ hk' => by cases hk'⟩

/-- After module load there is nothing to number. -/
theorem handlesNumbered_load (idVendor : Nat) : HandlesNumbered (Machine.load idVendor) := by
  refine ⟨⟨fun i _ u hu => ?_, fun u hu => ?_⟩, fun k hk => ?_⟩
  · cases hu
  · cases hu
  · cases hk

/-- **Whole runs.**  In every state that a run from module load reaches, the URBs
handed out next are not in flight. -/
theorem freshHandles_of_run {v : Version} {idVendor : Nat} {es : Log}
    (hrun : IsRun (step v) (Machine.load idVendor) es)
    (hhonest : Along Honest (Machine.load idVendor) es) :
    FreshHandles (lastState (Machine.load idVendor) es).drv := by
  have hnumbered : HandlesNumbered (lastState (Machine.load idVendor) es) :=
    hrun.keeps_along (fun _ _ _ _ h hi hstep => h.kept hi hstep) hhonest
      (handlesNumbered_load idVendor)
  exact hnumbered.drv.flight

/-! ## What ends up in the parameters -/

/-- The negotiated parameters are left alone by all that deals with URBs. -/
theorem uninitUrbs_params (d : Driver) : (uninitUrbs d).params = d.params := by
  have hslot : ∀ d i, (uninitSlot d i).params = d.params := by
    intro d i
    unfold uninitSlot
    cases hb : d.queue.urbBuffer i <;> cases hu : d.queue.urb i <;> simp only [hu]
  apply List.foldlRecOn (motive := fun e : Driver => e.params = d.params)
  · rfl
  · intro e he i _
    rw [hslot, he]

theorem allocUrbSlots_params (env : StreamonEnv) (packets : Nat) (is : List Nat) (d : Driver) :
    (allocUrbSlots env packets is d).2.params = d.params := by
  apply allocUrbSlots_keeps (P := fun e => e.params = d.params)
  · intro e i he
    exact he
  · intro e he
    rw [uninitUrbs_params, he]
  · rfl

theorem submitUrbs_params (env : StreamonEnv) (is : List Nat) (d : Driver) :
    (submitUrbs env is d).2.params = d.params := by
  apply submitUrbs_keeps (P := fun e => e.params = d.params)
  · intro e he i _ u _
    exact he
  · intro e he
    rw [uninitUrbs_params, he]
  · rfl

/-- The parameters are what the negotiation left, whatever became of the URBs. -/
theorem vidiocStreamon_params (d : Driver) (env : StreamonEnv) :
    (vidiocStreamon d env).2.params = negotiate uvcVersion env.negotiation d.params := by
  rw [vidiocStreamon_eq, submitUrbs_params, beforeSubmit, allocInitUrbs]
  simp only
  split <;> rename_i d₂ heq <;> have hkept := congrArg (fun x => x.2.params) heq <;>
    rw [allocUrbSlots_params] at hkept <;> exact hkept.symm

/-- The camera's version has the short form of the structure. -/
theorem controlSize_uvcVersion : controlSize uvcVersion = 26 := rfl

/-- The short layout is read from the first 26 bytes. -/
theorem decode_congr {data data' : Nat → UInt8} (h : ∀ k < 26, data' k = data k)
    (c : StreamingControl) : c.decode uvcVersion data' = c.decode uvcVersion data := by
  simp only [StreamingControl.decode, controlSize_uvcVersion, getLe16, getLe32, Nat.reduceEqDiff,
    if_false]
  simp (disch := omega) only [h]

/-- Changing the last of them changes the block. -/
theorem decode_ne (data : Nat → UInt8) (c : StreamingControl) :
    c.decode uvcVersion (Function.update data 25 (data 25 + 1)) ≠ c.decode uvcVersion data := by
  intro hsame
  have hfield := congrArg (fun b => b.dwMaxPayloadTransferSize.toNat) hsame
  have h22 := (data 22).toNat_lt
  have h23 := (data 23).toNat_lt
  have h24 := (data 24).toNat_lt
  have h25 := (data 25).toNat_lt
  have hnext : (data 25 + 1).toNat = ((data 25).toNat + 1) % 256 := by
    rw [UInt8.toNat_add]
    rfl
  have hnext' := (data 25 + 1).toNat_lt
  simp only [StreamingControl.decode, getLe32, Nat.reduceAdd, Function.update_self, ne_eq,
    Nat.reduceEqDiff, not_false_eq_true, Function.update_of_ne, UInt32.toNat_ofNat'] at hfield
  omega

/-- **The parameters are as sent** unless the answer to the probe was short. -/
theorem paramsAsSent_iff (d : Driver) (env : StreamonEnv) :
    ParamsAsSent d env ↔ ¬ env.negotiation.getParams.Short := by
  have hparams : ∀ data, (vidiocStreamon d (env.withData data)).2.params =
      (getStreamingParams uvcVersion { env.negotiation.getParams with data := data }
        tryBlock).2 := by
    intro data
    rw [vidiocStreamon_params, negotiate, tryStreamingParams]
    split <;> rfl
  have hold : (vidiocStreamon d env).2.params =
      (getStreamingParams uvcVersion env.negotiation.getParams tryBlock).2 :=
    hparams env.negotiation.getParams.data
  unfold ParamsAsSent
  simp only [hparams, hold]
  obtain ⟨buffer, ret, data⟩ := env.negotiation.getParams
  simp only [ControlTransfer.Short, getStreamingParams, controlSize_uvcVersion]
  constructor
  · rintro hsent ⟨rfl, hpos, hshort⟩
    have hbyte := hsent (Function.update data 25 (data 25 + 1)) fun k hk =>
      Function.update_of_ne (by omega) _ _
    simp only [if_true, if_neg (not_lt.mpr hpos)] at hbyte
    exact decode_ne data tryBlock hbyte
  · intro hfull data' hagree
    split
    · rename_i hbuffer
      simp only
      split
      · rfl
      · rename_i hpos
        refine decode_congr (fun k hk => hagree k ?_) tryBlock
        by_contra hge
        exact hfull ⟨hbuffer, not_lt.mp hpos, by omega⟩
    · rfl

/-- **Starting only a negotiated stream.**  Whatever the three transfers, the
allocations and the submissions return: the property holds exactly when the
negotiation was complete, or no URB could be submitted anyway (for want of memory,
of packets or of the host controller's consent) and the answer to the probe was not
short. -/
theorem streamon_negotiated_iff (d : Driver) (hfresh : FreshHandles d) (env : StreamonEnv) :
    StartsOnlyNegotiated d env ↔
      env.negotiation.Full ∨ (¬ env.Starts ∧ ¬ env.negotiation.getParams.Short) := by
  unfold StartsOnlyNegotiated
  by_cases hfull : env.negotiation.Full
  · exact iff_of_true (fun hnot => absurd hfull hnot) (Or.inl hfull)
  · constructor
    · intro hproperty
      obtain ⟨hflight, -, hsent⟩ := hproperty hfull
      exact Or.inr ⟨fun hstarts => streamon_started hfresh hstarts hflight,
        (paramsAsSent_iff d env).mp hsent⟩
    · intro hcase _
      obtain ⟨hno, hshort⟩ := hcase.resolve_left hfull
      obtain ⟨hflight, hfails⟩ := streamon_not_started d hno
      exact ⟨hflight, hfails, (paramsAsSent_iff d env).mpr hshort⟩

/-- The camera stalls the commit; everything else succeeds, and the probe was
answered with a frame size. -/
def stalledCommit : StreamonEnv :=
  { plainEnv with
    negotiation := { plainEnv.negotiation with setParams := ⟨true, -32, fun _ => 0⟩ } }

/-- After a stalled commit the stream is started all the same, with five URBs of 32
packets each. -/
theorem stalled_commit_starts :
    stalledCommit.packets = 32 ∧
      (vidiocStreamon (Driver.load 0) stalledCommit).2.usb.inFlight = [1, 3, 5, 7, 9] ∧
      ¬ StartsOnlyNegotiated (Driver.load 0) stalledCommit := by
  have hstalled : ¬ stalledCommit.negotiation.Full := by
    rintro ⟨-, -, -, hret⟩
    exact absurd hret (by decide)
  have hflight :
      (vidiocStreamon (Driver.load 0) stalledCommit).2.usb.inFlight = [1, 3, 5, 7, 9] := by
    decide
  refine ⟨by decide, hflight, fun hproperty => ?_⟩
  have hnone := (hproperty hstalled).1
  rw [hflight] at hnone
  exact absurd hnone (by decide)

/-- The camera stalls all three transfers. -/
def allStalled : StreamonEnv :=
  let stalled : ControlTransfer := ⟨true, -32, fun _ => 0⟩
  { plainEnv with negotiation := ⟨stalled, stalled, stalled⟩ }

/-- When the camera stalls all three transfers, there is no frame size and the call
fails as it should; so it does when only the commit stalls but there is no memory for
URBs. -/
theorem stalled_commit_without_urbs :
    StartsOnlyNegotiated (Driver.load 0) allStalled ∧
      StartsOnlyNegotiated (Driver.load 0) { stalledCommit with urbAlloc := fun _ => false } := by
  have hfresh : FreshHandles (Driver.load 0) := (handlesNumbered_load 0).drv.flight
  constructor
  · refine (streamon_negotiated_iff _ hfresh _).mpr (Or.inr ⟨?_, ?_⟩)
    · rintro ⟨-, hpackets, -⟩
      exact hpackets (by decide)
    · rintro ⟨-, hpos, -⟩
      exact absurd hpos (by decide)
  · refine (streamon_negotiated_iff _ hfresh _).mpr (Or.inr ⟨?_, ?_⟩)
    · rintro ⟨hgives, -⟩
      exact absurd (hgives 0 (by decide)).2 (by decide)
    · rintro ⟨-, -, hshort⟩
      exact absurd hshort (by decide)

end Myuvc
