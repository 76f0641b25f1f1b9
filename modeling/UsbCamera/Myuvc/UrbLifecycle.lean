import UsbCamera.Myuvc.UrbLedger

/-!
# The life of a URB

Over a run from module load, every URB and every transfer buffer that was issued
is recorded in its table or has been freed once, and none is freed while it is in
flight, as long as the run avoids three things.

`VIDIOC_STREAMON` overwrites what the tables hold.  Where a submission fails
after an earlier one has succeeded, it frees URBs that are in flight.  And a
request for buffers clears the tables together with the rest of the record.  Each
of them loses a URB for good (`Lost`) or shows in the log of frees
(`FreedInFlight`), so the runs that avoid them are the only ones
(`urbsAccounted_iff`).
-/

namespace Myuvc

open FaultRun Ledger

/-- The calls that deal with URBs. -/
def Call.TouchesUrbs : Call → Prop
  | .reqbufs _ _ | .streamon _ | .streamoff | .close => True
  | _ => False

/-- No other call deals with them. -/
theorem call_sameUrbs {d d' : Driver} {c : Call} {r : Reply} (h : call d c = .ok (r, d'))
    (hc : ¬ c.TouchesUrbs) : SameUrbs d d' := by
  cases c with
  | reqbufs | streamon | streamoff | close => exact absurd trivial hc
  | qbuf b =>
      rcases vidiocQbuf_cases h with ⟨-, rfl⟩ | ⟨main, irq, -, -, -, -, -, rfl⟩
      · exact ⟨rfl, rfl, rfl⟩
      · exact ⟨rfl, rfl, rfl⟩
  | dqbuf =>
      rcases vidiocDqbuf_cases h with ⟨-, rfl⟩ | ⟨i, rest, -, -, -, rfl⟩
      · exact ⟨rfl, rfl, rfl⟩
      · exact ⟨rfl, rfl, rfl⟩
  | poll =>
      obtain ⟨-, rfl⟩ := call_poll h
      exact ⟨rfl, rfl, rfl⟩
  | sFmt f =>
      have hd : (vidiocSFmtVidCap d f).2 = d' := congrArg Prod.snd (Except.ok.inj h)
      subst hd
      unfold vidiocSFmtVidCap
      dsimp only
      split <;> exact ⟨rfl, rfl, rfl⟩
  | mmap pgoff size insert =>
      have hd : (mmap d pgoff size insert).2 = d' := congrArg Prod.snd (Except.ok.inj h)
      subst hd
      unfold mmap
      split
      · exact ⟨rfl, rfl, rfl⟩
      · split
        · exact ⟨rfl, rfl, rfl⟩
        · dsimp only
          split <;> exact ⟨rfl, rfl, rfl⟩
  | openDev | gFmt | tryFmt | querybuf | vmOpen | vmClose =>
      cases h
      exact ⟨rfl, rfl, rfl⟩

/-- A packet does not deal with URBs. -/
theorem packetBody_sameUrbs {v : Version} {d d' : Driver} {buf buf' : BufPtr} {p : Packet}
    (h : packetBody v d buf p = .ok (d', buf')) : SameUrbs d d' := by
  rcases packetBody_cases h with ⟨-, rfl, -⟩ | ⟨-, -, -, rfl⟩ | ⟨i, -, -, hfill⟩
  · exact ⟨rfl, rfl, rfl⟩
  · exact ⟨rfl, rfl, rfl⟩
  · rcases fillBuffer_cases hfill with ⟨-, -, rfl, -⟩ | ⟨-, -, rfl, -⟩ | ⟨d₁, -, -, hstore, hend⟩
    · exact ⟨rfl, rfl, rfl⟩
    · exact ⟨rfl, rfl, rfl⟩
    · obtain ⟨mem, mem', t, s, -, -, rfl, -⟩ := storePayload_spec hstore
      rcases hend with ⟨-, rfl, -⟩ | ⟨-, rfl, -⟩
      · exact ⟨rfl, rfl, rfl⟩
      · exact ⟨rfl, rfl, rfl⟩

/-- What is asked of a step: streaming starts with empty tables, and none of its
submissions fails after another has succeeded; a request for buffers finds the
tables empty, or leaves the record alone. -/
def UrbSafe (m : Machine) : Input → Prop
  | .call (.streamon env) => TableEmpty m.drv ∧ env.Submits
  | .call (.reqbufs count alloc) =>
      TableEmpty m.drv ∨ (m.drv.queue.mem = none ∧ ¬ Allocates m.drv count alloc)
  | _ => True

/-- The USB core completes only URBs that are in flight. -/
def Honest (m : Machine) : Input → Prop
  | .irq urb _ => urb ∈ m.drv.usb.inFlight
  | _ => True

/-- The invariant of the runs that account for their URBs: the URB of a running
handler is recorded. -/
structure UrbsHeld (m : Machine) : Prop where
  owned : Owned m.drv
  tables : TableEmpty m.drv ∨ TableFull m.drv
  handler : ∀ k, m.irq = some k → k.urb ∈ m.drv.recordedUrbs

/-- A step that keeps the URBs keeps the table as empty or as full as it was. -/
theorem SameUrbs.tables {d d' : Driver} (h : SameUrbs d d')
    (ht : TableEmpty d ∨ TableFull d) : TableEmpty d' ∨ TableFull d' :=
  ht.imp h.tableEmpty h.tableFull

/-- With no handler running, the first two parts are all there is to the invariant. -/
theorem UrbsHeld.of_call {d : Driver} (howned : Owned d) (ht : TableEmpty d ∨ TableFull d) :
    UrbsHeld ⟨d, none⟩ :=
  ⟨howned, ht, fun _ hk => by cases hk⟩

/-- **A call** that is safe keeps the URBs held. -/
theorem UrbsHeld.call {d d' : Driver} {c : Call} {r : Reply} (h : UrbsHeld ⟨d, none⟩)
    (hsafe : UrbSafe ⟨d, none⟩ (.call c)) (hcall : Myuvc.call d c = .ok (r, d')) :
    UrbsHeld ⟨d', none⟩ := by
  by_cases hc : c.TouchesUrbs
  · cases c with
    | reqbufs count alloc =>
        rcases vidiocReqbufs_tables hcall with ⟨rfl, -, -⟩ | ⟨husb, hempty', hnot⟩
        · exact h
        · have hempty : TableEmpty d := hsafe.resolve_right hnot
          exact .of_call (h.owned.of_empty hempty hempty' husb) (Or.inl hempty')
    | streamon env =>
        have hd : (vidiocStreamon d env).2 = d' := congrArg Prod.snd (Except.ok.inj hcall)
        subst hd
        obtain ⟨howned, htables⟩ := owned_vidiocStreamon h.owned hsafe.1 hsafe.2
        exact .of_call howned htables
    | streamoff | close =>
        cases hcall
        obtain ⟨howned, hempty⟩ := owned_vidiocStreamoff h.owned
        exact .of_call howned (Or.inl hempty)
    | _ => exact absurd hc id
  · have hsame := call_sameUrbs hcall hc
    exact .of_call (h.owned.of_same hsame) (hsame.tables h.tables)

/-- **One step** under the two conditions. -/
theorem UrbsHeld.kept {v : Version} {m m' : Machine} {i : Input} {r : Reply} (h : UrbsHeld m)
    (hhonest : Honest m i) (hsafe : UrbSafe m i) (hstep : step v m i = .ok (r, m')) :
    UrbsHeld m' := by
  rcases step_cases hstep with ⟨c, d', rfl, hirq, hcall, rfl⟩ |
      ⟨urb, status, rfl, -, hd, hirq'⟩ | ⟨p, k, d', buf', rfl, hk, hbody, rfl⟩ |
      ⟨answer, k, rfl, hk, rfl⟩
  · obtain ⟨d, irq⟩ := m
    obtain rfl : irq = none := hirq
    exact h.call hsafe hcall
  · have howned : Owned m'.drv := hd ▸ owned_retire h.owned urb
    have hsame : m'.drv.queue = m.drv.queue := by rw [hd]
    refine ⟨howned, ?_, ?_⟩
    · unfold TableEmpty TableFull
      rw [hsame]
      exact h.tables
    · intro k hk
      rcases hirq' with hnone | hsome
      · rw [hnone] at hk
        cases hk
      · rw [hsome] at hk
        cases hk
        unfold Driver.recordedUrbs Driver.urbTable
        rw [hsame]
        exact h.owned.flight urb hhonest
  · have hsame := packetBody_sameUrbs hbody
    refine ⟨h.owned.of_same hsame, hsame.tables h.tables, ?_⟩
    intro k' hk'
    cases hk'
    rw [hsame.recordedUrbs]
    exact h.handler k hk
  · exact ⟨owned_submit h.owned (h.handler k hk) k.packets answer, h.tables,
      fun _ hk' => by cases hk'⟩

/-- After module load there are no URBs at all. -/
theorem urbsHeld_load (idVendor : Nat) : UrbsHeld (Machine.load idVendor) := by
  have hempty : TableEmpty (Machine.load idVendor).drv := fun _ _ => ⟨rfl, rfl⟩
  refine ⟨?_, Or.inl hempty, fun _ hk => by cases hk⟩
  exact
    { urbs := ⟨by rw [hempty.recorded.1]; rfl, List.nodup_nil⟩
      buffers := ⟨by rw [hempty.recorded.2]; rfl, List.nodup_nil⟩
      freshUrbs := fun _ hu => by cases hu
      freshBuffers := fun _ hu => by cases hu
      flight := fun _ hu => by cases hu
      clean := fun _ hu => by cases hu }

/-- A URB that nobody will ever free: it was issued, and is neither recorded nor
freed. -/
structure Lost (d : Driver) (u : Nat) : Prop where
  issued : u ∈ d.usb.urbs
  old : u < d.usb.nextHandle
  unrecorded : ∀ i ∈ urbSlots, d.urbTable i ≠ some u
  unfreed : u ∉ d.usb.freedUrbs

/-- A lost URB is one too many. -/
theorem Lost.not_accounted {d : Driver} {u : Nat} (h : Lost d u) : ¬ UrbsAccounted d := by
  rintro ⟨hurbs, -⟩
  rcases hurbs u h.issued with ⟨hrec, -⟩ | ⟨-, hcount⟩
  · obtain ⟨i, hi, hslot⟩ := mem_held.mp hrec
    exact h.unrecorded i hi hslot
  · rw [List.count_eq_zero_of_not_mem h.unfreed] at hcount
    cases hcount

/-- It stays lost when nothing is done to the URBs. -/
theorem Lost.of_same {d d' : Driver} {u : Nat} (h : Lost d u) (hs : SameUrbs d d') :
    Lost d' u := by
  refine ⟨?_, ?_, ?_, ?_⟩
  · rw [hs.usb]
    exact h.issued
  · rw [hs.usb]
    exact h.old
  · rw [hs.urbTable]
    exact h.unrecorded
  · rw [hs.usb]
    exact h.unfreed

/-- Freeing a slot frees what is recorded there, which the lost one is not. -/
theorem Lost.freeSlotUrb {d : Driver} {u : Nat} (h : Lost d u) {i : Nat} (hi : i ∈ urbSlots) :
    Lost (freeSlotUrb d i) u := by
  unfold Myuvc.freeSlotUrb
  split
  · exact h
  · rename_i x hx
    have hslot : d.urbTable i = some x.handle := by simp [Driver.urbTable, hx]
    refine ⟨h.issued, h.old, fun j hj => ?_, ?_⟩
    · rw [urbTable_update rfl]
      by_cases hji : j = i
      · simp [hji]
      · rw [Function.update_of_ne hji]
        exact h.unrecorded j hj
    · intro hfreed
      simp only [UsbCore.freedUrbs, UsbCore.freeUrb, List.map_append, List.mem_append] at hfreed
      rcases hfreed with hfreed | hfreed
      · exact h.unfreed hfreed
      · have hu : u = x.handle := by simpa using hfreed
        exact h.unrecorded i hi (hu ▸ hslot)

/-- Nor do all slots together get it back. -/
theorem Lost.uninitSlots {is : List Nat} (his : ∀ i ∈ is, i ∈ urbSlots) {d : Driver} {u : Nat}
    (h : Lost d u) : Lost (is.foldl uninitSlot d) u := by
  apply List.foldlRecOn (motive := fun e : Driver => Lost e u)
  · exact h
  · intro e he i hi
    have hbuf : Lost (freeSlotBuffer e i) u := by
      unfold freeSlotBuffer
      split
      · exact he
      · exact ⟨he.issued, he.old, he.unrecorded, he.unfreed⟩
    exact hbuf.freeSlotUrb (his i hi)

/-- `uninit_urbs` does not find it. -/
theorem Lost.uninitUrbs {d : Driver} {u : Nat} (h : Lost d u) : Lost (uninitUrbs d) u :=
  h.uninitSlots fun _ hi => hi

/-- Allocating for a slot loses the URB it held, and finds no lost one again. -/
theorem lost_allocSlot {d : Driver} {u : Nat} (hissued : u ∈ d.usb.urbs)
    (hold : u < d.usb.nextHandle) (hunfreed : u ∉ d.usb.freedUrbs) {i : Nat}
    (hother : ∀ j ∈ urbSlots, j ≠ i → d.urbTable j ≠ some u) (env : StreamonEnv)
    (packets : Nat) : Lost (allocSlot env packets d i) u := by
  have hbuf : u ∈ (giveBuffer d i (env.bufferAlloc i)).usb.urbs ∧
      u < (giveBuffer d i (env.bufferAlloc i)).usb.nextHandle ∧
      u ∉ (giveBuffer d i (env.bufferAlloc i)).usb.freedUrbs := by
    cases env.bufferAlloc i with
    | false => exact ⟨hissued, hold, hunfreed⟩
    | true => exact ⟨hissued, Nat.lt_succ_of_lt hold, hunfreed⟩
  obtain ⟨hissued', hold', hunfreed'⟩ := hbuf
  have hslots : ∀ j ∈ urbSlots, j ≠ i → (allocSlot env packets d i).urbTable j ≠ some u := by
    intro j hj hne
    have hsame := (allocSlot_other env packets d hne).1
    unfold Driver.urbTable
    rw [hsame]
    exact hother j hj hne
  have hslot : (allocSlot env packets d i).urbTable i ≠ some u := by
    cases hok : env.urbAlloc i with
    | false => simp [Driver.urbTable, allocSlot, giveUrb, UsbCore.allocUrb, hok]
    | true =>
        simp only [Driver.urbTable, allocSlot, giveUrb, UsbCore.allocUrb, hok, if_true,
          Function.update_self, Option.map_some, ne_eq, Option.some.injEq]
        exact hold'.ne'
  have hunrecorded : ∀ j ∈ urbSlots, (allocSlot env packets d i).urbTable j ≠ some u := by
    intro j hj
    by_cases hji : j = i
    · exact hji ▸ hslot
    · exact hslots j hj hji
  unfold allocSlot at hunrecorded ⊢
  cases hok : env.urbAlloc i with
  | false =>
      rw [hok] at hunrecorded
      exact ⟨hissued', hold', hunrecorded, hunfreed'⟩
  | true =>
      rw [hok] at hunrecorded
      exact ⟨List.mem_append_left _ hissued', Nat.lt_succ_of_lt hold', hunrecorded, hunfreed'⟩

/-- New URBs get new handles, so the lost one is not recorded again. -/
theorem Lost.allocUrbSlots {d : Driver} {u : Nat} (h : Lost d u) (env : StreamonEnv)
    (packets : Nat) (is : List Nat) : Lost (allocUrbSlots env packets is d).2 u := by
  apply allocUrbSlots_keeps (P := fun e => Lost e u)
  · intro e i he
    exact lost_allocSlot he.issued he.old he.unfreed (fun j hj _ => he.unrecorded j hj) env packets
  · intro e he
    exact he.uninitUrbs
  · exact h

/-- Submitting URBs records none. -/
theorem Lost.submitUrbs {d : Driver} {u : Nat} (h : Lost d u) (env : StreamonEnv)
    (is : List Nat) : Lost (submitUrbs env is d).2 u := by
  apply submitUrbs_keeps (P := fun e => Lost e u)
  · intro e he i _ x _
    rcases submitUrb_cases e.usb x.handle x.numberOfPackets (env.submit i) with
        ⟨-, heq⟩ | ⟨-, -, heq⟩
    · rw [heq]
      exact he
    · rw [heq]
      exact ⟨he.issued, he.old, he.unrecorded, he.unfreed⟩
  · intro e he
    exact he.uninitUrbs
  · exact h

/-- The URB of a slot of a driver that accounts for its URBs. -/
theorem Owned.of_slot {d : Driver} (h : Owned d) {i u : Nat} (hi : i ∈ urbSlots)
    (hslot : d.urbTable i = some u) :
    u ∈ d.usb.urbs ∧ u < d.usb.nextHandle ∧ u ∉ d.usb.freedUrbs ∧
      ∀ j ∈ urbSlots, j ≠ i → d.urbTable j ≠ some u := by
  obtain ⟨hissued, hunfreed⟩ := h.urbs.of_mem_held (mem_held.mpr ⟨i, hi, hslot⟩)
  refine ⟨hissued, h.freshUrbs u hissued, hunfreed, fun j hj hne hslot' => ?_⟩
  exact hne (slot_unique nodup_urbSlots h.urbs.held_nodup hj hi hslot' hslot)

/-- **`VIDIOC_STREAMON` over a URB** loses it. -/
theorem lost_vidiocStreamon {d : Driver} (h : Owned d) {u : Nat}
    (hslot : d.urbTable 0 = some u) (env : StreamonEnv) : Lost (vidiocStreamon d env).2 u := by
  obtain ⟨hissued, hold, hunfreed, hother⟩ := h.of_slot (i := 0) (by decide) hslot
  obtain ⟨packets, d₁, hsame, hsame'⟩ := sameUrbs_allocInitUrbs
    { d with params := negotiate uvcVersion env.negotiation d.params } env
  have hfirst : Lost (allocSlot env packets d₁ 0) u := by
    refine lost_allocSlot ?_ ?_ ?_ ?_ env packets
    · rw [hsame.usb]
      exact hissued
    · rw [hsame.usb]
      exact hold
    · rw [hsame.usb]
      exact hunfreed
    · rw [hsame.urbTable]
      exact hother
  have hloop : Lost (Myuvc.allocUrbSlots env packets urbSlots d₁).2 u := by
    have hslots : urbSlots = 0 :: [1, 2, 3, 4] := rfl
    rw [hslots]
    rcases allocUrbSlots_cons env packets 0 [1, 2, 3, 4] d₁ with ⟨-, heq⟩ | ⟨-, heq⟩
    · rw [heq]
      exact hfirst.allocUrbSlots env packets _
    · rw [heq]
      exact hfirst.uninitUrbs
  exact (hloop.of_same hsame').submitUrbs env urbSlots

/-- Some URB was freed while it was in flight. -/
def FreedInFlight (d : Driver) : Prop := ∃ u, (u, true) ∈ d.usb.urbFrees

/-- A URB that was freed while in flight is not accounted for. -/
theorem FreedInFlight.not_accounted {d : Driver} (h : FreedInFlight d) : ¬ UrbsAccounted d := by
  rintro ⟨-, -, hclean⟩
  obtain ⟨u, hu⟩ := h
  exact absurd (hclean _ hu) Bool.noConfusion

/-- Freeing more does not help. -/
theorem FreedInFlight.uninitSlot {d : Driver} (h : FreedInFlight d) (i : Nat) :
    FreedInFlight (uninitSlot d i) := by
  obtain ⟨u, hu⟩ := h
  rw [uninitSlot_eq]
  have hbuf : (u, true) ∈ (freeSlotBuffer d i).usb.urbFrees := by
    unfold freeSlotBuffer
    split <;> exact hu
  refine ⟨u, ?_⟩
  unfold freeSlotUrb
  split
  · exact hbuf
  · exact List.mem_append_left _ hbuf

/-- Nor does freeing all of them. -/
theorem FreedInFlight.uninitSlots {d : Driver} (h : FreedInFlight d) (is : List Nat) :
    FreedInFlight (is.foldl Myuvc.uninitSlot d) := by
  apply List.foldlRecOn (motive := FreedInFlight)
  · exact h
  · intro e he i _
    exact he.uninitSlot i

/-- The freeing loop frees a recorded URB also while it is in flight. -/
theorem freedInFlight_uninitSlots {is : List Nat} {d : Driver} {u : Nat}
    (hflight : u ∈ d.usb.inFlight) (hrec : ∃ i ∈ is, d.urbTable i = some u) :
    FreedInFlight (is.foldl uninitSlot d) := by
  induction is generalizing d with
  | nil =>
      obtain ⟨i, hi, -⟩ := hrec
      cases hi
  | cons i rest ih =>
      by_cases hslot : d.urbTable i = some u
      · -- this round frees it
        refine FreedInFlight.uninitSlots ⟨u, ?_⟩ rest
        obtain ⟨x, hx, rfl⟩ := Option.map_eq_some_iff.mp hslot
        have hbuf : (freeSlotBuffer d i).queue.urb i = some x := by
          unfold freeSlotBuffer
          split <;> exact hx
        have hin : x.handle ∈ (freeSlotBuffer d i).usb.inFlight := by
          rw [freeSlotBuffer_inFlight]
          exact hflight
        rw [uninitSlot_eq, freeSlotUrb, hbuf]
        simp [UsbCore.freeUrb, hin]
      · obtain ⟨j, hj, hju⟩ := hrec
        have hne : j ≠ i := by
          rintro rfl
          exact hslot hju
        refine ih ?_ ⟨j, (List.mem_cons.mp hj).resolve_left hne, ?_⟩
        · rw [uninitSlot_eq, freeSlotUrb_inFlight, freeSlotBuffer_inFlight]
          exact hflight
        · unfold Driver.urbTable
          rw [(uninitSlot_tables d i j).1, if_neg hne]
          exact hju

/-- A submission that the host controller refuses while a recorded URB is in flight. -/
theorem freedInFlight_submitUrbs {env : StreamonEnv} {is : List Nat} {d : Driver} {u : Nat}
    (hflight : u ∈ d.usb.inFlight) (hrec : ∃ i ∈ urbSlots, d.urbTable i = some u)
    (hfail : ∃ i ∈ is, env.submit i < 0) : FreedInFlight (submitUrbs env is d).2 := by
  induction is generalizing d with
  | nil =>
      obtain ⟨i, hi, -⟩ := hfail
      cases hi
  | cons i rest ih =>
      unfold submitUrbs
      split
      · exact freedInFlight_uninitSlots hflight hrec
      · rename_i x _
        dsimp only
        rcases submitUrb_cases d.usb x.handle x.numberOfPackets (env.submit i) with
            ⟨hneg, hsame⟩ | ⟨-, hpos, hok⟩
        · rw [if_pos hneg, hsame]
          exact freedInFlight_uninitSlots hflight hrec
        · rw [hok, if_neg (not_lt.mpr hpos)]
          refine ih (List.mem_append_left _ hflight) hrec ?_
          obtain ⟨j, hj, hneg⟩ := hfail
          refine ⟨j, (List.mem_cons.mp hj).resolve_left ?_, hneg⟩
          rintro rfl
          exact absurd hneg (not_lt.mpr hpos)

/-- **`VIDIOC_STREAMON` with a late failure** frees URBs that are in flight. -/
theorem freedInFlight_vidiocStreamon {d : Driver} (h : Owned d) (he : TableEmpty d)
    {env : StreamonEnv} (henv : ¬ env.Submits) : FreedInFlight (vidiocStreamon d env).2 := by
  obtain ⟨hall, hrest⟩ := not_or.mp henv
  obtain ⟨hpackets, hrest⟩ := not_or.mp hrest
  obtain ⟨hpos, hlate⟩ := not_or.mp hrest
  have hgives : ∀ i ∈ urbSlots, env.Gives i := by
    intro i hi
    by_contra hnot
    exact hall ⟨i, hi, hnot⟩
  have hsame : SameUrbs d { d with params := negotiate uvcVersion env.negotiation d.params } :=
    ⟨rfl, rfl, rfl⟩
  obtain ⟨-, hidle, htables⟩ := owned_allocInitUrbs (h.of_same hsame) (hsame.tableEmpty he) env
  have hfull := (htables.resolve_right fun hnot => hnot.1 hgives).2
  have hlate' : ∃ i ∈ [1, 2, 3, 4], env.submit i < 0 := by
    push Not at hlate
    obtain ⟨i, hi, hneg⟩ := hlate
    refine ⟨i, (List.mem_cons.mp (show i ∈ 0 :: [1, 2, 3, 4] from hi)).resolve_left ?_, hneg⟩
    rintro rfl
    exact hpos hneg
  have hzero : 0 ∈ urbSlots := by decide
  obtain ⟨x, hx⟩ := Option.ne_none_iff_exists'.mp (hfull 0 hzero).1
  have hcount : x.numberOfPackets ≠ 0 := by
    rw [allocInitUrbs_packets hzero hx]
    exact (npackets_negotiate env d.params).trans_ne hpackets
  unfold vidiocStreamon
  dsimp only
  generalize (allocInitUrbs
    { d with params := negotiate uvcVersion env.negotiation d.params } env).2 = d₁ at hidle hx ⊢
  have hslot : d₁.urbTable 0 = some x.handle := by simp [Driver.urbTable, hx]
  have hok := submitUrb_ok (c := d₁.usb) (u := x.handle) (by simp [hidle]) hcount
    (not_lt.mp hpos)
  have hslots : urbSlots = 0 :: [1, 2, 3, 4] := rfl
  rw [hslots, submitUrbs]
  simp only [hx, hok, if_neg hpos]
  exact freedInFlight_submitUrbs (u := x.handle) (by simp) ⟨0, hzero, hslot⟩ hlate'

/-- **Clearing a record with URBs in it** loses them. -/
theorem lost_of_cleared {d d' : Driver} (h : Owned d) {u : Nat}
    (hslot : d.urbTable 0 = some u) (he : TableEmpty d') (husb : d'.usb = d.usb) :
    Lost d' u := by
  obtain ⟨hissued, hold, hunfreed, -⟩ := h.of_slot (i := 0) (by decide) hslot
  refine ⟨husb ▸ hissued, husb ▸ hold, fun i hi => ?_, husb ▸ hunfreed⟩
  simp [Driver.urbTable, (he i hi).1]

/-- **A step outside the condition** loses a URB or frees one in flight. -/
theorem UrbsHeld.urbSafe {v : Version} {m m' : Machine} {i : Input} {r : Reply}
    (h : UrbsHeld m) (hstep : step v m i = .ok (r, m')) (haccounted : UrbsAccounted m'.drv) :
    UrbSafe m i := by
  have hfirst : TableFull m.drv → ∃ u, m.drv.urbTable 0 = some u := by
    intro hfull
    obtain ⟨x, hx⟩ := Option.ne_none_iff_exists'.mp (hfull 0 (by decide)).1
    exact ⟨x.handle, by simp [Driver.urbTable, hx]⟩
  rcases step_cases hstep with ⟨c, d', rfl, -, hcall, rfl⟩ | ⟨_, _, rfl, -⟩ |
      ⟨_, _, _, _, rfl, -⟩ | ⟨_, _, rfl, -⟩
  · cases c with
    | streamon env =>
        have hd : (vidiocStreamon m.drv env).2 = d' := congrArg Prod.snd (Except.ok.inj hcall)
        subst hd
        rcases h.tables with hempty | hfull
        · refine ⟨hempty, ?_⟩
          by_contra henv
          exact (freedInFlight_vidiocStreamon h.owned hempty henv).not_accounted haccounted
        · obtain ⟨u, hu⟩ := hfirst hfull
          exact absurd haccounted (lost_vidiocStreamon h.owned hu env).not_accounted
    | reqbufs count alloc =>
        rcases h.tables with hempty | hfull
        · exact Or.inl hempty
        · rcases vidiocReqbufs_tables hcall with ⟨-, hmem, hnot⟩ | ⟨husb, hempty', -⟩
          · exact Or.inr ⟨hmem, hnot⟩
          · obtain ⟨u, hu⟩ := hfirst hfull
            exact absurd haccounted (lost_of_cleared h.owned hu hempty' husb).not_accounted
    | _ => trivial
  · trivial
  · trivial
  · trivial

/-- **The URB life cycle.**  In a run from module load all URBs and transfer
buffers are accounted for at each moment exactly when every step of the run
avoids the three ways of losing one. -/
theorem urbsAccounted_iff {v : Version} {idVendor : Nat} {es : Log}
    (hrun : IsRun (step v) (Machine.load idVendor) es)
    (hhonest : Along Honest (Machine.load idVendor) es) :
    (∀ xs ys, es = xs ++ ys → UrbsAccounted (lastState (Machine.load idVendor) xs).drv) ↔
      Along UrbSafe (Machine.load idVendor) es := by
  have hkeep : ∀ m i r m', UrbsHeld m → Honest m i → UrbSafe m i →
      step v m i = .ok (r, m') → UrbsHeld m' :=
    fun _ _ _ _ h hhon hsafe hstep => h.kept hhon hsafe hstep
  have hneeds : ∀ m i r m', UrbsHeld m → step v m i = .ok (r, m') →
      UrbsAccounted m'.drv → UrbSafe m i :=
    fun _ _ _ _ h hstep haccounted => h.urbSafe hstep haccounted
  exact hrun.holds_iff_along hkeep (fun _ h => h.owned.accounted) hneeds hhonest
    (urbsHeld_load idVendor)

/-- The host controller takes the first URB and refuses the second. -/
def lateEnv : StreamonEnv := { plainEnv with submit := fun i => if i = 1 then -ENOMEM else 0 }

/-- Streaming is started on one buffer with the answers `env`. -/
def startLog (env : StreamonEnv) : Log :=
  setupLog 0 1 ++ exec (step .th10) (Machine.withBuffers 0 1) [.call (.streamon env)]

/-- Streaming is started, and the buffers are given back under it. -/
def giveBackLog : Log :=
  setupLog 0 1 ++ exec (step .th10) (Machine.withBuffers 0 1)
    [.call (.streamon plainEnv), .call (.reqbufs 0 fun _ => none)]

/-- The late failure frees the URB that is in flight.  Giving the buffers back
while streaming forgets five URBs, all in flight, and frees none. -/
theorem streamon_frees_in_flight :
    (IsRun (step .th10) (Machine.load 0) (startLog lateEnv) ∧
      Along Honest (Machine.load 0) (startLog lateEnv) ∧
      (lastState (Machine.load 0) (startLog lateEnv)).drv.usb.urbFrees =
        [(1, true), (3, false), (5, false), (7, false), (9, false)] ∧
      ¬ UrbsAccounted (lastState (Machine.load 0) (startLog lateEnv)).drv) ∧
    IsRun (step .th10) (Machine.load 0) giveBackLog ∧
    Along Honest (Machine.load 0) giveBackLog ∧
    (lastState (Machine.load 0) giveBackLog).drv.usb.inFlight = [1, 3, 5, 7, 9] ∧
    (lastState (Machine.load 0) giveBackLog).drv.recordedUrbs = [] ∧
    ¬ UrbsAccounted (lastState (Machine.load 0) giveBackLog).drv := by
  have hsetup := isRun_setupLog .th10 0 (n := 1) (by decide) (by decide)
  have hfrees : (lastState (Machine.load 0) (startLog lateEnv)).drv.usb.urbFrees =
      [(1, true), (3, false), (5, false), (7, false), (9, false)] := by decide +kernel
  have hrec : (lastState (Machine.load 0) giveBackLog).drv.recordedUrbs = [] := by decide +kernel
  refine ⟨⟨isRun_append.mpr ⟨hsetup, isRun_exec _ _⟩, ⟨trivial, trivial, trivial, trivial⟩, hfrees,
    FreedInFlight.not_accounted ⟨1, by simp [hfrees]⟩⟩,
    isRun_append.mpr ⟨hsetup, isRun_exec _ _⟩, ⟨trivial, trivial, trivial, trivial, trivial⟩,
    by decide +kernel, hrec, ?_⟩
  rintro ⟨hurbs, -⟩
  rcases hurbs 1 (by decide +kernel) with ⟨hin, -⟩ | ⟨-, hcount⟩
  · rw [hrec] at hin
    cases hin
  · have hzero : (lastState (Machine.load 0) giveBackLog).drv.usb.freedUrbs.count 1 = 0 := by
      decide +kernel
    rw [hzero] at hcount
    cases hcount

/-- Two sessions, the first of which fails to start. -/
def twoSessionsLog : Log :=
  setupLog 0 1 ++ exec (step .th10) (Machine.withBuffers 0 1)
    [.call (.streamon { plainEnv with urbAlloc := fun i => i ≠ 3 }),
      .call (.streamon plainEnv), .irq 8 0, .packet ⟨-71, [], true⟩, .resubmit 0,
      .call .streamoff]

/-- Two sessions, each stopped before the next starts: all is accounted for throughout. -/
theorem urbsAccounted_twoSessions :
    twoSessionsLog.length = 8 ∧ ∀ xs ys, twoSessionsLog = xs ++ ys →
      UrbsAccounted (lastState (Machine.load 0) xs).drv := by
  have hrun : IsRun (step .th10) (Machine.load 0) twoSessionsLog :=
    isRun_append.mpr ⟨isRun_setupLog .th10 0 (by decide) (by decide), isRun_exec _ _⟩
  have hhonest : Along Honest (Machine.load 0) twoSessionsLog := by
    have hflight : 8 ∈ (lastState (Machine.load 0) (twoSessionsLog.take 4)).drv.usb.inFlight := by
      decide +kernel
    exact ⟨trivial, trivial, trivial, trivial, hflight, trivial, trivial, trivial, trivial⟩
  have hempty : TableEmpty (lastState (Machine.load 0) (twoSessionsLog.take 3)).drv := by
    decide +kernel
  have hsafe : Along UrbSafe (Machine.load 0) twoSessionsLog :=
    ⟨trivial, Or.inl fun _ _ => ⟨rfl, rfl⟩, ⟨fun _ _ => ⟨rfl, rfl⟩, by decide⟩,
      ⟨hempty, by decide⟩, trivial, trivial, trivial, trivial, trivial⟩
  exact ⟨by decide +kernel, (urbsAccounted_iff hrun hhonest).mpr hsafe⟩

end Myuvc
