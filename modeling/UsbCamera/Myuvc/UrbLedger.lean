import UsbCamera.Base.Ledger
import UsbCamera.Myuvc.QueueHeads

/-!
# Where the URBs are

URBs and their transfer buffers are issued by the USB core, kept in the two
tables of the queue record, and given back by `myuvc_uninit_urbs`.  `Owned` says
that all of them are accounted for: the two tables and the two lists of frees are
balanced with what was issued, only recorded URBs are in flight, and none was
freed in flight.

Each function that deals with URBs is followed through its loops here: freeing
(`owned_uninitUrbs`), allocating (`owned_allocInitUrbs`), submitting
(`owned_vidiocStreamon`), killing (`owned_vidiocStreamoff`), and the request for
buffers, which clears the tables with the rest of the record
(`vidiocReqbufs_tables`).
-/

namespace Myuvc

open FaultRun Ledger

/-- The handles in `myuvc_queue.urb`. -/
def Driver.urbTable (d : Driver) : Nat → Option Nat := fun i =>
  (d.queue.urb i).map UrbObj.handle

/-- The URBs that are recorded. -/
def Driver.recordedUrbs (d : Driver) : List Nat := held urbSlots d.urbTable

/-- The transfer buffers that are recorded. -/
def Driver.recordedBuffers (d : Driver) : List Nat := held urbSlots d.queue.urbBuffer

/-- The URBs that have been freed. -/
def UsbCore.freedUrbs (c : UsbCore) : List Nat := c.urbFrees.map Prod.fst

/-- Of all handles issued, each is recorded and not freed, or not recorded and
freed once. -/
def AccountedFor (issued recorded freed : List Nat) : Prop :=
  ∀ h ∈ issued, (h ∈ recorded ∧ h ∉ freed) ∨ (h ∉ recorded ∧ freed.count h = 1)

/-- URBs and transfer buffers are accounted for, and no URB was freed in
flight. -/
def UrbsAccounted (d : Driver) : Prop :=
  AccountedFor d.usb.urbs d.recordedUrbs d.usb.freedUrbs ∧
  AccountedFor d.usb.buffers d.recordedBuffers d.usb.bufferFrees ∧
  ∀ x ∈ d.usb.urbFrees, x.2 = false

/-- No URB and no transfer buffer is recorded. -/
def TableEmpty (d : Driver) : Prop :=
  ∀ i ∈ urbSlots, d.queue.urb i = none ∧ d.queue.urbBuffer i = none

instance (d : Driver) : Decidable (TableEmpty d) :=
  inferInstanceAs (Decidable (∀ i ∈ urbSlots, _))

/-- Every slot has a URB and a transfer buffer. -/
def TableFull (d : Driver) : Prop :=
  ∀ i ∈ urbSlots, d.queue.urb i ≠ none ∧ d.queue.urbBuffer i ≠ none

/-- The invariant of a driver that accounts for its URBs. -/
structure Owned (d : Driver) : Prop where
  urbs : Balanced d.recordedUrbs d.usb.freedUrbs d.usb.urbs
  buffers : Balanced d.recordedBuffers d.usb.bufferFrees d.usb.buffers
  freshUrbs : ∀ h ∈ d.usb.urbs, h < d.usb.nextHandle
  freshBuffers : ∀ h ∈ d.usb.buffers, h < d.usb.nextHandle
  flight : ∀ h ∈ d.usb.inFlight, h ∈ d.recordedUrbs
  clean : ∀ x ∈ d.usb.urbFrees, x.2 = false

/-- What is owned is accounted for. -/
theorem Owned.accounted {d : Driver} (h : Owned d) : UrbsAccounted d :=
  ⟨fun _ hu => h.urbs.once hu, fun _ hb => h.buffers.once hb, h.clean⟩

theorem nodup_urbSlots : urbSlots.Nodup := List.nodup_range

/-- The URB side of two drivers is the same. -/
structure SameUrbs (d d' : Driver) : Prop where
  urbTable : d'.urbTable = d.urbTable
  urbBuffer : d'.queue.urbBuffer = d.queue.urbBuffer
  usb : d'.usb = d.usb

/-- A step that keeps the URBs keeps what is recorded. -/
theorem SameUrbs.recordedUrbs {d d' : Driver} (h : SameUrbs d d') :
    d'.recordedUrbs = d.recordedUrbs := by
  unfold Driver.recordedUrbs
  rw [h.urbTable]

theorem SameUrbs.recordedBuffers {d d' : Driver} (h : SameUrbs d d') :
    d'.recordedBuffers = d.recordedBuffers := by
  unfold Driver.recordedBuffers
  rw [h.urbBuffer]

/-- It keeps the ownership too. -/
theorem Owned.of_same {d d' : Driver} (h : Owned d) (hs : SameUrbs d d') : Owned d' where
  urbs := by
    rw [hs.recordedUrbs, hs.usb]
    exact h.urbs
  buffers := by
    rw [hs.recordedBuffers, hs.usb]
    exact h.buffers
  freshUrbs := by
    rw [hs.usb]
    exact h.freshUrbs
  freshBuffers := by
    rw [hs.usb]
    exact h.freshBuffers
  flight := by
    rw [hs.recordedUrbs, hs.usb]
    exact h.flight
  clean := by
    rw [hs.usb]
    exact h.clean

/-- An empty table records nothing. -/
theorem TableEmpty.recorded {d : Driver} (h : TableEmpty d) :
    d.recordedUrbs = [] ∧ d.recordedBuffers = [] := by
  constructor
  · refine held_eq_nil fun i hi => ?_
    simp [Driver.urbTable, (h i hi).1]
  · exact held_eq_nil fun i hi => (h i hi).2

/-- With empty tables nothing is in flight. -/
theorem Owned.idle_of_empty {d : Driver} (h : Owned d) (he : TableEmpty d) :
    d.usb.inFlight = [] := by
  refine List.eq_nil_iff_forall_not_mem.mpr fun x hx => ?_
  have hrec := h.flight x hx
  rw [he.recorded.1] at hrec
  cases hrec

/-- The transfer buffer of slot `i` is freed, if there is one. -/
def freeSlotBuffer (d : Driver) (i : Nat) : Driver :=
  match d.queue.urbBuffer i with
  | none => d
  | some h =>
      { d with
        usb := d.usb.bufferFree h
        queue := { d.queue with urbBuffer := Function.update d.queue.urbBuffer i none } }

/-- The URB of slot `i` is freed, if there is one. -/
def freeSlotUrb (d : Driver) (i : Nat) : Driver :=
  match d.queue.urb i with
  | none => d
  | some u =>
      { d with
        usb := d.usb.freeUrb u.handle
        queue := { d.queue with urb := Function.update d.queue.urb i none } }

/-- The body of the freeing loop, in its two halves. -/
theorem uninitSlot_eq (d : Driver) (i : Nat) :
    uninitSlot d i = freeSlotUrb (freeSlotBuffer d i) i := rfl

/-- A buffer is freed and its entry cleared, so the ownership stays. -/
theorem owned_freeSlotBuffer {d : Driver} (h : Owned d) {i : Nat} (hi : i ∈ urbSlots) :
    Owned (freeSlotBuffer d i) := by
  unfold freeSlotBuffer
  split
  · exact h
  · rename_i b hb
    exact
      { urbs := h.urbs
        buffers := h.buffers.release (held_perm_cons nodup_urbSlots hi hb)
        freshUrbs := h.freshUrbs
        freshBuffers := h.freshBuffers
        flight := h.flight
        clean := h.clean }

/-- A change of one slot of the URB table is one of the handle table. -/
theorem urbTable_update {d d' : Driver} {i : Nat} {x : Option UrbObj}
    (h : d'.queue.urb = Function.update d.queue.urb i x) :
    d'.urbTable = Function.update d.urbTable i (x.map UrbObj.handle) := by
  funext j
  by_cases hj : j = i
  · subst hj
    simp [Driver.urbTable, h]
  · simp [Driver.urbTable, h, hj]

/-- A URB that is not in flight can be freed. -/
theorem owned_freeSlotUrb {d : Driver} (h : Owned d) {i : Nat} (hi : i ∈ urbSlots)
    (hidle : d.usb.inFlight = []) : Owned (freeSlotUrb d i) := by
  unfold freeSlotUrb
  split
  · exact h
  · rename_i u hu
    have hslot : d.urbTable i = some u.handle := by simp [Driver.urbTable, hu]
    exact
      { urbs := by
          rw [Driver.recordedUrbs, urbTable_update rfl]
          simpa [UsbCore.freedUrbs, UsbCore.freeUrb] using
            h.urbs.release (held_perm_cons nodup_urbSlots hi hslot)
        buffers := h.buffers
        freshUrbs := h.freshUrbs
        freshBuffers := h.freshBuffers
        flight := fun x hx => by
          have hx' : x ∈ d.usb.inFlight := hx
          rw [hidle] at hx'
          cases hx'
        clean := fun x hx => by
          rcases List.mem_append.mp hx with hx | hx
          · exact h.clean x hx
          · rw [List.mem_singleton.mp hx]
            simp [hidle] }

/-- Freeing takes nothing out of flight. -/
theorem freeSlotBuffer_inFlight (d : Driver) (i : Nat) :
    (freeSlotBuffer d i).usb.inFlight = d.usb.inFlight := by
  unfold freeSlotBuffer
  split <;> rfl

theorem freeSlotUrb_inFlight (d : Driver) (i : Nat) :
    (freeSlotUrb d i).usb.inFlight = d.usb.inFlight := by
  unfold freeSlotUrb
  split <;> rfl

theorem uninitSlots_inFlight (is : List Nat) (d : Driver) :
    (is.foldl uninitSlot d).usb.inFlight = d.usb.inFlight := by
  apply List.foldlRecOn (motive := fun e : Driver => e.usb.inFlight = d.usb.inFlight)
  · rfl
  · intro e he i _
    rw [uninitSlot_eq, freeSlotUrb_inFlight, freeSlotBuffer_inFlight, he]

/-- The freeing loop frees what is recorded. -/
theorem owned_uninitSlots {is : List Nat} (his : ∀ i ∈ is, i ∈ urbSlots) {d : Driver}
    (h : Owned d) (hidle : d.usb.inFlight = []) : Owned (is.foldl uninitSlot d) := by
  induction is generalizing d with
  | nil => exact h
  | cons i rest ih =>
      have hi := his i List.mem_cons_self
      have hbuf := owned_freeSlotBuffer h hi
      have hidle' : (freeSlotBuffer d i).usb.inFlight = [] := by
        rw [freeSlotBuffer_inFlight, hidle]
      refine ih (fun j hj => his j (List.mem_cons_of_mem _ hj))
        (owned_freeSlotUrb hbuf hi hidle') ?_
      rw [uninitSlot_eq, freeSlotUrb_inFlight, hidle']

/-- One round of the freeing loop clears its slot and spares the others. -/
theorem uninitSlot_tables (d : Driver) (i j : Nat) :
    (uninitSlot d i).queue.urb j = (if j = i then none else d.queue.urb j) ∧
      (uninitSlot d i).queue.urbBuffer j = (if j = i then none else d.queue.urbBuffer j) := by
  unfold uninitSlot
  by_cases hj : j = i
  · subst hj
    cases hb : d.queue.urbBuffer j <;> cases hu : d.queue.urb j <;> simp [hb, hu]
  · cases hb : d.queue.urbBuffer i <;> cases hu : d.queue.urb i <;> simp [hu, hj]

/-- The entries of the slots that were freed are cleared, and no others. -/
theorem uninitSlots_tables (is : List Nat) (d : Driver) (j : Nat) :
    (is.foldl uninitSlot d).queue.urb j = (if j ∈ is then none else d.queue.urb j) ∧
      (is.foldl uninitSlot d).queue.urbBuffer j =
        (if j ∈ is then none else d.queue.urbBuffer j) := by
  induction is generalizing d with
  | nil => simp
  | cons i rest ih =>
      obtain ⟨hu, hb⟩ := ih (uninitSlot d i)
      obtain ⟨hu', hb'⟩ := uninitSlot_tables d i j
      rw [List.foldl_cons, hu, hb, hu', hb']
      by_cases hj : j = i <;> by_cases hr : j ∈ rest <;> simp [hj, hr]

/-- `uninit_urbs` clears the whole table. -/
theorem tableEmpty_uninitUrbs (d : Driver) : TableEmpty (uninitUrbs d) := by
  intro i hi
  obtain ⟨hu, hb⟩ := uninitSlots_tables urbSlots d i
  rw [if_pos hi] at hu hb
  exact ⟨hu, hb⟩

/-- **`myuvc_uninit_urbs`** with nothing in flight. -/
theorem owned_uninitUrbs {d : Driver} (h : Owned d) (hidle : d.usb.inFlight = []) :
    Owned (uninitUrbs d) :=
  owned_uninitSlots (fun _ hi => hi) h hidle

/-- Slot `i` gets a transfer buffer, or none. -/
def giveBuffer (d : Driver) (i : Nat) (ok : Bool) : Driver :=
  { d with
    usb := (d.usb.bufferAlloc ok).2
    queue := { d.queue with
      urbBuffer := Function.update d.queue.urbBuffer i (d.usb.bufferAlloc ok).1 } }

/-- Slot `i` gets a URB, or none. -/
def giveUrb (packets : Nat) (d : Driver) (i : Nat) (ok : Bool) : Driver :=
  { d with
    usb := (d.usb.allocUrb ok).2
    queue := { d.queue with
      urb := Function.update d.queue.urb i
        ((d.usb.allocUrb ok).1.map fun h => ⟨h, packets, 0, []⟩) } }

/-- The driver after the allocations for slot `i`. -/
def allocSlot (env : StreamonEnv) (packets : Nat) (d : Driver) (i : Nat) : Driver :=
  giveUrb packets (giveBuffer d i (env.bufferAlloc i)) i (env.urbAlloc i)

/-- Both allocations for slot `i` succeed. -/
def StreamonEnv.Gives (env : StreamonEnv) (i : Nat) : Prop :=
  env.bufferAlloc i = true ∧ env.urbAlloc i = true

instance (env : StreamonEnv) (i : Nat) : Decidable (env.Gives i) :=
  inferInstanceAs (Decidable (_ ∧ _))

/-- The allocating loop goes on as long as both allocations succeed. -/
theorem allocUrbSlots_cons (env : StreamonEnv) (packets i : Nat) (rest : List Nat) (d : Driver) :
    (env.Gives i ∧ allocUrbSlots env packets (i :: rest) d =
        allocUrbSlots env packets rest (allocSlot env packets d i)) ∨
      (¬ env.Gives i ∧ allocUrbSlots env packets (i :: rest) d =
        (false, uninitUrbs (allocSlot env packets d i))) := by
  have hgives : env.Gives i ↔ env.bufferAlloc i = true ∧ env.urbAlloc i = true := Iff.rfl
  cases hb : env.bufferAlloc i <;> cases hu : env.urbAlloc i <;>
    simp [hgives, allocUrbSlots, allocSlot, giveBuffer, giveUrb, UsbCore.bufferAlloc,
      UsbCore.allocUrb, hb, hu]

/-- **The allocating loop** keeps what the allocations for a slot and freeing all URBs keep. -/
theorem allocUrbSlots_keeps {P : Driver → Prop} {env : StreamonEnv} {packets : Nat}
    (hslot : ∀ d i, P d → P (allocSlot env packets d i))
    (huninit : ∀ d, P d → P (uninitUrbs d)) (is : List Nat) {d : Driver} (hd : P d) :
    P (allocUrbSlots env packets is d).2 := by
  induction is generalizing d with
  | nil => exact hd
  | cons i rest ih =>
      obtain ⟨-, heq⟩ | ⟨-, heq⟩ := allocUrbSlots_cons env packets i rest d
      · rw [heq]
        exact ih (hslot d i hd)
      · rw [heq]
        exact huninit _ (hslot d i hd)

/-- A new buffer is recorded in its slot. -/
theorem owned_giveBuffer {d : Driver} (h : Owned d) {i : Nat} (hi : i ∈ urbSlots)
    (hempty : d.queue.urbBuffer i = none) (ok : Bool) : Owned (giveBuffer d i ok) := by
  cases ok with
  | false =>
      refine h.of_same ⟨rfl, ?_, rfl⟩
      have hsame : Function.update d.queue.urbBuffer i none = d.queue.urbBuffer := by
        rw [← hempty]
        exact Function.update_eq_self _ _
      exact hsame
  | true =>
      have hnew : d.usb.nextHandle ∉ d.usb.buffers := fun hin =>
        absurd (h.freshBuffers _ hin) (lt_irrefl _)
      exact
        { urbs := h.urbs
          buffers := h.buffers.issue hnew (held_update_perm nodup_urbSlots hi hempty _)
          freshUrbs := fun x hx => Nat.lt_succ_of_lt (h.freshUrbs x hx)
          freshBuffers := fun x hx => by
            rcases List.mem_append.mp hx with hx | hx
            · exact Nat.lt_succ_of_lt (h.freshBuffers x hx)
            · rw [List.mem_singleton.mp hx]
              exact Nat.lt_succ_self _
          flight := h.flight
          clean := h.clean }

/-- A new URB is recorded in its slot. -/
theorem owned_giveUrb {d : Driver} (h : Owned d) {i : Nat} (hi : i ∈ urbSlots)
    (hempty : d.queue.urb i = none) (packets : Nat) (ok : Bool) :
    Owned (giveUrb packets d i ok) := by
  have hslot : d.urbTable i = none := by simp [Driver.urbTable, hempty]
  cases ok with
  | false =>
      refine h.of_same ⟨?_, rfl, rfl⟩
      have htable : (giveUrb packets d i false).urbTable = Function.update d.urbTable i none :=
        urbTable_update (x := none) rfl
      rw [htable, ← hslot]
      exact Function.update_eq_self _ _
  | true =>
      have hnew : d.usb.nextHandle ∉ d.usb.urbs := fun hin =>
        absurd (h.freshUrbs _ hin) (lt_irrefl _)
      have htable : (giveUrb packets d i true).urbTable =
          Function.update d.urbTable i (some d.usb.nextHandle) :=
        urbTable_update (x := some ⟨d.usb.nextHandle, packets, 0, []⟩) rfl
      have hperm : (giveUrb packets d i true).recordedUrbs.Perm
          (d.usb.nextHandle :: d.recordedUrbs) := by
        rw [Driver.recordedUrbs, htable]
        exact held_update_perm nodup_urbSlots hi hslot _
      exact
        { urbs := h.urbs.issue hnew hperm
          buffers := h.buffers
          freshUrbs := fun x hx => by
            rcases List.mem_append.mp hx with hx | hx
            · exact Nat.lt_succ_of_lt (h.freshUrbs x hx)
            · rw [List.mem_singleton.mp hx]
              exact Nat.lt_succ_self _
          freshBuffers := fun x hx => Nat.lt_succ_of_lt (h.freshBuffers x hx)
          flight := fun x hx =>
            hperm.mem_iff.mpr (List.mem_cons_of_mem _ (h.flight x hx))
          clean := h.clean }

theorem allocSlot_inFlight (env : StreamonEnv) (packets : Nat) (d : Driver) (i : Nat) :
    (allocSlot env packets d i).usb.inFlight = d.usb.inFlight := by
  cases hb : env.bufferAlloc i <;> cases hu : env.urbAlloc i <;>
    simp [allocSlot, giveBuffer, giveUrb, UsbCore.bufferAlloc, UsbCore.allocUrb, hb, hu]

/-- A free slot can be filled, with memory or without. -/
theorem owned_allocSlot {d : Driver} (h : Owned d) {i : Nat} (hi : i ∈ urbSlots)
    (hempty : d.queue.urb i = none ∧ d.queue.urbBuffer i = none) (env : StreamonEnv)
    (packets : Nat) : Owned (allocSlot env packets d i) :=
  owned_giveUrb (owned_giveBuffer h hi hempty.2 _) hi hempty.1 packets _

/-- The allocations for a slot do not touch another one. -/
theorem allocSlot_other (env : StreamonEnv) (packets : Nat) (d : Driver) {i j : Nat}
    (hj : j ≠ i) :
    (allocSlot env packets d i).queue.urb j = d.queue.urb j ∧
      (allocSlot env packets d i).queue.urbBuffer j = d.queue.urbBuffer j := by
  simp [allocSlot, giveBuffer, giveUrb, hj]

/-- The allocations for a slot, when they succeed, fill it. -/
theorem allocSlot_same {env : StreamonEnv} {i : Nat} (hgives : env.Gives i) (packets : Nat)
    (d : Driver) :
    (allocSlot env packets d i).queue.urb i ≠ none ∧
      (allocSlot env packets d i).queue.urbBuffer i ≠ none := by
  simp [allocSlot, giveBuffer, giveUrb, UsbCore.bufferAlloc, UsbCore.allocUrb, hgives.1, hgives.2]

/-- The allocating loop over empty slots keeps everything accounted for. -/
theorem owned_allocUrbSlots {is : List Nat} (his : ∀ i ∈ is, i ∈ urbSlots) (hnd : is.Nodup)
    {d : Driver} (h : Owned d) (hidle : d.usb.inFlight = [])
    (hempty : ∀ i ∈ is, d.queue.urb i = none ∧ d.queue.urbBuffer i = none) (env : StreamonEnv)
    (packets : Nat) :
    Owned (allocUrbSlots env packets is d).2 ∧
      (allocUrbSlots env packets is d).2.usb.inFlight = [] := by
  induction is generalizing d with
  | nil => exact ⟨h, hidle⟩
  | cons i rest ih =>
      obtain ⟨hi, hrest⟩ := List.nodup_cons.mp hnd
      have hin := his i List.mem_cons_self
      have hslot := owned_allocSlot h hin (hempty i List.mem_cons_self) env packets
      have hidle' : (allocSlot env packets d i).usb.inFlight = [] := by
        rw [allocSlot_inFlight, hidle]
      rcases allocUrbSlots_cons env packets i rest d with ⟨-, heq⟩ | ⟨-, heq⟩
      · rw [heq]
        refine ih (fun j hj => his j (List.mem_cons_of_mem _ hj)) hrest hslot hidle' ?_
        intro j hj
        have hne : j ≠ i := by
          rintro rfl
          exact hi hj
        obtain ⟨hu, hb⟩ := allocSlot_other env packets d hne
        rw [hu, hb]
        exact hempty j (List.mem_cons_of_mem _ hj)
      · rw [heq]
        refine ⟨owned_uninitUrbs hslot hidle', ?_⟩
        exact (uninitSlots_inFlight urbSlots _).trans hidle'

/-- The allocating loop fills all its slots, or leaves empty tables. -/
theorem allocUrbSlots_tables {is : List Nat} (hnd : is.Nodup) (env : StreamonEnv)
    (packets : Nat) (d : Driver) :
    ((∀ i ∈ is, env.Gives i) ∧ (allocUrbSlots env packets is d).1 = true ∧
      (∀ i ∈ is, (allocUrbSlots env packets is d).2.queue.urb i ≠ none ∧
        (allocUrbSlots env packets is d).2.queue.urbBuffer i ≠ none) ∧
      ∀ j, j ∉ is → (allocUrbSlots env packets is d).2.queue.urb j = d.queue.urb j ∧
        (allocUrbSlots env packets is d).2.queue.urbBuffer j = d.queue.urbBuffer j) ∨
    ((¬ ∀ i ∈ is, env.Gives i) ∧ (allocUrbSlots env packets is d).1 = false ∧
      TableEmpty (allocUrbSlots env packets is d).2) := by
  induction is generalizing d with
  | nil => exact Or.inl ⟨by simp, rfl, by simp, fun _ _ => ⟨rfl, rfl⟩⟩
  | cons i rest ih =>
      obtain ⟨hi, hrest⟩ := List.nodup_cons.mp hnd
      rcases allocUrbSlots_cons env packets i rest d with ⟨hgives, heq⟩ | ⟨hgives, heq⟩
      · rw [heq]
        rcases ih hrest (allocSlot env packets d i) with ⟨hall, htrue, hfull, hother⟩ |
            ⟨hnot, hfalse, hempty⟩
        · refine Or.inl ⟨?_, htrue, ?_, ?_⟩
          · intro j hj
            rcases List.mem_cons.mp hj with rfl | hj
            · exact hgives
            · exact hall j hj
          · intro j hj
            rcases List.mem_cons.mp hj with rfl | hj
            · rw [(hother j hi).1, (hother j hi).2]
              exact allocSlot_same hgives packets d
            · exact hfull j hj
          · intro j hj
            obtain ⟨hne, hj'⟩ := not_or.mp (mt List.mem_cons.mpr hj)
            rw [(hother j hj').1, (hother j hj').2]
            exact allocSlot_other env packets d hne
        · exact Or.inr ⟨fun hall => hnot fun j hj => hall j (List.mem_cons_of_mem _ hj), hfalse,
            hempty⟩
      · rw [heq]
        exact Or.inr ⟨fun hall => hgives (hall i List.mem_cons_self), rfl,
          tableEmpty_uninitUrbs _⟩

/-- `myuvc_alloc_init_urbs` is its allocating loop, as far as the tables and the
USB core are concerned: filling in the URBs keeps their handles. -/
theorem sameUrbs_allocInitUrbs (d : Driver) (env : StreamonEnv) :
    ∃ packets d₁, SameUrbs d d₁ ∧
      SameUrbs (allocUrbSlots env packets urbSlots d₁).2 (allocInitUrbs d env).2 := by
  refine ⟨npackets d.params.dwMaxVideoFrameSize,
    { d with queue := { d.queue with
        urbSize := wMaxPacketSize * npackets d.params.dwMaxVideoFrameSize } },
    ⟨rfl, rfl, rfl⟩, ?_⟩
  unfold allocInitUrbs
  dsimp only
  split
  · rename_i d₂ heq
    rw [heq]
    exact ⟨rfl, rfl, rfl⟩
  · rename_i d₂ heq
    rw [heq]
    refine ⟨?_, rfl, rfl⟩
    funext i
    unfold Driver.urbTable
    dsimp only
    split
    · cases d₂.queue.urb i <;> rfl
    · rfl

/-- A slot stays as free as it was. -/
theorem SameUrbs.isNone {d d' : Driver} (h : SameUrbs d d') (i : Nat) :
    d'.queue.urb i = none ↔ d.queue.urb i = none := by
  have htable := congrFun h.urbTable i
  unfold Driver.urbTable at htable
  rw [← Option.map_eq_none_iff (f := UrbObj.handle), htable, Option.map_eq_none_iff]

/-- An empty table stays empty when nothing is done to the URBs. -/
theorem SameUrbs.tableEmpty {d d' : Driver} (h : SameUrbs d d') (he : TableEmpty d) :
    TableEmpty d' := by
  intro i hi
  rw [h.isNone, h.urbBuffer]
  exact he i hi

/-- A full one stays full. -/
theorem SameUrbs.tableFull {d d' : Driver} (h : SameUrbs d d') (hf : TableFull d) :
    TableFull d' := by
  intro i hi
  rw [Ne, h.isNone, h.urbBuffer]
  exact hf i hi

/-- **`myuvc_alloc_init_urbs` over empty tables** leaves nothing behind when it
fails. -/
theorem owned_allocInitUrbs {d : Driver} (h : Owned d) (he : TableEmpty d)
    (env : StreamonEnv) :
    Owned (allocInitUrbs d env).2 ∧ (allocInitUrbs d env).2.usb.inFlight = [] ∧
      (((∀ i ∈ urbSlots, env.Gives i) ∧ TableFull (allocInitUrbs d env).2) ∨
        ((¬ ∀ i ∈ urbSlots, env.Gives i) ∧ TableEmpty (allocInitUrbs d env).2)) := by
  obtain ⟨packets, d₁, hsame, hsame'⟩ := sameUrbs_allocInitUrbs d env
  have hidle : d₁.usb.inFlight = [] := by
    rw [hsame.usb]
    exact h.idle_of_empty he
  obtain ⟨howned, hidle'⟩ := owned_allocUrbSlots (fun _ hi => hi) nodup_urbSlots
    (h.of_same hsame) hidle (hsame.tableEmpty he) env packets
  refine ⟨howned.of_same hsame', ?_, ?_⟩
  · rw [hsame'.usb]
    exact hidle'
  · rcases allocUrbSlots_tables nodup_urbSlots env packets d₁ with ⟨hall, -, hfull, -⟩ |
        ⟨hnot, -, hempty⟩
    · exact Or.inl ⟨hall, hsame'.tableFull hfull⟩
    · exact Or.inr ⟨hnot, hsame'.tableEmpty hempty⟩

/-- A URB with packets that is not in flight, and that the host controller takes, is in
flight. -/
theorem submitUrb_ok {c : UsbCore} {u packets : Nat} (hidle : u ∉ c.inFlight)
    (hpackets : packets ≠ 0) {answer : Int} (hans : 0 ≤ answer) :
    c.submitUrb u packets answer = (answer, { c with inFlight := c.inFlight ++ [u] }) := by
  unfold UsbCore.submitUrb
  rw [if_neg hidle, if_neg hpackets, if_neg (by omega)]

/-- A submission fails and changes nothing, or puts the URB in flight. -/
theorem submitUrb_cases (c : UsbCore) (u packets : Nat) (answer : Int) :
    ((c.submitUrb u packets answer).1 < 0 ∧ (c.submitUrb u packets answer).2 = c) ∨
      (packets ≠ 0 ∧ 0 ≤ answer ∧ c.submitUrb u packets answer =
        (answer, { c with inFlight := c.inFlight ++ [u] })) := by
  have hneg : -EINVAL < 0 := by decide
  unfold UsbCore.submitUrb
  split
  · exact Or.inl ⟨hneg, rfl⟩
  · split
    · exact Or.inl ⟨hneg, rfl⟩
    · rename_i hpackets
      split
      · rename_i hrefused
        exact Or.inl ⟨hrefused, rfl⟩
      · rename_i hpos
        exact Or.inr ⟨hpackets, not_lt.mp hpos, rfl⟩

/-- A recorded URB that is submitted is still accounted for. -/
theorem owned_submit {d : Driver} (h : Owned d) {u : Nat} (hrec : u ∈ d.recordedUrbs)
    (packets : Nat) (answer : Int) :
    Owned { d with usb := (d.usb.submitUrb u packets answer).2 } := by
  rcases submitUrb_cases d.usb u packets answer with ⟨-, heq⟩ | ⟨-, -, heq⟩
  · rw [heq]
    exact h
  · rw [heq]
    exact
      { urbs := h.urbs
        buffers := h.buffers
        freshUrbs := h.freshUrbs
        freshBuffers := h.freshBuffers
        flight := fun x hx => by
          rcases List.mem_append.mp hx with hx | hx
          · exact h.flight x hx
          · rw [List.mem_singleton.mp hx]
            exact hrec
        clean := h.clean }

/-- The submitting loop, where every URB has packets and the host controller takes
it. -/
theorem owned_submitUrbs {is : List Nat} (his : ∀ i ∈ is, i ∈ urbSlots) (hnd : is.Nodup)
    {env : StreamonEnv} (hans : ∀ i ∈ is, 0 ≤ env.submit i) {d : Driver} (h : Owned d)
    (hfull : ∀ i ∈ is, d.queue.urb i ≠ none)
    (hpackets : ∀ i ∈ is, ∀ u, d.queue.urb i = some u → u.numberOfPackets ≠ 0)
    (hidle : ∀ i ∈ is, ∀ u, d.urbTable i = some u → u ∉ d.usb.inFlight) :
    Owned (submitUrbs env is d).2 ∧ (submitUrbs env is d).2.queue = d.queue := by
  induction is generalizing d with
  | nil => exact ⟨h, rfl⟩
  | cons i rest ih =>
      obtain ⟨hi, hrest⟩ := List.nodup_cons.mp hnd
      obtain ⟨u, hu⟩ := Option.ne_none_iff_exists'.mp (hfull i List.mem_cons_self)
      have hslot : d.urbTable i = some u.handle := by simp [Driver.urbTable, hu]
      have hrec : u.handle ∈ d.recordedUrbs :=
        mem_held.mpr ⟨i, his i List.mem_cons_self, hslot⟩
      have hok := submitUrb_ok (hidle i List.mem_cons_self _ hslot)
        (hpackets i List.mem_cons_self u hu) (hans i List.mem_cons_self)
      have howned := owned_submit h hrec u.numberOfPackets (env.submit i)
      have hnneg : ¬ env.submit i < 0 := not_lt.mpr (hans i List.mem_cons_self)
      simp only [submitUrbs, hu, hok, if_neg hnneg]
      rw [hok] at howned
      refine ih (fun j hj => his j (List.mem_cons_of_mem _ hj)) hrest
        (fun j hj => hans j (List.mem_cons_of_mem _ hj)) howned
        (fun j hj => hfull j (List.mem_cons_of_mem _ hj))
        (fun j hj => hpackets j (List.mem_cons_of_mem _ hj)) ?_
      intro j hj x hx hin
      rcases List.mem_append.mp hin with hin | hin
      · exact hidle j (List.mem_cons_of_mem _ hj) x hx hin
      · -- the URB just submitted is in no other slot
        have hne : j ≠ i := by
          rintro rfl
          exact hi hj
        rw [List.mem_singleton.mp hin] at hx
        exact hne (slot_unique nodup_urbSlots h.urbs.held_nodup
          (his j (List.mem_cons_of_mem _ hj)) (his i List.mem_cons_self) hx hslot)

/-- The submitting loop, where already the first submission fails. -/
theorem submitUrbs_first {env : StreamonEnv} {d : Driver}
    (hfirst : ∀ u, d.queue.urb 0 = some u → u.numberOfPackets = 0 ∨ env.submit 0 < 0) :
    (submitUrbs env urbSlots d).2 = uninitUrbs d := by
  have hslots : urbSlots = 0 :: [1, 2, 3, 4] := rfl
  rw [hslots, submitUrbs]
  cases hu : d.queue.urb 0 with
  | none => rfl
  | some u =>
      rcases submitUrb_cases d.usb u.handle u.numberOfPackets (env.submit 0) with
          ⟨hneg, hsame⟩ | ⟨hpackets, hpos, -⟩
      · simp only [if_pos hneg, hsame]
      · rcases hfirst u hu with hzero | hrefused
        · exact absurd hzero hpackets
        · exact absurd hpos (not_le.mpr hrefused)

/-- The packets of each URB of a stream: as many as the frame size takes that the
camera answers to the probe, and none when there is no answer. -/
def StreamonEnv.packets (env : StreamonEnv) : Nat :=
  let t := env.negotiation.getParams
  if t.buffer ∧ 0 ≤ t.ret then npackets (getLe32 t.data 18) else 0

/-- The frame size that `VIDIOC_STREAMON` ends up with makes that many packets. -/
theorem npackets_negotiate (env : StreamonEnv) (c : StreamingControl) :
    npackets (negotiate uvcVersion env.negotiation c).dwMaxVideoFrameSize = env.packets := by
  have hnone : npackets tryBlock.dwMaxVideoFrameSize = 0 := by decide
  have htry : (tryStreamingParams uvcVersion env.negotiation.tryParams c).2.1 = tryBlock := by
    unfold tryStreamingParams
    split <;> rfl
  rw [negotiate, htry]
  unfold StreamonEnv.packets getStreamingParams
  by_cases hbuffer : env.negotiation.getParams.buffer = true
  · by_cases hret : env.negotiation.getParams.ret < 0
    · simp only [hbuffer, hret, if_true, not_le.mpr hret, and_false, if_false, hnone]
    · simp only [hbuffer, hret, if_true, if_false, not_lt.mp hret, and_true]
      rfl
  · simp only [hbuffer, false_and, if_false, Bool.false_eq_true, hnone]

/-- Every URB that `VIDIOC_STREAMON` is about to submit has that many packets. -/
theorem allocInitUrbs_packets {d : Driver} {env : StreamonEnv} {i : Nat} (hi : i ∈ urbSlots)
    {u : UrbObj} (hu : (allocInitUrbs d env).2.queue.urb i = some u) :
    u.numberOfPackets = npackets d.params.dwMaxVideoFrameSize := by
  have hlt : i < MYUVC_URBS := List.mem_range.mp hi
  unfold allocInitUrbs at hu
  simp only at hu
  split at hu
  · -- the tables were cleared again
    rename_i e heq
    rcases allocUrbSlots_tables nodup_urbSlots env (npackets d.params.dwMaxVideoFrameSize)
        { d with queue := { d.queue with
          urbSize := wMaxPacketSize * npackets d.params.dwMaxVideoFrameSize } } with
        ⟨-, htrue, -⟩ | ⟨-, -, hempty⟩
    · rw [heq] at htrue
      cases htrue
    · rw [heq] at hempty
      rw [(hempty i hi).1] at hu
      cases hu
  · simp only [if_pos hlt] at hu
    obtain ⟨x, -, rfl⟩ := Option.map_eq_some_iff.mp hu
    rfl

/-- Every submission that is made gets through, or the first one already fails. -/
def StreamonEnv.Submits (env : StreamonEnv) : Prop :=
  (∃ i ∈ urbSlots, ¬ env.Gives i) ∨ env.packets = 0 ∨ env.submit 0 < 0 ∨
    ∀ i ∈ urbSlots, 0 ≤ env.submit i

instance (env : StreamonEnv) : Decidable env.Submits :=
  inferInstanceAs (Decidable (_ ∨ _ ∨ _ ∨ _))

/-- **`VIDIOC_STREAMON` over empty tables** leaves them empty or full. -/
theorem owned_vidiocStreamon {d : Driver} (h : Owned d) (he : TableEmpty d)
    {env : StreamonEnv} (henv : env.Submits) :
    Owned (vidiocStreamon d env).2 ∧
      (TableEmpty (vidiocStreamon d env).2 ∨ TableFull (vidiocStreamon d env).2) := by
  have hsame : SameUrbs d { d with params := negotiate uvcVersion env.negotiation d.params } :=
    ⟨rfl, rfl, rfl⟩
  obtain ⟨howned, hidle, htables⟩ :=
    owned_allocInitUrbs (h.of_same hsame) (hsame.tableEmpty he) env
  have hzero : 0 ∈ urbSlots := by decide
  have hpackets : ∀ i ∈ urbSlots, ∀ u, (allocInitUrbs
      { d with params := negotiate uvcVersion env.negotiation d.params } env).2.queue.urb i =
        some u → u.numberOfPackets = env.packets := by
    intro i hi u hu
    rw [allocInitUrbs_packets hi hu]
    exact npackets_negotiate env d.params
  by_cases hall : TableFull (allocInitUrbs
      { d with params := negotiate uvcVersion env.negotiation d.params } env).2 ∧
      env.packets ≠ 0 ∧ ∀ i ∈ urbSlots, 0 ≤ env.submit i
  · obtain ⟨hown, hqueue⟩ := owned_submitUrbs (fun _ hi => hi) nodup_urbSlots hall.2.2 howned
      (fun i hi => (hall.1 i hi).1) (fun i hi u hu => (hpackets i hi u hu).trans_ne hall.2.1)
      (fun _ _ u _ => by simp [hidle])
    refine ⟨hown, Or.inr fun i hi => ?_⟩
    have hslot := hall.1 i hi
    rw [← hqueue] at hslot
    exact hslot
  · have hfirst : (vidiocStreamon d env).2 = uninitUrbs (allocInitUrbs
        { d with params := negotiate uvcVersion env.negotiation d.params } env).2 := by
      refine submitUrbs_first fun u hu => ?_
      rcases htables with ⟨hgives, hfull⟩ | ⟨-, hempty⟩
      · rcases henv with ⟨i, hi, hnot⟩ | hnone | hneg | hpos
        · exact absurd (hgives i hi) hnot
        · exact Or.inl ((hpackets 0 hzero u hu).trans hnone)
        · exact Or.inr hneg
        · left
          by_contra hsome
          exact hall ⟨hfull, (hpackets 0 hzero u hu).symm.trans_ne hsome, hpos⟩
      · rw [(hempty 0 hzero).1] at hu
        cases hu
    rw [hfirst]
    exact ⟨owned_uninitUrbs howned hidle, Or.inl (tableEmpty_uninitUrbs _)⟩

/-- `usb_kill_urb` changes nothing in the queue. -/
theorem killSlot_queue (d : Driver) (i : Nat) : (killSlot d i).queue = d.queue := by
  unfold killSlot
  split <;> rfl

/-- Killing a URB takes it out of flight, and only it. -/
theorem mem_killSlot_inFlight {d : Driver} {i u : Nat} :
    u ∈ (killSlot d i).usb.inFlight ↔ u ∈ d.usb.inFlight ∧ d.urbTable i ≠ some u := by
  unfold killSlot Driver.urbTable
  cases d.queue.urb i with
  | none => simp
  | some x => simp [UsbCore.retire, @eq_comm _ x.handle u]

/-- A URB taken out of flight is still accounted for. -/
theorem owned_retire {d : Driver} (h : Owned d) (u : Nat) :
    Owned { d with usb := d.usb.retire u } where
  urbs := h.urbs
  buffers := h.buffers
  freshUrbs := h.freshUrbs
  freshBuffers := h.freshBuffers
  flight := fun x hx => h.flight x (List.mem_of_mem_filter hx)
  clean := h.clean

/-- A killed URB is still recorded. -/
theorem owned_killSlot {d : Driver} (h : Owned d) (i : Nat) : Owned (killSlot d i) := by
  unfold killSlot
  split
  · exact h
  · exact owned_retire h _

/-- The killing loop takes the URBs of its slots out of flight. -/
theorem killSlots_spec (is : List Nat) {d : Driver} (h : Owned d) :
    Owned (is.foldl killSlot d) ∧ (is.foldl killSlot d).queue = d.queue ∧
      ∀ u ∈ (is.foldl killSlot d).usb.inFlight,
        u ∈ d.usb.inFlight ∧ ∀ i ∈ is, d.urbTable i ≠ some u := by
  induction is generalizing d with
  | nil => exact ⟨h, rfl, fun u hu => ⟨hu, by simp⟩⟩
  | cons i rest ih =>
      obtain ⟨howned, hqueue, hflight⟩ := ih (owned_killSlot h i)
      refine ⟨howned, hqueue.trans (killSlot_queue d i), fun u hu => ?_⟩
      obtain ⟨hin, hrest⟩ := hflight u hu
      obtain ⟨hin', hi⟩ := mem_killSlot_inFlight.mp hin
      refine ⟨hin', fun j hj => ?_⟩
      rcases List.mem_cons.mp hj with rfl | hj
      · exact hi
      · have hslot := hrest j hj
        unfold Driver.urbTable at hslot ⊢
        rw [killSlot_queue] at hslot
        exact hslot

/-- **`VIDIOC_STREAMOFF`** kills what is in flight and frees everything. -/
theorem owned_vidiocStreamoff {d : Driver} (h : Owned d) :
    Owned (vidiocStreamoff d).2 ∧ TableEmpty (vidiocStreamoff d).2 := by
  obtain ⟨howned, -, hflight⟩ := killSlots_spec urbSlots h
  refine ⟨owned_uninitUrbs howned ?_, tableEmpty_uninitUrbs _⟩
  refine List.eq_nil_iff_forall_not_mem.mpr fun u hu => ?_
  obtain ⟨hin, hnot⟩ := hflight u hu
  obtain ⟨i, hi, hslot⟩ := mem_held.mp (h.flight u hin)
  exact hnot i hi hslot

/-- A record whose tables are empty can be cleared. -/
theorem Owned.of_empty {d d' : Driver} (h : Owned d) (he : TableEmpty d)
    (he' : TableEmpty d') (husb : d'.usb = d.usb) : Owned d' := by
  have hurbs : d'.recordedUrbs = d.recordedUrbs := by
    rw [he.recorded.1, he'.recorded.1]
  have hbuffers : d'.recordedBuffers = d.recordedBuffers := by
    rw [he.recorded.2, he'.recorded.2]
  exact
    { urbs := by
        rw [hurbs, husb]
        exact h.urbs
      buffers := by
        rw [hbuffers, husb]
        exact h.buffers
      freshUrbs := husb ▸ h.freshUrbs
      freshBuffers := husb ▸ h.freshBuffers
      flight := by
        rw [hurbs, husb]
        exact h.flight
      clean := husb ▸ h.clean }

/-- **`VIDIOC_REQBUFS`** clears the tables, unless there is no block to free and
none is allocated. -/
theorem vidiocReqbufs_tables {d d' : Driver} {count : UInt32}
    {alloc : Nat → Option (Nat → UInt8)} {r : Reply}
    (h : vidiocReqbufs d count alloc = .ok (r, d')) :
    (d' = d ∧ d.queue.mem = none ∧ ¬ Allocates d count alloc) ∨
      (d'.usb = d.usb ∧ TableEmpty d' ∧
        ¬ (d.queue.mem = none ∧ ¬ Allocates d count alloc)) := by
  have husb : (freeBuffers d).usb = d.usb := by
    unfold freeBuffers
    split <;> rfl
  rcases vidiocReqbufs_cases h with ⟨n, mem, -, hpos, -, hle, hlt, hmem, rfl⟩ | ⟨-, rfl, hnone⟩
  · have halloc : Allocates d count alloc := ⟨n, hpos, hle, hlt, by rw [hmem]; rfl⟩
    exact Or.inr ⟨husb, fun _ _ => ⟨rfl, rfl⟩, fun hnot => hnot.2 halloc⟩
  · have hnot := not_allocates_of_none hnone
    cases hmem : d.queue.mem with
    | none => exact Or.inl ⟨by simp [freeBuffers, hmem], rfl, hnot⟩
    | some mem =>
        refine Or.inr ⟨husb, fun i _ => ?_, by simp⟩
        simp [freeBuffers, hmem, Queue.zero]

end Myuvc
