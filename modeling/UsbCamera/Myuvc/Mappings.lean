import UsbCamera.Myuvc.Effects

/-!
# Mappings of the frame memory

Every successful `mmap` makes a VMA whose `vm_private_data` points at an entry of
`myuvc_queue.buffer`; the kernel calls `myuvc_vm_open` when it duplicates such a
VMA (a fork, a split) and `myuvc_vm_close` when it drops one.  `vma_use_count` is
the driver's account of this.

The driver does not see the VMAs, so they are added here: a `World` is the
machine together with the VMAs that are live.  A VMA is known by the buffer it
points at and by the number of `VIDIOC_REQBUFS` calls made before it, which tells
the block of memory it shows.  A VMA of an older block still points at an entry
of the table, but at one that describes another piece of memory by now.

The counts are exact, and nothing is freed under a mapping, exactly in the runs
that ask for buffers only while nothing is mapped (`mappings_exact_iff`).  The
driver itself does not see to it: `myuvc_free_buffers` never looks at the counts
and never fails, although its caller is prepared for a failure.
-/

namespace Myuvc

open FaultRun

/-- The use count of every buffer. -/
def Queue.vmaUse (q : Queue) : Nat → Int := fun i => (q.buffer i).vmaUseCount

/-- A live VMA: the buffer its `vm_private_data` points at, and how many requests
for buffers there had been when it was mapped. -/
structure Vma where
  buffer : Nat
  request : Nat
deriving DecidableEq, Repr

/-- The machine, the number of requests for buffers so far, and the live VMAs. -/
structure World where
  machine : Machine
  requests : Nat
  vmas : List Vma

/-- What can happen next: an input of the machine, or the kernel duplicates or
drops a live VMA. -/
inductive Event
  | input (i : Input)
  | dup (a : Vma)
  | unmap (a : Vma)

/-- The two callbacks of a VMA, which only the kernel makes. -/
def Input.isVmaCallback : Input → Bool
  | .call (.vmOpen _) | .call (.vmClose _) => true
  | _ => false

/-- How many requests for buffers an input is. -/
def Input.requests : Input → Nat
  | .call (.reqbufs _ _) => 1
  | _ => 0

/-- The buffer that `myuvc_mmap` selects for a page offset. -/
def mmapBuffer (d : Driver) (pgoff : Nat) : Option Nat :=
  (List.range d.queue.count).find? fun i => (d.queue.buffer i).buf.offset / PAGE_SIZE == pgoff

/-- The VMA that a step makes: a successful `mmap` makes one. -/
def World.newVmas (w : World) : Input → Reply → List Vma
  | .call (.mmap pgoff _ _), .pages 0 _ =>
      (mmapBuffer w.machine.drv pgoff).toList.map fun i => ⟨i, w.requests⟩
  | _, _ => []

/-- One step of the world. -/
def World.step (v : Version) (w : World) : Event → Except Fault (Reply × World)
  | .input i =>
      if i.isVmaCallback then .error .outOfTurn
      else
        (Myuvc.step v w.machine i).map fun x =>
          (x.1, ⟨x.2, w.requests + i.requests, w.newVmas i x.1 ++ w.vmas⟩)
  | .dup a =>
      if a ∈ w.vmas then
        (Myuvc.step v w.machine (.call (.vmOpen a.buffer))).map fun x =>
          (x.1, ⟨x.2, w.requests, a :: w.vmas⟩)
      else .error .outOfTurn
  | .unmap a =>
      if a ∈ w.vmas then
        (Myuvc.step v w.machine (.call (.vmClose a.buffer))).map fun x =>
          (x.1, ⟨x.2, w.requests, w.vmas.erase a⟩)
      else .error .outOfTurn

/-- The world at module load. -/
def World.load (idVendor : Nat) : World := ⟨Machine.load idVendor, 0, []⟩

/-- The use count of every current buffer is the number of live VMAs that map it,
and `VIDIOC_QUERYBUF` reports it as mapped exactly when there is one. -/
def World.MappingsExact (w : World) : Prop :=
  ∀ i < w.machine.drv.queue.count,
    w.machine.drv.queue.vmaUse i = w.vmas.count ⟨i, w.requests⟩ ∧
    ∃ b, vidiocQuerybuf w.machine.drv i = .buffer b ∧
      (b.flags &&& V4L2_BUF_FLAG_MAPPED ≠ 0 ↔ ⟨i, w.requests⟩ ∈ w.vmas)

/-- The event has `myuvc_free_buffers` free the frame memory. -/
def World.Frees (w : World) : Event → Prop
  | .input i => i.IsReqbufs ∧ w.machine.drv.queue.mem.isSome
  | _ => False

/-- The frame memory is freed only while no buffer of it is in use. -/
def World.Protects (w : World) (e : Event) : Prop :=
  w.Frees e → ∀ i < w.machine.drv.queue.count, w.machine.drv.queue.vmaUse i = 0

/-- Buffers are asked for only while nothing is mapped. -/
def World.UnmappedFirst (w : World) : Event → Prop
  | .input i => i.IsReqbufs → w.vmas = []
  | _ => True

/-- Replacing a buffer by one with the same use count. -/
theorem Queue.vmaUse_setBuffer {q : Queue} {i : Nat} {b : Buffer}
    (h : b.vmaUseCount = q.vmaUse i) : (q.setBuffer i b).vmaUse = q.vmaUse := by
  funext j
  by_cases hj : j = i
  · subst hj
    simpa [Queue.vmaUse] using h
  · simp [Queue.vmaUse, Queue.setBuffer_other q b hj]

/-- The USB side has nothing to do with mappings. -/
theorem UrbsOnly.vmaUse {d d' : Driver} (h : UrbsOnly d d') :
    d'.queue.vmaUse = d.queue.vmaUse := by
  obtain ⟨_, _, _, _, _, rfl⟩ := h
  rfl

/-- Neither have the steps of the handler. -/
theorem vmaUse_setState (d : Driver) (i : Nat) (s : VideobufState) :
    (setState d i s).queue.vmaUse = d.queue.vmaUse :=
  Queue.vmaUse_setBuffer rfl

theorem vmaUse_finishBuffer (d : Driver) (i : Nat) :
    (finishBuffer d i).queue.vmaUse = d.queue.vmaUse :=
  vmaUse_setState d i .done

theorem vmaUse_storePayload {d d' : Driver} {i : Nat} {p : Packet}
    (h : storePayload d i p = .ok d') : d'.queue.vmaUse = d.queue.vmaUse := by
  obtain ⟨mem, mem', t, s, -, -, rfl, -⟩ := storePayload_spec h
  exact Queue.vmaUse_setBuffer (q := d.queue) (b := received (d.queue.buffer i) p) rfl

/-- A packet leaves the use counts alone. -/
theorem vmaUse_packetBody {v : Version} {d d' : Driver} {buf buf' : BufPtr} {p : Packet}
    (h : packetBody v d buf p = .ok (d', buf')) : d'.queue.vmaUse = d.queue.vmaUse := by
  rcases packetBody_cases h with ⟨-, rfl, -⟩ | ⟨-, -, -, rfl⟩ | ⟨i, -, -, hfill⟩
  · rfl
  · rfl
  · rcases fillBuffer_cases hfill with ⟨-, -, rfl, -⟩ | ⟨-, -, rfl, -⟩ | ⟨d₁, -, -, hstore, hend⟩
    · rfl
    · exact vmaUse_finishBuffer _ i
    · have hstored : d₁.queue.vmaUse = d.queue.vmaUse :=
        (vmaUse_storePayload hstore).trans (vmaUse_setState _ i .active)
      rcases hend with ⟨-, rfl, -⟩ | ⟨-, rfl, -⟩
      · exact (vmaUse_finishBuffer d₁ i).trans hstored
      · exact hstored

/-- A call that maps memory or concerns a mapping. -/
def Call.Maps : Call → Prop
  | .mmap _ _ _ | .vmOpen _ | .vmClose _ => True
  | _ => False

/-- An input that maps memory or concerns a mapping. -/
def Input.Maps : Input → Prop
  | .call c => c.Maps
  | _ => False

/-- Calls that neither map nor ask for buffers leave the use counts alone. -/
theorem vmaUse_call {d d' : Driver} {c : Call} {r : Reply} (hreq : ¬ c.IsReqbufs)
    (hmap : ¬ c.Maps) (h : call d c = .ok (r, d')) : d'.queue.vmaUse = d.queue.vmaUse := by
  cases c with
  | reqbufs count alloc => exact absurd trivial hreq
  | mmap pgoff size insert => exact absurd trivial hmap
  | vmOpen i => exact absurd trivial hmap
  | vmClose i => exact absurd trivial hmap
  | qbuf b =>
      rcases vidiocQbuf_cases h with ⟨-, rfl⟩ | ⟨main, irq, -, -, -, -, -, rfl⟩
      · rfl
      · exact Queue.vmaUse_setBuffer (q := d.queue) rfl
  | dqbuf =>
      rcases vidiocDqbuf_cases h with ⟨-, rfl⟩ | ⟨i, rest, -, -, -, rfl⟩
      · rfl
      · exact Queue.vmaUse_setBuffer (q := d.queue) rfl
  | poll =>
      obtain ⟨-, rfl⟩ := call_poll h
      rfl
  | sFmt f =>
      have hd : (vidiocSFmtVidCap d f).2 = d' := congrArg Prod.snd (Except.ok.inj h)
      rw [← hd]
      unfold vidiocSFmtVidCap
      simp only
      split <;> rfl
  | streamon env =>
      have hd : (vidiocStreamon d env).2 = d' := congrArg Prod.snd (Except.ok.inj h)
      rw [← hd]
      exact (vidiocStreamon_urbsOnly d env).vmaUse
  | streamoff =>
      cases h
      exact (vidiocStreamoff_urbsOnly d).vmaUse
  | close =>
      cases h
      exact (vidiocStreamoff_urbsOnly d).vmaUse
  | openDev | gFmt | tryFmt | querybuf =>
      cases h
      rfl

/-- **Only mapping changes the use counts**, as long as no buffers are asked
for. -/
theorem vmaUse_step {v : Version} {m m' : Machine} {i : Input} {r : Reply}
    (hreq : ¬ i.IsReqbufs) (hmap : ¬ i.Maps) (h : step v m i = .ok (r, m')) :
    m'.drv.queue.vmaUse = m.drv.queue.vmaUse := by
  rcases step_cases h with ⟨c, d', rfl, -, hc, rfl⟩ | ⟨_, _, -, -, hd, -⟩ |
      ⟨p, k, d', buf', -, -, hbody, rfl⟩ | ⟨_, _, -, -, rfl⟩
  · exact vmaUse_call hreq hmap hc
  · rw [hd]
  · exact vmaUse_packetBody hbody
  · rfl

/-- One buffer's count changes. -/
theorem vmaUse_addVmaUse (d : Driver) (i : Nat) (k : Int) :
    (addVmaUse d i k).queue.vmaUse = Function.update d.queue.vmaUse i (d.queue.vmaUse i + k) := by
  funext j
  by_cases hj : j = i
  · subst hj
    simp [Queue.vmaUse, addVmaUse]
  · simp [Queue.vmaUse, addVmaUse, Queue.setBuffer_other _ _ hj, hj]

/-- **`mmap`** fails and changes nothing, or counts one more use of the buffer it
selects. -/
theorem mmap_cases (d : Driver) (pgoff size : Nat) (insert : Nat → Int) :
    (∃ r ps, r < 0 ∧ mmap d pgoff size insert = (.pages r ps, d)) ∨
    (∃ i ps, mmapBuffer d pgoff = some i ∧ i < d.queue.count ∧
      mmap d pgoff size insert = (.pages 0 ps, addVmaUse d i 1)) := by
  have hneg : -EINVAL < 0 := by decide
  cases hfind : mmapBuffer d pgoff with
  | none =>
      have hmmap : mmap d pgoff size insert = (.pages (-EINVAL) [], d) := by
        unfold mmapBuffer at hfind
        simp only [mmap, hfind]
      exact Or.inl ⟨_, _, hneg, hmmap⟩
  | some i =>
      have hi : i < d.queue.count := List.mem_range.mp (List.mem_of_find?_eq_some hfind)
      unfold mmapBuffer at hfind
      simp only [mmap, hfind]
      split
      · exact Or.inl ⟨_, _, hneg, rfl⟩
      · split
        · rename_i hfail
          exact Or.inl ⟨_, _, hfail, rfl⟩
        · exact Or.inr ⟨i, _, rfl, hi, rfl⟩

/-- Everything a step of the world can be. -/
theorem World.step_cases {v : Version} {w w' : World} {e : Event} {r : Reply}
    (h : w.step v e = .ok (r, w')) :
    (∃ i m', e = .input i ∧ i.isVmaCallback = false ∧ Myuvc.step v w.machine i = .ok (r, m') ∧
      w' = ⟨m', w.requests + i.requests, w.newVmas i r ++ w.vmas⟩) ∨
    (∃ a, e = .dup a ∧ a ∈ w.vmas ∧
      w' = ⟨⟨addVmaUse w.machine.drv a.buffer 1, none⟩, w.requests, a :: w.vmas⟩) ∨
    (∃ a, e = .unmap a ∧ a ∈ w.vmas ∧
      w' = ⟨⟨addVmaUse w.machine.drv a.buffer (-1), none⟩, w.requests, w.vmas.erase a⟩) := by
  cases e with
  | input i =>
      simp only [World.step] at h
      split at h
      · cases h
      · rename_i hno
        obtain ⟨x, hx, hw⟩ := map_eq_ok.mp h
        cases hw
        exact Or.inl ⟨i, x.2, rfl, by simpa using hno, hx, rfl⟩
  | dup a =>
      simp only [World.step] at h
      split at h
      · rename_i hmem
        obtain ⟨x, hx, hw⟩ := map_eq_ok.mp h
        obtain ⟨d', hm, -, hcall⟩ := step_call hx
        refine Or.inr (Or.inl ⟨a, rfl, hmem, ?_⟩)
        rw [← (Prod.mk.inj hw).2, hm, ← (Prod.mk.inj (Except.ok.inj hcall)).2]
      · cases h
  | unmap a =>
      simp only [World.step] at h
      split at h
      · rename_i hmem
        obtain ⟨x, hx, hw⟩ := map_eq_ok.mp h
        obtain ⟨d', hm, -, hcall⟩ := step_call hx
        refine Or.inr (Or.inr ⟨a, rfl, hmem, ?_⟩)
        rw [← (Prod.mk.inj hw).2, hm, ← (Prod.mk.inj (Except.ok.inj hcall)).2]
      · cases h

/-- The invariant of a world in which the buffers in use are those that are
mapped: every count is exact, every live VMA shows a buffer of the current block,
no flag is stored with a buffer, and there are no buffers without a block. -/
structure World.Sound (w : World) : Prop where
  cursor : CursorOk w.machine
  exact_count : ∀ i, w.machine.drv.queue.vmaUse i = w.vmas.count ⟨i, w.requests⟩
  live : ∀ a ∈ w.vmas, a.buffer < w.machine.drv.queue.count ∧ a.request = w.requests
  flags : ∀ i, (w.machine.drv.queue.buffer i).buf.flags = 0
  block : w.machine.drv.queue.mem = none → w.machine.drv.queue.count = 0

/-- After module load nothing is mapped. -/
theorem World.Sound.load (idVendor : Nat) : (World.load idVendor).Sound where
  cursor := cursorOk_of_none rfl
  exact_count := fun _ => rfl
  live := fun _ ha => absurd ha List.not_mem_nil
  flags := fun _ => rfl
  block := fun _ => rfl

/-- **Counting one buffer.**  The use count of buffer `i` and the number of VMAs
that show it change together. -/
theorem World.Sound.count {w : World} (h : w.Sound) {i : Nat} {k : Int} {vmas : List Vma}
    (hi : i < w.machine.drv.queue.count)
    (hcount : ∀ j, (vmas.count ⟨j, w.requests⟩ : Int) =
      w.vmas.count ⟨j, w.requests⟩ + if j = i then k else 0)
    (hlive : ∀ a ∈ vmas, a ∈ w.vmas ∨ a = ⟨i, w.requests⟩) :
    World.Sound ⟨⟨addVmaUse w.machine.drv i k, none⟩, w.requests, vmas⟩ := by
  have hq := addVmaUse_quiet w.machine.drv i k
  refine ⟨cursorOk_of_none rfl, fun j => ?_, fun a ha => ?_, fun j => ?_, fun hnone => ?_⟩
  · rw [hcount j, ← h.exact_count j, vmaUse_addVmaUse]
    by_cases hj : j = i
    · subst hj
      simp
    · simp [hj]
  · simp only [hq.count]
    rcases hlive a ha with hold | rfl
    · exact h.live a hold
    · exact ⟨hi, rfl⟩
  · rw [hq.buf j]
    exact h.flags j
  · rw [hq.count]
    exact h.block (hq.mem ▸ hnone)

/-- A request for buffers, made while nothing is mapped. -/
theorem World.Sound.reqbufs {w : World} (h : w.Sound) (hempty : w.vmas = []) {count : UInt32}
    {alloc : Nat → Option (Nat → UInt8)} {r : Reply} {d' : Driver}
    (hreq : vidiocReqbufs w.machine.drv count alloc = .ok (r, d')) (k : Nat) :
    World.Sound ⟨⟨d', none⟩, k, []⟩ := by
  have hzero : ∀ i, w.machine.drv.queue.vmaUse i = 0 := fun i => by
    rw [h.exact_count i, hempty]
    rfl
  have hclear : World.Sound ⟨⟨freeBuffers w.machine.drv, none⟩, k, []⟩ := by
    unfold freeBuffers
    split
    · exact ⟨cursorOk_of_none rfl, fun _ => rfl, fun a ha => absurd ha List.not_mem_nil,
        fun _ => rfl, fun _ => rfl⟩
    · exact ⟨cursorOk_of_none rfl, hzero, fun a ha => absurd ha List.not_mem_nil, h.flags,
        h.block⟩
  rcases vidiocReqbufs_cases hreq with ⟨n, mem, -, -, -, -, -, -, rfl⟩ | ⟨-, rfl, -⟩
  · refine ⟨cursorOk_of_none rfl, fun i => ?_, fun a ha => absurd ha List.not_mem_nil,
      fun i => ?_, fun hnone => by cases hnone⟩
    · simp only [Queue.vmaUse, initQueue]
      split <;> rfl
    · simp only [initQueue]
      split <;> rfl
  · exact hclear

/-- Only a request for buffers gives the block back. -/
theorem step_keeps_block {v : Version} {m m' : Machine} {i : Input} {r : Reply}
    (hcur : CursorOk m) (hreq : ¬ i.IsReqbufs) (h : step v m i = .ok (r, m')) :
    m'.drv.queue.mem.isSome = m.drv.queue.mem.isSome := by
  rcases step_effect hcur h with ⟨hyes, -⟩ | ⟨b, main, irq, -, -, -, -, -, -, rfl⟩ |
      ⟨j, rest, -, -, -, -, rfl⟩ | ⟨p, j, rest, -, -, -, ht, -⟩ | ⟨-, -, -, -, hs⟩
  · exact absurd hyes hreq
  · rfl
  · rfl
  · exact ht.mem
  · rw [hs.mem]

/-- A step that neither maps nor asks for buffers. -/
theorem World.Sound.other {v : Version} {w : World} (h : w.Sound) {i : Input} {r : Reply}
    {m' : Machine} (hreq : ¬ i.IsReqbufs) (hmap : ¬ i.Maps)
    (hstep : Myuvc.step v w.machine i = .ok (r, m')) :
    World.Sound ⟨m', w.requests, w.vmas⟩ := by
  have hshape := step_sameShape h.cursor hreq hstep
  have hblock := step_keeps_block h.cursor hreq hstep
  refine ⟨h.cursor.kept hstep, fun j => ?_, fun a ha => ?_, fun j => ?_, fun hnone => ?_⟩
  · simp only [vmaUse_step hreq hmap hstep]
    exact h.exact_count j
  · simp only [hshape.count]
    exact h.live a ha
  · obtain ⟨n, hn⟩ := hshape.buf j
    simp only [hn]
    exact h.flags j
  · simp only at hnone
    rw [hnone] at hblock
    simp only [hshape.count]
    exact h.block (by simpa using hblock.symm)

/-- A call of `mmap`. -/
theorem World.Sound.mmap {w : World} (h : w.Sound) (pgoff size : Nat) (insert : Nat → Int) :
    World.Sound ⟨⟨(Myuvc.mmap w.machine.drv pgoff size insert).2, none⟩, w.requests,
      w.newVmas (.call (.mmap pgoff size insert)) (Myuvc.mmap w.machine.drv pgoff size insert).1 ++
        w.vmas⟩ := by
  rcases mmap_cases w.machine.drv pgoff size insert with ⟨r, ps, hr, heq⟩ | ⟨i, ps, hfind, hi, heq⟩
  · have hnew : w.newVmas (.call (.mmap pgoff size insert)) (.pages r ps) = [] := by
      unfold World.newVmas
      split
      · rename_i heq
        cases heq
        exact absurd hr (by decide)
      · rfl
    rw [heq]
    simp only [hnew, List.nil_append]
    exact ⟨cursorOk_of_none rfl, h.exact_count, h.live, h.flags, h.block⟩
  · rw [heq]
    simp only [World.newVmas, hfind, Option.toList_some, List.map_cons, List.map_nil,
      List.cons_append, List.nil_append]
    refine h.count hi (fun j => ?_) (fun a ha => ?_)
    · rw [List.count_cons]
      by_cases hj : j = i
      · simp [hj]
      · simp [hj, Ne.symm hj]
    · rcases List.mem_cons.mp ha with rfl | hold
      · exact Or.inr rfl
      · exact Or.inl hold

/-- **One step** keeps the invariant, when buffers are asked for only while
nothing is mapped. -/
theorem World.Sound.kept {v : Version} {w w' : World} {e : Event} {r : Reply} (h : w.Sound)
    (hfirst : w.UnmappedFirst e) (hstep : w.step v e = .ok (r, w')) : w'.Sound := by
  rcases World.step_cases hstep with ⟨i, m', rfl, hno, hi, rfl⟩ | ⟨a, rfl, ha, rfl⟩ |
      ⟨a, rfl, ha, rfl⟩
  · by_cases hreq : i.IsReqbufs
    · have hempty := hfirst hreq
      obtain ⟨count, alloc, rfl⟩ := hreq.eq
      obtain ⟨d', rfl, -, hcall⟩ := step_call hi
      simp only [World.newVmas, List.nil_append, hempty]
      exact h.reqbufs hempty hcall _
    · have hrequests : i.requests = 0 := by
        unfold Input.requests
        split
        · exact absurd trivial hreq
        · rfl
      by_cases hmap : i.Maps
      · cases i with
        | call c =>
            cases c with
            | mmap pgoff size insert =>
                obtain ⟨d', rfl, -, hcall⟩ := step_call hi
                have heq : Myuvc.mmap w.machine.drv pgoff size insert = (r, d') :=
                  Except.ok.inj hcall
                have hs := h.mmap pgoff size insert
                rw [heq] at hs
                exact hs
            | vmOpen i => cases hno
            | vmClose i => cases hno
            | _ => exact absurd hmap id
        | _ => exact absurd hmap id
      · have hnew : w.newVmas i r = [] := by
          unfold World.newVmas
          split
          · exact absurd trivial hmap
          · rfl
        simp only [hrequests, hnew, Nat.add_zero, List.nil_append]
        exact h.other hreq hmap hi
  · obtain ⟨hi, hnow⟩ := h.live a ha
    have hself : a = ⟨a.buffer, w.requests⟩ := by rw [← hnow]
    refine h.count hi (fun j => ?_) (fun b hb => ?_)
    · rw [List.count_cons, hself]
      by_cases hj : j = a.buffer
      · simp [hj]
      · simp [hj, Ne.symm hj]
    · rcases List.mem_cons.mp hb with rfl | hold
      · exact Or.inr hself
      · exact Or.inl hold
  · obtain ⟨hi, hnow⟩ := h.live a ha
    have hself : a = ⟨a.buffer, w.requests⟩ := by rw [← hnow]
    have hpos : 0 < w.vmas.count a := List.count_pos_iff.mpr ha
    refine h.count hi (fun j => ?_) (fun b hb => Or.inl (List.mem_of_mem_erase hb))
    by_cases hj : j = a.buffer
    · subst hj
      rw [← hself, List.count_erase_self]
      simp only [if_true]
      omega
    · have hne : (⟨j, w.requests⟩ : Vma) ≠ a := by
        rw [hself]
        simp [hj]
      rw [List.count_erase_of_ne hne]
      simp [hj]

/-- What `VIDIOC_QUERYBUF` reports of a buffer with no stored flag. -/
theorem mapped_flag_iff {d : Driver} {i : Nat} (hflags : (d.queue.buffer i).buf.flags = 0)
    (hi : i < d.queue.count) :
    ∃ b, vidiocQuerybuf d i = .buffer b ∧
      (b.flags &&& V4L2_BUF_FLAG_MAPPED ≠ 0 ↔ d.queue.vmaUse i ≠ 0) := by
  have hstate : stateFlags (d.queue.buffer i).state &&& V4L2_BUF_FLAG_MAPPED = 0 := by
    cases (d.queue.buffer i).state <;> rfl
  unfold vidiocQuerybuf
  rw [if_neg (by omega)]
  refine ⟨_, rfl, ?_⟩
  by_cases huse : (d.queue.buffer i).vmaUseCount = 0
  · simp [Queue.vmaUse, hflags, huse, hstate]
  · simp only [hflags, huse, Queue.vmaUse, ne_eq, not_false_eq_true, if_true, iff_true,
      Nat.zero_or, Nat.and_or_distrib_right, hstate]
    decide

/-- Where the invariant holds, so does what it is for. -/
theorem World.Sound.mappingsExact {w : World} (h : w.Sound) : w.MappingsExact := by
  intro i hi
  refine ⟨h.exact_count i, ?_⟩
  obtain ⟨b, hb, hflag⟩ := mapped_flag_iff (h.flags i) hi
  refine ⟨b, hb, hflag.trans ?_⟩
  rw [h.exact_count i, ← List.count_pos_iff]
  omega

/-- Where the invariant holds, the block is freed under no mapping exactly when
nothing is mapped as buffers are asked for. -/
theorem World.Sound.protects_iff {w : World} (h : w.Sound) (e : Event) :
    w.Protects e ↔ w.UnmappedFirst e := by
  cases e with
  | dup a => exact iff_of_true (fun hfree => absurd hfree id) trivial
  | unmap a => exact iff_of_true (fun hfree => absurd hfree id) trivial
  | input i =>
      constructor
      · intro hprot hreq
        apply List.eq_nil_iff_forall_not_mem.mpr
        intro a ha
        obtain ⟨hi, hnow⟩ := h.live a ha
        have hsome : w.machine.drv.queue.mem.isSome := by
          by_contra hnone
          have := h.block (by simpa using hnone)
          omega
        have hzero := hprot ⟨hreq, hsome⟩ a.buffer hi
        have hself : a = ⟨a.buffer, w.requests⟩ := by rw [← hnow]
        have hpos : 0 < w.vmas.count ⟨a.buffer, w.requests⟩ :=
          List.count_pos_iff.mpr (hself ▸ ha)
        rw [h.exact_count] at hzero
        omega
      · rintro hfirst ⟨hreq, -⟩ i -
        rw [h.exact_count i, hfirst hreq]
        rfl

/-- **Exact counts.**  In a run from module load all counts are exact and the
frame memory is freed only while it is not in use, exactly when buffers are asked
for only while nothing is mapped. -/
theorem mappings_exact_iff {v : Version} {idVendor : Nat} {es : List (Entry Event Reply World)}
    (hrun : IsRun (World.step v) (World.load idVendor) es) :
    ((∀ xs ys, es = xs ++ ys → (lastState (World.load idVendor) xs).MappingsExact) ∧
      Along World.Protects (World.load idVendor) es) ↔
    Along World.UnmappedFirst (World.load idVendor) es := by
  have hkeep : ∀ (w : World) (e : Event) (r : Reply) (w' : World), w.Sound →
      w.UnmappedFirst e → w.step v e = .ok (r, w') → w'.Sound :=
    fun _ _ _ _ h hfirst hstep => h.kept hfirst hstep
  have hsame := hrun.along_congr hkeep (fun w e h => h.protects_iff e) (World.Sound.load idVendor)
  constructor
  · rintro ⟨-, hprot⟩
    exact hsame.mp hprot
  · intro hfirst
    refine ⟨?_, hsame.mpr hfirst⟩
    rintro xs ys rfl
    have hsound := (isRun_append.mp hrun).1.keeps_along hkeep (along_append.mp hfirst).1
      (World.Sound.load idVendor)
    exact hsound.mappingsExact

/-- Setting the format, asking for one buffer and mapping it. -/
def mapEvents : List Event :=
  [.input (.call (.sFmt captureFormat)),
    .input (.call (.reqbufs 1 fun _ => some fun _ => 0)),
    .input (.call (.mmap 0 (pageAlign dwMaxVideoFrameSize) fun _ => 0))]

/-- Buffers are asked for again while the first one is mapped; it is unmapped
afterwards. -/
def staleLog : List (Entry Event Reply World) :=
  exec (World.step .th10) (World.load 0)
    (mapEvents ++ [.input (.call (.reqbufs 1 fun _ => some fun _ => 0)), .unmap ⟨0, 1⟩])

/-- The block is freed under the mapping, and dropping the mapping makes the use
count of a buffer that nothing maps `-1`. -/
theorem request_frees_mapped_block :
    IsRun (World.step .th10) (World.load 0) staleLog ∧
    ¬ Along World.Protects (World.load 0) staleLog ∧
    (lastState (World.load 0) staleLog).machine.drv.queue.vmaUse 0 = -1 ∧
    ¬ (lastState (World.load 0) staleLog).MappingsExact := by
  have huse : (lastState (World.load 0) staleLog).machine.drv.queue.vmaUse 0 = -1 := rfl
  have hcount : (lastState (World.load 0) staleLog).machine.drv.queue.count = 1 := rfl
  refine ⟨isRun_exec _ _, ?_, huse, ?_⟩
  · intro h
    have hzero := h.2.2.2.1 ⟨trivial, rfl⟩ 0 (by decide)
    exact absurd hzero (by decide)
  · intro h
    have hexact := (h 0 (by omega)).1
    rw [huse] at hexact
    omega

/-- The buffer is mapped, the mapping duplicated, and both are dropped before
buffers are asked for again. -/
def tidyLog : List (Entry Event Reply World) :=
  exec (World.step .th10) (World.load 0)
    (mapEvents ++ [.dup ⟨0, 1⟩, .unmap ⟨0, 1⟩, .unmap ⟨0, 1⟩,
      .input (.call (.reqbufs 2 fun _ => some fun _ => 0))])

/-- A run that unmaps all before the next request keeps its counts exact. -/
theorem mappings_exact_tidy :
    tidyLog.length = 7 ∧
    (∀ xs ys, tidyLog = xs ++ ys → (lastState (World.load 0) xs).MappingsExact) ∧
    Along World.Protects (World.load 0) tidyLog := by
  have hfirst : Along World.UnmappedFirst (World.load 0) tidyLog :=
    ⟨fun h => absurd h id, fun _ => rfl, fun h => absurd h id, trivial, trivial, trivial,
      fun _ => rfl, trivial⟩
  exact ⟨rfl, (mappings_exact_iff (isRun_exec _ _)).mpr hfirst⟩

end Myuvc
