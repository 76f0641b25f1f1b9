import UsbCamera.Myuvc.Delivery

/-!
# Queue heads

`list_empty` is only right about a head that has been set up.  The heads live in
static memory that starts out zero, `myuvc_vidioc_reqbufs` sets them up on one of
its exits, and clearing the queue record zeroes them again.  A zeroed head is not
empty to `list_empty` although nothing is queued, and `myuvc_poll` and
`myuvc_vidioc_dqbuf` then follow its links.

The heads are in order exactly in the states in which the last request for
buffers gave some.
-/

namespace Myuvc

open FaultRun TwoStageFifo

/-- `list_empty` is right about both queues, and with nothing queued
`VIDIOC_DQBUF` and `poll` say so. -/
def HeadsOk (d : Driver) : Prop :=
  (d.queue.mainqueue.listEmpty = true ↔ d.queue.mainqueue.entries = []) ∧
  (d.queue.irqqueue.listEmpty = true ↔ d.queue.irqqueue.entries = []) ∧
  (d.queue.mainqueue.entries = [] →
    vidiocDqbuf d = .ok (.ret (-EINVAL), d) ∧ poll d = .ok (.mask POLLERR))

/-- The request for `count` buffers finds memory for some number of them. -/
def Allocates (d : Driver) (count : UInt32) (alloc : Nat → Option (Nat → UInt8)) : Prop :=
  ∃ k, 0 < k ∧ k ≤ count.toNat ∧ count.toNat < 2 ^ 31 ∧
    (vmalloc32 (alloc k) (k * pageAlign d.format.pix.sizeimage % 2 ^ 32)).isSome

/-- `list_empty` is right about a head that has been set up. -/
theorem listEmpty_iff (l : List Nat) :
    ListHead.listEmpty (some l) = true ↔ ListHead.entries (some l) = [] := by
  simp [ListHead.listEmpty]

/-- Linked queues have good heads. -/
theorem Linked.headsOk {m : Machine} {c : Channel Nat} (h : Linked m c) : HeadsOk m.drv := by
  refine ⟨?_, ?_, ?_⟩
  · rw [h.queues.main]
    exact listEmpty_iff _
  · rw [h.queues.irq]
    exact listEmpty_iff _
  · intro hnone
    have hempty : m.drv.queue.mainqueue.listEmpty = true := by
      rw [h.queues.main] at hnone ⊢
      exact (listEmpty_iff _).mpr hnone
    exact ⟨if_pos hempty, if_pos hempty⟩

/-- Cleared ones have not. -/
theorem Cleared.not_headsOk {m : Machine} (h : Cleared m) : ¬ HeadsOk m.drv := by
  intro hok
  have hempty := hok.1.mpr (by rw [h.main]; rfl)
  rw [h.main] at hempty
  cases hempty

/-- A request that gets no memory for any number of buffers allocates none. -/
theorem not_allocates_of_none {d : Driver} {count : UInt32} {alloc : Nat → Option (Nat → UInt8)}
    (h : ∀ n, 0 < n → n ≤ count.toNat → count.toNat < 2 ^ 31 →
      vmalloc32 (alloc n) (n * pageAlign d.format.pix.sizeimage % 2 ^ 32) = none) :
    ¬ Allocates d count alloc := by
  rintro ⟨k, hpos, hle, hlt, hsome⟩
  rw [h k hpos hle hlt] at hsome
  cases hsome

/-- A request gives buffers exactly when it finds memory. -/
theorem gaveBuffers_iff_allocates {v : Version} {m m' : Machine} {count : UInt32}
    {alloc : Nat → Option (Nat → UInt8)} {r : Reply}
    (hstep : step v m (.call (.reqbufs count alloc)) = .ok (r, m')) :
    GaveBuffers (.call (.reqbufs count alloc)) r ↔ Allocates m.drv count alloc := by
  obtain ⟨d', rfl, -, hcall⟩ := step_call hstep
  rcases vidiocReqbufs_cases hcall with ⟨n, mem, rfl, hpos, -, hle, hlt, hmem, -⟩ |
      ⟨hr, -, hnone⟩
  · have hgives : (0 : Int) < n := by omega
    exact ⟨fun _ => ⟨n, hpos, hle, hlt, by rw [hmem]; rfl⟩, fun _ => hgives⟩
  · constructor
    · intro hgave
      rcases hr with rfl | rfl
      · exact absurd hgave (lt_irrefl _)
      · have hneg : (0 : Int) < -ENOMEM := hgave
        exact absurd hneg (by decide)
    · intro halloc
      exact absurd halloc (not_allocates_of_none hnone)

/-- A step that does not ask for buffers keeps them or keeps the record
cleared. -/
theorem Coherent.headsOk_kept {v : Version} {m m' : Machine} {i : Input} {r : Reply}
    (h : Coherent m) (hno : ¬ i.IsReqbufs) (hstep : step v m i = .ok (r, m')) :
    HeadsOk m'.drv ↔ HeadsOk m.drv := by
  rcases h with ⟨c, hlink⟩ | hclear
  · obtain ⟨_, c', -, hlink', -, -⟩ := step_refines hlink hno hstep
    exact iff_of_true hlink'.headsOk hlink.headsOk
  · have hgave : ¬ GaveBuffers i r := by
      intro hgave
      unfold GaveBuffers at hgave
      split at hgave
      · exact hno trivial
      · exact hgave
    exact iff_of_false (hclear.kept hgave hstep).1.not_headsOk hclear.not_headsOk

/-- A request for buffers sets the heads up exactly when it finds memory. -/
theorem Coherent.headsOk_reqbufs {v : Version} {m m' : Machine} {count : UInt32}
    {alloc : Nat → Option (Nat → UInt8)} {r : Reply} (h : Coherent m)
    (hstep : step v m (.call (.reqbufs count alloc)) = .ok (r, m')) :
    HeadsOk m'.drv ↔ Allocates m.drv count alloc := by
  rw [← gaveBuffers_iff_allocates hstep]
  constructor
  · intro hok
    by_contra hgave
    rcases h with ⟨c, hlink⟩ | hclear
    · have hreq : Input.IsReqbufs (.call (.reqbufs count alloc)) := trivial
      exact (hlink.cleared hreq hgave hstep).1.not_headsOk hok
    · exact (hclear.kept hgave hstep).1.not_headsOk hok
  · intro hgave
    exact (linked_of_gaveBuffers hgave hstep).headsOk

/-- **Queue heads.**  At the end of a run from module load the heads are in
order exactly when buffers have been asked for and the last request found memory
for some. -/
theorem headsOk_iff_last_request {v : Version} {idVendor : Nat} {es : Log}
    (hrun : IsRun (step v) (Machine.load idVendor) es) :
    HeadsOk (lastState (Machine.load idVendor) es).drv ↔
      LastSatisfies (fun e => e.input.IsReqbufs)
        (fun xs e => ∃ count alloc, e.input = .call (.reqbufs count alloc) ∧
          Allocates (lastState (Machine.load idVendor) xs).drv count alloc) es := by
  induction es using List.reverseRecOn with
  | nil =>
      have hload : Cleared (Machine.load idVendor) := ⟨rfl, rfl, rfl, cursorOk_of_none rfl⟩
      exact iff_of_false hload.not_headsOk (not_lastSatisfies_nil _ _)
  | append_singleton es e ih =>
      obtain ⟨hes, hstep, -⟩ := isRun_append.mp hrun
      have hcoherent := coherent_of_run hes
      rw [lastSatisfies_concat, lastState_append, lastState_cons, lastState_nil]
      by_cases hreq : e.input.IsReqbufs
      · obtain ⟨count, alloc, hinput⟩ := hreq.eq
        rw [hinput] at hstep
        rw [hcoherent.headsOk_reqbufs hstep]
        constructor
        · intro halloc
          exact Or.inl ⟨hreq, count, alloc, hinput, halloc⟩
        · rintro (⟨-, count', alloc', hinput', halloc⟩ | ⟨hnot, -⟩)
          · rw [hinput] at hinput'
            cases hinput'
            exact halloc
          · exact absurd hreq hnot
      · rw [hcoherent.headsOk_kept hreq hstep, ih hes]
        tauto

/-- At module load, and again after buffers have been given back, nothing is
queued, and polling follows a link of zero. -/
theorem poll_follows_zeroed_link :
    (¬ HeadsOk (Machine.load 0).drv ∧
      step .th10 (Machine.load 0) (.call .poll) = .error .wildLink) ∧
    ∃ m', step .th10 (Machine.withBuffers 0 1) (.call (.reqbufs 0 fun _ => none)) =
        .ok (.ret 0, m') ∧
      m'.drv.queue.mainqueue.entries = [] ∧ ¬ HeadsOk m'.drv ∧
      step .th10 m' (.call .poll) = .error .wildLink ∧
      step .th10 m' (.call .dqbuf) = .error .wildLink := by
  refine ⟨⟨?_, rfl⟩, _, rfl, rfl, ?_, rfl, rfl⟩
  · intro hok
    have hempty := hok.1.mpr rfl
    cases hempty
  · intro hok
    have hempty := hok.1.mpr rfl
    cases hempty

/-- After one request that found memory the heads are in order. -/
theorem headsOk_after_request :
    HeadsOk (Machine.withBuffers 0 1).drv := by
  have hrun : IsRun (step .th10) (Machine.load 0)
      [⟨.call (.sFmt captureFormat), _, Machine.withFormat 0⟩,
        ⟨.call (.reqbufs (UInt32.ofNat 1) fun _ => some fun _ => 0), _, Machine.withBuffers 0 1⟩] :=
    ⟨step_sFmt_load .th10 0, step_reqbufs_withFormat .th10 0 (by decide) (by decide), trivial⟩
  exact (headsOk_iff_last_request hrun).mpr
    ⟨[_], _, [], rfl, trivial, by simp, _, _, rfl, 1, by decide, by decide, by decide, by decide⟩

end Myuvc
