import UsbCamera.Base.TwoStageFifo
import UsbCamera.Myuvc.Effects

/-!
# The queue invariant

`mainqueue` and `irqqueue` together represent a first-in first-out channel with
two stages: the buffers of `irqqueue` wait to be filled, and in front of them on
`mainqueue` are those that are ready to be taken.  `Represents` ties the queue
record to such a channel, and `step_refines` shows that every step of the driver
that does not ask for new buffers is a run of channel operations: queueing a
buffer lets it enter, the completion handler finishes the first waiting one, and
the application takes the first ready one.

The invariant of the record itself, `QueueInvariant`, is what is left when the
channel is forgotten.  It holds in every state a run can reach from a
`VIDIOC_REQBUFS` that gave buffers.
-/

namespace Myuvc

open FaultRun TwoStageFifo

/-- The queue record represents the channel `c`. -/
structure Represents (q : Queue) (c : Channel Nat) : Prop where
  main : q.mainqueue = some c.inside
  irq : q.irqqueue = some c.waiting
  below : ∀ i ∈ c.inside, i < q.count
  ready : ∀ i ∈ c.ready, (q.buffer i).state = .done
  head : ∀ i rest, c.waiting = i :: rest →
    (q.buffer i).state = .queued ∨ (q.buffer i).state = .active
  tail : ∀ i rest, c.waiting = i :: rest → ∀ j ∈ rest,
    (q.buffer j).state = .queued ∧ (q.buffer j).buf.bytesused = 0
  idle : ∀ i, i < q.count → ((q.buffer i).state = .idle ↔ i ∉ c.inside)
  fits : ∀ i, i < q.count → (q.buffer i).buf.bytesused ≤ (q.buffer i).buf.length

/-- **The representation invariant**, in terms of the two lists alone. -/
def QueueInvariant (q : Queue) : Prop :=
  ∃ main irq finished : List Nat,
    q.mainqueue = some main ∧ q.irqqueue = some irq ∧
    main.Nodup ∧ irq.Nodup ∧ (∀ i ∈ main, i < q.count) ∧ (∀ i ∈ irq, i < q.count) ∧
    main = finished ++ irq ∧ (∀ i ∈ finished, (q.buffer i).state = .done) ∧
    (∀ i, irq.head? = some i → (q.buffer i).state = .queued ∨ (q.buffer i).state = .active) ∧
    (∀ i ∈ irq.tail, (q.buffer i).state = .queued ∧ (q.buffer i).buf.bytesused = 0) ∧
    (∀ i, i < q.count → ((q.buffer i).state = .idle ↔ i ∉ main ∧ i ∉ irq)) ∧
    (∀ i, i < q.count → (q.buffer i).buf.bytesused ≤ (q.buffer i).buf.length)

/-- The invariant says that the record represents some channel. -/
theorem queueInvariant_iff (q : Queue) : QueueInvariant q ↔ ∃ c, Represents q c := by
  constructor
  · rintro ⟨main, irq, finished, hmain, hirq, hnd, -, hbelow, -, rfl, hdone, hhead, htail,
      hidle, hfits⟩
    refine ⟨⟨finished, irq, hnd⟩, ⟨hmain, hirq, hbelow, hdone, ?_, ?_, ?_, hfits⟩⟩
    · rintro i rest rfl
      exact hhead i rfl
    · rintro i rest rfl
      exact htail
    · intro i hi
      rw [hidle i hi]
      simp only [Channel.inside, List.mem_append]
      tauto
  · rintro ⟨c, h⟩
    have hsub : ∀ i ∈ c.waiting, i ∈ c.inside := fun i hi => Channel.mem_inside_of_waiting hi
    refine ⟨c.inside, c.waiting, c.ready, h.main, h.irq, c.nodup, c.nodup.of_append_right,
      h.below, fun i hi => h.below i (hsub i hi), rfl, h.ready, ?_, ?_, ?_, h.fits⟩
    · intro i hi
      obtain ⟨rest, hrest⟩ := List.head?_eq_some_iff.mp hi
      exact h.head i rest hrest
    · intro j hj
      cases hw : c.waiting with
      | nil => simp [hw] at hj
      | cons i rest => exact h.tail i rest hw j (by simpa [hw] using hj)
    · intro i hi
      rw [h.idle i hi]
      exact ⟨fun hn => ⟨hn, fun hw => hn (hsub i hw)⟩, fun hn => hn.1⟩

/-- A step that leaves the buffers alone leaves the represented channel
alone. -/
theorem Represents.of_same {d d' : Driver} {c : Channel Nat} (hs : SameBuffers d d')
    (h : Represents d.queue c) : Represents d'.queue c where
  main := hs.main.trans h.main
  irq := hs.irq.trans h.irq
  below := fun i hi => hs.count ▸ h.below i hi
  ready := fun i hi => (hs.state i).trans (h.ready i hi)
  head := fun i rest hw => by rw [hs.state i]; exact h.head i rest hw
  tail := fun i rest hw j hj => by rw [hs.state j, hs.buf j]; exact h.tail i rest hw j hj
  idle := fun i hi => by rw [hs.state i]; exact h.idle i (hs.count ▸ hi)
  fits := fun i hi => by rw [hs.buf i]; exact h.fits i (hs.count ▸ hi)

/-- Where one buffer has changed and fits its slot, all do if they did before. -/
theorem fits_of_other {q q' : Queue} {i : Nat} (hcount : q'.count = q.count)
    (hother : ∀ j, j ≠ i → q'.buffer j = q.buffer j)
    (hself : i < q.count → (q'.buffer i).buf.bytesused ≤ (q'.buffer i).buf.length)
    (hfits : ∀ j, j < q.count → (q.buffer j).buf.bytesused ≤ (q.buffer j).buf.length) :
    ∀ j, j < q'.count → (q'.buffer j).buf.bytesused ≤ (q'.buffer j).buf.length := by
  intro j hj
  rw [hcount] at hj
  by_cases hji : j = i
  · subst hji
    exact hself hj
  · rw [hother j hji]
    exact hfits j hj

/-- Queueing an idle buffer lets it enter the channel. -/
theorem Represents.of_queued {d : Driver} {c : Channel Nat} {i : Nat} {main irq : List Nat}
    (h : Represents d.queue c) (hi : i < d.queue.count)
    (hmain : d.queue.mainqueue = some main) (hirq : d.queue.irqqueue = some irq)
    (hout : i ∉ c.inside) : Represents (queued d i main irq).queue (c.enter i hout) := by
  have hm : main = c.inside := Option.some.inj (hmain.symm.trans h.main)
  have hw : irq = c.waiting := Option.some.inj (hirq.symm.trans h.irq)
  subst hm
  have hother : ∀ j, j ≠ i →
      (queued d i c.inside irq).queue.buffer j = d.queue.buffer j := fun j hj =>
    queued_other _ _ _ hj
  have hself : (queued d i c.inside irq).queue.buffer i =
      { d.queue.buffer i with
        state := .queued, buf := { (d.queue.buffer i).buf with bytesused := 0 } } :=
    Queue.setBuffer_same _ _ _
  have hne : ∀ j ∈ c.inside, j ≠ i := by
    rintro j hj rfl
    exact hout hj
  have hkept : ∀ j ∈ c.waiting,
      (queued d i c.inside irq).queue.buffer j = d.queue.buffer j := fun j hj =>
    hother j (hne j (Channel.mem_inside_of_waiting hj))
  refine ⟨?_, ?_, ?_, ?_, ?_, ?_, ?_, ?_⟩
  · rw [Channel.inside_enter]
    rfl
  · rw [hw]
    rfl
  · intro j hj
    rw [Channel.inside_enter, List.mem_append, List.mem_singleton] at hj
    rcases hj with hj | rfl
    · exact h.below j hj
    · exact hi
  · intro j hj
    rw [hother j (hne j (List.mem_append_left _ hj))]
    exact h.ready j hj
  · intro j rest hj
    rcases List.append_eq_cons_iff.mp (show c.waiting ++ [i] = j :: rest from hj) with
      ⟨-, hlast⟩ | ⟨ks, hc, -⟩
    · rw [← (List.cons.inj hlast).1, hself]
      exact Or.inl rfl
    · rw [hkept j (by simp [hc])]
      exact h.head j ks hc
  · intro j rest hj k hk
    rcases List.append_eq_cons_iff.mp (show c.waiting ++ [i] = j :: rest from hj) with
      ⟨-, hlast⟩ | ⟨ks, hc, rfl⟩
    · rw [← (List.cons.inj hlast).2] at hk
      cases hk
    · rcases List.mem_append.mp hk with hk | hk
      · rw [hkept k (by simp [hc, hk])]
        exact h.tail j ks hc k hk
      · rw [List.mem_singleton.mp hk, hself]
        exact ⟨rfl, rfl⟩
  · intro j hj
    rw [Channel.inside_enter, List.mem_append, List.mem_singleton]
    by_cases hji : j = i
    · subst hji
      simp [hself]
    · rw [hother j hji, h.idle j hj]
      tauto
  · refine fits_of_other ?_ hother ?_ h.fits
    · rfl
    · intro _
      simp [hself]

/-- Taking the head of `mainqueue` takes the first ready token.  A finished
buffer at the head cannot be a waiting one. -/
theorem Represents.of_dequeued {d : Driver} {c : Channel Nat} {i : Nat} {rest : List Nat}
    (h : Represents d.queue c) (hmain : d.queue.mainqueue = some (i :: rest))
    (hdone : (d.queue.buffer i).state = .done) :
    ∃ ready, ∃ hready : c.ready = i :: ready,
      Represents (dequeued d i rest).queue (c.take i ready hready) := by
  have hin : i :: rest = c.inside := Option.some.inj (hmain.symm.trans h.main)
  obtain ⟨ready, hr, hrest⟩ : ∃ ready, c.ready = i :: ready ∧ rest = ready ++ c.waiting := by
    rcases Channel.front_cases hin.symm with ⟨-, hw⟩ | hfront
    · rcases h.head i rest hw with hs | hs <;> simp [hdone] at hs
    · exact hfront
  refine ⟨ready, hr, ?_⟩
  have hnd : i ∉ rest := by
    have := c.nodup
    rw [hr, List.cons_append, ← hrest] at this
    exact (List.nodup_cons.mp this).1
  have hother : ∀ j, j ≠ i → (dequeued d i rest).queue.buffer j = d.queue.buffer j :=
    fun j hj => dequeued_other _ _ hj
  have hself : (dequeued d i rest).queue.buffer i =
      { d.queue.buffer i with state := .idle } := Queue.setBuffer_same _ _ _
  have hne : ∀ j ∈ rest, j ≠ i := by
    rintro j hj rfl
    exact hnd hj
  have hwait : ∀ j ∈ c.waiting, j ∈ rest := fun j hj => by
    rw [hrest]
    exact List.mem_append_right _ hj
  have hinside : (c.take i ready hr).inside = rest := hrest.symm
  refine ⟨?_, h.irq, ?_, ?_, ?_, ?_, ?_, ?_⟩
  · rw [hinside]
    rfl
  · intro j hj
    rw [hinside] at hj
    exact h.below j (hin ▸ List.mem_cons_of_mem _ hj)
  · intro j hj
    have hjr : j ∈ rest := by
      rw [hrest]
      exact List.mem_append_left _ hj
    rw [hother j (hne j hjr)]
    exact h.ready j (by rw [hr]; exact List.mem_cons_of_mem _ hj)
  · intro j ws hw
    have hj : j ∈ c.waiting := by
      rw [show c.waiting = j :: ws from hw]
      exact List.mem_cons_self
    rw [hother j (hne j (hwait j hj))]
    exact h.head j ws hw
  · intro j ws hw k hk
    have hk' : k ∈ c.waiting := by
      rw [show c.waiting = j :: ws from hw]
      exact List.mem_cons_of_mem _ hk
    rw [hother k (hne k (hwait k hk'))]
    exact h.tail j ws hw k hk
  · intro j hj
    rw [hinside]
    by_cases hji : j = i
    · subst hji
      simp [hself, hnd]
    · rw [hother j hji, h.idle j hj, ← hin, List.mem_cons]
      tauto
  · refine fits_of_other ?_ hother ?_ h.fits
    · rfl
    · intro hi
      rw [hself]
      exact h.fits i hi

/-- A packet that touches the first waiting buffer keeps it there, or finishes
it. -/
theorem Represents.of_touched {d d' : Driver} {c : Channel Nat} {i : Nat} {rest : List Nat}
    (h : Represents d.queue c) (hirq : d.queue.irqqueue = some (i :: rest))
    (ht : Touches d d' i) :
    ∃ hw : c.waiting = i :: rest,
      (d'.stateOf i = .active ∧ Represents d'.queue c) ∨
      (d'.stateOf i = .done ∧ Represents d'.queue (c.finish i rest hw)) := by
  have hw : c.waiting = i :: rest := (Option.some.inj (hirq.symm.trans h.irq)).symm
  refine ⟨hw, ?_⟩
  have hi : i ∈ c.inside := Channel.mem_inside_of_waiting (by simp [hw])
  have hnd := c.nodup
  rw [hw] at hnd
  have hnr : ∀ j ∈ c.ready, j ≠ i := by
    rintro j hj rfl
    exact (List.nodup_append.mp hnd).2.2 j hj j List.mem_cons_self rfl
  have hnt : ∀ j ∈ rest, j ≠ i := by
    rintro j hj rfl
    exact (List.nodup_cons.mp (hnd.of_append_right)).1 hj
  have hready : ∀ j ∈ c.ready, (d'.queue.buffer j).state = .done := fun j hj => by
    rw [ht.other j (hnr j hj)]
    exact h.ready j hj
  have htail : ∀ j ∈ rest,
      (d'.queue.buffer j).state = .queued ∧ (d'.queue.buffer j).buf.bytesused = 0 := fun j hj => by
    rw [ht.other j (hnt j hj)]
    exact h.tail i rest hw j hj
  have hbelow : ∀ j ∈ c.inside, j < d'.queue.count := fun j hj => by
    rw [ht.count]
    exact h.below j hj
  have hidle : d'.stateOf i ≠ .idle → ∀ j, j < d'.queue.count →
      ((d'.queue.buffer j).state = .idle ↔ j ∉ c.inside) := by
    intro hstate j hj
    by_cases hji : j = i
    · subst hji
      exact ⟨fun hs => absurd hs hstate, fun hn => absurd hi hn⟩
    · rw [ht.other j hji]
      exact h.idle j (ht.count ▸ hj)
  have hfits : ∀ j, j < d'.queue.count →
      (d'.queue.buffer j).buf.bytesused ≤ (d'.queue.buffer j).buf.length := by
    apply fits_of_other ht.count ht.other _ h.fits
    intro hlt
    obtain ⟨n, hn⟩ := ht.slot
    have hlen : (d'.queue.buffer i).buf.length = (d.queue.buffer i).buf.length := by rw [hn]
    rw [hlen]
    exact ht.fits (h.fits i hlt)
  rcases ht.outcome with ⟨hactive, hsame⟩ | ⟨hdone, hdel⟩
  · refine Or.inl ⟨hactive, ⟨ht.main.trans h.main, hsame.trans h.irq, hbelow, hready, ?_, ?_,
      hidle (by simp [hactive]), hfits⟩⟩
    · intro j ws hj
      rw [hw, List.cons.injEq] at hj
      rw [← hj.1]
      exact Or.inr hactive
    · intro j ws hj
      rw [hw, List.cons.injEq] at hj
      rw [← hj.2]
      exact htail
  · have hinside := c.inside_finish hw
    refine Or.inr ⟨hdone, ⟨?_, ?_, ?_, ?_, ?_, ?_, ?_, hfits⟩⟩
    · rw [hinside]
      exact ht.main.trans h.main
    · rw [hdel, hirq]
      simp [Channel.finish]
    · rw [hinside]
      exact hbelow
    · intro j hj
      simp only [Channel.finish, List.mem_append, List.mem_singleton] at hj
      rcases hj with hj | rfl
      · exact hready j hj
      · exact hdone
    · intro j ws hj
      have hj' : rest = j :: ws := hj
      exact Or.inl (htail j (by simp [hj'])).1
    · intro j ws hj k hk
      have hj' : rest = j :: ws := hj
      exact htail k (by simp [hj', hk])
    · rw [hinside]
      exact hidle (by simp [hdone])

/-- The machine represents the channel `c`: its queues do, there is frame
memory, a running handler works on the first waiting buffer, and every buffer
carries its own index. -/
structure Linked (m : Machine) (c : Channel Nat) : Prop where
  queues : Represents m.drv.queue c
  mem : m.drv.queue.mem.isSome
  cursor : CursorOk m
  named : ∀ i, i < m.drv.queue.count → (m.drv.queue.buffer i).buf.index = i

/-- **Refinement, one step.**  A step that does not ask for new buffers is a run
of channel operations in which the accepted buffer enters and the delivered one
is taken. -/
theorem step_refines {v : Version} {m m' : Machine} {c : Channel Nat} {i : Input} {r : Reply}
    (h : Linked m c) (hno : ¬ i.IsReqbufs) (hstep : step v m i = .ok (r, m')) :
    ∃ ops c', Steps c ops c' ∧ Linked m' c' ∧
      entered ops = accepted i r ∧ taken ops = delivered i r := by
  have hshape := step_sameShape h.cursor hno hstep
  have hnamed : ∀ j, j < m'.drv.queue.count → (m'.drv.queue.buffer j).buf.index = j := by
    intro j hj
    rw [hshape.index j]
    exact h.named j (hshape.count ▸ hj)
  rcases step_effect h.cursor hstep with ⟨hreq, -⟩ |
      ⟨b, main, irq, rfl, rfl, hb, hidle, hmain, hirq, rfl⟩ |
      ⟨j, rest, rfl, rfl, hmain, hdone, rfl⟩ | ⟨p, j, rest, rfl, -, hirq, ht, hcur⟩ |
      ⟨-, hacc, hdel, hcur, hs⟩
  · exact absurd hreq hno
  · have hout : b.index ∉ c.inside := (h.queues.idle _ hb).mp hidle
    refine ⟨[.enter b.index], _, (Step.enter c b.index hout).steps,
      ⟨h.queues.of_queued hb hmain hirq hout, h.mem, cursorOk_of_none rfl, hnamed⟩, ?_, ?_⟩
    · simp [entered, accepted]
    · simp [taken, delivered]
  · obtain ⟨ready, hready, hrep⟩ := h.queues.of_dequeued hmain hdone
    have hj : j < m.drv.queue.count :=
      h.queues.below j (by simp [Channel.inside, hready])
    refine ⟨[.take j], _, (Step.take c j ready hready).steps,
      ⟨hrep, h.mem, cursorOk_of_none rfl, hnamed⟩, ?_, ?_⟩
    · simp [entered, accepted]
    · simp [taken, delivered, h.named j hj]
  · have hmem : m'.drv.queue.mem.isSome := ht.mem ▸ h.mem
    obtain ⟨hw, ⟨-, hrep⟩ | ⟨-, hrep⟩⟩ := h.queues.of_touched hirq ht
    · exact ⟨[], c, Steps.nil c, ⟨hrep, hmem, hcur, hnamed⟩, rfl, rfl⟩
    · exact ⟨[.finish j], _, (Step.finish c j rest hw).steps, ⟨hrep, hmem, hcur, hnamed⟩,
        rfl, rfl⟩
  · have hmem : m'.drv.queue.mem.isSome := hs.mem ▸ h.mem
    exact ⟨[], c, Steps.nil c, ⟨h.queues.of_same hs, hmem, hcur, hnamed⟩, hacc.symm, hdel.symm⟩

/-- The indices accepted along a run, in order. -/
def acceptedAlong (es : Log) : List Nat := es.flatMap fun e => accepted e.input e.reply

theorem acceptedAlong_cons (e : Entry Input Reply Machine) (rest : Log) :
    acceptedAlong (e :: rest) = accepted e.input e.reply ++ acceptedAlong rest := rfl

/-- The indices delivered along a run, in order. -/
def deliveredAlong (es : Log) : List Nat := es.flatMap fun e => delivered e.input e.reply

/-- **Refinement, whole runs.** -/
theorem run_refines {v : Version} {m : Machine} {c : Channel Nat} {es : Log}
    (h : Linked m c) (hrun : IsRun (step v) m es) (hno : ∀ e ∈ es, ¬ e.input.IsReqbufs) :
    ∃ ops c', Steps c ops c' ∧ Linked (lastState m es) c' ∧
      entered ops = acceptedAlong es ∧ taken ops = deliveredAlong es := by
  induction es generalizing m c with
  | nil => exact ⟨[], c, Steps.nil c, h, rfl, rfl⟩
  | cons e rest ih =>
      obtain ⟨hstep, htail⟩ := hrun
      obtain ⟨ops, c', hops, hlink, hent, htak⟩ :=
        step_refines h (hno e List.mem_cons_self) hstep
      obtain ⟨ops', c'', hops', hlink', hent', htak'⟩ :=
        ih hlink htail fun x hx => hno x (List.mem_cons_of_mem _ hx)
      refine ⟨ops ++ ops', c'', hops.append hops', hlink', ?_, ?_⟩
      · rw [entered_append, hent, hent']
        rfl
      · rw [taken_append, htak, htak']
        rfl

/-- New buffers are idle and outside both queues. -/
theorem represents_initQueue (bufsize sizeimage n : Nat) (mem : FrameMem) :
    Represents (initQueue bufsize sizeimage n mem) Channel.empty where
  main := rfl
  irq := rfl
  below := fun i hi => by cases hi
  ready := fun i hi => by cases hi
  head := fun i rest hw => by cases hw
  tail := fun i rest hw => by cases hw
  idle := fun i hi => by
    have hi' : i < n := hi
    simp [initQueue, hi', initBuffer, Channel.inside, Channel.empty]
  fits := fun i hi => by
    have hi' : i < n := hi
    simp [initQueue, hi', initBuffer]

/-- **A successful request** leaves the empty channel. -/
theorem linked_of_reqbufs {v : Version} {m m' : Machine} {count : UInt32}
    {alloc : Nat → Option (Nat → UInt8)} {n : Nat} (hn : 1 ≤ n)
    (h : step v m (.call (.reqbufs count alloc)) = .ok (.ret n, m')) :
    Linked m' Channel.empty := by
  obtain ⟨d', rfl, -, hcall⟩ := step_call h
  obtain ⟨mem, -, -, rfl⟩ := vidiocReqbufs_gave hn hcall
  refine ⟨represents_initQueue _ _ n mem, rfl, cursorOk_of_none rfl, fun i hi => ?_⟩
  have hi' : i < n := hi
  simp [initQueue, hi', initBuffer]

/-- **The queue invariant** holds in every state that can be reached, with any
calls and any packets, after a request that gave buffers. -/
theorem queueInvariant_after_reqbufs {v : Version} {m m' : Machine} {count : UInt32}
    {alloc : Nat → Option (Nat → UInt8)} {n : Nat} (hn : 1 ≤ n ∧ n ≤ 32)
    (hreq : step v m (.call (.reqbufs count alloc)) = .ok (.ret n, m')) {es : Log}
    (hrun : IsRun (step v) m' es) (hno : ∀ e ∈ es, ¬ e.input.IsReqbufs) :
    QueueInvariant (lastState m' es).drv.queue := by
  have hlink := linked_of_reqbufs hn.1 hreq
  obtain ⟨_, c, -, hend, -, -⟩ := run_refines hlink hrun hno
  exact (queueInvariant_iff _).mpr ⟨c, hend.queues⟩

/-- A buffer that is being filled while another one is idle. -/
theorem queueInvariant_while_filling :
    QueueInvariant (lastState (Machine.withBuffers 0 2)
      (exec (step .th10) (Machine.withBuffers 0 2)
        [.call (.qbuf (queueRequest 1)), .call (.streamon plainEnv), .irq 1 0,
          .packet ⟨0, [2, 0, 0xAA], true⟩])).drv.queue :=
  queueInvariant_after_reqbufs (by decide)
    (step_reqbufs_withFormat .th10 0 (n := 2) (by decide) (by decide)) (isRun_exec _ _) (by
    intro e he
    have hin := input_mem_of_mem_exec he
    simp only [List.mem_cons, List.not_mem_nil, or_false] at hin
    rcases hin with hin | hin | hin | hin <;> simp [hin, Input.IsReqbufs, Call.IsReqbufs])

end Myuvc
