import UsbCamera.Myuvc.QueueInvariant

/-!
# In-order delivery

Buffers come back to the application in the order in which it queued them: none
is lost, none comes back twice, none is overtaken.  This is conservation in the
channel that the two queues represent, carried over whole runs in which calls
and packets interleave in any way.

Requests for buffers that give none are part of such runs.  They may clear the
queue record; from then on nothing is accepted and nothing is delivered, because
the links of a cleared queue lead nowhere.
-/

namespace Myuvc

open FaultRun TwoStageFifo

/-- A request for buffers that gave some. -/
def GaveBuffers : Input → Reply → Prop
  | .call (.reqbufs _ _), .ret r => 0 < r
  | _, _ => False

/-- The queue record holds no buffers and its queue heads are zero. -/
structure Cleared (m : Machine) : Prop where
  count : m.drv.queue.count = 0
  main : m.drv.queue.mainqueue = none
  irq : m.drv.queue.irqqueue = none
  cursor : CursorOk m

/-- A request that gives no buffers clears the record, or leaves the driver as
it is. -/
theorem step_reqbufs_gave_none {v : Version} {m m' : Machine} {i : Input} {r : Reply}
    (hreq : i.IsReqbufs) (hgave : ¬ GaveBuffers i r) (hstep : step v m i = .ok (r, m')) :
    m' = ⟨freeBuffers m.drv, none⟩ := by
  obtain ⟨count, alloc, rfl⟩ := hreq.eq
  obtain ⟨d', rfl, -, hcall⟩ := step_call hstep
  rcases vidiocReqbufs_cases hcall with ⟨n, mem, rfl, hpos, -⟩ | ⟨-, rfl, -⟩
  · have hgives : (0 : Int) < n := by omega
    exact absurd hgives hgave
  · rfl

/-- **A cleared record** stays cleared, and takes and gives nothing, until a
request gives buffers. -/
theorem Cleared.kept {v : Version} {m m' : Machine} {i : Input} {r : Reply}
    (h : Cleared m) (hgave : ¬ GaveBuffers i r) (hstep : step v m i = .ok (r, m')) :
    Cleared m' ∧ accepted i r = [] ∧ delivered i r = [] := by
  rcases step_effect h.cursor hstep with ⟨hreq, n, alloc, rfl, -⟩ |
      ⟨b, _, _, -, -, hb, -⟩ | ⟨j, rest, -, -, hmain, -⟩ | ⟨p, j, rest, -, -, hirq, -⟩ |
      ⟨-, hacc, hdel, hcur, hs⟩
  · have hm := step_reqbufs_gave_none hreq hgave hstep
    subst hm
    refine ⟨?_, rfl, rfl⟩
    unfold freeBuffers
    split
    · exact ⟨rfl, rfl, rfl, cursorOk_of_none rfl⟩
    · exact ⟨h.count, h.main, h.irq, cursorOk_of_none rfl⟩
  · rw [h.count] at hb
    omega
  · rw [h.main] at hmain
    cases hmain
  · rw [h.irq] at hirq
    cases hirq
  · exact ⟨⟨hs.count.trans h.count, hs.main.trans h.main, hs.irq.trans h.irq, hcur⟩, hacc, hdel⟩

/-- A cleared record delivers nothing along a whole run. -/
theorem Cleared.along {v : Version} {m : Machine} {es : Log} (h : Cleared m)
    (hrun : IsRun (step v) m es) (hgave : ∀ e ∈ es, ¬ GaveBuffers e.input e.reply) :
    Cleared (lastState m es) ∧ deliveredAlong es = [] := by
  induction es generalizing m with
  | nil => exact ⟨h, rfl⟩
  | cons e rest ih =>
      obtain ⟨hstep, htail⟩ := hrun
      obtain ⟨hnext, -, hdel⟩ := h.kept (hgave e List.mem_cons_self) hstep
      obtain ⟨hend, hrest⟩ := ih hnext htail fun x hx => hgave x (List.mem_cons_of_mem _ hx)
      refine ⟨hend, ?_⟩
      rw [deliveredAlong, List.flatMap_cons, hdel, List.nil_append]
      exact hrest

/-- A request that gives no buffers clears a record that had some. -/
theorem Linked.cleared {v : Version} {m m' : Machine} {c : Channel Nat} {i : Input} {r : Reply}
    (h : Linked m c) (hreq : i.IsReqbufs) (hgave : ¬ GaveBuffers i r)
    (hstep : step v m i = .ok (r, m')) : Cleared m' ∧ delivered i r = [] := by
  have hm := step_reqbufs_gave_none hreq hgave hstep
  subst hm
  constructor
  · rw [freeBuffers, if_pos h.mem]
    exact ⟨rfl, rfl, rfl, cursorOk_of_none rfl⟩
  · obtain ⟨count, alloc, rfl⟩ := hreq.eq
    rfl

/-- A request that gives buffers leaves the empty channel, whatever was
before. -/
theorem linked_of_gaveBuffers {v : Version} {m m' : Machine} {i : Input} {r : Reply}
    (hgave : GaveBuffers i r) (hstep : step v m i = .ok (r, m')) :
    Linked m' Channel.empty := by
  unfold GaveBuffers at hgave
  split at hgave
  · rename_i count alloc n
    obtain ⟨k, rfl⟩ := Int.eq_ofNat_of_zero_le (le_of_lt hgave)
    exact linked_of_reqbufs (by omega) hstep
  · exact hgave.elim

/-- The machine represents a channel, or its record is cleared. -/
def Coherent (m : Machine) : Prop := (∃ c, Linked m c) ∨ Cleared m

/-- Where `irqqueue` is a list, the machine represents a channel with that list
waiting. -/
theorem Coherent.linked {m : Machine} {irq : List Nat} (h : Coherent m)
    (hirq : m.drv.queue.irqqueue = some irq) : ∃ c, Linked m c ∧ c.waiting = irq := by
  rcases h with ⟨c, hlink⟩ | hclear
  · exact ⟨c, hlink, Option.some.inj (hlink.queues.irq.symm.trans hirq)⟩
  · rw [hclear.irq] at hirq
    cases hirq

/-- A waiting buffer is one of the table. -/
theorem Coherent.waiting_lt {m : Machine} {irq : List Nat} {j : Nat} (h : Coherent m)
    (hirq : m.drv.queue.irqqueue = some irq) (hj : j ∈ irq) : j < m.drv.queue.count := by
  obtain ⟨c, hlink, rfl⟩ := h.linked hirq
  exact hlink.queues.below j (Channel.mem_inside_of_waiting hj)

/-- A request that gives no buffers leaves a cleared record. -/
theorem Coherent.cleared {v : Version} {m m' : Machine} {i : Input} {r : Reply}
    (h : Coherent m) (hreq : i.IsReqbufs) (hgave : ¬ GaveBuffers i r)
    (hstep : step v m i = .ok (r, m')) : Cleared m' := by
  rcases h with ⟨c, hlink⟩ | hclear
  · exact (hlink.cleared hreq hgave hstep).1
  · exact (hclear.kept hgave hstep).1

/-- After a request for buffers no buffer waits. -/
theorem Coherent.irqqueue_requested {v : Version} {m m' : Machine} {i : Input} {r : Reply}
    (h : Coherent m) (hreq : i.IsReqbufs) (hstep : step v m i = .ok (r, m')) :
    m'.drv.queue.irqqueue.entries = [] := by
  by_cases hgave : GaveBuffers i r
  · rw [(linked_of_gaveBuffers hgave hstep).queues.irq]
    rfl
  · rw [(h.cleared hreq hgave hstep).irq]
    rfl

/-- Every step keeps the machine coherent. -/
theorem Coherent.kept {v : Version} {m m' : Machine} {i : Input} {r : Reply}
    (h : Coherent m) (hstep : step v m i = .ok (r, m')) : Coherent m' := by
  by_cases hgave : GaveBuffers i r
  · exact Or.inl ⟨_, linked_of_gaveBuffers hgave hstep⟩
  · by_cases hreq : i.IsReqbufs
    · exact Or.inr (h.cleared hreq hgave hstep)
    · rcases h with ⟨c, hlink⟩ | hclear
      · obtain ⟨_, c', -, hlink', -, -⟩ := step_refines hlink hreq hstep
        exact Or.inl ⟨c', hlink'⟩
      · exact Or.inr (hclear.kept hgave hstep).1

/-- **Every reachable machine is coherent.** -/
theorem coherent_of_run {v : Version} {idVendor : Nat} {es : Log}
    (hrun : IsRun (step v) (Machine.load idVendor) es) :
    Coherent (lastState (Machine.load idVendor) es) := by
  refine hrun.keeps (fun m i r m' h hstep => h.kept hstep) ?_
  exact Or.inr ⟨rfl, rfl, rfl, cursorOk_of_none rfl⟩

/-- **Conservation over a run.**  What is delivered comes, in order, from what
was inside and what has been accepted since. -/
theorem deliveredAlong_prefix {v : Version} {m : Machine} {c : Channel Nat} {es : Log}
    (h : Linked m c) (hrun : IsRun (step v) m es)
    (hgave : ∀ e ∈ es, ¬ GaveBuffers e.input e.reply) :
    deliveredAlong es <+: c.inside ++ acceptedAlong es := by
  induction es generalizing m c with
  | nil => exact List.nil_prefix
  | cons e rest ih =>
      obtain ⟨hstep, htail⟩ := hrun
      have hhead := hgave e List.mem_cons_self
      have hlater : ∀ x ∈ rest, ¬ GaveBuffers x.input x.reply :=
        fun x hx => hgave x (List.mem_cons_of_mem _ hx)
      have hdels : deliveredAlong (e :: rest) = delivered e.input e.reply ++ deliveredAlong rest :=
        rfl
      have haccs : acceptedAlong (e :: rest) = accepted e.input e.reply ++ acceptedAlong rest :=
        rfl
      by_cases hreq : e.input.IsReqbufs
      · obtain ⟨hclear, hdel⟩ := h.cleared hreq hhead hstep
        rw [hdels, hdel, (hclear.along htail hlater).2]
        exact List.nil_prefix
      · obtain ⟨ops, c', hops, hlink, hent, htak⟩ := step_refines h hreq hstep
        have hcons := hops.conserved
        rw [hent, htak] at hcons
        obtain ⟨left, hleft⟩ := ih hlink htail hlater
        refine ⟨left, ?_⟩
        calc deliveredAlong (e :: rest) ++ left
            = delivered e.input e.reply ++ (c'.inside ++ acceptedAlong rest) := by
              rw [hdels, List.append_assoc, hleft]
          _ = c.inside ++ accepted e.input e.reply ++ acceptedAlong rest := by
              rw [← List.append_assoc, hcons]
          _ = c.inside ++ acceptedAlong (e :: rest) := by rw [haccs, List.append_assoc]

/-- A poll that reports input has seen a ready buffer at the front. -/
theorem Linked.ready_of_poll {v : Version} {m m' : Machine} {c : Channel Nat}
    (h : Linked m c)
    (hpoll : step v m (.call .poll) = .ok (.mask (POLLIN ||| POLLRDNORM), m')) :
    m' = ⟨m.drv, none⟩ ∧ ∃ i rest, c.ready = i :: rest := by
  obtain ⟨d', rfl, -, hcall⟩ := step_call hpoll
  obtain ⟨hp, rfl⟩ := call_poll hcall
  refine ⟨rfl, ?_⟩
  rcases poll_cases hp with ⟨-, hr⟩ | ⟨i, rest, hmain, hstate, -⟩ | ⟨_, _, -, -, hr⟩
  · exact absurd hr (by decide)
  · cases hready : c.ready with
    | cons j ready => exact ⟨j, ready, rfl⟩
    | nil =>
        have hin : c.waiting = i :: rest := by
          have := Option.some.inj (h.queues.main.symm.trans hmain)
          simpa [Channel.inside, hready] using this
        rcases h.queues.head i rest hin with hs | hs <;> simp [hs] at hstate
  · exact absurd hr (by decide)

/-- A ready buffer at the front is what `VIDIOC_DQBUF` returns. -/
theorem Linked.dqbuf_of_ready {m : Machine} {c : Channel Nat} {i : Nat} {rest : List Nat}
    (v : Version) (h : Linked m c) (hready : c.ready = i :: rest) (hidle : m.irq = none) :
    ∃ b m', step v m (.call .dqbuf) = .ok (.buffer b, m') ∧ b.index = i := by
  have hmain : m.drv.queue.mainqueue = some (i :: (rest ++ c.waiting)) := by
    rw [h.queues.main]
    simp [Channel.inside, hready]
  have hdone : (m.drv.queue.buffer i).state = .done := h.queues.ready i (by simp [hready])
  have hlt : i < m.drv.queue.count := h.queues.below i (by simp [Channel.inside, hready])
  refine ⟨(m.drv.queue.buffer i).buf, ⟨dequeued m.drv i (rest ++ c.waiting), none⟩, ?_,
    h.named i hlt⟩
  simp [step, hidle, call, vidiocDqbuf, hmain, ListHead.listEmpty, ListHead.firstEntry, hdone,
    Except.map, dequeued]

/-- A cleared queue cannot be polled. -/
theorem Cleared.poll_faults {v : Version} {m m' : Machine} {r : Reply} (h : Cleared m)
    (hpoll : step v m (.call .poll) = .ok (r, m')) : False := by
  obtain ⟨d', rfl, -, hcall⟩ := step_call hpoll
  simp [call, poll, h.main, ListHead.listEmpty, ListHead.firstEntry, Except.map] at hcall

/-- Without a `VIDIOC_DQBUF` nothing is delivered. -/
theorem deliveredAlong_nil {es : Log} (h : ∀ e ∈ es, e.input ≠ .call .dqbuf) :
    deliveredAlong es = [] := by
  refine List.flatMap_eq_nil_iff.mpr fun e he => ?_
  unfold delivered
  split
  · rename_i b hinput _
    exact absurd hinput (h e he)
  · rfl

/-- **In-order delivery.**  Take any run since the last request for buffers that
succeeded.  The indices delivered are an initial part of the indices accepted.
And when a poll reports input, the next `VIDIOC_DQBUF` returns the buffer that
was then at the head, whatever was queued and received in between. -/
theorem delivery_in_order {v : Version} {idVendor : Nat} {before : Log} {m : Machine}
    {count : UInt32} {alloc : Nat → Option (Nat → UInt8)} {n : Nat}
    (hbefore : IsRun (step v) (Machine.load idVendor) before)
    (hreq : step v (lastState (Machine.load idVendor) before) (.call (.reqbufs count alloc)) =
      .ok (.ret n, m))
    {es : Log} (hrun : IsRun (step v) m es)
    (hlast : ∀ e ∈ es, ¬ GaveBuffers e.input e.reply) :
    deliveredAlong es <+: acceptedAlong es ∧
    ∀ xs p ys, es = xs ++ p :: ys →
      p.input = .call .poll → p.reply = .mask (POLLIN ||| POLLRDNORM) →
      (∀ e ∈ ys, e.input ≠ .call .dqbuf ∧ ¬ e.input.IsReqbufs) →
      (lastState m es).irq = none →
      ∃ b m', step v (lastState m es) (.call .dqbuf) = .ok (.buffer b, m') ∧
        (lastState m xs).drv.queue.mainqueue.entries.head? = some b.index := by
  have hstart : Linked m Channel.empty ∨ Cleared m := by
    by_cases hgave : GaveBuffers (.call (.reqbufs count alloc)) (.ret n)
    · exact Or.inl (linked_of_gaveBuffers hgave hreq)
    · rcases coherent_of_run hbefore with ⟨c, hlink⟩ | hclear
      · exact Or.inr (hlink.cleared (i := .call (.reqbufs count alloc)) trivial hgave hreq).1
      · exact Or.inr (hclear.kept hgave hreq).1
  constructor
  · rcases hstart with hlink | hclear
    · simpa [Channel.empty, Channel.inside] using deliveredAlong_prefix hlink hrun hlast
    · rw [(hclear.along hrun hlast).2]
      exact List.nil_prefix
  · rintro xs p ys rfl hinput hreply hbetween hidle
    have hcoherent : Coherent (lastState m xs) := by
      refine IsRun.keeps (fun m i r m' h hstep => h.kept hstep) (isRun_append.mp hrun).1 ?_
      exact hstart.imp (fun h => ⟨_, h⟩) id
    have hpoll := hrun.step_at
    rw [hinput, hreply] at hpoll
    rcases hcoherent with ⟨c, hlink⟩ | hclear
    · obtain ⟨hstate, i, rest, hready⟩ := hlink.ready_of_poll hpoll
      have hlink' : Linked p.state c := by
        rw [hstate]
        exact ⟨hlink.queues, hlink.mem, cursorOk_of_none rfl, hlink.named⟩
      obtain ⟨ops, c', hops, hend, -, htaken⟩ :=
        run_refines hlink' (isRun_append.mp hrun).2.2 fun e he => (hbetween e he).2
      rw [deliveredAlong_nil fun e he => (hbetween e he).1] at htaken
      obtain ⟨rest', hready'⟩ := hops.front_stays hready htaken
      rw [lastState_append, lastState_cons] at hidle ⊢
      obtain ⟨b, m', hdq, hb⟩ := hend.dqbuf_of_ready v hready' hidle
      refine ⟨b, m', hdq, ?_⟩
      rw [hlink.queues.main, hb]
      simp [Channel.inside, hready]
    · exact (hclear.poll_faults hpoll).elim

/-- Buffers 1 and 0 are queued, and the first of them is filled. -/
def filledLog : Log :=
  exec (step .th10) (Machine.withBuffers 0 2)
    [.call (.qbuf (queueRequest 1)), .call (.qbuf (queueRequest 0)),
      .call (.streamon plainEnv), .irq 1 0,
      .packet ⟨0, [2, 2, 0xAA], true⟩, .resubmit 0]

/-- The state at the end of `filledLog`. -/
def filledMachine : Machine := lastState (Machine.withBuffers 0 2) filledLog

/-- A poll that reports input, and then a packet for the other buffer. -/
def polledLog : Log :=
  ⟨.call .poll, .mask (POLLIN ||| POLLRDNORM), filledMachine⟩ ::
    exec (step .th10) filledMachine [.irq 3 0, .packet ⟨0, [2, 1, 0xBB], true⟩, .resubmit 0]

/-- After the poll and the further packet, buffer 1 is still the next. -/
theorem delivery_after_poll :
    ∃ b m', step .th10 (lastState (Machine.withBuffers 0 2) (filledLog ++ polledLog))
      (.call .dqbuf) = .ok (.buffer b, m') ∧ b.index = 1 := by
  have hbefore : IsRun (step .th10) (Machine.load 0)
      (exec (step .th10) (Machine.load 0) [.call (.sFmt captureFormat)]) := isRun_exec _ _
  have hrun : IsRun (step .th10) (Machine.withBuffers 0 2) (filledLog ++ polledLog) :=
    isRun_append.mpr ⟨isRun_exec _ _, rfl, isRun_exec _ _⟩
  have hlast : ∀ e ∈ filledLog ++ polledLog, ¬ GaveBuffers e.input e.reply := by
    intro e he
    rcases List.mem_append.mp he with he | he
    · have hin := input_mem_of_mem_exec he
      simp only [List.mem_cons, List.not_mem_nil, or_false] at hin
      rcases hin with h | h | h | h | h | h <;> simp [h, GaveBuffers]
    · rcases List.mem_cons.mp he with rfl | he
      · exact id
      · have hin := input_mem_of_mem_exec he
        simp only [List.mem_cons, List.not_mem_nil, or_false] at hin
        rcases hin with h | h | h <;> simp [h, GaveBuffers]
  have hbetween : ∀ e ∈ polledLog.tail, e.input ≠ .call .dqbuf ∧ ¬ e.input.IsReqbufs := by
    intro e he
    have hin := input_mem_of_mem_exec he
    simp only [List.mem_cons, List.not_mem_nil, or_false] at hin
    rcases hin with h | h | h <;> simp [h, Input.IsReqbufs]
  have hboth := delivery_in_order hbefore
    (step_reqbufs_withFormat .th10 0 (n := 2) (by decide) (by decide)) hrun hlast
  obtain ⟨b, m', hdq, hb⟩ := hboth.2 filledLog _ polledLog.tail rfl rfl rfl hbetween rfl
  exact ⟨b, m', hdq, Option.some.inj (hb.symm.trans rfl)⟩

end Myuvc
