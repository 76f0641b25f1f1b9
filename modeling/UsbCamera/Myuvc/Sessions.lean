import UsbCamera.Myuvc.FrameStability

/-!
# Streaming sessions

`VIDIOC_STREAMOFF` stops the URBs and leaves the queues alone.  A buffer that is
half filled then stays at the head of `irqqueue`, and the next session goes on
filling it when its first packet has the frame id of the last one; a buffer that
is queued or waits to be taken stays where it is and cannot be queued again.

Both go well exactly when nothing is queued at the time the stream is stopped.
-/

namespace Myuvc

open FaultRun TwoStageFifo

/-- The stream is stopped, by `VIDIOC_STREAMOFF` or by closing the device. -/
def Input.Stops : Input → Prop
  | .call .streamoff => True
  | .call .close => True
  | _ => False

/-- The stream is started. -/
def Input.Starts : Input → Prop
  | .call (.streamon _) => True
  | _ => False

/-- The packet of the entry `e` puts bytes into buffer `i`. -/
def GivesBytes (m : Machine) (e : Entry Input Reply Machine) (i : Nat) : Prop :=
  (∃ p, e.input = .packet p) ∧ m.drv.bytesusedOf i < e.state.drv.bytesusedOf i

/-- At the end of the run, buffer `i` holds bytes of a packet `p` from before a
stop, and bytes of a packet `q` from after a later start: the buffer has not been
queued anew, nor new buffers been requested, since `p`. -/
def Mixed (m : Machine) (es : Log) (i : Nat) : Prop :=
  ∃ before p bs off cs on ds q after,
    es = before ++ p :: (bs ++ off :: (cs ++ on :: (ds ++ q :: after))) ∧
    off.input.Stops ∧ on.input.Starts ∧
    GivesBytes (lastState m before) p i ∧
    GivesBytes (lastState p.state (bs ++ off :: (cs ++ on :: ds))) q i ∧
    (∀ e ∈ bs ++ off :: (cs ++ on :: (ds ++ q :: after)), ¬ e.input.IsReqbufs) ∧
    i ∉ acceptedAlong (bs ++ off :: (cs ++ on :: (ds ++ q :: after)))

/-- `VIDIOC_QBUF` accepts buffer `i`. -/
def CanQueue (d : Driver) (i : Nat) : Prop :=
  ∃ d', vidiocQbuf d (queueRequest i) = .ok (.ret 0, d')

/-- At no time of the run is a `DONE` buffer mixed, and after every stop every
buffer can be queued. -/
def SessionsSeparate (m : Machine) (es : Log) : Prop :=
  (∀ xs ys, es = xs ++ ys → ∀ i, i < (lastState m xs).drv.queue.count →
    (lastState m xs).drv.stateOf i = .done → ¬ Mixed m xs i) ∧
  (∀ xs e ys, es = xs ++ e :: ys → e.input.Stops →
    ∀ i, i < e.state.drv.queue.count → CanQueue e.state.drv i)

/-- Nothing is queued whenever the stream is stopped. -/
def StopsEmpty (m : Machine) (i : Input) : Prop :=
  i.Stops → m.drv.queue.mainqueue.entries = []

/-- A stop leaves the buffers alone. -/
theorem step_stops {v : Version} {m m' : Machine} {i : Input} {r : Reply} (hs : i.Stops)
    (h : step v m i = .ok (r, m')) : SameBuffers m.drv m'.drv := by
  have hstop : ∀ d, SameBuffers d (vidiocStreamoff d).2 := fun d =>
    (vidiocStreamoff_urbsOnly d).quiet.toSameBuffers
  rcases step_cases h with ⟨c, d', rfl, -, hc, rfl⟩ | ⟨_, _, rfl, -⟩ |
      ⟨_, _, _, _, rfl, -⟩ | ⟨_, _, rfl, -⟩
  · cases c with
    | streamoff =>
        cases hc
        exact hstop m.drv
    | close =>
        cases hc
        exact hstop m.drv
    | _ => exact absurd hs id
  all_goals exact absurd hs id

/-- A buffer that is accepted is idle. -/
theorem CanQueue.idle {d : Driver} {i : Nat} (h : CanQueue d i) : d.stateOf i = .idle := by
  obtain ⟨d', hq⟩ := h
  rcases vidiocQbuf_cases hq with ⟨hr, -⟩ | ⟨main, irq, -, -, hidle, -⟩
  · exact absurd (Reply.ret.inj hr) (by decide)
  · exact hidle

/-- An idle buffer is accepted when the queue heads are set up. -/
theorem Linked.canQueue {m : Machine} {c : Channel Nat} {i : Nat} (h : Linked m c)
    (hi : i < m.drv.queue.count) (hidle : m.drv.stateOf i = .idle) : CanQueue m.drv i := by
  refine ⟨queued m.drv i c.inside c.waiting, ?_⟩
  have hidle' : (m.drv.queue.buffer i).state = .idle := hidle
  have hle : ¬ m.drv.queue.count ≤ i := by omega
  simp only [vidiocQbuf, queueRequest, ne_eq, not_true_eq_false, or_self, if_false, hle, hidle',
    h.queues.main, h.queues.irq, ListHead.addTail_some, queued]

/-- In a coherent machine every buffer can be queued exactly when nothing is. -/
theorem Coherent.canQueue_all_iff {m : Machine} (h : Coherent m) :
    (∀ i, i < m.drv.queue.count → CanQueue m.drv i) ↔ m.drv.queue.mainqueue.entries = [] := by
  rcases h with ⟨c, hlink⟩ | hclear
  · rw [hlink.queues.main, ListHead.entries_some]
    constructor
    · intro hall
      cases hin : c.inside with
      | nil => rfl
      | cons i rest =>
          have hi : i ∈ c.inside := by simp [hin]
          have hlt := hlink.queues.below i hi
          exact absurd hi ((hlink.queues.idle i hlt).mp (hall i hlt).idle)
    · intro hnone i hi
      refine hlink.canQueue hi ((hlink.queues.idle i hi).mpr ?_)
      simp [hnone]
  · constructor
    · intro _
      rw [hclear.main]
      rfl
    · intro _ i hi
      rw [hclear.count] at hi
      omega

/-- After a stop with nothing queued, a buffer gets no bytes until it is queued
again. -/
theorem not_mixed_of_stopsEmpty {v : Version} {idVendor : Nat} {es : Log}
    (hrun : IsRun (step v) (Machine.load idVendor) es)
    (hempty : Along StopsEmpty (Machine.load idVendor) es) {i : Nat}
    (hi : i < (lastState (Machine.load idVendor) es).drv.queue.count) :
    ¬ Mixed (Machine.load idVendor) es i := by
  rintro ⟨before, p, bs, off, cs, on, ds, q, after, rfl, hoff, -, -, hq, hno, hacc⟩
  have hsplit : before ++ p :: (bs ++ off :: (cs ++ on :: (ds ++ q :: after))) =
      (before ++ p :: bs) ++ off :: ((cs ++ on :: ds) ++ q :: after) := by simp
  have hparts : bs ++ off :: (cs ++ on :: (ds ++ q :: after)) =
      bs ++ off :: ((cs ++ on :: ds) ++ q :: after) := by simp
  rw [hsplit] at hrun hempty hi
  rw [hparts] at hno hacc
  obtain ⟨hfirst, hstop, hrest⟩ := isRun_append.mp hrun
  obtain ⟨hmid, hstep, hafter⟩ := isRun_append.mp hrest
  have hlaid := laidOut_of_run hfirst
  have hlaidOff := hlaid.kept hstop
  have hnoRest : ∀ e ∈ (cs ++ on :: ds) ++ q :: after, ¬ e.input.IsReqbufs := fun e he =>
    hno e (List.mem_append_right _ (List.mem_cons_of_mem _ he))
  have hcount : i < off.state.drv.queue.count := by
    rw [lastState_append, lastState_cons, (hlaidOff.shape_kept hrest hnoRest).count] at hi
    exact hi
  have hnone : (lastState (Machine.load idVendor) (before ++ p :: bs)).drv.queue.mainqueue.entries
      = [] := (along_append.mp hempty).2.1 hoff
  have hresting : Resting off.state.drv i := by
    rw [← (step_stops hoff hstop).main] at hnone
    exact ⟨hcount, Or.inr ((hlaidOff.coherent.canQueue_all_iff.mpr hnone i hcount).idle)⟩
  simp only [acceptedAlong, List.flatMap_append, List.flatMap_cons, List.mem_append,
    not_or] at hacc
  obtain ⟨-, -, ⟨haccCs, haccOn, haccDs⟩, haccQ, -⟩ := hacc
  have haccMid : i ∉ acceptedAlong (cs ++ on :: ds) := by
    simp only [acceptedAlong, List.flatMap_append, List.flatMap_cons, List.mem_append, not_or]
    exact ⟨haccCs, haccOn, haccDs⟩
  have hrestQ := (hlaidOff.resting_run hresting hmid
    (fun e he => hnoRest e (List.mem_append_left _ he)) haccMid).1
  have hlaidQ : LaidOut (lastState off.state (cs ++ on :: ds)) :=
    hmid.keeps (fun _ _ _ _ h hstep => h.kept hstep) hlaidOff
  have hsame := (hlaidQ.resting_kept hrestQ (hnoRest q (by simp)) haccQ hstep).2.1
  have hgrow := hq.2
  rw [lastState_append, lastState_cons] at hgrow
  omega

/-- **Sessions do not mix** in a run from module load exactly when nothing is
queued at every stop. -/
theorem sessionsSeparate_iff {v : Version} {idVendor : Nat} {es : Log}
    (hrun : IsRun (step v) (Machine.load idVendor) es) :
    SessionsSeparate (Machine.load idVendor) es ↔
      Along StopsEmpty (Machine.load idVendor) es := by
  have hstop : ∀ xs e ys, es = xs ++ e :: ys → e.input.Stops →
      ((∀ i, i < e.state.drv.queue.count → CanQueue e.state.drv i) ↔
        (lastState (Machine.load idVendor) xs).drv.queue.mainqueue.entries = []) := by
    rintro xs e ys rfl hs
    obtain ⟨hxs, hstep, -⟩ := isRun_append.mp hrun
    have hcoherent := (coherent_of_run hxs).kept hstep
    rw [hcoherent.canQueue_all_iff, (step_stops hs hstep).main]
  constructor
  · rintro ⟨-, hqueue⟩
    refine along_iff.mpr fun xs e ys hsplit hs => ?_
    exact (hstop xs e ys hsplit hs).mp (hqueue xs e ys hsplit hs)
  · intro hempty
    refine ⟨?_, ?_⟩
    · rintro xs ys rfl i hi -
      exact not_mixed_of_stopsEmpty (isRun_append.mp hrun).1 (along_append.mp hempty).1 hi
    · intro xs e ys hsplit hs
      exact (hstop xs e ys hsplit hs).mpr (along_iff.mp hempty xs e ys hsplit hs)

/-- The machine after one more input, for inputs that do not fault. -/
def Machine.after (m : Machine) (i : Input) : Machine :=
  lastState m (exec (step .th10) m [i])

/-- One buffer is queued, the stream is started, and a first packet is
expected. -/
def firstStart : Log :=
  exec (step .th10) (Machine.withBuffers 0 1)
    [.call (.qbuf (queueRequest 0)), .call (.streamon plainEnv), .irq 1 0]

def startedMachine : Machine := lastState (Machine.withBuffers 0 1) firstStart

def halfFilled : Machine := startedMachine.after (.packet ⟨0, [2, 1, 0xAA], true⟩)

def stoppedMachine : Machine := (halfFilled.after (.resubmit 0)).after (.call .streamoff)

def restarted : Machine := stoppedMachine.after (.call (.streamon plainEnv))

def continued : Machine :=
  (restarted.after (.irq 11 0)).after (.packet ⟨0, [2, 3, 0xBB], true⟩)

/-- A run that stops in the middle of a frame and starts again. -/
def mixingLog : Log :=
  (setupLog 0 1 ++ firstStart) ++
    ⟨.packet ⟨0, [2, 1, 0xAA], true⟩, .nothing, halfFilled⟩ ::
      ([⟨.resubmit 0, .nothing, halfFilled.after (.resubmit 0)⟩] ++
        ⟨.call .streamoff, .ret 0, stoppedMachine⟩ ::
          ([] ++ ⟨.call (.streamon plainEnv), .ret 0, restarted⟩ ::
            ([⟨.irq 11 0, .nothing, restarted.after (.irq 11 0)⟩] ++
              ⟨.packet ⟨0, [2, 3, 0xBB], true⟩, .nothing, continued⟩ :: [])))

/-- The calls are a run of the driver. -/
theorem isRun_mixingLog : IsRun (step .th10) (Machine.load 0) mixingLog :=
  isRun_append.mpr ⟨isRun_append.mpr ⟨isRun_setupLog .th10 0 (by decide) (by decide),
    isRun_exec _ _⟩, rfl, rfl, rfl, rfl, rfl, rfl, trivial⟩

/-- A frame of this run has bytes of two sessions. -/
theorem mixed_mixingLog : Mixed (Machine.load 0) mixingLog 0 := by
  refine ⟨setupLog 0 1 ++ firstStart, _, [_], _, [], _, [_], _, [], rfl, trivial, trivial,
    ⟨⟨_, rfl⟩, ?_⟩, ⟨⟨_, rfl⟩, ?_⟩, ?_, ?_⟩
  · rw [lastState_append]
    decide +kernel
  · decide +kernel
  · simp [Input.IsReqbufs, Call.IsReqbufs]
  · simp [acceptedAlong, accepted]

/-- One byte of the first session and one byte of the second end up in one
frame, and the half filled buffer could not be queued after the stop. -/
theorem sessions_mix :
    IsRun (step .th10) (Machine.load 0) mixingLog ∧
    continued.drv.stateOf 0 = .done ∧ continued.drv.contents 0 = [0xAA, 0xBB] ∧
    stoppedMachine.drv.stateOf 0 = .active ∧
    ¬ SessionsSeparate (Machine.load 0) mixingLog := by
  have hdone : continued.drv.stateOf 0 = .done := by decide +kernel
  refine ⟨isRun_mixingLog, hdone, by decide +kernel, by decide +kernel, ?_⟩
  rintro ⟨hseparate, -⟩
  have hlast : lastState (Machine.load 0) mixingLog = continued := rfl
  refine hseparate mixingLog [] (by simp) 0 ?_ ?_ mixed_mixingLog
  · rw [hlast]
    decide +kernel
  · rw [hlast]
    exact hdone

/-- A session whose only frame is taken before the stop. -/
def wholeSessionLog : Log :=
  setupLog 0 1 ++ exec (step .th10) (Machine.withBuffers 0 1)
    [.call (.qbuf (queueRequest 0)), .call (.streamon plainEnv), .irq 1 0,
      .packet ⟨0, [2, 3, 0xAA], true⟩, .resubmit 0, .call .dqbuf, .call .streamoff]

/-- A session that ends with a frame complete mixes nothing. -/
theorem sessionsSeparate_wholeSession :
    SessionsSeparate (Machine.load 0) wholeSessionLog := by
  have hrun : IsRun (step .th10) (Machine.load 0) wholeSessionLog :=
    isRun_append.mpr ⟨isRun_setupLog .th10 0 (by decide) (by decide), isRun_exec _ _⟩
  have hgo : ∀ (m : Machine) (i : Input), ¬ i.Stops → StopsEmpty m i := fun _ _ hn hs =>
    absurd hs hn
  refine (sessionsSeparate_iff hrun).mpr (along_append.mpr ⟨?_, ?_⟩)
  · exact ⟨hgo _ _ id, hgo _ _ id, trivial⟩
  · exact ⟨hgo _ _ id, hgo _ _ id, hgo _ _ id, hgo _ _ id, hgo _ _ id, hgo _ _ id,
      fun _ => rfl, trivial⟩

end Myuvc
