import UsbCamera.Base.TwoStageFifo
import UsbCamera.Myvivi.Handles

/-!
# In-order delivery by the virtual camera

A queued buffer is on two lists.  The videobuf core links it into `stream`, from which
`VIDIOC_DQBUF` takes the first; the driver links it into its local list, from which the
timer takes the first.  While the stream is on, the local list is the last part of
`stream`, and what stands before it has been filled.  While it is off, the local list is
empty and `stream` holds what will be linked into it by `VIDIOC_STREAMON`.

So the two lists are one channel with two stages (`Linked`), each event is an operation on
it or leaves it alone (`Linked.step`), and over a whole run buffers are filled in the order
in which they were queued and handed over in the order in which they were filled
(`frames_in_queue_order`).  All of this holds for one opener at a time: a second `open`
resets `stream` beside a local list that is still in use.  A `munmap`, which cancels the
queue, and `poll` are not among the events.
-/

namespace Myvivi

open FaultRun TwoStageFifo

/-! ## What passes through the driver -/

/-- The buffer that an event queues. -/
def accepted (s : Driver) : Event → Int → List Nat
  | .qbuf _ index, r => if r = 0 then (s.vidqueue.bufs index).toList else []
  | _, _ => []

/-- The buffer that an event fills. -/
def filled (s : Driver) : Event → Int → List Nat
  | .tick waiting, _ => (filledBuffer s waiting).toList
  | _, _ => []

/-- The buffer that an event hands over. -/
def delivered (s : Driver) : Event → Int → List Nat
  | .dqbuf _, r => if r = 0 then s.vidqueue.stream.head?.toList else []
  | _, _ => []

/-- The buffers that the events of a run yield, one event after the other. -/
def collect (f : Driver → Event → Int → List Nat) : Driver → EventLog → List Nat
  | _, [] => []
  | s, e :: rest => f s e.input e.reply ++ collect f e.state rest

/-- An event that ends a capture. -/
def Ends : Event → Prop
  | .open | .close _ | .streamoff _ => True
  | _ => False

instance (ev : Event) : Decidable (Ends ev) := by
  unfold Ends; split <;> infer_instance

/-- The operations on the channel. -/
def channelOps (s : Driver) (ev : Event) (r : Int) : List (Op Nat) :=
  (accepted s ev r).map .enter ++ (filled s ev r).map .finish ++ (delivered s ev r).map .take

/-- The operations of an event are what it queues, fills and hands over. -/
theorem channelOps_parts (s : Driver) (ev : Event) (r : Int) :
    entered (channelOps s ev r) = accepted s ev r ∧
      finished (channelOps s ev r) = filled s ev r ∧
      taken (channelOps s ev r) = delivered s ev r := by
  cases ev with
  | qbuf h index =>
      simp only [channelOps, accepted, filled, delivered]
      split
      · cases s.vidqueue.bufs index <;> exact ⟨rfl, rfl, rfl⟩
      · exact ⟨rfl, rfl, rfl⟩
  | tick waiting =>
      simp only [channelOps, accepted, filled, delivered]
      cases filledBuffer s waiting <;> exact ⟨rfl, rfl, rfl⟩
  | dqbuf h =>
      simp only [channelOps, accepted, filled, delivered]
      split
      · cases s.vidqueue.stream <;> exact ⟨rfl, rfl, rfl⟩
      · exact ⟨rfl, rfl, rfl⟩
  | _ => exact ⟨rfl, rfl, rfl⟩

/-! ## The channel -/

/-- The entries of the table are objects that have been allocated. -/
def Allocated (d : Driver) : Prop :=
  ∀ i o, d.vidqueue.bufs i = some o → o < d.nextBuffer

/-- The driver's two lists represent the channel `c`. -/
structure Linked (d : Driver) (c : Channel Nat) : Prop where
  stream : d.vidqueue.stream = c.inside
  -- a buffer of the table has been allocated, and a queued one is in the table and mapped
  allocated : Allocated d
  listed : ∀ o ∈ c.inside, o ∈ d.table ∧ (d.heap o).map = true
  ready : ∀ o ∈ c.ready, (d.heap o).state = .done
  on : d.vidqueue.streaming = true →
    d.localQueue = c.waiting ∧ ∀ o ∈ c.waiting, (d.heap o).state = .queued
  off : d.vidqueue.streaming = false →
    d.localQueue = [] ∧ c.ready = [] ∧ ∀ o ∈ c.waiting, (d.heap o).state = .prepared
  shut : d.handles = [] → d.vidqueue.streaming = false

/-- A buffer is in the table if one of its entries leads to it. -/
theorem mem_table {d : Driver} {o : Nat} :
    o ∈ d.table ↔ ∃ i < VIDEO_MAX_FRAME, d.vidqueue.bufs i = some o := by
  simp [Driver.table]

/-- A buffer inside the channel is not one that `VIDIOC_QBUF` takes. -/
theorem Linked.state_of_inside {d : Driver} {c : Channel Nat} (h : Linked d c) {o : Nat}
    (ho : o ∈ c.inside) : (d.heap o).state ≠ .needsInit ∧ (d.heap o).state ≠ .idle := by
  rcases List.mem_append.mp ho with hready | hwaiting
  · simp [h.ready o hready]
  · cases hstreaming : d.vidqueue.streaming with
    | true => simp [(h.on hstreaming).2 o hwaiting]
    | false => simp [(h.off hstreaming).2.2 o hwaiting]

/-! ## Events that leave the channel alone -/

/-- The two lists, the table and the states of the buffers are as before. -/
structure SameQueue (s t : Driver) : Prop where
  vidqueue : t.vidqueue = s.vidqueue
  localQueue : t.localQueue = s.localQueue
  nextBuffer : t.nextBuffer = s.nextBuffer
  handles : t.handles = s.handles
  state : ∀ o, (t.heap o).state = (s.heap o).state
  map : ∀ o, (s.heap o).map = true → (t.heap o).map = true

/-- Doing nothing keeps the queue. -/
theorem SameQueue.refl (s : Driver) : SameQueue s s :=
  ⟨rfl, rfl, rfl, rfl, fun _ => rfl, fun _ h => h⟩

/-- A step that keeps the queue keeps the channel. -/
theorem Linked.of_same {s t : Driver} {c : Channel Nat} (h : Linked s c) (hsame : SameQueue s t) :
    Linked t c where
  stream := by rw [hsame.vidqueue, h.stream]
  allocated := by
    rw [Allocated, hsame.vidqueue, hsame.nextBuffer]
    exact h.allocated
  listed o ho := by
    obtain ⟨htable, hmap⟩ := h.listed o ho
    refine ⟨?_, hsame.map o hmap⟩
    rw [mem_table, hsame.vidqueue, ← mem_table]
    exact htable
  ready o ho := (hsame.state o).trans (h.ready o ho)
  on := by
    rw [hsame.vidqueue, hsame.localQueue]
    intro hon
    exact ⟨(h.on hon).1, fun o ho => (hsame.state o).trans ((h.on hon).2 o ho)⟩
  off := by
    rw [hsame.vidqueue, hsame.localQueue]
    intro hoff
    obtain ⟨hlocal, hready, hstate⟩ := h.off hoff
    exact ⟨hlocal, hready, fun o ho => (hsame.state o).trans (hstate o ho)⟩
  shut := by
    rw [hsame.vidqueue, hsame.handles]
    exact h.shut

/-- `S_FMT` has nothing to do with the queue. -/
theorem sameQueue_sFmt (d : Driver) (f : PixFormat) : SameQueue d (sFmt d f).2 := by
  unfold sFmt
  split
  · exact SameQueue.refl d
  · exact ⟨rfl, rfl, rfl, rfl, fun _ => rfl, fun _ h => h⟩

/-- Neither has `mmap`. -/
theorem sameQueue_videobufMmapMapper (d : Driver) (offset : BitVec 32) :
    SameQueue d (videobufMmapMapper d offset).2 := by
  unfold videobufMmapMapper
  split
  · exact SameQueue.refl d
  · rename_i o _
    split
    · exact SameQueue.refl d
    · refine ⟨rfl, rfl, rfl, rfl, fun p => ?_, fun p hmap => ?_⟩
      · by_cases hp : p = o <;> simp [Driver.update, hp]
      · by_cases hp : p = o <;> simp [Driver.update, hp, hmap]

/-! ## `VIDIOC_REQBUFS` -/

/-- A new entry of the table leads to a new object. -/
theorem Allocated.allocVb {d : Driver} (h : Allocated d) (bsize : BitVec 32) (j : Nat) :
    Allocated (allocVb bsize d j) := by
  intro i o hbuf
  have hnext : (Myvivi.allocVb bsize d j).nextBuffer = d.nextBuffer + 1 := rfl
  by_cases hi : i = j
  · have hnew : (Myvivi.allocVb bsize d j).vidqueue.bufs i = some d.nextBuffer := by
      simp [Myvivi.allocVb, hi]
    rw [hnew] at hbuf
    have ho := Option.some.inj hbuf
    omega
  · have hold : (Myvivi.allocVb bsize d j).vidqueue.bufs i = d.vidqueue.bufs i := by
      simp [Myvivi.allocVb, hi]
    have hlt := h i o (hold ▸ hbuf)
    omega

/-- What a request for buffers leaves alone. -/
structure SameLists (s t : Driver) : Prop where
  stream : t.vidqueue.stream = s.vidqueue.stream
  streaming : t.vidqueue.streaming = s.vidqueue.streaming
  localQueue : t.localQueue = s.localQueue
  handles : t.handles = s.handles

/-- Allocating buffers is nothing to the lists, and all entries of the table stay good. -/
theorem foldl_allocVb {d : Driver} (h : Allocated d) (bsize : BitVec 32) (js : List Nat) :
    SameLists d (js.foldl (allocVb bsize) d) ∧ Allocated (js.foldl (allocVb bsize) d) := by
  induction js generalizing d with
  | nil => exact ⟨⟨rfl, rfl, rfl, rfl⟩, h⟩
  | cons j js ih =>
      obtain ⟨hlists, hall⟩ := ih (h.allocVb bsize j)
      exact ⟨⟨hlists.stream, hlists.streaming, hlists.localQueue, hlists.handles⟩, hall⟩

/-- The table is emptied, or nothing happens: the stream is on, or a buffer is mapped. -/
theorem videobufFree_cases (d : Driver) :
    (videobufFree d).2 = d ∨
      (videobufFree d).2 = { d with vidqueue := { d.vidqueue with bufs := fun _ => none } } ∧
        ∀ o ∈ d.table, (d.heap o).map = false := by
  unfold videobufFree
  split
  · exact Or.inl rfl
  · split
    · exact Or.inl rfl
    · rename_i hmapped
      refine Or.inr ⟨rfl, fun o ho => ?_⟩
      simpa using fun hmap => hmapped (List.any_eq_true.mpr ⟨o, ho, hmap⟩)

/-- Either way the lists stay. -/
theorem videobufFree_lists {d : Driver} (h : Allocated d) :
    SameLists d (videobufFree d).2 ∧ Allocated (videobufFree d).2 := by
  rcases videobufFree_cases d with hfree | ⟨hfree, -⟩
  · rw [hfree]
    exact ⟨⟨rfl, rfl, rfl, rfl⟩, h⟩
  · rw [hfree]
    exact ⟨⟨rfl, rfl, rfl, rfl⟩, nofun⟩

/-- A new table of buffers leaves the lists as they were. -/
theorem videobufMmapSetup_lists {d : Driver} (h : Allocated d) (bcount : Nat) (bsize : BitVec 32)
    (avail : Nat) :
    SameLists d (videobufMmapSetup d bcount bsize avail).2 ∧
      Allocated (videobufMmapSetup d bcount bsize avail).2 := by
  obtain ⟨hfree, hall⟩ := videobufFree_lists h
  obtain ⟨halloc, hall'⟩ := foldl_allocVb hall bsize (List.range (min bcount avail))
  unfold videobufMmapSetup
  split
  rename_i err t heq
  rw [heq] at hfree hall halloc hall'
  split
  · exact ⟨hfree, hall⟩
  · have hboth : SameLists d ((List.range (min bcount avail)).foldl (allocVb bsize) t) :=
      ⟨halloc.stream.trans hfree.stream, halloc.streaming.trans hfree.streaming,
        halloc.localQueue.trans hfree.localQueue, halloc.handles.trans hfree.handles⟩
    dsimp only
    split
    · exact ⟨hboth, hall'⟩
    · exact ⟨hboth, hall'⟩

/-- With nothing queued and the stream off, the table may be any. -/
theorem Linked.of_lists {s t : Driver} {c : Channel Nat} (h : Linked s c)
    (hempty : s.vidqueue.stream = []) (hstill : s.vidqueue.streaming = false)
    (hlists : SameLists s t) (halloc : Allocated t) : Linked t c := by
  have hinside : c.inside = [] := h.stream.symm.trans hempty
  have hparts := List.append_eq_nil_iff.mp hinside
  constructor
  · rw [hlists.stream, h.stream]
  · exact halloc
  · rw [hinside]
    exact nofun
  · rw [hparts.1]
    exact nofun
  · rw [hlists.streaming, hstill]
    exact nofun
  · rw [hlists.localQueue, hparts.1, hparts.2]
    exact fun _ => ⟨(h.off hstill).1, rfl, nofun⟩
  · exact fun _ => hlists.streaming.trans hstill

/-- `REQBUFS` succeeds only while nothing is queued, so the channel stays. -/
theorem Linked.reqbufs {d : Driver} {c : Channel Nat} (h : Linked d c) (count avail : Nat) :
    Linked (videobufReqbufs d count avail).2 c := by
  unfold videobufReqbufs
  split
  · exact h
  · split
    · exact h
    · rename_i hstill
      split
      · exact h
      · rename_i hempty
        obtain ⟨hlists, halloc⟩ := videobufMmapSetup_lists h.allocated
          (bufferSetup d (min count VIDEO_MAX_FRAME)).1
          (bufferSetup d (min count VIDEO_MAX_FRAME)).2 avail
        exact h.of_lists (not_not.mp hempty) (by simpa using hstill) hlists halloc

/-! ## `VIDIOC_STREAMON` -/

/-- The loop links the buffers into the local list, one behind the other. -/
theorem foldl_queuePrepared {d : Driver} {os : List Nat} (hnodup : os.Nodup)
    (hprepared : ∀ o ∈ os, (d.heap o).state = .prepared) :
    let t := os.foldl queuePrepared d
    t.vidqueue = d.vidqueue ∧ t.localQueue = d.localQueue ++ os ∧ t.nextBuffer = d.nextBuffer ∧
      t.handles = d.handles ∧ (∀ o ∈ os, (t.heap o).state = .queued) ∧
      (∀ o, o ∉ os → t.heap o = d.heap o) ∧ ∀ o, (t.heap o).map = (d.heap o).map := by
  induction os generalizing d with
  | nil => exact ⟨rfl, (List.append_nil _).symm, rfl, rfl, nofun, fun _ _ => rfl, fun _ => rfl⟩
  | cons p os ih =>
      obtain ⟨hfresh, hrest⟩ := List.nodup_cons.mp hnodup
      have hround : queuePrepared d p = bufferQueue d p :=
        if_pos (hprepared p List.mem_cons_self)
      have hother : ∀ o, o ≠ p → (bufferQueue d p).heap o = d.heap o := by
        intro o ho
        simp [bufferQueue, Driver.update, ho]
      have hlater : ∀ o ∈ os, ((bufferQueue d p).heap o).state = .prepared := by
        intro o ho
        rw [hother o (ne_of_mem_of_not_mem ho hfresh)]
        exact hprepared o (List.mem_cons_of_mem _ ho)
      obtain ⟨hqueue, hlocal, hnext, hhandles, hstate, hsame, hmap⟩ := ih hrest hlater
      rw [List.foldl_cons, hround]
      refine ⟨hqueue, ?_, hnext, hhandles, ?_, ?_, ?_⟩
      · rw [hlocal]
        simp [bufferQueue, Driver.update]
      · intro o ho
        rcases List.mem_cons.mp ho with rfl | ho
        · rw [hsame o hfresh]
          simp [bufferQueue, Driver.update]
        · exact hstate o ho
      · intro o ho
        rw [hsame o fun h => ho (List.mem_cons_of_mem _ h)]
        exact hother o fun h => ho (h ▸ List.mem_cons_self)
      · intro o
        rw [hmap o]
        by_cases ho : o = p
        · simp [bufferQueue, Driver.update, ho]
        · rw [hother o ho]

/-- `STREAMON` links all that is queued into the local list: it is what waits. -/
theorem Linked.streamon {d : Driver} {c : Channel Nat} (h : Linked d c) (hopen : d.handles ≠ []) :
    Linked (videobufStreamon d).2 c := by
  unfold videobufStreamon
  split
  · exact h
  · rename_i hstill
    obtain ⟨hlocal, hready, hprepared⟩ := h.off (by simpa using hstill)
    have hinside : c.inside = c.waiting := by rw [Channel.inside, hready, List.nil_append]
    have hnodup : c.waiting.Nodup := by
      have hall := c.nodup
      rwa [hready, List.nil_append] at hall
    have hstream : d.vidqueue.stream = c.waiting := h.stream.trans hinside
    obtain ⟨started, hstarted⟩ : ∃ started : Driver,
        started = { d with vidqueue := { d.vidqueue with streaming := true } } := ⟨_, rfl⟩
    have hheap : started.heap = d.heap := by rw [hstarted]
    have hqueued : started.vidqueue.stream = d.vidqueue.stream := by rw [hstarted]
    rw [← hstarted]
    dsimp only
    rw [hqueued, hstream]
    obtain ⟨hqueue, hlocal', hnext, hhandles, hstate, -, hmap⟩ :=
      foldl_queuePrepared (d := started) hnodup (by rwa [hheap])
    rw [hheap] at hmap
    constructor
    · rw [hqueue, hqueued, h.stream]
    · rw [Allocated, hqueue, hnext, hstarted]
      exact h.allocated
    · intro o ho
      obtain ⟨htable, hmapped⟩ := h.listed o ho
      refine ⟨?_, (hmap o).trans hmapped⟩
      rw [mem_table, hqueue, hstarted]
      exact mem_table.mp htable
    · rw [hready]
      exact fun o ho => absurd ho List.not_mem_nil
    · intro _
      rw [hlocal', hstarted]
      exact ⟨by simp [hlocal], hstarted ▸ hstate⟩
    · rw [hqueue, hstarted]
      intro hoff
      cases hoff
    · rw [hhandles, hstarted]
      exact fun hnone => absurd hnone hopen

/-! ## `VIDIOC_STREAMOFF`, `close` and `open` -/

/-- The queue record, the objects and the open files are as before. -/
structure SameRecord (s t : Driver) : Prop where
  vidqueue : t.vidqueue = s.vidqueue
  nextBuffer : t.nextBuffer = s.nextBuffer

/-- What one step keeps, a loop keeps. -/
theorem sameRecord_foldl {f : Driver → Nat → Driver} (hf : ∀ d o, SameRecord d (f d o))
    (d : Driver) (os : List Nat) : SameRecord d (os.foldl f d) := by
  induction os generalizing d with
  | nil => exact ⟨rfl, rfl⟩
  | cons o os ih =>
      exact ⟨(ih _).vidqueue.trans (hf d o).vidqueue, (ih _).nextBuffer.trans (hf d o).nextBuffer⟩

/-- Cancelling a buffer touches the heap and the local list only. -/
theorem sameRecord_cancelQueued (d : Driver) (o : Nat) : SameRecord d (cancelQueued d o) := by
  unfold cancelQueued
  split
  · exact ⟨rfl, rfl⟩
  · exact ⟨rfl, rfl⟩

/-- The first loop of a cancel takes the buffers that it meets off the local list. -/
theorem foldl_cancelQueued {d : Driver} (os : List Nat) (hnodup : d.localQueue.Nodup)
    (hqueued : ∀ o ∈ d.localQueue, (d.heap o).state = .queued) :
    ∀ o ∈ (os.foldl cancelQueued d).localQueue, o ∈ d.localQueue ∧ o ∉ os := by
  induction os generalizing d with
  | nil => exact fun o ho => ⟨ho, List.not_mem_nil⟩
  | cons p os ih =>
      have hlocal : (cancelQueued d p).localQueue = d.localQueue.erase p := by
        unfold cancelQueued
        split
        · rfl
        · rename_i hstate
          exact (List.erase_of_not_mem fun hp => hstate (hqueued p hp)).symm
      have hstate : ∀ o, o ≠ p → (cancelQueued d p).heap o = d.heap o := by
        intro o ho
        unfold cancelQueued
        split
        · simp [Driver.update, ho]
        · rfl
      intro o ho
      have hstep := ih (d := cancelQueued d p) (by rw [hlocal]; exact hnodup.erase p) (by
        rw [hlocal]
        intro q hq
        have hq' := (hnodup.mem_erase_iff).mp hq
        rw [hstate q hq'.1]
        exact hqueued q hq'.2) o ho
      rw [hlocal, hnodup.mem_erase_iff] at hstep
      refine ⟨hstep.1.2, fun hmem => ?_⟩
      rcases List.mem_cons.mp hmem with rfl | hmem
      · exact hstep.1.1 rfl
      · exact hstep.2 hmem

/-- Releasing buffers leaves the local list as it is. -/
theorem foldl_bufferRelease_localQueue (d : Driver) (os : List Nat) :
    (os.foldl bufferRelease d).localQueue = d.localQueue := by
  induction os generalizing d with
  | nil => rfl
  | cons o os ih => exact ih _

/-- **A cancel** empties both lists, if the local list holds queued buffers of the table. -/
theorem linked_videobufQueueCancel {d : Driver} (halloc : Allocated d)
    (hnodup : d.localQueue.Nodup)
    (hlocal : ∀ o ∈ d.localQueue, (d.heap o).state = .queued ∧ o ∈ d.table) :
    Linked (videobufQueueCancel d) Channel.empty := by
  obtain ⟨still, hstill⟩ : ∃ still : Driver,
      still = { d with vidqueue := { d.vidqueue with streaming := false } } := ⟨_, rfl⟩
  obtain ⟨cancelled, hcancelled⟩ : ∃ t, t = still.table.foldl cancelQueued still := ⟨_, rfl⟩
  have hresult : videobufQueueCancel d =
      { cancelled.table.foldl bufferRelease cancelled with
        vidqueue :=
          { (cancelled.table.foldl bufferRelease cancelled).vidqueue with stream := [] } } := by
    rw [hcancelled, hstill]
    rfl
  have hrecord : SameRecord still (cancelled.table.foldl bufferRelease cancelled) := by
    have hfirst := sameRecord_foldl sameRecord_cancelQueued still still.table
    have hsecond := sameRecord_foldl (fun d o => (⟨rfl, rfl⟩ : SameRecord d (bufferRelease d o)))
      cancelled cancelled.table
    rw [← hcancelled] at hfirst
    exact ⟨hsecond.vidqueue.trans hfirst.vidqueue, hsecond.nextBuffer.trans hfirst.nextBuffer⟩
  have hgone : cancelled.localQueue = [] := by
    apply List.eq_nil_iff_forall_not_mem.mpr
    intro o ho
    rw [hcancelled] at ho
    obtain ⟨hmem, hout⟩ := foldl_cancelQueued still.table (by rw [hstill]; exact hnodup)
      (by rw [hstill]; exact fun o ho => (hlocal o ho).1) o ho
    rw [hstill] at hmem hout
    exact hout (hlocal o hmem).2
  rw [hresult]
  constructor
  · rfl
  · rw [Allocated, hrecord.vidqueue, hrecord.nextBuffer, hstill]
    exact halloc
  · exact nofun
  · exact nofun
  · rw [hrecord.vidqueue, hstill]
    exact nofun
  · intro _
    exact ⟨(foldl_bufferRelease_localQueue _ _).trans hgone, rfl, nofun⟩
  · rw [hrecord.vidqueue, hstill]
    exact fun _ => rfl

/-- The local list holds queued buffers of the table. -/
theorem Linked.localQueue {d : Driver} {c : Channel Nat} (h : Linked d c) :
    d.localQueue.Nodup ∧ ∀ o ∈ d.localQueue, (d.heap o).state = .queued ∧ o ∈ d.table := by
  cases hstreaming : d.vidqueue.streaming with
  | true =>
      obtain ⟨hlocal, hqueued⟩ := h.on hstreaming
      rw [hlocal]
      refine ⟨(List.nodup_append.mp c.nodup).2.1, fun o ho => ⟨hqueued o ho, ?_⟩⟩
      exact (h.listed o (Channel.mem_inside_of_waiting ho)).1
  | false =>
      rw [(h.off hstreaming).1]
      exact ⟨List.nodup_nil, nofun⟩

/-- `STREAMOFF` empties the channel, or leaves it alone if the stream is off. -/
theorem Linked.streamoff {d : Driver} {c : Channel Nat} (h : Linked d c) :
    ∃ c', Linked (videobufStreamoff d) c' := by
  unfold videobufStreamoff
  split
  · exact ⟨_, linked_videobufQueueCancel h.allocated h.localQueue.1 h.localQueue.2⟩
  · exact ⟨c, h⟩

/-- Freeing the table is refused while a buffer of it is queued. -/
theorem Linked.videobufFree {d : Driver} {c : Channel Nat} (h : Linked d c) :
    Linked (videobufFree d).2 c := by
  rcases videobufFree_cases d with hfree | ⟨hfree, hunmapped⟩
  · rwa [hfree]
  · rw [hfree]
    have hinside : ∀ o, o ∉ c.inside := by
      intro o ho
      obtain ⟨htable, hmap⟩ := h.listed o ho
      rw [hunmapped o htable] at hmap
      cases hmap
    exact ⟨h.stream, nofun, fun o ho => absurd ho (hinside o), h.ready, h.on, h.off, h.shut⟩

/-- `close` stops a stream that is on, and frees the buffers if none is mapped. -/
theorem Linked.close {d : Driver} {c : Channel Nat} (h : Linked d c) (g : Nat) :
    ∃ c', Linked (myviviClose d g) c' := by
  unfold myviviClose videobufStreamoff
  dsimp only
  split
  · have hcancel := linked_videobufQueueCancel
      (d := { d with timerPending := false, handles := d.handles.erase g })
      h.allocated h.localQueue.1 h.localQueue.2
    exact ⟨_, hcancel.videobufFree⟩
  · rename_i hstill
    have hsame : Linked { d with timerPending := false, handles := d.handles.erase g } c :=
      ⟨h.stream, h.allocated, h.listed, h.ready, h.on, h.off, fun _ => by simpa using hstill⟩
    exact ⟨c, hsame.videobufFree⟩

/-- The first `open` starts with an empty queue. -/
theorem Linked.open {d : Driver} {c : Channel Nat} (h : Linked d c) (halone : d.handles = []) :
    Linked (myviviOpen d) Channel.empty where
  stream := rfl
  allocated := nofun
  listed := nofun
  ready := nofun
  on := nofun
  off _ := ⟨(h.off (h.shut halone)).1, rfl, nofun⟩
  shut _ := rfl

/-! ## `VIDIOC_QBUF`, the timer and `VIDIOC_DQBUF` -/

theorem neg_einval_ne_zero : -EINVAL ≠ 0 := by decide

theorem neg_eagain_ne_zero : -EAGAIN ≠ 0 := by decide

/-- The object of a buffer that is queued through handle `h`. -/
def preparedBuffer (d : Driver) (h o : Nat) (state : VideobufState) : VideobufBuffer :=
  { d.heap o with
    size := d.format.sizeimage
    bytesperline := d.format.bytesperline
    width := d.format.width
    height := d.format.height
    field := .interlaced
    state := state
    via := h }

/-- `VIDIOC_QBUF` fails and changes nothing, or it appends a buffer. -/
theorem videobufQbuf_cases (d : Driver) (h index : Nat) :
    ((videobufQbuf d h index).1 ≠ 0 ∧ (videobufQbuf d h index).2 = d) ∨
      ∃ o, index < VIDEO_MAX_FRAME ∧ d.vidqueue.bufs index = some o ∧
        ((d.heap o).state = .needsInit ∨ (d.heap o).state = .idle) ∧ (d.heap o).map = true ∧
        (videobufQbuf d h index).1 = 0 ∧
        (videobufQbuf d h index).2 =
          { d with
            heap := Function.update d.heap o
              (preparedBuffer d h o (if d.vidqueue.streaming then .queued else .prepared))
            vidqueue := { d.vidqueue with stream := d.vidqueue.stream ++ [o] }
            localQueue := if d.vidqueue.streaming then d.localQueue ++ [o] else d.localQueue } := by
  unfold videobufQbuf
  split
  · exact Or.inl ⟨neg_einval_ne_zero, rfl⟩
  · rename_i hindex
    split
    · exact Or.inl ⟨neg_einval_ne_zero, rfl⟩
    · rename_i o hbuf
      split
      · exact Or.inl ⟨neg_einval_ne_zero, rfl⟩
      · rename_i hstate
        split
        · exact Or.inl ⟨neg_einval_ne_zero, rfl⟩
        · rename_i hmap
          refine Or.inr ⟨o, by omega, hbuf, ?_, by simpa using hmap, rfl, ?_⟩
          · by_contra hneither
            exact hstate (not_or.mp hneither)
          · cases hstreaming : d.vidqueue.streaming with
            | true =>
                simp [bufferPrepare, bufferQueue, Driver.update, hstreaming, preparedBuffer]
            | false => simp [bufferPrepare, Driver.update, hstreaming, preparedBuffer]

/-- **A queued buffer enters** the channel at its back. -/
theorem Linked.qbuf {d : Driver} {c : Channel Nat} (h : Linked d c) (g index : Nat)
    (hopen : d.handles ≠ []) :
    ∃ c', Linked (videobufQbuf d g index).2 c' ∧
      Steps c (channelOps d (.qbuf g index) (videobufQbuf d g index).1) c' := by
  rcases videobufQbuf_cases d g index with ⟨hfail, hsame⟩ |
      ⟨o, hindex, hbuf, hstate, hmap, hok, hnew⟩
  · refine ⟨c, by rwa [hsame], ?_⟩
    simp only [channelOps, accepted, filled, delivered, if_neg hfail]
    exact Steps.nil c
  · have hout : o ∉ c.inside := by
      intro ho
      obtain ⟨hinit, hidle⟩ := h.state_of_inside ho
      exact hstate.elim hinit hidle
    refine ⟨c.enter o hout, ?_, ?_⟩
    · have hne : ∀ p ∈ c.inside, p ≠ o := fun p hp => ne_of_mem_of_not_mem hp hout
      rw [hnew]
      constructor
      · rw [Channel.inside_enter, ← h.stream]
      · exact h.allocated
      · intro p hp
        rw [Channel.inside_enter] at hp
        rcases List.mem_append.mp hp with hp | hp
        · refine ⟨mem_table.mpr (mem_table.mp (h.listed p hp).1), ?_⟩
          simpa [hne p hp] using (h.listed p hp).2
        · obtain rfl := List.mem_singleton.mp hp
          refine ⟨mem_table.mpr ⟨index, hindex, hbuf⟩, ?_⟩
          simpa [preparedBuffer] using hmap
      · intro p hp
        have hp' : p ∈ c.inside := List.mem_append_left _ hp
        simpa [hne p hp'] using h.ready p hp
      · intro hon
        have hon' : d.vidqueue.streaming = true := hon
        obtain ⟨hlocal, hqueued⟩ := h.on hon'
        refine ⟨by simp [hon', hlocal, Channel.enter], fun p hp => ?_⟩
        rcases List.mem_append.mp hp with hp | hp
        · simpa [hne p (Channel.mem_inside_of_waiting hp)] using hqueued p hp
        · simp [List.mem_singleton.mp hp, preparedBuffer, hon']
      · intro hoff
        have hoff' : d.vidqueue.streaming = false := hoff
        obtain ⟨hlocal, hready, hprepared⟩ := h.off hoff'
        refine ⟨by simp [hoff', hlocal], hready, fun p hp => ?_⟩
        rcases List.mem_append.mp hp with hp | hp
        · simpa [hne p (Channel.mem_inside_of_waiting hp)] using hprepared p hp
        · simp [List.mem_singleton.mp hp, preparedBuffer, hoff']
      · exact fun hnone => absurd hnone hopen
    · have hops : channelOps d (.qbuf g index) (videobufQbuf d g index).1 = [.enter o] := by
        simp [channelOps, accepted, filled, delivered, hok, hbuf]
      rw [hops]
      exact (Step.enter c o hout).steps

/-- **A tick** makes the first waiting buffer ready, or it does nothing. -/
theorem Linked.tick {d : Driver} {c : Channel Nat} (h : Linked d c) (waiting : Bool) (r : Int) :
    ∃ c', Linked (myviviTimerFunction d waiting) c' ∧
      Steps c (channelOps d (.tick waiting) r) c' := by
  cases hfill : filledBuffer d waiting with
  | none =>
      refine ⟨c, ?_, ?_⟩
      · simp only [myviviTimerFunction, hfill]
        exact h.of_same ⟨rfl, rfl, rfl, rfl, fun _ => rfl, fun _ hmap => hmap⟩
      · simp only [channelOps, accepted, filled, delivered, hfill]
        exact Steps.nil c
  | some o =>
      obtain ⟨rest, hlocal⟩ : ∃ rest, d.localQueue = o :: rest := by
        unfold filledBuffer at hfill
        split at hfill
        · exact List.head?_eq_some_iff.mp hfill
        · cases hfill
      have hon : d.vidqueue.streaming = true := by
        by_contra hoff
        have hnone := (h.off (by simpa using hoff)).1
        rw [hlocal] at hnone
        cases hnone
      obtain ⟨hwait, hqueued⟩ := h.on hon
      have hwaiting : c.waiting = o :: rest := hwait.symm.trans hlocal
      have hfresh : o ∉ rest := by
        have hnodup := (List.nodup_append.mp c.nodup).2.1
        rw [hwaiting] at hnodup
        exact (List.nodup_cons.mp hnodup).1
      refine ⟨c.finish o rest hwaiting, ?_, ?_⟩
      · simp only [myviviTimerFunction, hfill]
        constructor
        · rw [Channel.inside_finish]
          exact h.stream
        · exact h.allocated
        · intro p hp
          rw [Channel.inside_finish] at hp
          refine ⟨(h.listed p hp).1, ?_⟩
          by_cases hpo : p = o
          · simpa [Driver.update, hpo] using (h.listed o (hpo ▸ hp)).2
          · simpa [Driver.update, hpo] using (h.listed p hp).2
        · intro p hp
          by_cases hpo : p = o
          · simp [Driver.update, hpo]
          · have hready : p ∈ c.ready := by
              rcases List.mem_append.mp hp with hp | hp
              · exact hp
              · exact absurd (List.mem_singleton.mp hp) hpo
            simpa [Driver.update, hpo] using h.ready p hready
        · intro _
          refine ⟨by simp [Driver.update, hlocal, Channel.finish], fun p hp => ?_⟩
          have hpo : p ≠ o := ne_of_mem_of_not_mem hp hfresh
          have hp' : p ∈ c.waiting := hwaiting ▸ List.mem_cons_of_mem _ hp
          simpa [Driver.update, hpo] using hqueued p hp'
        · intro hoff
          have hoff' : d.vidqueue.streaming = false := hoff
          rw [hon] at hoff'
          cases hoff'
        · exact h.shut
      · simp only [channelOps, accepted, filled, delivered, hfill]
        exact (Step.finish c o rest hwaiting).steps

/-- `VIDIOC_DQBUF` fails and changes nothing, or it takes the first buffer. -/
theorem videobufDqbuf_cases (d : Driver) :
    ((videobufDqbuf d).1 ≠ 0 ∧ (videobufDqbuf d).2 = d) ∨
      ∃ o rest, d.vidqueue.streaming = true ∧ d.vidqueue.stream = o :: rest ∧
        ((d.heap o).state = .done ∨ (d.heap o).state = .error) ∧ (videobufDqbuf d).1 = 0 ∧
        (videobufDqbuf d).2 =
          { d with
            heap := Function.update d.heap o { d.heap o with state := .idle }
            vidqueue := { d.vidqueue with stream := rest } } := by
  unfold videobufDqbuf
  split
  · exact Or.inl ⟨neg_einval_ne_zero, rfl⟩
  · rename_i hstreaming
    split
    · exact Or.inl ⟨neg_eagain_ne_zero, rfl⟩
    · rename_i o rest hstream
      split
      · exact Or.inl ⟨neg_eagain_ne_zero, rfl⟩
      · split
        · rename_i hdone
          exact Or.inr ⟨o, rest, by simpa using hstreaming, hstream, hdone, rfl, rfl⟩
        · exact Or.inl ⟨neg_einval_ne_zero, rfl⟩

/-- **A buffer that is handed over** is the first ready one. -/
theorem Linked.dqbuf {d : Driver} {c : Channel Nat} (h : Linked d c) (g : Nat) :
    ∃ c', Linked (videobufDqbuf d).2 c' ∧
      Steps c (channelOps d (.dqbuf g) (videobufDqbuf d).1) c' := by
  rcases videobufDqbuf_cases d with ⟨hfail, hsame⟩ | ⟨o, rest, hon, hstream, hdone, hok, hnew⟩
  · refine ⟨c, by rwa [hsame], ?_⟩
    simp only [channelOps, accepted, filled, delivered, if_neg hfail]
    exact Steps.nil c
  · obtain ⟨hlocal, hqueued⟩ := h.on hon
    obtain ⟨ready, hready, hrest⟩ : ∃ ready, c.ready = o :: ready ∧ rest = ready ++ c.waiting := by
      rcases Channel.front_cases (h.stream.symm.trans hstream) with ⟨-, hwaiting⟩ | hfront
      · have hstate := hqueued o (hwaiting ▸ List.mem_cons_self)
        rw [hstate] at hdone
        simp at hdone
      · exact hfront
    have hinside : c.inside = o :: (c.take o ready hready).inside := c.inside_take hready
    have hfresh : o ∉ (c.take o ready hready).inside := by
      have hnodup : c.inside.Nodup := c.nodup
      rw [hinside] at hnodup
      exact (List.nodup_cons.mp hnodup).1
    have hne : ∀ p ∈ (c.take o ready hready).inside, p ≠ o :=
      fun p hp => ne_of_mem_of_not_mem hp hfresh
    refine ⟨c.take o ready hready, ?_, ?_⟩
    · rw [hnew]
      constructor
      · exact hrest
      · exact h.allocated
      · intro p hp
        obtain ⟨htable, hmap⟩ := h.listed p (hinside ▸ List.mem_cons_of_mem _ hp)
        exact ⟨htable, by simpa [hne p hp] using hmap⟩
      · intro p hp
        have hp' : p ∈ c.ready := hready ▸ List.mem_cons_of_mem _ hp
        simpa [hne p (List.mem_append_left _ hp)] using h.ready p hp'
      · intro _
        refine ⟨hlocal, fun p hp => ?_⟩
        simpa [hne p (List.mem_append_right _ hp)] using hqueued p hp
      · intro hoff
        have hoff' : d.vidqueue.streaming = false := hoff
        rw [hon] at hoff'
        cases hoff'
      · exact h.shut
    · have hops : channelOps d (.dqbuf g) (videobufDqbuf d).1 = [.take o] := by
        simp [channelOps, accepted, filled, delivered, hok, hstream]
      rw [hops]
      exact (Step.take c o ready hready).steps

/-! ## Runs -/

/-- A call that is answered was made on an open file, and its answer is the driver's. -/
theorem reply_of_via {d t : Driver} {h : Nat} {reply : Int × Driver} {r : Int}
    (hstep : d.via h reply = .ok (r, t)) : d.handles ≠ [] ∧ reply = (r, t) := by
  unfold Driver.via at hstep
  split at hstep
  · rename_i hmem
    exact ⟨List.ne_nil_of_mem hmem, Except.ok.inj hstep⟩
  · cases hstep

/-- **Step lemma.**  An event that does not end the capture is an operation on the channel, or
leaves it alone. -/
theorem Linked.step {s t : Driver} {c : Channel Nat} {ev : Event} {r : Int} (h : Linked s c)
    (hends : ¬ Ends ev) (hstep : step s ev = .ok (r, t)) :
    ∃ c', Linked t c' ∧ Steps c (channelOps s ev r) c' := by
  cases ev with
  | «open» => exact absurd trivial hends
  | close g => exact absurd trivial hends
  | streamoff g => exact absurd trivial hends
  | sFmt g f =>
      obtain ⟨-, hreply⟩ := reply_of_via hstep
      have hsame := sameQueue_sFmt s f
      rw [hreply] at hsame
      exact ⟨c, h.of_same hsame, Steps.nil c⟩
  | reqbufs g count avail =>
      obtain ⟨-, hreply⟩ := reply_of_via hstep
      have hlinked := h.reqbufs count avail
      rw [hreply] at hlinked
      exact ⟨c, hlinked, Steps.nil c⟩
  | mmap g offset =>
      obtain ⟨-, hreply⟩ := reply_of_via hstep
      have hsame := sameQueue_videobufMmapMapper s offset
      rw [hreply] at hsame
      exact ⟨c, h.of_same hsame, Steps.nil c⟩
  | qbuf g index =>
      obtain ⟨hopen, hreply⟩ := reply_of_via hstep
      have hlinked := h.qbuf g index hopen
      rwa [hreply] at hlinked
  | dqbuf g =>
      obtain ⟨-, hreply⟩ := reply_of_via hstep
      have hlinked := h.dqbuf g
      rwa [hreply] at hlinked
  | streamon g =>
      obtain ⟨hopen, hreply⟩ := reply_of_via hstep
      have hlinked := h.streamon hopen
      rw [hreply] at hlinked
      exact ⟨c, hlinked, Steps.nil c⟩
  | tick waiting =>
      simp only [Myvivi.step] at hstep
      split at hstep
      · obtain ⟨-, rfl⟩ := Prod.mk.inj (Except.ok.inj hstep)
        exact h.tick waiting r
      · cases hstep

/-- Events that end a capture leave a channel, too. -/
theorem Linked.kept {s t : Driver} {c : Channel Nat} {ev : Event} {r : Int} (h : Linked s c)
    (halone : OpensAlone s ev) (hstep : Myvivi.step s ev = .ok (r, t)) : ∃ c', Linked t c' := by
  by_cases hends : Ends ev
  · cases ev with
    | «open» =>
        obtain ⟨-, rfl⟩ := Prod.mk.inj (Except.ok.inj hstep)
        exact ⟨_, h.open halone⟩
    | close g =>
        obtain ⟨-, hreply⟩ := reply_of_via hstep
        obtain ⟨-, rfl⟩ := Prod.mk.inj hreply
        exact h.close g
    | streamoff g =>
        obtain ⟨-, hreply⟩ := reply_of_via hstep
        obtain ⟨-, rfl⟩ := Prod.mk.inj hreply
        exact h.streamoff
    | _ => exact hends.elim
  · obtain ⟨c', hlinked, -⟩ := h.step hends hstep
    exact ⟨c', hlinked⟩

/-- The driver starts with an empty channel. -/
theorem linked_load : Linked load Channel.empty :=
  ⟨rfl, nofun, nofun, nofun, nofun, fun _ => ⟨rfl, rfl, nofun⟩, fun _ => rfl⟩

/-- Every driver that one opener at a time has reached represents a channel. -/
theorem linked_of_run {es : EventLog} (hrun : IsRun step load es)
    (halone : Along OpensAlone load es) : ∃ c, Linked (lastState load es) c := by
  have hkeep (s : Driver) (ev : Event) (r : Int) (t : Driver) (h : ∃ c, Linked s c)
      (hopens : OpensAlone s ev) (hstep : step s ev = .ok (r, t)) : ∃ c, Linked t c := by
    obtain ⟨c, hc⟩ := h
    exact hc.kept hopens hstep
  exact hrun.keeps_along hkeep halone ⟨_, linked_load⟩

/-- **Run lemma.**  Within a capture the run is one of the channel. -/
theorem Linked.run {s : Driver} {c : Channel Nat} {es : EventLog} (h : Linked s c)
    (hrun : IsRun Myvivi.step s es) (hends : ∀ e ∈ es, ¬ Ends e.input) :
    ∃ c' ops, Linked (lastState s es) c' ∧ Steps c ops c' ∧ entered ops = collect accepted s es ∧
      finished ops = collect filled s es ∧ taken ops = collect delivered s es := by
  induction es generalizing s c with
  | nil => exact ⟨c, [], h, Steps.nil c, rfl, rfl, rfl⟩
  | cons e rest ih =>
      obtain ⟨hstep, htail⟩ := hrun
      obtain ⟨c₁, hlinked, hsteps⟩ := h.step (hends e List.mem_cons_self) hstep
      obtain ⟨c', ops, hend, hrest, hin, hfill, hout⟩ :=
        ih hlinked htail fun x hx => hends x (List.mem_cons_of_mem _ hx)
      obtain ⟨hin₁, hfill₁, hout₁⟩ := channelOps_parts s e.input e.reply
      refine ⟨c', channelOps s e.input e.reply ++ ops, hend, hsteps.append hrest, ?_, ?_, ?_⟩
      · rw [entered_append, hin, hin₁, collect]
      · rw [finished_append, hfill, hfill₁, collect]
      · rw [taken_append, hout, hout₁, collect]

/-- **Frames in queue order.**  Take any run with one opener at a time and any part `ys` of it
in which no capture ends.  The buffers handed over in that part, followed by those still
queued, are those that were queued before it, followed by those queued in it.  If nothing was
queued before, the timer fills the buffers in the order in which they were queued, each once,
and they are handed over in the order in which they were filled. -/
theorem frames_in_queue_order (xs ys : EventLog) (hrun : IsRun step load (xs ++ ys))
    (halone : Along OpensAlone load (xs ++ ys)) (hends : ∀ e ∈ ys, ¬ Ends e.input) :
    let s := lastState load xs
    collect delivered s ys ++ (lastState s ys).vidqueue.stream =
        s.vidqueue.stream ++ collect accepted s ys ∧
      (s.vidqueue.stream = [] →
        collect delivered s ys <+: collect filled s ys ∧
          collect filled s ys <+: collect accepted s ys) := by
  intro s
  obtain ⟨hbefore, hpart⟩ := isRun_append.mp hrun
  obtain ⟨c, hlinked⟩ := linked_of_run hbefore (along_append.mp halone).1
  obtain ⟨c', ops, hend, hsteps, hin, hfill, hout⟩ := hlinked.run hpart hends
  rw [← hin, ← hfill, ← hout, hend.stream, hlinked.stream]
  refine ⟨hsteps.conserved, fun hnone => ?_⟩
  obtain ⟨hready, hwaiting⟩ := List.append_eq_nil_iff.mp hnone
  have htaken := hsteps.ready_conserved
  have hfinished := hsteps.waiting_conserved
  rw [hready, List.nil_append] at htaken
  rw [hwaiting, List.nil_append] at hfinished
  exact ⟨⟨c'.ready, htaken⟩, ⟨c'.waiting, hfinished⟩⟩

/-- Two buffers are queued, filled and handed over, the second entry of the table first. -/
theorem frames_in_queue_order_two :
    let xs := exec step load
      [.open, .sFmt 0 { width := 48#32, height := 32#32, pixelformat := V4L2_PIX_FMT_YUYV },
        .reqbufs 0 2 2, .mmap 0 0#32, .mmap 0 4096#32]
    let s := lastState load xs
    let ys := exec step s
      [.qbuf 0 1, .qbuf 0 0, .streamon 0, .tick true, .dqbuf 0, .tick false, .tick true, .dqbuf 0]
    collect accepted s ys = [1, 0] ∧ collect filled s ys = [1, 0] ∧
      collect delivered s ys <+: collect filled s ys := by
  intro xs s ys
  have hrun : IsRun step load (xs ++ ys) :=
    isRun_append.mpr ⟨isRun_exec load _, isRun_exec s _⟩
  have hall := frames_in_queue_order xs ys hrun (by decide +kernel) (by decide +kernel)
  exact ⟨by decide +kernel, by decide +kernel, (hall.2 (by decide +kernel)).1⟩

end Myvivi
