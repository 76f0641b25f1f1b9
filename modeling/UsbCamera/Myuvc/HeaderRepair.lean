import UsbCamera.Myuvc.Reassembly
import UsbCamera.Myuvc.Requests

/-!
# The header repair

The camera with vendor `0x1B3B` sometimes leaves out the first byte of a picture,
and the handler puts it back: a payload that starts with `D8 FF C4` is moved up by
one and gets an `FF` in front.  The move comes after the payload has been
accounted for, so its last byte is lost to the next packet or falls behind the
buffer, and the three bytes are looked at even where fewer have just arrived.

An `Assembler` says what the frames should be.  It has no memory: it is told which
buffers are queued and which packets arrive, and puts together the payloads that
each buffer takes, every torn one mended.  `Follows` ties the driver to it, and
`frames_assembled` says that the driver delivers the assembler's frames, and writes
nowhere outside its buffers, as long as the repair has nothing to do.
-/

namespace Myuvc

open FaultRun TwoStageFifo

/-! ## What the frames should be -/

/-- The payload is a picture whose first byte is missing. -/
def Packet.Torn (p : Packet) : Prop := p.payload.take 3 = [0xD8, 0xFF, 0xC4]

instance (p : Packet) : Decidable p.Torn := inferInstanceAs (Decidable (_ = _))

/-- The payload with the byte that is missing. -/
def Packet.mended (p : Packet) : List UInt8 := if p.Torn then 0xFF :: p.payload else p.payload

/-- What an assembler is told. -/
inductive Observed
  | queued (i : Nat)
  | requested
  | arrived (p : Packet)
deriving DecidableEq, Repr

/-- What a step shows of itself. -/
def observe (i : Input) (r : Reply) : List Observed :=
  match i with
  | .packet p => [.arrived p]
  | .call (.reqbufs _ _) => [.requested]
  | i => (accepted i r).map .queued

/-- The buffers waiting, the bytes the first of them has been given, whether it has
been given a packet at all, and the frame ids of the last packet and of the last
one that counted. -/
structure Assembler where
  waiting : List Nat := []
  active : Bool := false
  bytes : List UInt8 := []
  fid : Int := 0
  lastFid : Int := -1
deriving DecidableEq, Repr

namespace Assembler

/-- The frame id of a packet: it flips where a picture starts. -/
def nextFid (a : Assembler) (p : Packet) : Int :=
  if startsPicture p then
    if a.lastFid ≠ 0 then a.fid - a.fid % 2 else a.fid - a.fid % 2 + 1
  else a.fid

/-- The first buffer is handed over, cut to its length. -/
def handOver (a : Assembler) : Assembler × List (Nat × List UInt8) :=
  ({ a with waiting := a.waiting.tail, active := false, bytes := [] },
    a.waiting.head?.toList.map fun i => (i, a.bytes.take dwMaxVideoFrameSize))

/-- A valid packet with frame id `f` arrives. -/
def take (a : Assembler) (p : Packet) (f : Int) : Assembler × List (Nat × List UInt8) :=
  if a.waiting = [] then ({ a with fid := f, lastFid := f }, [])
  else if a.active = false ∧ f = a.lastFid then ({ a with fid := f }, [])
  else if f ≠ a.lastFid ∧ a.bytes ≠ [] then handOver { a with fid := f }
  else
    let a := { a with active := true, bytes := a.bytes ++ p.mended, fid := f, lastFid := f }
    if dwMaxVideoFrameSize < a.bytes.length ∨ (p.Eof ∧ a.bytes ≠ []) then handOver a else (a, [])

/-- One thing the assembler is told: its next state, and the frame it hands over, if
it does. -/
def next (a : Assembler) : Observed → Assembler × List (Nat × List UInt8)
  | .queued i => ({ a with waiting := a.waiting ++ [i] }, [])
  | .requested => ({ a with waiting := [], active := false, bytes := [] }, [])
  | .arrived p => if p.Valid then a.take p (a.nextFid p) else (a, [])

/-- The frames handed over, in order. -/
def frames : Assembler → List Observed → List (Nat × List UInt8)
  | _, [] => []
  | a, o :: rest => (a.next o).2 ++ frames (a.next o).1 rest

/-- The state after all that was told. -/
def after (a : Assembler) (os : List Observed) : Assembler := os.foldl (fun a o => (a.next o).1) a

/-- A packet that the first buffer takes. -/
theorem take_of_accepted {a : Assembler} {p : Packet} {f : Int} (hw : a.waiting ≠ [])
    (hstart : a.active = true ∨ f ≠ a.lastFid) (hstay : f = a.lastFid ∨ a.bytes = []) :
    a.take p f =
      let b := { a with active := true, bytes := a.bytes ++ p.mended, fid := f, lastFid := f }
      if dwMaxVideoFrameSize < b.bytes.length ∨ (p.Eof ∧ b.bytes ≠ []) then b.handOver
      else (b, []) := by
  have hnotwait : ¬ (a.active = false ∧ f = a.lastFid) := by
    rintro ⟨hidle, hsame⟩
    rcases hstart with hactive | hnew
    · exact absurd (hactive.symm.trans hidle) (by decide)
    · exact hnew hsame
  have hnotclose : ¬ (f ≠ a.lastFid ∧ a.bytes ≠ []) := by tauto
  rw [take, if_neg hw, if_neg hnotwait, if_neg hnotclose]

/-- What is assembled may be cut anywhere in the packets. -/
theorem frames_append (a : Assembler) (os ps : List Observed) :
    a.frames (os ++ ps) = a.frames os ++ (a.after os).frames ps := by
  induction os generalizing a with
  | nil => rfl
  | cons o rest ih =>
      rw [List.cons_append, frames, frames, ih, List.append_assoc]
      rfl

end Assembler

/-! ## The condition -/

/-- The handler puts the payload of `p` into buffer `j`. -/
def Accepts (d : Driver) (j : Nat) (p : Packet) : Prop :=
  p.Valid ∧ (d.stateOf j = .active ∨ nextFid d p ≠ d.lastFid) ∧
    (nextFid d p = d.lastFid ∨ d.bytesusedOf j = 0)

instance (d : Driver) (j : Nat) (p : Packet) : Decidable (Accepts d j p) :=
  inferInstanceAs (Decidable (_ ∧ _))

/-- A payload that the handler accepts is not torn, and where it has been copied no
torn picture lies. -/
def NothingToRepair (m : Machine) : Input → Prop
  | .packet p => ∀ j ∈ m.drv.queue.irqqueue.entries.head?, Accepts m.drv j p →
      ¬ p.Torn ∧
        ¬ TornAt (copied m.drv.frame (m.drv.queue.buffer j).buf p)
          ((m.drv.queue.buffer j).buf.offset + (m.drv.queue.buffer j).buf.bytesused)
  | _ => True

instance (m : Machine) : (i : Input) → Decidable (NothingToRepair m i)
  | .packet p => inferInstanceAs (Decidable (∀ j ∈ m.drv.queue.irqqueue.entries.head?,
      Accepts m.drv j p → _ ∧ _))
  | .call _ | .irq _ _ | .resubmit _ => inferInstanceAs (Decidable True)

/-! ## The driver follows the assembler -/

/-- The driver of the repaired camera. -/
structure Steady (m : Machine) : Prop extends Sized m where
  vendor : m.drv.idVendor = 0x1B3B

/-- **Step lemma.**  The invariant is kept by every step. -/
theorem Steady.kept {v : Version} {m m' : Machine} {i : Input} {r : Reply} (h : Steady m)
    (hstep : step v m i = .ok (r, m')) : Steady m' :=
  ⟨h.toSized.kept hstep, (step_idVendor h.cursor hstep).trans h.vendor⟩

/-- **The invariant.**  The driver and the assembler `a` have the same buffers waiting
and the same frame ids, and the first buffer holds the assembler's bytes. -/
structure Follows (m : Machine) (a : Assembler) : Prop extends Steady m where
  waiting : m.drv.queue.irqqueue.entries = a.waiting
  fid : m.drv.fid = a.fid
  lastFid : m.drv.lastFid = a.lastFid
  head : ∀ i rest, a.waiting = i :: rest →
    m.drv.contents i = a.bytes ∧ (m.drv.stateOf i = .active ↔ a.active = true)
  none : a.waiting = [] → a.bytes = [] ∧ a.active = false

/-- The driver and the assembler agree on the frame id. -/
theorem Follows.nextFid_eq {m : Machine} {a : Assembler} (h : Follows m a) (p : Packet) :
    nextFid m.drv p = a.nextFid p := by
  rw [nextFid, if_pos h.vendor, h.fid, h.lastFid, Assembler.nextFid]

/-- They agree after module load. -/
theorem follows_load : Follows (Machine.load 0x1B3B) {} where
  toSized := sized_load _
  vendor := rfl
  waiting := rfl
  fid := rfl
  lastFid := rfl
  head := fun i rest hw => by cases hw
  none := fun _ => ⟨rfl, rfl⟩

/-- The buffers that become `DONE` in a step, with the bytes they hold. -/
def doneFrames (d d' : Driver) : List (Nat × List UInt8) :=
  (becameDone d d').map fun j => (j, d'.contents j)

/-- A step leads the driver to where the assembler goes, and hands over the same. -/
def Keeps (m m' : Machine) (outcome : Assembler × List (Nat × List UInt8)) : Prop :=
  Follows m' outcome.1 ∧ doneFrames m.drv m'.drv = outcome.2

/-- What one observed packet does to both. -/
theorem Keeps.told {m m' : Machine} {a : Assembler} {o : Observed} (h : Keeps m m' (a.next o)) :
    Follows m' (a.after [o]) ∧ doneFrames m.drv m'.drv = a.frames [o] := by
  refine ⟨h.1, ?_⟩
  rw [h.2, Assembler.frames, Assembler.frames, List.append_nil]

/-- A step that makes no buffer `DONE` completes no frame. -/
theorem doneFrames_eq_nil {d d' : Driver}
    (h : ∀ i < d'.queue.count, d'.stateOf i = .done → d.stateOf i = .done) :
    doneFrames d d' = [] := by
  rw [doneFrames, becameDone_eq_nil h, List.map_nil]

/-- Where a buffer waits, the queues are linked. -/
theorem Follows.represents {m : Machine} {a : Assembler} {j : Nat} {rest : List Nat}
    (h : Follows m a) (hw : a.waiting = j :: rest) :
    ∃ c, Represents m.drv.queue c ∧ c.waiting = j :: rest := by
  have hentries := h.waiting.trans hw
  cases hirq : m.drv.queue.irqqueue with
  | none =>
      rw [hirq] at hentries
      cases hentries
  | some irq =>
      rw [hirq] at hentries
      obtain ⟨c, hlink, hcw⟩ := h.laidOut.coherent.linked hirq
      exact ⟨c, hlink.queues, hcw.trans hentries⟩

/-- The buffers waiting, the frame memory and the first buffer are as before. -/
structure SameHead (a : Assembler) (m m' : Machine) : Prop where
  irq : m'.drv.queue.irqqueue = m.drv.queue.irqqueue
  mem : m'.drv.queue.mem = m.drv.queue.mem
  head : ∀ i rest, a.waiting = i :: rest →
    (m'.drv.queue.buffer i).buf = (m.drv.queue.buffer i).buf ∧
      m'.drv.stateOf i = m.drv.stateOf i

/-- The head of the queue is part of the queue. -/
theorem SameHead.of_queue {a : Assembler} {m m' : Machine}
    (h : m'.drv.queue = m.drv.queue) : SameHead a m m' where
  irq := by rw [h]
  mem := by rw [h]
  head := fun i rest _ => by
    rw [Driver.stateOf, Driver.stateOf, h]
    exact ⟨rfl, rfl⟩

/-- A step that leaves the queue alone completes no frame. -/
theorem doneFrames_of_queue {d d' : Driver} (h : d'.queue = d.queue) : doneFrames d d' = [] := by
  refine doneFrames_eq_nil fun i _ hi => ?_
  rwa [Driver.stateOf, h] at hi

/-- The buffers stay; the frame ids may change. -/
theorem Follows.of_same {m m' : Machine} {a : Assembler} (h : Follows m a) (hsteady : Steady m')
    (hsame : SameHead a m m') :
    Follows m' { a with fid := m'.drv.fid, lastFid := m'.drv.lastFid } where
  toSteady := hsteady
  waiting := by rw [hsame.irq]; exact h.waiting
  fid := rfl
  lastFid := rfl
  head := fun i rest hw => by
    obtain ⟨hbuf, hstate⟩ := hsame.head i rest hw
    rw [contents_congr hsame.mem hbuf, hstate]
    exact h.head i rest hw
  none := h.none

/-- Queueing a buffer. -/
theorem Follows.of_queued {m : Machine} {a : Assembler} {j : Nat} {main irq : List Nat}
    (h : Follows m a) (hout : j ∉ irq) (hirq : m.drv.queue.irqqueue = some irq)
    (hsteady : Steady ⟨queued m.drv j main irq, .none⟩) :
    Keeps m ⟨queued m.drv j main irq, .none⟩ (a.next (.queued j)) := by
  have hw : irq = a.waiting := by
    have hentries := h.waiting
    rw [hirq] at hentries
    exact hentries
  have hentries : (queued m.drv j main irq).queue.irqqueue.entries = a.waiting ++ [j] :=
    congrArg (· ++ [j]) hw
  refine ⟨⟨hsteady, hentries, h.fid, h.lastFid, ?_, ?_⟩, ?_⟩
  · intro k rest hk
    cases hwait : a.waiting with
    | nil =>
        obtain ⟨hbytes, hactive⟩ := h.none hwait
        have hkj : k = j := by
          simp only [Assembler.next, hwait, List.nil_append, List.cons.injEq] at hk
          exact hk.1.symm
        subst hkj
        have hempty : (queued m.drv k main irq).contents k = [] := by
          rw [← List.length_eq_zero_iff, length_contents, queued_bytesused]
        rw [hempty, queued_state]
        simp [Assembler.next, hbytes, hactive]
    | cons i is =>
        have hki : k = i := by
          simp only [Assembler.next, hwait, List.cons_append, List.cons.injEq] at hk
          exact hk.1.symm
        subst hki
        have hkj : k ≠ j := by
          rintro rfl
          exact hout (by simp [hw, hwait])
        have hother := queued_other m.drv main irq hkj
        have hsame : (queued m.drv j main irq).contents k = m.drv.contents k :=
          contents_congr rfl (by rw [hother])
        simp only [Driver.stateOf, hother, hsame]
        exact h.head k is hwait
  · intro hnil
    simp [Assembler.next] at hnil
  · rw [doneFrames, becameDone_queued, List.map_nil]
    rfl

/-- A request for buffers leaves none waiting. -/
theorem Follows.of_request {v : Version} {m m' : Machine} {a : Assembler} {count : UInt32}
    {alloc : Nat → Option (Nat → UInt8)} {r : Reply} (h : Follows m a)
    (hstep : step v m (.call (.reqbufs count alloc)) = .ok (r, m')) :
    Keeps m m' (a.next .requested) := by
  have hsteady := h.toSteady.kept hstep
  have hids := (step_unless_packet (fun p hp => by cases hp) hstep).1
  have hreq : Input.IsReqbufs (.call (.reqbufs count alloc)) := trivial
  have hempty := h.laidOut.coherent.irqqueue_requested hreq hstep
  have hnone : ∀ i < m'.drv.queue.count, m'.drv.stateOf i ≠ .done := by
    by_cases hgave : GaveBuffers (.call (.reqbufs count alloc)) r
    · have hlink := linked_of_gaveBuffers hgave hstep
      intro i hi
      have hidle := (hlink.queues.idle i hi).mpr (by simp [Channel.empty, Channel.inside])
      rw [Driver.stateOf, hidle]
      decide
    · have hclear := h.laidOut.coherent.cleared hreq hgave hstep
      intro i hi
      rw [hclear.count] at hi
      exact absurd hi (Nat.not_lt_zero i)
  refine ⟨⟨hsteady, hempty, hids.fid.trans h.fid, hids.lastFid.trans h.lastFid, ?_, ?_⟩, ?_⟩
  · intro i rest hw
    cases hw
  · exact fun _ => ⟨rfl, rfl⟩
  · exact doneFrames_eq_nil fun i hi hdone => absurd hdone (hnone i hi)

/-- **A frame is handed over.**  The first buffer `j` has become `DONE`, and its bytes
are those that the assembler `b` is about to hand over. -/
theorem Follows.handOver {m m' : Machine} {a b : Assembler} {j : Nat} {rest : List Nat}
    (h : Follows m a) (hw : a.waiting = j :: rest) (hsteady : Steady m')
    (ht : Touches m.drv m'.drv j) (hdone : m'.drv.stateOf j = .done)
    (hb : b.waiting = j :: rest) (hbytes : m'.drv.contents j = b.bytes.take dwMaxVideoFrameSize)
    (hfid : m'.drv.fid = b.fid) (hlast : m'.drv.lastFid = b.lastFid) :
    Keeps m m' b.handOver := by
  obtain ⟨c, hqueues, hcw⟩ := h.represents hw
  have hirq : m'.drv.queue.irqqueue = some rest := by
    rcases ht.outcome with ⟨hactive, -⟩ | ⟨-, hirq⟩
    · exact absurd (hactive.symm.trans hdone) (by decide)
    · rw [hirq, hqueues.irq, hcw, ListHead.del_some, List.erase_cons_head]
  refine ⟨⟨hsteady, ?_, hfid, hlast, ?_, ?_⟩, ?_⟩
  · rw [hirq]
    simp [Assembler.handOver, hb]
  · intro k rest' hk
    have hk' : rest = k :: rest' := by simpa [Assembler.handOver, hb] using hk
    have hkr : k ∈ rest := by simp [hk']
    have hnd := c.nodup.of_append_right
    rw [hcw] at hnd
    have hkj : k ≠ j := by
      rintro rfl
      exact (List.nodup_cons.mp hnd).1 hkr
    obtain ⟨hqueued, hused⟩ := hqueues.tail j rest hcw k hkr
    have hempty : m'.drv.contents k = [] := by
      rw [← List.length_eq_zero_iff, length_contents, Driver.bytesusedOf, ht.other k hkj]
      exact hused
    rw [hempty, Driver.stateOf, ht.other k hkj, hqueued]
    simp [Assembler.handOver]
  · exact fun _ => ⟨rfl, rfl⟩
  · rw [doneFrames, hqueues.becameDone_of_touches hcw ht hdone]
    simp [Assembler.handOver, hb, hbytes]

/-- The room that is left in the first buffer. -/
theorem Follows.used {m : Machine} {a : Assembler} {j : Nat} {rest : List Nat} (h : Follows m a)
    (hw : a.waiting = j :: rest) :
    (m.drv.queue.buffer j).buf.length = dwMaxVideoFrameSize ∧
      (m.drv.queue.buffer j).buf.bytesused = a.bytes.length ∧
      a.bytes.length ≤ dwMaxVideoFrameSize := by
  obtain ⟨c, hqueues, hcw⟩ := h.represents hw
  have hj : j < m.drv.queue.count :=
    hqueues.below j (List.mem_append_right _ (by simp [hcw]))
  have hlen : m.drv.bytesusedOf j = a.bytes.length := by
    rw [← (h.head j rest hw).1, length_contents]
  have hfits := hqueues.fits j hj
  rw [h.full j hj] at hfits
  exact ⟨h.full j hj, hlen, hlen ▸ hfits⟩

/-- What a packet that is not torn leaves in the first buffer. -/
theorem Follows.contents_of_stores {m : Machine} {a : Assembler} {j : Nat} {rest : List Nat}
    {p : Packet} {d₁ : Driver} (h : Follows m a) (hw : a.waiting = j :: rest)
    (hs : Stores m.drv d₁ j p) (htorn : ¬ p.Torn)
    (hplain : CopiesPlainly m.drv.idVendor m.drv.frame (m.drv.queue.buffer j).buf p) :
    d₁.contents j = (a.bytes ++ p.mended).take dwMaxVideoFrameSize := by
  obtain ⟨hlength, hused, hle⟩ := h.used hw
  rw [hs.contents hplain, (h.head j rest hw).1, storedBytes, hlength, hused, List.take_append,
    List.take_of_length_le hle, Packet.mended, if_neg htorn]

/-- The handler and the assembler agree on when a frame is complete. -/
theorem Follows.complete_iff {m : Machine} {a : Assembler} {j : Nat} {rest : List Nat} {p : Packet}
    {n : Nat} (h : Follows m a) (hw : a.waiting = j :: rest) (htorn : ¬ p.Torn)
    (hn : n = ((a.bytes ++ p.mended).take dwMaxVideoFrameSize).length) :
    frameComplete (m.drv.queue.buffer j).buf p n ↔
      dwMaxVideoFrameSize < (a.bytes ++ p.mended).length ∨
        (p.Eof ∧ a.bytes ++ p.mended ≠ []) := by
  obtain ⟨hlength, hused, hle⟩ := h.used hw
  have hpay : p.payload.length = p.len - p.src 0 := by simp [Packet.payload, Packet.len]
  have hmended : p.mended = p.payload := if_neg htorn
  have hpos : 0 < dwMaxVideoFrameSize := by decide
  have hempty : n ≠ 0 ↔ a.bytes ++ p.mended ≠ [] := by
    rw [hn, ← List.length_pos_iff, List.length_take]
    omega
  rw [frameComplete, hlength, hused, hempty, ← hpay, List.length_append, hmended]
  refine or_congr_left ?_
  omega

/-- **A packet that is stored.** -/
theorem Follows.of_stores {m m' : Machine} {a : Assembler} {j : Nat} {rest : List Nat} {p : Packet}
    {d₁ : Driver} (h : Follows m a) (hw : a.waiting = j :: rest) (hsteady : Steady m')
    (hs : Stores m.drv d₁ j p) (htorn : ¬ p.Torn)
    (hplain : CopiesPlainly m.drv.idVendor m.drv.frame (m.drv.queue.buffer j).buf p)
    (hend : (frameComplete (m.drv.queue.buffer j).buf p (d₁.bytesusedOf j) ∧
        m'.drv = finishBuffer d₁ j) ∨
      (¬ frameComplete (m.drv.queue.buffer j).buf p (d₁.bytesusedOf j) ∧ m'.drv = d₁)) :
    Keeps m m' (a.take p (a.nextFid p)) := by
  have hstart := hs.1
  have hstay := hs.2.1
  obtain ⟨ht₁, hactive, hirq₁⟩ := hs.touches
  obtain ⟨-, hused, -⟩ := h.used hw
  have hcontents := h.contents_of_stores hw hs htorn hplain
  have hn : d₁.bytesusedOf j = ((a.bytes ++ p.mended).take dwMaxVideoFrameSize).length := by
    rw [← hcontents, length_contents]
  have hcomplete := h.complete_iff hw htorn hn
  rw [h.nextFid_eq, h.lastFid] at hstart hstay
  rw [(h.head j rest hw).2] at hstart
  rw [Driver.bytesusedOf, hused, List.length_eq_zero_iff] at hstay
  rw [Assembler.take_of_accepted (by simp [hw]) hstart hstay]
  have hfid : d₁.fid = a.nextFid p := hs.fid.trans (h.nextFid_eq p)
  have hlast : d₁.lastFid = a.nextFid p := hs.lastFid.trans (h.nextFid_eq p)
  rcases hend with ⟨hdone, hd⟩ | ⟨hopen, hd⟩
  · dsimp only
    rw [if_pos (hcomplete.mp hdone)]
    refine h.handOver hw hsteady (hd ▸ ht₁.finish hirq₁) ?_ hw ?_ ?_ ?_
    · rw [hd, Driver.stateOf, finishBuffer_buffer]
    · rw [hd, ← hcontents]
      exact contents_congr rfl (by rw [finishBuffer_buffer])
    · rw [hd]
      exact hfid
    · rw [hd]
      exact hlast
  · dsimp only
    rw [if_neg (mt hcomplete.mpr hopen)]
    have hshort : (a.bytes ++ p.mended).length ≤ dwMaxVideoFrameSize :=
      Nat.le_of_not_lt fun hlong => hopen (hcomplete.mpr (Or.inl hlong))
    refine ⟨⟨hsteady, ?_, by rw [hd]; exact hfid, by rw [hd]; exact hlast, ?_, ?_⟩, ?_⟩
    · rw [hd, hirq₁]
      exact h.waiting
    · intro k rest' hk
      obtain ⟨rfl, -⟩ := List.cons.inj (hw.symm.trans hk)
      rw [hd, hcontents, List.take_of_length_le hshort, hactive]
      exact ⟨rfl, by simp⟩
    · intro hnil
      exact absurd (hw.symm.trans hnil) (by simp)
    · rw [doneFrames, becameDone_of_active (hd ▸ ht₁) (hd ▸ hactive), List.map_nil]

/-- A packet that starts a new frame closes the buffer of the old one. -/
theorem Follows.of_close {m m' : Machine} {a : Assembler} {j : Nat} {rest : List Nat} {p : Packet}
    (h : Follows m a) (hw : a.waiting = j :: rest) (hsteady : Steady m')
    (hnew : nextFid m.drv p ≠ m.drv.lastFid) (hheld : m.drv.bytesusedOf j ≠ 0)
    (hd : m'.drv = finishBuffer { m.drv with fid := nextFid m.drv p } j) :
    Keeps m m' (a.take p (a.nextFid p)) := by
  obtain ⟨-, hused, hle⟩ := h.used hw
  have hclose : a.nextFid p ≠ a.lastFid ∧ a.bytes ≠ [] := by
    rw [← h.nextFid_eq, ← h.lastFid]
    refine ⟨hnew, fun hnil => hheld ?_⟩
    rw [Driver.bytesusedOf, hused, hnil]
    rfl
  have hwaits : a.waiting ≠ [] := by simp [hw]
  have hnotwait : ¬ (a.active = false ∧ a.nextFid p = a.lastFid) := fun hsame => hclose.1 hsame.2
  rw [Assembler.take, if_neg hwaits, if_neg hnotwait, if_pos hclose]
  refine h.handOver hw hsteady (hd ▸ closed_touches m.drv j _) ?_ hw ?_ ?_ ?_
  · rw [hd, Driver.stateOf, finishBuffer_buffer]
  · rw [List.take_of_length_le hle, ← (h.head j rest hw).1, hd]
    exact contents_congr rfl (by rw [finishBuffer_buffer])
  · rw [hd]
    exact h.nextFid_eq p
  · rw [hd]
    exact h.lastFid

/-- **One packet.** -/
theorem Follows.of_packet {v : Version} {m m' : Machine} {a : Assembler} {p : Packet} {r : Reply}
    (h : Follows m a) (hplain : NothingToRepair m (.packet p))
    (hstep : step v m (.packet p) = .ok (r, m')) : Keeps m m' (a.next (.arrived p)) := by
  have hsteady := h.toSteady.kept hstep
  rcases step_packet_cases h.cursor hstep with ⟨hinv, hd⟩ | ⟨hvalid, hirq, hd⟩ |
      ⟨j, rest, hvalid, hirq, hcase⟩
  · have hqueue : m'.drv.queue = m.drv.queue := by rw [hd]
    have hsame := h.of_same hsteady (SameHead.of_queue hqueue)
    rw [hd, h.fid, h.lastFid] at hsame
    rw [Assembler.next, if_neg hinv]
    exact ⟨hsame, doneFrames_of_queue hqueue⟩
  · have hw : a.waiting = [] := by
      rw [← h.waiting, hirq]
      rfl
    have hqueue : m'.drv.queue = m.drv.queue := by rw [hd]
    have hsame := h.of_same hsteady (SameHead.of_queue hqueue)
    rw [hd, h.nextFid_eq] at hsame
    rw [Assembler.next, if_pos hvalid, Assembler.take, if_pos hw]
    exact ⟨hsame, doneFrames_of_queue hqueue⟩
  · have hw : a.waiting = j :: rest := by
      rw [← h.waiting, hirq]
      rfl
    rw [Assembler.next, if_pos hvalid]
    rcases hcase with ⟨hwait, hfid, hd⟩ | ⟨hnew, hheld, hd⟩ | ⟨d₁, hs, hend⟩
    · have hwaits : a.active = false ∧ a.nextFid p = a.lastFid := by
        rw [← h.nextFid_eq, ← h.lastFid, ← Bool.not_eq_true, ← (h.head j rest hw).2]
        exact ⟨hwait, hfid⟩
      have hqueue : m'.drv.queue = m.drv.queue := by rw [hd]
      have hsame := h.of_same hsteady (SameHead.of_queue hqueue)
      rw [hd, h.nextFid_eq, h.lastFid] at hsame
      rw [Assembler.take, if_neg (by simp [hw]), if_pos hwaits]
      exact ⟨hsame, doneFrames_of_queue hqueue⟩
    · exact h.of_close hw hsteady hnew hheld hd
    · have haccepts : Accepts m.drv j p := ⟨hvalid, hs.1, hs.2.1⟩
      obtain ⟨htorn, hclean⟩ := hplain j (by rw [hirq]; rfl) haccepts
      exact h.of_stores hw hsteady hs htorn (Or.inr hclean) hend

/-- What is neither a packet nor a request for buffers queues a buffer, or tells the
assembler nothing. -/
theorem observe_other {i : Input} (r : Reply) (hno : ¬ i.IsReqbufs) (hp : ∀ p, i ≠ .packet p) :
    observe i r = (accepted i r).map .queued := by
  unfold observe
  split
  · rename_i p
    exact absurd rfl (hp p)
  · exact absurd trivial hno
  · rfl

/-- A step that tells the assembler nothing. -/
theorem Follows.of_silent {m m' : Machine} {a : Assembler} (h : Follows m a)
    (hsteady : Steady m') (hids : SameIds m.drv m'.drv) (hhead : SameHead a m m') :
    Follows m' a := by
  have hsame := h.of_same hsteady hhead
  rw [hids.fid, hids.lastFid, h.fid, h.lastFid] at hsame
  exact hsame

/-- **Steps without a packet** that do not ask for new buffers. -/
theorem Follows.of_other {v : Version} {m m' : Machine} {a : Assembler} {i : Input} {r : Reply}
    (h : Follows m a) (hno : ¬ i.IsReqbufs) (hp : ∀ p, i ≠ .packet p)
    (hstep : step v m i = .ok (r, m')) :
    Follows m' (a.after (observe i r)) ∧ doneFrames m.drv m'.drv = a.frames (observe i r) := by
  have hsteady := h.toSteady.kept hstep
  have hids := (step_unless_packet hp hstep).1
  rw [observe_other r hno hp]
  rcases step_effect h.cursor hstep with ⟨hreq, -⟩ |
      ⟨b, main, irq, rfl, rfl, hb, hidle, hmain, hirq, rfl⟩ |
      ⟨j, rest, rfl, rfl, hmain, hdone, rfl⟩ | ⟨p, _, _, rfl, -⟩ | ⟨-, hacc, -, -, hs⟩
  · exact absurd hreq hno
  · have hout : b.index ∉ irq := by
      obtain ⟨c, hlink, rfl⟩ := h.laidOut.coherent.linked hirq
      have hinside := (hlink.queues.idle _ hb).mp hidle
      exact fun hmem => hinside (Channel.mem_inside_of_waiting hmem)
    have haccepted : accepted (.call (.qbuf b)) (.ret 0) = [b.index] := by simp [accepted]
    rw [haccepted]
    exact (h.of_queued hout hirq hsteady).told
  · refine ⟨h.of_silent hsteady hids ⟨rfl, rfl, fun k rest' hw => ?_⟩, ?_⟩
    · obtain ⟨c, hqueues, hcw⟩ := h.represents hw
      have hkj : k ≠ j := by
        rintro rfl
        rcases hqueues.head k rest' hcw with hs | hs <;> simp [hs] at hdone
      simp only [Driver.stateOf, dequeued_other m.drv rest hkj, and_self]
    · rw [doneFrames, becameDone_dequeued hdone]
      rfl
  · exact absurd rfl (hp p)
  · rw [hacc]
    refine ⟨h.of_silent hsteady hids ⟨hs.irq, hs.mem, fun k _ _ => ⟨hs.buf k, hs.state k⟩⟩, ?_⟩
    exact doneFrames_eq_nil fun k _ hk => (hs.state k).symm.trans hk

/-- **One step.** -/
theorem Follows.step {v : Version} {m m' : Machine} {a : Assembler} {i : Input} {r : Reply}
    (h : Follows m a) (hplain : NothingToRepair m i) (hstep : step v m i = .ok (r, m')) :
    Follows m' (a.after (observe i r)) ∧ doneFrames m.drv m'.drv = a.frames (observe i r) := by
  by_cases hreq : i.IsReqbufs
  · obtain ⟨count, alloc, rfl⟩ := hreq.eq
    exact (h.of_request hstep).told
  · by_cases hpacket : ∃ p, i = .packet p
    · obtain ⟨p, rfl⟩ := hpacket
      exact (h.of_packet hplain hstep).told
    · exact h.of_other hreq (fun p hp => hpacket ⟨p, hp⟩) hstep

/-- What a run shows of itself. -/
def observed (es : Log) : List Observed := es.flatMap fun e => observe e.input e.reply

/-- The buffers that become `DONE` in a run, with the bytes they hold then. -/
def runFrames : Machine → Log → List (Nat × List UInt8)
  | _, [] => []
  | m, e :: rest => doneFrames m.drv e.state.drv ++ runFrames e.state rest

/-- **A whole run.** -/
theorem Follows.run {v : Version} {m : Machine} {a : Assembler} {es : Log} (h : Follows m a)
    (hrun : IsRun (Myuvc.step v) m es) (hplain : Along NothingToRepair m es) :
    Follows (lastState m es) (a.after (observed es)) ∧
      runFrames m es = a.frames (observed es) := by
  induction es generalizing m a with
  | nil => exact ⟨h, rfl⟩
  | cons e rest ih =>
      obtain ⟨hstep, htail⟩ := hrun
      obtain ⟨hnext, hhead⟩ := h.step hplain.1 hstep
      obtain ⟨hend, hrest⟩ := ih hnext htail hplain.2
      have hobserved : observed (e :: rest) = observe e.input e.reply ++ observed rest := rfl
      rw [hobserved, Assembler.frames_append, runFrames, hhead, hrest]
      refine ⟨?_, rfl⟩
      rw [Assembler.after, List.foldl_append]
      exact hend

/-! ## Where the handler writes -/

/-- A step writes to no byte outside `[m.offset, m.offset + length)` of the first
waiting buffer.  A request for new buffers is not spoken of: it brings new memory. -/
def WritesInside (m : Machine) (i : Input) (m' : Machine) : Prop :=
  ¬ i.IsReqbufs → ∀ x,
    (∀ j rest, m.drv.queue.irqqueue = some (j :: rest) →
      x < (m.drv.queue.buffer j).buf.offset ∨
        (m.drv.queue.buffer j).buf.offset + (m.drv.queue.buffer j).buf.length ≤ x) →
    m'.drv.frame x = m.drv.frame x

/-- A payload that is only copied stays inside its buffer. -/
theorem Stores.frame_inside {d d₁ : Driver} {j : Nat} {p : Packet} (h : Stores d d₁ j p)
    (hplain : CopiesPlainly d.idVendor d.frame (d.queue.buffer j).buf p) {x : Nat}
    (hx : x < (d.queue.buffer j).buf.offset ∨
      (d.queue.buffer j).buf.offset + (d.queue.buffer j).buf.length ≤ x) :
    d₁.frame x = d.frame x := by
  obtain ⟨-, -, hstore⟩ := h
  obtain ⟨mem, mem', t, s, hmem, hroom, rfl, -, -, hbytes⟩ := storePayload_spec hstore
  simp only [setState, Queue.setBuffer_same, Queue.setBuffer_mem] at hmem hroom hbytes
  simp only [Driver.frame, hmem] at hplain ⊢
  have hlen := length_storedBytes_le (d.queue.buffer j).buf p
  rw [hbytes hplain]
  exact ByteStore.write_outside _ _ _ _ (by omega)

/-- Where there is nothing to repair, the handler writes inside its buffer. -/
theorem Follows.writesInside {v : Version} {m m' : Machine} {a : Assembler} {i : Input} {r : Reply}
    (h : Follows m a) (hplain : NothingToRepair m i) (hstep : Myuvc.step v m i = .ok (r, m')) :
    WritesInside m i m' := by
  intro hreq x hx
  by_cases hpacket : ∃ p, i = .packet p
  · obtain ⟨p, rfl⟩ := hpacket
    rcases step_packet_cases h.cursor hstep with ⟨-, hd⟩ | ⟨-, -, hd⟩ |
        ⟨j, rest, hvalid, hirq, hcase⟩
    · rw [hd]
    · rw [hd]
      rfl
    · have hstores (d₁ : Driver) (hs : Stores m.drv d₁ j p) : d₁.frame x = m.drv.frame x := by
        obtain ⟨-, hclean⟩ := hplain j (by rw [hirq]; rfl) ⟨hvalid, hs.1, hs.2.1⟩
        exact hs.frame_inside (Or.inr hclean) (hx j rest hirq)
      rcases hcase with ⟨-, -, hd⟩ | ⟨-, -, hd⟩ | ⟨d₁, hs, ⟨-, hd⟩ | ⟨-, hd⟩⟩
      · rw [hd]
        rfl
      · rw [hd]
        rfl
      · rw [hd]
        exact hstores d₁ hs
      · rw [hd]
        exact hstores d₁ hs
  · rcases step_effect h.cursor hstep with ⟨hr, -⟩ | ⟨_, _, _, -, -, -, -, -, -, rfl⟩ |
        ⟨_, _, -, -, -, -, rfl⟩ | ⟨p, _, _, rfl, -⟩ | ⟨-, -, -, -, hs⟩
    · exact absurd hr hreq
    · rfl
    · rfl
    · exact absurd ⟨p, rfl⟩ hpacket
    · rw [Driver.frame, Driver.frame, hs.mem]

/-- **The header repair where it has nothing to do.**  Take any run of the repaired
camera from module load, with any frame memory and any packets, in which no accepted
payload is torn and none comes to lie so that a torn picture is seen.  The frames it
delivers are those of the assembler, which is told of no memory, and no byte outside
the buffers is written. -/
theorem frames_assembled {v : Version} {es : Log}
    (hrun : IsRun (step v) (Machine.load 0x1B3B) es)
    (hplain : Along NothingToRepair (Machine.load 0x1B3B) es) :
    runFrames (Machine.load 0x1B3B) es = Assembler.frames {} (observed es) ∧
    ∀ xs e ys, es = xs ++ e :: ys →
      WritesInside (lastState (Machine.load 0x1B3B) xs) e.input e.state := by
  refine ⟨(follows_load.run hrun hplain).2, ?_⟩
  rintro xs e ys rfl
  obtain ⟨hpast, -⟩ := isRun_append.mp hrun
  obtain ⟨hpastPlain, hnow, -⟩ := along_append.mp hplain
  exact (follows_load.run hpast hpastPlain).1.writesInside hnow hrun.step_at

/-- A torn picture of four bytes: the driver puts the missing byte back and loses the
last one. -/
theorem torn_picture_loses_byte :
    IsRun (step .th10) (Machine.load 0x1B3B) repairedLog ∧
    runFrames (Machine.load 0x1B3B) repairedLog = [(0, [0xFF, 0xD8, 0xFF, 0xC4])] ∧
    Assembler.frames {} (observed repairedLog) = [(0, [0xFF, 0xD8, 0xFF, 0xC4, 0x01])] :=
  ⟨isRun_exec _ _, by decide +kernel, by decide +kernel⟩

/-- A picture in two packets, of which nothing is missing. -/
def wholeLog : Log :=
  exec (step .th10) (Machine.load 0x1B3B)
    [.call (.sFmt captureFormat), .call (.reqbufs 2 fun _ => some fun _ => 0),
      .call (.qbuf (queueRequest 0)), .call (.streamon plainEnv), .irq 1 0,
      .packet ⟨0, [12, 0, 0, 0, 0, 0, 0, 0, 0, 0, 0, 0, 0xFF, 0xD8, 0xFF, 0x01], true⟩,
      .packet ⟨0, [2, 2, 0x02], true⟩]

/-- That picture is the frame, as the assembler says. -/
theorem frames_assembled_whole :
    runFrames (Machine.load 0x1B3B) wholeLog = [(0, [0xFF, 0xD8, 0xFF, 0x01, 0x02])] ∧
    runFrames (Machine.load 0x1B3B) wholeLog = Assembler.frames {} (observed wholeLog) :=
  ⟨by decide +kernel, (frames_assembled (isRun_exec _ _) (by decide +kernel)).1⟩

end Myuvc
