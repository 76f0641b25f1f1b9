import UsbCamera.Myuvc.FetchedFrames

/-!
# Whole frames

The frames that `myuvc_video_complete` delivers are stretches of the packet stream, but they
need not be the frames that the camera sent.  A packet that closes the buffer of the frame
before it is dropped, a frame longer than a buffer is cut, and a frame without a byte is joined
to the next one.

This file says when none of this happens.  A camera keeps to the protocol when every frame has
another frame id than the one before it, its last packet and no other has the end-of-frame bit,
and it carries at least one byte and not more than a buffer takes.  `Conforms` is this condition
on the stream of valid packets, and `cutFrames` cuts the stream behind its end-of-frame bits.
As long as a buffer waits whenever a valid packet arrives, there is then one delivery for each
frame, with all its payloads and nothing else (`whole_frames_delivered`).

The invariant is `Holds`: the buffer at the head of `irqqueue` has exactly the packets of the
frame under way.
-/

namespace Myuvc

open FaultRun TwoStageFifo

/-- The frames that are complete in a stream, when the packets `cur` of a frame have come
before it. -/
def cutFrames (cur : List Packet) : List Packet → List (List Packet)
  | [] => []
  | p :: ps => if p.Eof then (cur ++ [p]) :: cutFrames [] ps else cutFrames (cur ++ [p]) ps

/-- The packets of the frame that is under way at the end of a stream. -/
def unfinished (cur : List Packet) : List Packet → List Packet
  | [] => cur
  | p :: ps => unfinished (if p.Eof then [] else cur ++ [p]) ps

/-- **The protocol.**  A stream in which the frame id changes exactly from one frame to the
next, and in which every frame has some bytes and at most `size`.  The last id seen is `last`,
and the packets of the frame under way are `cur`. -/
def Conforms (size : Nat) : Int → List Packet → List Packet → Prop
  | _, _, [] => True
  | last, cur, p :: ps =>
      ((p.fidBit : Int) = last ↔ cur ≠ []) ∧ (payloads (cur ++ [p])).length ≤ size ∧
        (p.Eof → payloads (cur ++ [p]) ≠ []) ∧
        Conforms size p.fidBit (if p.Eof then [] else cur ++ [p]) ps

instance Conforms.decidable (size : Nat) :
    (last : Int) → (cur ps : List Packet) → Decidable (Conforms size last cur ps)
  | _, _, [] => .isTrue trivial
  | last, cur, p :: ps =>
      have := Conforms.decidable size p.fidBit (if p.Eof then [] else cur ++ [p]) ps
      inferInstanceAs (Decidable (((p.fidBit : Int) = last ↔ cur ≠ []) ∧
        (payloads (cur ++ [p])).length ≤ size ∧ (p.Eof → payloads (cur ++ [p]) ≠ []) ∧
        Conforms size p.fidBit (if p.Eof then [] else cur ++ [p]) ps))

/-- A buffer waits for the packet of the input, if it is a valid one. -/
def Served (m : Machine) (i : Input) : Prop :=
  validOf i ≠ [] → m.drv.queue.irqqueue ≠ some []

instance (m : Machine) (i : Input) : Decidable (Served m i) := by
  unfold Served
  infer_instance

theorem cutFrames_append (cur xs ys : List Packet) :
    cutFrames cur (xs ++ ys) = cutFrames cur xs ++ cutFrames (unfinished cur xs) ys := by
  induction xs generalizing cur with
  | nil => rfl
  | cons p ps ih =>
      simp only [List.cons_append, cutFrames, unfinished]
      split
      · rw [ih, List.cons_append]
      · exact ih _

/-- The complete frames and the one under way are the whole stream. -/
theorem cutFrames_flatten (cur ps : List Packet) :
    (cutFrames cur ps).flatten ++ unfinished cur ps = cur ++ ps := by
  induction ps generalizing cur with
  | nil => simp [cutFrames, unfinished]
  | cons p ps ih =>
      simp only [cutFrames, unfinished]
      split
      · rw [List.flatten_cons, List.append_assoc, ih]
        simp
      · rw [ih]
        simp

/-- The payloads of several frames are those of their packets. -/
theorem payloads_flatten (frames : List (List Packet)) :
    payloads frames.flatten = (frames.map payloads).flatten := by
  induction frames with
  | nil => rfl
  | cons f rest ih => rw [List.flatten_cons, payloads_append, ih, List.map_cons, List.flatten_cons]

/-- **The invariant.**  The buffer at the head of `irqqueue` holds the packets `cur` of the frame
under way, whole, and there is one if the frame has begun. -/
structure Holds (m : Machine) (size : Nat) (cur : List Packet) : Prop where
  linked : ∃ c, Linked m c
  vendor : m.drv.idVendor ≠ 0x1B3B
  room : ∀ i < m.drv.queue.count, size ≤ (m.drv.queue.buffer i).buf.length
  head : ∀ i rest, m.drv.queue.irqqueue = some (i :: rest) → Filling m.drv i [] 0 cur
  begun : cur ≠ [] → m.drv.queue.irqqueue ≠ some []

/-- The first waiting buffer is neither idle nor done, and it is one of those there are. -/
theorem Linked.first_waiting {m : Machine} {c : Channel Nat} (h : Linked m c) {i : Nat}
    {rest : List Nat} (hirq : m.drv.queue.irqqueue = some (i :: rest)) :
    c.waiting = i :: rest ∧ i < m.drv.queue.count ∧
      (m.drv.stateOf i = .queued ∨ m.drv.stateOf i = .active) := by
  have hw : c.waiting = i :: rest := Option.some.inj (h.queues.irq.symm.trans hirq)
  refine ⟨hw, h.queues.below i (Channel.mem_inside_of_waiting (by simp [hw])), ?_⟩
  exact h.queues.head i rest hw

/-- It is none that has been taken or finished. -/
theorem Linked.first_ne {m : Machine} {c : Channel Nat} (h : Linked m c) {i j : Nat}
    {rest : List Nat} (hirq : m.drv.queue.irqqueue = some (i :: rest))
    (hj : m.drv.stateOf j = .idle ∨ m.drv.stateOf j = .done) : i ≠ j := by
  rintro rfl
  obtain ⟨-, -, hi⟩ := h.first_waiting hirq
  rcases hi with hi | hi <;> rcases hj with hj | hj <;> exact absurd (hi.symm.trans hj) (by decide)

/-- What every step but a request keeps of the invariant. -/
theorem Holds.frame {v : Version} {m m' : Machine} {size : Nat} {cur cur' : List Packet}
    {i : Input} {r : Reply} (h : Holds m size cur) (hno : ¬ i.IsReqbufs)
    (hstep : step v m i = .ok (r, m'))
    (hhead : ∀ i rest, m'.drv.queue.irqqueue = some (i :: rest) → Filling m'.drv i [] 0 cur')
    (hbegun : cur' ≠ [] → m'.drv.queue.irqqueue ≠ some []) : Holds m' size cur' := by
  obtain ⟨c, hlink⟩ := h.linked
  obtain ⟨_, c', -, hlink', -, -⟩ := step_refines hlink hno hstep
  have hshape := step_sameShape hlink.cursor hno hstep
  refine ⟨⟨c', hlink'⟩, ?_, ?_, hhead, hbegun⟩
  · rw [step_idVendor hlink.cursor hstep]
    exact h.vendor
  · intro k hk
    rw [hshape.length k]
    exact h.room k (hshape.count ▸ hk)

/-- An invalid packet is passed over. -/
theorem Holds.of_invalid {v : Version} {m m' : Machine} {size : Nat} {cur : List Packet}
    {p : Packet} {r : Reply} (h : Holds m size cur) (hinvalid : ¬ p.Valid)
    (hstep : step v m (.packet p) = .ok (r, m')) :
    Holds m' size cur ∧ m'.drv.lastFid = m.drv.lastFid ∧ becameDone m.drv m'.drv = [] := by
  obtain ⟨c, hlink⟩ := h.linked
  rcases step_packet_cases hlink.cursor hstep with ⟨-, hd⟩ | ⟨hvalid, -⟩ | ⟨_, _, hvalid, -⟩
  · refine ⟨h.frame id hstep ?_ ?_, by rw [hd], ?_⟩
    · rw [hd]
      exact h.head
    · rw [hd]
      exact h.begun
    · rw [hd]
      exact becameDone_eq_nil fun _ _ hk => hk
  · exact absurd hvalid hinvalid
  · exact absurd hvalid hinvalid

/-- Queueing a buffer leaves the first one alone, or makes an empty one the first. -/
theorem Holds.head_of_queued {m : Machine} {size j : Nat} {cur : List Packet}
    {main irq : List Nat} (h : Holds m size cur) (hidle : m.drv.stateOf j = .idle)
    (hirq : m.drv.queue.irqqueue = some irq) {k : Nat} {rest : List Nat}
    (hk : irq ++ [j] = k :: rest) : Filling (queued m.drv j main irq) k [] 0 cur := by
  obtain ⟨c, hlink⟩ := h.linked
  cases irq with
  | nil =>
      -- No frame is under way while no buffer waits, so the new one starts empty.
      have hcur : cur = [] := by
        by_contra hne
        exact h.begun hne hirq
      obtain ⟨rfl, -⟩ := List.cons.inj hk
      rw [hcur]
      exact Filling.fresh 0 (queued_bytesused _ _ _ _)
  | cons k' ks =>
      obtain ⟨rfl, -⟩ := List.cons.inj hk
      have hne : k' ≠ j := hlink.first_ne hirq (Or.inl hidle)
      have hsame := queued_other m.drv main (k' :: ks) hne
      exact (h.head k' ks hirq).of_same rfl (by rw [hsame])
        (by simp only [Driver.stateOf, hsame]) rfl

/-- **Steps without a packet** deliver nothing and keep what the first buffer holds. -/
theorem Holds.of_other {v : Version} {m m' : Machine} {size : Nat} {cur : List Packet}
    {i : Input} {r : Reply} (h : Holds m size cur) (hno : ¬ i.IsReqbufs)
    (hp : ∀ p, i ≠ .packet p) (hstep : step v m i = .ok (r, m')) :
    Holds m' size cur ∧ m'.drv.lastFid = m.drv.lastFid ∧ becameDone m.drv m'.drv = [] := by
  obtain ⟨c, hlink⟩ := h.linked
  have hfid := (step_unless_packet hp hstep).1.lastFid
  rcases step_effect hlink.cursor hstep with ⟨hreq, -⟩ |
      ⟨b, main, irq, rfl, rfl, -, hidle, hmain, hirq, rfl⟩ |
      ⟨j, rest, rfl, rfl, hmain, hdone, rfl⟩ | ⟨p, _, _, rfl, -⟩ | ⟨-, -, -, -, hs⟩
  · exact absurd hreq hno
  · refine ⟨h.frame hno hstep ?_ ?_, hfid, becameDone_queued _ _ _ _⟩
    · intro k rest hk
      exact h.head_of_queued hidle hirq (Option.some.inj hk)
    · intro _ hk
      have hlist : irq ++ [b.index] = [] := Option.some.inj hk
      simp at hlist
  · refine ⟨h.frame hno hstep ?_ h.begun, hfid, becameDone_dequeued hdone⟩
    intro k ks hk
    have hne : k ≠ j := hlink.first_ne hk (Or.inr hdone)
    have hsame := dequeued_other m.drv rest hne
    exact (h.head k ks hk).of_same rfl (by rw [hsame]) (by simp only [Driver.stateOf, hsame]) rfl
  · exact absurd rfl (hp p)
  · refine ⟨h.frame hno hstep ?_ ?_, hfid,
      becameDone_eq_nil fun k _ hk => (hs.state k).symm.trans hk⟩
    · intro k ks hk
      rw [hs.irq] at hk
      exact (h.head k ks hk).of_same hs.mem (hs.buf k) (hs.state k) hfid
    · rw [hs.irq]
      exact h.begun

/-- **A packet that fits** is stored whole, and completes its frame exactly if it has the
end-of-frame bit. -/
theorem Holds.stored_whole {m : Machine} {size j : Nat} {cur : List Packet} {rest : List Nat}
    {p : Packet} {d₁ : Driver} (h : Holds m size cur)
    (hirq : m.drv.queue.irqqueue = some (j :: rest)) (hs : Stores m.drv d₁ j p)
    (hfits : (payloads (cur ++ [p])).length ≤ size)
    (hbytes : p.Eof → payloads (cur ++ [p]) ≠ []) :
    d₁.contents j = payloads (cur ++ [p]) ∧
      (frameComplete (m.drv.queue.buffer j).buf p (d₁.bytesusedOf j) ↔ p.Eof) := by
  obtain ⟨c, hlink⟩ := h.linked
  obtain ⟨-, hj, -⟩ := hlink.first_waiting hirq
  have hfill := h.head j rest hirq
  have hroom := h.room j hj
  have hstored : d₁.contents j = payloads (cur ++ [p]) := by
    rw [hfill.bytes_of_stores hs h.vendor (hlink.queues.fits j hj), List.nil_append,
      List.take_of_length_le (hfits.trans hroom)]
  have hused : (payloads cur).length = (m.drv.queue.buffer j).buf.bytesused := by
    have hlen := length_contents m.drv j
    rw [hfill.whole, List.nil_append] at hlen
    exact hlen
  have hpay : p.payload.length = p.len - p.src 0 := by simp [Packet.payload, Packet.len]
  have htotal : (payloads cur).length + p.payload.length ≤ size := by
    simpa [payloads] using hfits
  refine ⟨hstored, ?_⟩
  unfold frameComplete
  constructor
  · rintro (hlong | ⟨heof, -⟩)
    · omega
    · exact heof
  · intro heof
    refine Or.inr ⟨heof, ?_⟩
    rw [← length_contents, hstored]
    exact fun hzero => hbytes heof (List.length_eq_zero_iff.mp hzero)

/-- **A packet of a conforming stream is stored.**  It does not close a buffer, since the id
changes only when the buffer is empty, and it is not skipped, since the id changes when no
frame is under way.  It completes the frame exactly if it has the end-of-frame bit. -/
theorem Holds.stores {v : Version} {m m' : Machine} {size : Nat} {cur : List Packet} {p : Packet}
    {r : Reply} (h : Holds m size cur) (hvalid : p.Valid)
    (hserved : m.drv.queue.irqqueue ≠ some [])
    (hfid : (p.fidBit : Int) = m.drv.lastFid ↔ cur ≠ [])
    (hfits : (payloads (cur ++ [p])).length ≤ size)
    (hbytes : p.Eof → payloads (cur ++ [p]) ≠ [])
    (hstep : step v m (.packet p) = .ok (r, m')) :
    ∃ j rest d₁, m.drv.queue.irqqueue = some (j :: rest) ∧ Stores m.drv d₁ j p ∧
      Filling d₁ j [] 0 (cur ++ [p]) ∧ (p.Eof → m'.drv = finishBuffer d₁ j) ∧
      (¬ p.Eof → m'.drv = d₁) := by
  obtain ⟨c, hlink⟩ := h.linked
  have hnext := nextFid_eq_fidBit p h.vendor
  rcases step_packet_cases hlink.cursor hstep with ⟨hinvalid, -⟩ | ⟨-, hirq, -⟩ |
      ⟨j, rest, -, hirq, ⟨hwait, hsame, -⟩ | ⟨hnew, hused, -⟩ | ⟨d₁, hs, hend⟩⟩
  · exact absurd hvalid hinvalid
  · exact absurd hirq hserved
  · have hnil := (h.head j rest hirq).waits hwait
    exact absurd hnil (hfid.mp (hnext ▸ hsame))
  · have hnil : cur = [] := by
      by_contra hne
      exact hnew (hnext.trans (hfid.mpr hne))
    have hempty := (h.head j rest hirq).whole
    rw [hnil] at hempty
    rw [← length_contents, hempty] at hused
    exact absurd rfl hused
  · have hfill := h.head j rest hirq
    obtain ⟨hstored, hcomplete⟩ := h.stored_whole hirq hs hfits hbytes
    refine ⟨j, rest, d₁, hirq, hs, ?_, ?_, ?_⟩
    · exact ⟨hstored, fun hne => absurd hs.touches.2.1 hne,
        fun q hq hne => by
          rw [hs.lastFid, hnext]
          exact (hfill.fid_of_stores hs h.vendor).2 q hq hne,
        fun hne => absurd rfl hne⟩
    · intro heof
      rcases hend with ⟨-, hd⟩ | ⟨hopen, -⟩
      · exact hd
      · exact absurd (hcomplete.mpr heof) hopen
    · intro heof
      rcases hend with ⟨hclosed, -⟩ | ⟨-, hd⟩
      · exact absurd (hcomplete.mp hclosed) heof
      · exact hd

/-- After the first buffer has been finished, the next one waits empty. -/
theorem Linked.next_empty {m : Machine} {c : Channel Nat} (h : Linked m c) {d' : Driver}
    {j : Nat} {rest : List Nat} (hirq : m.drv.queue.irqqueue = some (j :: rest))
    (ht : Touches m.drv d' j) (hdone : d'.stateOf j = .done) {k : Nat} {ks : List Nat}
    (hk : d'.queue.irqqueue = some (k :: ks)) : d'.bytesusedOf k = 0 := by
  obtain ⟨hw, ⟨hactive, -⟩ | ⟨-, hrep⟩⟩ := h.queues.of_touched hirq ht
  · exact absurd (hactive.symm.trans hdone) (by decide)
  have hrest : rest = k :: ks := Option.some.inj (hrep.irq.symm.trans hk)
  have hnd := c.nodup.of_append_right
  rw [hw, hrest] at hnd
  have hkj : k ≠ j := by
    rintro rfl
    simp at hnd
  rw [Driver.bytesusedOf, ht.other k hkj]
  exact (h.queues.tail j rest hw k (by simp [hrest])).2

/-- **The last packet of a frame** delivers the frame whole, and leaves nothing of it behind. -/
theorem Holds.of_last {v : Version} {m m' : Machine} {size : Nat} {cur : List Packet} {p : Packet}
    {r : Reply} {d₁ : Driver} {j : Nat} {rest : List Nat} (h : Holds m size cur)
    (hstep : step v m (.packet p) = .ok (r, m'))
    (hirq : m.drv.queue.irqqueue = some (j :: rest)) (hs : Stores m.drv d₁ j p)
    (hfill : Filling d₁ j [] 0 (cur ++ [p])) (hd : m'.drv = finishBuffer d₁ j) :
    Holds m' size [] ∧
      (becameDone m.drv m'.drv).map m'.drv.contents = [payloads (cur ++ [p])] := by
  obtain ⟨c, hlink⟩ := h.linked
  obtain ⟨ht₁, -, hirq₁⟩ := hs.touches
  have ht : Touches m.drv m'.drv j := hd ▸ ht₁.finish hirq₁
  have hdone : m'.drv.stateOf j = .done := by
    rw [hd, Driver.stateOf, finishBuffer_buffer]
  have hcontents : m'.drv.contents j = d₁.contents j := by
    rw [hd]
    exact contents_congr rfl (by rw [finishBuffer_buffer])
  constructor
  · refine h.frame id hstep ?_ (fun hne => absurd rfl hne)
    intro k ks hk
    exact Filling.fresh 0 (hlink.next_empty hirq ht hdone hk)
  · rw [hlink.queues.becameDone_of_touches (hlink.first_waiting hirq).1 ht hdone,
      List.map_singleton, hcontents, hfill.whole, List.nil_append]

/-- **A packet inside a frame** delivers nothing and is added to what the buffer holds. -/
theorem Holds.of_inner {v : Version} {m m' : Machine} {size : Nat} {cur : List Packet}
    {p : Packet} {r : Reply} {j : Nat} {rest : List Nat} (h : Holds m size cur)
    (hstep : step v m (.packet p) = .ok (r, m'))
    (hirq : m.drv.queue.irqqueue = some (j :: rest)) (hs : Stores m.drv m'.drv j p)
    (hfill : Filling m'.drv j [] 0 (cur ++ [p])) :
    Holds m' size (cur ++ [p]) ∧ becameDone m.drv m'.drv = [] := by
  obtain ⟨ht, hactive, hirq'⟩ := hs.touches
  rw [hirq] at hirq'
  refine ⟨h.frame id hstep ?_ ?_, becameDone_of_active ht hactive⟩
  · intro k ks hk
    obtain ⟨rfl, -⟩ := List.cons.inj (Option.some.inj (hirq'.symm.trans hk))
    exact hfill
  · intro _ hnil
    rw [hirq'] at hnil
    cases hnil

/-- **Step lemma.**  A step of a served, conforming run delivers the frame that its packet
completes, and nothing when it completes none. -/
theorem Holds.next {v : Version} {m m' : Machine} {size : Nat} {cur rest : List Packet}
    {i : Input} {r : Reply} (h : Holds m size cur) (hno : ¬ i.IsReqbufs) (hserved : Served m i)
    (hconf : Conforms size m.drv.lastFid cur (validOf i ++ rest))
    (hstep : step v m i = .ok (r, m')) :
    Holds m' size (unfinished cur (validOf i)) ∧
      Conforms size m'.drv.lastFid (unfinished cur (validOf i)) rest ∧
      (becameDone m.drv m'.drv).map m'.drv.contents =
        (cutFrames cur (validOf i)).map payloads := by
  by_cases hnone : validOf i = []
  · have hquiet : Holds m' size cur ∧ m'.drv.lastFid = m.drv.lastFid ∧
        becameDone m.drv m'.drv = [] := by
      by_cases hpacket : ∃ p, i = .packet p
      · obtain ⟨p, rfl⟩ := hpacket
        refine h.of_invalid (fun hvalid => ?_) hstep
        rw [validOf, if_pos hvalid] at hnone
        cases hnone
      · exact h.of_other hno (fun p hi => hpacket ⟨p, hi⟩) hstep
    obtain ⟨hkept, hfid, hdone⟩ := hquiet
    rw [hnone] at hconf ⊢
    rw [hdone, hfid]
    exact ⟨hkept, hconf, rfl⟩
  · obtain ⟨p, rfl, hvalid⟩ : ∃ p, i = .packet p ∧ p.Valid := by
      cases i with
      | packet p =>
          refine ⟨p, rfl, ?_⟩
          by_contra hinvalid
          exact hnone (if_neg hinvalid)
      | call _ => exact absurd rfl hnone
      | irq _ _ => exact absurd rfl hnone
      | resubmit _ => exact absurd rfl hnone
    have hone : validOf (.packet p) = [p] := if_pos hvalid
    rw [hone] at hconf ⊢
    obtain ⟨hfid, hfits, hbytes, hrest⟩ := hconf
    obtain ⟨j, js, d₁, hirq, hs, hfill, hlast, hinner⟩ :=
      h.stores hvalid (hserved hnone) hfid hfits hbytes hstep
    have hlastFid : d₁.lastFid = p.fidBit := hs.lastFid.trans (nextFid_eq_fidBit p h.vendor)
    by_cases heof : p.Eof
    · obtain ⟨hholds, hdone⟩ := h.of_last hstep hirq hs hfill (hlast heof)
      have hkept : m'.drv.lastFid = p.fidBit := by
        rw [hlast heof]
        exact hlastFid
      rw [if_pos heof] at hrest
      simp only [unfinished, cutFrames, if_pos heof]
      exact ⟨hholds, hkept ▸ hrest, hdone⟩
    · have hd := hinner heof
      subst hd
      obtain ⟨hholds, hdone⟩ := h.of_inner hstep hirq hs hfill
      rw [if_neg heof] at hrest
      simp only [unfinished, cutFrames, if_neg heof]
      exact ⟨hholds, hlastFid ▸ hrest, by rw [hdone]; rfl⟩

theorem deliveriesOf_bytes (d d' : Driver) (seen : Nat) :
    (deliveriesOf d d' seen).map Delivery.bytes = (becameDone d d').map d'.contents := by
  rw [deliveriesOf, List.map_map]
  rfl

/-- **Run lemma.**  A served, conforming run delivers the frames of its stream. -/
theorem Holds.run {v : Version} {m : Machine} {size : Nat} {cur : List Packet} {es : Log}
    (h : Holds m size cur) (hrun : IsRun (step v) m es)
    (hno : ∀ e ∈ es, ¬ e.input.IsReqbufs) (hserved : Along Served m es)
    (hconf : Conforms size m.drv.lastFid cur (validStream es)) (seen : Nat) :
    (deliveries m seen es).map Delivery.bytes = (cutFrames cur (validStream es)).map payloads := by
  induction es generalizing m cur seen with
  | nil => rfl
  | cons e rest ih =>
      obtain ⟨hstep, htail⟩ := hrun
      have hstream : validStream (e :: rest) = validOf e.input ++ validStream rest := rfl
      rw [hstream] at hconf ⊢
      obtain ⟨hholds, hconf', hdone⟩ :=
        h.next (hno e List.mem_cons_self) hserved.1 hconf hstep
      rw [deliveries, List.map_append, deliveriesOf_bytes, hdone, cutFrames_append,
        List.map_append]
      congr 1
      exact ih hholds htail (fun x hx => hno x (List.mem_cons_of_mem _ hx)) hserved.2 hconf' _

/-- A request that gave buffers leaves nothing in them, and each takes a whole picture. -/
theorem holds_of_reqbufs {v : Version} {m m' : Machine} {count : UInt32}
    {alloc : Nat → Option (Nat → UInt8)} {n : Nat} (hn : 1 ≤ n)
    (hvendor : m'.drv.idVendor ≠ 0x1B3B)
    (hreq : step v m (.call (.reqbufs count alloc)) = .ok (.ret n, m')) :
    Holds m' m'.drv.format.pix.sizeimage [] := by
  have hlink := linked_of_reqbufs hn hreq
  obtain ⟨d', rfl, -, hcall⟩ := step_call hreq
  obtain ⟨mem, -, -, rfl⟩ := vidiocReqbufs_gave hn hcall
  refine ⟨⟨_, hlink⟩, hvendor, ?_, ?_, fun hne => absurd rfl hne⟩
  · intro i hi
    have hi' : i < n := hi
    simp [initQueue, hi', initBuffer, freeBuffers_format]
  · intro i rest hirq
    have hnil : some ([] : List Nat) = some (i :: rest) := hlink.queues.irq.symm.trans hirq
    cases hnil

/-- Two frames of one and two packets, and the beginning of a third.  The second buffer is
queued while the first frame is under way, and the first one is taken and queued again. -/
def wholeFramesLog : Log :=
  exec (step .th10) (Machine.withBuffers 0 2)
    [.call (.qbuf (queueRequest 0)), .call (.streamon plainEnv), .irq 1 0,
      .packet ⟨0, [2, 1, 0xAA], true⟩, .resubmit 0, .call (.qbuf (queueRequest 1)), .irq 1 0,
      .packet ⟨0, [2, 0x41, 0x11], true⟩, .packet ⟨0, [2, 3, 0xBB, 0xCC], true⟩,
      .packet ⟨0, [2, 2, 0xDD], true⟩, .resubmit 0, .call .dqbuf,
      .call (.qbuf (queueRequest 0)), .irq 1 0, .packet ⟨0, [2, 1, 0xEE], true⟩, .resubmit 0]

end Myuvc
