import UsbCamera.Myuvc.Reassembly
import UsbCamera.Myuvc.Requests

/-!
# The first packet of a frame

A packet whose frame id differs from `last_fid` starts a new frame.  When the
current buffer holds bytes of the old one, the handler closes it, takes the next
buffer, and goes on to the next packet: the packet that showed the change is
gone.  Only because `last_fid` is not set on this path does the second packet of
the frame open the next buffer.

So a frame that follows without an end-of-frame mark loses the payload of its first
packet, unless there is none.  `first_payload_kept_iff` says that this is the only
way: where every such packet is empty, each buffer is opened by the first packet of
its frame that found a buffer waiting and carried bytes.
-/

namespace Myuvc

open FaultRun TwoStageFifo

/-! ## What is to be kept -/

/-- The packet has a new frame id, and buffer `j` holds bytes already. -/
def Closes (d : Driver) (j : Nat) (p : Packet) : Prop :=
  p.Valid ∧ nextFid d p ≠ d.lastFid ∧ d.bytesusedOf j ≠ 0

instance (d : Driver) (j : Nat) (p : Packet) : Decidable (Closes d j p) :=
  inferInstanceAs (Decidable (_ ∧ _))

/-- A packet that closes the first buffer while a second one waits: the first becomes
`DONE`, and the second holds the payload, cut to its length. -/
def SwitchStores (m : Machine) (i : Input) (m' : Machine) : Prop :=
  ∀ p j k rest, i = .packet p → m.drv.queue.irqqueue = some (j :: k :: rest) →
    Closes m.drv j p →
    m'.drv.stateOf j = .done ∧
      m'.drv.contents k = p.payload.take (m.drv.queue.buffer k).buf.length

/-- A buffer that can take `p` is queued: the first one or, if `p` closes that, one
behind it. -/
def Awaited (d : Driver) (p : Packet) : Prop :=
  ∃ j rest, d.queue.irqqueue = some (j :: rest) ∧ (Closes d j p → rest ≠ [])

/-- The step puts the first bytes into buffer `j`. -/
def Opens (m m' : Machine) (j : Nat) : Prop :=
  m.drv.bytesusedOf j = 0 ∧ m'.drv.bytesusedOf j ≠ 0

/-- A valid packet has the frame id of the valid packet before it. -/
def Continues (m : Machine) : Input → Prop
  | .packet p => p.Valid → nextFid m.drv p = m.drv.fid
  | _ => True

/-- **No first payload is lost.**  `switched` speaks of the packets that close a buffer.
In `opened`, the packet `p` arrives at `u` while a buffer is waiting for it, all valid
packets behind it up to `e` belong to its frame, and `e` opens buffer `j`: then `p` has
no payload, or it is itself the packet that opens the buffer, and as long as the buffer
is not queued again or replaced, its contents begin with the payload as it was
stored. -/
structure FirstPayloadsKept (m : Machine) (es : Log) : Prop where
  switched : ∀ xs e ys, es = xs ++ e :: ys → SwitchStores (lastState m xs) e.input e.state
  opened : ∀ us u ws ys zs e p j, es = us ++ ((ws ++ [e]) ++ (ys ++ zs)) →
    (ws ++ [e]).head? = some u → u.input = .packet p → p.Valid →
    Awaited (lastState m us).drv p → Along Continues u.state (ws ++ [e]).tail →
    Opens (lastState m (us ++ ws)) e.state j →
    (∀ x ∈ ys, ¬ x.input.IsReqbufs) → j ∉ acceptedAlong ys →
    p.payload = [] ∨
      (ws = [] ∧ e.state.drv.contents j <+: (lastState e.state ys).drv.contents j ∧
        (CopiesPlainly (lastState m us).drv.idVendor (lastState m us).drv.frame
            ((lastState m us).drv.queue.buffer j).buf p →
          e.state.drv.contents j =
            p.payload.take ((lastState m us).drv.queue.buffer j).buf.length))

/-- A packet that closes a buffer while a second one waits has no payload. -/
def SwitchesEmpty (m : Machine) : Input → Prop
  | .packet p =>
      match m.drv.queue.irqqueue with
      | some (j :: _ :: _) => Closes m.drv j p → p.payload = []
      | _ => True
  | _ => True

instance (m : Machine) (i : Input) : Decidable (SwitchesEmpty m i) := by
  unfold SwitchesEmpty
  split
  · split <;> infer_instance
  · infer_instance

/-! ## The switch -/

/-- The first two waiting buffers are different ones of the table, and the second is
empty. -/
theorem Sized.second {m : Machine} {j k : Nat} {rest : List Nat} (h : Sized m)
    (hirq : m.drv.queue.irqqueue = some (j :: k :: rest)) :
    k ≠ j ∧ k < m.drv.queue.count ∧ m.drv.bytesusedOf k = 0 := by
  obtain ⟨c, hlink, hw⟩ := h.laidOut.coherent.linked hirq
  have hnd := c.nodup.of_append_right
  rw [hw] at hnd
  refine ⟨?_, h.laidOut.coherent.waiting_lt hirq (by simp),
    (hlink.queues.tail j (k :: rest) hw k List.mem_cons_self).2⟩
  rintro rfl
  exact (List.nodup_cons.mp hnd).1 List.mem_cons_self

/-- A packet that closes the first buffer stores nothing. -/
theorem step_of_closes {v : Version} {m m' : Machine} {p : Packet} {r : Reply} {j : Nat}
    {rest : List Nat} (hcur : CursorOk m) (hirq : m.drv.queue.irqqueue = some (j :: rest))
    (hcloses : Closes m.drv j p) (hstep : step v m (.packet p) = .ok (r, m')) :
    m'.drv = finishBuffer { m.drv with fid := nextFid m.drv p } j := by
  obtain ⟨hvalid, hnew, hheld⟩ := hcloses
  rcases step_packet_cases hcur hstep with ⟨hinv, -⟩ | ⟨-, hnone, -⟩ | ⟨i, rest', -, hirq', hcase⟩
  · exact absurd hvalid hinv
  · rw [hirq] at hnone
    cases hnone
  · obtain ⟨rfl, -⟩ := List.cons.inj (Option.some.inj (hirq.symm.trans hirq'))
    rcases hcase with ⟨-, hsame, -⟩ | ⟨-, -, hd⟩ | ⟨d₁, hs, -⟩
    · exact absurd hsame hnew
    · exact hd
    · rcases hs.2.1 with hsame | hempty
      · exact absurd hsame hnew
      · exact absurd hempty hheld

/-- **One switch.**  It keeps the payload exactly when there is none. -/
theorem Sized.switchStores_iff {v : Version} {m m' : Machine} {i : Input} {r : Reply}
    (h : Sized m) (hstep : step v m i = .ok (r, m')) :
    SwitchStores m i m' ↔ SwitchesEmpty m i := by
  cases i with
  | packet p =>
      dsimp only [SwitchesEmpty]
      split
      · rename_i j k rest hirq
        have hsecond := h.second hirq
        have hpos : 0 < (m.drv.queue.buffer k).buf.length := by
          rw [h.full k hsecond.2.1]
          decide
        have hstored (hcloses : Closes m.drv j p) :
            m'.drv.stateOf j = .done ∧ m'.drv.contents k = [] := by
          rw [step_of_closes h.cursor hirq hcloses hstep]
          refine ⟨by rw [Driver.stateOf, finishBuffer_buffer], ?_⟩
          rw [← List.length_eq_zero_iff, length_contents, Driver.bytesusedOf,
            finishBuffer_other _ hsecond.1]
          exact hsecond.2.2
        constructor
        · intro hswitch hcloses
          have hkept := (hswitch p j k rest rfl hirq hcloses).2
          rw [(hstored hcloses).2, eq_comm, List.take_eq_nil_iff] at hkept
          exact hkept.resolve_left hpos.ne'
        · intro hempty p' j' k' rest' hp hirq' hcloses
          cases hp
          rw [hirq] at hirq'
          cases hirq'
          rw [hempty hcloses, List.take_nil]
          exact hstored hcloses
      · rename_i hshort
        refine iff_of_true (fun p' j k rest hp hirq => ?_) trivial
        exact absurd hirq (hshort j k rest)
  | _ => exact iff_of_true (fun p j k rest hp => by cases hp) trivial

/-! ## Between the first packet and the opening of a buffer -/

/-- The last valid packet has left its frame id, and a current buffer that has been
given a packet holds bytes.  In this state no packet of the same frame can open a
buffer. -/
structure Settled (m : Machine) : Prop where
  fid : m.drv.fid = m.drv.lastFid
  head : ∀ j rest, m.drv.queue.irqqueue = some (j :: rest) → m.drv.stateOf j = .active →
    m.drv.bytesusedOf j ≠ 0

/-- Behind a buffer that has been finished, the next one has been given no packet. -/
theorem Sized.next_not_active {m m' : Machine} {j : Nat} {rest : List Nat} (h : Sized m)
    (hirq : m.drv.queue.irqqueue = some (j :: rest)) (ht : Touches m.drv m'.drv j)
    (hdone : m'.drv.stateOf j = .done) {k : Nat} {rest' : List Nat}
    (hirq' : m'.drv.queue.irqqueue = some (k :: rest')) : m'.drv.stateOf k ≠ .active := by
  obtain ⟨c, hlink, hw⟩ := h.laidOut.coherent.linked hirq
  obtain ⟨_, ⟨hactive, -⟩ | ⟨-, hrep⟩⟩ := hlink.queues.of_touched hirq ht
  · exact absurd (hactive.symm.trans hdone) (by decide)
  have hrest : rest = k :: rest' := Option.some.inj (hrep.irq.symm.trans hirq')
  have hkr : k ∈ rest := by simp [hrest]
  have hnd := c.nodup.of_append_right
  rw [hw] at hnd
  have hkj : k ≠ j := by
    rintro rfl
    exact (List.nodup_cons.mp hnd).1 hkr
  rw [Driver.stateOf, ht.other k hkj, (hlink.queues.tail j rest hw k hkr).1]
  decide

/-- A stored packet settles the machine, if its buffer holds bytes afterwards. -/
theorem Sized.settled_of_stores {m m' : Machine} {j : Nat} {rest : List Nat} {p : Packet}
    {d₁ : Driver} (h : Sized m) (hirq : m.drv.queue.irqqueue = some (j :: rest))
    (hs : Stores m.drv d₁ j p) (hused : d₁.bytesusedOf j ≠ 0)
    (hend : m'.drv = finishBuffer d₁ j ∨ m'.drv = d₁) : Settled m' := by
  obtain ⟨ht₁, hactive, hirq₁⟩ := hs.touches
  have hids : d₁.fid = d₁.lastFid := hs.fid.trans hs.lastFid.symm
  rcases hend with hd | hd
  · refine ⟨by rw [hd]; exact hids, fun k rest' hk hact => ?_⟩
    have hdone : m'.drv.stateOf j = .done := by rw [hd, Driver.stateOf, finishBuffer_buffer]
    exact absurd hact (h.next_not_active hirq (hd ▸ ht₁.finish hirq₁) hdone hk)
  · refine ⟨by rw [hd]; exact hids, fun k rest' hk _ => ?_⟩
    rw [hd, hirq₁, hirq] at hk
    cases hk
    rw [hd]
    exact hused

/-- What a packet stores in buffer `j`. -/
theorem Stores.bytesused {d d₁ : Driver} {j : Nat} {p : Packet} (h : Stores d d₁ j p) :
    d₁.bytesusedOf j = d.bytesusedOf j + (storedBytes (d.queue.buffer j).buf p).length := by
  obtain ⟨_, _, _, _, -, -, rfl, -⟩ := storePayload_spec h.2.2
  simp [Driver.bytesusedOf, setState, received]

/-- **The first packet.**  A packet with a payload, for which a buffer is waiting, settles
the machine. -/
theorem Sized.settled_of_awaited {v : Version} {m m' : Machine} {p : Packet} {r : Reply}
    (h : Sized m) (hvalid : p.Valid) (hpay : p.payload ≠ []) (hawaited : Awaited m.drv p)
    (hempty : SwitchesEmpty m (.packet p)) (hstep : step v m (.packet p) = .ok (r, m')) :
    Settled m' := by
  obtain ⟨i, rest', hirq', hmore⟩ := hawaited
  rcases step_packet_cases h.cursor hstep with ⟨hinv, -⟩ | ⟨-, hnone, -⟩ |
      ⟨j, rest, -, hirq, hcase⟩
  · exact absurd hvalid hinv
  · rw [hirq'] at hnone
    cases hnone
  · obtain ⟨rfl, rfl⟩ := List.cons.inj (Option.some.inj (hirq'.symm.trans hirq))
    rcases hcase with ⟨hwait, hsame, hd⟩ | ⟨hnew, hheld, -⟩ | ⟨d₁, hs, hend⟩
    · refine ⟨by rw [hd]; exact hsame, fun k rest'' hk hact => ?_⟩
      rw [hd] at hk hact
      obtain ⟨rfl, -⟩ := List.cons.inj (Option.some.inj (hirq.symm.trans hk))
      exact absurd hact hwait
    · have hcloses : Closes m.drv i p := ⟨hvalid, hnew, hheld⟩
      obtain ⟨k, ks, rfl⟩ := List.exists_cons_of_ne_nil (hmore hcloses)
      simp only [SwitchesEmpty, hirq] at hempty
      exact absurd (hempty hcloses) hpay
    · refine h.settled_of_stores hirq hs ?_ (hend.imp And.right And.right)
      have hi := h.laidOut.coherent.waiting_lt hirq List.mem_cons_self
      have hlen : 0 < p.payload.length := List.length_pos_iff.mpr hpay
      have hpos : 0 < dwMaxVideoFrameSize := by decide
      rw [hs.bytesused, storedBytes, List.length_take, h.full i hi, Driver.bytesusedOf]
      omega

/-- A request for buffers opens none. -/
theorem bytesused_of_request {d d' : Driver} {count : UInt32}
    {alloc : Nat → Option (Nat → UInt8)} {r : Reply}
    (h : vidiocReqbufs d count alloc = .ok (r, d')) (j : Nat) :
    d'.bytesusedOf j = 0 ∨ d'.bytesusedOf j = d.bytesusedOf j := by
  rcases vidiocReqbufs_cases h with ⟨n, mem, -, -, -, -, -, -, rfl⟩ | ⟨-, rfl, -⟩
  · left
    by_cases hj : j < n <;> simp [Driver.bytesusedOf, initQueue, hj, initBuffer, Buffer.zero]
  · unfold freeBuffers
    split
    · exact Or.inl rfl
    · exact Or.inr rfl

theorem not_opens_of_same {m m' : Machine} {j : Nat}
    (h : m'.drv.bytesusedOf j = m.drv.bytesusedOf j) : ¬ Opens m m' j := fun hopens =>
  hopens.2 (h.trans hopens.1)

/-- **Other packets of the frame.**  They keep a settled machine settled and open no
buffer. -/
theorem Settled.of_packet {v : Version} {m m' : Machine} {p : Packet} {r : Reply}
    (hset : Settled m) (h : Sized m) (hcont : Continues m (.packet p))
    (hstep : step v m (.packet p) = .ok (r, m')) : Settled m' ∧ ∀ j, ¬ Opens m m' j := by
  rcases step_packet_cases h.cursor hstep with ⟨-, hd⟩ | ⟨-, hirq, hd⟩ |
      ⟨j, rest, hvalid, hirq, hcase⟩
  · refine ⟨⟨by rw [hd]; exact hset.fid, by rw [hd]; exact hset.head⟩, fun k => ?_⟩
    exact not_opens_of_same (by rw [hd])
  · refine ⟨⟨by rw [hd], fun k rest hk => ?_⟩, fun k => not_opens_of_same (by rw [hd]; rfl)⟩
    rw [hd, hirq] at hk
    cases hk
  · have hsame : nextFid m.drv p = m.drv.lastFid := (hcont hvalid).trans hset.fid
    rcases hcase with ⟨-, -, hd⟩ | ⟨hnew, -⟩ | ⟨d₁, hs, hend⟩
    · refine ⟨⟨by rw [hd]; exact hsame, by rw [hd]; exact hset.head⟩, fun k => ?_⟩
      exact not_opens_of_same (by rw [hd]; rfl)
    · exact absurd hsame hnew
    · have hactive := hs.1.resolve_right (not_not.mpr hsame)
      have hheld := hset.head j rest hirq hactive
      have hused : d₁.bytesusedOf j ≠ 0 := by
        rw [hs.bytesused]
        omega
      refine ⟨h.settled_of_stores hirq hs hused (hend.imp And.right And.right), fun k hopens => ?_⟩
      by_cases hkj : k = j
      · subst hkj
        exact hheld hopens.1
      · have hother : m'.drv.bytesusedOf k = m.drv.bytesusedOf k := by
          obtain ⟨ht₁, -, hirq₁⟩ := hs.touches
          rcases hend with ⟨-, hd⟩ | ⟨-, hd⟩
          · rw [Driver.bytesusedOf, hd, (ht₁.finish hirq₁).other k hkj]
            rfl
          · rw [Driver.bytesusedOf, hd, ht₁.other k hkj]
            rfl
        exact not_opens_of_same hother hopens

/-- **Other steps** keep a settled machine settled too. -/
theorem Settled.of_other {v : Version} {m m' : Machine} {i : Input} {r : Reply}
    (hset : Settled m) (h : Sized m) (hp : ∀ p, i ≠ .packet p)
    (hstep : step v m i = .ok (r, m')) : Settled m' ∧ ∀ j, ¬ Opens m m' j := by
  have hids := (step_unless_packet hp hstep).1
  have hfid : m'.drv.fid = m'.drv.lastFid := by rw [hids.fid, hids.lastFid, hset.fid]
  rcases step_effect h.cursor hstep with ⟨hreq, n, alloc, -, hcall, -⟩ |
      ⟨b, main, irq, rfl, rfl, hb, hidle, hmain, hirq, rfl⟩ |
      ⟨j, rest, rfl, rfl, hmain, hdone, rfl⟩ | ⟨p, _, _, rfl, -⟩ | ⟨-, -, -, -, hs⟩
  · have hempty := h.laidOut.coherent.irqqueue_requested hreq hstep
    refine ⟨⟨hfid, fun k rest hk => ?_⟩, fun k hopens => ?_⟩
    · rw [hk] at hempty
      cases hempty
    · rcases bytesused_of_request hcall k with hzero | hsame
      · exact hopens.2 hzero
      · exact not_opens_of_same hsame hopens
  · have hother (k : Nat) (hk : k ≠ b.index) := queued_other m.drv main irq hk
    refine ⟨⟨hfid, fun k rest hk hact => ?_⟩, fun k hopens => ?_⟩
    · by_cases hkb : k = b.index
      · subst hkb
        simp at hact
      · cases irq with
        | nil =>
            obtain ⟨rfl, -⟩ := List.cons.inj (Option.some.inj hk)
            exact absurd rfl hkb
        | cons x xs =>
            obtain ⟨rfl, -⟩ := List.cons.inj (Option.some.inj hk)
            rw [Driver.stateOf, hother x hkb] at hact
            rw [Driver.bytesusedOf, hother x hkb]
            exact hset.head x xs hirq hact
    · by_cases hkb : k = b.index
      · subst hkb
        exact hopens.2 (queued_bytesused m.drv b.index main irq)
      · exact not_opens_of_same (by simp only [Driver.bytesusedOf, hother k hkb]) hopens
  · have hbuf (k : Nat) := dequeued_buf m.drv j k rest
    refine ⟨⟨hfid, fun k rest' hk hact => ?_⟩, fun k => not_opens_of_same ?_⟩
    · have hkj : k ≠ j := by
        rintro rfl
        simp at hact
      have hstate : (dequeued m.drv j rest).stateOf k = m.drv.stateOf k := by
        rw [Driver.stateOf, dequeued_other m.drv rest hkj]
        rfl
      rw [Driver.bytesusedOf, hbuf k]
      exact hset.head k rest' hk (hstate ▸ hact)
    · simp only [Driver.bytesusedOf, hbuf k]
  · exact absurd rfl (hp p)
  · refine ⟨⟨hfid, fun k rest hk hact => ?_⟩, fun k => not_opens_of_same ?_⟩
    · rw [Driver.bytesusedOf, hs.buf k]
      exact hset.head k rest (hs.irq ▸ hk) ((hs.state k).symm.trans hact)
    · simp only [Driver.bytesusedOf, hs.buf k]

/-- From a settled machine on, as long as the frame lasts, no buffer is opened. -/
theorem Settled.along {v : Version} {m : Machine} {es : Log} (hset : Settled m) (h : Sized m)
    (hrun : IsRun (step v) m es) (hcont : Along Continues m es) :
    Settled (lastState m es) ∧ Sized (lastState m es) := by
  have hkeep (m : Machine) (i : Input) (r : Reply) (m' : Machine) (hm : Settled m ∧ Sized m)
      (hi : Continues m i) (hstep : step v m i = .ok (r, m')) : Settled m' ∧ Sized m' := by
    refine ⟨?_, hm.2.kept hstep⟩
    by_cases hpacket : ∃ p, i = .packet p
    · obtain ⟨p, rfl⟩ := hpacket
      exact (hm.1.of_packet hm.2 hi hstep).1
    · exact (hm.1.of_other hm.2 (fun p hp => hpacket ⟨p, hp⟩) hstep).1
  exact hrun.keeps_along hkeep hcont ⟨hset, h⟩

theorem Settled.not_opens {v : Version} {m m' : Machine} {i : Input} {r : Reply}
    (hset : Settled m) (h : Sized m) (hi : Continues m i) (hstep : step v m i = .ok (r, m'))
    (j : Nat) : ¬ Opens m m' j := by
  by_cases hpacket : ∃ p, i = .packet p
  · obtain ⟨p, rfl⟩ := hpacket
    exact (hset.of_packet h hi hstep).2 j
  · exact (hset.of_other h (fun p hp => hpacket ⟨p, hp⟩) hstep).2 j

/-! ## What has been stored in front stays there -/

/-- The contents begin with what they were, if the bytes received are no fewer and none
of the old ones has changed. -/
theorem contents_prefix {d d' : Driver} {j : Nat}
    (hoffset : (d'.queue.buffer j).buf.offset = (d.queue.buffer j).buf.offset)
    (hgrows : d.bytesusedOf j ≤ d'.bytesusedOf j)
    (hframe : ∀ x, (d.queue.buffer j).buf.offset ≤ x →
      x < (d.queue.buffer j).buf.offset + d.bytesusedOf j → d'.frame x = d.frame x) :
    d.contents j <+: d'.contents j := by
  obtain ⟨k, hk⟩ := Nat.exists_eq_add_of_le hgrows
  have hused : (d'.queue.buffer j).buf.bytesused = d.bytesusedOf j + k := hk
  rw [Driver.contents, Driver.contents, hoffset, hused, ByteStore.read_add,
    ByteStore.read_congr hframe]
  exact List.prefix_append _ _

/-- Storing leaves the bytes alone that were stored before. -/
theorem Stores.frame_below {d d₁ : Driver} {j : Nat} {p : Packet} (h : Stores d d₁ j p) {x : Nat}
    (hx : x < (d.queue.buffer j).buf.offset + d.bytesusedOf j) : d₁.frame x = d.frame x := by
  obtain ⟨-, -, hstore⟩ := h
  obtain ⟨mem, mem', t, s, hmem, -, rfl, -, hout, -⟩ := storePayload_spec hstore
  simp only [setState, Queue.setBuffer_same, Queue.setBuffer_mem] at hmem hout
  simp only [Driver.frame, hmem]
  exact hout x (Or.inl hx)

/-- A packet keeps the bytes that the current buffer has received. -/
theorem step_packet_frame_below {v : Version} {m m' : Machine} {p : Packet} {r : Reply}
    {j : Nat} {rest : List Nat} (hcur : CursorOk m) (h : step v m (.packet p) = .ok (r, m'))
    (hirq : m.drv.queue.irqqueue = some (j :: rest)) {x : Nat}
    (hx : x < (m.drv.queue.buffer j).buf.offset + m.drv.bytesusedOf j) :
    m'.drv.frame x = m.drv.frame x := by
  rcases step_packet_cases hcur h with ⟨-, hd⟩ | ⟨-, -, hd⟩ | ⟨i, rest', -, hirq', hcase⟩
  · rw [hd]
  · rw [hd]
    rfl
  · obtain ⟨rfl, -⟩ := List.cons.inj (Option.some.inj (hirq.symm.trans hirq'))
    rcases hcase with ⟨-, -, hd⟩ | ⟨-, -, hd⟩ | ⟨d₁, hs, ⟨-, hd⟩ | ⟨-, hd⟩⟩
    · rw [hd]
      rfl
    · rw [hd]
      rfl
    · rw [hd]
      exact hs.frame_below hx
    · rw [hd]
      exact hs.frame_below hx

/-- **One step** keeps what a buffer begins with, unless it queues the buffer anew or
asks for others. -/
theorem LaidOut.contents_prefix_step {v : Version} {m m' : Machine} {j : Nat} {i : Input}
    {r : Reply} (h : LaidOut m) (hj : j < m.drv.queue.count) (hno : ¬ i.IsReqbufs)
    (hacc : j ∉ accepted i r) (hstep : step v m i = .ok (r, m')) :
    m.drv.contents j <+: m'.drv.contents j := by
  have hcur := h.coherent.cursor
  rcases step_effect hcur hstep with ⟨hreq, -⟩ | ⟨b, main, irq, rfl, rfl, -, -, -, -, rfl⟩ |
      ⟨k, rest, rfl, rfl, -, -, rfl⟩ | ⟨p, k, rest, rfl, -, hirq, ht, -⟩ | ⟨-, -, -, -, hs⟩
  · exact absurd hreq hno
  · have hne : j ≠ b.index := by simpa [accepted] using hacc
    have hsame := queued_other m.drv main irq hne
    have hcontents : (queued m.drv b.index main irq).contents j = m.drv.contents j :=
      contents_congr rfl (by rw [hsame])
    rw [hcontents]
  · have hcontents : (dequeued m.drv k rest).contents j = m.drv.contents j :=
      contents_congr rfl (dequeued_buf m.drv k j rest)
    rw [hcontents]
  · by_cases hjk : j = k
    · subst hjk
      obtain ⟨n, hn⟩ := ht.slot
      refine contents_prefix (by rw [hn]) ht.grows fun x _ hx => ?_
      exact step_packet_frame_below hcur hstep hirq hx
    · have hsame := ht.other j hjk
      have hused : m'.drv.bytesusedOf j = m.drv.bytesusedOf j := by
        rw [Driver.bytesusedOf, Driver.bytesusedOf, hsame]
      refine contents_prefix (by rw [hsame]) hused.ge ?_
      intro x hlow hhigh
      refine step_packet_frame hcur hstep fun i rest' hi => ?_
      rw [hirq] at hi
      cases hi
      obtain ⟨c, hlink, -⟩ := h.coherent.linked hirq
      have hk := h.coherent.waiting_lt hirq List.mem_cons_self
      have hfits : m.drv.bytesusedOf j ≤ (m.drv.queue.buffer j).buf.length :=
        hlink.queues.fits j hj
      exact h.layout.apart hj hk hjk hlow (by omega)
  · rw [contents_congr hs.mem (hs.buf j)]

/-- **A whole run** does so too. -/
theorem LaidOut.contents_prefix_run {v : Version} {m : Machine} {j : Nat} {es : Log}
    (h : LaidOut m) (hj : j < m.drv.queue.count) (hrun : IsRun (step v) m es)
    (hno : ∀ e ∈ es, ¬ e.input.IsReqbufs) (hacc : j ∉ acceptedAlong es) :
    m.drv.contents j <+: (lastState m es).drv.contents j := by
  induction es generalizing m with
  | nil => exact List.prefix_rfl
  | cons e rest ih =>
      obtain ⟨hstep, htail⟩ := hrun
      rw [acceptedAlong_cons, List.mem_append, not_or] at hacc
      have hfirst := hno e List.mem_cons_self
      have hcount := (step_sameShape h.coherent.cursor hfirst hstep).count
      have hhead := h.contents_prefix_step hj hfirst hacc.1 hstep
      have hrest := ih (h.kept hstep) (hcount ▸ hj) htail
        (fun x hx => hno x (List.mem_cons_of_mem _ hx)) hacc.2
      exact hhead.trans hrest

/-! ## Whole runs -/

/-- A packet that opens a buffer is stored in it. -/
theorem Sized.stores_of_opens {v : Version} {m m' : Machine} {p : Packet} {r : Reply} {j : Nat}
    (h : Sized m) (hopens : Opens m m' j) (hstep : step v m (.packet p) = .ok (r, m')) :
    ∃ rest d₁, m.drv.queue.irqqueue = some (j :: rest) ∧ Stores m.drv d₁ j p ∧
      (m'.drv = finishBuffer d₁ j ∨ m'.drv = d₁) := by
  rcases step_packet_cases h.cursor hstep with ⟨-, hd⟩ | ⟨-, -, hd⟩ | ⟨i, rest, -, hirq, hcase⟩
  · exact absurd hopens (not_opens_of_same (by rw [hd]))
  · exact absurd hopens (not_opens_of_same (by rw [hd]; rfl))
  · have hhead (ht : Touches m.drv m'.drv i) : j = i := by
      by_contra hji
      refine not_opens_of_same ?_ hopens
      rw [Driver.bytesusedOf, Driver.bytesusedOf, ht.other j hji]
    rcases hcase with ⟨-, -, hd⟩ | ⟨-, hheld, hd⟩ | ⟨d₁, hs, hend⟩
    · exact absurd hopens (not_opens_of_same (by rw [hd]; rfl))
    · have hji := hhead (hd ▸ closed_touches m.drv i _)
      subst hji
      exact absurd hopens.1 hheld
    · obtain ⟨ht₁, -, hirq₁⟩ := hs.touches
      have hji : j = i := by
        rcases hend with ⟨-, hd⟩ | ⟨-, hd⟩
        · exact hhead (hd ▸ ht₁.finish hirq₁)
        · exact hhead (hd ▸ ht₁)
      subst hji
      exact ⟨rest, d₁, hirq, hs, hend.imp And.right And.right⟩

/-- What the packet that opens a buffer leaves in it. -/
theorem Sized.contents_of_opens {v : Version} {m m' : Machine} {p : Packet} {r : Reply} {j : Nat}
    (h : Sized m) (hopens : Opens m m' j) (hstep : step v m (.packet p) = .ok (r, m'))
    (hplain : CopiesPlainly m.drv.idVendor m.drv.frame (m.drv.queue.buffer j).buf p) :
    m'.drv.contents j = p.payload.take (m.drv.queue.buffer j).buf.length := by
  obtain ⟨rest, d₁, -, hs, hend⟩ := h.stores_of_opens hopens hstep
  have hempty : m.drv.contents j = [] := by
    rw [← List.length_eq_zero_iff, length_contents]
    exact hopens.1
  have hused : (m.drv.queue.buffer j).buf.bytesused = 0 := hopens.1
  have hcontents : m'.drv.contents j = d₁.contents j := by
    rcases hend with hd | hd
    · rw [hd]
      exact contents_congr rfl (by rw [finishBuffer_buffer])
    · rw [hd]
  rw [hcontents, hs.contents hplain, hempty, List.nil_append, storedBytes, hused, Nat.sub_zero]

/-- **The buffer that a frame opens**, when all packets that switch buffers are empty. -/
theorem opened_of_switchesEmpty {v : Version} {m : Machine} {es : Log} (h : Sized m)
    (hrun : IsRun (step v) m es) (hempty : Along SwitchesEmpty m es) {us ws ys zs : Log}
    {u e : Entry Input Reply Machine} {p : Packet} {j : Nat}
    (hsplit : es = us ++ ((ws ++ [e]) ++ (ys ++ zs))) (hu : (ws ++ [e]).head? = some u)
    (hp : u.input = .packet p) (hvalid : p.Valid) (hawaited : Awaited (lastState m us).drv p)
    (hcont : Along Continues u.state (ws ++ [e]).tail)
    (hopens : Opens (lastState m (us ++ ws)) e.state j) :
    p.payload = [] ∨ ws = [] := by
  subst hsplit
  obtain ⟨hpast, hrest⟩ := isRun_append.mp hrun
  obtain ⟨hframe, -⟩ := isRun_append.mp hrest
  obtain ⟨-, hemptyRest⟩ := along_append.mp hempty
  obtain ⟨hemptyFrame, -⟩ := along_append.mp hemptyRest
  have hsized : Sized (lastState m us) := hpast.keeps (fun _ _ _ _ h hstep => h.kept hstep) h
  cases ws with
  | nil => exact Or.inr rfl
  | cons w ws' =>
      obtain rfl : w = u := Option.some.inj hu
      by_contra! hne
      obtain ⟨hstep, htail⟩ := hframe
      rw [hp] at hstep
      have hfirst := hemptyFrame.1
      rw [hp] at hfirst
      have hset := hsized.settled_of_awaited hvalid hne.1 hawaited hfirst hstep
      obtain ⟨hbetween, hlast⟩ := isRun_append.mp htail
      obtain ⟨hcontBetween, hcontLast⟩ := along_append.mp hcont
      obtain ⟨hset', hsized'⟩ := hset.along (hsized.kept hstep) hbetween hcontBetween
      rw [lastState_append] at hopens
      exact hset'.not_opens hsized' hcontLast.1 hlast.1 j hopens

/-- Whether a run's switches store is decided switch by switch. -/
theorem switched_iff {v : Version} {idVendor : Nat} {es : Log}
    (hrun : IsRun (step v) (Machine.load idVendor) es) :
    (∀ xs e ys, es = xs ++ e :: ys →
      SwitchStores (lastState (Machine.load idVendor) xs) e.input e.state) ↔
      Along SwitchesEmpty (Machine.load idVendor) es :=
  IsRun.entries_iff_along (I := Sized) (Q := fun m i _ m' => SwitchStores m i m')
    (fun _ _ _ _ h _ hstep => h.kept hstep) (fun _ _ _ _ h hstep => h.switchStores_iff hstep)
    hrun (sized_load idVendor)

/-- **No frame loses its first payload**, in any run from module load and for any vendor,
exactly when each packet that closes a buffer while another waits has no payload. -/
theorem first_payload_kept_iff {v : Version} {idVendor : Nat} {es : Log}
    (hrun : IsRun (step v) (Machine.load idVendor) es) :
    FirstPayloadsKept (Machine.load idVendor) es ↔
      Along SwitchesEmpty (Machine.load idVendor) es := by
  constructor
  · exact fun hkept => (switched_iff hrun).mp hkept.switched
  · intro hempty
    refine ⟨(switched_iff hrun).mpr hempty, ?_⟩
    intro us u ws ys zs e p j hsplit hu hp hvalid hawaited hcont hopens hno hacc
    rcases opened_of_switchesEmpty (sized_load idVendor) hrun hempty hsplit hu hp hvalid hawaited
      hcont hopens with hpay | rfl
    · exact Or.inl hpay
    · right
      obtain rfl : e = u := Option.some.inj hu
      subst hsplit
      obtain ⟨hpast, hnow⟩ := isRun_append.mp hrun
      obtain ⟨⟨hstep, -⟩, hlater⟩ := isRun_append.mp hnow
      obtain ⟨hkept, -⟩ := isRun_append.mp hlater
      rw [hp] at hstep
      rw [List.append_nil] at hopens
      have hsized := sized_of_run hpast
      refine ⟨rfl, ?_, hsized.contents_of_opens hopens hstep⟩
      obtain ⟨rest, d₁, hirq, -⟩ := hsized.stores_of_opens hopens hstep
      have hj := hsized.laidOut.coherent.waiting_lt hirq List.mem_cons_self
      rw [← (step_sameShape hsized.cursor id hstep).count] at hj
      exact (hsized.kept hstep).laidOut.contents_prefix_run hj hkept hno hacc

/-- Two frames without an end-of-frame mark; the second one begins with the packet
`first`. -/
def unmarkedLog (first : Packet) : Log :=
  exec (step .th10) (Machine.load 0)
    [.call (.sFmt captureFormat), .call (.reqbufs 2 fun _ => some fun _ => 0),
      .call (.qbuf (queueRequest 0)), .call (.qbuf (queueRequest 1)),
      .call (.streamon plainEnv), .irq 1 0,
      .packet ⟨0, [2, 1, 0xAA], true⟩, .packet first, .packet ⟨0, [2, 0, 0xCC], true⟩]

/-- The second frame begins with `BB`, and its buffer with the byte behind it. -/
theorem unmarked_frame_loses_start :
    let es := unmarkedLog ⟨0, [2, 0, 0xBB], true⟩
    es.length = 9 ∧ (lastState (Machine.load 0) es).drv.contents 1 = [0xCC] ∧
      ¬ FirstPayloadsKept (Machine.load 0) es := by
  refine ⟨by decide +kernel, by decide +kernel, fun hkept => ?_⟩
  have hempty := (switched_iff (isRun_exec _ _)).mp hkept.switched
  exact absurd hempty (by decide +kernel)

/-- A header without a payload between the frames does no harm. -/
theorem first_payload_kept_after_header :
    let es := unmarkedLog ⟨0, [2, 0], true⟩
    (lastState (Machine.load 0) es).drv.contents 1 = [0xCC] ∧
      FirstPayloadsKept (Machine.load 0) es :=
  ⟨by decide +kernel, (first_payload_kept_iff (isRun_exec _ _)).mpr (by decide +kernel)⟩

end Myuvc
