import UsbCamera.Myuvc.QueueInvariant

/-!
# Frame reassembly

The handler cuts the stream of valid packets into stretches and puts the
payloads of each stretch, one behind the other, into one buffer.  Which packet
starts a stretch and which ends it depends on the frame-id bits, on the room
that is left and on whether a buffer is queued, and the state that decides it
lives on from one URB to the next.

`Progress` is the invariant behind this.  It says that the buffer at the head of
`irqqueue` holds the payloads of the packets since position `a` of the stream of
valid packets, whole and in order, behind the bytes it held at the start.  One
step either keeps the head buffer open or delivers it, and in the second case
the next stretch starts behind the one delivered.
-/

namespace Myuvc

open FaultRun TwoStageFifo

/-- The packet of an input, when there is one and it is valid. -/
def validOf : Input → List Packet
  | .packet p => if p.Valid then [p] else []
  | _ => []

/-- The valid packets of a run, in the order of their arrival. -/
def validStream (es : Log) : List Packet := es.flatMap fun e => validOf e.input

/-- The payloads of some packets, one behind the other. -/
def payloads (ps : List Packet) : List UInt8 := ps.flatMap Packet.payload

/-- The stretch of a stream from position `s.1` up to position `s.2`. -/
def stretch (stream : List Packet) (s : Nat × Nat) : List Packet := (stream.take s.2).drop s.1

/-- The buffers that are `DONE` after a step and were not before it. -/
def becameDone (d d' : Driver) : List Nat :=
  (List.range d'.queue.count).filter fun i =>
    decide (d.stateOf i ≠ .done ∧ d'.stateOf i = .done)

/-- A buffer that has become `DONE`: the number of valid packets received by
then, its length, and its bytes `[0, bytesused)`. -/
structure Delivery where
  index : Nat
  seen : Nat
  length : Nat
  bytes : List UInt8

/-- What one step delivers. -/
def deliveriesOf (d d' : Driver) (seen : Nat) : List Delivery :=
  (becameDone d d').map fun i =>
    ⟨i, seen, (d'.queue.buffer i).buf.length, d'.contents i⟩

/-- What a run delivers, `seen` valid packets having been received before it. -/
def deliveries : Machine → Nat → Log → List Delivery
  | _, _, [] => []
  | m, seen, e :: rest =>
      deliveriesOf m.drv e.state.drv (seen + (validOf e.input).length) ++
        deliveries e.state (seen + (validOf e.input).length) rest

/-- The bytes of `D` are `init` and the payloads of the stretch `s`, cut to the
buffer's length, and all packets of the stretch that have a payload agree in
their frame-id bit.  When there are bytes in `init`, it is the bit `fid`. -/
structure Assembled (stream : List Packet) (init : List UInt8) (fid : Int) (D : Delivery)
    (s : Nat × Nat) : Prop where
  ordered : s.1 ≤ s.2
  arrived : s.2 ≤ D.seen
  bytes : D.bytes = (init ++ payloads (stretch stream s)).take D.length
  sameFid : ∃ f : Int, (init ≠ [] → f = fid) ∧
    ∀ p ∈ stretch stream s, p.payload ≠ [] → (p.fidBit : Int) = f

/-- Every delivery has a stretch of its own; each stretch ends before the next
starts.  Only the first delivery contains the bytes `init`. -/
def AllAssembled (stream : List Packet) (fid : Int) :
    List UInt8 → List Delivery → List (Nat × Nat) → Prop
  | _, [], [] => True
  | init, D :: Ds, s :: ss =>
      Assembled stream init fid D s ∧ (∀ t ∈ ss, s.2 ≤ t.1) ∧ AllAssembled stream fid [] Ds ss
  | _, _, _ => False

theorem length_contents (d : Driver) (i : Nat) : (d.contents i).length = d.bytesusedOf i := by
  simp [Driver.contents, Driver.bytesusedOf]

theorem contents_congr {d d' : Driver} {i : Nat} (hmem : d'.queue.mem = d.queue.mem)
    (hbuf : (d'.queue.buffer i).buf = (d.queue.buffer i).buf) :
    d'.contents i = d.contents i := by
  simp [Driver.contents, Driver.frame, hmem, hbuf]

theorem payloads_append (ps qs : List Packet) :
    payloads (ps ++ qs) = payloads ps ++ payloads qs := by
  simp [payloads]

/-- No buffer becomes `DONE` when every `DONE` buffer was so before. -/
theorem becameDone_eq_nil {d d' : Driver}
    (h : ∀ i < d'.queue.count, d'.stateOf i = .done → d.stateOf i = .done) :
    becameDone d d' = [] := by
  refine List.filter_eq_nil_iff.mpr fun i hi => ?_
  simp only [ne_eq, decide_eq_true_eq, not_and]
  exact fun hne hdone => hne (h i (List.mem_range.mp hi) hdone)

/-- One buffer becomes `DONE` when the others keep their state. -/
theorem becameDone_eq_singleton {d d' : Driver} {j : Nat} (hj : j < d'.queue.count)
    (hbefore : d.stateOf j ≠ .done) (hafter : d'.stateOf j = .done)
    (hother : ∀ i, i ≠ j → d'.stateOf i = d.stateOf i) : becameDone d d' = [j] := by
  have hpred : ∀ i, decide (d.stateOf i ≠ .done ∧ d'.stateOf i = .done) = (i == j) := by
    intro i
    by_cases hij : i = j
    · subst hij
      simp [hbefore, hafter]
    · have hne : ¬ (d.stateOf i ≠ .done ∧ d'.stateOf i = .done) := by
        rw [hother i hij]
        tauto
      simp [hij, hne]
  unfold becameDone
  simp only [hpred]
  rw [List.filter_beq, List.count_eq_one_of_mem List.nodup_range (List.mem_range.mpr hj)]
  rfl

/-- Queueing a buffer finishes none. -/
theorem becameDone_queued (d : Driver) (j : Nat) (main irq : List Nat) :
    becameDone d (queued d j main irq) = [] := by
  refine becameDone_eq_nil fun k _ hk => ?_
  by_cases hkj : k = j
  · subst hkj
    exact absurd ((queued_state d k main irq).symm.trans hk) (by decide)
  · rwa [Driver.stateOf, queued_other d main irq hkj] at hk

/-- Taking a finished buffer finishes none. -/
theorem becameDone_dequeued {d : Driver} {j : Nat} {rest : List Nat}
    (hdone : d.stateOf j = .done) : becameDone d (dequeued d j rest) = [] := by
  refine becameDone_eq_nil fun k _ hk => ?_
  by_cases hkj : k = j
  · subst hkj
    exact hdone
  · rwa [Driver.stateOf, dequeued_other d rest hkj] at hk

/-- Buffer `i` holds the bytes `init` and behind them the payloads of `seg`,
none of them cut, and all with the frame id the driver has last seen. -/
structure Filling (d : Driver) (i : Nat) (init : List UInt8) (fid : Int)
    (seg : List Packet) : Prop where
  whole : d.contents i = init ++ payloads seg
  waits : d.stateOf i ≠ .active → seg = []
  sameFid : ∀ p ∈ seg, p.payload ≠ [] → (p.fidBit : Int) = d.lastFid
  start : init ≠ [] → d.lastFid = fid

/-- An empty buffer holds the payloads of no packets. -/
theorem Filling.fresh {d : Driver} {i : Nat} (fid : Int) (h : d.bytesusedOf i = 0) :
    Filling d i [] fid [] where
  whole := by
    rw [← length_contents] at h
    simpa [payloads] using h
  waits := fun _ => rfl
  sameFid := fun p hp => by cases hp
  start := fun h => absurd rfl h

theorem Filling.of_same {d d' : Driver} {i : Nat} {init : List UInt8} {fid : Int}
    {seg : List Packet} (h : Filling d i init fid seg) (hmem : d'.queue.mem = d.queue.mem)
    (hbuf : (d'.queue.buffer i).buf = (d.queue.buffer i).buf)
    (hstate : d'.stateOf i = d.stateOf i) (hfid : d'.lastFid = d.lastFid) :
    Filling d' i init fid seg where
  whole := (contents_congr hmem hbuf).trans h.whole
  waits := fun hne => h.waits (hstate ▸ hne)
  sameFid := fun p hp hne => (h.sameFid p hp hne).trans hfid.symm
  start := fun hne => hfid.trans (h.start hne)

/-- A stored packet leaves its frame id. -/
theorem Stores.lastFid {d d₁ : Driver} {j : Nat} {p : Packet} (h : Stores d d₁ j p) :
    d₁.lastFid = nextFid d p := by
  obtain ⟨_, _, _, _, -, -, rfl, -⟩ := storePayload_spec h.2.2
  rfl

theorem Stores.fid {d d₁ : Driver} {j : Nat} {p : Packet} (h : Stores d d₁ j p) :
    d₁.fid = nextFid d p := by
  obtain ⟨_, _, _, _, -, -, rfl, -⟩ := storePayload_spec h.2.2
  rfl

/-- **Storing appends.**  Where nothing is repaired, the current buffer grows by the
stored bytes. -/
theorem Stores.contents {d d₁ : Driver} {j : Nat} {p : Packet} (h : Stores d d₁ j p)
    (hplain : CopiesPlainly d.idVendor d.frame (d.queue.buffer j).buf p) :
    d₁.contents j = d.contents j ++ storedBytes (d.queue.buffer j).buf p := by
  obtain ⟨-, -, hstore⟩ := h
  obtain ⟨mem, mem', t, s, hmem, -, rfl, -, -, hbytes⟩ := storePayload_spec hstore
  simp only [setState, Queue.setBuffer_same, Queue.setBuffer_mem] at hmem hbytes
  simp only [Driver.frame, hmem] at hplain
  have hwrite := hbytes hplain
  simp only [Driver.contents, Driver.frame, setState, Queue.setBuffer_same, received, hmem, hwrite]
  exact ByteStore.read_write_append _ _ _ _

/-- Without the repair, the frame id is the one in the packet's header. -/
theorem nextFid_eq_fidBit {d : Driver} (p : Packet) (hvendor : d.idVendor ≠ 0x1B3B) :
    nextFid d p = p.fidBit := by simp [nextFid, hvendor]

/-- After a packet has been stored, all packets of the stretch that have a
payload have its frame id: either the buffer was empty, or the id had not
changed. -/
theorem Filling.fid_of_stores {d d₁ : Driver} {j : Nat} {p : Packet} {init : List UInt8}
    {fid : Int} {seg : List Packet} (h : Filling d j init fid seg) (hs : Stores d d₁ j p)
    (hvendor : d.idVendor ≠ 0x1B3B) :
    (init ≠ [] → (p.fidBit : Int) = fid) ∧
      ∀ q ∈ seg ++ [p], q.payload ≠ [] → (q.fidBit : Int) = p.fidBit := by
  have hnext := nextFid_eq_fidBit p hvendor
  have hcases : (p.fidBit : Int) = d.lastFid ∨ (init = [] ∧ ∀ q ∈ seg, q.payload = []) := by
    rcases hs.2.1 with hsame | hempty
    · exact Or.inl (hnext ▸ hsame)
    · have hnil : init ++ payloads seg = [] := by
        rw [← h.whole, ← List.length_eq_zero_iff, length_contents]
        exact hempty
      obtain ⟨hinit, hpay⟩ := List.append_eq_nil_iff.mp hnil
      exact Or.inr ⟨hinit, List.flatMap_eq_nil_iff.mp hpay⟩
  constructor
  · intro hne
    rcases hcases with hsame | ⟨hinit, -⟩
    · exact hsame.trans (h.start hne)
    · exact absurd hinit hne
  · intro q hq hne
    rcases List.mem_append.mp hq with hq | hq
    · rcases hcases with hsame | ⟨-, hall⟩
      · exact (h.sameFid q hq hne).trans hsame.symm
      · exact absurd (hall q hq) hne
    · rw [List.mem_singleton.mp hq]

/-- The stored bytes are the payload, cut so that the buffer does not
overflow. -/
theorem Filling.bytes_of_stores {d d₁ : Driver} {j : Nat} {p : Packet} {init : List UInt8}
    {fid : Int} {seg : List Packet} (h : Filling d j init fid seg) (hs : Stores d d₁ j p)
    (hvendor : d.idVendor ≠ 0x1B3B)
    (hfits : d.bytesusedOf j ≤ (d.queue.buffer j).buf.length) :
    d₁.contents j =
      (init ++ payloads (seg ++ [p])).take (d.queue.buffer j).buf.length := by
  have hlen : (init ++ payloads seg).length = d.bytesusedOf j := by
    rw [← h.whole, length_contents]
  have hsplit : init ++ payloads (seg ++ [p]) = (init ++ payloads seg) ++ p.payload := by
    simp [payloads]
  rw [hs.contents (Or.inl hvendor), h.whole, hsplit, List.take_append, hlen,
    List.take_of_length_le (by omega)]
  rfl

/-- A packet that does not complete the buffer leaves it filling. -/
theorem Filling.of_stores {d d₁ : Driver} {j : Nat} {p : Packet} {init : List UInt8}
    {fid : Int} {seg : List Packet} (h : Filling d j init fid seg) (hs : Stores d d₁ j p)
    (hvendor : d.idVendor ≠ 0x1B3B)
    (hopen : ¬ frameComplete (d.queue.buffer j).buf p (d₁.bytesusedOf j)) :
    Filling d₁ j init fid (seg ++ [p]) where
  whole := by
    have hroom : p.payload.length ≤
        (d.queue.buffer j).buf.length - (d.queue.buffer j).buf.bytesused := by
      have hpay : p.payload.length = p.len - p.src 0 := by simp [Packet.payload, Packet.len]
      have hlt := mt Or.inl hopen
      omega
    rw [hs.contents (Or.inl hvendor), h.whole, payloads_append, storedBytes,
      List.take_of_length_le hroom, List.append_assoc]
    simp [payloads]
  waits := fun hne => absurd hs.touches.2.1 hne
  sameFid := fun q hq hne => by
    rw [hs.lastFid, nextFid_eq_fidBit p hvendor]
    exact (h.fid_of_stores hs hvendor).2 q hq hne
  start := fun hne => by
    rw [hs.lastFid, nextFid_eq_fidBit p hvendor]
    exact (h.fid_of_stores hs hvendor).1 hne

/-- **The invariant.**  `past` are the valid packets so far, and the buffer at
the head of `irqqueue` holds those from position `a` on. -/
structure Progress (m : Machine) (c : Channel Nat) (past : List Packet) (a : Nat)
    (init : List UInt8) (fid : Int) : Prop where
  queues : Represents m.drv.queue c
  cursor : CursorOk m
  vendor : m.drv.idVendor ≠ 0x1B3B
  le : a ≤ past.length
  head : ∀ i rest, c.waiting = i :: rest → Filling m.drv i init fid (past.drop a)
  none : c.waiting = [] → init = []

/-- When the first waiting buffer is empty, the invariant holds with a stretch
that starts here. -/
theorem Progress.restart {m : Machine} {c : Channel Nat} {past : List Packet} {fid : Int}
    (queues : Represents m.drv.queue c) (cursor : CursorOk m)
    (vendor : m.drv.idVendor ≠ 0x1B3B)
    (hempty : ∀ i rest, c.waiting = i :: rest → m.drv.bytesusedOf i = 0) :
    Progress m c past past.length [] fid where
  queues := queues
  cursor := cursor
  vendor := vendor
  le := le_refl _
  head := fun i rest hw => by
    rw [List.drop_length]
    exact Filling.fresh fid (hempty i rest hw)
  none := fun _ => rfl

/-- Queueing a buffer keeps the stretch, or starts a new one when none was
waiting. -/
theorem Progress.of_queued {m : Machine} {c : Channel Nat} {past : List Packet} {a j : Nat}
    {init : List UInt8} {fid : Int} {main irq : List Nat} (h : Progress m c past a init fid)
    (hj : j < m.drv.queue.count) (hidle : (m.drv.queue.buffer j).state = .idle)
    (hmain : m.drv.queue.mainqueue = some main) (hirq : m.drv.queue.irqqueue = some irq)
    (hcur : CursorOk ⟨queued m.drv j main irq, .none⟩) :
    becameDone m.drv (queued m.drv j main irq) = [] ∧
      ∃ c' a', a ≤ a' ∧ Progress ⟨queued m.drv j main irq, .none⟩ c' past a' init fid := by
  have hout : j ∉ c.inside := (h.queues.idle _ hj).mp hidle
  have hrep := h.queues.of_queued hj hmain hirq hout
  have henter : (c.enter j hout).waiting = c.waiting ++ [j] := rfl
  refine ⟨becameDone_queued m.drv j main irq, ?_⟩
  cases hw : c.waiting with
  | nil =>
      have hinit := h.none hw
      subst hinit
      refine ⟨_, past.length, h.le, Progress.restart hrep hcur h.vendor ?_⟩
      intro k rest hk
      rw [henter, hw, List.nil_append, List.cons.injEq] at hk
      rw [← hk.1]
      exact queued_bytesused m.drv j main irq
  | cons k ks =>
      have hk : k ≠ j := by
        rintro rfl
        exact hout (Channel.mem_inside_of_waiting (by simp [hw]))
      have hsame := queued_other m.drv main irq hk
      refine ⟨_, a, le_refl _, ⟨hrep, hcur, h.vendor, h.le, ?_, ?_⟩⟩
      · intro k' rest hk'
        rw [henter, hw, List.cons_append, List.cons.injEq] at hk'
        rw [← hk'.1]
        exact (h.head k ks hw).of_same rfl (by rw [hsame])
          (by simp only [Driver.stateOf, hsame]) rfl
      · intro hnil
        rw [henter] at hnil
        simp at hnil

/-- Taking a finished buffer keeps the stretch. -/
theorem Progress.of_dequeued {m : Machine} {c : Channel Nat} {past : List Packet} {a j : Nat}
    {init : List UInt8} {fid : Int} {rest : List Nat} (h : Progress m c past a init fid)
    (hmain : m.drv.queue.mainqueue = some (j :: rest))
    (hdone : (m.drv.queue.buffer j).state = .done)
    (hcur : CursorOk ⟨dequeued m.drv j rest, .none⟩) :
    becameDone m.drv (dequeued m.drv j rest) = [] ∧
      ∃ c', Progress ⟨dequeued m.drv j rest, .none⟩ c' past a init fid := by
  obtain ⟨ready, hready, hrep⟩ := h.queues.of_dequeued hmain hdone
  refine ⟨becameDone_dequeued hdone, c.take j ready hready,
    ⟨hrep, hcur, h.vendor, h.le, ?_, h.none⟩⟩
  intro k rest' hk
  have hkj : k ≠ j := by
    rintro rfl
    have hnd := c.nodup
    rw [hready, show c.waiting = k :: rest' from hk] at hnd
    simp at hnd
  have hsame := dequeued_other m.drv rest hkj
  exact (h.head k rest' hk).of_same rfl (by rw [hsame]) (by simp only [Driver.stateOf, hsame]) rfl

/-- **Steps without a packet** deliver nothing and keep the stretch, or start a
new one when a buffer is queued and none was waiting. -/
theorem Progress.of_other {v : Version} {m m' : Machine} {c : Channel Nat} {past : List Packet}
    {a : Nat} {init : List UInt8} {fid : Int} {i : Input} {r : Reply}
    (h : Progress m c past a init fid) (hno : ¬ i.IsReqbufs) (hp : ∀ p, i ≠ .packet p)
    (hstep : step v m i = .ok (r, m')) :
    becameDone m.drv m'.drv = [] ∧
      ∃ c' a', a ≤ a' ∧ Progress m' c' past a' init fid := by
  have hcur := h.cursor.kept hstep
  have hfid := (step_unless_packet hp hstep).1.lastFid
  rcases step_effect h.cursor hstep with ⟨hreq, -⟩ |
      ⟨b, main, irq, rfl, rfl, hb, hidle, hmain, hirq, rfl⟩ |
      ⟨j, rest, rfl, rfl, hmain, hdone, rfl⟩ | ⟨p, _, _, rfl, -⟩ | ⟨-, -, -, -, hs⟩
  · exact absurd hreq hno
  · exact h.of_queued hb hidle hmain hirq hcur
  · obtain ⟨hnothing, c', hprogress⟩ := h.of_dequeued hmain hdone hcur
    exact ⟨hnothing, c', a, le_refl _, hprogress⟩
  · exact absurd rfl (hp p)
  · refine ⟨becameDone_eq_nil fun k _ hk => (hs.state k).symm.trans hk, c, a, le_refl _,
      ⟨h.queues.of_same hs, hcur, hs.idVendor ▸ h.vendor, h.le, ?_, h.none⟩⟩
    intro k rest hk
    exact (h.head k rest hk).of_same hs.mem (hs.buf k) (hs.state k) hfid

/-- After a buffer has been finished, the next one waits empty. -/
theorem Progress.next {m : Machine} {c : Channel Nat} {past : List Packet} {fid : Int} {j : Nat}
    {rest : List Nat} {d : Driver} (hqueues : Represents d.queue c)
    (hw : c.waiting = j :: rest) (ht : Touches d m.drv j)
    (hrep : Represents m.drv.queue (c.finish j rest hw)) (hcur : CursorOk m)
    (hvendor : d.idVendor ≠ 0x1B3B) :
    Progress m (c.finish j rest hw) past past.length [] fid := by
  refine Progress.restart hrep hcur (ht.idVendor ▸ hvendor) fun k rest' hk => ?_
  have hk' : rest = k :: rest' := hk
  have hkr : k ∈ rest := by simp [hk']
  have hnd := c.nodup.of_append_right
  rw [hw] at hnd
  have hkj : k ≠ j := by
    rintro rfl
    exact (List.nodup_cons.mp hnd).1 hkr
  rw [Driver.bytesusedOf, ht.other k hkj]
  exact (hqueues.tail j rest hw k hkr).2

/-- A finished buffer is the one that became `DONE`. -/
theorem Represents.becameDone_of_touches {d d' : Driver} {c : Channel Nat} {j : Nat}
    {rest : List Nat} (h : Represents d.queue c) (hw : c.waiting = j :: rest)
    (ht : Touches d d' j) (hdone : d'.stateOf j = .done) : becameDone d d' = [j] := by
  have hlt : j < d.queue.count := h.below j (List.mem_append_right _ (by simp [hw]))
  refine becameDone_eq_singleton (ht.count ▸ hlt) ?_ hdone fun k hk => ?_
  · rcases h.head j rest hw with hs | hs <;> simp [Driver.stateOf, hs]
  · simp only [Driver.stateOf, ht.other k hk]

/-- A touched buffer that is not finished delivers nothing. -/
theorem becameDone_of_active {d d' : Driver} {j : Nat} (ht : Touches d d' j)
    (hactive : d'.stateOf j = .active) : becameDone d d' = [] := by
  refine becameDone_eq_nil fun k _ hk => ?_
  by_cases hkj : k = j
  · subst hkj
    exact absurd (hactive.symm.trans hk) (by decide)
  · rwa [Driver.stateOf, ht.other k hkj] at hk

/-- What a step delivers into the stream `past`, and what it leaves to be
filled. -/
def Advances (m m' : Machine) (past : List Packet) (a : Nat) (init : List UInt8)
    (fid : Int) : Prop :=
  (becameDone m.drv m'.drv = [] ∧ ∃ c' a', a ≤ a' ∧ Progress m' c' past a' init fid) ∨
  (∃ j b a' c', becameDone m.drv m'.drv = [j] ∧ b ≤ a' ∧
    Assembled past init fid
      ⟨j, past.length, (m'.drv.queue.buffer j).buf.length, m'.drv.contents j⟩ (a, b) ∧
    Progress m' c' past a' [] fid)

/-- A packet that starts a new frame closes the buffer of the old one. -/
theorem Progress.of_close {m m' : Machine} {c : Channel Nat} {past : List Packet} {a j : Nat}
    {rest : List Nat} {init : List UInt8} {fid : Int} {p : Packet}
    (h : Progress m c past a init fid) (hw : c.waiting = j :: rest)
    (hirq : m.drv.queue.irqqueue = some (j :: rest)) (hcur : CursorOk m')
    (hd : m'.drv = finishBuffer { m.drv with fid := nextFid m.drv p } j) :
    Advances m m' (past ++ [p]) a init fid := by
  have ht : Touches m.drv m'.drv j := hd ▸ closed_touches m.drv j _
  have hdone : m'.drv.stateOf j = .done := by
    rw [hd, Driver.stateOf, finishBuffer_buffer]
  have hfill := h.head j rest hw
  have hlt : j < m.drv.queue.count := h.queues.below j (List.mem_append_right _ (by simp [hw]))
  have hbuf : (m'.drv.queue.buffer j).buf = (m.drv.queue.buffer j).buf := by
    rw [hd, finishBuffer_buffer]
  have hcontents : m'.drv.contents j = m.drv.contents j :=
    contents_congr (by rw [hd]; rfl) hbuf
  obtain ⟨_, ⟨hactive, -⟩ | ⟨-, hrep⟩⟩ := h.queues.of_touched hirq ht
  · exact absurd (hactive.symm.trans hdone) (by decide)
  have hstretch : stretch (past ++ [p]) (a, past.length) = past.drop a := by
    simp [stretch]
  refine Or.inr ⟨j, past.length, (past ++ [p]).length, _,
    h.queues.becameDone_of_touches hw ht hdone, by simp, ⟨h.le, by simp, ?_, ?_⟩,
    Progress.next h.queues hw ht hrep hcur h.vendor⟩
  · rw [hstretch, ← hfill.whole, hcontents, hbuf, List.take_of_length_le]
    rw [length_contents]
    exact h.queues.fits j hlt
  · exact ⟨m.drv.lastFid, hfill.start, by rw [hstretch]; exact hfill.sameFid⟩

/-- A packet that is stored completes the buffer or is added to its stretch. -/
theorem Progress.of_stores {m m' : Machine} {c : Channel Nat} {past : List Packet} {a j : Nat}
    {rest : List Nat} {init : List UInt8} {fid : Int} {p : Packet} {d₁ : Driver}
    (h : Progress m c past a init fid) (hw : c.waiting = j :: rest)
    (hirq : m.drv.queue.irqqueue = some (j :: rest)) (hcur : CursorOk m')
    (hs : Stores m.drv d₁ j p)
    (hend : (frameComplete (m.drv.queue.buffer j).buf p (d₁.bytesusedOf j) ∧
        m'.drv = finishBuffer d₁ j) ∨
      (¬ frameComplete (m.drv.queue.buffer j).buf p (d₁.bytesusedOf j) ∧ m'.drv = d₁)) :
    Advances m m' (past ++ [p]) a init fid := by
  obtain ⟨ht₁, hactive, hirq₁⟩ := hs.touches
  have hfill := h.head j rest hw
  have hlt : j < m.drv.queue.count := h.queues.below j (List.mem_append_right _ (by simp [hw]))
  have hdrop : (past ++ [p]).drop a = past.drop a ++ [p] :=
    List.drop_append_of_le_length h.le
  have hle : a ≤ (past ++ [p]).length := by
    have := h.le
    simp only [List.length_append]
    omega
  rcases hend with ⟨-, hd⟩ | ⟨hopen, hd⟩
  · have ht : Touches m.drv m'.drv j := hd ▸ ht₁.finish hirq₁
    have hdone : m'.drv.stateOf j = .done := by
      rw [hd, Driver.stateOf, finishBuffer_buffer]
    obtain ⟨_, ⟨hact, -⟩ | ⟨-, hrep⟩⟩ := h.queues.of_touched hirq ht
    · exact absurd (hact.symm.trans hdone) (by decide)
    have hlen : (m'.drv.queue.buffer j).buf.length = (m.drv.queue.buffer j).buf.length := by
      obtain ⟨n, hn⟩ := ht.slot
      rw [hn]
    have hcontents : m'.drv.contents j = d₁.contents j := by
      rw [hd]
      exact contents_congr rfl (by rw [finishBuffer_buffer])
    have hstretch : stretch (past ++ [p]) (a, (past ++ [p]).length) = past.drop a ++ [p] := by
      rw [stretch, List.take_length, hdrop]
    refine Or.inr ⟨j, (past ++ [p]).length, (past ++ [p]).length, _,
      h.queues.becameDone_of_touches hw ht hdone, le_refl _, ⟨hle, le_refl _, ?_, ?_⟩,
      Progress.next h.queues hw ht hrep hcur h.vendor⟩
    · rw [hstretch, hcontents, hlen]
      exact hfill.bytes_of_stores hs h.vendor (h.queues.fits j hlt)
    · exact ⟨p.fidBit, (hfill.fid_of_stores hs h.vendor).1, by
        rw [hstretch]
        exact (hfill.fid_of_stores hs h.vendor).2⟩
  · have ht : Touches m.drv m'.drv j := hd ▸ ht₁
    have hact : m'.drv.stateOf j = .active := hd ▸ hactive
    obtain ⟨_, ⟨-, hrep⟩ | ⟨hdone, -⟩⟩ := h.queues.of_touched hirq ht
    · refine Or.inl ⟨becameDone_of_active ht hact, c, a, le_refl _,
        ⟨hrep, hcur, ht.idVendor ▸ h.vendor, hle, ?_, h.none⟩⟩
      intro k rest' hk
      rw [hw, List.cons.injEq] at hk
      rw [← hk.1, hdrop, hd]
      exact hfill.of_stores hs h.vendor hopen
    · exact absurd (hact.symm.trans hdone) (by decide)

/-- **One packet.** -/
theorem Progress.of_packet {v : Version} {m m' : Machine} {c : Channel Nat} {past : List Packet}
    {a : Nat} {init : List UInt8} {fid : Int} {p : Packet} {r : Reply}
    (h : Progress m c past a init fid) (hstep : step v m (.packet p) = .ok (r, m')) :
    Advances m m' (past ++ validOf (.packet p)) a init fid := by
  have hcur := h.cursor.kept hstep
  rcases step_packet_cases h.cursor hstep with ⟨hinv, hd⟩ | ⟨hvalid, hirq, hd⟩ |
      ⟨j, rest, hvalid, hirq, hcase⟩
  · have hnone : validOf (.packet p) = [] := if_neg hinv
    rw [hnone, List.append_nil]
    refine Or.inl ⟨?_, c, a, le_refl _, ?_⟩
    · rw [hd]
      exact becameDone_eq_nil fun _ _ hk => hk
    · refine ⟨?_, hcur, ?_, h.le, ?_, h.none⟩
      · rw [hd]
        exact h.queues
      · rw [hd]
        exact h.vendor
      · rw [hd]
        exact h.head
  · have hone : validOf (.packet p) = [p] := if_pos hvalid
    have hw : c.waiting = [] := (Option.some.inj (hirq.symm.trans h.queues.irq)).symm
    have hs : SameBuffers m.drv m'.drv := SameBuffers.of_queue (by rw [hd]) (by rw [hd])
    have hinit := h.none hw
    subst hinit
    rw [hone]
    refine Or.inl ⟨becameDone_eq_nil fun k _ hk => (hs.state k).symm.trans hk, c,
      (past ++ [p]).length, ?_, ?_⟩
    · have := h.le
      simp only [List.length_append]
      omega
    · refine Progress.restart (h.queues.of_same hs) hcur (hs.idVendor ▸ h.vendor) ?_
      intro k rest hk
      rw [hw] at hk
      cases hk
  · have hone : validOf (.packet p) = [p] := if_pos hvalid
    have hw : c.waiting = j :: rest := (Option.some.inj (hirq.symm.trans h.queues.irq)).symm
    rw [hone]
    rcases hcase with ⟨hwait, hfid, hd⟩ | ⟨-, -, hd⟩ | ⟨d₁, hs, hend⟩
    · have hs : SameBuffers m.drv m'.drv := SameBuffers.of_queue (by rw [hd]) (by rw [hd])
      have hfill := h.head j rest hw
      have hseg := hfill.waits hwait
      refine Or.inl ⟨becameDone_eq_nil fun k _ hk => (hs.state k).symm.trans hk, c,
        (past ++ [p]).length, ?_, ⟨h.queues.of_same hs, hcur, hs.idVendor ▸ h.vendor, le_refl _,
          ?_, h.none⟩⟩
      · have := h.le
        simp only [List.length_append]
        omega
      · intro k rest' hk
        rw [hw, List.cons.injEq] at hk
        rw [← hk.1, List.drop_length, ← hseg]
        exact hfill.of_same hs.mem (hs.buf j) (hs.state j) (by rw [hd])
    · exact h.of_close hw hirq hcur hd
    · exact h.of_stores hw hirq hcur hs hend

/-- **One step.** -/
theorem Progress.step {v : Version} {m m' : Machine} {c : Channel Nat} {past : List Packet}
    {a : Nat} {init : List UInt8} {fid : Int} {i : Input} {r : Reply}
    (h : Progress m c past a init fid) (hno : ¬ i.IsReqbufs)
    (hstep : Myuvc.step v m i = .ok (r, m')) :
    Advances m m' (past ++ validOf i) a init fid := by
  by_cases hp : ∃ p, i = .packet p
  · obtain ⟨p, rfl⟩ := hp
    exact h.of_packet hstep
  · have hp' : ∀ p, i ≠ .packet p := fun p hi => hp ⟨p, hi⟩
    have hnone : validOf i = [] := by
      cases i with
      | packet p => exact absurd rfl (hp' p)
      | _ => rfl
    rw [hnone, List.append_nil]
    exact Or.inl (h.of_other hno hp' hstep)

/-- A stretch does not change when further packets arrive. -/
theorem stretch_append {past : List Packet} {s : Nat × Nat} (more : List Packet)
    (h : s.2 ≤ past.length) : stretch (past ++ more) s = stretch past s := by
  rw [stretch, List.take_append_of_le_length h]
  rfl

theorem Assembled.append {past : List Packet} {init : List UInt8} {fid : Int} {D : Delivery}
    {s : Nat × Nat} (h : Assembled past init fid D s) (more : List Packet)
    (hs : s.2 ≤ past.length) : Assembled (past ++ more) init fid D s where
  ordered := h.ordered
  arrived := h.arrived
  bytes := by
    rw [stretch_append more hs]
    exact h.bytes
  sameFid := by
    rw [stretch_append more hs]
    exact h.sameFid

/-- **A whole run.** -/
theorem Progress.run {v : Version} {m : Machine} {c : Channel Nat} {past : List Packet}
    {a : Nat} {init : List UInt8} {fid : Int} {es : Log} (h : Progress m c past a init fid)
    (hrun : IsRun (Myuvc.step v) m es) (hno : ∀ e ∈ es, ¬ e.input.IsReqbufs) :
    ∃ ss, AllAssembled (past ++ validStream es) fid init (deliveries m past.length es) ss ∧
      ∀ s ∈ ss, a ≤ s.1 := by
  induction es generalizing m c past a init with
  | nil => exact ⟨[], trivial, fun s hs => by cases hs⟩
  | cons e rest ih =>
      obtain ⟨hstep, htail⟩ := hrun
      have hlater : ∀ x ∈ rest, ¬ x.input.IsReqbufs := fun x hx => hno x (List.mem_cons_of_mem _ hx)
      have hstream : past ++ validStream (e :: rest) =
          past ++ validOf e.input ++ validStream rest := by
        simp [validStream]
      have hseen : past.length + (validOf e.input).length = (past ++ validOf e.input).length := by
        simp
      rw [hstream, deliveries, hseen]
      rcases h.step (hno e List.mem_cons_self) hstep with ⟨hnone, c', a', hle, hnext⟩ |
          ⟨j, b, a', c', hone, hle, hasm, hnext⟩
      · obtain ⟨ss, hss, hfrom⟩ := ih hnext htail hlater
        refine ⟨ss, ?_, fun s hs => hle.trans (hfrom s hs)⟩
        rw [deliveriesOf, hnone]
        exact hss
      · obtain ⟨ss, hss, hfrom⟩ := ih hnext htail hlater
        refine ⟨(a, b) :: ss, ?_, ?_⟩
        · rw [deliveriesOf, hone]
          exact ⟨hasm.append _ hasm.arrived, fun t ht => hle.trans (hfrom t ht), hss⟩
        · intro s hs
          rcases List.mem_cons.mp hs with rfl | hs
          · exact le_refl _
          · exact (hasm.ordered.trans hle).trans (hfrom s hs)

/-- The bytes that the buffer at the head of `irqqueue` already holds. -/
def headBytes (d : Driver) : List UInt8 :=
  match d.queue.irqqueue with
  | some (i :: _) => d.contents i
  | _ => []

/-- The invariant holds at the start of a run, with the bytes of the head
buffer as they are. -/
theorem Progress.start {m : Machine} {c : Channel Nat} (hqueues : Represents m.drv.queue c)
    (hcur : CursorOk m) (hvendor : m.drv.idVendor ≠ 0x1B3B) :
    Progress m c [] 0 (headBytes m.drv) m.drv.lastFid where
  queues := hqueues
  cursor := hcur
  vendor := hvendor
  le := le_refl _
  head := fun i rest hw => by
    have hhead : headBytes m.drv = m.drv.contents i := by
      simp [headBytes, hqueues.irq, hw]
    rw [hhead]
    exact ⟨by simp [payloads], fun _ => rfl, fun p hp => absurd hp (by simp), fun _ => rfl⟩
  none := fun hw => by simp [headBytes, hqueues.irq, hw]

/-- **Frame reassembly.**  From any state between two URBs that satisfies the
queue invariant, with any calls and packets: the buffers that become `DONE` hold
the payloads of separate stretches of the stream of valid packets, in order and
cut to the buffer's length, and the packets of a stretch that carry bytes agree
in their frame-id bit.  A buffer that was partly filled at the start keeps what it
had in front.  No packet reaches two buffers. -/
theorem frame_reassembly {v : Version} {m : Machine} (hvendor : m.drv.idVendor ≠ 0x1B3B)
    (hidle : m.irq = none) (hinv : QueueInvariant m.drv.queue) {es : Log}
    (hrun : IsRun (step v) m es) (hno : ∀ e ∈ es, ¬ e.input.IsReqbufs) :
    (∃ ss, AllAssembled (validStream es) m.drv.lastFid (headBytes m.drv) (deliveries m 0 es) ss) ∧
    ∀ xs e ys p, es = xs ++ e :: ys → e.input = .packet p →
      ∃ j, ∀ k, k ≠ j → e.state.drv.queue.buffer k = (lastState m xs).drv.queue.buffer k := by
  obtain ⟨c, hqueues⟩ := (queueInvariant_iff _).mp hinv
  have hcur : CursorOk m := cursorOk_of_none hidle
  constructor
  · obtain ⟨ss, hss, -⟩ := (Progress.start hqueues hcur hvendor).run hrun hno
    exact ⟨ss, hss⟩
  · rintro xs e ys p rfl hinput
    have hcur' : CursorOk (lastState m xs) :=
      IsRun.keeps (fun m i r m' h hstep => h.kept hstep) (isRun_append.mp hrun).1 hcur
    have hstep := hrun.step_at
    rw [hinput] at hstep
    rcases step_packet_cases hcur' hstep with ⟨-, hd⟩ | ⟨-, -, hd⟩ | ⟨j, rest, -, -, hcase⟩
    · exact ⟨0, fun k _ => by rw [hd]⟩
    · exact ⟨0, fun k _ => by rw [hd]⟩
    · refine ⟨j, fun k hk => ?_⟩
      rcases hcase with ⟨-, -, hd⟩ | ⟨-, -, hd⟩ | ⟨d₁, hs, ⟨-, hd⟩ | ⟨-, hd⟩⟩
      · rw [hd]
      · rw [hd]
        exact (closed_touches _ j _).other k hk
      · rw [hd]
        exact (hs.touches.1.finish hs.touches.2.2).other k hk
      · rw [hd]
        exact hs.touches.1.other k hk

/-- Two packets of one frame, of which the second ends it, and one of the
next. -/
def frameLog : Log :=
  exec (step .th10) (Machine.withBuffers 0 2)
    [.call (.qbuf (queueRequest 0)), .call (.qbuf (queueRequest 1)),
      .call (.streamon plainEnv), .irq 1 0,
      .packet ⟨0, [2, 1, 0xAA], true⟩, .packet ⟨0, [2, 3, 0xBB, 0xCC], true⟩,
      .packet ⟨0, [2, 0, 0xDD], true⟩]

theorem frame_reassembly_of_two_packets :
    (deliveries (Machine.withBuffers 0 2) 0 frameLog).map Delivery.bytes = [[0xAA, 0xBB, 0xCC]] ∧
    ∃ ss, AllAssembled (validStream frameLog) (-1) []
      (deliveries (Machine.withBuffers 0 2) 0 frameLog) ss := by
  have hinv : QueueInvariant (Machine.withBuffers 0 2).drv.queue :=
    (queueInvariant_iff _).mpr ⟨_, represents_initQueue _ _ _ _⟩
  have hno : ∀ e ∈ frameLog, ¬ e.input.IsReqbufs := by
    intro e he
    have hin := input_mem_of_mem_exec he
    simp only [List.mem_cons, List.not_mem_nil, or_false] at hin
    rcases hin with h | h | h | h | h | h | h <;> simp [h, Input.IsReqbufs, Call.IsReqbufs]
  refine ⟨by decide +kernel, ?_⟩
  exact (frame_reassembly (m := Machine.withBuffers 0 2) (by decide) rfl hinv
    (isRun_exec _ _) hno).1

end Myuvc
