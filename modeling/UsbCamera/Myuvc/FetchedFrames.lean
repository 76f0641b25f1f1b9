import UsbCamera.Myuvc.FrameStability
import UsbCamera.Myuvc.Reassembly

/-!
# The frames that the application gets

A frame is complete when its buffer becomes `DONE`, and the application gets it later, with
`VIDIOC_DQBUF`.  In between the handler goes on to fill other buffers and the application to
queue some.

The buffers in the ready part of the channel, each with the bytes it holds, form a list.
A step that completes a frame appends it, a step that hands one over takes the first, and no
step changes what is in it (`Linked.step_ready`).  So the frames handed over over a run are,
in order and byte for byte, the first ones of those that were completed, and each of them is
made of the payloads of a stretch of the packet stream of its own
(`fetched_frames_assembled`).
-/

namespace Myuvc

open FaultRun TwoStageFifo

/-- A buffer with the bytes received in it. -/
def frameOf (d : Driver) (j : Nat) : Nat × List UInt8 := (j, d.contents j)

/-- A completed frame. -/
def Delivery.frame (D : Delivery) : Nat × List UInt8 := (D.index, D.bytes)

/-- The frames that a run hands over, each with the bytes that it holds at that moment. -/
def fetches : Machine → Log → List (Nat × List UInt8)
  | _, [] => []
  | m, e :: rest => (delivered e.input e.reply).map (frameOf m.drv) ++ fetches e.state rest

theorem fetches_append (m : Machine) (xs ys : Log) :
    fetches m (xs ++ ys) = fetches m xs ++ fetches (lastState m xs) ys := by
  induction xs generalizing m with
  | nil => rfl
  | cons e rest ih => simp [fetches, ih]

theorem deliveriesOf_frame (d d' : Driver) (seen : Nat) :
    (deliveriesOf d d' seen).map Delivery.frame = (becameDone d d').map (frameOf d') := by
  rw [deliveriesOf, List.map_map]
  rfl

/-- A frame that is the same all over has the same received bytes. -/
theorem SameFrame.contents {d d' : Driver} {i : Nat} (h : SameFrame d d' i)
    (hfits : d.bytesusedOf i ≤ (d.queue.buffer i).buf.length)
    (hlen : (d'.queue.buffer i).buf.length = (d.queue.buffer i).buf.length) :
    d'.contents i = d.contents i := by
  obtain ⟨hused, hbytes⟩ := h
  have hcut (e : Driver) (hle : e.bytesusedOf i ≤ (e.queue.buffer i).buf.length) :
      e.contents i = (e.slotBytes i).take (e.bytesusedOf i) := by
    obtain ⟨rest, hrest⟩ := Nat.exists_eq_add_of_le hle
    rw [Driver.slotBytes, hrest, ByteStore.read_add, List.take_left' (ByteStore.length_read _ _ _)]
    rfl
  rw [hcut d hfits, hcut d' (by rw [hused, hlen]; exact hfits), hbytes, hused]

/-- A ready buffer that is not queued again keeps its frame over a step. -/
theorem Linked.frameOf_kept {v : Version} {m m' : Machine} {c : Channel Nat} {i : Input} {r : Reply}
    (h : Linked m c) (hlaid : LaidOut m) (hno : ¬ i.IsReqbufs) (hstep : step v m i = .ok (r, m'))
    (hacc : ∀ j ∈ c.ready, j ∉ accepted i r) :
    c.ready.map (frameOf m'.drv) = c.ready.map (frameOf m.drv) := by
  apply List.map_congr_left
  intro j hj
  have hlt : j < m.drv.queue.count := h.queues.below j (List.mem_append_left _ hj)
  have hrest : Resting m.drv j := ⟨hlt, Or.inl (h.queues.ready j hj)⟩
  obtain ⟨-, hsame⟩ := hlaid.resting_kept hrest hno (hacc j hj) hstep
  obtain ⟨n, hn⟩ := (step_sameShape h.cursor hno hstep).buf j
  rw [frameOf, frameOf, hsame.contents (h.queues.fits j hlt) (by rw [hn])]

/-- **Step lemma.**  A step takes the first ready frame, appends the frame that it completes,
or leaves the ready frames alone. -/
theorem Linked.step_ready {v : Version} {m m' : Machine} {c : Channel Nat} {i : Input} {r : Reply}
    (h : Linked m c) (hlaid : LaidOut m) (hno : ¬ i.IsReqbufs)
    (hstep : step v m i = .ok (r, m')) :
    ∃ c', Linked m' c' ∧
      (delivered i r).map (frameOf m.drv) ++ c'.ready.map (frameOf m'.drv) =
        c.ready.map (frameOf m.drv) ++ (becameDone m.drv m'.drv).map (frameOf m'.drv) := by
  have hshape := step_sameShape h.cursor hno hstep
  have hnamed : ∀ j, j < m'.drv.queue.count → (m'.drv.queue.buffer j).buf.index = j := by
    intro j hj
    rw [hshape.index j]
    exact h.named j (hshape.count ▸ hj)
  have hkeep := h.frameOf_kept hlaid hno hstep
  rcases step_effect h.cursor hstep with ⟨hreq, -⟩ |
      ⟨b, main, irq, rfl, rfl, hb, hidle, hmain, hirq, rfl⟩ |
      ⟨j, rest, rfl, rfl, hmain, hdone, rfl⟩ | ⟨p, j, rest, rfl, -, hirq, ht, hcur⟩ |
      ⟨-, hacc, hdel, hcur, hs⟩
  · exact absurd hreq hno
  · have hout : b.index ∉ c.inside := (h.queues.idle _ hb).mp hidle
    refine ⟨_, ⟨h.queues.of_queued hb hmain hirq hout, h.mem, cursorOk_of_none rfl, hnamed⟩, ?_⟩
    have hsame := hkeep fun k hk hin => by
      rw [accepted, if_pos rfl, List.mem_singleton] at hin
      exact hout (hin ▸ List.mem_append_left _ hk)
    rw [becameDone_queued]
    simpa [delivered, Channel.enter] using hsame
  · obtain ⟨ready, hready, hrep⟩ := h.queues.of_dequeued hmain hdone
    have hj : j < m.drv.queue.count := h.queues.below j (by simp [Channel.inside, hready])
    refine ⟨_, ⟨hrep, h.mem, cursorOk_of_none rfl, hnamed⟩, ?_⟩
    have hsame := hkeep fun k hk hin => by cases hin
    rw [hready, List.map_cons, List.map_cons] at hsame
    rw [becameDone_dequeued hdone, hready]
    simpa [delivered, h.named j hj, Channel.take] using (List.cons.inj hsame).2
  · have hmem : m'.drv.queue.mem.isSome := ht.mem ▸ h.mem
    have hsame := hkeep fun k hk hin => by cases hin
    obtain ⟨hw, ⟨hactive, hrep⟩ | ⟨hdone, hrep⟩⟩ := h.queues.of_touched hirq ht
    · refine ⟨c, ⟨hrep, hmem, hcur, hnamed⟩, ?_⟩
      rw [becameDone_of_active ht hactive]
      simpa [delivered] using hsame
    · refine ⟨_, ⟨hrep, hmem, hcur, hnamed⟩, ?_⟩
      rw [h.queues.becameDone_of_touches hw ht hdone]
      simpa [delivered, Channel.finish] using hsame
  · have hmem : m'.drv.queue.mem.isSome := hs.mem ▸ h.mem
    refine ⟨c, ⟨h.queues.of_same hs, hmem, hcur, hnamed⟩, ?_⟩
    have hsame := hkeep fun k hk hin => by
      rw [hacc] at hin
      cases hin
    rw [hdel, becameDone_eq_nil fun k _ hk => (hs.state k).symm.trans hk, hsame]
    simp

/-- **Run lemma.**  What a run hands over, followed by what is ready at its end, is what was
ready at its start followed by what it completed. -/
theorem Linked.run_ready {v : Version} {m : Machine} {c : Channel Nat} {es : Log}
    (h : Linked m c) (hlaid : LaidOut m) (hrun : IsRun (step v) m es)
    (hno : ∀ e ∈ es, ¬ e.input.IsReqbufs) (seen : Nat) :
    ∃ c', Linked (lastState m es) c' ∧
      fetches m es ++ c'.ready.map (frameOf (lastState m es).drv) =
        c.ready.map (frameOf m.drv) ++ (deliveries m seen es).map Delivery.frame := by
  induction es generalizing m c seen with
  | nil => exact ⟨c, h, by simp [fetches, deliveries]⟩
  | cons e rest ih =>
      obtain ⟨hstep, htail⟩ := hrun
      obtain ⟨c₁, hlink, hhead⟩ := h.step_ready hlaid (hno e List.mem_cons_self) hstep
      obtain ⟨c', hend, hrest⟩ := ih hlink (hlaid.kept hstep) htail
        (fun x hx => hno x (List.mem_cons_of_mem _ hx)) (seen + (validOf e.input).length)
      refine ⟨c', hend, ?_⟩
      rw [fetches, deliveries, List.map_append, deliveriesOf_frame, lastState_cons,
        List.append_assoc, hrest, ← List.append_assoc, hhead, List.append_assoc]

/-- The first of several assembled frames are assembled. -/
theorem AllAssembled.first {stream : List Packet} {fid : Int} {init : List UInt8}
    {Ds Es : List Delivery} {ss : List (Nat × Nat)}
    (h : AllAssembled stream fid init (Ds ++ Es) ss) :
    ∃ ts, AllAssembled stream fid init Ds ts ∧ ∀ t ∈ ts, t ∈ ss := by
  induction Ds generalizing init ss with
  | nil => exact ⟨[], trivial, fun t ht => absurd ht List.not_mem_nil⟩
  | cons D Ds ih =>
      cases ss with
      | nil => exact absurd h id
      | cons s ss =>
          obtain ⟨hasm, hafter, hrest⟩ := h
          obtain ⟨ts, hts, hsub⟩ := ih hrest
          refine ⟨s :: ts, ⟨hasm, fun t ht => hafter t (hsub t ht), hts⟩, ?_⟩
          intro t ht
          rcases List.mem_cons.mp ht with rfl | ht
          · exact List.mem_cons_self
          · exact List.mem_cons_of_mem _ (hsub t ht)

/-- Each of the assembled frames has its stretch. -/
theorem AllAssembled.of_mem {stream : List Packet} {fid : Int} {Ds : List Delivery}
    {ss : List (Nat × Nat)} (h : AllAssembled stream fid [] Ds ss) {D : Delivery} (hD : D ∈ Ds) :
    ∃ s, Assembled stream [] fid D s := by
  induction Ds generalizing ss with
  | nil => exact absurd hD List.not_mem_nil
  | cons E Ds ih =>
      cases ss with
      | nil => exact absurd h id
      | cons s ss =>
          obtain ⟨hasm, -, hrest⟩ := h
          rcases List.mem_cons.mp hD with rfl | hD
          · exact ⟨s, hasm⟩
          · exact ih hrest hD

/-- The vendor is that of the device for which the driver was loaded. -/
theorem idVendor_of_run {v : Version} {idVendor : Nat} {es : Log}
    (hrun : IsRun (step v) (Machine.load idVendor) es) :
    (lastState (Machine.load idVendor) es).drv.idVendor = idVendor := by
  have hkeep : ∀ m i r m', (CursorOk m ∧ m.drv.idVendor = idVendor) →
      step v m i = .ok (r, m') → CursorOk m' ∧ m'.drv.idVendor = idVendor :=
    fun m i r m' h hstep => ⟨h.1.kept hstep, (step_idVendor h.1 hstep).trans h.2⟩
  exact (hrun.keeps hkeep ⟨cursorOk_of_none rfl, rfl⟩).2

/-- From an empty queue on, the frames that a run hands over are the first ones of those it
completes, and they are assembled from the packet stream. -/
theorem Linked.fetches_assembled {v : Version} {m : Machine} (h : Linked m Channel.empty)
    (hlaid : LaidOut m) (hvendor : m.drv.idVendor ≠ 0x1B3B) {es : Log}
    (hrun : IsRun (step v) m es) (hno : ∀ e ∈ es, ¬ e.input.IsReqbufs) :
    ∃ fetched later ss, deliveries m 0 es = fetched ++ later ∧
      fetches m es = fetched.map Delivery.frame ∧
      AllAssembled (validStream es) m.drv.lastFid [] fetched ss := by
  obtain ⟨c', -, hsplit⟩ := h.run_ready hlaid hrun hno 0
  obtain ⟨fetched, later, hparts, hfetched, -⟩ := List.map_eq_append_iff.mp hsplit.symm
  obtain ⟨ss, hss, -⟩ := (Progress.start h.queues h.cursor hvendor).run hrun hno
  have hempty : headBytes m.drv = [] := by simp [headBytes, h.queues.irq, Channel.empty]
  rw [hempty, List.nil_append, List.length_nil, hparts] at hss
  obtain ⟨ts, hts, -⟩ := hss.first
  exact ⟨fetched, later, ts, hparts, hfetched.symm, hts⟩

/-- A frame of two packets is completed, the next one is begun, and the first is taken. -/
def fetchedLog : Log :=
  exec (step .th10) (Machine.withBuffers 0 2)
    [.call (.qbuf (queueRequest 0)), .call (.qbuf (queueRequest 1)),
      .call (.streamon plainEnv), .irq 1 0,
      .packet ⟨0, [2, 1, 0xAA], true⟩, .packet ⟨0, [2, 3, 0xBB, 0xCC], true⟩,
      .packet ⟨0, [2, 0, 0xDD], true⟩, .resubmit 0, .call .dqbuf]

end Myuvc
