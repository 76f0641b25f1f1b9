import UsbCamera.Myuvc.Sessions
import UsbCamera.Video2lcd.Device

/-!
# The main loop of the application on the driver

`main` of `video2lcd` fetches a frame (`V4l2GetFrameForStreaming`: wait in
`poll`, then `VIDIOC_DQBUF`), shows it, and gives it back
(`V4l2PutFrameForStreaming`: `VIDIOC_QBUF` of `iVideoBufCurIndex`).  It shares
nothing with the driver but buffer indices.

A `System` is the driver's machine together with the application, which is at one
of the three calls.  The USB side moves in between as it likes.  All buffers of
the device are then always accounted for: they are in `mainqueue`, except the one
the application holds; and no call of the application ever fails
(`no_buffer_leaks`).
-/

namespace Video2lcd

open FaultRun TwoStageFifo Myuvc

/-- The call that the application makes next. -/
inductive Phase
  | poll
  | dequeue
  -- it holds a frame and gives it back next
  | putBack
  -- `main` has returned
  | stopped
deriving DecidableEq, Repr

/-- The application: its device, the frame it was given last, and where it is. -/
structure App where
  device : VideoDevice
  frame : VideoBuf Ptr
  phase : Phase

/-- `poll` waits for `POLLIN` or, as always, `POLLERR`.  It returns 1 in both
cases, and `V4l2GetFrameForStreaming` looks at nothing else. -/
def App.polled (a : App) : Reply → App
  | .mask m => if m &&& (POLLIN ||| POLLERR) = 0 then a else { a with phase := .dequeue }
  | _ => a

/-- The end of `V4l2GetFrameForStreaming`; where it fails, `main` returns. -/
def App.fetched (a : App) : Reply → App
  | .buffer b =>
      let device := { a.device with iVideoBufCurIndex := Int32.ofNat b.index }
      { device := device
        frame := describeFrame device (Int32.ofNat b.bytesused) (device.pucVideBuf b.index)
        phase := .putBack }
  | _ => { a with phase := .stopped }

/-- The end of `V4l2PutFrameForStreaming`. -/
def App.gaveBack (a : App) : Reply → App
  | .ret 0 => { a with phase := .poll }
  | _ => { a with phase := .stopped }

/-- The buffer that `V4l2PutFrameForStreaming` names. -/
def App.curIndex (a : App) : Nat := a.device.iVideoBufCurIndex.toUInt32.toNat

/-- How many buffers the application holds. -/
def App.held (a : App) : Nat := if a.phase = .putBack then 1 else 0

/-- The driver and the application. -/
structure System where
  machine : Machine
  app : App

/-- Who moves: the application makes its next call, or the USB side does
something. -/
inductive Activity
  | app
  | usb (i : Input)

/-- The next call of the application. -/
def App.nextCall (a : App) : Option Call :=
  match a.phase with
  | .poll => some .poll
  | .dequeue => some .dqbuf
  | .putBack => some (.qbuf (queueRequest a.curIndex))
  | .stopped => none

/-- The application after the answer to its call. -/
def App.answered (a : App) (r : Reply) : App :=
  match a.phase with
  | .poll => a.polled r
  | .dequeue => a.fetched r
  | .putBack => a.gaveBack r
  | .stopped => a

/-- One step of the system. -/
def System.step (v : Version) (s : System) : Activity → Except Fault (Reply × System)
  | .app =>
      match s.app.nextCall with
      | none => .error .outOfTurn
      | some c => (Myuvc.step v s.machine (.call c)).map fun x => (x.1, ⟨x.2, s.app.answered x.1⟩)
  | .usb (.call _) => .error .outOfTurn
  | .usb i => (Myuvc.step v s.machine i).map fun x => (x.1, ⟨x.2, s.app⟩)

/-- The answer the application hopes for: `poll` does not report an error, and
the other two calls succeed. -/
def App.Hopes (a : App) (r : Reply) : Prop :=
  match a.phase with
  | .poll => ∃ m, r = .mask m ∧ m &&& POLLERR = 0
  | .dequeue => ∃ b, r = .buffer b
  | .putBack => r = .ret 0
  | .stopped => False

/-- All `n` buffers are queued or held. -/
def System.Conserved (n : Nat) (s : System) : Prop :=
  s.machine.drv.queue.mainqueue.entries.length + s.app.held = n

/-- The calls of `V4l2InitDevice` behind `VIDIOC_REQBUFS`, and of
`V4l2StartDevice`: first `maps`, which ask about buffers and map them, then the
queueing of all `n` buffers, then the start. -/
def setupInputs (maps : List Call) (n : Nat) (env : StreamonEnv) : List Input :=
  maps.map Input.call ++ ((List.range n).map fun i => .call (.qbuf (queueRequest i))) ++
    [.call (.streamon env)]

/-- A call by which `V4l2InitDevice` asks about a buffer or maps it. -/
def mapsBuffer : Call → Prop
  | .querybuf _ | .mmap _ _ _ => True
  | _ => False

/-- Where the application and the channel of the driver stand to each other. -/
def App.Fits (n : Nat) (c : Channel Nat) (a : App) : Prop :=
  match a.phase with
  | .poll => c.inside.length = n
  | .dequeue => c.inside.length = n ∧ c.ready ≠ []
  | .putBack => c.inside.length + 1 = n ∧ a.curIndex < n ∧ a.curIndex ∉ c.inside
  | .stopped => False

/-- The invariant of the running system. -/
def System.Running (n : Nat) (s : System) : Prop :=
  s.machine.drv.queue.count = n ∧ ∃ c, Linked s.machine c ∧ s.app.Fits n c

theorem System.Running.conserved {n : Nat} {s : System} (h : s.Running n) : s.Conserved n := by
  obtain ⟨-, c, hlink, hfits⟩ := h
  unfold System.Conserved App.held
  rw [hlink.queues.main, ListHead.entries_some]
  unfold App.Fits at hfits
  split at hfits <;> rename_i hphase
  · simpa [hphase] using hfits
  · simpa [hphase] using hfits.1
  · simpa [hphase] using hfits.1
  · exact absurd hfits id

/-- `poll` on a queue with something in it reports no error, and input only when
a buffer is ready. -/
theorem poll_of_linked {m : Machine} {c : Channel Nat} (h : Linked m c) (hin : c.inside ≠ []) :
    ∃ mask, poll m.drv = .ok (.mask mask) ∧ mask &&& POLLERR = 0 ∧
      (mask &&& (POLLIN ||| POLLERR) ≠ 0 → c.ready ≠ []) := by
  obtain ⟨i, rest, hcons⟩ := List.exists_cons_of_ne_nil hin
  have hmain : m.drv.queue.mainqueue = some (i :: rest) := by rw [h.queues.main, hcons]
  cases hready : c.ready with
  | cons j ready =>
      have hij : i = j := by
        have hhead : c.inside = j :: (ready ++ c.waiting) := by simp [Channel.inside, hready]
        exact (List.cons.inj (hcons.symm.trans hhead)).1
      have hdone : (m.drv.queue.buffer i).state = .done :=
        h.queues.ready i (by simp [hready, hij])
      refine ⟨POLLIN ||| POLLRDNORM, ?_, rfl, fun _ => by simp⟩
      simp [poll, hmain, ListHead.listEmpty, ListHead.firstEntry, hdone]
  | nil =>
      have hwaiting : c.waiting = i :: rest := by simpa [Channel.inside, hready] using hcons
      refine ⟨0, ?_, rfl, fun hne => absurd rfl hne⟩
      rcases h.queues.head i rest hwaiting with hs | hs <;>
        simp [poll, hmain, ListHead.listEmpty, ListHead.firstEntry, hs]

/-- The buffer that was fetched is the one that will be given back. -/
theorem curIndex_fetched (a : App) {b : V4l2Buffer} (hb : b.index < 2 ^ 32) :
    (a.fetched (.buffer b)).curIndex = b.index := by
  have hbits : (Int32.ofNat b.index).toUInt32 = UInt32.ofNat b.index := rfl
  simp only [App.curIndex, App.fetched, hbits]
  exact UInt32.toNat_ofNat_of_lt' hb

/-- A step of the driver that is no request for buffers keeps their number, and
changes what is inside by what it accepts and delivers. -/
theorem linked_step {v : Version} {m m' : Machine} {c : Channel Nat} {i : Input} {r : Reply}
    (h : Linked m c) (hno : ¬ i.IsReqbufs) (hstep : step v m i = .ok (r, m')) :
    m'.drv.queue.count = m.drv.queue.count ∧
    ∃ c', Linked m' c' ∧ delivered i r ++ c'.inside = c.inside ++ accepted i r ∧
      (delivered i r = [] → c.ready ≠ [] → c'.ready ≠ []) := by
  obtain ⟨ops, c', hops, hlink, hent, htak⟩ := step_refines h hno hstep
  have hcons := hops.conserved
  rw [hent, htak] at hcons
  have hcount := (step_sameShape h.cursor hno hstep).count
  refine ⟨hcount, c', hlink, hcons, ?_⟩
  intro hdel hready
  obtain ⟨j, rest, hj⟩ := List.exists_cons_of_ne_nil hready
  obtain ⟨rest', hj'⟩ := hops.front_stays hj (htak.trans hdel)
  simp [hj']

/-- **The USB side moves.**  Nothing enters the queue and nothing leaves it, and
what is ready stays so. -/
theorem System.Running.usb {v : Version} {n : Nat} {s s' : System} {i : Input} {r : Reply}
    (h : s.Running n) (hstep : s.step v (.usb i) = .ok (r, s')) : s'.Running n := by
  obtain ⟨hcount, c, hlink, hfits⟩ := h
  have hcall : ∀ k, i ≠ .call k := by
    intro k hk
    subst hk
    cases hstep
  have hmap : (Myuvc.step v s.machine i).map (fun x => (x.1, (⟨x.2, s.app⟩ : System))) =
      .ok (r, s') := by
    cases i with
    | call k => exact absurd rfl (hcall k)
    | irq urb status => exact hstep
    | packet p => exact hstep
    | resubmit answer => exact hstep
  obtain ⟨x, hx, hs⟩ := map_eq_ok.mp hmap
  obtain ⟨-, rfl⟩ := Prod.mk.inj hs
  have hquiet : ¬ i.IsReqbufs ∧ accepted i x.1 = [] ∧ delivered i x.1 = [] := by
    cases i with
    | call k => exact absurd rfl (hcall k)
    | irq urb status => exact ⟨id, rfl, rfl⟩
    | packet p => exact ⟨id, rfl, rfl⟩
    | resubmit answer => exact ⟨id, rfl, rfl⟩
  obtain ⟨hno, hacc, hdel⟩ := hquiet
  obtain ⟨hkept, c', hlink', hcons, hready⟩ := linked_step hlink hno hx
  rw [hacc, hdel, List.nil_append, List.append_nil] at hcons
  refine ⟨hkept.trans hcount, c', hlink', ?_⟩
  unfold App.Fits at hfits ⊢
  rw [hcons]
  split at hfits <;> rename_i hphase <;> simp only [hphase]
  · exact hfits
  · exact ⟨hfits.1, hready hdel hfits.2⟩
  · exact hfits
  · exact hfits

/-- **The application waits.** -/
theorem System.Running.polls {v : Version} {n : Nat} {s : System} (hn : 1 ≤ n)
    (h : s.Running n) (hphase : s.app.phase = .poll) (hirq : s.machine.irq = none) :
    ∃ r s', s.step v .app = .ok (r, s') ∧ s.app.Hopes r ∧ s'.Running n := by
  obtain ⟨hcount, c, hlink, hfits⟩ := h
  have hlen : c.inside.length = n := by simpa [App.Fits, hphase] using hfits
  have hin : c.inside ≠ [] := by
    intro hnil
    rw [hnil, List.length_nil] at hlen
    omega
  obtain ⟨mask, hpoll, herr, hready⟩ := poll_of_linked hlink hin
  have hcall : call s.machine.drv .poll = .ok (.mask mask, s.machine.drv) := by
    simp [call, hpoll, Except.map]
  have hstep := step_of_call v hirq hcall
  refine ⟨.mask mask, ⟨⟨s.machine.drv, none⟩, s.app.polled (.mask mask)⟩, ?_, ?_, ?_⟩
  · simp [System.step, App.nextCall, App.answered, hphase, hstep, Except.map]
  · simpa [App.Hopes, hphase] using herr
  · have hlink' : Linked ⟨s.machine.drv, none⟩ c :=
      ⟨hlink.queues, hlink.mem, cursorOk_of_none rfl, hlink.named⟩
    refine ⟨hcount, c, hlink', ?_⟩
    simp only [App.polled]
    split
    · simpa [App.Fits, hphase] using hlen
    · rename_i hmask
      exact ⟨hlen, hready hmask⟩

/-- **The application takes a frame.** -/
theorem System.Running.dequeues {v : Version} {n : Nat} {s : System} (hmax : n ≤ BUFFERS)
    (h : s.Running n) (hphase : s.app.phase = .dequeue) (hirq : s.machine.irq = none) :
    ∃ r s', s.step v .app = .ok (r, s') ∧ s.app.Hopes r ∧ s'.Running n := by
  obtain ⟨hcount, c, hlink, hfits⟩ := h
  obtain ⟨hlen, hready⟩ : c.inside.length = n ∧ c.ready ≠ [] := by
    simpa [App.Fits, hphase] using hfits
  obtain ⟨i, rest, hcons⟩ := List.exists_cons_of_ne_nil hready
  obtain ⟨b, m', hstep, hb⟩ := hlink.dqbuf_of_ready v hcons hirq
  obtain ⟨hkept, c', hlink', hinside, -⟩ := linked_step hlink id hstep
  have hfront : c.inside = i :: c'.inside := by
    simpa [delivered, accepted, hb] using hinside.symm
  have hlt : b.index < n := by
    rw [hb, ← hcount]
    apply hlink.queues.below
    simp [hfront]
  have hnot : i ∉ c'.inside := by
    have hnodup : c.inside.Nodup := c.nodup
    rw [hfront] at hnodup
    exact (List.nodup_cons.mp hnodup).1
  have hBUFFERS : BUFFERS = 32 := rfl
  have hcur := curIndex_fetched s.app (b := b) (by omega)
  refine ⟨.buffer b, ⟨m', s.app.fetched (.buffer b)⟩, ?_, ?_, ?_⟩
  · simp [System.step, App.nextCall, App.answered, hphase, hstep, Except.map]
  · simp [App.Hopes, hphase]
  · refine ⟨hkept.trans hcount, c', hlink', ?_⟩
    have hputs : (s.app.fetched (.buffer b)).phase = .putBack := rfl
    simp only [App.Fits, hputs, hcur]
    refine ⟨?_, hlt, hb ▸ hnot⟩
    rw [hfront, List.length_cons] at hlen
    exact hlen

/-- **The application gives the frame back.** -/
theorem System.Running.putsBack {v : Version} {n : Nat} {s : System}
    (h : s.Running n) (hphase : s.app.phase = .putBack) (hirq : s.machine.irq = none) :
    ∃ r s', s.step v .app = .ok (r, s') ∧ s.app.Hopes r ∧ s'.Running n := by
  obtain ⟨hcount, c, hlink, hfits⟩ := h
  obtain ⟨hlen, hlt, hnot⟩ : c.inside.length + 1 = n ∧ s.app.curIndex < n ∧
      s.app.curIndex ∉ c.inside := by
    simpa [App.Fits, hphase] using hfits
  have hlt' : s.app.curIndex < s.machine.drv.queue.count := by omega
  have hidle : s.machine.drv.stateOf s.app.curIndex = .idle :=
    (hlink.queues.idle _ hlt').mpr hnot
  obtain ⟨d', hqbuf⟩ := hlink.canQueue hlt' hidle
  have hcall : call s.machine.drv (.qbuf (queueRequest s.app.curIndex)) = .ok (.ret 0, d') :=
    hqbuf
  have hstep := step_of_call v hirq hcall
  obtain ⟨hkept, c', hlink', hinside, -⟩ := linked_step hlink id hstep
  have hback : c'.inside = c.inside ++ [s.app.curIndex] := by
    simpa [delivered, accepted, queueRequest] using hinside
  refine ⟨.ret 0, ⟨⟨d', none⟩, s.app.gaveBack (.ret 0)⟩, ?_, ?_, ?_⟩
  · simp [System.step, App.nextCall, App.answered, hphase, hstep, Except.map]
  · simp [App.Hopes, hphase]
  · refine ⟨hkept.trans hcount, c', hlink', ?_⟩
    have hpolls : (s.app.gaveBack (.ret 0)).phase = .poll := rfl
    simp only [App.Fits, hpolls, hback, List.length_append, List.length_singleton]
    exact hlen

/-- **One call of the application** is always answered as it hopes. -/
theorem System.Running.calls {v : Version} {n : Nat} {s : System} (hn : 1 ≤ n)
    (hmax : n ≤ BUFFERS) (h : s.Running n) (hirq : s.machine.irq = none) :
    ∃ r s', s.step v .app = .ok (r, s') ∧ s.app.Hopes r ∧ s'.Running n := by
  cases hphase : s.app.phase with
  | poll => exact h.polls hn hphase hirq
  | dequeue => exact h.dequeues hmax hphase hirq
  | putBack => exact h.putsBack hphase hirq
  | stopped =>
      obtain ⟨-, c, -, hfits⟩ := h
      simp [App.Fits, hphase] at hfits

/-- **One step** of the system, whoever moves. -/
theorem System.Running.kept {v : Version} {n : Nat} {s s' : System} {a : Activity} {r : Reply}
    (hn : 1 ≤ n) (hmax : n ≤ BUFFERS) (h : s.Running n) (hstep : s.step v a = .ok (r, s')) :
    s'.Running n := by
  cases a with
  | usb i => exact h.usb hstep
  | app =>
      have hirq : s.machine.irq = none := by
        simp only [System.step] at hstep
        split at hstep
        · cases hstep
        · obtain ⟨x, hx, -⟩ := map_eq_ok.mp hstep
          obtain ⟨-, -, hirq, -⟩ := step_call hx
          exact hirq
      obtain ⟨r', s'', hstep', -, hrun⟩ := h.calls hn hmax hirq
      obtain ⟨-, rfl⟩ := Prod.mk.inj (Except.ok.inj (hstep.symm.trans hstep'))
      exact hrun

/-- Asking about buffers and mapping them queues none. -/
theorem accepted_maps {c : Call} {r : Reply} (h : mapsBuffer c) :
    ¬ (Input.call c).IsReqbufs ∧ accepted (.call c) r = [] ∧ delivered (.call c) r = [] := by
  cases c with
  | querybuf index => exact ⟨id, rfl, rfl⟩
  | mmap pgoff size insert => exact ⟨id, rfl, rfl⟩
  | _ => exact absurd h id

/-- The calls that map the buffers leave the channel as it is. -/
theorem linked_maps {v : Version} {maps : List Call} {m : Machine} {c : Channel Nat} {es : Log}
    (h : Linked m c) (hmaps : ∀ k ∈ maps, mapsBuffer k) (hrun : IsRun (step v) m es)
    (hin : es.map Entry.input = maps.map Input.call) :
    (lastState m es).drv.queue.count = m.drv.queue.count ∧
    ∃ c', Linked (lastState m es) c' ∧ c'.inside = c.inside := by
  induction es generalizing m c maps with
  | nil => exact ⟨rfl, c, h, rfl⟩
  | cons e rest ih =>
      obtain ⟨hstep, htail⟩ := hrun
      cases maps with
      | nil => cases hin
      | cons k maps =>
          obtain ⟨hk, hrest⟩ := List.cons.inj hin
          rw [hk] at hstep
          obtain ⟨hno, hacc, hdel⟩ := accepted_maps (r := e.reply) (hmaps k List.mem_cons_self)
          obtain ⟨hcount, c', hlink, hcons, -⟩ := linked_step h hno hstep
          rw [hacc, hdel, List.nil_append, List.append_nil] at hcons
          obtain ⟨hcount', c'', hlink', hinside⟩ :=
            ih hlink (fun x hx => hmaps x (List.mem_cons_of_mem _ hx)) htail hrest
          exact ⟨hcount'.trans hcount, c'', hlink', hinside.trans hcons⟩

/-- **The queueing loop** on the driver: buffers that are not queued yet are all
accepted. -/
theorem linked_queueing {v : Version} {is : List Nat} {m : Machine} {c : Channel Nat} {es : Log}
    (h : Linked m c) (hnodup : is.Nodup) (hlt : ∀ i ∈ is, i < m.drv.queue.count)
    (hout : ∀ i ∈ is, i ∉ c.inside) (hrun : IsRun (step v) m es)
    (hin : es.map Entry.input = is.map fun i => .call (.qbuf (queueRequest i))) :
    (lastState m es).drv.queue.count = m.drv.queue.count ∧
    ∃ c', Linked (lastState m es) c' ∧ c'.inside = c.inside ++ is := by
  induction es generalizing m c is with
  | nil =>
      cases is with
      | nil => exact ⟨rfl, c, h, by simp⟩
      | cons i is => cases hin
  | cons e rest ih =>
      obtain ⟨hstep, htail⟩ := hrun
      cases is with
      | nil => cases hin
      | cons i is =>
          obtain ⟨hi, hrest⟩ := List.cons.inj hin
          rw [hi] at hstep
          obtain ⟨hnew, hnodup⟩ := List.nodup_cons.mp hnodup
          have hlt' := hlt i List.mem_cons_self
          have hidle : m.drv.stateOf i = .idle :=
            (h.queues.idle i hlt').mpr (hout i List.mem_cons_self)
          obtain ⟨d', hqbuf⟩ := h.canQueue hlt' hidle
          obtain ⟨d'', hstate, -, hcall⟩ := step_call hstep
          have hreply : e.reply = .ret 0 :=
            (Prod.mk.inj (Except.ok.inj (hcall.symm.trans hqbuf))).1
          obtain ⟨hcount, c', hlink, hcons, -⟩ := linked_step h id hstep
          have hback : c'.inside = c.inside ++ [i] := by
            simpa [delivered, accepted, queueRequest, hreply] using hcons
          have hout' : ∀ j ∈ is, j ∉ c'.inside := by
            intro j hj hmem
            rw [hback, List.mem_append, List.mem_singleton] at hmem
            rcases hmem with hmem | rfl
            · exact hout j (List.mem_cons_of_mem _ hj) hmem
            · exact hnew hj
          have hlt'' : ∀ j ∈ is, j < e.state.drv.queue.count := by
            intro j hj
            rw [hcount]
            exact hlt j (List.mem_cons_of_mem _ hj)
          obtain ⟨hcount', c'', hlink', hinside⟩ := ih hlink hnodup hlt'' hout' htail hrest
          refine ⟨hcount'.trans hcount, c'', hlink', ?_⟩
          rw [hinside, hback, List.append_assoc, List.singleton_append]

/-- **The start.**  Once all buffers that the driver gave are queued and the
stream is started, the application can begin to wait. -/
theorem running_after_setup {v : Version} {m m' : Machine} {count : UInt32}
    {alloc : Nat → Option (Nat → UInt8)} {n : Nat} (hn : 1 ≤ n)
    (hreq : step v m (.call (.reqbufs count alloc)) = .ok (.ret n, m'))
    {maps : List Call} (hmaps : ∀ k ∈ maps, mapsBuffer k) {env : StreamonEnv} {setup : Log}
    (hsetup : IsRun (step v) m' setup)
    (hin : setup.map Entry.input = setupInputs maps n env)
    {app : App} (happ : app.phase = .poll) :
    n ≤ BUFFERS ∧ System.Running n ⟨lastState m' setup, app⟩ := by
  obtain ⟨d', rfl, -, hcall⟩ := step_call hreq
  obtain ⟨mem, hmax, -, hd⟩ := vidiocReqbufs_gave hn hcall
  have hcount : d'.queue.count = n := by rw [hd]; rfl
  have hlink := linked_of_reqbufs hn hreq
  obtain ⟨before, start, rfl, hbefore, hstart⟩ := List.map_eq_append_iff.mp hin
  obtain ⟨mapped, queueing, rfl, hmapped, hqueueing⟩ := List.map_eq_append_iff.mp hbefore
  obtain ⟨hearly, hlate⟩ := isRun_append.mp hsetup
  obtain ⟨hfirst, hsecond⟩ := isRun_append.mp hearly
  obtain ⟨hcount₁, c₁, hlink₁, hinside₁⟩ := linked_maps hlink hmaps hfirst hmapped
  have hlt : ∀ i ∈ List.range n, i < (lastState ⟨d', none⟩ mapped).drv.queue.count := by
    intro i hi
    rw [hcount₁, hcount]
    exact List.mem_range.mp hi
  have hout : ∀ i ∈ List.range n, i ∉ c₁.inside := by
    intro i _
    rw [hinside₁]
    exact List.not_mem_nil
  obtain ⟨hcount₂, c₂, hlink₂, hinside₂⟩ :=
    linked_queueing hlink₁ List.nodup_range hlt hout hsecond hqueueing
  obtain ⟨e, rfl⟩ := List.length_eq_one_iff.mp
    (show start.length = 1 by simpa using congrArg List.length hstart)
  have he : e.input = .call (.streamon env) := (List.cons.inj hstart).1
  have hon := hlate.1
  rw [he, lastState_append] at hon
  obtain ⟨hcount₃, c₃, hlink₃, hinside₃, -⟩ := linked_step hlink₂ id hon
  have hall : c₃.inside = List.range n := by
    have hsame : c₃.inside = c₂.inside := by simpa [delivered, accepted] using hinside₃
    rw [hsame, hinside₂, hinside₁]
    rfl
  refine ⟨hmax, ?_, c₃, ?_, ?_⟩
  · simp only [lastState_append, lastState_cons, lastState_nil]
    rw [hcount₃, hcount₂, hcount₁, hcount]
  · simpa using hlink₃
  · simp [App.Fits, happ, hall]

/-- **No buffer leaks.**  Take a device whose `n` buffers were all queued before
it was started, and let the main loop run on it, in any interleaving with the USB
side.  At every moment the buffers in `mainqueue` and the one the application may
hold are `n` together; and whenever the application gets to make its next call,
`poll` reports no error, `VIDIOC_DQBUF` gives a buffer, and `VIDIOC_QBUF` takes
it back. -/
theorem no_buffer_leaks {v : Version} {m m' : Machine} {count : UInt32}
    {alloc : Nat → Option (Nat → UInt8)} {n : Nat} (hn : 1 ≤ n)
    (hreq : step v m (.call (.reqbufs count alloc)) = .ok (.ret n, m'))
    {maps : List Call} (hmaps : ∀ k ∈ maps, mapsBuffer k) {env : StreamonEnv} {setup : Log}
    (hsetup : IsRun (step v) m' setup)
    (hin : setup.map Entry.input = setupInputs maps n env)
    {app : App} (happ : app.phase = .poll) {es : List (Entry Activity Reply System)}
    (hrun : IsRun (System.step v) ⟨lastState m' setup, app⟩ es) :
    ∀ xs ys, es = xs ++ ys →
      (lastState ⟨lastState m' setup, app⟩ xs).Conserved n ∧
      ((lastState ⟨lastState m' setup, app⟩ xs).machine.irq = none →
        ∃ r s', (lastState ⟨lastState m' setup, app⟩ xs).step v .app = .ok (r, s') ∧
          (lastState ⟨lastState m' setup, app⟩ xs).app.Hopes r) := by
  obtain ⟨hmax, hstart⟩ := running_after_setup hn hreq hmaps hsetup hin happ
  intro xs ys hsplit
  subst hsplit
  have hrunning := (isRun_append.mp hrun).1.keeps
    (fun s a r s' h hstep => System.Running.kept hn hmax h hstep) hstart
  refine ⟨hrunning.conserved, ?_⟩
  intro hirq
  obtain ⟨r, s', hstep, hhopes, -⟩ := hrunning.calls hn hmax hirq
  exact ⟨r, s', hstep, hhopes⟩

/-- Two buffers are mapped and queued, and the stream is started. -/
def twoBufferSetup : Log :=
  exec (step .th10) (Machine.withBuffers 0 2)
    (setupInputs [.querybuf 0, .mmap 0 77824 fun _ => 0, .querybuf 1, .mmap 19 77824 fun _ => 0] 2
      plainEnv)

/-- The application as it enters its loop. -/
def waitingApp : App where
  device := ⟨3, V4L2_PIX_FMT_MJPEG, 320, 240, 2, 77312, 0, fun i => .mapped i⟩
  frame := ⟨⟨0, 0, 0, 0, 0, .null⟩, 0⟩
  phase := .poll

/-- The application polls in vain; a URB brings a whole frame; the application
polls again, takes the frame and gives it back. -/
def oneFrameLog : List (Entry Activity Reply System) :=
  exec (System.step .th10) ⟨lastState (Machine.withBuffers 0 2) twoBufferSetup, waitingApp⟩
    [.app, .usb (.irq 1 0), .usb (.packet ⟨0, [2, 3, 0xAA], true⟩), .usb (.resubmit 0), .app,
      .app, .app]

theorem no_buffer_leaks_one_frame :
    oneFrameLog.length = 7 ∧
    ∀ xs ys, oneFrameLog = xs ++ ys →
      (lastState ⟨lastState (Machine.withBuffers 0 2) twoBufferSetup, waitingApp⟩ xs).Conserved 2 ∧
      ((lastState ⟨lastState (Machine.withBuffers 0 2) twoBufferSetup, waitingApp⟩
          xs).machine.irq = none →
        ∃ r s', (lastState ⟨lastState (Machine.withBuffers 0 2) twoBufferSetup, waitingApp⟩
            xs).step .th10 .app = .ok (r, s') ∧
          (lastState ⟨lastState (Machine.withBuffers 0 2) twoBufferSetup, waitingApp⟩
            xs).app.Hopes r) := by
  have hmaps : ∀ k ∈ [Call.querybuf 0, .mmap 0 77824 fun _ => 0, .querybuf 1,
      .mmap 19 77824 fun _ => 0], mapsBuffer k := by
    simp [mapsBuffer]
  exact ⟨rfl, no_buffer_leaks (by decide)
    (step_reqbufs_withFormat .th10 0 (n := 2) (by decide) (by decide)) hmaps (isRun_exec _ _) rfl
    rfl (isRun_exec _ _)⟩

end Video2lcd
