import UsbCamera.Myuvc.FetchedFrames
import UsbCamera.Video2lcd.JpegSource
import UsbCamera.Video2lcd.UvcCamera

/-!
# From the packets of the camera to the decoder

Between the USB packets and the bytes that `libjpeg` sees lie the interrupt handler, the two
queues of the driver, the mapped buffers, the main loop of the application and the source
manager.  Each of them has its own development; here they are put together.

While the application holds a frame, it is the last one that `VIDIOC_DQBUF` handed over,
and it is still as it was then, whatever the handler does meanwhile (`Holding.step`).  The
pointer of the frame is the one that the mapping loop of `V4l2InitDevice` has noted for the
buffer, and leads to the buffer's pages (`MapsSlot.view_eq`).  So the decoder reads through it,
whatever it asks for, the payloads of one stretch of the packet stream, cut to the buffer's
length, and then end-of-image markers (`decoder_reads_camera_frame`).
-/

namespace Video2lcd

open FaultRun TwoStageFifo Myuvc

/-- What a step of the system is to the driver. -/
def System.input (s : System) : Activity → Option Input
  | .app => s.app.nextCall.map Input.call
  | .usb i => some i

/-- The driver's part of a run. -/
def machineLog : System → List (Entry Activity Reply System) → Log
  | _, [] => []
  | s, e :: rest =>
      ((s.input e.input).toList.map fun i => ⟨i, e.reply, e.state.machine⟩) ++
        machineLog e.state rest

/-- The application after a step of the system. -/
def App.after (a : App) (r : Reply) : Activity → App
  | .app => a.answered r
  | .usb _ => a

/-- A step of the system is one of the driver. -/
theorem System.step_machine {v : Version} {s s' : System} {a : Activity} {r : Reply}
    (h : s.step v a = .ok (r, s')) :
    ∃ i, s.input a = some i ∧ ¬ i.IsReqbufs ∧ Myuvc.step v s.machine i = .ok (r, s'.machine) ∧
      s'.app = s.app.after r a := by
  cases a with
  | app =>
      simp only [System.step] at h
      split at h
      · cases h
      · rename_i c hcall
        obtain ⟨x, hx, hs⟩ := map_eq_ok.mp h
        obtain ⟨rfl, rfl⟩ := Prod.mk.inj hs
        refine ⟨.call c, by rw [System.input, hcall, Option.map_some], ?_, hx, rfl⟩
        unfold App.nextCall at hcall
        split at hcall <;> cases hcall <;> exact id
  | usb i =>
      cases i with
      | call c => cases h
      | irq urb status =>
          obtain ⟨x, hx, hs⟩ := map_eq_ok.mp h
          obtain ⟨rfl, rfl⟩ := Prod.mk.inj hs
          exact ⟨_, rfl, id, hx, rfl⟩
      | packet p =>
          obtain ⟨x, hx, hs⟩ := map_eq_ok.mp h
          obtain ⟨rfl, rfl⟩ := Prod.mk.inj hs
          exact ⟨_, rfl, id, hx, rfl⟩
      | resubmit answer =>
          obtain ⟨x, hx, hs⟩ := map_eq_ok.mp h
          obtain ⟨rfl, rfl⟩ := Prod.mk.inj hs
          exact ⟨_, rfl, id, hx, rfl⟩

/-- The driver's part of a run is a run of the driver, without a request for buffers. -/
theorem machineLog_spec {v : Version} {s : System} {es : List (Entry Activity Reply System)}
    (h : IsRun (System.step v) s es) :
    IsRun (Myuvc.step v) s.machine (machineLog s es) ∧
      lastState s.machine (machineLog s es) = (lastState s es).machine ∧
      ∀ e ∈ machineLog s es, ¬ e.input.IsReqbufs := by
  induction es generalizing s with
  | nil => exact ⟨trivial, rfl, fun e he => absurd he List.not_mem_nil⟩
  | cons e rest ih =>
      obtain ⟨hstep, htail⟩ := h
      obtain ⟨i, hi, hno, hmachine, -⟩ := System.step_machine hstep
      obtain ⟨hrun, hlast, hrest⟩ := ih htail
      have hlog : machineLog s (e :: rest) =
          ⟨i, e.reply, e.state.machine⟩ :: machineLog e.state rest := by
        rw [machineLog, hi]
        rfl
      rw [hlog]
      refine ⟨⟨hmachine, hrun⟩, hlast, ?_⟩
      intro x hx
      rcases List.mem_cons.mp hx with rfl | hx
      · exact hno
      · exact hrest x hx

/-- The description of the frame is that of the buffer the application holds. -/
structure App.Shows (a : App) (d : Driver) : Prop where
  data : a.frame.tPixelDatas.aucPixelDatas = a.device.pucVideBuf a.curIndex
  size : a.frame.tPixelDatas.iTotalBytes.toUInt32.toNat = d.bytesusedOf a.curIndex

/-- The running system, with the frames that were fetched so far: the one that the application
holds is the last of them. -/
structure Holding (n : Nat) (s : System) (fs : List (Nat × List UInt8)) : Prop where
  running : s.Running n
  sized : Sized s.machine
  held : s.app.phase = .putBack → s.app.Shows s.machine.drv ∧
    ∃ earlier, fs = earlier ++ [frameOf s.machine.drv s.app.curIndex]

/-- What a successful `VIDIOC_DQBUF` tells about the buffer, and that it leaves the frame
alone. -/
theorem dqbuf_gave {v : Version} {m m' : Machine} {c : Channel Nat} {b : V4l2Buffer}
    (hlink : Linked m c) (hsized : Sized m)
    (hstep : Myuvc.step v m (.call .dqbuf) = .ok (.buffer b, m')) :
    b.index < m.drv.queue.count ∧ b.bytesused = m'.drv.bytesusedOf b.index ∧
      b.bytesused ≤ dwMaxVideoFrameSize ∧ frameOf m'.drv b.index = frameOf m.drv b.index := by
  rcases step_effect hlink.cursor hstep with ⟨hreq, -⟩ | ⟨_, _, _, hinput, -⟩ |
      ⟨j, rest, -, hr, hmain, hdone, rfl⟩ | ⟨_, _, _, hinput, -⟩ | ⟨-, -, hdel, -⟩
  · exact absurd hreq id
  · cases hinput
  · obtain rfl : b = (m.drv.queue.buffer j).buf := by
      cases hr
      rfl
    have hj : j < m.drv.queue.count := by
      apply hlink.queues.below
      rw [hlink.queues.main] at hmain
      rw [Option.some.inj hmain]
      exact List.mem_cons_self
    rw [hlink.named j hj]
    have hbuf := dequeued_buf m.drv j j rest
    refine ⟨hj, by rw [Driver.bytesusedOf, hbuf], ?_, ?_⟩
    · rw [← hsized.full j hj]
      exact hlink.queues.fits j hj
    · exact congrArg (Prod.mk j) (contents_congr rfl hbuf)
  · cases hinput
  · cases hdel

/-- The USB side queues nothing and takes nothing. -/
theorem usb_quiet {v : Version} {s s' : System} {i : Input} {r : Reply}
    (h : s.step v (.usb i) = .ok (r, s')) : accepted i r = [] ∧ delivered i r = [] := by
  cases i with
  | call c => cases h
  | _ => exact ⟨rfl, rfl⟩

/-- The buffer that the application holds is in no queue. -/
theorem System.Running.resting {n : Nat} {s : System} (h : s.Running n)
    (hphase : s.app.phase = .putBack) : Resting s.machine.drv s.app.curIndex := by
  obtain ⟨hcount, c, hlink, hfits⟩ := h
  obtain ⟨-, hlt, hout⟩ : c.inside.length + 1 = n ∧ s.app.curIndex < n ∧
      s.app.curIndex ∉ c.inside := by
    simpa [App.Fits, hphase] using hfits
  have hlt' : s.app.curIndex < s.machine.drv.queue.count := hcount ▸ hlt
  exact ⟨hlt', Or.inr ((hlink.queues.idle _ hlt').mpr hout)⟩

/-- The USB side leaves the frame that the application holds alone. -/
theorem Holding.usb {v : Version} {n : Nat} {s s' : System} {i : Input} {r : Reply}
    {fs : List (Nat × List UInt8)} (h : Holding n s fs) (hphase : s.app.phase = .putBack)
    (hstep : s.step v (.usb i) = .ok (r, s')) :
    s.app.Shows s'.machine.drv ∧
      ∃ earlier, fs = earlier ++ [frameOf s'.machine.drv s.app.curIndex] := by
  obtain ⟨j, hj, hno, hmachine, -⟩ := System.step_machine hstep
  cases hj
  obtain ⟨hshows, earlier, hfs⟩ := h.held hphase
  have hrest := h.running.resting hphase
  obtain ⟨-, c, hlink, -⟩ := h.running
  have hout : s.app.curIndex ∉ accepted i r := by
    rw [(usb_quiet hstep).1]
    exact List.not_mem_nil
  obtain ⟨-, hsame⟩ := h.sized.laidOut.resting_kept hrest hno hout hmachine
  have hlen := (step_sameShape hlink.cursor hno hmachine).length s.app.curIndex
  refine ⟨⟨hshows.data, hshows.size.trans hsame.1.symm⟩, earlier, ?_⟩
  rw [hfs, frameOf, frameOf, hsame.contents (hlink.queues.fits _ hrest.1) hlen]

/-- The frame that the application has just been given. -/
theorem Holding.fetched {v : Version} {n : Nat} {s : System} {m' : Machine} {b : V4l2Buffer}
    {fs : List (Nat × List UInt8)} (hmax : n ≤ BUFFERS) (h : Holding n s fs)
    (hstep : Myuvc.step v s.machine (.call .dqbuf) = .ok (.buffer b, m')) :
    (s.app.fetched (.buffer b)).Shows m'.drv ∧
      ∃ earlier, fs ++ [frameOf s.machine.drv b.index] =
        earlier ++ [frameOf m'.drv (s.app.fetched (.buffer b)).curIndex] := by
  obtain ⟨hcount, c, hlink, -⟩ := h.running
  obtain ⟨hlt, hused, hle, hsame⟩ := dqbuf_gave hlink h.sized hstep
  have hBUFFERS : BUFFERS = 32 := rfl
  have hSize : dwMaxVideoFrameSize = 77312 := rfl
  have hindex := curIndex_fetched s.app (b := b) (by omega)
  refine ⟨⟨?_, ?_⟩, fs, ?_⟩
  · rw [hindex]
    rfl
  · rw [hindex, ← hused]
    have hbits : (Int32.ofNat b.bytesused).toUInt32 = UInt32.ofNat b.bytesused := rfl
    simp only [App.fetched, describeFrame, hbits]
    exact UInt32.toNat_ofNat_of_lt' (show b.bytesused < 2 ^ 32 by omega)
  · rw [hindex, hsame]

/-- **Step lemma.**  Whoever moves, the frame that the application holds is the last one that
was fetched, as it was then. -/
theorem Holding.step {v : Version} {n : Nat} {s s' : System} {a : Activity} {i : Input}
    {r : Reply} {fs : List (Nat × List UInt8)} (hn : 1 ≤ n) (hmax : n ≤ BUFFERS)
    (h : Holding n s fs) (hstep : s.step v a = .ok (r, s')) (hi : s.input a = some i) :
    Holding n s' (fs ++ (delivered i r).map (frameOf s.machine.drv)) := by
  obtain ⟨j, hj, hno, hmachine, happ⟩ := System.step_machine hstep
  obtain rfl : i = j := Option.some.inj (hi.symm.trans hj)
  have hrunning := h.running.kept hn hmax hstep
  refine ⟨hrunning, h.sized.kept hmachine, ?_⟩
  intro hphase
  cases a with
  | usb k =>
      obtain rfl : k = i := Option.some.inj hi
      have hsame : s'.app = s.app := happ
      rw [hsame] at hphase ⊢
      rw [(usb_quiet hstep).2, List.map_nil, List.append_nil]
      exact h.usb hphase hstep
  | app =>
      have hnext : s'.app = s.app.answered r := happ
      cases hwhere : s.app.phase with
      | poll =>
          rw [hnext, App.answered, hwhere] at hphase
          simp only [App.polled] at hphase
          split at hphase
          · split at hphase
            · exact absurd (hwhere.symm.trans hphase) (by decide)
            · cases hphase
          · exact absurd (hwhere.symm.trans hphase) (by decide)
      | dequeue =>
          have hcall : i = .call .dqbuf := by
            rw [System.input, App.nextCall, hwhere] at hi
            exact (Option.some.inj hi).symm
          subst hcall
          rw [hnext, App.answered, hwhere] at hphase ⊢
          cases r with
          | buffer b => exact h.fetched hmax hmachine
          | _ => cases hphase
      | putBack =>
          rw [hnext, App.answered, hwhere] at hphase
          simp only [App.gaveBack] at hphase
          split at hphase <;> cases hphase
      | stopped =>
          rw [System.input, App.nextCall, hwhere] at hi
          cases hi

/-- **Run lemma.** -/
theorem Holding.run {v : Version} {n : Nat} {s : System} {fs : List (Nat × List UInt8)}
    {es : List (Entry Activity Reply System)} (hn : 1 ≤ n) (hmax : n ≤ BUFFERS)
    (h : Holding n s fs) (hrun : IsRun (System.step v) s es) :
    Holding n (lastState s es) (fs ++ fetches s.machine (machineLog s es)) := by
  induction es generalizing s fs with
  | nil => simpa [machineLog, fetches] using h
  | cons e rest ih =>
      obtain ⟨hstep, htail⟩ := hrun
      obtain ⟨i, hi, -⟩ := System.step_machine hstep
      have hrest := ih (h.step hn hmax hstep hi) htail
      simpa [machineLog, hi, fetches] using hrest

theorem Holding.bytesused_le {n : Nat} {s : System} {fs : List (Nat × List UInt8)}
    (h : Holding n s fs) (hphase : s.app.phase = .putBack) :
    s.machine.drv.bytesusedOf s.app.curIndex ≤ dwMaxVideoFrameSize := by
  obtain ⟨hlt, -⟩ := h.running.resting hphase
  obtain ⟨-, c, hlink, -⟩ := h.running
  rw [← h.sized.full _ hlt]
  exact hlink.queues.fits _ hlt

/-- The valid packets that the camera sends in a run. -/
def received (es : List (Entry Activity Reply System)) : List Packet :=
  es.flatMap fun e => match e.input with
    | .app => []
    | .usb i => validOf i

theorem validStream_machineLog {v : Version} {s : System}
    {es : List (Entry Activity Reply System)} (hrun : IsRun (System.step v) s es) :
    validStream (machineLog s es) = received es := by
  induction es generalizing s with
  | nil => rfl
  | cons e rest ih =>
      obtain ⟨hstep, htail⟩ := hrun
      obtain ⟨i, hi, -⟩ := System.step_machine hstep
      have hhead : validOf i = match e.input with
          | .app => []
          | .usb i => validOf i := by
        cases ha : e.input with
        | usb k =>
            rw [ha] at hi
            cases hi
            rfl
        | app =>
            rw [ha] at hi
            obtain ⟨c, -, rfl⟩ := Option.map_eq_some_iff.mp hi
            rfl
      have htail' := ih htail
      simp only [validStream, received] at htail' ⊢
      simp [machineLog, hi, hhead, htail']

/-- Setting up the device consists of calls, and none of them requests buffers. -/
theorem setup_input {maps : List Call} (hmaps : ∀ k ∈ maps, mapsBuffer k) {n : Nat}
    {env : StreamonEnv} {i : Input} (h : i ∈ setupInputs maps n env) :
    ¬ i.IsReqbufs ∧ validOf i = [] := by
  simp only [setupInputs, List.mem_append, List.mem_map, List.mem_singleton] at h
  rcases h with (⟨c, hc, rfl⟩ | ⟨i, -, rfl⟩) | rfl
  · exact ⟨(accepted_maps (r := .ret 0) (hmaps c hc)).1, rfl⟩
  · exact ⟨id, rfl⟩
  · exact ⟨id, rfl⟩

/-- Every completed frame is in a buffer of the one length there is. -/
theorem length_of_delivery {v : Version} {m : Machine} {seen : Nat} {es : Log} (h : Sized m)
    (hrun : IsRun (Myuvc.step v) m es) {D : Delivery} (hD : D ∈ deliveries m seen es) :
    D.length = dwMaxVideoFrameSize := by
  induction es generalizing m seen with
  | nil => exact absurd hD List.not_mem_nil
  | cons e rest ih =>
      obtain ⟨hstep, htail⟩ := hrun
      have hsized := h.kept hstep
      rw [deliveries, List.mem_append] at hD
      rcases hD with hD | hD
      · obtain ⟨i, hi, rfl⟩ := List.mem_map.mp hD
        exact hsized.full i (List.mem_range.mp (List.mem_of_mem_filter hi))
      · exact ih hsized htail hD

/-- A request gives no more buffers than were asked for. -/
theorem le_of_reqbufs {v : Version} {m m' : Machine} {count : UInt32}
    {alloc : Nat → Option (Nat → UInt8)} {n : Nat} (hn : 1 ≤ n)
    (h : Myuvc.step v m (.call (.reqbufs count alloc)) = .ok (.ret n, m')) : n ≤ count.toNat := by
  obtain ⟨d', -, -, hcall⟩ := step_call h
  have hreq : vidiocReqbufs m.drv count alloc = .ok (.ret n, d') := hcall
  rcases vidiocReqbufs_cases hreq with ⟨k, -, hr, -, -, hle, -⟩ | ⟨hr, -⟩
  · have hk : n = k := Int.ofNat.inj (Reply.ret.inj hr)
    rw [hk]
    exact hle
  · have hnot : (n : Int) = 0 ∨ (n : Int) = -ENOMEM := hr.imp Reply.ret.inj Reply.ret.inj
    unfold ENOMEM at hnot
    omega

/-- What is read through the pointer of a buffer are the bytes of the frame in it. -/
theorem MapsSlot.read {bufs : Nat → Ptr} {mappings : List (List Nat)} {i n : Nat} {d : Driver}
    (h : MapsSlot bufs mappings i) (hslots : Slots d n) (hi : i < n)
    (hused : d.bytesusedOf i ≤ dwMaxVideoFrameSize) :
    ∃ bytes, view mappings d (bufs i) = some bytes ∧
      ByteStore.read bytes 0 (d.bytesusedOf i) = d.contents i := by
  obtain ⟨bytes, hview, hbytes⟩ := h.view_eq hslots hi
  have hsmall : dwMaxVideoFrameSize ≤ slotSize := by decide
  refine ⟨bytes, hview, List.ext_getElem ?_ ?_⟩
  · simp [Driver.contents, Driver.bytesusedOf]
  · intro k hk hk'
    rw [ByteStore.length_read] at hk
    simp [Driver.contents, ByteStore.read, hbytes k (by omega)]

/-- The pointers of the device stay as they are. -/
theorem System.bufs_kept {v : Version} {bufs : Nat → Ptr} {s s' : System} {a : Activity} {r : Reply}
    (h : s.app.device.pucVideBuf = bufs) (hstep : s.step v a = .ok (r, s')) :
    s'.app.device.pucVideBuf = bufs := by
  obtain ⟨-, -, -, -, happ⟩ := System.step_machine hstep
  rw [happ, ← h]
  cases a with
  | usb i => rfl
  | app =>
      simp only [App.after, App.answered, App.polled, App.fetched, App.gaveBack]
      split
      · split
        · split <;> rfl
        · rfl
      · split <;> rfl
      · split <;> rfl
      · rfl

/-- `libjpeg` is refused a frame without bytes.  Otherwise it gets these bytes, and then
end-of-image markers, for whatever requests it makes, and reads no byte outside. -/
def DecoderReads (inbuffer : Nat → UInt8) (insize : UInt32) (bytes : List UInt8) : Prop :=
  (bytes = [] → ∀ mybuffer,
    JpegSource.jpegMemSrcTj mybuffer (some inbuffer) insize = .error .inputEmpty) ∧
  (bytes ≠ [] → ∀ mybuffer requests (fuel : Nat),
    (∀ numBytes : Int32, .skip numBytes ∈ requests → numBytes.toInt + 1 < fuel) →
    ∃ src outs src', JpegSource.jpegMemSrcTj mybuffer (some inbuffer) insize = .ok src ∧
      JpegSource.serve fuel requests src = some (outs, src') ∧
      outs.map Prod.snd = Refill.answers (requests.map JpegSource.Request.toStream)
        (bytes ++ₛ Stream'.cycle JpegSource.endOfImage JpegSource.endOfImage_ne_nil) ∧
      ∀ out ∈ outs, out.1.Within bytes.length)

theorem decoderReads_read (inbuffer : Nat → UInt8) {insize : UInt32}
    (hshort : insize.toNat < 2 ^ 31) :
    DecoderReads inbuffer insize (ByteStore.read inbuffer 0 insize.toNat) := by
  have hlength := ByteStore.length_read inbuffer 0 insize.toNat
  constructor
  · intro hnil mybuffer
    rw [hnil, List.length_nil] at hlength
    have hzero : insize = 0 := UInt32.toNat_inj.mp hlength.symm
    rw [JpegSource.jpegMemSrcTj, if_pos hzero]
  · intro hne mybuffer requests fuel hfuel
    have hpos : 0 < insize.toNat := hlength ▸ List.length_pos_iff.mpr hne
    obtain ⟨src, hsrc, hin, hleft⟩ := JpegSource.jpegMemSrcTj_spec mybuffer inbuffer hpos hshort
    obtain ⟨outs, src', hserve, houts, hbounds⟩ := JpegSource.serve_spec hin hfuel
    refine ⟨src, outs, src', hsrc, hserve, ?_, ?_⟩
    · rw [houts, JpegSource.SourceMgr.stream, hleft]
      rfl
    · rwa [hlength]

/-- From the request to the main loop the driver is asked about its buffers, maps them, queues
them in turn and is started, and every `pucVideBuf[i]` leads to a mapping of buffer `i`. -/
theorem setup_of_take {v : Version} {k : UvcKernel} {m : Machine} {n : Nat}
    (hfour : n ≤ NB_BUFFER.toNat) (hslots : Slots m.drv n) {around : Surroundings} {opr : VideoOpr}
    {d : VideoDevice} (hcount : d.iVideoBufCnt.toInt = n) {mappings : List (List Nat)}
    {r : Initialised} {p : Process}
    (htake : takeBuffersOn (uvcCalls v k) around PROT_READ (UInt32.ofBitVec vidiocQuerycap.2) opr d
      ⟨.ok m, mappings⟩ = (.ok r, p))
    {env : StreamonEnv} {started : Machine}
    (hstart : p.call v (.streamon env) = (some (.ret 0), { p with machine := .ok started })) :
    ∃ (maps : List Call) (setup : Log), (∀ c ∈ maps, mapsBuffer c) ∧
      setup.map Entry.input = setupInputs maps n env ∧ IsRun (Myuvc.step v) m setup ∧
      lastState m setup = started ∧ ∀ i < n, MapsSlot r.device.pucVideBuf p.mappings i := by
  obtain ⟨maps, taking, hmaps, htaking, htakes, hready, hslot⟩ :=
    takeBuffersOn_uvc hfour hslots hcount htake
  obtain ⟨machine, later⟩ := p
  obtain rfl : machine = .ok (lastState m taking) := hready
  obtain ⟨m', hon, hm'⟩ := Process.call_some hstart
  obtain rfl : started = m' := Except.ok.inj (Process.mk.inj hm').1
  refine ⟨maps, taking ++ [⟨.call (.streamon env), .ret 0, started⟩], hmaps, ?_,
    isRun_append.mpr ⟨htakes, hon, trivial⟩, by simp, hslot⟩
  rw [List.map_append, htaking]
  rfl

/-- **The frame that the application holds.**  Let a request give `n` buffers, let them be
mapped and queued, let the stream be started and the main loop run, in any interleaving with the
USB side.  The frame held is described by `T_VideoBuf`, and its buffer contains the payloads of
a stretch of the received packets, cut to its length. -/
theorem held_frame_assembled {v : Version} {idVendor : Nat} (hvendor : idVendor ≠ 0x1B3B)
    {before : Log} (hbefore : IsRun (Myuvc.step v) (Machine.load idVendor) before)
    {count : UInt32} {alloc : Nat → Option (Nat → UInt8)} {m : Machine} {n : Nat} (hn : 1 ≤ n)
    (hreq : Myuvc.step v (lastState (Machine.load idVendor) before)
      (.call (.reqbufs count alloc)) = .ok (.ret n, m))
    {maps : List Call} (hmaps : ∀ c ∈ maps, mapsBuffer c) {setup : Log} {env : StreamonEnv}
    (hin : setup.map Entry.input = setupInputs maps n env) (hsetup : IsRun (Myuvc.step v) m setup)
    {app : App} (happ : app.phase = .poll) {es : List (Entry Activity Reply System)}
    (hrun : IsRun (System.step v) ⟨lastState m setup, app⟩ es) {s : System}
    (hs : lastState ⟨lastState m setup, app⟩ es = s) (hphase : s.app.phase = .putBack) :
    Slots s.machine.drv n ∧ s.app.curIndex < n ∧
      s.machine.drv.bytesusedOf s.app.curIndex ≤ dwMaxVideoFrameSize ∧
      s.app.Shows s.machine.drv ∧
      ∃ t, s.machine.drv.contents s.app.curIndex =
          (payloads (stretch (received es) t)).take dwMaxVideoFrameSize ∧
        ∃ f, ∀ q ∈ stretch (received es) t, q.payload ≠ [] → (q.fidBit : Int) = f := by
  subst hs
  have hlaid := laidOut_of_run hbefore
  have hsized : Sized m := (sized_of_run hbefore).kept hreq
  obtain ⟨hmax, hrunning⟩ := running_after_setup hn hreq hmaps hsetup hin happ
  obtain ⟨hlog, hmachine, hquiet⟩ := machineLog_spec hrun
  -- the driver's log from the request on
  have hwhole : IsRun (Myuvc.step v) m (setup ++ machineLog ⟨lastState m setup, app⟩ es) :=
    isRun_append.mpr ⟨hsetup, hlog⟩
  have hcalls : ∀ e ∈ setup, ¬ e.input.IsReqbufs ∧ validOf e.input = [] :=
    fun e he => setup_input hmaps (hin ▸ List.mem_map_of_mem he)
  have hno : ∀ e ∈ setup ++ machineLog ⟨lastState m setup, app⟩ es, ¬ e.input.IsReqbufs := by
    intro e he
    rcases List.mem_append.mp he with he | he
    · exact (hcalls e he).1
    · exact hquiet e he
  have hdev : m.drv.idVendor ≠ 0x1B3B := by
    rw [step_idVendor hlaid.coherent.cursor hreq, idVendor_of_run hbefore]
    exact hvendor
  obtain ⟨fetched, later, ss, hparts, hfetched, hasm⟩ :=
    (linked_of_reqbufs hn hreq).fetches_assembled (hlaid.kept hreq) hdev hwhole hno
  have hstream : validStream (setup ++ machineLog ⟨lastState m setup, app⟩ es) = received es := by
    have hsilent : validStream setup = [] :=
      List.flatMap_eq_nil_iff.mpr fun e he => (hcalls e he).2
    rw [validStream, List.flatMap_append, ← validStream, ← validStream, hsilent,
      validStream_machineLog hrun, List.nil_append]
  rw [hstream] at hasm
  -- the frame held is the last one fetched
  have hstart : Holding n ⟨lastState m setup, app⟩ (fetches m setup) :=
    ⟨hrunning, hsetup.keeps (fun _ _ _ _ h hstep => h.kept hstep) hsized,
      fun h => absurd (happ.symm.trans h) (by decide)⟩
  have hend := hstart.run hn hmax hrun
  obtain ⟨hshows, earlier, hlast⟩ := hend.held hphase
  rw [← fetches_append, hfetched] at hlast
  obtain ⟨Ds, Es, rfl, -, hD⟩ := List.map_eq_append_iff.mp hlast
  obtain ⟨D, rfl, hframe⟩ := List.map_eq_singleton_iff.mp hD
  obtain ⟨t, hassembled⟩ := hasm.of_mem (List.mem_append_right _ List.mem_cons_self)
  have hmem : D ∈ deliveries m 0 (setup ++ machineLog ⟨lastState m setup, app⟩ es) := by
    rw [hparts]
    simp
  have hslots : Slots (lastState ⟨lastState m setup, app⟩ es).machine.drv n := by
    have hkept := (hlaid.slots hreq).kept ((hlaid.kept hreq).shape_kept hwhole hno)
    rwa [lastState_append, hmachine] at hkept
  obtain ⟨f, -, hf⟩ := hassembled.sameFid
  refine ⟨hslots, hslots.count ▸ (hend.running.resting hphase).1, hend.bytesused_le hphase,
    hshows, t, ?_, f, hf⟩
  have hbytes := hassembled.bytes
  rw [length_of_delivery hsized hwhole hmem, List.nil_append] at hbytes
  rw [← hbytes]
  exact (congrArg Prod.snd hframe).symm

/-- **The decoder reads what the camera sent.**  Let the driver give `n` buffers to the
request of `V4l2InitDevice`, let the rest of that function succeed with them, start the stream,
and let the main loop run, in any interleaving with the USB side.  Whenever the application
holds a frame, the pointer of the frame leads to a mapping, and what `libjpeg` reads there are
the payloads of a stretch of the received packets, cut to the buffer's length.  The packets
with a payload agree in their frame-id bit. -/
theorem decoder_reads_camera_frame {v : Version} {idVendor : Nat} (hvendor : idVendor ≠ 0x1B3B)
    {before : Log} (hbefore : IsRun (Myuvc.step v) (Machine.load idVendor) before)
    {k : UvcKernel} {m : Machine} {n : Nat} (hn : 1 ≤ n)
    (hreq : Myuvc.step v (lastState (Machine.load idVendor) before)
      (.call (.reqbufs NB_BUFFER k.alloc)) = .ok (.ret n, m))
    {around : Surroundings} {opr : VideoOpr} {d : VideoDevice} (hcount : d.iVideoBufCnt.toInt = n)
    {mappings : List (List Nat)} {r : Initialised} {p : Process}
    (htake : takeBuffersOn (uvcCalls v k) around PROT_READ (UInt32.ofBitVec vidiocQuerycap.2) opr d
      ⟨.ok m, mappings⟩ = (.ok r, p))
    {env : StreamonEnv} {started : Machine}
    (hstart : p.call v (.streamon env) = (some (.ret 0), { p with machine := .ok started }))
    {app : App} (happ : app.phase = .poll) (hdevice : app.device = r.device)
    {es : List (Entry Activity Reply System)}
    (hrun : IsRun (System.step v) ⟨started, app⟩ es) :
    let s := lastState ⟨started, app⟩ es
    s.app.phase = .putBack →
    ∃ bytes t, view p.mappings s.machine.drv s.app.frame.tPixelDatas.aucPixelDatas = some bytes ∧
      DecoderReads bytes s.app.frame.tPixelDatas.iTotalBytes.toUInt32
        ((payloads (stretch (received es) t)).take dwMaxVideoFrameSize) ∧
      ∃ f, ∀ q ∈ stretch (received es) t, q.payload ≠ [] → (q.fidBit : Int) = f := by
  intro s hphase
  obtain ⟨maps, setup, hmaps, hin, hsetup, rfl, hslot⟩ :=
    setup_of_take (le_of_reqbufs hn hreq) ((laidOut_of_run hbefore).slots hreq) hcount htake hstart
  obtain ⟨hslots, hlt, hused, hshows, t, hcontents, hfid⟩ :=
    held_frame_assembled hvendor hbefore hn hreq hmaps hin hsetup happ hrun rfl hphase
  -- the pointer of the frame is the mapping of its buffer
  have hbufs : s.app.device.pucVideBuf = r.device.pucVideBuf :=
    hrun.keeps (fun _ _ _ _ h hstep => System.bufs_kept h hstep)
      (congrArg VideoDevice.pucVideBuf hdevice)
  obtain ⟨bytes, hview, hread⟩ := (hslot _ hlt).read hslots hlt hused
  refine ⟨bytes, t, by rw [hshows.data, hbufs, hview], ?_, hfid⟩
  rw [← hcontents, ← hread, ← hshows.size]
  apply decoderReads_read
  rw [hshows.size]
  have hSize : dwMaxVideoFrameSize = 77312 := rfl
  omega

/-- A kernel with memory enough. -/
def plainKernel : UvcKernel := ⟨3, fun _ => some fun _ => 0, fun _ _ => 0⟩

/-- The application's device when the driver has given it four buffers. -/
def requestedDevice : VideoDevice :=
  { uninitialisedDevice Video2lcd.V4L2_PIX_FMT_MJPEG with
    iFd := 3
    iWidth := 320
    iHeight := 240
    iVideoBufCnt := 4 }

/-- What the rest of `V4l2InitDevice` makes of it. -/
def fourBuffersTaken : Except VideoDevice Initialised × Process :=
  takeBuffersOn (uvcCalls .th10 plainKernel) ⟨320, 240, fun _ => none⟩ PROT_READ
    (UInt32.ofBitVec vidiocQuerycap.2) g_tV4l2VideoOpr requestedDevice
    ⟨.ok (Machine.withBuffers 0 4), []⟩

/-- The process when the stream has been started. -/
def fourBuffersStarted : Process := (fourBuffersTaken.2.call .th10 (.streamon plainEnv)).2

/-- The application and the driver as the main loop is entered. -/
def fourBuffersSystem : System where
  machine := fourBuffersStarted.machine.toOption.getD (Machine.load 0)
  app :=
    { device := (fourBuffersTaken.1.toOption.map Initialised.device).getD requestedDevice
      frame := ⟨⟨0, 0, 0, 0, 0, .null⟩, 0⟩
      phase := .poll }

/-- A frame of two packets arrives and is taken; then the next one begins. -/
def decodedLog : List (Entry Activity Reply System) :=
  exec (System.step .th10) fourBuffersSystem
    [.usb (.irq 1 0), .usb (.packet ⟨0, [2, 1, 0xFF, 0xD8], true⟩),
      .usb (.packet ⟨0, [2, 3, 0xAA], true⟩), .usb (.resubmit 0), .app, .app,
      .usb (.irq 3 0), .usb (.packet ⟨0, [2, 0, 0xFF], true⟩)]

/-- While the next frame begins, the application holds the three bytes of the first. -/
theorem decoder_reads_two_packets :
    let s := lastState fourBuffersSystem decodedLog
    s.app.phase = .putBack ∧ s.app.frame.tPixelDatas.iTotalBytes = 3 ∧
    ∃ bytes t, view fourBuffersTaken.2.mappings s.machine.drv
        s.app.frame.tPixelDatas.aucPixelDatas = some bytes ∧
      DecoderReads bytes s.app.frame.tPixelDatas.iTotalBytes.toUInt32
        ((payloads (stretch (received decodedLog) t)).take dwMaxVideoFrameSize) := by
  have hbefore : IsRun (Myuvc.step .th10) (Machine.load 0)
      (exec (Myuvc.step .th10) (Machine.load 0) [.call (.sFmt captureFormat)]) := isRun_exec _ _
  have hrun : IsRun (System.step .th10) fourBuffersSystem decodedLog := isRun_exec _ _
  have hphase : (lastState fourBuffersSystem decodedLog).app.phase = .putBack := by
    decide +kernel
  have hcount : requestedDevice.iVideoBufCnt.toInt = (4 : Nat) := rfl
  obtain ⟨r, htake, hdevice⟩ : ∃ r, fourBuffersTaken = (.ok r, fourBuffersTaken.2) ∧
      fourBuffersSystem.app.device = r.device := ⟨_, rfl, rfl⟩
  have hstart : fourBuffersTaken.2.call .th10 (.streamon plainEnv) = (some (.ret 0),
      { fourBuffersTaken.2 with machine := .ok fourBuffersSystem.machine }) := rfl
  obtain ⟨bytes, t, hview, hreads, -⟩ := decoder_reads_camera_frame (by decide) hbefore
    (k := plainKernel) (by decide) (step_reqbufs_withFormat .th10 0 (by decide) (by decide))
    hcount htake hstart rfl hdevice hrun hphase
  exact ⟨hphase, by decide +kernel, bytes, t, hview, hreads⟩

end Video2lcd
