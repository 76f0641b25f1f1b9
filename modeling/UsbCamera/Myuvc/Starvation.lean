import UsbCamera.Myuvc.Effects

/-!
# Packets that find no buffer

When the application is slower than the camera, `irqqueue` runs empty and the
handler is given packets while it has no current buffer.  It is meant to note the
frame id of such a packet and go on.  The older version of the handler does so.
The newer one computes the destination address from the current buffer before it
looks whether there is one, so every packet that arrived at all makes it follow
a null pointer then (`starvation_safe_iff`).
-/

namespace Myuvc

open FaultRun

/-- Given the URB `u` in state `d`, the handler comes to packet `p` with the driver
in state `d'` and `buf` as its current buffer. -/
def ComesTo (v : Version) (d : Driver) (u : CompletedUrb) (p : Packet) (d' : Driver)
    (buf : BufPtr) : Prop :=
  u.status = 0 ∧ ∃ before after, u.packets = before ++ p :: after ∧
    packetLoop v { d with usb := d.usb.retire u.handle } d.queue.irqqueue.current before =
      .ok (d', buf)

/-- What a packet leaves for which there is no buffer: its frame id, if it is
valid. -/
def skipped (d : Driver) (p : Packet) : Driver :=
  if p.Valid then { d with fid := nextFid d p, lastFid := nextFid d p } else d

/-- The handler gets through the URB without use of a buffer that is not there,
and a packet that finds `irqqueue` empty leaves nothing but its frame id. -/
structure HandlerSafe (v : Version) (d : Driver) (u : CompletedUrb) : Prop where
  noFault : ∀ answer, videoComplete v d u answer ≠ .error .noBuffer ∧
    videoComplete v d u answer ≠ .error .wildLink
  starved : ∀ p d' buf, ComesTo v d u p d' buf → d'.queue.irqqueue.entries = [] →
    packetBody v d' buf p = .ok (skipped d' p, buf)

theorem scratchBlock_fault {d : Driver} {n : Nat} {k : Bool} {e : Fault}
    (h : scratchBlock d n k = .error e) : e = .scratch := by
  unfold scratchBlock at h
  split at h <;> split at h
  · cases h
  · cases h
    rfl
  · split at h <;> cases h
    rfl
  · cases h

theorem repair_fault {d : Driver} {mem : FrameMem} {dest n : Nat} {k : Bool} {e : Fault}
    (h : repair d mem dest n k = .error e) : e = .scratch := by
  unfold repair at h
  split at h
  · rename_i e' hs
    cases h
    exact scratchBlock_fault hs
  · split at h
    · split at h <;> cases h
      rfl
    · cases h

/-- Storing a payload can fail in other ways, but not for want of a buffer. -/
theorem storePayload_fault {d : Driver} {i : Nat} {p : Packet} {e : Fault}
    (h : storePayload d i p = .error e) : e ≠ .noBuffer ∧ e ≠ .wildLink := by
  unfold storePayload at h
  simp only at h
  split at h
  · cases h
    exact ⟨by decide, by decide⟩
  · split at h
    · cases h
      exact ⟨by decide, by decide⟩
    · split at h
      · split at h
        · rename_i e' hr
          cases h
          rw [repair_fault hr]
          exact ⟨by decide, by decide⟩
        · cases h
      · cases h

theorem fillBuffer_fault {d : Driver} {i : Nat} {p : Packet} {e : Fault}
    (h : fillBuffer d i p = .error e) : e ≠ .noBuffer ∧ e ≠ .wildLink := by
  unfold fillBuffer at h
  split at h
  · cases h
  · dsimp only at h
    split at h
    · cases h
    · split at h
      · rename_i e' hs
        cases h
        exact storePayload_fault hs
      · split at h <;> cases h

/-- With a current buffer an iteration does not miss one. -/
theorem packetBody_entry {v : Version} {d : Driver} {i : Nat} {p : Packet} {e : Fault}
    (h : packetBody v d (.entry i) p = .error e) : e ≠ .noBuffer ∧ e ≠ .wildLink := by
  unfold packetBody at h
  simp only [reduceCtorEq, and_false, if_false] at h
  split at h
  · cases h
  · split at h
    · cases h
    · split at h
      · cases h
      · exact fillBuffer_fault h

/-- A packet that was lost on the bus is skipped before anything is looked
at. -/
theorem packetBody_lost (v : Version) (d : Driver) (buf : BufPtr) {p : Packet}
    (hp : p.status < 0) : packetBody v d buf p = .ok (skipped d p, buf) := by
  have hinv : ¬ p.Valid := fun hv => absurd hv.1 (by omega)
  rw [packetBody, if_pos hp, skipped, if_neg hinv]

/-- The packet loop keeps its current buffer in step with `irqqueue`. -/
theorem packetLoop_cursor {v : Version} {d d' : Driver} {buf buf' : BufPtr} {ps : List Packet}
    (hbuf : buf = d.queue.irqqueue.current) (h : packetLoop v d buf ps = .ok (d', buf')) :
    buf' = d'.queue.irqqueue.current := by
  induction ps generalizing d buf with
  | nil =>
      cases h
      exact hbuf
  | cons p rest ih =>
      unfold packetLoop at h
      split at h
      · cases h
      · rename_i d₁ buf₁ hbody
        have hcur : CursorOk ⟨d, some ⟨0, buf, 0⟩⟩ := by
          intro k hk
          cases hk
          exact hbuf
        have hstep := step_of_packet 0 0 hbody
        exact ih (hcur.kept hstep ⟨0, buf₁, 1⟩ rfl) h

theorem ComesTo.cursor {v : Version} {d d' : Driver} {u : CompletedUrb} {p : Packet}
    {buf : BufPtr} (h : ComesTo v d u p d' buf) : buf = d'.queue.irqqueue.current := by
  obtain ⟨-, before, after, -, hloop⟩ := h
  exact packetLoop_cursor rfl hloop

/-- A loop that fails does so at one of its packets. -/
theorem packetLoop_error {v : Version} {d : Driver} {buf : BufPtr} {ps : List Packet} {e : Fault}
    (h : packetLoop v d buf ps = .error e) :
    ∃ before p after d' buf', ps = before ++ p :: after ∧
      packetLoop v d buf before = .ok (d', buf') ∧ packetBody v d' buf' p = .error e := by
  induction ps generalizing d buf with
  | nil => cases h
  | cons p rest ih =>
      unfold packetLoop at h
      split at h
      · rename_i e' hbody
        cases h
        exact ⟨[], p, rest, d, buf, rfl, rfl, hbody⟩
      · rename_i d₁ buf₁ hbody
        obtain ⟨before, q, after, d', buf', hsplit, hloop, herror⟩ := ih h
        refine ⟨p :: before, q, after, d', buf', by rw [hsplit, List.cons_append], ?_, herror⟩
        simp only [packetLoop, hbody, hloop]

/-- The handler fails at a packet it has come to. -/
theorem videoComplete_error {v : Version} {d : Driver} {u : CompletedUrb} {answer : Int}
    {e : Fault} (h : videoComplete v d u answer = .error e) :
    ∃ p d' buf, ComesTo v d u p d' buf ∧ packetBody v d' buf p = .error e := by
  unfold videoComplete at h
  dsimp only at h
  split at h
  · cases h
  · rename_i hstatus
    split at h
    · rename_i e' hloop
      cases h
      obtain ⟨before, p, after, d', buf, hsplit, hbefore, herror⟩ := packetLoop_error hloop
      exact ⟨p, d', buf, ⟨not_not.mp hstatus, before, after, hsplit, hbefore⟩, herror⟩
    · cases h

/-- No fault for want of a buffer at any packet the handler comes to. -/
theorem noFault_of_packets {v : Version} {d : Driver} {u : CompletedUrb}
    (h : ∀ p d' buf e, ComesTo v d u p d' buf → packetBody v d' buf p = .error e →
      e ≠ .noBuffer ∧ e ≠ .wildLink) (answer : Int) :
    videoComplete v d u answer ≠ .error .noBuffer ∧
      videoComplete v d u answer ≠ .error .wildLink := by
  constructor
  · intro herror
    obtain ⟨p, d', buf, hcomes, hbody⟩ := videoComplete_error herror
    exact (h p d' buf _ hcomes hbody).1 rfl
  · intro herror
    obtain ⟨p, d', buf, hcomes, hbody⟩ := videoComplete_error herror
    exact (h p d' buf _ hcomes hbody).2 rfl

/-- The newer handler fails at a packet that arrived and finds no buffer. -/
theorem packetBody_th10_starved {d : Driver} {p : Packet} (hp : ¬ p.status < 0)
    (hempty : d.queue.irqqueue.entries = []) :
    packetBody .th10 d d.queue.irqqueue.current p = .error .noBuffer ∨
      packetBody .th10 d d.queue.irqqueue.current p = .error .wildLink := by
  rcases hq : d.queue.irqqueue with _ | _ | ⟨i, rest⟩
  · right
    rw [packetBody, if_neg hp, if_neg (by simp), if_pos (by simp)]
  · left
    rw [packetBody, if_neg hp, if_pos (by simp)]
  · rw [hq] at hempty
    cases hempty

/-- **The newer handler** gets through a URB safely exactly when each packet it
comes to was lost or finds a buffer queued. -/
theorem starvation_safe_iff (d : Driver) (u : CompletedUrb) :
    HandlerSafe .th10 d u ↔
      ∀ p d' buf, ComesTo .th10 d u p d' buf →
        p.status < 0 ∨ d'.queue.irqqueue.entries ≠ [] := by
  constructor
  · intro hsafe p d' buf hcomes
    by_contra! hnot
    obtain ⟨hstatus, hempty⟩ := hnot
    have hok := hsafe.starved p d' buf hcomes hempty
    rw [hcomes.cursor] at hok
    rcases packetBody_th10_starved (not_lt.mpr hstatus) hempty with herror | herror
    · rw [herror] at hok
      cases hok
    · rw [herror] at hok
      cases hok
  · intro hfed
    refine ⟨noFault_of_packets fun p d' buf e hcomes herror => ?_, ?_⟩
    · rcases hfed p d' buf hcomes with hlost | hentry
      · rw [packetBody_lost _ _ _ hlost] at herror
        cases herror
      · rw [hcomes.cursor] at herror
        rcases hq : d'.queue.irqqueue with _ | _ | ⟨i, rest⟩
        · simp [hq] at hentry
        · simp [hq] at hentry
        · rw [hq] at herror
          exact packetBody_entry herror
    · intro p d' buf hcomes hempty
      have hlost := (hfed p d' buf hcomes).resolve_right (not_not.mpr hempty)
      exact packetBody_lost _ _ _ hlost

/-- Streaming on one buffer, which is not queued. -/
def starvedDriver : Driver :=
  (lastState (Machine.withBuffers 0 1)
    (exec (step .th10) (Machine.withBuffers 0 1) [.call (.streamon plainEnv)])).drv

/-- A packet that arrives then makes the newer handler follow a null pointer. -/
theorem starvation_null_pointer :
    starvedDriver.usb.inFlight = [1, 3, 5, 7, 9] ∧
    starvedDriver.queue.irqqueue = some [] ∧
    videoComplete .th10 starvedDriver ⟨1, 0, [⟨0, [2, 1], true⟩]⟩ 0 = .error .noBuffer ∧
    ¬ HandlerSafe .th10 starvedDriver ⟨1, 0, [⟨0, [2, 1], true⟩]⟩ := by
  have herror : videoComplete .th10 starvedDriver ⟨1, 0, [⟨0, [2, 1], true⟩]⟩ 0 =
      .error .noBuffer := rfl
  exact ⟨by decide +kernel, rfl, herror, fun h => (h.noFault 0).1 herror⟩

/-- Once the queue heads are set up, packets do not undo that. -/
theorem packetLoop_heads {v : Version} {d d' : Driver} {buf buf' : BufPtr} {ps : List Packet}
    (hheads : d.queue.irqqueue ≠ none) (h : packetLoop v d buf ps = .ok (d', buf')) :
    d'.queue.irqqueue ≠ none := by
  induction ps generalizing d buf with
  | nil =>
      cases h
      exact hheads
  | cons p rest ih =>
      unfold packetLoop at h
      split at h
      · cases h
      · rename_i d₁ buf₁ hbody
        refine ih ?_ h
        rcases packetBody_effect hbody with ⟨hqueue, -, -⟩ | ⟨i, -, -, htouches, -⟩
        · rw [hqueue]
          exact hheads
        · rcases htouches.outcome with ⟨-, hsame⟩ | ⟨-, hdel⟩
          · rw [hsame]
            exact hheads
          · rw [hdel]
            simpa [ListHead.del] using hheads

/-- The older handler skips a packet that finds no buffer. -/
theorem packetBody_test_starved (d : Driver) (p : Packet) :
    packetBody .test d .null p = .ok (skipped d p, .null) := by
  by_cases hstatus : p.status < 0
  · exact packetBody_lost _ _ _ hstatus
  · rw [packetBody, if_neg hstatus, if_neg (by simp), if_neg (by simp)]
    by_cases hheader : p.HeaderOk
    · rw [if_neg (not_not.mpr hheader)]
      by_cases herr : p.Err
      · have hinv : ¬ p.Valid := fun hv => hv.2.2 herr
        rw [if_pos herr, skipped, if_neg hinv]
      · have hvalid : p.Valid := ⟨by omega, hheader, herr⟩
        rw [if_neg herr, skipped, if_pos hvalid]
    · have hinv : ¬ p.Valid := fun hv => hheader hv.2.1
      rw [if_pos hheader, skipped, if_neg hinv]

/-- **The older handler** gets through every URB safely once the queue heads are
set up. -/
theorem handlerSafe_test {d : Driver} (hheads : d.queue.irqqueue ≠ none) (u : CompletedUrb) :
    HandlerSafe .test d u := by
  have hcurrent : ∀ p d' buf, ComesTo .test d u p d' buf →
      (buf = .null ∨ ∃ i, buf = .entry i ∧ d'.queue.irqqueue.entries ≠ []) := by
    intro p d' buf hcomes
    have hbuf := hcomes.cursor
    obtain ⟨-, before, after, -, hloop⟩ := hcomes
    have hheads' : d'.queue.irqqueue ≠ none := packetLoop_heads (by exact hheads) hloop
    rcases hq : d'.queue.irqqueue with _ | _ | ⟨i, rest⟩
    · exact absurd hq hheads'
    · rw [hq] at hbuf
      exact Or.inl hbuf
    · rw [hq] at hbuf
      exact Or.inr ⟨i, hbuf, by simp⟩
  refine ⟨noFault_of_packets fun p d' buf e hcomes herror => ?_, ?_⟩
  · rcases hcurrent p d' buf hcomes with rfl | ⟨i, rfl, -⟩
    · rw [packetBody_test_starved] at herror
      cases herror
    · exact packetBody_entry herror
  · intro p d' buf hcomes hempty
    rcases hcurrent p d' buf hcomes with rfl | ⟨i, -, hentry⟩
    · exact packetBody_test_starved d' p
    · exact absurd hempty hentry

end Myuvc
