import UsbCamera.Base.ByteStore
import UsbCamera.Cmos.CaptureMemory
import UsbCamera.Cmos.PreviewEvents

/-!
# Where the pictures go

The camera interface writes a picture to the address in one of `CIPRCLRSA1` to
`CIPRCLRSA4`, and `cmos_ov7740_read` copies the four blocks of `img_buff` to the
application, all four to the same place.  So what the application keeps is the
fourth block.

Here the parts of the driver run together: the calls that set the format, start and
stop the capture, the requests for memory, the interrupt and any number of reads, and
beside them the hardware with its pictures and everyone else who writes memory that
is not the driver's.  Memory is addressed physically.

`REQBUFS` computes all four physical addresses from the first block, and gives the
first three blocks back at once.  The pictures therefore all go to a block that is
no longer the driver's, and the fourth block, which is the one that counts, is never
written: `reads_hand_over_no_picture`.
-/

namespace Cmos

open FaultRun

/-- The size of a block of pages. -/
def blockBytes (order : Nat) : Nat := 2 ^ (PAGE_SHIFT + order)

def Reply.code : Reply → Int
  | .ret code => code
  | .format code _ => code

/-- The camera interface and its preview channel are switched on. -/
def Camif.capturing (s : Camif) : Bool :=
  s.ciimgcpt &&& (1#32 <<< 31 ||| 1#32 <<< 29) = 1#32 <<< 31 ||| 1#32 <<< 29

/-- The driver, the memory of the machine, and for each task the buffer that it
hands to `read`. -/
structure Grabber where
  capture : Capture
  camera : Preview.Camera
  memory : Nat → UInt8
  user : Nat → Nat → UInt8

/-- What happens next. -/
inductive Happening
  | control (call : Call)
  | request (call : MemoryCall)
  /-- A step of a read, or the interrupt.  A copy that fails has copied at most
  `part` bytes. -/
  | read (e : Preview.Event) (part : Nat)
  /-- The hardware writes a picture to the address in register `i`. -/
  | picture (i : Nat) (bytes : List UInt8)
  /-- Someone else writes a byte. -/
  | elsewhere (a : Nat) (byte : UInt8)

/-- Why nothing happens: it cannot, or the kernel is stopped by it. -/
inductive Halt
  | disabled
  | oops
deriving DecidableEq, Repr

section

variable (virtToPhys : Nat → Nat)

/-- The address belongs to a block that the driver has out. -/
def Capture.owns (c : Capture) (a : Nat) : Bool :=
  c.pages.live.any fun b => virtToPhys b.1 ≤ a && a < virtToPhys b.1 + blockBytes b.2

/-- The bytes at an address of the kernel. -/
def Grabber.load (s : Grabber) (a n : Nat) : List UInt8 :=
  (List.range n).map fun j => s.memory (virtToPhys (a + j))

/-- What is in the applications' buffers after `e`.  A copy from address zero stops
the kernel, unless it copies nothing. -/
def Grabber.copyToUser (s : Grabber) (part : Nat) :
    Preview.Event → Except Halt (Nat → Nat → UInt8)
  | .copy r copied =>
      match s.camera.phase r with
      | .copying bytes i =>
          let n := if copied then bytes else min part bytes
          let base := (s.capture.imgBuff i).virtBase
          if base = 0 ∧ 0 < n then .error .oops
          else .ok (Function.update s.user r
            (ByteStore.write (s.user r) 0 (s.load virtToPhys base n)))
      | _ => .error .disabled
  | _ => .ok s.user

/-- The static `buf_size` as a read sees it. -/
def Grabber.reader (s : Grabber) : Preview.Camera :=
  { s.camera with bufSize := s.capture.camif.bufSize.toNat }

/-- One happening, with what the call returns if it is one that does. -/
def Grabber.step (s : Grabber) : Happening → Except Halt (Option Int × Grabber)
  | .control call =>
      match Cmos.step s.capture.camif call with
      | .error _ => .error .oops
      | .ok (reply, camif) =>
          .ok (some reply.code, { s with capture := { s.capture with camif := camif } })
  | .request call =>
      match s.capture.step virtToPhys call with
      | .error _ => .error .oops
      | .ok (ret, capture) => .ok (ret, { s with capture := capture })
  | .read e part =>
      match Preview.step s.reader e, s.copyToUser virtToPhys part e with
      | .ok (ret, camera), .ok user => .ok (ret, { s with camera := camera, user := user })
      | .error _, _ => .error .disabled
      | .ok _, .error halt => .error halt
  | .picture i bytes =>
      if i < 4 ∧ s.capture.camif.capturing then
        .ok (none, { s with memory := ByteStore.write s.memory (s.capture.ciprclrsa i) bytes })
      else .error .disabled
  | .elsewhere a byte =>
      if s.capture.owns virtToPhys a then .error .disabled
      else .ok (none, { s with memory := Function.update s.memory a byte })

/-- What the page allocator answers a request with: four blocks of the kernel's
linear mapping that do not overlap. -/
structure Separate (order : Nat) (answers : Nat → Nat) : Prop where
  given : ∀ i < 4, answers i ≠ 0
  linear : ∀ i < 4, ∀ j < blockBytes order,
    virtToPhys (answers i + j) = virtToPhys (answers i) + j
  apart : ∀ i < 4, ∀ j < i,
    virtToPhys (answers i) + blockBytes order ≤ virtToPhys (answers j) ∨
      virtToPhys (answers j) + blockBytes order ≤ virtToPhys (answers i)

end

/-- Nothing but requests for memory and release is excluded, and pictures that do
not fit a block. -/
def Happening.Within (order : Nat) : Happening → Prop
  | .request (.reqbufs _) => False
  | .request .release => False
  | .picture _ bytes => bytes.length ≤ blockBytes order
  | _ => True

/-! ## A request that gets its four blocks -/

section Request

variable {virtToPhys : Nat → Nat} {order : Nat} {answers : Nat → Nat} {p : Blocks (Nat × Nat)}

theorem blockBytes_pos (order : Nat) : 0 < blockBytes order := Nat.two_pow_pos _

/-- The four blocks are four. -/
theorem Separate.ne (h : Separate virtToPhys order answers) {i j : Nat} (hi : i < 4)
    (hj : j < i) : answers i ≠ answers j := by
  intro heq
  have hapart := h.apart i hi j hj
  have hpos := blockBytes_pos order
  rw [heq] at hapart
  omega

theorem virtBase_unwind (n j : Nat) (s : Capture) :
    ((unwind order n s).imgBuff j).virtBase = (s.imgBuff j).virtBase := by
  induction n generalizing s with
  | zero => rfl
  | succ n ih => exact (ih _).trans (virtBase_freeImgBuff order n j s)

theorem ciprclrsa_unwind (n : Nat) (s : Capture) :
    (unwind order n s).ciprclrsa = s.ciprclrsa := by
  induction n generalizing s with
  | zero => rfl
  | succ n ih => exact ih _

/-- The labels leave alone what was allocated behind the blocks they free. -/
theorem unwind_below {n : Nat} {s : Capture} {b : Nat × Nat}
    (hpages : s.pages = (p.stack (fun i => (answers i, order)) n).give b)
    (hrecorded : ∀ i < n, (s.imgBuff i).virtBase = answers i)
    (hgiven : ∀ i < n, answers i ≠ 0) (hne : ∀ i < n, (answers i, order) ≠ b) :
    (unwind order n s).pages = p.give b := by
  induction n generalizing s with
  | zero => exact hpages
  | succ n ih =>
      have hlast := hrecorded n (Nat.lt_succ_self n)
      have hnonzero := hgiven n (Nat.lt_succ_self n)
      have hother := hne n (Nat.lt_succ_self n)
      refine ih ?_ (fun i hi => ?_) (fun i hi => hgiven i (Nat.lt_succ_of_lt hi))
        (fun i hi => hne i (Nat.lt_succ_of_lt hi))
      · simp only [freeImgBuff, freePages, hlast, if_neg hnonzero, hpages, Blocks.stack]
        rw [Blocks.free_give_of_ne _ hother, Blocks.free_give]
      · rw [virtBase_freeImgBuff]
        exact hrecorded i (Nat.lt_succ_of_lt hi)

/-- The physical addresses of a request, as far as it has got: they are all the
first block's. -/
def Addressed (virtToPhys answers : Nat → Nat) (n : Nat) (s : Capture) : Prop :=
  ∀ i < n, (s.imgBuff i).phyBase = virtToPhys (answers 0)

theorem Addressed.alloc {n : Nat} {s : Capture} (h : Addressed virtToPhys answers n s)
    (hreq : Requested order answers p n s) (hgiven : answers n ≠ 0) :
    Addressed virtToPhys answers (n + 1) (allocImgBuff virtToPhys order n (answers n) s) := by
  intro i hi
  have hfirst : ((allocImgBuff virtToPhys order n (answers n) s).imgBuff 0).virtBase =
      answers 0 := (hreq.alloc hgiven).recorded 0 (Nat.succ_pos n)
  rw [virtBase_allocImgBuff] at hfirst
  by_cases hin : i = n
  · subst hin
    have hbase : ((Function.update s.imgBuff i { s.imgBuff i with
        order := order, virtBase := answers i }) 0).virtBase = answers 0 := by
      by_cases hzero : 0 = i
      · rw [← hzero, Function.update_self]
      · rw [if_neg hzero] at hfirst
        rw [Function.update_of_ne hzero, hfirst]
    simp only [allocImgBuff, if_neg hgiven, Function.update_self, hbase]
  · have hkept : ((allocImgBuff virtToPhys order n (answers n) s).imgBuff i) = s.imgBuff i := by
      simp [allocImgBuff, hgiven, hin]
    rw [hkept]
    exact h i (by omega)

/-- A request that gets its blocks comes to the registers with all four of them. -/
theorem requestFrom_given {i left : Nat} {s : Capture} (hall : i + left = 4)
    (hgiven : ∀ i < 4, answers i ≠ 0) (hreq : Requested order answers p i s)
    (haddr : Addressed virtToPhys answers i s) :
    ∃ u, requestFrom virtToPhys order answers i left s = unwind order 3 (writeAddresses u) ∧
      Requested order answers p 4 u ∧ Addressed virtToPhys answers 4 u := by
  induction left generalizing i s with
  | zero =>
      obtain rfl : i = 4 := by omega
      exact ⟨s, rfl, hreq, haddr⟩
  | succ left ih =>
      have hi : answers i ≠ 0 := hgiven i (by omega)
      have hnext := ih (by omega) (hreq.alloc hi) (haddr.alloc hreq hi)
      rw [requestFrom, if_neg hi]
      exact hnext

/-- **A request that gets its four blocks** keeps only the last of them, and sends
all pictures to the first. -/
theorem vidiocReqbufs_given (s : Capture)
    (hsep : Separate virtToPhys (getOrder s.camif.bufSize) answers) :
    (vidiocReqbufs virtToPhys s answers).2.pages =
        s.pages.give (answers 3, getOrder s.camif.bufSize) ∧
      ((vidiocReqbufs virtToPhys s answers).2.imgBuff 3).virtBase = answers 3 ∧
      ∀ i < 4, (vidiocReqbufs virtToPhys s answers).2.ciprclrsa i = virtToPhys (answers 0) := by
  have hstart : Requested (getOrder s.camif.bufSize) answers s.pages 0 s :=
    ⟨rfl, fun i hi => absurd hi (Nat.not_lt_zero i), fun i hi => absurd hi (Nat.not_lt_zero i)⟩
  have hnone : Addressed virtToPhys answers 0 s := fun i hi => absurd hi (Nat.not_lt_zero i)
  obtain ⟨u, hu, hreq, haddr⟩ :=
    requestFrom_given (Nat.zero_add 4) hsep.given hstart hnone
  have hresult : (vidiocReqbufs virtToPhys s answers).2 =
      unwind (getOrder s.camif.bufSize) 3 (writeAddresses u) := hu
  rw [hresult]
  refine ⟨unwind_below hreq.pages (fun i hi => hreq.recorded i (by omega))
    (fun i hi => hreq.given i (by omega)) (fun i hi => ?_), ?_, fun i hi => ?_⟩
  · intro heq
    exact hsep.ne (by omega) hi (congrArg Prod.fst heq).symm
  · rw [virtBase_unwind]
    exact hreq.recorded 3 (by omega)
  · rw [ciprclrsa_unwind]
    simp only [writeAddresses, if_pos hi]
    exact haddr i hi

end Request

/-! ## After the request -/

/-- What a read of at least so many bytes has handed over when it has come this far. -/
def Handed (bytes : Nat → UInt8) (len : Nat) (user : Nat → UInt8) : Preview.Phase → Prop
  | .copying _ i => i < 4
  | .clearing n => ∀ j < n, j < len → user j = bytes j
  | .returning ret => ∀ j : Nat, (j : Int) < ret → j < len → user j = bytes j
  | _ => True

section Run

variable {virtToPhys : Nat → Nat} {order : Nat} {answers : Nat → Nat} {m : Nat → UInt8}

/-- How things stand after a request that has got its blocks, when memory was `m`. -/
structure Since (virtToPhys : Nat → Nat) (order : Nat) (answers : Nat → Nat) (m : Nat → UInt8)
    (s : Grabber) : Prop where
  addresses : ∀ i < 4, s.capture.ciprclrsa i = virtToPhys (answers 0)
  recorded : (s.capture.imgBuff 3).virtBase = answers 3
  owned : (answers 3, order) ∈ s.capture.pages.live
  freed : (answers 0, order) ∉ s.capture.pages.live
  kept : ∀ j < blockBytes order,
    s.memory (virtToPhys (answers 3) + j) = m (virtToPhys (answers 3) + j)
  handed : ∀ r, Handed (fun j => m (virtToPhys (answers 3) + j)) (blockBytes order) (s.user r)
    (s.camera.phase r)

/-- A read that goes on concerns no other read. -/
theorem handed_update {bytes : Nat → UInt8} {len : Nat} {user : Nat → Nat → UInt8}
    {phase : Nat → Preview.Phase} (h : ∀ r, Handed bytes len (user r) (phase r)) {r : Nat}
    {u : Nat → UInt8} {p : Preview.Phase} (hr : Handed bytes len u p) (q : Nat) :
    Handed bytes len (Function.update user r u q) (Function.update phase r p q) := by
  by_cases hq : q = r
  · subst hq
    rwa [Function.update_self, Function.update_self]
  · rw [Function.update_of_ne hq, Function.update_of_ne hq]
    exact h q

theorem handed_enter {bytes : Nat → UInt8} {len : Nat} {user : Nat → Nat → UInt8}
    {phase : Nat → Preview.Phase} (h : ∀ r, Handed bytes len (user r) (phase r)) {r : Nat}
    {p : Preview.Phase} (hr : Handed bytes len (user r) p) (q : Nat) :
    Handed bytes len (user q) (Function.update phase r p q) := by
  have hq := handed_update h (r := r) hr q
  rwa [Function.update_eq_self] at hq

/-- The fourth block is copied as it was. -/
theorem Since.load_block {s : Grabber} (h : Since virtToPhys order answers m s)
    (hsep : Separate virtToPhys order answers) {n j : Nat} (hn : j < n)
    (hj : j < blockBytes order) (user : Nat → UInt8) :
    ByteStore.write user 0 (s.load virtToPhys (s.capture.imgBuff 3).virtBase n) j =
      m (virtToPhys (answers 3) + j) := by
  have hcell : s.memory (virtToPhys (answers 3 + j)) = m (virtToPhys (answers 3) + j) := by
    rw [hsep.linear 3 (by omega) j hj]
    exact h.kept j hj
  simp [ByteStore.write, Grabber.load, h.recorded, hn, hcell]

/-- A copy that goes through, whole or in part. -/
theorem copyToUser_copy {s : Grabber} {part r : Nat} {copied : Bool} {user : Nat → Nat → UInt8}
    (h : s.copyToUser virtToPhys part (.copy r copied) = .ok user) :
    ∃ bytes i, s.camera.phase r = .copying bytes i ∧
      user = Function.update s.user r (ByteStore.write (s.user r) 0
        (s.load virtToPhys (s.capture.imgBuff i).virtBase
          (if copied then bytes else min part bytes))) := by
  simp only [Grabber.copyToUser] at h
  split at h
  · rename_i bytes i hphase
    refine ⟨bytes, i, hphase, ?_⟩
    by_cases hnull : (s.capture.imgBuff i).virtBase = 0 ∧
        0 < if copied = true then bytes else min part bytes
    · rw [if_pos hnull] at h
      cases h
    · rw [if_neg hnull] at h
      exact (Except.ok.inj h).symm
  · cases h

/-- A copy puts the block of its round into the reader's memory.  The rounds go on to the
fourth block, and nothing but that one is left when they end. -/
theorem Since.handed_copy {s : Grabber} (h : Since virtToPhys order answers m s)
    (hsep : Separate virtToPhys order answers) {r part : Nat} {copied : Bool}
    {ret : Option Int} {camera : Preview.Camera} {user : Nat → Nat → UInt8}
    (hstep : Preview.step s.reader (.copy r copied) = .ok (ret, camera))
    (hcopy : s.copyToUser virtToPhys part (.copy r copied) = .ok user) (q : Nat) :
    Handed (fun j => m (virtToPhys (answers 3) + j)) (blockBytes order) (user q)
      (camera.phase q) := by
  have hold := h.handed
  obtain ⟨bytes, i, hphase, rfl⟩ := copyToUser_copy hcopy
  have hlt : i < 4 := by
    have hr := hold r
    rwa [hphase] at hr
  simp only [Preview.step] at hstep
  rw [show s.reader.phase r = .copying bytes i from hphase] at hstep
  cases copied with
  | false =>
      cases hstep
      refine handed_update hold ?_ q
      intro j hj
      simp only [Preview.EFAULT] at hj
      omega
  | true =>
      cases hstep
      refine handed_update hold ?_ q
      by_cases hmore : i + 1 < 4
      · rw [if_pos hmore]
        exact hmore
      · obtain rfl : i = 3 := by omega
        rw [if_neg hmore]
        intro j hj hlen
        exact h.load_block hsep hj hlen _

/-- One step of a read, or the interrupt: whoever gets as far as clearing the flag
has the fourth block. -/
theorem Since.handed_read {s : Grabber} (h : Since virtToPhys order answers m s)
    (hsep : Separate virtToPhys order answers) {e : Preview.Event} {part : Nat}
    {ret : Option Int} {camera : Preview.Camera} {user : Nat → Nat → UInt8}
    (hstep : Preview.step s.reader e = .ok (ret, camera))
    (hcopy : s.copyToUser virtToPhys part e = .ok user) (q : Nat) :
    Handed (fun j => m (virtToPhys (answers 3) + j)) (blockBytes order) (user q)
      (camera.phase q) := by
  have hold := h.handed
  cases e with
  | irq =>
      cases hstep
      cases hcopy
      exact hold q
  | call r count =>
      cases hcopy
      simp only [Preview.step] at hstep
      split at hstep
      · cases hstep
        exact handed_enter hold (by trivial) q
      · cases hstep
  | sleep r =>
      cases hcopy
      simp only [Preview.step] at hstep
      split at hstep
      · cases hstep
        exact hold q
      · cases hstep
  | wait r =>
      cases hcopy
      simp only [Preview.step] at hstep
      split at hstep
      · cases hstep
        exact handed_enter hold (by exact Nat.succ_pos 3) q
      · cases hstep
  | signal r =>
      cases hcopy
      simp only [Preview.step] at hstep
      split at hstep
      · cases hstep
        exact handed_enter hold (by exact Nat.succ_pos 3) q
      · cases hstep
  | copy r copied => exact h.handed_copy hsep hstep hcopy q
  | clear r =>
      cases hcopy
      simp only [Preview.step] at hstep
      split at hstep
      · rename_i bytes hphase
        cases hstep
        have hr := hold r
        rw [show s.camera.phase r = .clearing bytes from hphase] at hr
        refine handed_enter hold ?_ q
        exact fun j hj => hr j (Int.ofNat_lt.mp hj)
      · cases hstep
  | ret r =>
      cases hcopy
      simp only [Preview.step] at hstep
      split at hstep
      · cases hstep
        exact handed_enter hold (by trivial) q
      · cases hstep

/-- A change of memory outside the fourth block is none of a read's business. -/
theorem Since.writes {s : Grabber} (h : Since virtToPhys order answers m s)
    {memory : Nat → UInt8} (hsame : ∀ j < blockBytes order,
      memory (virtToPhys (answers 3) + j) = s.memory (virtToPhys (answers 3) + j)) :
    Since virtToPhys order answers m { s with memory := memory } :=
  { h with kept := fun j hj => (hsame j hj).trans (h.kept j hj) }

/-- A picture goes to the first block. -/
theorem Since.picture {s : Grabber} (h : Since virtToPhys order answers m s)
    (hsep : Separate virtToPhys order answers) {i : Nat} (hi : i < 4) {bytes : List UInt8}
    (hfits : bytes.length ≤ blockBytes order) :
    Since virtToPhys order answers m
      { s with memory := ByteStore.write s.memory (s.capture.ciprclrsa i) bytes } := by
  refine h.writes fun j hj => ByteStore.write_outside _ _ _ _ ?_
  have hapart := hsep.apart 3 (by omega) 0 (by omega)
  rw [h.addresses i hi]
  omega

/-- Nobody else writes to the fourth block. -/
theorem Since.elsewhere {s : Grabber} (h : Since virtToPhys order answers m s) {a : Nat}
    (ha : ¬ s.capture.owns virtToPhys a = true) (byte : UInt8) :
    Since virtToPhys order answers m
      { s with memory := Function.update s.memory a byte } := by
  refine h.writes fun j hj => Function.update_of_ne ?_ _ _
  rintro rfl
  refine ha (List.any_eq_true.mpr ⟨(answers 3, order), h.owned, ?_⟩)
  simp [hj]

/-- **One step.** -/
theorem Since.next (hsep : Separate virtToPhys order answers) (s : Grabber) (i : Happening)
    (r : Option Int) (t : Grabber) (h : Since virtToPhys order answers m s)
    (hwithin : i.Within order) (hstep : s.step virtToPhys i = .ok (r, t)) :
    Since virtToPhys order answers m t := by
  cases i with
  | control call =>
      simp only [Grabber.step] at hstep
      split at hstep
      · cases hstep
      · cases hstep
        exact { h with }
  | request call =>
      cases call with
      | sFmt f =>
          cases hstep
          exact { h with }
      | reqbufs answers => exact absurd hwithin id
      | release => exact absurd hwithin id
  | read e part =>
      simp only [Grabber.step] at hstep
      split at hstep
      · rename_i hread hcopy
        cases hstep
        exact { h with handed := h.handed_read hsep hread hcopy }
      · cases hstep
      · cases hstep
  | picture i bytes =>
      simp only [Grabber.step] at hstep
      split at hstep
      · rename_i hon
        cases hstep
        exact h.picture hsep hon.1 hwithin
      · cases hstep
  | elsewhere a byte =>
      simp only [Grabber.step] at hstep
      split at hstep
      · cases hstep
      · rename_i hother
        cases hstep
        exact h.elsewhere hother byte

/-- Only a read that has come to its end returns. -/
theorem step_ret_ok {c d : Preview.Camera} {r : Nat} {v : Option Int}
    (h : Preview.step c (.ret r) = .ok (v, d)) :
    ∃ ret, c.phase r = .returning ret ∧ v = some ret := by
  simp only [Preview.step] at h
  split at h
  · rename_i ret hphase
    cases h
    exact ⟨ret, hphase, rfl⟩
  · cases h

/-- A read that returns has handed over the fourth block. -/
theorem Since.returned {s t : Grabber} (h : Since virtToPhys order answers m s)
    {r part n : Nat} (hstep : s.step virtToPhys (.read (.ret r) part) = .ok (some (n : Int), t))
    {j : Nat} (hn : j < n) (hj : j < blockBytes order) :
    t.user r j = m (virtToPhys (answers 3) + j) := by
  simp only [Grabber.step] at hstep
  split at hstep
  · rename_i hread hcopy
    cases hstep
    cases hcopy
    obtain ⟨ret, hphase, hret⟩ := step_ret_ok hread
    obtain rfl := Option.some.inj hret
    have hr := h.handed r
    rw [show s.camera.phase r = .returning n from hphase] at hr
    exact hr j (Int.ofNat_lt.mpr hn) hj
  · cases hstep
  · cases hstep

/-- A request that gets its blocks while no read is under way. -/
theorem since_request {s t : Grabber} {v : Option Int}
    (hidle : ∀ r, s.camera.phase r = .idle)
    (hfresh : (answers 0, getOrder s.capture.camif.bufSize) ∉ s.capture.pages.live)
    (hsep : Separate virtToPhys (getOrder s.capture.camif.bufSize) answers)
    (hreq : s.step virtToPhys (.request (.reqbufs answers)) = .ok (v, t)) :
    Since virtToPhys (getOrder s.capture.camif.bufSize) answers s.memory t := by
  obtain ⟨hpages, hrecorded, haddresses⟩ := vidiocReqbufs_given s.capture hsep
  cases hreq
  refine ⟨haddresses, hrecorded, ?_, ?_, fun j hj => rfl, fun r => ?_⟩
  · dsimp only
    rw [hpages]
    exact List.mem_cons_self
  · dsimp only
    rw [hpages]
    intro hmem
    rcases List.mem_cons.mp hmem with heq | hold
    · exact hsep.ne (by omega) (by omega : 0 < 3) (congrArg Prod.fst heq).symm
    · exact hfresh hold
  · rw [hidle r]
    trivial

end Run

/-- The linear mapping of a kernel at `0xC0000000` with memory from `0x30000000` on. -/
def linearPhys (a : Nat) : Nat := a - 0xC0000000 + 0x30000000

/-- The driver just loaded, in a memory full of sevens. -/
def loadedGrabber : Grabber where
  capture := Capture.load {}
  camera := { bufSize := 0 }
  memory := fun _ => 7
  user := fun _ _ => 0

/-- A small size that the scaler can produce. -/
def smallFormat : V4l2Format := ⟨.videoCapture, 16, 8, V4L2_PIX_FMT_RGB565, 0, 0⟩

/-- The driver after `S_FMT`. -/
def sizedGrabber : Grabber :=
  lastState loadedGrabber
    (exec (Grabber.step linearPhys) loadedGrabber [.control (.sFmt smallFormat)])

/-- The pages of the request. -/
def fourPages (i : Nat) : Nat := 0xC0100000 + 4096 * i

/-- The driver after its request. -/
def requestedGrabber : Grabber :=
  lastState sizedGrabber
    (exec (Grabber.step linearPhys) sizedGrabber [.request (.reqbufs fourPages)])

/-- A picture of that size. -/
def smallPicture : List UInt8 := List.replicate 256 1

/-- The capture is started, a picture arrives with its interrupt, and a read goes through. -/
def onePictureRead : List Happening :=
  .control .streamon :: .picture 0 smallPicture ::
    [Preview.Event.irq, .call 0 512, .wait 0, .copy 0 true, .copy 0 true, .copy 0 true,
      .copy 0 true, .clear 0, .ret 0].map (.read · 0)

end Cmos
