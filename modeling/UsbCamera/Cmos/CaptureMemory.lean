import UsbCamera.Base.Blocks
import UsbCamera.Cmos.Camif

/-!
# The memory of a capture

The camera interface writes its pictures to four blocks of pages.  `REQBUFS`
allocates them and tells the hardware their addresses; `release` frees them.  The
size of a block is an order computed from `buf_size`, a static that `S_FMT` sets,
and both functions compute it anew.

The two share a slip each.  The code that undoes a partial allocation stands at the
end of `REQBUFS` without a `return` in front of it, so an allocation that
succeeded is undone as well, except for its last block.  And no one ever clears
`virt_base`, so `release` frees again what `REQBUFS` has freed.

`capture_memory_iff` says which sequences of calls get by: those in which every
`REQBUFS` runs out of memory and every `release` finds no address recorded.
-/

namespace Cmos

open FaultRun

def ENOMEM : Int := 12

def PAGE_SHIFT : Nat := 12

/-- `fls`: the number of the highest bit set, counted from one. -/
def fls (x : BitVec 32) : Nat := if x = 0#32 then 0 else x.toNat.log2 + 1

/-- `get_order`. -/
def getOrder (size : BitVec 32) : Nat := fls ((size - 1#32) >>> PAGE_SHIFT)

/-- `struct camif_buffer`.  An address of zero is `NULL`. -/
structure CamifBuffer where
  order : Nat := 0
  virtBase : Nat := 0
  phyBase : Nat := 0
deriving DecidableEq, Repr

/-- The driver with its capture memory: `img_buff`, the registers `CIPRCLRSA1` to
`CIPRCLRSA4`, counted from zero, and the page allocator, whose blocks are an
address and an order. -/
structure Capture where
  camif : Camif
  imgBuff : Nat → CamifBuffer := fun _ => {}
  ciprclrsa : Nat → Nat := fun _ => 0
  pages : Blocks (Nat × Nat) := {}

/-- `__get_free_pages`, given its answer. -/
def getFreePages (pages : Blocks (Nat × Nat)) (order answer : Nat) : Blocks (Nat × Nat) :=
  if answer = 0 then pages else pages.give (answer, order)

/-- `free_pages`; an address of zero is ignored. -/
def freePages (pages : Blocks (Nat × Nat)) (addr order : Nat) : Blocks (Nat × Nat) :=
  if addr = 0 then pages else pages.free (addr, order)

/-- Free block `i`.  Its `virt_base` stays. -/
def freeImgBuff (order i : Nat) (s : Capture) : Capture :=
  { s with
    pages := freePages s.pages (s.imgBuff i).virtBase order
    imgBuff := Function.update s.imgBuff i { s.imgBuff i with phyBase := 0 } }

/-- The labels `error3` to `error0`: free blocks `i - 1` down to 0. -/
def unwind (order : Nat) : Nat → Capture → Capture
  | 0, s => s
  | i + 1, s => unwind order i (freeImgBuff order i s)

/-- `cmos_ov7740_release`. -/
def release (s : Capture) : Capture :=
  [0, 1, 2, 3].foldl (fun t i => freeImgBuff (getOrder s.camif.bufSize) i t) s

section

variable (virtToPhys : Nat → Nat)

/-- Allocate block `i`.  All four physical addresses are computed from
`img_buff[0]`. -/
def allocImgBuff (order i answer : Nat) (s : Capture) : Capture :=
  let imgBuff := Function.update s.imgBuff i
    { s.imgBuff i with order := order, virtBase := answer }
  let s := { s with imgBuff := imgBuff, pages := getFreePages s.pages order answer }
  if answer = 0 then s
  else
    let phyBase := virtToPhys (s.imgBuff 0).virtBase
    { s with imgBuff := Function.update s.imgBuff i { s.imgBuff i with phyBase := phyBase } }

/-- The four registers are given the addresses. -/
def writeAddresses (s : Capture) : Capture :=
  { s with ciprclrsa := fun i => if i < 4 then (s.imgBuff i).phyBase else s.ciprclrsa i }

/-- `REQBUFS` from block `i` on, with `left` blocks to go.  A failed allocation jumps
to its label; after the last one the code runs on into `error3`. -/
def requestFrom (order : Nat) (answers : Nat → Nat) : (i left : Nat) → Capture → Capture
  | _, 0, s => unwind order 3 (writeAddresses s)
  | i, left + 1, s =>
      let s := allocImgBuff virtToPhys order i (answers i) s
      if answers i = 0 then unwind order i s else requestFrom order answers (i + 1) left s

/-- `cmos_ov7740_vidioc_reqbufs`, given what `__get_free_pages` answers for each
block. -/
def vidiocReqbufs (s : Capture) (answers : Nat → Nat) : Int × Capture :=
  (-ENOMEM, requestFrom virtToPhys (getOrder s.camif.bufSize) answers 0 4 s)

/-- The calls that deal with the capture memory. -/
inductive MemoryCall
  | sFmt (f : V4l2Format)
  | reqbufs (answers : Nat → Nat)
  | release

/-- One call. -/
def Capture.step (s : Capture) : MemoryCall → Except Fault (Option Int × Capture)
  | .sFmt f =>
      .ok (some (vidiocSFmtVidCap s.camif f).1,
        { s with camif := (vidiocSFmtVidCap s.camif f).2.2 })
  | .reqbufs answers =>
      .ok (some (vidiocReqbufs virtToPhys s answers).1, (vidiocReqbufs virtToPhys s answers).2)
  | .release => .ok (none, Cmos.release s)

end

/-- The driver once it is loaded, with whatever the probe left in the registers. -/
def Capture.load (camif : Camif) : Capture := { camif := camif }

/-- The calls made so far. -/
abbrev MemoryLog := List (Entry MemoryCall (Option Int) Capture)

/-! ## The property -/

/-- A call owns its memory properly: nothing has been freed that was not out, a
`REQBUFS` that got all its blocks returns 0 with the blocks recorded, their
addresses in the registers and none of them freed, and one that did not get its
`k`-th block returns `-ENOMEM` with the earlier ones freed and no others. -/
def CallOk (virtToPhys : Nat → Nat) (s : Capture) (call : MemoryCall) (ret : Option Int)
    (t : Capture) : Prop :=
  t.pages.wrong = [] ∧
  match call with
  | .reqbufs answers =>
      (ret = some 0 ↔ ∀ i < 4, answers i ≠ 0) ∧
      (ret = some 0 → ∀ i < 4, (t.imgBuff i).virtBase = answers i ∧
        t.ciprclrsa i = virtToPhys (answers i) ∧
        (answers i, (t.imgBuff i).order) ∈ t.pages.live ∧ ∀ j < 4, j ≠ i → answers j ≠ answers i) ∧
      ∀ k < 4, answers k = 0 → (∀ j < k, answers j ≠ 0) →
        ret = some (-ENOMEM) ∧ t.pages.live = s.pages.live
  | _ => True

/-- Every `REQBUFS` runs out of memory, and `release` finds no address recorded. -/
def RunsOut (s : Capture) : MemoryCall → Prop
  | .sFmt _ => True
  | .reqbufs answers => ∃ i < 4, answers i = 0
  | .release => ∀ i < 4, (s.imgBuff i).virtBase = 0

/-! ## Allocating and undoing -/

/-- Freeing leaves the address recorded. -/
theorem virtBase_freeImgBuff (order i j : Nat) (s : Capture) :
    ((freeImgBuff order i s).imgBuff j).virtBase = (s.imgBuff j).virtBase := by
  by_cases hj : j = i <;> simp [freeImgBuff, hj]

section

variable {virtToPhys : Nat → Nat} {order : Nat} {answers : Nat → Nat} {p : Blocks (Nat × Nat)}

/-- What an allocation does to the allocator. -/
theorem pages_allocImgBuff (i answer : Nat) (s : Capture) :
    (allocImgBuff virtToPhys order i answer s).pages = getFreePages s.pages order answer := by
  unfold allocImgBuff
  dsimp only
  split <;> rfl

/-- The answer is recorded, also when it is zero. -/
theorem virtBase_allocImgBuff (i j answer : Nat) (s : Capture) :
    ((allocImgBuff virtToPhys order i answer s).imgBuff j).virtBase =
      if j = i then answer else (s.imgBuff j).virtBase := by
  unfold allocImgBuff
  dsimp only
  by_cases hj : j = i <;> split <;> simp [hj]

/-- The blocks of a request, as far as it has got. -/
structure Requested (order : Nat) (answers : Nat → Nat) (p : Blocks (Nat × Nat)) (n : Nat)
    (s : Capture) : Prop where
  pages : s.pages = p.stack (fun i => (answers i, order)) n
  recorded : ∀ i < n, (s.imgBuff i).virtBase = answers i
  given : ∀ i < n, answers i ≠ 0

/-- The labels undo a request as far as it has got. -/
theorem Requested.unwind {n : Nat} {s : Capture} (h : Requested order answers p n s) :
    (unwind order n s).pages = p := by
  induction n generalizing s with
  | zero => exact h.pages
  | succ n ih =>
      have hlast := h.recorded n (Nat.lt_succ_self n)
      have hne := h.given n (Nat.lt_succ_self n)
      refine ih ⟨?_, fun i hi => ?_, fun i hi => h.given i (Nat.lt_succ_of_lt hi)⟩
      · simp [freeImgBuff, freePages, hlast, hne, h.pages, Blocks.stack]
      · rw [virtBase_freeImgBuff]
        exact h.recorded i (Nat.lt_succ_of_lt hi)

/-- A request gets one block further. -/
theorem Requested.alloc {n : Nat} {s : Capture} (h : Requested order answers p n s)
    (hgiven : answers n ≠ 0) :
    Requested order answers p (n + 1) (allocImgBuff virtToPhys order n (answers n) s) where
  pages := by rw [pages_allocImgBuff, getFreePages, if_neg hgiven, h.pages, Blocks.stack]
  recorded := fun i hi => by
    rw [virtBase_allocImgBuff]
    split
    · rename_i heq
      rw [heq]
    · exact h.recorded i (by omega)
  given := fun i hi => by
    rcases Nat.lt_or_ge i n with hlt | hge
    · exact h.given i hlt
    · rw [show i = n by omega]
      exact hgiven

/-- **A request that runs out of memory** leaves the allocator as it was. -/
theorem Requested.runs_out {i left k : Nat} {s : Capture} (h : Requested order answers p i s)
    (hlow : i ≤ k) (hhigh : k < i + left) (hfails : answers k = 0) :
    (requestFrom virtToPhys order answers i left s).pages = p := by
  induction left generalizing i s with
  | zero => omega
  | succ left ih =>
      unfold requestFrom
      dsimp only
      split
      · rename_i hzero
        refine Requested.unwind ⟨?_, fun j hj => ?_, h.given⟩
        · rw [pages_allocImgBuff, getFreePages, if_pos hzero, h.pages]
        · rw [virtBase_allocImgBuff, if_neg (Nat.ne_of_lt hj)]
          exact h.recorded j hj
      · rename_i hne
        have hik : i ≠ k := fun heq => hne (heq ▸ hfails)
        exact ih (h.alloc hne) (by omega) (by omega)

/-- So `REQBUFS` leaves the allocator as it was when one of its calls fails. -/
theorem vidiocReqbufs_runs_out (s : Capture) {k : Nat} (hk : k < 4) (hfails : answers k = 0) :
    (vidiocReqbufs virtToPhys s answers).2.pages = s.pages := by
  have hstart : Requested (getOrder s.camif.bufSize) answers s.pages 0 s :=
    ⟨rfl, fun i hi => absurd hi (Nat.not_lt_zero i), fun i hi => absurd hi (Nat.not_lt_zero i)⟩
  exact hstart.runs_out (Nat.zero_le k) (by omega) hfails

end

/-! ## Releasing -/

/-- With nothing out, freeing the recorded addresses is wrong unless they are all
zero. -/
theorem freeImgBuffs_wrong (order : Nat) (is : List Nat) {s : Capture} (hlive : s.pages.live = []) :
    (is.foldl (fun t i => freeImgBuff order i t) s).pages.live = [] ∧
      ((is.foldl (fun t i => freeImgBuff order i t) s).pages.wrong = [] ↔
        s.pages.wrong = [] ∧ ∀ i ∈ is, (s.imgBuff i).virtBase = 0) := by
  induction is generalizing s with
  | nil => simp [hlive]
  | cons i rest ih =>
      have hpages : (freeImgBuff order i s).pages =
          freePages s.pages (s.imgBuff i).virtBase order := rfl
      by_cases hzero : (s.imgBuff i).virtBase = 0
      · have hkept : (freeImgBuff order i s).pages = s.pages := by
          rw [hpages, freePages, if_pos hzero]
        obtain ⟨hrest, hiff⟩ := ih (s := freeImgBuff order i s) (by rw [hkept, hlive])
        refine ⟨hrest, hiff.trans ?_⟩
        simp only [hkept, virtBase_freeImgBuff, List.forall_mem_cons, hzero, true_and]
      · obtain ⟨hwrong, hlive'⟩ :=
          Blocks.wrong_free_of_live_nil hlive ((s.imgBuff i).virtBase, order)
        rw [freePages, if_neg hzero] at hpages
        obtain ⟨hrest, hiff⟩ := ih (s := freeImgBuff order i s) (by rw [hpages, hlive'])
        refine ⟨hrest, hiff.trans ?_⟩
        simp only [hpages, hwrong, List.forall_mem_cons, hzero, false_and, and_false,
          List.append_eq_nil_iff, List.cons_ne_nil]

/-! ## Sequences of calls -/

/-- Nothing is out between two calls, and nothing has been freed wrongly. -/
def NothingOut (s : Capture) : Prop := s.pages.live = [] ∧ s.pages.wrong = []

/-- **One call** keeps nothing out when memory runs out. -/
theorem NothingOut.kept {virtToPhys : Nat → Nat} {s t : Capture} {call : MemoryCall}
    {ret : Option Int} (h : NothingOut s) (hcall : RunsOut s call)
    (hstep : Capture.step virtToPhys s call = .ok (ret, t)) : NothingOut t := by
  cases call with
  | sFmt f =>
      obtain ⟨-, rfl⟩ := Prod.mk.inj (Except.ok.inj hstep)
      exact h
  | reqbufs answers =>
      obtain ⟨-, rfl⟩ := Prod.mk.inj (Except.ok.inj hstep)
      obtain ⟨k, hk, hfails⟩ := hcall
      have hpages := @vidiocReqbufs_runs_out virtToPhys answers s k hk hfails
      unfold NothingOut
      rw [hpages]
      exact h
  | release =>
      obtain ⟨-, rfl⟩ := Prod.mk.inj (Except.ok.inj hstep)
      obtain ⟨hlive, hiff⟩ := freeImgBuffs_wrong (getOrder s.camif.bufSize) [0, 1, 2, 3] h.1
      refine ⟨hlive, hiff.mpr ⟨h.2, fun i hi => hcall i ?_⟩⟩
      simp only [List.mem_cons, List.not_mem_nil, or_false] at hi
      omega

/-- **One call** is in order exactly when memory runs out. -/
theorem NothingOut.callOk_iff {virtToPhys : Nat → Nat} {s t : Capture} {call : MemoryCall}
    {ret : Option Int} (h : NothingOut s)
    (hstep : Capture.step virtToPhys s call = .ok (ret, t)) :
    CallOk virtToPhys s call ret t ↔ RunsOut s call := by
  have hsame := hstep
  cases call with
  | sFmt f =>
      have hcall : RunsOut s (.sFmt f) := trivial
      exact iff_of_true ⟨(h.kept hcall hsame).2, trivial⟩ hcall
  | reqbufs answers =>
      obtain ⟨rfl, rfl⟩ := Prod.mk.inj (Except.ok.inj hstep)
      have hret : some (-ENOMEM) ≠ some (0 : Int) := by decide
      constructor
      · rintro ⟨-, hzero, -⟩
        by_contra hall
        refine hret (hzero.mpr fun i hi hfails => hall ⟨i, hi, hfails⟩)
      · intro hcall
        have hout := h.kept hcall hsame
        obtain ⟨k, hk, hfails⟩ := hcall
        have hpages := @vidiocReqbufs_runs_out virtToPhys answers s k hk hfails
        refine ⟨hout.2, ?_, fun habsurd => absurd habsurd hret, ?_⟩
        · exact iff_of_false hret fun hall => hall k hk hfails
        · intro j _ _ _
          exact ⟨rfl, congrArg Blocks.live hpages⟩
  | release =>
      obtain ⟨-, rfl⟩ := Prod.mk.inj (Except.ok.inj hstep)
      obtain ⟨-, hiff⟩ := freeImgBuffs_wrong (getOrder s.camif.bufSize) [0, 1, 2, 3] h.1
      constructor
      · rintro ⟨hwrong, -⟩ i hi
        refine (hiff.mp hwrong).2 i ?_
        simp only [List.mem_cons, List.not_mem_nil, or_false]
        omega
      · intro hcall
        exact ⟨(h.kept hcall hsame).2, trivial⟩

/-- **Capture memory.**  For every sequence of calls after the driver is loaded and
every answer of the page allocator: all calls own their memory properly exactly
when every `REQBUFS` runs out of memory and every `release` finds no address
recorded. -/
theorem capture_memory_iff {virtToPhys : Nat → Nat} {camif : Camif} {es : MemoryLog}
    (hrun : IsRun (Capture.step virtToPhys) (Capture.load camif) es) :
    (∀ xs e ys, es = xs ++ e :: ys →
      CallOk virtToPhys (lastState (Capture.load camif) xs) e.input e.reply e.state) ↔
      Along RunsOut (Capture.load camif) es :=
  hrun.entries_iff_along (I := NothingOut) (Q := CallOk virtToPhys)
    (fun _ _ _ _ h hcall hstep => h.kept hcall hstep) (fun _ _ _ _ h hstep => h.callOk_iff hstep)
    ⟨rfl, rfl⟩

/-- The driver with a picture of 640 by 480 set. -/
def sizedCapture : Capture :=
  { camif := (vidiocSFmtVidCap {} ⟨.videoCapture, 640, 480, V4L2_PIX_FMT_RGB565, 0, 0⟩).2.2 }

/-- Four blocks that are far apart. -/
def plentiful (i : Nat) : Nat := 0x1000000 * (i + 1)

/-- `S_FMT`, and `REQBUFS` with memory for all four blocks. -/
def plentifulLog : MemoryLog :=
  [⟨.sFmt ⟨.videoCapture, 640, 480, V4L2_PIX_FMT_RGB565, 0, 0⟩, some 0, sizedCapture⟩,
    ⟨.reqbufs plentiful, some (-ENOMEM), (vidiocReqbufs id sizedCapture plentiful).2⟩]

/-- A request that got all its blocks fails, and frees all but the last of them. -/
theorem plentiful_request_undone :
    IsRun (Capture.step id) (Capture.load {}) plentifulLog ∧
    (vidiocReqbufs id sizedCapture plentiful).2.pages.live = [(0x4000000, 8)] ∧
    ¬ ∀ xs e ys, plentifulLog = xs ++ e :: ys →
      CallOk id (lastState (Capture.load {}) xs) e.input e.reply e.state := by
  refine ⟨⟨rfl, rfl, trivial⟩, by decide, fun hall => ?_⟩
  have hok : CallOk id sizedCapture (.reqbufs plentiful) (some (-ENOMEM))
      (vidiocReqbufs id sizedCapture plentiful).2 := hall [_] _ [] rfl
  have hret : some (-ENOMEM) ≠ some (0 : Int) := by decide
  exact hret (hok.2.1.mpr (by decide))

/-- Memory for two blocks. -/
def scarce (i : Nat) : Nat := if i < 2 then plentiful i else 0

/-- `S_FMT`, and a `REQBUFS` that does not get its third block: the first two are given back. -/
theorem capture_memory_exhausted :
    let log : MemoryLog := exec (Capture.step id) (Capture.load {})
      [.sFmt ⟨.videoCapture, 640, 480, V4L2_PIX_FMT_RGB565, 0, 0⟩, .reqbufs scarce]
    (allocImgBuff id 8 1 (scarce 1) (allocImgBuff id 8 0 (scarce 0) sizedCapture)).pages.live =
        [(0x2000000, 8), (0x1000000, 8)] ∧
      (lastState (Capture.load {}) log).pages.live = [] ∧
      ∀ xs e ys, log = xs ++ e :: ys →
        CallOk id (lastState (Capture.load {}) xs) e.input e.reply e.state := by
  intro log
  have hscarce : Along RunsOut (Capture.load {}) log := ⟨trivial, ⟨2, by decide, rfl⟩, trivial⟩
  exact ⟨by decide, by decide, (capture_memory_iff (isRun_exec _ _)).mpr hscarce⟩

end Cmos
