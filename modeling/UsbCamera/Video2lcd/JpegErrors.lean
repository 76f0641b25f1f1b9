import UsbCamera.Base.Run
import UsbCamera.Video2lcd.Convert

/-!
# Errors of the JPEG decoder

`libjpeg` reports an error by a `longjmp` to the `setjmp` at the head of
`Mjpeg2RgbConvert`.  What was allocated by then is freed there, and the function
returns -1.  The pointer to the output data is not reset, and the next call, as well as
`Mjpeg2RgbConvertExit`, looks only at whether it is `NULL`.

Here a call is followed through the heap: which blocks are issued, which are freed, and
whether one is written after that.  A frame says where `libjpeg` fails, if it does, and
which of the two `malloc` calls succeed.  `aucLineBuffer` is a local variable changed
after `setjmp`, so that its value behind the `longjmp` is not determined; the frame says
whether it has been kept.  A store through `NULL` ends the run.

A run of calls leaves the heap tidy exactly when no error strikes while there is an
output block, and the few errors that may happen without one find the line buffer in the
right state (`jpeg_runs_clean_iff`).
-/

namespace Video2lcd.JpegErrors

open FaultRun

/-- The blocks of the heap, by number, and the data pointer of the output. -/
structure Heap where
  -- how many blocks have been issued
  issued : Nat := 0
  freed : List Nat := []
  -- blocks that were written after they had been freed
  lateWrites : List Nat := []
  aucPixelDatas : Option Nat := none
deriving DecidableEq, Repr

namespace Heap

/-- `if (p) free(p);` -/
def free (s : Heap) (p : Option Nat) : Heap := { s with freed := s.freed ++ p.toList }

/-- `free` of a null pointer does nothing. -/
theorem free_none (s : Heap) : s.free none = s := by
  rw [free, Option.toList_none, List.append_nil]

/-- A store into a block. -/
def write (s : Heap) (b : Nat) : Heap :=
  if b ∈ s.freed then { s with lateWrites := s.lateWrites ++ [b] } else s

end Heap

/-- The `libjpeg` calls of `Mjpeg2RgbConvert`. -/
inductive JpegCall
  | createDecompress
  | memSrc
  | readHeader
  | startDecompress
  | readScanlines (line : Nat)
  | finishDecompress
  | destroyDecompress
deriving DecidableEq, Repr

/-- What a call of `Mjpeg2RgbConvert` meets. -/
structure Frame where
  -- the call that ends in a `longjmp`
  fails : Option JpegCall
  height : UInt16
  -- whether `CovertOneLine` stores anything for a line
  stores : Bool := true
  -- whether the line buffer and the output data can be allocated
  lineBuffer : Bool := true
  pixels : Bool := true
  -- whether `aucLineBuffer` has its value behind a `longjmp`
  lineKept : Bool := true

/-- The value of `aucLineBuffer` behind a `longjmp`. -/
def Frame.afterJump (f : Frame) (aucLineBuffer : Nat) : Option Nat :=
  if f.lineKept then some aucLineBuffer else none

/-- A store through `NULL`. -/
inductive Fault
  | nullStore
deriving DecidableEq, Repr

/-- The branch behind `setjmp`. -/
def jpegError (s : Heap) (aucLineBuffer : Option Nat) : Int32 × Heap :=
  (-1, (s.free aucLineBuffer).free s.aucPixelDatas)

/-- The loop over the lines, from line `k` on; `false` if it ends by a `longjmp`. -/
def readLines (f : Frame) (aucLineBuffer : Nat) : (left k : Nat) → Heap → Except Fault (Bool × Heap)
  | 0, _, s => .ok (true, s)
  | left + 1, k, s =>
      if f.fails = some (.readScanlines k) then .ok (false, s)
      else
        let s := s.write aucLineBuffer
        if f.stores then
          match s.aucPixelDatas with
          | none => .error .nullStore
          | some b => readLines f aucLineBuffer left (k + 1) (s.write b)
        else readLines f aucLineBuffer left (k + 1) s

/-- One of the calls up to `jpeg_start_decompress` fails. -/
def Frame.failsEarly (f : Frame) : Bool :=
  f.fails = some .createDecompress || f.fails = some .memSrc || f.fails = some .readHeader ||
    f.fails = some .startDecompress

/-- The heap once the line buffer and, where there is none yet, the output block are
allocated.  The line buffer is the block `s.issued`. -/
def Frame.withBuffers (f : Frame) (s : Heap) : Heap :=
  match s.aucPixelDatas, f.pixels with
  | none, true =>
      { s with issued := s.issued + 2, aucPixelDatas := some (s.issued + 1) }
  | _, _ => { s with issued := s.issued + 1 }

/-- `Mjpeg2RgbConvert`, as far as the heap is concerned. -/
def mjpeg2RgbConvert (s : Heap) (f : Frame) : Except Fault (Int32 × Heap) :=
  if f.failsEarly then .ok (jpegError s none)
  else if f.lineBuffer = false then .ok (-1, s)
  else
    let aucLineBuffer := s.issued
    match readLines f aucLineBuffer f.height.toNat 0 (f.withBuffers s) with
    | .error e => .error e
    | .ok (false, s) => .ok (jpegError s (f.afterJump aucLineBuffer))
    | .ok (true, s) =>
        let s := s.free (some aucLineBuffer)
        if f.fails = some .finishDecompress ∨ f.fails = some .destroyDecompress then
          .ok (jpegError s (f.afterJump aucLineBuffer))
        else .ok (0, s)

/-- `Mjpeg2RgbConvertExit`. -/
def mjpeg2RgbConvertExit (s : Heap) : Heap :=
  { s.free s.aucPixelDatas with aucPixelDatas := none }

/-- The data pointer is `NULL`, or it leads to a block that is in use. -/
def Heap.PointerOk (s : Heap) : Prop :=
  ∀ b, s.aucPixelDatas = some b → b < s.issued ∧ b ∉ s.freed

/-- The pointer is good after every call; no block is written after it was freed; and
once `Mjpeg2RgbConvertExit` was called, every block has been freed once. -/
def Clean (s : Heap) (es : List (Entry Frame Int32 Heap)) : Prop :=
  (∀ xs ys, es = xs ++ ys → (lastState s xs).PointerOk) ∧
  (lastState s es).lateWrites = [] ∧
  ∀ b < (lastState s es).issued,
    (mjpeg2RgbConvertExit (lastState s es)).freed.count b = 1

/-- How a call ends, unless by a store through `NULL`. -/
inductive Ending
  | early
  | noLineBuffer
  | scanline
  | closing
  | done
deriving DecidableEq, Repr

def Frame.ending (f : Frame) : Ending :=
  if f.failsEarly then .early
  else if f.lineBuffer = false then .noLineBuffer
  else match f.fails with
    | some (.readScanlines k) => if k < f.height.toNat then .scanline else .done
    | some .finishDecompress => .closing
    | some .destroyDecompress => .closing
    | _ => .done

/-- The calls that do no harm.  An error must find no output block; and if the line
buffer is allocated by then, it must be known to the error branch exactly as long as it
is not freed. -/
def Harmless (s : Heap) (f : Frame) : Prop :=
  match f.ending with
  | .early => s.aucPixelDatas = none
  | .noLineBuffer => True
  | .scanline => s.aucPixelDatas = none ∧ f.pixels = false ∧ f.lineKept = true
  | .closing => s.aucPixelDatas = none ∧ f.pixels = false ∧ f.lineKept = false
  | .done => True

instance (s : Heap) (f : Frame) : Decidable (Harmless s f) :=
  match h : f.ending with
  | .early => decidable_of_iff (s.aucPixelDatas = none) (by simp [Harmless, h])
  | .noLineBuffer => .isTrue (by simp [Harmless, h])
  | .scanline =>
      decidable_of_iff (s.aucPixelDatas = none ∧ f.pixels = false ∧ f.lineKept = true)
        (by simp [Harmless, h])
  | .closing =>
      decidable_of_iff (s.aucPixelDatas = none ∧ f.pixels = false ∧ f.lineKept = false)
        (by simp [Harmless, h])
  | .done => .isTrue (by simp [Harmless, h])

/-- A write is late if its block has been freed. -/
theorem Heap.write_eq (s : Heap) (b : Nat) :
    s.write b =
      { s with lateWrites := s.lateWrites ++ if b ∈ s.freed then [b] else [] } := by
  unfold Heap.write
  split
  · rfl
  · rw [List.append_nil]

/-- **The loop over the lines** changes nothing but the record of late writes, and that
only if one of its two blocks is freed. -/
theorem readLines_spec {f : Frame} {line left k : Nat} {s t : Heap} {whole : Bool}
    (h : readLines f line left k s = .ok (whole, t)) :
    (∃ late, t = { s with lateWrites := s.lateWrites ++ late } ∧
      (line ∉ s.freed → s.PointerOk → late = [])) ∧
    (whole = false ↔ ∃ j, k ≤ j ∧ j < k + left ∧ f.fails = some (.readScanlines j)) := by
  induction left generalizing k s with
  | zero =>
      cases h
      refine ⟨⟨[], by simp, fun _ _ => rfl⟩, ?_⟩
      constructor
      · intro hfalse
        cases hfalse
      · rintro ⟨j, hle, hlt, -⟩
        omega
  | succ left ih =>
      have hshift : f.fails ≠ some (.readScanlines k) →
          ((∃ j, k + 1 ≤ j ∧ j < k + 1 + left ∧ f.fails = some (.readScanlines j)) ↔
            ∃ j, k ≤ j ∧ j < k + (left + 1) ∧ f.fails = some (.readScanlines j)) := by
        intro hnot
        constructor
        · rintro ⟨j, hle, hlt, hj⟩
          exact ⟨j, by omega, by omega, hj⟩
        · rintro ⟨j, hle, hlt, hj⟩
          have hne : j ≠ k := by
            rintro rfl
            exact hnot hj
          exact ⟨j, by omega, by omega, hj⟩
      rw [readLines] at h
      split at h
      · rename_i hfails
        cases h
        refine ⟨⟨[], by simp, fun _ _ => rfl⟩, ?_⟩
        exact iff_of_true rfl ⟨k, by omega, by omega, hfails⟩
      · rename_i hnot
        rw [Heap.write_eq] at h
        simp only at h
        split at h
        · cases hptr : s.aucPixelDatas with
          | none =>
              rw [hptr] at h
              cases h
          | some b =>
              rw [hptr] at h
              simp only [Heap.write_eq] at h
              obtain ⟨⟨late, ht, hlate⟩, hwhole⟩ := ih h
              refine ⟨⟨_, by rw [ht]; simp only [List.append_assoc]; rfl, ?_⟩,
                hwhole.trans (hshift hnot)⟩
              intro hline hgood
              have hb := (hgood b hptr).2
              have hsame := hlate hline fun c hc => hgood c (hptr.trans hc)
              rw [if_neg hline, if_neg hb, hsame]
              rfl
        · obtain ⟨⟨late, ht, hlate⟩, hwhole⟩ := ih h
          refine ⟨⟨_, by rw [ht]; simp only [List.append_assoc]; rfl, ?_⟩,
            hwhole.trans (hshift hnot)⟩
          intro hline hgood
          rw [if_neg hline, hlate hline hgood]
          rfl

/-- Allocating the buffers frees nothing. -/
@[simp] theorem Frame.withBuffers_freed (f : Frame) (s : Heap) :
    (f.withBuffers s).freed = s.freed := by
  unfold Frame.withBuffers
  split <;> rfl

/-- It writes nothing either. -/
@[simp] theorem Frame.withBuffers_lateWrites (f : Frame) (s : Heap) :
    (f.withBuffers s).lateWrites = s.lateWrites := by
  unfold Frame.withBuffers
  split <;> rfl

namespace Frame

variable {f : Frame} (hlate : ¬ f.failsEarly = true) (hline : ¬ f.lineBuffer = false)

include hlate hline

/-- An error in one of the lines ends the conversion there. -/
theorem ending_of_scanline {j : Nat} (hfails : f.fails = some (.readScanlines j))
    (hj : j < f.height.toNat) : f.ending = .scanline := by
  rw [ending, if_neg hlate, if_neg hline, hfails]
  exact if_pos hj

/-- An error behind the lines ends it on closing. -/
theorem ending_of_closing
    (hfails : f.fails = some .finishDecompress ∨ f.fails = some .destroyDecompress) :
    f.ending = .closing := by
  rw [ending, if_neg hlate, if_neg hline]
  rcases hfails with hfails | hfails <;> rw [hfails]

/-- Without an error it comes to its end. -/
theorem ending_of_done (hlines : ∀ j < f.height.toNat, f.fails ≠ some (.readScanlines j))
    (hopen : ¬ (f.fails = some .finishDecompress ∨ f.fails = some .destroyDecompress)) :
    f.ending = .done := by
  rw [ending, if_neg hlate, if_neg hline]
  split
  · rename_i k hfails
    exact if_neg fun hk => hlines k hk hfails
  · rename_i hfails
    exact absurd (Or.inl hfails) hopen
  · rename_i hfails
    exact absurd (Or.inr hfails) hopen
  · rfl

end Frame

/-- What a call leaves, by how it ends. -/
def Frame.leaves (f : Frame) (s : Heap) (late : List Nat) : Int32 × Heap :=
  let buffers := { f.withBuffers s with lateWrites := s.lateWrites ++ late }
  match f.ending with
  | .early => jpegError s none
  | .noLineBuffer => (-1, s)
  | .scanline => jpegError buffers (f.afterJump s.issued)
  | .closing => jpegError (buffers.free (some s.issued)) (f.afterJump s.issued)
  | .done => (0, buffers.free (some s.issued))

/-- **The endings of a call.** -/
theorem convert_cases {s t : Heap} {f : Frame} {r : Int32}
    (h : mjpeg2RgbConvert s f = .ok (r, t)) :
    ∃ late, (r, t) = f.leaves s late ∧
      (s.issued ∉ s.freed → (f.withBuffers s).PointerOk → late = []) := by
  unfold mjpeg2RgbConvert at h
  split at h
  · rename_i hearly
    cases h
    exact ⟨[], by simp [Frame.leaves, Frame.ending, hearly, jpegError], fun _ _ => rfl⟩
  · rename_i hnot
    split at h
    · rename_i hnone
      cases h
      exact ⟨[], by simp [Frame.leaves, Frame.ending, hnot, hnone], fun _ _ => rfl⟩
    · rename_i hline
      simp only at h
      rcases hread : readLines f s.issued f.height.toNat 0 (f.withBuffers s) with _ | ⟨whole, u⟩
      · rw [hread] at h
        cases h
      · obtain ⟨⟨late, hu, hlate⟩, hwhole⟩ := readLines_spec hread
        rw [f.withBuffers_freed s] at hlate
        rw [f.withBuffers_lateWrites s] at hu
        rw [hread] at h
        refine ⟨late, ?_, hlate⟩
        rw [Frame.leaves]
        cases whole with
        | false =>
            obtain ⟨j, -, hj, hfails⟩ := hwhole.mp rfl
            rw [Frame.ending_of_scanline hnot hline hfails (by omega), ← hu]
            exact (Except.ok.inj h).symm
        | true =>
            have hnotLine : ∀ j < f.height.toNat, f.fails ≠ some (.readScanlines j) := by
              intro j hj hfails
              have := hwhole.mpr ⟨j, by omega, by omega, hfails⟩
              cases this
            simp only at h
            split at h
            · rename_i hclosing
              rw [Frame.ending_of_closing hnot hline hclosing, ← hu]
              exact (Except.ok.inj h).symm
            · rename_i hopen
              rw [Frame.ending_of_done hnot hline hnotLine hopen, ← hu]
              exact (Except.ok.inj h).symm

/-- The output block, if there is one, is in use, every other block has been freed once, and
nothing was written too late. -/
structure Settled (s : Heap) : Prop where
  pointer : s.PointerOk
  late : s.lateWrites = []
  once : ∀ b < s.issued, s.aucPixelDatas ≠ some b → s.freed.count b = 1

/-- Moreover only blocks that were issued have been freed. -/
structure Tidy (s : Heap) : Prop extends Settled s where
  known : ∀ b ∈ s.freed, b < s.issued

/-- An empty heap is tidy. -/
theorem tidy_start : Tidy {} := by
  refine ⟨⟨fun b hb => ?_, rfl, fun b hb => ?_⟩, fun b hb => ?_⟩
  · cases hb
  · cases hb
  · cases hb

/-- The three ways the buffers are allocated. -/
theorem withBuffers_cases (f : Frame) (s : Heap) :
    (∃ b, s.aucPixelDatas = some b ∧ f.withBuffers s = { s with issued := s.issued + 1 }) ∨
    (s.aucPixelDatas = none ∧ f.pixels = true ∧ f.withBuffers s =
      { s with issued := s.issued + 2, aucPixelDatas := some (s.issued + 1) }) ∨
    (s.aucPixelDatas = none ∧ f.pixels = false ∧
      f.withBuffers s = { s with issued := s.issued + 1 }) := by
  unfold Frame.withBuffers
  cases hptr : s.aucPixelDatas with
  | some b => exact Or.inl ⟨b, rfl, rfl⟩
  | none =>
      cases hpixels : f.pixels with
      | true => exact Or.inr (Or.inl ⟨rfl, rfl, rfl⟩)
      | false => exact Or.inr (Or.inr ⟨rfl, rfl, rfl⟩)

/-- Without an output block, and without memory for one, there is the line buffer alone. -/
theorem withBuffers_line {f : Frame} {s : Heap} (hptr : s.aucPixelDatas = none)
    (hpixels : f.pixels = false) : f.withBuffers s = { s with issued := s.issued + 1 } := by
  unfold Frame.withBuffers
  rw [hptr, hpixels]

/-- If there is no output block in the end, there was none and no memory for one. -/
theorem withBuffers_none {f : Frame} {s : Heap} (h : (f.withBuffers s).aucPixelDatas = none) :
    s.aucPixelDatas = none ∧ f.pixels = false := by
  rcases withBuffers_cases f s with ⟨b, hb, hbuf⟩ | ⟨-, -, hbuf⟩ | ⟨hptr, hpixels, -⟩
  · rw [hbuf] at h
    exact absurd (hb.symm.trans h) (by simp)
  · rw [hbuf] at h
    exact absurd h (by simp)
  · exact ⟨hptr, hpixels⟩

/-- An error frees the output block that it finds. -/
theorem error_frees {u : Heap} {b : Nat} (hb : u.aucPixelDatas = some b) (line : Option Nat) :
    b ∈ (jpegError u line).2.freed := by
  simp [jpegError, Heap.free, hb]

/-- The pointer still leads to it then, so a pointer that is good afterwards was `NULL`. -/
theorem none_of_error {u : Heap} {line : Option Nat} (hgood : (jpegError u line).2.PointerOk) :
    u.aucPixelDatas = none := by
  cases hb : u.aucPixelDatas with
  | none => rfl
  | some b =>
      have hptr : (jpegError u line).2.aucPixelDatas = some b := hb
      exact absurd (error_frees hb line) (hgood b hptr).2

namespace Tidy

variable {s : Heap} (hs : Tidy s)

include hs

/-- The next block has never been freed. -/
theorem fresh {b : Nat} (hb : s.issued ≤ b) : b ∉ s.freed := by
  intro hmem
  have hlt := hs.known b hmem
  omega

/-- After the allocation the pointer leads to a block. -/
theorem withBuffers_pointerOk (f : Frame) : (f.withBuffers s).PointerOk := by
  rcases withBuffers_cases f s with ⟨b, hptr, hbuf⟩ | ⟨hptr, -, hbuf⟩ | ⟨hptr, -, hbuf⟩
  · intro c hc
    rw [hbuf] at hc ⊢
    obtain ⟨hlt, hfreed⟩ := hs.pointer c hc
    exact ⟨by simp only; omega, hfreed⟩
  · intro c hc
    rw [hbuf] at hc ⊢
    cases hc
    exact ⟨by simp only; omega, hs.fresh (by omega)⟩
  · intro c hc
    rw [hbuf] at hc
    exact absurd (hptr.symm.trans hc) (by simp)

/-- A call in a tidy heap writes nothing too late. -/
theorem leaves {t : Heap} {f : Frame} {r : Int32} (h : mjpeg2RgbConvert s f = .ok (r, t)) :
    t = (f.leaves s []).2 := by
  obtain ⟨late, hleaves, hlate⟩ := convert_cases h
  rw [hlate (hs.fresh le_rfl) (hs.withBuffers_pointerOk f)] at hleaves
  exact congrArg Prod.snd hleaves

/-- The line buffer is issued and freed, and the output block stays or is issued. -/
theorem lineBuffer_freed {n : Nat} {p : Option Nat}
    (hp : (n = s.issued + 1 ∧ p = s.aucPixelDatas) ∨
      (n = s.issued + 2 ∧ p = some (s.issued + 1) ∧ s.aucPixelDatas = none)) :
    Tidy { issued := n, freed := s.freed ++ [s.issued], lateWrites := [], aucPixelDatas := p } := by
  have hcount : s.freed.count s.issued = 0 := List.count_eq_zero.mpr (hs.fresh le_rfl)
  refine ⟨⟨?_, rfl, ?_⟩, ?_⟩
  · intro b hb
    simp only [List.mem_append, List.mem_singleton, not_or]
    rcases hp with ⟨rfl, rfl⟩ | ⟨rfl, rfl, -⟩
    · obtain ⟨hlt, hfreed⟩ := hs.pointer b hb
      exact ⟨by omega, hfreed, by omega⟩
    · cases hb
      exact ⟨by omega, hs.fresh (by omega), by omega⟩
  · intro b hb hne
    simp only [List.count_append] at hb hne ⊢
    by_cases hline : b = s.issued
    · subst hline
      rw [hcount]
      simp
    · have hzero : [s.issued].count b = 0 := by
        rw [List.count_eq_zero]
        simpa using hline
      rw [hzero, Nat.add_zero]
      rcases hp with ⟨rfl, rfl⟩ | ⟨rfl, rfl, hnone⟩
      · exact hs.once b (by omega) hne
      · have hother : b ≠ s.issued + 1 := fun h => hne (by rw [h])
        exact hs.once b (by omega) (by rw [hnone]; simp)
  · intro b hb
    simp only [List.mem_append, List.mem_singleton] at hb ⊢
    rcases hb with hb | rfl
    · have hlt := hs.known b hb
      omega
    · omega

/-- **One call keeps the heap tidy** if it is harmless. -/
theorem keep {t : Heap} {f : Frame} {r : Int32} (hharm : Harmless s f)
    (h : mjpeg2RgbConvert s f = .ok (r, t)) : Tidy t := by
  have ht := hs.leaves h
  have hlate := hs.late
  unfold Harmless at hharm
  unfold Frame.leaves at ht
  cases hend : f.ending with
  | early =>
      simp only [hend] at hharm ht
      have hsame : (jpegError s none).2 = s := by
        simp only [jpegError, Heap.free, hharm, Option.toList_none, List.append_nil]
        rw [← hharm]
      rw [ht, hsame]
      exact hs
  | noLineBuffer =>
      simp only [hend] at ht
      rw [ht]
      exact hs
  | scanline =>
      simp only [hend] at hharm ht
      obtain ⟨hptr, hpixels, hkept⟩ := hharm
      simp only [withBuffers_line hptr hpixels, jpegError, Heap.free, Frame.afterJump, hkept, hptr,
        hlate, if_true, Option.toList_none, Option.toList_some, List.append_nil] at ht
      rw [ht]
      exact hs.lineBuffer_freed (Or.inl ⟨rfl, hptr.symm⟩)
  | closing =>
      simp only [hend] at hharm ht
      obtain ⟨hptr, hpixels, hkept⟩ := hharm
      simp only [withBuffers_line hptr hpixels, jpegError, Heap.free, Frame.afterJump, hkept, hptr,
        hlate, Bool.false_eq_true, if_false, Option.toList_none, Option.toList_some,
        List.append_nil] at ht
      rw [ht]
      exact hs.lineBuffer_freed (Or.inl ⟨rfl, hptr.symm⟩)
  | done =>
      simp only [hend] at ht
      rcases withBuffers_cases f s with ⟨b, -, hbuf⟩ | ⟨hptr, -, hbuf⟩ | ⟨-, -, hbuf⟩
      · simp only [hbuf, Heap.free, hlate, Option.toList_some, List.append_nil] at ht
        rw [ht]
        exact hs.lineBuffer_freed (Or.inl ⟨rfl, rfl⟩)
      · simp only [hbuf, Heap.free, hlate, Option.toList_some, List.append_nil] at ht
        rw [ht]
        exact hs.lineBuffer_freed (Or.inr ⟨rfl, rfl, hptr⟩)
      · simp only [hbuf, Heap.free, hlate, Option.toList_some, List.append_nil] at ht
        rw [ht]
        exact hs.lineBuffer_freed (Or.inl ⟨rfl, rfl⟩)

/-- An error behind the allocations that leaves the heap settled has found no output block, and
the line buffer is freed once, before it or by it. -/
theorem error_needs {f : Frame} {writes : List Nat} {before : Option Nat}
    (hsettled : Settled (jpegError ({ f.withBuffers s with lateWrites := writes }.free before)
      (f.afterJump s.issued)).2) :
    s.aucPixelDatas = none ∧ f.pixels = false ∧
      (before.toList ++ (f.afterJump s.issued).toList).count s.issued = 1 := by
  have hcount : s.freed.count s.issued = 0 := List.count_eq_zero.mpr (hs.fresh le_rfl)
  have hnone := none_of_error hsettled.pointer
  obtain ⟨hptr, hpixels⟩ : s.aucPixelDatas = none ∧ f.pixels = false := withBuffers_none hnone
  refine ⟨hptr, hpixels, ?_⟩
  rw [withBuffers_line hptr hpixels] at hsettled
  have honce := hsettled.once s.issued (by simp [jpegError, Heap.free])
    (by simp [jpegError, Heap.free, hptr])
  simp only [jpegError, Heap.free, hptr, Option.toList_none, List.append_nil,
    List.append_assoc] at honce
  rwa [List.count_append, hcount, Nat.zero_add] at honce

/-- **A call that leaves the heap settled was harmless.** -/
theorem needs {t : Heap} {f : Frame} {r : Int32} (h : mjpeg2RgbConvert s f = .ok (r, t))
    (hsettled : Settled t) : Harmless s f := by
  have ht := hs.leaves h
  unfold Harmless
  unfold Frame.leaves at ht
  cases hend : f.ending with
  | early =>
      simp only [hend] at ht ⊢
      rw [ht] at hsettled
      exact none_of_error hsettled.pointer
  | noLineBuffer => trivial
  | scanline =>
      simp only [hend] at ht ⊢
      have hfree := Heap.free_none { f.withBuffers s with lateWrites := s.lateWrites ++ [] }
      rw [ht, ← hfree] at hsettled
      obtain ⟨hptr, hpixels, honce⟩ := hs.error_needs hsettled
      refine ⟨hptr, hpixels, ?_⟩
      by_contra hkept
      simp [Frame.afterJump, hkept] at honce
  | closing =>
      simp only [hend] at ht ⊢
      rw [ht] at hsettled
      obtain ⟨hptr, hpixels, honce⟩ := hs.error_needs hsettled
      refine ⟨hptr, hpixels, ?_⟩
      by_contra hkept
      have hyes : f.lineKept = true := by simpa using hkept
      simp [Frame.afterJump, hyes] at honce
  | done => trivial

end Tidy

/-- A block that the pointer does not lead to, and how often it has been freed. -/
structure Stray (b n : Nat) (s : Heap) : Prop where
  issued : b < s.issued
  other : s.aucPixelDatas ≠ some b
  freed : s.freed.count b = n

namespace Stray

variable {b n : Nat} {s : Heap}

/-- Another block's end does not help a stray one. -/
theorem free (h : Stray b n s) {p : Option Nat} (hp : p ≠ some b) : Stray b n (s.free p) := by
  refine ⟨h.issued, h.other, ?_⟩
  have hzero : p.toList.count b = 0 := by
    rw [List.count_eq_zero, Option.mem_toList]
    exact hp
  simp only [Heap.free, List.count_append, h.freed, hzero, Nat.add_zero]

/-- Nor does the error branch, if its line buffer is another block. -/
theorem jpegError (h : Stray b n s) {line : Option Nat} (hline : line ≠ some b) :
    Stray b n (jpegError s line).2 :=
  (h.free hline).free h.other

/-- Allocating the buffers leaves it alone. -/
theorem withBuffers (h : Stray b n s) (f : Frame) (late : List Nat) :
    Stray b n { f.withBuffers s with lateWrites := late } := by
  have hlt := h.issued
  rcases withBuffers_cases f s with ⟨c, -, hbuf⟩ | ⟨-, -, hbuf⟩ | ⟨-, -, hbuf⟩
  · rw [hbuf]
    exact ⟨by simp only; omega, h.other, h.freed⟩
  · rw [hbuf]
    refine ⟨by simp only; omega, ?_, h.freed⟩
    simp only [ne_eq, Option.some.injEq]
    omega
  · rw [hbuf]
    exact ⟨by simp only; omega, h.other, h.freed⟩

/-- **No call finds a stray block again**: it is never freed once more. -/
theorem step (h : Stray b n s) {t : Heap} {f : Frame} {r : Int32}
    (hstep : mjpeg2RgbConvert s f = .ok (r, t)) : Stray b n t := by
  obtain ⟨late, hleaves, -⟩ := convert_cases hstep
  have ht : t = (f.leaves s late).2 := congrArg Prod.snd hleaves
  have hlt := h.issued
  have hline : some s.issued ≠ some b := by
    simp only [ne_eq, Option.some.injEq]
    omega
  have hjump : f.afterJump s.issued ≠ some b := by
    unfold Frame.afterJump
    split
    · exact hline
    · simp
  have hbuf := h.withBuffers f (s.lateWrites ++ late)
  rw [ht, Frame.leaves]
  cases f.ending with
  | early => exact h.jpegError (by simp)
  | noLineBuffer => exact h
  | scanline => exact hbuf.jpegError hjump
  | closing => exact (hbuf.free hline).jpegError hjump
  | done => exact hbuf.free hline

end Stray

/-- A late write is not forgotten. -/
theorem lateWrites_step {s t : Heap} {f : Frame} {r : Int32} (hlate : s.lateWrites ≠ [])
    (hstep : mjpeg2RgbConvert s f = .ok (r, t)) : t.lateWrites ≠ [] := by
  obtain ⟨late, hleaves, -⟩ := convert_cases hstep
  have ht : t = (f.leaves s late).2 := congrArg Prod.snd hleaves
  have hmore : s.lateWrites ++ late ≠ [] := List.append_ne_nil_of_left_ne_nil hlate late
  rw [ht, Frame.leaves]
  cases f.ending with
  | early => exact hlate
  | noLineBuffer => exact hlate
  | scanline => exact hmore
  | closing => exact hmore
  | done => exact hmore

/-- `Mjpeg2RgbConvertExit` frees the output block and nothing else. -/
theorem exit_count (s : Heap) (b : Nat) :
    (mjpeg2RgbConvertExit s).freed.count b =
      s.freed.count b + if s.aucPixelDatas = some b then 1 else 0 := by
  simp only [mjpeg2RgbConvertExit, Heap.free, List.count_append]
  cases s.aucPixelDatas with
  | none => simp
  | some c =>
      by_cases hc : c = b
      · simp [hc]
      · simp [hc]

/-- From a settled heap, `Mjpeg2RgbConvertExit` leaves every block freed once. -/
theorem Settled.exit_once {s : Heap} (hs : Settled s) {b : Nat} (hb : b < s.issued) :
    (mjpeg2RgbConvertExit s).freed.count b = 1 := by
  rw [exit_count]
  by_cases hptr : s.aucPixelDatas = some b
  · rw [if_pos hptr, List.count_eq_zero.mpr (hs.pointer b hptr).2]
  · rw [if_neg hptr, hs.once b hb hptr]

/-- A run is clean exactly when the heap is settled after every call: what is wrong by
then stays wrong. -/
theorem clean_iff_settled {s : Heap} {es : List (Entry Frame Int32 Heap)}
    (hrun : IsRun mjpeg2RgbConvert s es) :
    Clean s es ↔ ∀ xs ys, es = xs ++ ys → Settled (lastState s xs) := by
  constructor
  · rintro ⟨hpointer, hlate, honce⟩ xs ys rfl
    have hrest := (isRun_append.mp hrun).2
    rw [lastState_append] at hlate honce
    refine ⟨hpointer xs ys rfl, ?_, ?_⟩
    · by_contra hnow
      exact hrest.keeps (P := fun u => u.lateWrites ≠ [])
        (fun _ _ _ _ hu hstep => lateWrites_step hu hstep) hnow hlate
    · intro b hb hother
      have hend := hrest.keeps (P := Stray b _)
        (fun _ _ _ _ hu hstep => hu.step hstep) ⟨hb, hother, rfl⟩
      have hexit := honce b hend.issued
      rwa [exit_count, if_neg hend.other, hend.freed, Nat.add_zero] at hexit
  · intro hsettled
    have hend := hsettled es [] (List.append_nil es).symm
    exact ⟨fun xs ys hsplit => (hsettled xs ys hsplit).pointer, hend.late,
      fun b hb => hend.exit_once hb⟩

/-- **Clean runs.**  A sequence of calls on a fresh output, followed by
`Mjpeg2RgbConvertExit`, is clean exactly when each of them is harmless. -/
theorem jpeg_runs_clean_iff {es : List (Entry Frame Int32 Heap)}
    (hrun : IsRun mjpeg2RgbConvert {} es) : Clean {} es ↔ Along Harmless {} es := by
  rw [clean_iff_settled hrun]
  exact hrun.holds_iff_along (H := fun _ _ => True)
    (fun _ _ _ _ hs _ hharm hstep => hs.keep hharm hstep) (fun _ hs => hs.toSettled)
    (fun _ _ _ _ hs hstep ht => hs.needs hstep ht)
    (along_of_forall (A := fun _ => True) fun _ _ => trivial) tidy_start

/-- A frame of two lines that is decoded. -/
def goodFrame : Frame := { fails := none, height := 2 }

/-- A frame with a header that `libjpeg` rejects. -/
def brokenFrame : Frame := { fails := some .readHeader, height := 2 }

/-- A broken frame in front of good ones does no harm. -/
theorem broken_frame_first :
    Clean {} (exec mjpeg2RgbConvert {} [brokenFrame, goodFrame, goodFrame]) :=
  (jpeg_runs_clean_iff (isRun_exec _ _)).mpr (by decide)

/-- A broken frame behind a good one leaves a pointer to a freed block; the next good one
writes into it, and at the end it has been freed twice. -/
theorem broken_frame_later :
    lastState {} (exec mjpeg2RgbConvert {} [goodFrame, brokenFrame, goodFrame]) =
        { issued := 3, freed := [0, 1, 2], lateWrites := [1, 1], aucPixelDatas := some 1 } ∧
      (mjpeg2RgbConvertExit
        (lastState {} (exec mjpeg2RgbConvert {} [goodFrame, brokenFrame, goodFrame]))).freed =
        [0, 1, 2, 1] ∧
      ¬ Clean {} (exec mjpeg2RgbConvert {} [goodFrame, brokenFrame, goodFrame]) := by
  refine ⟨by decide, by decide, ?_⟩
  rintro ⟨-, hlate, -⟩
  exact absurd hlate (by decide)

/-! ## The converter with its data

`Convert.lean` models the same function with the picture it makes and with a single
pointer.  The two agree on the return value and on where the pointer leads. -/

/-- The pointers lead to the same: nowhere, to a block in use, or to a freed one. -/
def Agrees (s : Heap) (out : VideoBuf Data) : Prop :=
  match out.tPixelDatas.aucPixelDatas with
  | .null => s.aucPixelDatas = none
  | .block _ => ∃ b, s.aucPixelDatas = some b ∧ b ∉ s.freed
  | .freed => ∃ b, s.aucPixelDatas = some b ∧ b ∈ s.freed

/-- The line at which `libjpeg` gives up; behind the last one for the closing calls. -/
def Frame.failsAt (f : Frame) : Option Nat :=
  match f.ending, f.fails with
  | .scanline, some (.readScanlines k) => some k
  | .closing, _ => some f.height.toNat
  | _, _ => none

/-- How a call ends that has its line buffer. -/
theorem Frame.ending_cases {f : Frame} (hearly : ¬ f.failsEarly = true)
    (hline : ¬ f.lineBuffer = false) :
    (f.ending = .scanline ∧ f.failsAt.isSome = true) ∨
    (f.ending = .closing ∧ f.failsAt.isSome = true) ∨
    (f.ending = .done ∧ ¬ f.failsAt.isSome = true) := by
  by_cases hscan : ∃ k < f.height.toNat, f.fails = some (.readScanlines k)
  · obtain ⟨k, hk, hfails⟩ := hscan
    have hend := ending_of_scanline hearly hline hfails hk
    exact Or.inl ⟨hend, by simp [failsAt, hend, hfails]⟩
  · by_cases hclosing : f.fails = some .finishDecompress ∨ f.fails = some .destroyDecompress
    · have hend := ending_of_closing hearly hline hclosing
      exact Or.inr (Or.inl ⟨hend, by simp [failsAt, hend]⟩)
    · have hend := ending_of_done hearly hline
        (fun j hj hfails => hscan ⟨j, hj, hfails⟩) hclosing
      exact Or.inr (Or.inr ⟨hend, by simp [failsAt, hend]⟩)

/-- What `libjpeg` makes of a frame. -/
def Frame.decoding (f : Frame) (width : UInt16) (components : Nat)
    (row : Nat → Nat → UInt8) : Decoding :=
  if f.failsEarly then .broken else .picture width f.height components row f.failsAt

/-- Every pointer leads to a block that was issued. -/
structure Known (s : Heap) : Prop where
  pointer : ∀ b, s.aucPixelDatas = some b → b < s.issued
  freed : ∀ b ∈ s.freed, b < s.issued

/-- Where the data pointer of an output leads once it has its size and its data. -/
theorem fill_data (out : VideoBuf Data) (iWidth iHeight iBpp : Int32) (malloc : Malloc)
    (pieces : List (Nat × List UInt8)) :
    (out.fill iWidth iHeight iBpp malloc pieces).out.tPixelDatas.aucPixelDatas =
      (match out.tPixelDatas.aucPixelDatas with
        | .null => mallocData malloc (iWidth * iBpp / 8 * iHeight)
        | p => p).store pieces := by
  cases hdata : out.tPixelDatas.aucPixelDatas <;>
    simp [VideoBuf.fill, PixelDatas.allocated, PixelDatas.sized, PixelDatas.stored, hdata]

/-- Allocating the buffers. -/
theorem agrees_fill {s : Heap} {out : VideoBuf Data} (hagree : Agrees s out) (hknown : Known s)
    {f : Frame} {iWidth iHeight iBpp : Int32} {malloc : Malloc}
    (hpixels : f.pixels = (malloc (iWidth * iBpp / 8 * iHeight).toUInt32.toNat).isSome)
    (pieces : List (Nat × List UInt8)) (late : List Nat) :
    Agrees { f.withBuffers s with lateWrites := late }
      (out.fill iWidth iHeight iBpp malloc pieces).out := by
  have hold : ∀ b, s.aucPixelDatas = some b →
      f.withBuffers s = { s with issued := s.issued + 1 } := by
    intro b hb
    rcases withBuffers_cases f s with ⟨-, -, hbuf⟩ | ⟨hnone, -, -⟩ | ⟨hnone, -, -⟩
    · exact hbuf
    · exact absurd (hnone.symm.trans hb) (by simp)
    · exact absurd (hnone.symm.trans hb) (by simp)
  unfold Agrees at hagree ⊢
  rw [fill_data]
  cases hdata : out.tPixelDatas.aucPixelDatas with
  | null =>
      rw [hdata] at hagree
      rcases withBuffers_cases f s with ⟨b, hb, -⟩ | ⟨-, hyes, hbuf⟩ | ⟨-, hno, hbuf⟩
      · exact absurd (hagree.symm.trans hb) (by simp)
      · obtain ⟨bytes, hbytes⟩ := Option.isSome_iff_exists.mp (hpixels.symm.trans hyes)
        simp only [mallocData, hbytes, Data.store, hbuf]
        refine ⟨s.issued + 1, rfl, fun hmem => ?_⟩
        have hlt := hknown.freed _ hmem
        omega
      · have hnone : malloc (iWidth * iBpp / 8 * iHeight).toUInt32.toNat = none := by
          rw [hno] at hpixels
          simpa using hpixels.symm
        simp only [mallocData, hnone, Data.store, hbuf]
        exact hagree
  | block b =>
      rw [hdata] at hagree
      obtain ⟨c, hc, hfree⟩ := hagree
      simp only [Data.store, hold c hc]
      exact ⟨c, hc, hfree⟩
  | freed =>
      rw [hdata] at hagree
      obtain ⟨c, hc, hfreed⟩ := hagree
      simp only [Data.store, hold c hc]
      exact ⟨c, hc, hfreed⟩

/-- Freeing the line buffer. -/
theorem agrees_free {s : Heap} {out : VideoBuf Data} (hagree : Agrees s out) {line : Nat}
    (hline : s.aucPixelDatas ≠ some line) : Agrees (s.free (some line)) out := by
  have hmem : ∀ b, s.aucPixelDatas = some b → (b ∈ (s.free (some line)).freed ↔ b ∈ s.freed) := by
    intro b hb
    have hne : b ≠ line := by
      rintro rfl
      exact hline hb
    simp [Heap.free, hne]
  unfold Agrees at hagree ⊢
  cases hdata : out.tPixelDatas.aucPixelDatas with
  | null =>
      rw [hdata] at hagree
      exact hagree
  | block b =>
      rw [hdata] at hagree
      obtain ⟨c, hc, hfree⟩ := hagree
      exact ⟨c, hc, fun h => hfree ((hmem c hc).mp h)⟩
  | freed =>
      rw [hdata] at hagree
      obtain ⟨c, hc, hfreed⟩ := hagree
      exact ⟨c, hc, (hmem c hc).mpr hfreed⟩

/-- The error branch. -/
theorem agrees_error {s : Heap} {out : VideoBuf Data} (hagree : Agrees s out)
    (line : Option Nat) : Agrees (jpegError s line).2 out.abandoned := by
  unfold Agrees at hagree ⊢
  cases hdata : out.tPixelDatas.aucPixelDatas with
  | null =>
      rw [hdata] at hagree
      simp only [VideoBuf.abandoned, hdata]
      exact hagree
  | block b =>
      rw [hdata] at hagree
      obtain ⟨c, hc, -⟩ := hagree
      simp only [VideoBuf.abandoned, hdata]
      exact ⟨c, hc, error_frees hc line⟩
  | freed =>
      rw [hdata] at hagree
      obtain ⟨c, hc, -⟩ := hagree
      simp only [VideoBuf.abandoned, hdata]
      exact ⟨c, hc, error_frees hc line⟩

/-- The pointer never leads to the line buffer. -/
theorem Known.withBuffers_ne {s : Heap} (hknown : Known s) (f : Frame) :
    (f.withBuffers s).aucPixelDatas ≠ some s.issued := by
  rcases withBuffers_cases f s with ⟨b, hb, hbuf⟩ | ⟨-, -, hbuf⟩ | ⟨hnone, -, hbuf⟩
  · have hlt := hknown.pointer b hb
    rw [hbuf]
    simp only [hb, ne_eq, Option.some.injEq]
    omega
  · rw [hbuf]
    simp
  · rw [hbuf]
    simp [hnone]

/-- **Two models of one function.**  A call that does not store through `NULL` returns the
same in both, and the pointers keep agreeing. -/
theorem convert_agrees {s t : Heap} {f : Frame} {r : Int32} {out : VideoBuf Data}
    (hagree : Agrees s out) (hknown : Known s) {malloc : Malloc} (width : UInt16)
    (components : Nat) (row : Nat → Nat → UInt8)
    (hpixels : f.pixels = (malloc (width.toUInt32.toInt32 * out.tPixelDatas.iBpp / 8 *
      f.height.toUInt32.toInt32).toUInt32.toNat).isSome)
    (hstep : mjpeg2RgbConvert s f = .ok (r, t)) :
    let converted :=
      Video2lcd.mjpeg2RgbConvert malloc f.lineBuffer (f.decoding width components row) out
    converted.ret = r ∧ Agrees t converted.out := by
  obtain ⟨late, hleaves, -⟩ := convert_cases hstep
  have hr : r = (f.leaves s late).1 := congrArg Prod.fst hleaves
  have ht : t = (f.leaves s late).2 := congrArg Prod.snd hleaves
  intro converted
  by_cases hearly : f.failsEarly
  · have hend : f.ending = .early := by rw [Frame.ending, if_pos hearly]
    have hconverted : converted = ⟨-1, out.abandoned, none⟩ := by
      simp only [converted, Frame.decoding, if_pos hearly, Video2lcd.mjpeg2RgbConvert]
    rw [hr, ht, Frame.leaves, hend, hconverted]
    exact ⟨rfl, agrees_error hagree none⟩
  · by_cases hline : f.lineBuffer = false
    · have hend : f.ending = .noLineBuffer := by
        rw [Frame.ending, if_neg hearly, if_pos hline]
      have hconverted : converted = ⟨-1, out, none⟩ := by
        simp only [converted, Frame.decoding, if_neg hearly, Video2lcd.mjpeg2RgbConvert,
          if_pos hline]
      rw [hr, ht, Frame.leaves, hend, hconverted]
      exact ⟨rfl, hagree⟩
    · have hfill := fun pieces =>
        agrees_fill hagree hknown hpixels pieces (s.lateWrites ++ late)
      have hne := hknown.withBuffers_ne f
      have hconverted : ∃ pieces, converted =
          if f.failsAt.isSome then
            ⟨-1, (out.fill width.toUInt32.toInt32 f.height.toUInt32.toInt32
              out.tPixelDatas.iBpp malloc pieces).out.abandoned, some pieces⟩
          else out.fill width.toUInt32.toInt32 f.height.toUInt32.toInt32
            out.tPixelDatas.iBpp malloc pieces := by
        simp only [converted, Frame.decoding, if_neg hearly, Video2lcd.mjpeg2RgbConvert,
          if_neg hline]
        exact ⟨_, rfl⟩
      obtain ⟨pieces, hconverted⟩ := hconverted
      rw [hr, ht, Frame.leaves, hconverted]
      rcases Frame.ending_cases hearly hline with ⟨hend, hfails⟩ | ⟨hend, hfails⟩ | ⟨hend, hnot⟩
      · rw [hend, if_pos hfails]
        exact ⟨rfl, agrees_error (hfill pieces) _⟩
      · rw [hend, if_pos hfails]
        exact ⟨rfl, agrees_error (agrees_free (hfill pieces) hne) _⟩
      · rw [hend, if_neg hnot]
        exact ⟨rfl, agrees_free (hfill pieces) hne⟩

end Video2lcd.JpegErrors
