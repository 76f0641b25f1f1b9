import UsbCamera.Base.Blocks
import UsbCamera.Video2lcd.Bmp

/-!
# What is left of a picture file

The picture viewer in `1_th` gets its pictures through `GetPixelDatasFrmFile`: the file is
mapped, `GetParser` asks the BMP parser and then the JPG parser whether they know it, the parser
fills a `T_PixelDatas` whose data it allocates, and the file is unmapped.  `libjpeg` reports an
error by a `longjmp` to the `setjmp` of the function that called it.

Here the calls are followed through what they allocate: mappings, decoders of `libjpeg`, line
buffers and pixel data.  A file says what a call meets: where `libjpeg` fails, if it does, which
of the `malloc` calls succeed, and whether the local `aucLineBuffer` has kept its value behind a
`longjmp`.  `MapFile` and `UnMapFile` are not among the sources; of them it is only assumed that
unmapping undoes a mapping, and that a mapping that fails does nothing (`FileMapper`).

Whoever the caller is, no file stays mapped.  But `isJPGFormat` never destroys the decoder with
which it has read a header, and `GetPixelDatasFrmJPG` loses its decoder and its line buffer when
memory is short; `picture_files_accounted` counts them.  The pixel data are safe with a caller
who goes by the return values: who fills cleared records only, frees a record once if it was
filled with the result 0, and clears it before it is filled again.  Neither
`FreePixelDatasFrmFile` nor a failed call resets the pointer.
-/

namespace Video2lcd.PictureFiles

open Bmp

/-! ## The functions -/

/-- What has been mapped and what has been allocated, by number, and the data pointers of the
caller's records. -/
structure Viewer (Φ : Type) where
  files : Φ
  issued : Nat := 0
  decoders : Blocks Nat := {}
  lines : Blocks Nat := {}
  pixels : Blocks Nat := {}
  aucPixelDatas : Nat → Option Nat := fun _ => none

def JPEG_HEADER_OK : Int32 := 1

/-- How `libjpeg` answers `isJPGFormat`. -/
inductive Header
  -- `jpeg_create_decompress` ends in a `longjmp`
  | createFails
  -- `jpeg_stdio_src` or `jpeg_read_header` does
  | fails
  | read (iRet : Int32)
deriving DecidableEq, Repr

/-- How `libjpeg` answers `GetPixelDatasFrmJPG`. -/
inductive Decoding
  | createFails
  -- a call up to `jpeg_start_decompress` ends in a `longjmp`
  | openFails
  -- `jpeg_read_scanlines` does
  | scanlineFails
  -- `jpeg_finish_decompress` does
  | finishFails
  | completes
deriving DecidableEq, Repr

/-- What the functions meet when they are called with a file name. -/
structure PicFile where
  bytes : Nat → UInt8
  header : Header
  decoding : Decoding
  -- whether the line buffer and the pixel data can be allocated
  lineBuffer : Bool := true
  pixels : Bool := true
  -- whether `aucLineBuffer` has its value behind a `longjmp`
  lineKept : Bool := true

/-- `MapFile` and `UnMapFile`, over whatever state they keep and whatever a `T_FileMap` is. -/
structure FileMapper (Φ τ : Type) where
  -- the return value, and the `T_FileMap` that is filled in
  mapFile : PicFile → Φ → Int32 × τ × Φ
  unMapFile : τ → Φ → Φ
  failed : ∀ f φ, (mapFile f φ).1 ≠ 0 → (mapFile f φ).2.2 = φ
  undone : ∀ f φ, (mapFile f φ).1 = 0 → unMapFile (mapFile f φ).2.1 (mapFile f φ).2.2 = φ

variable {Φ τ : Type}

namespace Viewer

def unMapFile (m : FileMapper Φ τ) (s : Viewer Φ) (tFileMap : τ) : Viewer Φ :=
  { s with files := m.unMapFile tFileMap s.files }

def jpegCreateDecompress (s : Viewer Φ) : Viewer Φ :=
  { s with issued := s.issued + 1, decoders := s.decoders.give s.issued }

/-- `jpeg_destroy_decompress`, which does nothing where there is no decoder. -/
def jpegDestroyDecompress (s : Viewer Φ) : Option Nat → Viewer Φ
  | none => s
  | some tDInfo => { s with decoders := s.decoders.free tDInfo }

def mallocLine (s : Viewer Φ) : Viewer Φ :=
  { s with issued := s.issued + 1, lines := s.lines.give s.issued }

/-- `if (aucLineBuffer) free(aucLineBuffer);` -/
def freeLine (s : Viewer Φ) : Option Nat → Viewer Φ
  | none => s
  | some aucLineBuffer => { s with lines := s.lines.free aucLineBuffer }

/-- The data pointer of record `r` gets what `malloc` returns. -/
def mallocPixels (s : Viewer Φ) (r : Nat) : Viewer Φ :=
  { s with
    issued := s.issued + 1
    pixels := s.pixels.give s.issued
    aucPixelDatas := Function.update s.aucPixelDatas r (some s.issued) }

def setNull (s : Viewer Φ) (r : Nat) : Viewer Φ :=
  { s with aucPixelDatas := Function.update s.aucPixelDatas r none }

/-- `free(ptPixelDatas->aucPixelDatas);` -/
def freePixels (s : Viewer Φ) (r : Nat) : Viewer Φ :=
  match s.aucPixelDatas r with
  | none => s
  | some aucPixelDatas => { s with pixels := s.pixels.free aucPixelDatas }

end Viewer

/-- `isJPGFormat`.  `jpeg_abort_decompress` keeps the decoder. -/
def isJPGFormat (f : PicFile) (s : Viewer Φ) : Int32 × Viewer Φ :=
  match f.header with
  | .createFails => (0, s)
  | .fails => (0, s.jpegCreateDecompress.jpegDestroyDecompress (some s.issued))
  | .read iRet => (if iRet = JPEG_HEADER_OK then 1 else 0, s.jpegCreateDecompress)

/-- The branch behind the `setjmp` of `GetPixelDatasFrmJPG`. -/
def jpegError (s : Viewer Φ) (tDInfo aucLineBuffer : Option Nat) (r : Nat) : Int32 × Viewer Φ :=
  (-1, ((s.jpegDestroyDecompress tDInfo).freeLine aucLineBuffer).freePixels r)

/-- The value of `aucLineBuffer` behind a `longjmp`. -/
def PicFile.afterJump (f : PicFile) (aucLineBuffer : Nat) : Option Nat :=
  if f.lineKept then some aucLineBuffer else none

/-- `GetPixelDatasFrmJPG` from the loop over the lines on. -/
def readLines (f : PicFile) (r tDInfo aucLineBuffer : Nat) (s : Viewer Φ) : Int32 × Viewer Φ :=
  match f.decoding with
  | .scanlineFails => jpegError s (some tDInfo) (f.afterJump aucLineBuffer) r
  | .finishFails =>
      jpegError (s.freeLine (some aucLineBuffer)) (some tDInfo) (f.afterJump aucLineBuffer) r
  | _ => (0, (s.freeLine (some aucLineBuffer)).jpegDestroyDecompress (some tDInfo))

/-- `GetPixelDatasFrmJPG` once decompression has started. -/
def decompress (f : PicFile) (r : Nat) (s : Viewer Φ) : Int32 × Viewer Φ :=
  let tDInfo := s.issued
  let s := s.jpegCreateDecompress
  if f.lineBuffer = false then (-1, s)
  else
    let aucLineBuffer := s.issued
    let s := s.mallocLine
    if f.pixels = false then (-1, s.setNull r)
    else readLines f r tDInfo aucLineBuffer (s.mallocPixels r)

/-- `GetPixelDatasFrmJPG`. -/
def getPixelDatasFrmJPG (f : PicFile) (r : Nat) (s : Viewer Φ) : Int32 × Viewer Φ :=
  match f.decoding with
  | .createFails => jpegError s none none r
  | .openFails => jpegError s.jpegCreateDecompress (some s.issued) none r
  | _ => decompress f r s

/-- `GetPixelDatasFrmBMP`. -/
def getPixelDatasFrmBMP (f : PicFile) (r : Nat) (s : Viewer Φ) : Int32 × Viewer Φ :=
  if (biBitCount f.bytes).toUInt32.toInt32 ≠ 24 then (-1, s)
  else if f.pixels = false then (-1, s.setNull r)
  else (0, s.mallocPixels r)

/-- The registered parsers. -/
inductive Parser
  | bmp
  | jpg
deriving DecidableEq, Repr

/-- The list that `PicFmtsInit` builds. -/
def picFileParsers : List Parser := [.bmp, .jpg]

def Parser.isSupport (f : PicFile) (s : Viewer Φ) : Parser → Int32 × Viewer Φ
  | .bmp => ((isBMPFormat f.bytes).1, s)
  | .jpg => isJPGFormat f s

def Parser.getPixelDatas (f : PicFile) (r : Nat) (s : Viewer Φ) : Parser → Int32 × Viewer Φ
  | .bmp => getPixelDatasFrmBMP f r s
  | .jpg => getPixelDatasFrmJPG f r s

/-- `GetParser`. -/
def getParser (f : PicFile) : List Parser → Viewer Φ → Option Parser × Viewer Φ
  | [], s => (none, s)
  | ptTmp :: ptNext, s =>
      let answer := ptTmp.isSupport f s
      if answer.1 ≠ 0 then (some ptTmp, answer.2) else getParser f ptNext answer.2

/-- `isPictureFileSupported`. -/
def isPictureFileSupported (m : FileMapper Φ τ) (f : PicFile) (s : Viewer Φ) :
    Int32 × Viewer Φ :=
  match m.mapFile f s.files with
  | (iError, tFileMap, files) =>
      let s := { s with files := files }
      if iError ≠ 0 then (0, s)
      else
        let found := getParser f picFileParsers s
        match found.1 with
        | none => (0, found.2.unMapFile m tFileMap)
        | some _ => (1, found.2.unMapFile m tFileMap)

/-- The end of `GetPixelDatasFrmFile` and of `GetPixelDatasForIcon`. -/
def parsed (m : FileMapper Φ τ) (answer : Int32 × Viewer Φ) (tFileMap : τ) : Int32 × Viewer Φ :=
  if answer.1 ≠ 0 then (-1, answer.2.unMapFile m tFileMap)
  else (0, answer.2.unMapFile m tFileMap)

/-- `GetPixelDatasFrmFile`. -/
def getPixelDatasFrmFile (m : FileMapper Φ τ) (f : PicFile) (r : Nat) (s : Viewer Φ) :
    Int32 × Viewer Φ :=
  match m.mapFile f s.files with
  | (iError, tFileMap, files) =>
      let s := { s with files := files }
      if iError ≠ 0 then (-1, s)
      else
        let found := getParser f picFileParsers s
        match found.1 with
        | none => (-1, found.2.unMapFile m tFileMap)
        | some ptParser => parsed m (ptParser.getPixelDatas f r found.2) tFileMap

/-- `GetPixelDatasForIcon`, which knows BMP files only. -/
def getPixelDatasForIcon (m : FileMapper Φ τ) (f : PicFile) (r : Nat) (s : Viewer Φ) :
    Int32 × Viewer Φ :=
  match m.mapFile f s.files with
  | (iError, tFileMap, files) =>
      let s := { s with files := files }
      if iError ≠ 0 then (-1, s)
      else
        let answer := Parser.bmp.isSupport f s
        if answer.1 = 0 then (-1, answer.2.unMapFile m tFileMap)
        else parsed m (Parser.bmp.getPixelDatas f r answer.2) tFileMap

/-- What a caller does: the five functions, and clearing a record of its own. -/
inductive Call
  | isPictureFileSupported (f : PicFile)
  | getPixelDatasFrmFile (f : PicFile) (r : Nat)
  | getPixelDatasForIcon (f : PicFile) (r : Nat)
  | freePixelDatasFrmFile (r : Nat)
  | freePixelDatasForIcon (r : Nat)
  | clear (r : Nat)

/-- One call, with what it returns. -/
def Call.run (m : FileMapper Φ τ) : Call → Viewer Φ → Int32 × Viewer Φ
  | .isPictureFileSupported f, s => PictureFiles.isPictureFileSupported m f s
  | .getPixelDatasFrmFile f r, s => PictureFiles.getPixelDatasFrmFile m f r s
  | .getPixelDatasForIcon f r, s => PictureFiles.getPixelDatasForIcon m f r s
  | .freePixelDatasFrmFile r, s => (0, s.freePixels r)
  | .freePixelDatasForIcon r, s => (0, s.freePixels r)
  | .clear r, s => (0, s.setNull r)

/-- Calls one after the other. -/
def runs (m : FileMapper Φ τ) : List Call → Viewer Φ → Viewer Φ
  | [], s => s
  | c :: rest, s => runs m rest (c.run m s).2

/-! ## What a call leaves -/

/-- `libjpeg` is asked whether it knows the file, which can be mapped. -/
def PicFile.Asked (m : FileMapper Φ τ) (φ : Φ) (f : PicFile) : Prop :=
  (m.mapFile f φ).1 = 0 ∧ (isBMPFormat f.bytes).1 = 0

/-- `libjpeg` could read a header. -/
def PicFile.hasHeader (f : PicFile) : Bool :=
  match f.header with
  | .read _ => true
  | _ => false

/-- `jpeg_start_decompress` returns. -/
def Decoding.starts : Decoding → Bool
  | .createFails => false
  | .openFails => false
  | _ => true

/-- The file is taken for a JPEG picture, and its decompression starts. -/
def PicFile.Starts (m : FileMapper Φ τ) (φ : Φ) (f : PicFile) : Prop :=
  f.Asked m φ ∧ f.header = .read JPEG_HEADER_OK ∧ f.decoding.starts = true

instance (m : FileMapper Φ τ) (φ : Φ) (f : PicFile) : Decidable (f.Asked m φ) := by
  unfold PicFile.Asked
  infer_instance

instance (m : FileMapper Φ τ) (φ : Φ) (f : PicFile) : Decidable (f.Starts m φ) := by
  unfold PicFile.Starts
  infer_instance

/-- The decoders that a decompression loses. -/
def PicFile.lostDecoders (f : PicFile) : Nat :=
  if f.lineBuffer = false ∨ f.pixels = false then 1 else 0

/-- The line buffers that a decompression loses. -/
def PicFile.lostLines (f : PicFile) : Nat :=
  if f.lineBuffer = true ∧
      (f.pixels = false ∨ (f.decoding = .scanlineFails ∧ f.lineKept = false)) then 1 else 0

/-- The line buffers that a decompression frees twice. -/
def PicFile.doubleFrees (f : PicFile) : Nat :=
  if f.lineBuffer = true ∧ f.pixels = true ∧ f.decoding = .finishFails ∧ f.lineKept = true
  then 1 else 0

/-- The decoders that a call leaves behind. -/
def Call.leftDecoders (m : FileMapper Φ τ) (φ : Φ) : Call → Nat
  | .isPictureFileSupported f => if f.Asked m φ ∧ f.hasHeader then 1 else 0
  | .getPixelDatasFrmFile f _ =>
      (if f.Asked m φ ∧ f.hasHeader then 1 else 0) + if f.Starts m φ then f.lostDecoders else 0
  | _ => 0

/-- The line buffers that a call leaves behind. -/
def Call.leftLines (m : FileMapper Φ τ) (φ : Φ) : Call → Nat
  | .getPixelDatasFrmFile f _ => if f.Starts m φ then f.lostLines else 0
  | _ => 0

/-- The line buffers that a call frees twice. -/
def Call.doubleFrees (m : FileMapper Φ τ) (φ : Φ) : Call → Nat
  | .getPixelDatasFrmFile f _ => if f.Starts m φ then f.doubleFrees else 0
  | _ => 0

/-- No line buffer has a number that has not been issued. -/
def Viewer.Fresh (s : Viewer Φ) : Prop := ∀ b ∈ s.lines.live, b < s.issued

/-- From `s` to `t` the mappings stay as they are, `d` decoders and `l` line buffers are left
behind, and `w` line buffers are freed twice. -/
structure Accounts (s t : Viewer Φ) (d l w : Nat) : Prop where
  files : t.files = s.files
  wrongDecoders : t.decoders.wrong = s.decoders.wrong
  decoders : t.decoders.live.length = s.decoders.live.length + d
  lines : t.lines.live.length = s.lines.live.length + l
  wrongLines : t.lines.wrong.length = s.lines.wrong.length + w
  fresh : t.Fresh

/-- Accounts add up. -/
theorem Accounts.trans {s t u : Viewer Φ} {d l w d' l' w' : Nat} (h : Accounts s t d l w)
    (h' : Accounts t u d' l' w') : Accounts s u (d + d') (l + l') (w + w') where
  files := h'.files.trans h.files
  wrongDecoders := h'.wrongDecoders.trans h.wrongDecoders
  decoders := by rw [h'.decoders, h.decoders, Nat.add_assoc]
  lines := by rw [h'.lines, h.lines, Nat.add_assoc]
  wrongLines := by rw [h'.wrongLines, h.wrongLines, Nat.add_assoc]
  fresh := h'.fresh

/-- A call that touches neither decoders nor line buffers. -/
theorem Accounts.same {s t : Viewer Φ} (hs : s.Fresh) (hfiles : t.files = s.files)
    (hdecoders : t.decoders = s.decoders) (hlines : t.lines = s.lines)
    (hissued : s.issued ≤ t.issued) : Accounts s t 0 0 0 where
  files := hfiles
  wrongDecoders := by rw [hdecoders]
  decoders := by rw [hdecoders, Nat.add_zero]
  lines := by rw [hlines, Nat.add_zero]
  wrongLines := by rw [hlines, Nat.add_zero]
  fresh := fun b hb => lt_of_lt_of_le (hs b (hlines ▸ hb)) hissued

/-- To do nothing leaves nothing behind. -/
theorem Accounts.refl {s : Viewer Φ} (hs : s.Fresh) : Accounts s s 0 0 0 :=
  Accounts.same hs rfl rfl rfl (Nat.le_refl _)

/-- A file that is mapped for a while. -/
theorem Accounts.mapped {m : FileMapper Φ τ} {f : PicFile} {s t : Viewer Φ} {d l w : Nat}
    (hmaps : (m.mapFile f s.files).1 = 0)
    (h : Accounts { s with files := (m.mapFile f s.files).2.2 } t d l w) :
    Accounts s (t.unMapFile m (m.mapFile f s.files).2.1) d l w where
  files := by
    have hfiles : t.files = (m.mapFile f s.files).2.2 := h.files
    rw [Viewer.unMapFile, hfiles]
    exact m.undone f s.files hmaps
  wrongDecoders := h.wrongDecoders
  decoders := h.decoders
  lines := h.lines
  wrongLines := h.wrongLines
  fresh := h.fresh

/-- A file that cannot be mapped. -/
theorem Accounts.refused {m : FileMapper Φ τ} {f : PicFile} {s : Viewer Φ} (hs : s.Fresh)
    (hmaps : (m.mapFile f s.files).1 ≠ 0) :
    Accounts s { s with files := (m.mapFile f s.files).2.2 } 0 0 0 :=
  Accounts.same hs (m.failed f s.files hmaps) rfl rfl (Nat.le_refl _)

/-- Freeing pixel data concerns nothing else, and the pointer stays. -/
theorem freePixels_spec (s : Viewer Φ) (r : Nat) :
    (s.freePixels r).files = s.files ∧ (s.freePixels r).decoders = s.decoders ∧
      (s.freePixels r).lines = s.lines ∧ (s.freePixels r).issued = s.issued ∧
      (s.freePixels r).aucPixelDatas = s.aucPixelDatas := by
  unfold Viewer.freePixels
  split <;> exact ⟨rfl, rfl, rfl, rfl, rfl⟩

/-- Freeing pixel data is nothing to decoders and line buffers. -/
theorem freePixels_accounts {s : Viewer Φ} (hs : s.Fresh) (r : Nat) :
    Accounts s (s.freePixels r) 0 0 0 := by
  obtain ⟨hfiles, hdecoders, hlines, hissued, -⟩ := freePixels_spec s r
  exact Accounts.same hs hfiles hdecoders hlines hissued.ge

/-- **The check of a JPEG file** leaves its decoder behind, unless `libjpeg` fails. -/
theorem isJPGFormat_accounts {f : PicFile} {s : Viewer Φ} (hs : s.Fresh) :
    Accounts s (isJPGFormat f s).2 (if f.hasHeader then 1 else 0) 0 0 := by
  unfold isJPGFormat PicFile.hasHeader
  cases f.header with
  | createFails => exact Accounts.refl hs
  | fails =>
      exact Accounts.same hs rfl (s.decoders.free_give s.issued) rfl (Nat.le_succ _)
  | read iRet => exact ⟨rfl, rfl, rfl, rfl, rfl, fun b hb => Nat.lt_succ_of_lt (hs b hb)⟩

/-- What the branch behind `setjmp` does besides freeing the pixel data. -/
theorem jpegError_spec (s : Viewer Φ) (tDInfo line : Option Nat) (r : Nat) :
    let t := (jpegError s tDInfo line r).2
    t.files = s.files ∧ t.decoders = (s.jpegDestroyDecompress tDInfo).decoders ∧
      t.lines = (s.freeLine line).lines ∧ t.issued = s.issued := by
  intro t
  obtain ⟨hfiles, hdecoders, hlines, hissued, -⟩ :=
    freePixels_spec ((s.jpegDestroyDecompress tDInfo).freeLine line) r
  refine ⟨hfiles.trans ?_, hdecoders.trans ?_, hlines.trans ?_, hissued.trans ?_⟩ <;>
    cases tDInfo <;> cases line <;> rfl

/-- A new line buffer that is freed twice is noted once. -/
theorem wrong_double_free {s : Viewer Φ} (hs : s.Fresh) {line : Nat} (hline : s.issued ≤ line) :
    (s.lines.free line).live = s.lines.live ∧
      (s.lines.free line).wrong.length = s.lines.wrong.length + 1 := by
  have hnew : line ∉ s.lines.live := fun hin => absurd (hs line hin) (by omega)
  rw [Blocks.free, if_neg hnew]
  exact ⟨rfl, by simp⟩

/-- An error while there is a decoder, by the line buffers that are left. -/
theorem jpegError_accounts {s t : Viewer Φ} {dec r lost twice : Nat} {line : Option Nat}
    {left : Blocks Nat} (hfiles : t.files = s.files) (hdecoders : t.decoders.free dec = s.decoders)
    (hleft : (t.freeLine line).lines = left)
    (hlive : left.live.length = s.lines.live.length + lost)
    (hwrong : left.wrong.length = s.lines.wrong.length + twice)
    (hfresh : ∀ b ∈ left.live, b < t.issued) :
    Accounts s (jpegError t (some dec) line r).2 0 lost twice := by
  obtain ⟨hm, hd, hl, hi⟩ := jpegError_spec t (some dec) line r
  have hd' := hd.trans hdecoders
  have hl' := hl.trans hleft
  refine ⟨hm.trans hfiles, by rw [hd'], by rw [hd', Nat.add_zero], by rw [hl', hlive],
    by rw [hl', hwrong], ?_⟩
  intro b hb
  rw [hl'] at hb
  rw [hi]
  exact hfresh b hb

/-- **The lines.**  A decoder and a line buffer have just been allocated.  The decoder is
destroyed in any case, the line buffer is freed once, not at all or twice. -/
theorem readLines_accounts {f : PicFile} {r line dec : Nat} {s t : Viewer Φ} (hs : s.Fresh)
    (hfiles : t.files = s.files) (hdecoders : t.decoders = s.decoders.give dec)
    (hlines : t.lines = s.lines.give line) (hline : s.issued ≤ line) (hissued : line < t.issued) :
    Accounts s (readLines f r dec line t).2 0
      (if f.decoding = .scanlineFails ∧ f.lineKept = false then 1 else 0)
      (if f.decoding = .finishFails ∧ f.lineKept = true then 1 else 0) := by
  have hdestroyed : t.decoders.free dec = s.decoders := by rw [hdecoders, Blocks.free_give]
  have hfreed : t.lines.free line = s.lines := by rw [hlines, Blocks.free_give]
  have hold : ∀ b ∈ s.lines.live, b < t.issued := by
    intro b hb
    have := hs b hb
    omega
  have hdone : Accounts s ((t.freeLine (some line)).jpegDestroyDecompress (some dec)) 0 0 0 :=
    Accounts.same hs hfiles hdestroyed hfreed (hline.trans hissued.le)
  unfold readLines PicFile.afterJump
  cases f.decoding with
  | scanlineFails =>
      cases f.lineKept with
      | true => exact jpegError_accounts hfiles hdestroyed hfreed rfl rfl hold
      | false =>
          refine jpegError_accounts hfiles hdestroyed hlines rfl rfl ?_
          intro b hb
          rcases List.mem_cons.mp hb with rfl | hb
          · exact hissued
          · exact hold b hb
  | finishFails =>
      cases f.lineKept with
      | true =>
          have htwice : (t.lines.free line).free line = s.lines.free line := by rw [hfreed]
          obtain ⟨hlive, hwrong⟩ := wrong_double_free hs hline
          exact jpegError_accounts hfiles hdestroyed htwice (by rw [hlive]; rfl) hwrong
            (by rw [hlive]; exact hold)
      | false => exact jpegError_accounts hfiles hdestroyed hfreed rfl rfl hold
  | createFails => exact hdone
  | openFails => exact hdone
  | completes => exact hdone

/-- **Decompression.** -/
theorem decompress_accounts {f : PicFile} {r : Nat} {s : Viewer Φ} (hs : s.Fresh) :
    Accounts s (decompress f r s).2 f.lostDecoders f.lostLines f.doubleFrees := by
  unfold decompress PicFile.lostDecoders PicFile.lostLines PicFile.doubleFrees
  cases f.lineBuffer with
  | false => exact ⟨rfl, rfl, rfl, rfl, rfl, fun b hb => Nat.lt_succ_of_lt (hs b hb)⟩
  | true =>
      cases f.pixels with
      | false =>
          refine ⟨rfl, rfl, rfl, rfl, rfl, ?_⟩
          intro b hb
          show b < s.issued + 1 + 1
          rcases List.mem_cons.mp hb with rfl | hb
          · exact Nat.lt_succ_self _
          · have := hs b hb
            omega
      | true =>
          have hlines := readLines_accounts (f := f) (r := r) (t :=
            (s.jpegCreateDecompress.mallocLine).mallocPixels r) hs rfl rfl rfl (Nat.le_succ _)
            (Nat.lt_succ_of_lt (Nat.lt_succ_self _))
          simpa using hlines

/-- What `GetPixelDatasFrmJPG` leaves behind. -/
theorem getPixelDatasFrmJPG_accounts {f : PicFile} {r : Nat} {s : Viewer Φ} (hs : s.Fresh) :
    Accounts s (getPixelDatasFrmJPG f r s).2 (if f.decoding.starts then f.lostDecoders else 0)
      (if f.decoding.starts then f.lostLines else 0)
      (if f.decoding.starts then f.doubleFrees else 0) := by
  have hall := decompress_accounts (f := f) (r := r) hs
  unfold getPixelDatasFrmJPG
  cases f.decoding with
  | createFails => exact freePixels_accounts hs r
  | openFails =>
      exact jpegError_accounts rfl (s.decoders.free_give s.issued) rfl rfl rfl
        fun b hb => Nat.lt_succ_of_lt (hs b hb)
  | scanlineFails => exact hall
  | finishFails => exact hall
  | completes => exact hall

/-- `GetPixelDatasFrmBMP` leaves nothing behind. -/
theorem getPixelDatasFrmBMP_accounts {f : PicFile} {r : Nat} {s : Viewer Φ} (hs : s.Fresh) :
    Accounts s (getPixelDatasFrmBMP f r s).2 0 0 0 := by
  unfold getPixelDatasFrmBMP
  split
  · exact Accounts.refl hs
  · split
    · exact Accounts.same hs rfl rfl rfl (Nat.le_refl _)
    · exact Accounts.same hs rfl rfl rfl (Nat.le_succ _)

/-- A file is taken for a JPEG picture when its header is complete. -/
theorem isJPGFormat_ne_zero (f : PicFile) (s : Viewer Φ) :
    (isJPGFormat f s).1 ≠ 0 ↔ f.header = .read JPEG_HEADER_OK := by
  unfold isJPGFormat
  cases f.header with
  | createFails => simp
  | fails => simp
  | read iRet => by_cases hok : iRet = JPEG_HEADER_OK <;> simp [hok]

/-- **The parser that is found.**  The BMP parser is asked first; the JPG parser only about what
is no BMP file. -/
theorem getParser_eq (f : PicFile) (s : Viewer Φ) :
    getParser f picFileParsers s =
      if (isBMPFormat f.bytes).1 ≠ 0 then (some .bmp, s)
      else if f.header = .read JPEG_HEADER_OK then (some .jpg, (isJPGFormat f s).2)
      else (none, (isJPGFormat f s).2) := by
  have hasks : getParser f picFileParsers s =
      if (isBMPFormat f.bytes).1 ≠ 0 then (some .bmp, s)
      else if (isJPGFormat f s).1 ≠ 0 then (some .jpg, (isJPGFormat f s).2)
      else (none, (isJPGFormat f s).2) := rfl
  rw [hasks]
  simp only [isJPGFormat_ne_zero]

/-- Looking for a parser leaves a decoder behind where `libjpeg` is asked and reads a header. -/
theorem getParser_accounts {m : FileMapper Φ τ} {φ : Φ} {f : PicFile} {s : Viewer Φ}
    (hs : s.Fresh) (hmaps : (m.mapFile f φ).1 = 0) :
    Accounts s (getParser f picFileParsers s).2
      (if f.Asked m φ ∧ f.hasHeader then 1 else 0) 0 0 := by
  rw [getParser_eq]
  by_cases hbmp : (isBMPFormat f.bytes).1 ≠ 0
  · have hnot : ¬ (f.Asked m φ ∧ f.hasHeader) := fun h => hbmp h.1.2
    rw [if_pos hbmp, if_neg hnot]
    exact Accounts.refl hs
  · have hasked : f.Asked m φ := ⟨hmaps, not_not.mp hbmp⟩
    have hcheck := isJPGFormat_accounts (f := f) hs
    rw [if_neg hbmp]
    simp only [hasked, true_and]
    split <;> exact hcheck

/-- The file is unmapped, whatever the parser returned. -/
theorem parsed_snd (m : FileMapper Φ τ) (answer : Int32 × Viewer Φ) (tFileMap : τ) :
    (parsed m answer tFileMap).2 = answer.2.unMapFile m tFileMap := by
  unfold parsed
  split <;> rfl

/-- `GetPixelDatasFrmFile`, whichever parser it finds. -/
theorem getPixelDatasFrmFile_accounts (m : FileMapper Φ τ) {f : PicFile} (r : Nat) {s : Viewer Φ}
    (hs : s.Fresh) :
    Accounts s (getPixelDatasFrmFile m f r s).2
      ((if f.Asked m s.files ∧ f.hasHeader then 1 else 0) +
        if f.Starts m s.files then f.lostDecoders else 0)
      (if f.Starts m s.files then f.lostLines else 0)
      (if f.Starts m s.files then f.doubleFrees else 0) := by
  unfold getPixelDatasFrmFile
  simp only
  by_cases hmaps : (m.mapFile f s.files).1 ≠ 0
  · have hask : ¬ f.Asked m s.files := fun h => hmaps h.1
    have hstart : ¬ f.Starts m s.files := fun h => hask h.1
    have hnone : ¬ (f.Asked m s.files ∧ f.hasHeader) := fun h => hask h.1
    rw [if_pos hmaps, if_neg hnone, if_neg hstart, if_neg hstart, if_neg hstart]
    exact Accounts.refused hs hmaps
  rw [if_neg hmaps]
  have hmapped : (m.mapFile f s.files).1 = 0 := not_not.mp hmaps
  have hopened : Viewer.Fresh { s with files := (m.mapFile f s.files).2.2 } := hs
  have hfound := getParser_accounts hopened hmapped
  have hparser := getParser_eq f { s with files := (m.mapFile f s.files).2.2 }
  by_cases hbmp : (isBMPFormat f.bytes).1 ≠ 0
  · have hstart : ¬ f.Starts m s.files := fun h => hbmp h.1.2
    rw [if_pos hbmp] at hparser
    rw [hparser] at hfound ⊢
    simp only [parsed_snd, if_neg hstart]
    exact (hfound.trans (getPixelDatasFrmBMP_accounts hfound.fresh)).mapped hmapped
  have hasked : f.Asked m s.files := ⟨hmapped, not_not.mp hbmp⟩
  rw [if_neg hbmp] at hparser
  by_cases hjpg : f.header = .read JPEG_HEADER_OK
  · have hstarts : f.Starts m s.files ↔ f.decoding.starts = true :=
      ⟨fun h => h.2.2, fun h => ⟨hasked, hjpg, h⟩⟩
    rw [if_pos hjpg] at hparser
    rw [hparser] at hfound ⊢
    have hdecoded := hfound.trans (getPixelDatasFrmJPG_accounts (f := f) (r := r) hfound.fresh)
    simp only [Nat.zero_add] at hdecoded
    simp only [parsed_snd, hstarts]
    exact hdecoded.mapped hmapped
  · have hstart : ¬ f.Starts m s.files := fun h => hjpg h.2.1
    rw [if_neg hjpg] at hparser
    rw [hparser] at hfound ⊢
    simp only [if_neg hstart]
    exact hfound.mapped hmapped

/-- The search for a parser leaves the decoder of `isJPGFormat` behind. -/
theorem isPictureFileSupported_accounts (m : FileMapper Φ τ) {f : PicFile} {s : Viewer Φ}
    (hs : s.Fresh) :
    Accounts s (isPictureFileSupported m f s).2
      (if f.Asked m s.files ∧ f.hasHeader then 1 else 0) 0 0 := by
  unfold isPictureFileSupported
  simp only
  by_cases hmaps : (m.mapFile f s.files).1 ≠ 0
  · have hnone : ¬ (f.Asked m s.files ∧ f.hasHeader) := fun h => hmaps h.1.1
    rw [if_pos hmaps, if_neg hnone]
    exact Accounts.refused hs hmaps
  · rw [if_neg hmaps]
    have hmapped : (m.mapFile f s.files).1 = 0 := not_not.mp hmaps
    have hopened : Viewer.Fresh { s with files := (m.mapFile f s.files).2.2 } := hs
    have hfound := getParser_accounts hopened hmapped
    split <;> exact hfound.mapped hmapped

/-- An icon is a BMP file, so nothing is left. -/
theorem getPixelDatasForIcon_accounts (m : FileMapper Φ τ) {f : PicFile} (r : Nat) {s : Viewer Φ}
    (hs : s.Fresh) : Accounts s (getPixelDatasForIcon m f r s).2 0 0 0 := by
  unfold getPixelDatasForIcon
  simp only
  by_cases hmaps : (m.mapFile f s.files).1 ≠ 0
  · rw [if_pos hmaps]
    exact Accounts.refused hs hmaps
  · rw [if_neg hmaps]
    have hmapped : (m.mapFile f s.files).1 = 0 := not_not.mp hmaps
    have hopened : Viewer.Fresh { s with files := (m.mapFile f s.files).2.2 } := hs
    split
    · exact (Accounts.refl hopened).mapped hmapped
    · rw [parsed_snd]
      exact (getPixelDatasFrmBMP_accounts hopened).mapped hmapped

/-- **Step lemma.**  What a call leaves behind is what its file says. -/
theorem Call.run_accounts (m : FileMapper Φ τ) (c : Call) {s : Viewer Φ} (hs : s.Fresh) :
    Accounts s (c.run m s).2 (c.leftDecoders m s.files) (c.leftLines m s.files)
      (c.doubleFrees m s.files) := by
  cases c with
  | isPictureFileSupported f => exact isPictureFileSupported_accounts m hs
  | getPixelDatasFrmFile f r => exact getPixelDatasFrmFile_accounts m r hs
  | getPixelDatasForIcon f r => exact getPixelDatasForIcon_accounts m r hs
  | freePixelDatasFrmFile r => exact freePixels_accounts hs r
  | freePixelDatasForIcon r => exact freePixels_accounts hs r
  | clear r => exact Accounts.same hs rfl rfl rfl (Nat.le_refl _)

/-- **Run lemma.** -/
theorem runs_accounts (m : FileMapper Φ τ) (calls : List Call) {s : Viewer Φ} (hs : s.Fresh) :
    Accounts s (runs m calls s) (calls.map (Call.leftDecoders m s.files)).sum
      (calls.map (Call.leftLines m s.files)).sum
      (calls.map (Call.doubleFrees m s.files)).sum := by
  induction calls generalizing s with
  | nil => exact Accounts.refl hs
  | cons c rest ih =>
      have hstep := c.run_accounts m hs
      have hrest := ih hstep.fresh
      rw [hstep.files] at hrest
      simp only [List.map_cons, List.sum_cons]
      exact hstep.trans hrest

/-! ## The pixel data of a careful caller -/

/-- What the caller knows of a record. -/
inductive Mark
  | clear
  -- it was filled with the result 0
  | filled
  -- it has been freed, or could not be filled
  | spent
deriving DecidableEq, Repr

/-- The caller's book, by record. -/
abbrev Book := Nat → Mark

/-- The entry for a call with the result `ret`. -/
def Book.note (book : Book) (ret : Int32) : Call → Book
  | .isPictureFileSupported _ => book
  | .getPixelDatasFrmFile _ r | .getPixelDatasForIcon _ r =>
      Function.update book r (if ret = 0 then .filled else .spent)
  | .freePixelDatasFrmFile r | .freePixelDatasForIcon r => Function.update book r .spent
  | .clear r => Function.update book r .clear

/-- By the book, a cleared record may be filled, a filled one freed, and any other cleared. -/
def Book.Allows (book : Book) : Call → Prop
  | .isPictureFileSupported _ => True
  | .getPixelDatasFrmFile _ r | .getPixelDatasForIcon _ r => book r = .clear
  | .freePixelDatasFrmFile r | .freePixelDatasForIcon r => book r = .filled
  | .clear r => book r ≠ .filled

instance (book : Book) (c : Call) : Decidable (book.Allows c) := by
  unfold Book.Allows
  split <;> infer_instance

/-- The book after the calls. -/
def bookAfter (m : FileMapper Φ τ) : List Call → Book → Viewer Φ → Book
  | [], book, _ => book
  | c :: rest, book, s => bookAfter m rest (book.note (c.run m s).1 c) (c.run m s).2

/-- The caller goes by the book. -/
def Careful (m : FileMapper Φ τ) : List Call → Book → Viewer Φ → Prop
  | [], _, _ => True
  | c :: rest, book, s =>
      book.Allows c ∧ Careful m rest (book.note (c.run m s).1 c) (c.run m s).2

/-- No pixel data have been freed wrongly; those that are there have a record of their own, and
these are the filled ones; a cleared record has no data; and no number is in use before it is
issued. -/
structure Sound (book : Book) (s : Viewer Φ) : Prop where
  clean : s.pixels.wrong = []
  owned : Blocks.Owned s.pixels.live s.aucPixelDatas
  filled : ∀ r, book r = .filled ↔ ∃ b ∈ s.pixels.live, s.aucPixelDatas r = some b
  null : ∀ r, book r = .clear → s.aucPixelDatas r = none
  fresh : ∀ b ∈ s.pixels.live, b < s.issued
  known : ∀ r b, s.aucPixelDatas r = some b → b < s.issued

/-- What a call does to the pixel data when it is given a cleared record: it does not get as far
as allocating them, it fills the record, or it has freed them again and leaves their address.
The result is 0 only if they are there. -/
inductive Fills (s : Viewer Φ) (answer : Int32 × Viewer Φ) (r : Nat) : Prop
  | failed (hret : answer.1 ≠ 0) (hissued : s.issued ≤ answer.2.issued)
      (hpixels : answer.2.pixels = s.pixels) (hptr : answer.2.aucPixelDatas = s.aucPixelDatas)
  | filled (b : Nat) (hret : answer.1 = 0) (hnew : s.issued ≤ b) (hissued : b < answer.2.issued)
      (hpixels : answer.2.pixels = s.pixels.give b)
      (hptr : answer.2.aucPixelDatas = Function.update s.aucPixelDatas r (some b))
  | freed (b : Nat) (hret : answer.1 ≠ 0) (hnew : s.issued ≤ b) (hissued : b < answer.2.issued)
      (hpixels : answer.2.pixels = s.pixels)
      (hptr : answer.2.aucPixelDatas = Function.update s.aucPixelDatas r (some b))

/-- What comes before may issue numbers. -/
theorem Fills.after {s s' : Viewer Φ} {answer : Int32 × Viewer Φ} {r : Nat}
    (h : Fills s' answer r) (hissued : s.issued ≤ s'.issued) (hpixels : s'.pixels = s.pixels)
    (hptr : s'.aucPixelDatas = s.aucPixelDatas) : Fills s answer r := by
  cases h with
  | failed hret hi hp hq =>
      exact .failed hret (hissued.trans hi) (hp.trans hpixels) (hq.trans hptr)
  | filled b hret hn hi hp hq =>
      exact .filled b hret (hissued.trans hn) hi (by rw [hp, hpixels]) (by rw [hq, hptr])
  | freed b hret hn hi hp hq =>
      exact .freed b hret (hissued.trans hn) hi (hp.trans hpixels) (by rw [hq, hptr])

/-- What comes behind unmaps the file, and passes the result on. -/
theorem Fills.parsed {m : FileMapper Φ τ} {s : Viewer Φ} {answer : Int32 × Viewer Φ} {r : Nat}
    (h : Fills s answer r) (tFileMap : τ) : Fills s (parsed m answer tFileMap) r := by
  have hminus : (-1 : Int32) ≠ 0 := by decide
  unfold PictureFiles.parsed
  cases h with
  | failed hret hi hp hq =>
      rw [if_pos hret]
      exact .failed hminus hi hp hq
  | filled b hret hn hi hp hq =>
      rw [if_neg (not_not.mpr hret)]
      exact .filled b rfl hn hi hp hq
  | freed b hret hn hi hp hq =>
      rw [if_pos hret]
      exact .freed b hminus hn hi hp hq

/-- `free` of a null pointer does nothing. -/
theorem freePixels_of_none {s : Viewer Φ} {r : Nat} (hnull : s.aucPixelDatas r = none) :
    s.freePixels r = s := by
  rw [Viewer.freePixels, hnull]

/-- Otherwise the data at the pointer are freed. -/
theorem freePixels_of_some {s : Viewer Φ} {r b : Nat} (hptr : s.aucPixelDatas r = some b) :
    s.freePixels r = { s with pixels := s.pixels.free b } := by
  rw [Viewer.freePixels, hptr]

/-- Clearing what is clear changes nothing. -/
theorem setNull_of_none {s : Viewer Φ} {r : Nat} (hnull : s.aucPixelDatas r = none) :
    s.setNull r = s := by
  rw [Viewer.setNull, ← hnull, Function.update_eq_self]

/-- The branch behind `setjmp`, with the pixel data just allocated. -/
theorem jpegError_fills {s t : Viewer Φ} {r b : Nat} (dec : Nat) (line : Option Nat)
    (hnew : s.issued ≤ b) (hissued : b < t.issued) (hpixels : t.pixels = s.pixels.give b)
    (hptr : t.aucPixelDatas = Function.update s.aucPixelDatas r (some b)) :
    Fills s (jpegError t (some dec) line r) r := by
  have hminus : (-1 : Int32) ≠ 0 := by decide
  have hrecord : ((t.jpegDestroyDecompress (some dec)).freeLine line).aucPixelDatas r =
      some b := by
    have hsame : ((t.jpegDestroyDecompress (some dec)).freeLine line).aucPixelDatas =
        t.aucPixelDatas := by cases line <;> rfl
    rw [hsame, hptr, Function.update_self]
  have hfreed : t.pixels.free b = s.pixels := by rw [hpixels, Blocks.free_give]
  rw [jpegError, freePixels_of_some hrecord]
  cases line with
  | none => exact .freed b hminus hnew hissued hfreed hptr
  | some _ => exact .freed b hminus hnew hissued hfreed hptr

/-- The loop over the lines keeps the pixel data if it succeeds, and frees them if not. -/
theorem readLines_fills {f : PicFile} {s t : Viewer Φ} {r b : Nat} (dec line : Nat)
    (hnew : s.issued ≤ b) (hissued : b < t.issued) (hpixels : t.pixels = s.pixels.give b)
    (hptr : t.aucPixelDatas = Function.update s.aucPixelDatas r (some b)) :
    Fills s (readLines f r dec line t) r := by
  unfold readLines
  split
  · exact jpegError_fills dec _ hnew hissued hpixels hptr
  · exact jpegError_fills dec _ hnew hissued hpixels hptr
  · exact .filled b rfl hnew hissued hpixels hptr

/-- The return value of `GetPixelDatasFrmJPG` says whether the record is filled. -/
theorem getPixelDatasFrmJPG_fills {f : PicFile} {r : Nat} {s : Viewer Φ}
    (hnull : s.aucPixelDatas r = none) : Fills s (getPixelDatasFrmJPG f r s) r := by
  have hminus : (-1 : Int32) ≠ 0 := by decide
  have hdecompress : Fills s (decompress f r s) r := by
    unfold decompress
    split
    · exact .failed hminus (Nat.le_succ _) rfl rfl
    · simp only
      split
      · have hsame : (s.jpegCreateDecompress.mallocLine.setNull r).aucPixelDatas =
            s.aucPixelDatas := by
          rw [setNull_of_none (s := s.jpegCreateDecompress.mallocLine) hnull]
          rfl
        exact .failed hminus (by show s.issued ≤ s.issued + 1 + 1; omega) rfl hsame
      · exact readLines_fills _ _ (b := s.issued + 1 + 1) (by omega) (Nat.lt_succ_self _) rfl rfl
  unfold getPixelDatasFrmJPG
  split
  · rw [jpegError, freePixels_of_none (s := (s.jpegDestroyDecompress none).freeLine none) hnull]
    exact .failed hminus (Nat.le_refl _) rfl rfl
  · have hclosed : ((s.jpegCreateDecompress.jpegDestroyDecompress (some s.issued)).freeLine
        none).aucPixelDatas r = none := hnull
    rw [jpegError, freePixels_of_none hclosed]
    exact .failed hminus (Nat.le_succ _) rfl rfl
  · exact hdecompress

/-- So does that of `GetPixelDatasFrmBMP`. -/
theorem getPixelDatasFrmBMP_fills {f : PicFile} {r : Nat} {s : Viewer Φ}
    (hnull : s.aucPixelDatas r = none) : Fills s (getPixelDatasFrmBMP f r s) r := by
  have hminus : (-1 : Int32) ≠ 0 := by decide
  unfold getPixelDatasFrmBMP
  split
  · exact .failed hminus (Nat.le_refl _) rfl rfl
  · split
    · rw [setNull_of_none hnull]
      exact .failed hminus (Nat.le_refl _) rfl rfl
    · exact .filled s.issued rfl (Nat.le_refl _) (Nat.lt_succ_self _) rfl rfl

/-- Looking for a parser does not touch the pixel data. -/
theorem getParser_pixels (f : PicFile) (s : Viewer Φ) :
    let t := (getParser f picFileParsers s).2
    s.issued ≤ t.issued ∧ t.pixels = s.pixels ∧ t.aucPixelDatas = s.aucPixelDatas := by
  have hcheck : s.issued ≤ (isJPGFormat f s).2.issued ∧ (isJPGFormat f s).2.pixels = s.pixels ∧
      (isJPGFormat f s).2.aucPixelDatas = s.aucPixelDatas := by
    unfold isJPGFormat
    split
    · exact ⟨Nat.le_refl _, rfl, rfl⟩
    · exact ⟨Nat.le_succ _, rfl, rfl⟩
    · exact ⟨Nat.le_succ _, rfl, rfl⟩
  intro t
  have ht : t = (getParser f picFileParsers s).2 := rfl
  rw [getParser_eq] at ht
  rw [ht]
  split
  · exact ⟨Nat.le_refl _, rfl, rfl⟩
  · split <;> exact hcheck

/-- `GetPixelDatasFrmFile` passes the answer of the parser on. -/
theorem getPixelDatasFrmFile_fills (m : FileMapper Φ τ) {f : PicFile} {r : Nat} {s : Viewer Φ}
    (hnull : s.aucPixelDatas r = none) : Fills s (getPixelDatasFrmFile m f r s) r := by
  have hminus : (-1 : Int32) ≠ 0 := by decide
  unfold getPixelDatasFrmFile
  simp only
  split
  · exact .failed hminus (Nat.le_refl _) rfl rfl
  obtain ⟨hissued, hpixels, hptr⟩ :=
    getParser_pixels f { s with files := (m.mapFile f s.files).2.2 }
  split
  · exact .failed hminus hissued hpixels hptr
  · rename_i ptParser hfound
    have hnull' : (getParser f picFileParsers
        { s with files := (m.mapFile f s.files).2.2 }).2.aucPixelDatas r = none := by
      rw [hptr]
      exact hnull
    refine Fills.parsed (Fills.after (s := s) ?_ hissued hpixels hptr) _
    cases ptParser with
    | bmp => exact getPixelDatasFrmBMP_fills hnull'
    | jpg => exact getPixelDatasFrmJPG_fills hnull'

/-- The return value of `GetPixelDatasForIcon` says the same. -/
theorem getPixelDatasForIcon_fills (m : FileMapper Φ τ) {f : PicFile} {r : Nat} {s : Viewer Φ}
    (hnull : s.aucPixelDatas r = none) : Fills s (getPixelDatasForIcon m f r s) r := by
  have hminus : (-1 : Int32) ≠ 0 := by decide
  unfold getPixelDatasForIcon
  simp only
  split
  · exact .failed hminus (Nat.le_refl _) rfl rfl
  · split
    · exact .failed hminus (Nat.le_refl _) rfl rfl
    · have hfills : Fills { s with files := (m.mapFile f s.files).2.2 }
          (getPixelDatasFrmBMP f r { s with files := (m.mapFile f s.files).2.2 }) r :=
        getPixelDatasFrmBMP_fills hnull
      exact Fills.parsed (Fills.after (s := s) hfills (Nat.le_refl _) rfl rfl) _

/-- **One record changes.**  Its pointer and its mark are set, and at most one block `b`, which
no other record leads to, is handed out or back. -/
theorem Sound.retarget {book : Book} {s t : Viewer Φ} {r b : Nat} {mark : Mark} {x : Option Nat}
    (h : Sound book s) (hclean : t.pixels.wrong = [])
    (howned : Blocks.Owned t.pixels.live t.aucPixelDatas) (hissued : s.issued ≤ t.issued)
    (hlive : ∀ c, c ≠ b → (c ∈ t.pixels.live ↔ c ∈ s.pixels.live))
    (hb : b ∈ t.pixels.live → b < t.issued)
    (hother : ∀ r', r' ≠ r → s.aucPixelDatas r' ≠ some b)
    (hptr : t.aucPixelDatas = Function.update s.aucPixelDatas r x)
    (hx : ∀ c, x = some c → c < t.issued)
    (hself : mark = .filled ↔ ∃ c ∈ t.pixels.live, x = some c)
    (hclear : mark = .clear → x = none) : Sound (Function.update book r mark) t := by
  refine ⟨hclean, howned, fun r' => ?_, fun r' hr' => ?_, fun c hc => ?_, fun r' c hc => ?_⟩
  · rw [hptr]
    by_cases hr : r' = r
    · subst hr
      rw [Function.update_self, Function.update_self]
      exact hself
    · rw [Function.update_of_ne hr, Function.update_of_ne hr, h.filled r']
      have hsame : ∀ c, s.aucPixelDatas r' = some c → (c ∈ t.pixels.live ↔ c ∈ s.pixels.live) :=
        fun c hat => hlive c fun heq => hother r' hr (heq ▸ hat)
      constructor
      · rintro ⟨c, hc, hat⟩
        exact ⟨c, (hsame c hat).mpr hc, hat⟩
      · rintro ⟨c, hc, hat⟩
        exact ⟨c, (hsame c hat).mp hc, hat⟩
  · rw [hptr]
    by_cases hr : r' = r
    · subst hr
      rw [Function.update_self] at hr' ⊢
      exact hclear hr'
    · rw [Function.update_of_ne hr] at hr' ⊢
      exact h.null r' hr'
  · by_cases hcb : c = b
    · rw [hcb] at hc ⊢
      exact hb hc
    · exact (h.fresh c ((hlive c hcb).mp hc)).trans_le hissued
  · rw [hptr] at hc
    by_cases hr : r' = r
    · subst hr
      rw [Function.update_self] at hc
      exact hx c hc
    · rw [Function.update_of_ne hr] at hc
      exact (h.known r' c hc).trans_le hissued

/-- A number that has not been issued is in no record. -/
theorem Sound.unknown {book : Book} {s : Viewer Φ} (h : Sound book s) {b : Nat}
    (hnew : s.issued ≤ b) (r : Nat) : s.aucPixelDatas r ≠ some b :=
  fun hat => absurd (h.known r b hat) (by omega)

/-- No data are handed out or back, and the record has none. -/
theorem Sound.keep {book : Book} {s t : Viewer Φ} {r : Nat} {mark : Mark} {x : Option Nat}
    (h : Sound book s) (hissued : s.issued ≤ t.issued) (hpixels : t.pixels = s.pixels)
    (hptr : t.aucPixelDatas = Function.update s.aucPixelDatas r x)
    (hdead : ∀ c ∈ s.pixels.live, s.aucPixelDatas r ≠ some c)
    (hx : ∀ c, x = some c → s.issued ≤ c ∧ c < t.issued) (hmark : mark ≠ .filled)
    (hclear : mark = .clear → x = none) : Sound (Function.update book r mark) t := by
  have hnone : ∀ c ∈ s.pixels.live, x ≠ some c := by
    intro c hc hat
    have := h.fresh c hc
    have := (hx c hat).1
    omega
  have howned : Blocks.Owned t.pixels.live t.aucPixelDatas := by
    rw [hpixels, hptr]
    exact h.owned.retarget hdead hnone
  refine h.retarget (by rw [hpixels, h.clean]) howned hissued (b := s.issued) ?_ ?_
    (fun r' _ => h.unknown (Nat.le_refl _) r') hptr (fun c hat => (hx c hat).2) ?_ hclear
  · intro c _
    rw [hpixels]
  · rw [hpixels]
    intro hc
    exact absurd (h.fresh _ hc) (Nat.lt_irrefl _)
  · rw [hpixels]
    exact iff_of_false hmark fun hat => by
      obtain ⟨c, hc, hat⟩ := hat
      exact hnone c hc hat

/-- **Filling a cleared record**, by the result of the call. -/
theorem Sound.fills {book : Book} {s : Viewer Φ} {answer : Int32 × Viewer Φ} {r : Nat}
    (h : Sound book s) (hmark : book r = .clear) (hfills : Fills s answer r) :
    Sound (Function.update book r (if answer.1 = 0 then .filled else .spent)) answer.2 := by
  have hnull := h.null r hmark
  have hempty : ∀ c ∈ s.pixels.live, s.aucPixelDatas r ≠ some c := by
    intro c _ hc
    rw [hnull] at hc
    cases hc
  cases hfills with
  | failed hret hissued hpixels hptr =>
      have hsame : answer.2.aucPixelDatas = Function.update s.aucPixelDatas r none := by
        rw [hptr, ← hnull, Function.update_eq_self]
      rw [if_neg hret]
      exact h.keep hissued hpixels hsame hempty (fun c hc => by cases hc) (by decide)
        (fun _ => rfl)
  | filled b hret hnew hissued hpixels hptr =>
      have hout : b ∉ s.pixels.live := fun hb => absurd (h.fresh b hb) (by omega)
      have howned : Blocks.Owned answer.2.pixels.live answer.2.aucPixelDatas := by
        rw [hpixels, hptr]
        exact h.owned.give hempty hout (h.unknown hnew)
      rw [if_pos hret]
      refine h.retarget (by rw [hpixels]; exact h.clean) howned (hnew.trans hissued.le) (b := b)
        ?_ (fun _ => hissued) (fun r' _ => h.unknown hnew r') hptr ?_ ?_ (fun hc => by cases hc)
      · intro c hne
        rw [hpixels]
        exact List.mem_cons.trans (or_iff_right hne)
      · intro c hc
        rwa [← Option.some.inj hc]
      · rw [hpixels]
        exact iff_of_true rfl ⟨b, List.mem_cons_self, rfl⟩
  | freed b hret hnew hissued hpixels hptr =>
      rw [if_neg hret]
      refine h.keep (hnew.trans hissued.le) hpixels hptr hempty ?_ (by decide)
        (fun hc => by cases hc)
      intro c hc
      rw [← Option.some.inj hc]
      exact ⟨hnew, hissued⟩

/-- **Freeing a filled record** is no wrong free. -/
theorem Sound.freePixels {book : Book} {s : Viewer Φ} {r : Nat} (h : Sound book s)
    (hmark : book r = .filled) : Sound (Function.update book r .spent) (s.freePixels r) := by
  obtain ⟨b, hb, hptr⟩ := (h.filled r).mp hmark
  have hfree : s.pixels.free b = { s.pixels with live := s.pixels.live.erase b } := by
    rw [Blocks.free, if_pos hb]
  have hgone : b ∉ s.pixels.live.erase b := h.owned.nodup.not_mem_erase
  obtain ⟨owner, -, hunique⟩ := h.owned.owner b hb
  rw [freePixels_of_some hptr, hfree]
  refine h.retarget (x := some b) (b := b) h.clean (h.owned.free b) (Nat.le_refl _) ?_
    (fun hin => absurd hin hgone) ?_ ?_ ?_ ?_ (fun hc => by cases hc)
  · intro c hne
    exact List.mem_erase_of_ne hne
  · intro r' hr hat
    exact hr ((hunique r' hat).trans (hunique r hptr).symm)
  · rw [← hptr, Function.update_eq_self]
  · intro c hc
    exact h.known r c (hptr.trans hc)
  · refine iff_of_false (by decide) fun hat => ?_
    obtain ⟨c, hc, hbc⟩ := hat
    exact hgone (Option.some.inj hbc ▸ hc)

/-- **Clearing a record** that is not filled. -/
theorem Sound.setNull {book : Book} {s : Viewer Φ} {r : Nat} (h : Sound book s)
    (hmark : book r ≠ .filled) : Sound (Function.update book r .clear) (s.setNull r) := by
  refine h.keep (x := none) (Nat.le_refl _) rfl rfl ?_ (fun c hc => by cases hc) (by decide)
    (fun _ => rfl)
  intro c hc hat
  exact hmark ((h.filled r).mpr ⟨c, hc, hat⟩)

/-- Asking whether a file is supported does not touch the pixel data. -/
theorem supported_pixels (m : FileMapper Φ τ) (f : PicFile) (s : Viewer Φ) :
    let t := (isPictureFileSupported m f s).2
    s.issued ≤ t.issued ∧ t.pixels = s.pixels ∧ t.aucPixelDatas = s.aucPixelDatas := by
  have hparser := getParser_pixels f { s with files := (m.mapFile f s.files).2.2 }
  unfold isPictureFileSupported
  simp only
  split
  · exact ⟨Nat.le_refl _, rfl, rfl⟩
  · split <;> exact hparser

/-- **Step lemma.** -/
theorem Sound.run (m : FileMapper Φ τ) {book : Book} {s : Viewer Φ} (h : Sound book s) {c : Call}
    (hallows : book.Allows c) : Sound (book.note (c.run m s).1 c) (c.run m s).2 := by
  cases c with
  | isPictureFileSupported f =>
      obtain ⟨hissued, hpixels, hptr⟩ := supported_pixels m f s
      refine ⟨?_, ?_, ?_, ?_, ?_, ?_⟩ <;> simp only [Call.run, Book.note, hpixels, hptr]
      · exact h.clean
      · exact h.owned
      · exact h.filled
      · exact h.null
      · exact fun b hb => (h.fresh b hb).trans_le hissued
      · exact fun r b hb => (h.known r b hb).trans_le hissued
  | getPixelDatasFrmFile f r =>
      exact h.fills hallows (getPixelDatasFrmFile_fills m (h.null r hallows))
  | getPixelDatasForIcon f r =>
      exact h.fills hallows (getPixelDatasForIcon_fills m (h.null r hallows))
  | freePixelDatasFrmFile r => exact h.freePixels hallows
  | freePixelDatasForIcon r => exact h.freePixels hallows
  | clear r => exact h.setNull hallows

/-- **Run lemma.** -/
theorem Sound.runs (m : FileMapper Φ τ) {calls : List Call} {book : Book} {s : Viewer Φ}
    (h : Sound book s) (hcareful : Careful m calls book s) :
    Sound (bookAfter m calls book s) (runs m calls s) := by
  induction calls generalizing book s with
  | nil => exact h
  | cons c rest ih => exact ih (h.run m hcareful.1) hcareful.2

/-- With nothing allocated, every record is clear. -/
theorem sound_start (φ : Φ) : Sound (fun _ => .clear) ({ files := φ } : Viewer Φ) where
  clean := rfl
  owned := ⟨List.nodup_nil, fun b hb => absurd hb List.not_mem_nil⟩
  filled := by
    intro r
    refine iff_of_false (by decide) ?_
    rintro ⟨b, hb, -⟩
    exact absurd hb List.not_mem_nil
  null := fun _ _ => rfl
  fresh := fun b hb => absurd hb List.not_mem_nil
  known := by
    intro r b hb
    cases hb

/-- **What is left of picture files.**  After any calls the mappings are as they were and no
decoder has been destroyed twice; one decoder is left for every time that `libjpeg` has read a
header in the search for a parser, and further ones, with their line buffers, where memory was
short; a line buffer has been freed twice wherever `jpeg_finish_decompress` failed and its
address had been kept.  With a caller who goes by the return values, moreover, no pixel data
have been freed twice, and those that are left are one for each record that was filled and has
not been freed. -/
theorem picture_files_accounted (m : FileMapper Φ τ) (φ : Φ) (calls : List Call) :
    let s := runs m calls { files := φ }
    s.files = φ ∧ s.decoders.wrong = [] ∧
      s.decoders.live.length = (calls.map (Call.leftDecoders m φ)).sum ∧
      s.lines.live.length = (calls.map (Call.leftLines m φ)).sum ∧
      s.lines.wrong.length = (calls.map (Call.doubleFrees m φ)).sum ∧
      (Careful m calls (fun _ => .clear) { files := φ } →
        let book := bookAfter m calls (fun _ => .clear) { files := φ }
        s.pixels.wrong = [] ∧
        (∀ b ∈ s.pixels.live, ∃! r, s.aucPixelDatas r = some b) ∧
        ∀ r, book r = .filled ↔ ∃ b ∈ s.pixels.live, s.aucPixelDatas r = some b) := by
  intro s
  have hstart : Viewer.Fresh ({ files := φ } : Viewer Φ) := fun b hb => absurd hb List.not_mem_nil
  have haccounts := runs_accounts m calls hstart
  refine ⟨haccounts.files, haccounts.wrongDecoders, ?_, ?_, ?_, ?_⟩
  · simpa using haccounts.decoders
  · simpa using haccounts.lines
  · simpa using haccounts.wrongLines
  · intro hcareful book
    have hsound := (sound_start φ).runs m hcareful
    exact ⟨hsound.clean, hsound.owned.owner, hsound.filled⟩

/-- A JPEG picture. -/
def jpegFile (decoding : Decoding) : PicFile where
  bytes := fun _ => 0xFF
  header := .read JPEG_HEADER_OK
  decoding := decoding

/-- Files that can all be mapped, one on top of the other. -/
def stackMapper : FileMapper Nat Unit where
  mapFile := fun _ n => (0, (), n + 1)
  unMapFile := fun _ n => n - 1
  failed := fun _ _ h => absurd rfl h
  undone := fun _ _ _ => rfl

/-- A picture is looked at and put away; the next one breaks off, and the one after that is
shown. -/
def threePictures : List Call :=
  [.isPictureFileSupported (jpegFile .completes), .getPixelDatasFrmFile (jpegFile .completes) 0,
    .freePixelDatasFrmFile 0, .clear 0, .getPixelDatasFrmFile (jpegFile .scanlineFails) 0,
    .getPixelDatasFrmFile (jpegFile .completes) 1]

/-- Four decoders are left, nothing is freed twice, and record 1 has its data. -/
theorem three_pictures_accounted :
    (runs stackMapper threePictures { files := 5 }).files = 5 ∧
      (runs stackMapper threePictures { files := 5 }).decoders.live.length = 4 ∧
      (runs stackMapper threePictures { files := 5 }).pixels.wrong = [] ∧
      ∃ b ∈ (runs stackMapper threePictures { files := 5 }).pixels.live,
        (runs stackMapper threePictures { files := 5 }).aucPixelDatas 1 = some b := by
  have hcareful : Careful stackMapper threePictures (fun _ => .clear) { files := 5 } :=
    ⟨trivial, rfl, rfl, by decide, rfl, rfl, trivial⟩
  obtain ⟨hfiles, -, hdecoders, -, -, hsound⟩ :=
    picture_files_accounted stackMapper 5 threePictures
  obtain ⟨hclean, -, hfilled⟩ := hsound hcareful
  exact ⟨hfiles, hdecoders.trans (by decide), hclean, (hfilled 1).mp (by decide)⟩

/-- The record is not cleared in between, and the pixel data are freed twice. -/
example : (runs stackMapper [.getPixelDatasFrmFile (jpegFile .completes) 0,
    .freePixelDatasFrmFile 0, .getPixelDatasFrmFile (jpegFile .openFails) 0]
      { files := 0 }).pixels.wrong ≠ [] := by decide

end Video2lcd.PictureFiles
