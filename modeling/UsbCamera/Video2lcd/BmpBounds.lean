import UsbCamera.Video2lcd.Bmp

/-!
# BMP files that are too short

Neither `isBMPFormat` nor `GetPixelDatasFrmBMP` asks how long the file is.  Which files are
parsed without leaving them is therefore a matter of what is in them: the two bytes of the
signature, the header if the signature is there, and all pixels if the header is accepted and
there is memory for the picture.

`bmp_parse_safe_iff` says so for every header.  The sizes in it are unsigned numbers of 32 bits
that the code takes for `int`s, and multiplies as `int`s.  A size that turns negative describes
more pixels than a file can have, and such a header is answered with 0.  Where only a product
overflows, the step from line to line of the file, or of the block, is not what it should be;
the condition has the steps as they are computed.  Without overflow they are as they should be,
and what is left is that the pixels are in the file (`Parsable.of_sizes`).
-/

namespace Video2lcd.Bmp

open ByteStore CInt Raster Address

/-- The header and the pixels that it describes are in the file. -/
def Fits (file : Nat → UInt8) (length : Nat) : Prop := 54 ≤ length ∧ ArrayInside file length

/-- A file of `length` bytes has been parsed safely: loads stay inside the file and stores
inside the block, a header that does not fit the file is answered with a negative result, and
no block is left behind with such a result. -/
structure Safe (file : Nat → UInt8) (length : Nat) (parsed : Parsed) : Prop where
  reads : ∀ a, Reads parsed.trace a → a < length
  writes : ∀ a, Writes parsed.trace a → ∃ size, parsed.held = some size ∧ a < size
  answered : ¬ Fits file length → parsed.ret < 0
  released : parsed.ret < 0 → parsed.held = none

/-- The file is one whose pixels are converted: the signature and the depth are right and
there is memory. -/
structure Reaches (malloc : Malloc) (file : Nat → UInt8) (iBpp : Int32) : Prop where
  first : file 0 = 0x42
  second : file 1 = 0x4d
  count : biBitCount file = 24
  memory : malloc (totalBytes file iBpp) ≠ none

/-- Where the code looks for the line that has `row` lines before it in the file. -/
def lineSrc (file : Nat → UInt8) (row : Nat) : UInt32 :=
  bfOffBits file +
    UInt32.ofNat row * (((biWidth file).toInt32 * 24 / 8 + 3) &&& ~~~3).toUInt32

/-- Where in the block it puts line `y` of the picture. -/
def lineDst (file : Nat → UInt8) (iBpp : Int32) (y : Nat) : UInt32 :=
  0 + UInt32.ofNat y * ((biWidth file).toInt32 * iBpp / 8).toUInt32

/-- What is asked of a file of `length` bytes: that the bytes are there which are looked at,
and, if it comes to the pixels, that the header fits the file, that every line is in the file
where it is looked for, and that every line of a known depth is put inside the block. -/
structure Parsable (malloc : Malloc) (file : Nat → UInt8) (iBpp : Int32) (length : Nat) :
    Prop where
  first : 1 ≤ length
  second : file 0 = 0x42 → 2 ≤ length
  header : file 0 = 0x42 → file 1 = 0x4d → 30 ≤ length
  fits : Reaches malloc file iBpp → Fits file length
  rows : Reaches malloc file iBpp → 0 < width file → ∀ row < height file,
    (lineSrc file row).toNat + 3 * width file ≤ length
  block : Reaches malloc file iBpp → 0 < width file → ∀ p, Depth iBpp p → ∀ y < height file,
    (lineDst file iBpp y).toNat + width file * p ≤ totalBytes file iBpp

/-! ## How a call can end -/

theorem getPixelDatasFrmFile_first {file : Nat → UInt8} (h : file 0 ≠ 0x42) (malloc : Malloc)
    (iBpp : Int32) (pic : PixelDatas Data) :
    getPixelDatasFrmFile malloc file iBpp pic = ⟨-1, [.load 0 1], none, pic⟩ := by
  unfold getPixelDatasFrmFile isBMPFormat
  rw [if_pos h]
  rfl

theorem getPixelDatasFrmFile_second {file : Nat → UInt8} (h : file 0 = 0x42) (h' : file 1 ≠ 0x4d)
    (malloc : Malloc) (iBpp : Int32) (pic : PixelDatas Data) :
    getPixelDatasFrmFile malloc file iBpp pic = ⟨-1, [.load 0 1, .load 1 1], none, pic⟩ := by
  unfold getPixelDatasFrmFile isBMPFormat
  rw [if_neg (not_not_intro h), if_pos h']
  rfl

theorem getPixelDatasFrmFile_parsed {malloc : Malloc} {file : Nat → UInt8} {iBpp : Int32}
    {pic : PixelDatas Data} {parsed : Parsed} (h : file 0 = 0x42) (h' : file 1 = 0x4d)
    (hparsed : getPixelDatasFrmBMP malloc file { pic with iBpp := iBpp } = parsed) :
    getPixelDatasFrmFile malloc file iBpp pic =
      { parsed with
        ret := if parsed.ret ≠ 0 then -1 else 0
        trace := .load 0 1 :: .load 1 1 :: parsed.trace } := by
  unfold getPixelDatasFrmFile isBMPFormat
  rw [if_neg (not_not_intro h), if_neg (not_not_intro h')]
  simp only [hparsed]
  rfl

/-- A file with the signature whose pixels are not converted is refused after its header. -/
theorem getPixelDatasFrmFile_refused {malloc : Malloc} {file : Nat → UInt8} {iBpp : Int32}
    (h : file 0 = 0x42) (h' : file 1 = 0x4d) (hnot : ¬ Reaches malloc file iBpp)
    (pic : PixelDatas Data) :
    ∃ left, getPixelDatasFrmFile malloc file iBpp pic =
      ⟨-1, .load 0 1 :: .load 1 1 :: headerLoads, none, left⟩ := by
  by_cases hcount : biBitCount file = 24
  · have hmalloc : malloc (totalBytes file iBpp) = none := by
      by_contra hmemory
      exact hnot ⟨h, h', hcount, hmemory⟩
    obtain ⟨left, hfailed⟩ : ∃ left, getPixelDatasFrmBMP malloc file { pic with iBpp := iBpp } =
        ⟨-1, headerLoads, none, left⟩ := getPixelDatasFrmBMP_failed hcount hmalloc
    exact ⟨left, getPixelDatasFrmFile_parsed h h' hfailed⟩
  · exact ⟨_, getPixelDatasFrmFile_parsed h h' (getPixelDatasFrmBMP_refused hcount malloc _)⟩

theorem getPixelDatasFrmFile_done {malloc : Malloc} {file : Nat → UInt8} {iBpp : Int32}
    (h : Reaches malloc file iBpp) (pic : PixelDatas Data) :
    ∃ done, getPixelDatasFrmFile malloc file iBpp pic =
      ⟨0, .load 0 1 :: .load 1 1 :: (headerLoads ++ bmpTrace file iBpp),
        some (totalBytes file iBpp), done⟩ := by
  obtain ⟨bytes, hmalloc⟩ := Option.ne_none_iff_exists'.mp h.memory
  exact ⟨_, getPixelDatasFrmFile_parsed h.first h.second
    (getPixelDatasFrmBMP_done h.count hmalloc)⟩

/-! ## One line -/

/-- **A line is in the file** exactly if it begins there and has room. -/
theorem line_reads_lt_iff {file : Nat → UInt8} {iWidth iBpp : Int32} {w length : Nat}
    (hw : iWidth.toInt = w) (hpos : 0 < w) (hline : 3 * w < 2 ^ 32) (hlength : length < 2 ^ 32)
    (src dst : UInt32) :
    (∀ a, Reads (covertOneLine file iWidth 24 iBpp src dst).2 a → a < length) ↔
      src.toNat + 3 * w ≤ length := by
  constructor
  · intro h
    have hlt := src.toNat_lt
    have hstart := h _ (reads_covertOneLine_at hw hline (k := 0) (by omega) (by omega) dst)
    by_contra hover
    -- the first byte behind the file
    have hbehind := h _ (reads_covertOneLine_at hw hline (k := length - src.toNat) (by omega)
      (by omega) dst)
    omega
  · intro h a ha
    rw [reads_covertOneLine hw (by omega)] at ha
    omega

/-- A pixel of a known depth is stored where the pointer is. -/
theorem stores_covertPixel_at {iBpp : Int32} {p : Nat} (hdepth : Depth iBpp p)
    (hloop : iBpp ≠ 24) (file : Nat → UInt8) (src pos dst : UInt32) :
    ∃ bytes, stores (covertPixel file iBpp src pos dst) = [(dst.toNat, bytes)] ∧
      bytes.length = p := by
  cases hdepth with
  | rgb565 => exact ⟨_, rfl, rfl⟩
  | rgb24 => exact absurd rfl hloop
  | rgb32 => exact ⟨_, rfl, rfl⟩

/-- A line is stored byte after byte, wherever it goes, as far as the addresses do not wrap
around. -/
theorem writes_covertOneLine_at {file : Nat → UInt8} {iWidth iBpp : Int32} {p w : Nat}
    (hdepth : Depth iBpp p) (hw : iWidth.toInt = w) (hline : 3 * w < 2 ^ 32) {dst : UInt32}
    {k : Nat} (hk : k < w * p) (hd : dst.toNat + k < 2 ^ 32) (src : UInt32) :
    Writes (covertOneLine file iWidth 24 iBpp src dst).2 (dst.toNat + k) := by
  by_cases hcopy : iBpp = 24
  · rw [hcopy] at hdepth ⊢
    cases hdepth
    rw [covertOneLine_copy hw hline]
    refine ⟨_, List.mem_cons_self, by omega, ?_⟩
    simp only [length_read]
    omega
  · have hstep : (dstStep iBpp).toNat = p := by
      cases hdepth with
      | rgb565 => rfl
      | rgb24 => exact absurd rfl hcopy
      | rgb32 => rfl
    have hp : 0 < p := Nat.pos_of_ne_zero fun hzero => by simp [hzero] at hk
    have hdiv : k / p * p ≤ k := Nat.div_mul_le_self k p
    have hrest : k < k / p * p + p := Nat.lt_div_mul_add hp
    have haddr : (dst + UInt32.ofNat (k / p) * dstStep iBpp).toNat = dst.toNat + k / p * p := by
      rw [toNat_step (by rw [hstep]; omega), hstep]
    obtain ⟨bytes, hstores, hlen⟩ := stores_covertPixel_at hdepth hcopy file src
      (0 + UInt32.ofNat (k / p) * 3) (dst + UInt32.ofNat (k / p) * dstStep iBpp)
    rw [covertOneLine_loop hw hcopy, covertPixels_eq, writes_flatMap]
    refine ⟨k / p, List.mem_range.mpr (Nat.div_lt_of_lt_mul (by rw [Nat.mul_comm]; exact hk)),
      _, by rw [hstores]; exact List.mem_cons_self, ?_, ?_⟩
    · simp only [haddr]
      omega
    · simp only [haddr, hlen]
      omega

/-- **A line is stored in the block** exactly if it begins there and has room. -/
theorem line_writes_lt_iff {file : Nat → UInt8} {iWidth iBpp : Int32} {p w size : Nat}
    (hdepth : Depth iBpp p) (hw : iWidth.toInt = w) (hpos : 0 < w) {src : UInt32}
    (hs : src.toNat + 3 * w < 2 ^ 32) (hsize : size < 2 ^ 32) (dst : UInt32) :
    (∀ a, Writes (covertOneLine file iWidth 24 iBpp src dst).2 a → a < size) ↔
      dst.toNat + w * p ≤ size := by
  have hp : 0 < p := by cases hdepth <;> decide
  have hbytes : 0 < w * p := Nat.mul_pos hpos hp
  constructor
  · intro h
    have hlt := dst.toNat_lt
    have hstart := h _ (writes_covertOneLine_at hdepth hw (by omega) (k := 0) hbytes (by omega) src)
    by_contra hover
    have hbehind := h _ (writes_covertOneLine_at hdepth hw (by omega) (k := size - dst.toNat)
      (by omega) (by omega) src)
    omega
  · intro h a ha
    have hin := writes_covertOneLine hdepth hw hs (by omega) ha
    omega

/-! ## All lines -/

/-- The loads of the header. -/
theorem reads_header_lt_iff {length : Nat} (trace : List (Access UInt8)) :
    (∀ a, Reads (.load 0 1 :: .load 1 1 :: (headerLoads ++ trace)) a → a < length) ↔
      30 ≤ length ∧ ∀ a, Reads trace a → a < length := by
  unfold headerLoads
  simp only [List.cons_append, List.nil_append]
  rw [reads_lt_load (by decide), reads_lt_load (by decide), reads_lt_load (by decide),
    reads_lt_load (by decide), reads_lt_load (by decide)]
  constructor
  · intro h
    exact ⟨h.2.2.2.2.1, h.2.2.2.2.2⟩
  · intro h
    have := h.1
    exact ⟨by omega, by omega, by omega, by omega, by omega, h.2⟩

/-- Nothing is stored before the pixels. -/
theorem writes_header_iff (trace : List (Access UInt8)) (a : Nat) :
    Writes (.load 0 1 :: .load 1 1 :: (headerLoads ++ trace)) a ↔ Writes trace a := by
  simp only [headerLoads, List.cons_append, List.nil_append, writes_load]

/-- A header with pixels that fits a file has sizes that are no negative `int`s. -/
theorem Fits.sizes {file : Nat → UInt8} {length : Nat} (h : Fits file length)
    (hlength : length < 2 ^ 32) (hw : 0 < width file) (hh : 0 < height file) :
    (biWidth file).toInt32.toInt = width file ∧ (biHeight file).toInt32.toInt = height file ∧
      3 * width file < 2 ^ 32 := by
  have hin := h.2 hw hh
  have hrow : 4 ≤ rowBytes (width file) := by
    unfold rowBytes
    omega
  have hlines : (height file - 1) * 4 ≤ (height file - 1) * rowBytes (width file) :=
    Nat.mul_le_mul_left _ hrow
  unfold rowAt at hin
  refine ⟨toInt_of_field ?_, toInt_of_field ?_, by omega⟩
  · show width file < 2 ^ 31
    omega
  · show height file < 2 ^ 31
    omega

/-- The loads and stores of a file with pixels that fits. -/
theorem bmpTrace_lines {file : Nat → UInt8} (hh : (biHeight file).toInt32.toInt = height file)
    (iBpp : Int32) :
    bmpTrace file iBpp = .load 10 4 :: (List.range (height file)).flatMap fun y =>
      (covertOneLine file (biWidth file).toInt32 24 iBpp (lineSrc file (height file - 1 - y))
        (lineDst file iBpp y)).2 :=
  pixelTrace_lines hh _ _ _

/-- A picture without columns or without lines has no pixels to convert. -/
theorem covertLines_empty {file : Nat → UInt8} {iWidth iBpp : Int32} {A L : UInt32} {n : Nat}
    (h : iWidth = 0 ∨ n = 0) (src dst : UInt32) (a : Nat) :
    ¬ Reads (covertLines file iWidth 24 iBpp A L n src dst) a ∧
      ¬ Writes (covertLines file iWidth 24 iBpp A L n src dst) a := by
  rcases h with rfl | rfl
  · have hline : ∀ s d : UInt32, ¬ Reads (covertOneLine file 0 24 iBpp s d).2 a ∧
        ¬ Writes (covertOneLine file 0 24 iBpp s d).2 a := by
      intro s d
      by_cases hcopy : iBpp = 24
      · rw [hcopy, covertOneLine_copy (w := 0) rfl (by decide)]
        simp [Writes, ByteStore.read]
      · rw [covertOneLine_loop (w := 0) rfl hcopy]
        simp [covertPixels, Writes]
    induction n generalizing src dst with
    | zero => simp [covertLines, Writes]
    | succ n ih =>
        obtain ⟨hreads, hwrites⟩ := ih (src - A) (dst + L)
        rw [covertLines, reads_append]
        refine ⟨fun hread => hread.elim (hline src dst).1 hreads, ?_⟩
        rintro ⟨piece, hpiece, hin⟩
        rw [stores_append] at hpiece
        rcases List.mem_append.mp hpiece with hhere | hlater
        · exact (hline src dst).2 ⟨piece, hhere, hin⟩
        · exact hwrites ⟨piece, hlater, hin⟩
  · simp [covertLines, Writes]

/-- What is then read of the file, and stored. -/
theorem bmpTrace_empty {file : Nat → UInt8} {iBpp : Int32}
    (h : width file = 0 ∨ height file = 0) (a : Nat) :
    (Reads (bmpTrace file iBpp) a → a < 14) ∧ ¬ Writes (bmpTrace file iBpp) a := by
  have hempty : (biWidth file).toInt32 = 0 ∨ (biHeight file).toInt32.toInt.toNat = 0 := by
    rcases h with hw | hh
    · left
      rw [show biWidth file = 0 from UInt32.toNat_inj.mp hw]
      rfl
    · right
      rw [show biHeight file = 0 from UInt32.toNat_inj.mp hh]
      rfl
  unfold bmpTrace pixelTrace
  simp only [reads_load, writes_load]
  refine ⟨fun hread => ?_, (covertLines_empty hempty _ _ a).2⟩
  rcases hread with hoff | hlater
  · omega
  · exact absurd hlater (covertLines_empty hempty _ _ a).1

/-- **The loads of the pixels** stay in the file exactly if every line is where it is looked
for. -/
theorem bmpTrace_reads_lt_iff {file : Nat → UInt8} {iBpp : Int32} {length : Nat}
    (hfits : Fits file length) (hlength : length < 2 ^ 32) :
    (∀ a, Reads (bmpTrace file iBpp) a → a < length) ↔
      (0 < width file → ∀ row < height file,
        (lineSrc file row).toNat + 3 * width file ≤ length) := by
  have hlong := hfits.1
  by_cases hpixels : 0 < width file ∧ 0 < height file
  · obtain ⟨hw, hh⟩ := hpixels
    obtain ⟨hwidth, hheight, hline⟩ := hfits.sizes hlength hw hh
    rw [bmpTrace_lines hheight, reads_lt_load (by decide)]
    simp only [reads_flatMap, List.mem_range]
    constructor
    · rintro ⟨-, h⟩ - row hrow
      rw [← line_reads_lt_iff hwidth hw hline hlength (lineSrc file row)
        (lineDst file iBpp (height file - 1 - row))]
      intro a ha
      refine h a ⟨height file - 1 - row, by omega, ?_⟩
      rwa [show height file - 1 - (height file - 1 - row) = row by omega]
    · intro h
      refine ⟨by omega, fun a ha => ?_⟩
      obtain ⟨y, hy, hread⟩ := ha
      exact (line_reads_lt_iff hwidth hw hline hlength _ _).mpr (h hw _ (by omega)) a hread
  · have hempty : width file = 0 ∨ height file = 0 := by omega
    constructor
    · intro _ hw row hrow
      omega
    · intro _ a ha
      have hlow := (bmpTrace_empty hempty a).1 ha
      omega

/-- **The stores** stay in the block exactly if every line of a known depth is put there. -/
theorem bmpTrace_writes_lt_iff {file : Nat → UInt8} {iBpp : Int32} {length : Nat}
    (hfits : Fits file length) (hlength : length < 2 ^ 32)
    (hrows : 0 < width file → ∀ row < height file,
      (lineSrc file row).toNat + 3 * width file ≤ length) :
    (∀ a, Writes (bmpTrace file iBpp) a → a < totalBytes file iBpp) ↔
      (0 < width file → ∀ p, Depth iBpp p → ∀ y < height file,
        (lineDst file iBpp y).toNat + width file * p ≤ totalBytes file iBpp) := by
  have hsize : totalBytes file iBpp < 2 ^ 32 := UInt32.toNat_lt _
  by_cases hpixels : 0 < width file ∧ 0 < height file
  · obtain ⟨hw, hh⟩ := hpixels
    obtain ⟨hwidth, hheight, hline⟩ := hfits.sizes hlength hw hh
    have hsrc : ∀ y < height file,
        (lineSrc file (height file - 1 - y)).toNat + 3 * width file < 2 ^ 32 := by
      intro y hy
      have := hrows hw (height file - 1 - y) (by omega)
      omega
    rw [bmpTrace_lines hheight]
    simp only [writes_load, writes_flatMap, List.mem_range]
    constructor
    · intro h _ p hdepth y hy
      rw [← line_writes_lt_iff hdepth hwidth hw (hsrc y hy) hsize]
      exact fun a ha => h a ⟨y, hy, ha⟩
    · rintro h a ⟨y, hy, hwrite⟩
      by_cases hknown : ∃ p, Depth iBpp p
      · obtain ⟨p, hdepth⟩ := hknown
        exact (line_writes_lt_iff hdepth hwidth hw (hsrc y hy) hsize _).mpr (h hw p hdepth y hy)
          a hwrite
      · obtain ⟨piece, hpiece, -⟩ := hwrite
        rw [stores_covertOneLine_other fun p hp => hknown ⟨p, hp⟩] at hpiece
        cases hpiece
  · have hempty : width file = 0 ∨ height file = 0 := by omega
    constructor
    · intro _ hw p _ y hy
      omega
    · intro _ a ha
      exact absurd ha (bmpTrace_empty hempty a).2

/-! ## Which files are parsed safely -/

/-- Refusing a file is safe exactly if the bytes that were looked at are there. -/
theorem safe_refused_iff {file : Nat → UInt8} {length : Nat} {trace : List (Access UInt8)}
    {left : PixelDatas Data} (hstores : stores trace = []) :
    Safe file length ⟨-1, trace, none, left⟩ ↔ ∀ a, Reads trace a → a < length := by
  refine ⟨fun h => h.reads, fun hreads => ⟨hreads, ?_, fun _ => ?_, fun _ => rfl⟩⟩
  · rintro a ⟨piece, hpiece, -⟩
    rw [hstores] at hpiece
    cases hpiece
  · show (-1 : Int32) < 0
    decide

/-- Converting the pixels is safe exactly if the header fits the file and the lines are where
they are looked for and put. -/
theorem safe_done_iff {file : Nat → UInt8} {iBpp : Int32} {length : Nat} {done : PixelDatas Data}
    (hlength : length < 2 ^ 32) :
    Safe file length ⟨0, .load 0 1 :: .load 1 1 :: (headerLoads ++ bmpTrace file iBpp),
        some (totalBytes file iBpp), done⟩ ↔
      Fits file length ∧
      (0 < width file → ∀ row < height file,
        (lineSrc file row).toNat + 3 * width file ≤ length) ∧
      (0 < width file → ∀ p, Depth iBpp p → ∀ y < height file,
        (lineDst file iBpp y).toNat + width file * p ≤ totalBytes file iBpp) := by
  have hnonneg : ¬ (0 : Int32) < 0 := by decide
  constructor
  · intro h
    have hfits : Fits file length := by
      by_contra hnot
      exact hnonneg (h.answered hnot)
    have hreads := (reads_header_lt_iff _).mp h.reads
    have hrows := (bmpTrace_reads_lt_iff hfits hlength).mp hreads.2
    refine ⟨hfits, hrows, (bmpTrace_writes_lt_iff hfits hlength hrows).mp fun a ha => ?_⟩
    obtain ⟨size, hsize, hlt⟩ := h.writes a ((writes_header_iff _ a).mpr ha)
    obtain rfl := Option.some.inj hsize
    exact hlt
  · rintro ⟨hfits, hrows, hblock⟩
    have hlong := hfits.1
    refine ⟨(reads_header_lt_iff _).mpr ⟨by omega, (bmpTrace_reads_lt_iff hfits hlength).mpr hrows⟩,
      fun a ha => ?_, fun hnot => absurd hfits hnot, fun hneg => absurd hneg hnonneg⟩
    exact ⟨_, rfl, (bmpTrace_writes_lt_iff hfits hlength hrows).mpr hblock a
      ((writes_header_iff _ a).mp ha)⟩

/-- **Which files are parsed safely.**  For every file that can be mapped, whatever its header
says, parsing is safe exactly if every byte is there that it goes for and every line of the
picture is put inside the block. -/
theorem bmp_parse_safe_iff {malloc : Malloc} {file : Nat → UInt8} {iBpp : Int32} {length : Nat}
    (hlength : length < 2 ^ 32) (pic : PixelDatas Data) :
    Safe file length (getPixelDatasFrmFile malloc file iBpp pic) ↔
      Parsable malloc file iBpp length := by
  by_cases hfirst : file 0 = 0x42
  · by_cases hsecond : file 1 = 0x4d
    · by_cases hreach : Reaches malloc file iBpp
      · obtain ⟨done, hdone⟩ := getPixelDatasFrmFile_done hreach pic
        rw [hdone, safe_done_iff hlength]
        constructor
        · rintro ⟨hfits, hrows, hblock⟩
          have hlong := hfits.1
          exact ⟨by omega, fun _ => by omega, fun _ _ => by omega, fun _ => hfits, fun _ => hrows,
            fun _ => hblock⟩
        · intro h
          exact ⟨h.fits hreach, h.rows hreach, h.block hreach⟩
      · obtain ⟨left, hleft⟩ := getPixelDatasFrmFile_refused hfirst hsecond hreach pic
        rw [hleft, safe_refused_iff rfl, ← List.append_nil headerLoads, reads_header_lt_iff]
        constructor
        · rintro ⟨hheader, -⟩
          exact ⟨by omega, fun _ => by omega, fun _ _ => hheader, fun h => absurd h hreach,
            fun h => absurd h hreach, fun h => absurd h hreach⟩
        · intro h
          exact ⟨h.header hfirst hsecond, fun a ha => absurd ha (reads_nil a)⟩
    · have hreach : ¬ Reaches malloc file iBpp := fun h => hsecond h.second
      rw [getPixelDatasFrmFile_second hfirst hsecond, safe_refused_iff rfl,
        reads_lt_load (by decide), reads_lt_load (by decide)]
      constructor
      · rintro ⟨hone, htwo, -⟩
        exact ⟨hone, fun _ => htwo, fun _ h => absurd h hsecond, fun h => absurd h hreach,
          fun h => absurd h hreach, fun h => absurd h hreach⟩
      · intro h
        exact ⟨h.first, h.second hfirst, fun a ha => absurd ha (reads_nil a)⟩
  · have hreach : ¬ Reaches malloc file iBpp := fun h => hfirst h.first
    rw [getPixelDatasFrmFile_first hfirst, safe_refused_iff rfl, reads_lt_load (by decide)]
    constructor
    · rintro ⟨hone, -⟩
      exact ⟨hone, fun h => absurd h hfirst, fun h => absurd h hfirst, fun h => absurd h hreach,
        fun h => absurd h hreach, fun h => absurd h hreach⟩
    · intro h
      exact ⟨h.first, fun a ha => absurd ha (reads_nil a)⟩

/-- **Without overflow** the lines are where they should be, and it is enough that the pixels
are in the file. -/
theorem Parsable.of_sizes {malloc : Malloc} {file : Nat → UInt8} {iBpp : Int32} {length : Nat}
    (hlength : length < 2 ^ 32) (hs : Sizes file iBpp) (hfits : Fits file length) :
    Parsable malloc file iBpp length where
  first := by have := hfits.1; omega
  second := fun _ => by have := hfits.1; omega
  header := fun _ _ => by have := hfits.1; omega
  fits := fun _ => hfits
  rows := by
    intro _ hw row hrow
    have hinside := hfits.2.row hw hrow
    have hsrc : lineSrc file row = rowSrc file (width file) row := by
      unfold lineSrc rowSrc
      rw [toUInt32_align hs.toInt_width hs.columns]
    rw [hsrc, toNat_rowSrc (by omega)]
    exact hinside
  block := by
    intro _ _ p hdepth y hy
    have hdst : (lineDst file iBpp y).toNat = y * (width file * p) := hs.toNat_rowDest hdepth hy
    rw [hdst, hs.totalBytes_eq hdepth]
    exact line_le hy

/-- A header with no columns and `2 ^ 32 - 1` lines, which is a height of -1 for the code. -/
def noColumns : Nat → UInt8 := fun k =>
  if 18 ≤ k ∧ k < 22 then 0 else if 22 ≤ k ∧ k < 26 then 0xff else twoLines k

/-- The file of two lines fits 62 bytes, and a header without columns fits whatever it says of
the lines. -/
theorem two_lines_safe :
    Safe twoLines 62 (getPixelDatasFrmFile (fun _ => some fun _ => 0xff) twoLines 16 (blank 16)) ∧
      Safe noColumns 54
        (getPixelDatasFrmFile (fun _ => some fun _ => 0xff) noColumns 16 (blank 16)) := by
  have htwo : Fits twoLines 62 := ⟨by decide, fun _ _ => by decide +kernel⟩
  have hnone : Fits noColumns 54 := ⟨by decide, fun hw => absurd hw (by decide +kernel)⟩
  constructor
  · exact (bmp_parse_safe_iff (by decide) (blank 16)).mpr
      (.of_sizes (by decide) sizes_twoLines htwo)
  · refine (bmp_parse_safe_iff (by decide) (blank 16)).mpr ?_
    exact ⟨by decide, fun _ => by decide, fun _ _ => by decide, fun _ => hnone,
      fun _ hw => absurd hw (by decide +kernel), fun _ hw => absurd hw (by decide +kernel)⟩

/-- Cut off behind its header, the same file is read up to where its pixels would be, and
the call returns 0. -/
theorem pixels_cut_off :
    Reads (getPixelDatasFrmFile (fun _ => some fun _ => 0xff) twoLines 16 (blank 16)).trace 60 ∧
      (getPixelDatasFrmFile (fun _ => some fun _ => 0xff) twoLines 16 (blank 16)).ret = 0 ∧
      ¬ Safe twoLines 54
        (getPixelDatasFrmFile (fun _ => some fun _ => 0xff) twoLines 16 (blank 16)) := by
  have hread : Reads
      (getPixelDatasFrmFile (fun _ => some fun _ => 0xff) twoLines 16 (blank 16)).trace 60 :=
    ⟨60, 1, by decide +kernel, by decide, by decide⟩
  refine ⟨hread, by decide +kernel, fun hsafe => ?_⟩
  exact absurd (hsafe.reads 60 hread) (by decide)

end Video2lcd.Bmp
