import UsbCamera.Base.ByteStore
import UsbCamera.Base.CInt
import UsbCamera.Base.Refill

/-!
# The JPEG data source

`libjpeg` takes its input through a source manager: `next_input_byte` and
`bytes_in_buffer` say what is left in the buffer, `fill_input_buffer` is called when
nothing is left, and `skip_input_data` jumps over what is of no interest.
`jpeg_mem_src_tj` makes the manager for a frame that lies in memory.  A frame cannot be
filled up again, so `fill_mem_input_buffer` points the manager to a buffer of its own, with
an end-of-image marker in it, and `skip_input_data` counts on in that buffer as often as it
takes.

The decoder therefore reads an endless stream: the frame, and then end-of-image
markers over and over.  `jpeg_source_is_stream` says so for every sequence of requests,
together with the bounds of every byte that is read.
-/

namespace Video2lcd.JpegSource

/-- `JPEG_EOI` -/
def jpegEoi : UInt8 := 0xD9

/-- The arrays that `next_input_byte` points into. -/
inductive Block
  | inbuffer
  | mybuffer
deriving DecidableEq, Repr

/-- `JOCTET *` -/
structure Pointer where
  block : Block
  offset : Nat
deriving DecidableEq, Repr

/-- The source manager, and the memory that it points to. -/
structure SourceMgr where
  inbuffer : Nat → UInt8
  -- `static JOCTET mybuffer[4]` of `fill_mem_input_buffer`
  mybuffer : Nat → UInt8
  nextInputByte : Pointer
  bytesInBuffer : UInt32

namespace SourceMgr

/-- The array that is read at present. -/
def cells (src : SourceMgr) : Nat → UInt8 :=
  match src.nextInputByte.block with
  | .inbuffer => src.inbuffer
  | .mybuffer => src.mybuffer

/-- The pointer goes on by `n` bytes. -/
def advance (src : SourceMgr) (n : UInt32) : SourceMgr :=
  { src with
    nextInputByte := ⟨src.nextInputByte.block, src.nextInputByte.offset + n.toNat⟩
    bytesInBuffer := src.bytesInBuffer - n }

/-- `fill_mem_input_buffer` -/
def fillMemInputBuffer (src : SourceMgr) : Bool × SourceMgr :=
  (true,
    { src with
      mybuffer := ByteStore.write src.mybuffer 0 [0xFF, jpegEoi]
      nextInputByte := ⟨.mybuffer, 0⟩
      bytesInBuffer := 2 })

/-- The loop of `skip_input_data`, and the jump behind it. -/
def skipLoop : (fuel : Nat) → SourceMgr → (numBytes : Int32) → Option SourceMgr
  | 0, _, _ => none
  | fuel + 1, src, numBytes =>
      if numBytes > src.bytesInBuffer.toInt32 then
        skipLoop fuel src.fillMemInputBuffer.2 (numBytes - src.bytesInBuffer.toInt32)
      else some (src.advance numBytes.toUInt32)

/-- `skip_input_data` -/
def skipInputData (fuel : Nat) (src : SourceMgr) (numBytes : Int32) : Option SourceMgr :=
  if numBytes > 0 then skipLoop fuel src numBytes else some src

/-- The decoder takes a byte: `fill_input_buffer` is called first if the buffer is empty.
The byte comes with the place where it was read. -/
def inputByte (src : SourceMgr) : (Pointer × UInt8) × SourceMgr :=
  let src := if src.bytesInBuffer = 0 then src.fillMemInputBuffer.2 else src
  ((src.nextInputByte, src.cells src.nextInputByte.offset), src.advance 1)

end SourceMgr

/-- What the decoder asks of the source. -/
inductive Request
  | byte
  | skip (numBytes : Int32)
deriving DecidableEq, Repr

/-- Serve the requests one after the other. -/
def serve (fuel : Nat) :
    List Request → SourceMgr → Option (List (Pointer × UInt8) × SourceMgr)
  | [], src => some ([], src)
  | .byte :: requests, src => do
      let (out, src) := src.inputByte
      let (outs, src) ← serve fuel requests src
      return (out :: outs, src)
  | .skip numBytes :: requests, src => do
      let src ← src.skipInputData fuel numBytes
      serve fuel requests src

/-- `ERREXIT(cinfo, JERR_INPUT_EMPTY)` -/
inductive JpegError
  | inputEmpty
deriving DecidableEq, Repr

/-- `jpeg_mem_src_tj`; the frame is `none` for a `NULL` pointer. -/
def jpegMemSrcTj (mybuffer : Nat → UInt8) (inbuffer : Option (Nat → UInt8)) (insize : UInt32) :
    Except JpegError SourceMgr :=
  match inbuffer with
  | none => .error .inputEmpty
  | some inbuffer =>
      if insize = 0 then .error .inputEmpty
      else .ok
        { inbuffer, mybuffer, nextInputByte := ⟨.inbuffer, 0⟩, bytesInBuffer := insize }

/-! ### What is left in the buffer -/

/-- The refill: one end-of-image marker. -/
def endOfImage : List UInt8 := [0xFF, jpegEoi]

/-- A refill always brings something. -/
theorem endOfImage_ne_nil : endOfImage ≠ [] := by decide

namespace SourceMgr

/-- The bytes that the manager has left. -/
def left (src : SourceMgr) : List UInt8 :=
  ByteStore.read src.cells src.nextInputByte.offset src.bytesInBuffer.toNat

/-- The stream that the decoder reads from here on. -/
def stream (src : SourceMgr) : Stream' UInt8 := Refill.upcoming endOfImage_ne_nil src.left

/-- What is left in the buffer is as long as its counter says. -/
@[simp] theorem length_left (src : SourceMgr) : src.left.length = src.bytesInBuffer.toNat :=
  ByteStore.length_read _ _ _

/-- A refill brings the marker. -/
@[simp] theorem left_fillMemInputBuffer (src : SourceMgr) :
    src.fillMemInputBuffer.2.left = endOfImage :=
  ByteStore.read_write_same src.mybuffer 0 endOfImage

/-- Advancing drops bytes. -/
theorem left_advance {src : SourceMgr} {n : UInt32} (h : n.toNat ≤ src.bytesInBuffer.toNat) :
    (src.advance n).left = src.left.drop n.toNat := by
  have hrest : (src.bytesInBuffer - n).toNat = src.bytesInBuffer.toNat - n.toNat :=
    UInt32.toNat_sub_of_le _ _ (UInt32.le_iff_toNat_le.mpr h)
  have hsplit := ByteStore.read_add src.cells src.nextInputByte.offset n.toNat
    (src.bytesInBuffer.toNat - n.toNat)
  rw [Nat.add_sub_cancel' h] at hsplit
  have hleft : src.left = ByteStore.read src.cells src.nextInputByte.offset n.toNat ++
      (src.advance n).left := by
    rw [left, hsplit, left, ← hrest]
    rfl
  rw [hleft, List.drop_left' (ByteStore.length_read _ _ _)]

/-- What is left lies inside its array, and there is not too much of it for a `long`. -/
structure Inside (src : SourceMgr) (insize : Nat) : Prop where
  short : src.bytesInBuffer.toNat < 2 ^ 31
  frame : src.nextInputByte.block = .inbuffer →
    src.nextInputByte.offset + src.bytesInBuffer.toNat ≤ insize
  marker : src.nextInputByte.block = .mybuffer →
    src.nextInputByte.offset + src.bytesInBuffer.toNat ≤ endOfImage.length

/-- After a refill the pointer is in the marker's buffer. -/
theorem inside_fillMemInputBuffer (src : SourceMgr) (insize : Nat) :
    src.fillMemInputBuffer.2.Inside insize where
  short := by
    have htwo : src.fillMemInputBuffer.2.bytesInBuffer.toNat = 2 := rfl
    omega
  frame := nofun
  marker _ := Nat.le_refl _

/-- Advancing by no more than is left stays inside. -/
theorem Inside.advance {src : SourceMgr} {insize : Nat} {n : UInt32} (hin : src.Inside insize)
    (h : n.toNat ≤ src.bytesInBuffer.toNat) : (src.advance n).Inside insize := by
  have hrest : (src.advance n).bytesInBuffer.toNat = src.bytesInBuffer.toNat - n.toNat :=
    UInt32.toNat_sub_of_le _ _ (UInt32.le_iff_toNat_le.mpr h)
  have hoffset : (src.advance n).nextInputByte.offset = src.nextInputByte.offset + n.toNat := rfl
  constructor
  · have hshort := hin.short
    omega
  · intro hblock
    have hframe := hin.frame hblock
    omega
  · intro hblock
    have hmarker := hin.marker hblock
    omega

/-- Filling the buffer when it is empty is not seen. -/
theorem stream_fill_of_empty {src : SourceMgr} (h : src.bytesInBuffer.toNat = 0) :
    src.fillMemInputBuffer.2.stream = src.stream := by
  have hnil : src.left = [] := List.eq_nil_of_length_eq_zero (by rw [length_left, h])
  rw [stream, stream, hnil, left_fillMemInputBuffer, Refill.upcoming_nil]

/-- Advancing within the buffer drops from the stream. -/
theorem stream_advance {src : SourceMgr} {n : UInt32} (h : n.toNat ≤ src.bytesInBuffer.toNat) :
    (src.advance n).stream = src.stream.drop n.toNat := by
  rw [stream, left_advance h, stream, Refill.upcoming_drop _ (by rwa [length_left])]

/-- Dropping all that is left, and more, goes on behind a refill. -/
theorem stream_drop_past {src : SourceMgr} {k : Nat} (h : src.bytesInBuffer.toNat ≤ k) :
    src.stream.drop k =
      src.fillMemInputBuffer.2.stream.drop (k - src.bytesInBuffer.toNat) := by
  have hlen : src.left.length ≤ k := by rwa [length_left]
  have hpast := Refill.upcoming_drop_past endOfImage_ne_nil hlen
  rw [length_left] at hpast
  rw [stream, hpast, stream, left_fillMemInputBuffer]

end SourceMgr

/-! ### The requests -/

/-- A place inside the frame or inside the marker. -/
def Pointer.Within (p : Pointer) (insize : Nat) : Prop :=
  match p.block with
  | .inbuffer => p.offset < insize
  | .mybuffer => p.offset < endOfImage.length

namespace SourceMgr

/-- The next byte of a buffer that is not empty is the head of the stream, and it is read
inside its array. -/
theorem head_of_left {src : SourceMgr} {insize : Nat} (hin : src.Inside insize)
    (hpos : 0 < src.bytesInBuffer.toNat) :
    src.cells src.nextInputByte.offset = src.stream.head ∧ src.nextInputByte.Within insize := by
  obtain ⟨n, hn⟩ : ∃ n, src.bytesInBuffer.toNat = n + 1 := Nat.exists_eq_add_one.mpr hpos
  constructor
  · have hleft : src.left = src.cells src.nextInputByte.offset ::
        ByteStore.read src.cells (src.nextInputByte.offset + 1) n := by
      rw [left, hn, Nat.add_comm n 1, ByteStore.read_add]
      rfl
    rw [stream, hleft, Refill.upcoming_cons_head]
  · unfold Pointer.Within
    split
    · rename_i hblock
      have hframe := hin.frame hblock
      omega
    · rename_i hblock
      have hmarker := hin.marker hblock
      omega

/-- **A byte** is the head of the stream, and the rest of the stream is left. -/
theorem inputByte_spec {src : SourceMgr} {insize : Nat} (hin : src.Inside insize) :
    src.inputByte.1.2 = src.stream.head ∧ src.inputByte.1.1.Within insize ∧
      src.inputByte.2.stream = src.stream.tail ∧ src.inputByte.2.Inside insize := by
  -- the buffer from which the byte is taken is not empty, and it holds the same stream
  obtain ⟨full, hfull, hpos, hfin, hstream⟩ : ∃ full,
      full = (if src.bytesInBuffer = 0 then src.fillMemInputBuffer.2 else src) ∧
      0 < full.bytesInBuffer.toNat ∧ full.Inside insize ∧ full.stream = src.stream := by
    by_cases hzero : src.bytesInBuffer = 0
    · refine ⟨src.fillMemInputBuffer.2, by rw [if_pos hzero], Nat.zero_lt_two,
        src.inside_fillMemInputBuffer insize, stream_fill_of_empty ?_⟩
      rw [hzero]
      rfl
    · refine ⟨src, by rw [if_neg hzero], ?_, hin, rfl⟩
      have hne : src.bytesInBuffer.toNat ≠ 0 := fun h => hzero (UInt32.toNat_inj.mp h)
      omega
  have hbyte : src.inputByte =
      ((full.nextInputByte, full.cells full.nextInputByte.offset), full.advance 1) := by
    rw [hfull]
    rfl
  have hone : (1 : UInt32).toNat ≤ full.bytesInBuffer.toNat := hpos
  obtain ⟨hhead, hwithin⟩ := head_of_left hfin hpos
  rw [hbyte, ← hstream]
  exact ⟨hhead, hwithin, stream_advance hone, hfin.advance hone⟩

/-- The counter is not negative as a `long`. -/
theorem toInt_bytesInBuffer {src : SourceMgr} {insize : Nat} (hin : src.Inside insize) :
    src.bytesInBuffer.toInt32.toInt = src.bytesInBuffer.toNat := by
  have hsame : src.bytesInBuffer.toInt32.toUInt32 = src.bytesInBuffer :=
    UInt32.toUInt32_toInt32 _
  have hshort := hin.short
  rw [CInt.toInt_of_small (by rwa [hsame]), hsame]

/-- **The loop** drops what it is told to, and it ends: after the first turn each turn takes
two bytes off. -/
theorem skipLoop_spec {src : SourceMgr} {insize fuel k : Nat} {numBytes : Int32}
    (hin : src.Inside insize) (hk : numBytes.toInt = k)
    (hfuel : k + (if src.bytesInBuffer.toNat = 0 then 1 else 0) < fuel) :
    ∃ src', skipLoop fuel src numBytes = some src' ∧ src'.stream = src.stream.drop k ∧
      src'.Inside insize := by
  induction fuel generalizing src k numBytes with
  | zero => omega
  | succ fuel ih =>
      have hbytes := toInt_bytesInBuffer hin
      by_cases hmore : numBytes > src.bytesInBuffer.toInt32
      · have hlt : src.bytesInBuffer.toInt32.toInt < numBytes.toInt :=
          Int32.lt_iff_toInt_lt.mp hmore
        have hrest : (numBytes - src.bytesInBuffer.toInt32).toInt =
            ((k - src.bytesInBuffer.toNat : Nat) : Int) := by
          have hmax := numBytes.toInt_lt
          rw [Int32.toInt_sub, Int.bmod_eq_of_le] <;> norm_num <;> omega
        have htwo : src.fillMemInputBuffer.2.bytesInBuffer.toNat = 2 := rfl
        obtain ⟨src', hloop, hstream, hin'⟩ :=
          ih (src.inside_fillMemInputBuffer insize) hrest (by
            rw [htwo, if_neg (by decide)]
            by_cases hempty : src.bytesInBuffer.toNat = 0
            · rw [if_pos hempty] at hfuel
              omega
            · omega)
        refine ⟨src', ?_, ?_, hin'⟩
        · rw [skipLoop, if_pos hmore]
          exact hloop
        · rw [hstream, stream_drop_past (by omega : src.bytesInBuffer.toNat ≤ k)]
      · have hle : numBytes.toInt ≤ src.bytesInBuffer.toInt32.toInt := 
          Int.not_lt.mp fun h => hmore (Int32.lt_iff_toInt_lt.mpr h)
        have hnat := CInt.toNat_of_toInt hk
        have hfits : numBytes.toUInt32.toNat ≤ src.bytesInBuffer.toNat := by omega
        refine ⟨src.advance numBytes.toUInt32, ?_, ?_, hin.advance hfits⟩
        · rw [skipLoop, if_neg hmore]
        · rw [stream_advance hfits, hnat]

/-- **A jump** drops so many bytes, and none if the number is negative. -/
theorem skipInputData_spec {src : SourceMgr} {insize fuel : Nat} {numBytes : Int32}
    (hin : src.Inside insize) (hfuel : numBytes.toInt + 1 < fuel) :
    ∃ src', src.skipInputData fuel numBytes = some src' ∧
      src'.stream = src.stream.drop numBytes.toInt.toNat ∧ src'.Inside insize := by
  by_cases hpos : numBytes > 0
  · have hzero : (0 : Int32).toInt < numBytes.toInt := Int32.lt_iff_toInt_lt.mp hpos
    have hnonneg : 0 < numBytes.toInt := hzero
    have hrounds : numBytes.toInt.toNat + (if src.bytesInBuffer.toNat = 0 then 1 else 0) <
        fuel := by
      split <;> omega
    obtain ⟨src', hloop, hstream⟩ :=
      skipLoop_spec hin (Int.toNat_of_nonneg hnonneg.le).symm hrounds
    exact ⟨src', by rw [skipInputData, if_pos hpos, hloop], hstream⟩
  · have hneg : numBytes.toInt.toNat = 0 := by
      have hnot : ¬ (0 : Int32).toInt < numBytes.toInt :=
        fun h => hpos (Int32.lt_iff_toInt_lt.mpr h)
      have hzero : (0 : Int32).toInt = 0 := rfl
      omega
    exact ⟨src, by rw [skipInputData, if_neg hpos], by rw [hneg]; rfl, hin⟩

end SourceMgr

/-- The request as one to a stream. -/
def Request.toStream : Request → Refill.Request
  | .byte => .next
  | .skip numBytes => .jump numBytes.toInt.toNat

/-- **Run lemma.**  Requests are answered as the stream answers them. -/
theorem serve_spec {requests : List Request} {src : SourceMgr} {insize fuel : Nat}
    (hin : src.Inside insize)
    (hfuel : ∀ numBytes : Int32, .skip numBytes ∈ requests → numBytes.toInt + 1 < fuel) :
    ∃ outs src', serve fuel requests src = some (outs, src') ∧
      outs.map Prod.snd = Refill.answers (requests.map Request.toStream) src.stream ∧
      ∀ out ∈ outs, out.1.Within insize := by
  induction requests generalizing src with
  | nil => exact ⟨[], src, rfl, rfl, nofun⟩
  | cons request requests ih =>
      have hlater : ∀ numBytes : Int32, .skip numBytes ∈ requests → numBytes.toInt + 1 < fuel :=
        fun numBytes h => hfuel numBytes (List.mem_cons_of_mem _ h)
      cases request with
      | byte =>
          obtain ⟨hhead, hwithin, htail, hin'⟩ := SourceMgr.inputByte_spec hin
          obtain ⟨outs, src', hserve, houts, hbounds⟩ := ih hin' hlater
          rw [htail] at houts
          refine ⟨src.inputByte.1 :: outs, src', ?_, ?_, ?_⟩
          · simp only [serve, hserve, Option.bind_eq_bind, Option.bind_some, Option.pure_def]
          · rw [List.map_cons, hhead, houts]
            rfl
          · intro out hout
            rcases List.mem_cons.mp hout with rfl | hout
            · exact hwithin
            · exact hbounds out hout
      | skip numBytes =>
          obtain ⟨next, hskip, hdrop, hin'⟩ :=
            SourceMgr.skipInputData_spec hin (hfuel numBytes List.mem_cons_self)
          obtain ⟨outs, src', hserve, houts, hbounds⟩ := ih hin' hlater
          rw [hdrop] at houts
          refine ⟨outs, src', ?_, houts, hbounds⟩
          simp only [serve, hskip, Option.bind_eq_bind, Option.bind_some, hserve]

/-- The manager of a frame that is not empty holds the frame. -/
theorem jpegMemSrcTj_spec {insize : UInt32} (mybuffer inbuffer : Nat → UInt8)
    (hpos : 0 < insize.toNat) (hshort : insize.toNat < 2 ^ 31) :
    ∃ src, jpegMemSrcTj mybuffer (some inbuffer) insize = .ok src ∧ src.Inside insize.toNat ∧
      src.left = ByteStore.read inbuffer 0 insize.toNat := by
  have hne : insize ≠ 0 := by
    intro hzero
    rw [hzero] at hpos
    exact Nat.lt_irrefl 0 hpos
  refine ⟨_, if_neg hne, ⟨hshort, ?_, nofun⟩, rfl⟩
  intro _
  exact (Nat.zero_add _).le

/-- **The decoder's input.**  Whatever the decoder asks for, in whatever order, it gets the
bytes of the frame and then end-of-image markers without end.  A jump takes no more turns
than bytes, and no byte is read outside the frame or outside the marker. -/
theorem jpeg_source_is_stream (mybuffer inbuffer : Nat → UInt8) (insize : UInt32)
    (hpos : 0 < insize.toNat) (hshort : insize.toNat < 2 ^ 31) (requests : List Request)
    (fuel : Nat)
    (hfuel : ∀ numBytes : Int32, .skip numBytes ∈ requests → numBytes.toInt + 1 < fuel) :
    ∃ src outs src', jpegMemSrcTj mybuffer (some inbuffer) insize = .ok src ∧
      serve fuel requests src = some (outs, src') ∧
      outs.map Prod.snd = Refill.answers (requests.map Request.toStream)
        (ByteStore.read inbuffer 0 insize.toNat ++ₛ
          Stream'.cycle endOfImage endOfImage_ne_nil) ∧
      ∀ out ∈ outs, out.1.Within insize.toNat := by
  obtain ⟨src, hsrc, hin, hleft⟩ := jpegMemSrcTj_spec mybuffer inbuffer hpos hshort
  obtain ⟨outs, src', hserve, houts, hbounds⟩ := serve_spec hin hfuel
  refine ⟨src, outs, src', hsrc, hserve, ?_, hbounds⟩
  rw [houts, SourceMgr.stream, hleft]
  rfl

/-- A frame of three bytes, a jump over it and into the third marker. -/
theorem jpeg_source_is_stream_short_frame :
    ∃ src outs src', jpegMemSrcTj (fun _ => 0) (some fun k => 10 + UInt8.ofNat k) 3 = .ok src ∧
      serve 9 [.byte, .skip 7, .byte, .skip (-1), .byte] src = some (outs, src') ∧
      outs.map Prod.snd = [10, 0xD9, 0xFF] := by
  obtain ⟨src, outs, src', hsrc, hserve, houts, -⟩ :=
    jpeg_source_is_stream (fun _ => 0) (fun k => 10 + UInt8.ofNat k) 3 (by decide) (by decide)
      [.byte, .skip 7, .byte, .skip (-1), .byte] 9 (by
        intro numBytes h
        simp only [List.mem_cons, reduceCtorEq, Request.skip.injEq, List.not_mem_nil, or_false,
          false_or] at h
        rcases h with rfl | rfl <;> decide)
  exact ⟨src, outs, src', hsrc, hserve, houts.trans (by rfl)⟩

end Video2lcd.JpegSource
