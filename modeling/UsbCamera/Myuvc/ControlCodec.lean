import UsbCamera.Base.ByteStore
import UsbCamera.Myuvc.StreamingControl

/-!
# The streaming-control block on the wire

The block is written in two places, `myuvc_try_streaming_params` and
`myuvc_set_streaming_params`, and read in one, `myuvc_get_streaming_params`, each
time field by field at offsets counted by hand.  The two writers contain the same
assignments, `stores`; laid down in a zeroed buffer they give the byte string that
`encode` builds (`read_stores`).

Then reading and writing are inverse to each other, in both layouts, as far as
the layout goes: the short one drops the last five fields, of which a reader sets
four to zero and leaves one alone (`streaming_control_round_trip`).
-/

namespace Myuvc

open ByteStore

/-- The assignments by which a block is put into a buffer of `size` bytes, as
offsets and bytes. -/
def StreamingControl.stores (size : Nat) (c : StreamingControl) : List (Nat × List UInt8) :=
  [(0, le16 c.bmHint), (2, [c.bFormatIndex]), (3, [c.bFrameIndex]), (4, le32 c.dwFrameInterval),
    (8, le16 c.wKeyFrameRate), (10, le16 c.wPFrameRate), (12, le16 c.wCompQuality),
    (14, le16 c.wCompWindowSize), (16, le16 c.wDelay), (18, le32 c.dwMaxVideoFrameSize),
    (22, le32 c.dwMaxPayloadTransferSize)] ++
  if size = 34 then
    [(26, le32 c.dwClockFrequency), (30, [c.bmFramingInfo]), (31, [c.bPreferedVersion]),
      (32, [c.bMinVersion]), (33, [c.bMaxVersion])]
  else []

/-- The two layouts. -/
theorem controlSize_cases (version : Nat) :
    controlSize version = 34 ∨ controlSize version = 26 := by
  unfold controlSize
  split
  · exact Or.inl rfl
  · exact Or.inr rfl

theorem StreamingControl.length_encode (version : Nat) (c : StreamingControl) :
    (c.encode version).length = controlSize version := by
  rcases controlSize_cases version with h | h <;> simp [StreamingControl.encode, h, le16, le32]

/-- The assignments fill the buffer without gap or overlap, with the bytes of
`encode`. -/
theorem StreamingControl.read_stores (version : Nat) (c : StreamingControl) :
    read (writeAll (fun _ => 0) (c.stores (controlSize version))) 0 (controlSize version) =
      c.encode version := by
  have hcontiguous : Contiguous (0 + 0) (c.stores (controlSize version)) := by
    rcases controlSize_cases version with h | h <;>
      simp [StreamingControl.stores, h, Contiguous, le16, le32]
  have hbytes : (c.stores (controlSize version)).flatMap Prod.snd = c.encode version := by
    rcases controlSize_cases version with h | h <;>
      simp [StreamingControl.stores, StreamingControl.encode, h]
  have hread := read_writeAll (fun _ => 0) 0 0 hcontiguous
  rw [hbytes, StreamingControl.length_encode, Nat.zero_add] at hread
  exact hread

/-- A 16-bit field comes back. -/
theorem getLe16_of_read {data : Nat → UInt8} {k : Nat} {x : UInt16}
    (h : read data k 2 = le16 x) : getLe16 data k = x := by
  obtain ⟨h0, htail⟩ := List.cons.inj h
  obtain ⟨h1, -⟩ := List.cons.inj htail
  have hlt := x.toNat_lt
  simp only [Nat.add_zero] at h0
  simp only [getLe16, h0, h1, ← UInt16.toNat_inj, UInt16.toNat_ofNat', UInt8.toNat_ofNat']
  omega

/-- A 32-bit field comes back. -/
theorem getLe32_of_read {data : Nat → UInt8} {k : Nat} {x : UInt32}
    (h : read data k 4 = le32 x) : getLe32 data k = x := by
  obtain ⟨h0, htail⟩ := List.cons.inj h
  obtain ⟨h1, htail⟩ := List.cons.inj htail
  obtain ⟨h2, htail⟩ := List.cons.inj htail
  obtain ⟨h3, -⟩ := List.cons.inj htail
  have hlt := x.toNat_lt
  simp only [Nat.add_zero] at h0
  simp only [getLe32, h0, h1, h2, h3, ← UInt32.toNat_inj, UInt32.toNat_ofNat',
    UInt8.toNat_ofNat']
  omega

/-- A single byte comes back. -/
theorem byte_of_read {data : Nat → UInt8} {k : Nat} {x : UInt8}
    (h : read data k 1 = [x]) : data k = x :=
  (List.cons.inj h).1

/-- Two bytes that were read as a field are written as they were. -/
theorem le16_getLe16 (data : Nat → UInt8) (k : Nat) :
    le16 (getLe16 data k) = [data k, data (k + 1)] := by
  have h0 := (data k).toNat_lt
  have h1 := (data (k + 1)).toNat_lt
  simp only [le16, getLe16, UInt16.toNat_ofNat', List.cons.injEq, ← UInt8.toNat_inj,
    UInt8.toNat_ofNat', and_true]
  omega

/-- Four bytes that were read as a field are written as they were. -/
theorem le32_getLe32 (data : Nat → UInt8) (k : Nat) :
    le32 (getLe32 data k) = [data k, data (k + 1), data (k + 2), data (k + 3)] := by
  have h0 := (data k).toNat_lt
  have h1 := (data (k + 1)).toNat_lt
  have h2 := (data (k + 2)).toNat_lt
  have h3 := (data (k + 3)).toNat_lt
  simp only [le32, getLe32, UInt32.toNat_ofNat', List.cons.injEq, ← UInt8.toNat_inj,
    UInt8.toNat_ofNat', and_true]
  omega

/-- What a reader makes of the block `c`, when it reads into `target`. -/
def StreamingControl.seen (version : Nat) (c target : StreamingControl) : StreamingControl :=
  if controlSize version = 34 then c
  else
    { c with
      dwClockFrequency := target.dwClockFrequency
      bmFramingInfo := 0
      bPreferedVersion := 0
      bMinVersion := 0
      bMaxVersion := 0 }

/-- The part of the block that both layouts have. -/
def StreamingControl.common (c : StreamingControl) : List UInt8 :=
  le16 c.bmHint ++ [c.bFormatIndex, c.bFrameIndex] ++ le32 c.dwFrameInterval ++
    le16 c.wKeyFrameRate ++ le16 c.wPFrameRate ++ le16 c.wCompQuality ++
    le16 c.wCompWindowSize ++ le16 c.wDelay ++ le32 c.dwMaxVideoFrameSize ++
    le32 c.dwMaxPayloadTransferSize

/-- The part that only the long layout has. -/
def StreamingControl.trailer (c : StreamingControl) : List UInt8 :=
  le32 c.dwClockFrequency ++ [c.bmFramingInfo, c.bPreferedVersion, c.bMinVersion, c.bMaxVersion]

theorem StreamingControl.encode_eq (version : Nat) (c : StreamingControl) :
    c.encode version = c.common ++ if controlSize version = 34 then c.trailer else [] := rfl

/-- The first eleven fields come back. -/
theorem StreamingControl.common_of_read {c : StreamingControl} {data : Nat → UInt8}
    (h : read data 0 26 = c.common) :
    getLe16 data 0 = c.bmHint ∧ data 2 = c.bFormatIndex ∧ data 3 = c.bFrameIndex ∧
    getLe32 data 4 = c.dwFrameInterval ∧ getLe16 data 8 = c.wKeyFrameRate ∧
    getLe16 data 10 = c.wPFrameRate ∧ getLe16 data 12 = c.wCompQuality ∧
    getLe16 data 14 = c.wCompWindowSize ∧ getLe16 data 16 = c.wDelay ∧
    getLe32 data 18 = c.dwMaxVideoFrameSize ∧
    getLe32 data 22 = c.dwMaxPayloadTransferSize := by
  obtain ⟨h, h22⟩ := read_split (n := 22) (k := 4) h rfl
  obtain ⟨h, h18⟩ := read_split (n := 18) (k := 4) h rfl
  obtain ⟨h, h16⟩ := read_split (n := 16) (k := 2) h rfl
  obtain ⟨h, h14⟩ := read_split (n := 14) (k := 2) h rfl
  obtain ⟨h, h12⟩ := read_split (n := 12) (k := 2) h rfl
  obtain ⟨h, h10⟩ := read_split (n := 10) (k := 2) h rfl
  obtain ⟨h, h8⟩ := read_split (n := 8) (k := 2) h rfl
  obtain ⟨h, h4⟩ := read_split (n := 4) (k := 4) h rfl
  obtain ⟨h0, h2⟩ := read_split (n := 2) (k := 2) h rfl
  obtain ⟨h2, h3⟩ := read_split (n := 1) (k := 1) (a := 2) (l := [c.bFormatIndex]) h2 rfl
  exact ⟨getLe16_of_read h0, byte_of_read h2, byte_of_read h3, getLe32_of_read h4,
    getLe16_of_read h8, getLe16_of_read h10, getLe16_of_read h12, getLe16_of_read h14,
    getLe16_of_read h16, getLe32_of_read h18, getLe32_of_read h22⟩

/-- The last five fields come back. -/
theorem StreamingControl.trailer_of_read {c : StreamingControl} {data : Nat → UInt8}
    (h : read data 26 8 = c.trailer) :
    getLe32 data 26 = c.dwClockFrequency ∧ data 30 = c.bmFramingInfo ∧
    data 31 = c.bPreferedVersion ∧ data 32 = c.bMinVersion ∧ data 33 = c.bMaxVersion := by
  obtain ⟨h26, h⟩ := read_split (n := 4) (k := 4) h rfl
  obtain ⟨h30, h⟩ := read_split (n := 1) (k := 3) (a := 30) (l := [c.bmFramingInfo]) h rfl
  obtain ⟨h31, h⟩ := read_split (n := 1) (k := 2) (a := 31) (l := [c.bPreferedVersion]) h rfl
  obtain ⟨h32, h33⟩ := read_split (n := 1) (k := 1) (a := 32) (l := [c.bMinVersion]) h rfl
  exact ⟨getLe32_of_read h26, byte_of_read h30, byte_of_read h31, byte_of_read h32,
    byte_of_read h33⟩

/-- **Reading what was written.** -/
theorem StreamingControl.decode_of_read {version : Nat} {c : StreamingControl}
    {data : Nat → UInt8} (target : StreamingControl)
    (h : read data 0 (controlSize version) = c.encode version) :
    target.decode version data = c.seen version target := by
  rw [StreamingControl.encode_eq] at h
  rcases controlSize_cases version with hsize | hsize
  · simp only [hsize, if_true] at h
    obtain ⟨hcommon, htrailer⟩ := read_split (n := 26) (k := 8) h rfl
    obtain ⟨h0, h2, h3, h4, h8, h10, h12, h14, h16, h18, h22⟩ := common_of_read hcommon
    obtain ⟨h26, h30, h31, h32, h33⟩ := trailer_of_read htrailer
    simp [StreamingControl.decode, StreamingControl.seen, hsize, h0, h2, h3, h4, h8, h10, h12,
      h14, h16, h18, h22, h26, h30, h31, h32, h33]
  · have hcommon : read data 0 26 = c.common := by simpa [hsize] using h
    obtain ⟨h0, h2, h3, h4, h8, h10, h12, h14, h16, h18, h22⟩ := common_of_read hcommon
    simp [StreamingControl.decode, StreamingControl.seen, hsize, h0, h2, h3, h4, h8, h10, h12,
      h14, h16, h18, h22]

/-- **Writing what was read.** -/
theorem StreamingControl.encode_decode (version : Nat) (data : Nat → UInt8)
    (target : StreamingControl) :
    (target.decode version data).encode version = read data 0 (controlSize version) := by
  rcases controlSize_cases version with hsize | hsize
  · simp only [StreamingControl.encode, StreamingControl.decode, hsize, if_true, le16_getLe16,
      le32_getLe32]
    rfl
  · simp only [StreamingControl.encode, StreamingControl.decode, hsize, le16_getLe16,
      le32_getLe32]
    rfl

/-- The transfer succeeded and left these bytes in the buffer. -/
def ControlTransfer.Brings (t : ControlTransfer) (bytes : List UInt8) : Prop :=
  t.buffer = true ∧ 0 ≤ t.ret ∧ read t.data 0 bytes.length = bytes

/-- `myuvc_get_streaming_params` on a transfer that brings an encoded block. -/
theorem getStreamingParams_of_brings {version : Nat} {c : StreamingControl}
    {t : ControlTransfer} (target : StreamingControl) (h : t.Brings (c.encode version)) :
    getStreamingParams version t target = (0, c.seen version target) := by
  obtain ⟨hbuffer, hret, hread⟩ := h
  rw [StreamingControl.length_encode] at hread
  have hpos : ¬ t.ret < 0 := by omega
  simp only [getStreamingParams, ControlTransfer.result, hbuffer, hpos, if_true, if_false]
  rw [StreamingControl.decode_of_read target hread]

/-- **The round trip.**  In both layouts, a block that `myuvc_set_streaming_params`
sends is what `myuvc_get_streaming_params` reads, as far as the layout goes; so is
the block that `myuvc_try_streaming_params` fills in, which it sends as
`myuvc_set_streaming_params` would; and what `myuvc_get_streaming_params` has read
is sent as the bytes it was read from. -/
theorem streaming_control_round_trip (version : Nat) :
    (∀ (c target : StreamingControl) (sent received : ControlTransfer) (bytes : List UInt8),
      (setStreamingParams version sent c).2 = some bytes → received.Brings bytes →
      getStreamingParams version received target = (0, c.seen version target)) ∧
    (∀ (c target : StreamingControl) (sent received : ControlTransfer) (bytes : List UInt8),
      (tryStreamingParams version sent c).2.2 = some bytes →
      (setStreamingParams version sent (tryStreamingParams version sent c).2.1).2 = some bytes ∧
      (received.Brings bytes → getStreamingParams version received target =
        (0, (tryStreamingParams version sent c).2.1.seen version target))) ∧
    (∀ (target : StreamingControl) (bytes : List UInt8) (received sent : ControlTransfer),
      bytes.length = controlSize version → received.Brings bytes → sent.buffer = true →
      (setStreamingParams version sent (getStreamingParams version received target).2).2 =
        some bytes) := by
  have hset : ∀ (c : StreamingControl) (sent : ControlTransfer) (bytes : List UInt8),
      (setStreamingParams version sent c).2 = some bytes → bytes = c.encode version := by
    intro c sent bytes h
    unfold setStreamingParams at h
    split at h
    · exact (Option.some.inj h).symm
    · cases h
  refine ⟨?_, ?_, ?_⟩
  · intro c target sent received bytes hsent hreceived
    rw [hset c sent bytes hsent] at hreceived
    exact getStreamingParams_of_brings target hreceived
  · intro c target sent received bytes hsent
    have hbuffer : sent.buffer = true := by
      by_contra hno
      simp [tryStreamingParams, hno] at hsent
    have hsame : (setStreamingParams version sent (tryStreamingParams version sent c).2.1).2 =
        some bytes := by
      rw [← hsent]
      simp [setStreamingParams, tryStreamingParams, hbuffer]
    refine ⟨hsame, ?_⟩
    intro hreceived
    rw [hset _ sent bytes hsame] at hreceived
    exact getStreamingParams_of_brings target hreceived
  · intro target bytes received sent hlen hreceived hbuffer
    obtain ⟨hin, hret, hread⟩ := hreceived
    have hpos : ¬ received.ret < 0 := by omega
    rw [hlen] at hread
    simp only [setStreamingParams, getStreamingParams, hbuffer, hin, hpos, if_true, if_false]
    rw [StreamingControl.encode_decode, hread]

/-- The block of a camera of version 1.10 that is committed as it was probed. -/
def probedBlock : StreamingControl :=
  ⟨1, 1, 2, 333333, 0, 0, 0, 0, 32, 153600, 800, 48000000, 3, 1, 1, 1⟩

def probedTransfer : ControlTransfer :=
  ⟨true, 34, fun k => (probedBlock.encode 0x0110).getD k 0⟩

theorem round_trip_probedBlock :
    getStreamingParams 0x0110 probedTransfer StreamingControl.zero = (0, probedBlock) :=
  (streaming_control_round_trip 0x0110).1 probedBlock StreamingControl.zero probedTransfer
    probedTransfer _ rfl ⟨rfl, by decide, by decide⟩

end Myuvc
