import UsbCamera.Myuvc.Types

/-!
# The brightness control

`VIDIOC_S_CTRL` sends a brightness to the camera and `VIDIOC_G_CTRL` fetches it
again.  A control value is a signed 32-bit number; on the wire it is two bytes,
which `myuvc_set_le_value` fills and `myuvc_get_le_value` puts together again, each
in a loop that works its way through 16 bits.

The writer keeps the low 16 bits and the reader extends their sign.  Nothing
compares the value with what two bytes can hold, so a value that was accepted
reads back exactly when it is a signed 16-bit number
(`brightness_reads_back_iff`).
-/

namespace Myuvc

def V4L2_CID_BRIGHTNESS : UInt32 := 0x00980900

/-- The loop of `myuvc_get_le_value` over the bytes from `data` on; `none` where it
reads behind them. -/
def getLeLoop : List UInt8 → (bits offset : Int) → (mask : UInt8) → (value : Int32) → Option Int32
  | data, bits, offset, mask, value =>
      if bits ≤ 0 then some value
      else
        match data with
        | [] => none
        | d :: data =>
            let byte := (d &&& mask).toUInt32.toInt32
            let value := value |||
              if 0 < offset then byte >>> Int32.ofInt offset else byte <<< Int32.ofInt (-offset)
            let bits := bits - (8 - if 0 < offset then offset else 0)
            getLeLoop data bits (offset - 8) (UInt8.ofNat (2 ^ bits.toNat - 1)) value

/-- `myuvc_get_le_value`. -/
def getLeValue (data : List UInt8) : Option Int32 :=
  let bits : Nat := 16
  (getLeLoop data bits 0 (UInt8.ofNat (2 ^ bits - 1)) 0).map fun value =>
    -- the sign is extended from bit 15
    value ||| -(value &&& 0x8000)

/-- The loop of `myuvc_set_le_value`: the bytes it leaves from `data` on; `none` where
it writes behind them. -/
def setLeLoop : List UInt8 → (bits offset : Nat) → (value : Int32) → Option (List UInt8)
  | data, bits, offset, value =>
      if bits ≤ 0 then some data
      else
        match data with
        | [] => none
        | d :: data =>
            let mask := UInt8.ofNat ((2 ^ bits - 1) * 2 ^ offset)
            let shifted := (value <<< Int32.ofNat offset).toUInt32.toUInt8
            let byte := (d &&& ~~~mask) ||| (shifted &&& mask)
            let value := value >>> Int32.ofNat (if offset ≠ 0 then offset else 8)
            (setLeLoop data (bits - (8 - offset)) 0 value).map fun data => byte :: data

/-- `myuvc_set_le_value`. -/
def setLeValue (value : Int32) (data : List UInt8) : Option (List UInt8) :=
  setLeLoop data 16 0 value

/-- The brightness control of a camera: what it does with the bytes of a `SET_CUR`,
and what it answers to a `GET_CUR`, each with what `usb_control_msg` returns. -/
structure BrightnessControl (σ : Type) where
  setCur : List UInt8 → σ → Int × σ
  getCur : σ → Int × List UInt8

/-- The camera returns the two bytes that it has taken. -/
def BrightnessControl.Stores {σ : Type} (camera : BrightnessControl σ) : Prop :=
  ∀ data s, data.length = 2 → (camera.setCur data s).1 = 2 →
    camera.getCur (camera.setCur data s).2 = (2, data)

section

variable {σ : Type} (camera : BrightnessControl σ)

/-- `myuvc_vidioc_s_ctrl`; `data` is what the stack holds in place of `u8 data[2]`. -/
def vidiocSCtrl (data : UInt8 × UInt8) (id : UInt32) (value : Int32) (s : σ) : Option (Int × σ) :=
  if id ≠ V4L2_CID_BRIGHTNESS then some (-EINVAL, s)
  else
    (setLeValue value [data.1, data.2]).map fun data =>
      let (ret, s) := camera.setCur data s
      if ret ≠ 2 then (- EIO, s) else (0, s)

/-- `myuvc_vidioc_g_ctrl`: its return value and the value of the control, which is left
alone where the call fails. -/
def vidiocGCtrl (id : UInt32) (value : Int32) (s : σ) : Option (Int × Int32) :=
  if id ≠ V4L2_CID_BRIGHTNESS then some (-EINVAL, value)
  else
    let (ret, data) := camera.getCur s
    if ret ≠ 2 then some (- EIO, value) else (getLeValue data).map fun value => (0, value)

end

/-- The two bytes that are sent. -/
def lowBytes (value : Int32) : List UInt8 :=
  [value.toUInt32.toUInt8, (value >>> 8).toUInt32.toUInt8]

/-- A round of the writing loop at a byte boundary. -/
theorem setLeLoop_round {bits : Nat} (hbits : 8 ≤ bits) (d : UInt8) (data : List UInt8)
    (value : Int32) :
    setLeLoop (d :: data) bits 0 value =
      (setLeLoop data (bits - 8) 0 (value >>> 8)).map (value.toUInt32.toUInt8 :: ·) := by
  have hmask : UInt8.ofNat ((2 ^ bits - 1) * 2 ^ 0) = -1 := by
    apply UInt8.toNat_inj.mp
    obtain ⟨k, rfl⟩ := Nat.exists_eq_add_of_le hbits
    have hpos : 0 < 2 ^ k := by positivity
    have hsplit : (2 ^ (8 + k) - 1) * 2 ^ 0 = 256 * (2 ^ k - 1) + 255 := by
      rw [Nat.pow_add]
      omega
    rw [hsplit, UInt8.toNat_ofNat', Nat.mul_add_mod]
    rfl
  have hshift : value <<< Int32.ofNat 0 = value := by
    apply Int32.toBitVec.inj
    simp
  rw [setLeLoop, if_neg (by omega)]
  simp only [hmask, hshift]
  simp

/-- **The writer** sends the low 16 bits. -/
theorem setLeValue_eq (value : Int32) (x y : UInt8) :
    setLeValue value [x, y] = some (lowBytes value) := by
  rw [setLeValue, setLeLoop_round (by decide), setLeLoop_round (by decide)]
  rfl

/-- A round of the reading loop at a byte boundary. -/
theorem getLeLoop_round {bits : Int} (hbits : 0 < bits) {offset : Int} (hoffset : offset ≤ 0)
    (d : UInt8) (data : List UInt8) (value : Int32) :
    getLeLoop (d :: data) bits offset (-1) value =
      getLeLoop data (bits - 8) (offset - 8) (UInt8.ofNat (2 ^ (bits - 8).toNat - 1))
        (value ||| d.toUInt32.toInt32 <<< Int32.ofInt (-offset)) := by
  rw [getLeLoop, if_neg (by omega)]
  simp only [if_neg (not_lt.mpr hoffset)]
  simp

/-- **The reader** puts two bytes together and extends their sign. -/
theorem getLeValue_eq (x y : UInt8) :
    getLeValue [x, y] = some
      (let value := x.toUInt32.toInt32 ||| y.toUInt32.toInt32 <<< 8
       value ||| -(value &&& 0x8000)) := by
  have hfirst : UInt8.ofNat (2 ^ 16 - 1) = -1 := by decide
  have hsecond : UInt8.ofNat (2 ^ (((16 : Nat) : Int) - 8).toNat - 1) = -1 := by decide
  have hlow : x.toUInt32.toInt32 <<< Int32.ofInt (-0) = x.toUInt32.toInt32 := by
    apply Int32.toBitVec.inj
    simp
  simp only [getLeValue]
  rw [hfirst, getLeLoop_round (by decide) (by decide), hsecond,
    getLeLoop_round (by decide) (by decide), hlow, Int32.zero_or]
  rfl

/-- The two bytes of a value are its low 16 bits. -/
theorem lowBytes_bits (w : BitVec 32) :
    (w.setWidth 8).setWidth 32 ||| ((w.sshiftRight 8).setWidth 8).setWidth 32 <<< 8 =
      (w.setWidth 16).setWidth 32 := by
  apply BitVec.eq_of_getLsbD_eq
  intro i hi
  simp only [BitVec.getLsbD_or, BitVec.getLsbD_setWidth, BitVec.getLsbD_shiftLeft,
    BitVec.getLsbD_sshiftRight]
  grind

/-- Adding the negated bit 15 extends the sign. -/
theorem signExtended_bits (x : BitVec 16) :
    x.setWidth 32 ||| -(x.setWidth 32 &&& 0x8000#32) = x.signExtend 32 := by
  have hbit : ∀ i < 32, (0x8000#32).getLsbD i = decide (i = 15) := by decide
  have hneg : ∀ i < 32, (-0x8000#32).getLsbD i = decide (15 ≤ i) := by decide
  have hmsb : x.msb = x.getLsbD 15 := rfl
  apply BitVec.eq_of_getLsbD_eq
  intro i hi
  rw [BitVec.getLsbD_or, BitVec.getLsbD_signExtend, BitVec.getLsbD_setWidth, hmsb]
  cases hx : x.getLsbD 15 with
  | false =>
      have hzero : x.setWidth 32 &&& 0x8000#32 = 0#32 := by
        apply BitVec.eq_of_getLsbD_eq
        intro j hj
        rw [BitVec.getLsbD_and, hbit j hj, BitVec.getLsbD_setWidth]
        grind
      rw [hzero]
      grind
  | true =>
      have hself : x.setWidth 32 &&& 0x8000#32 = 0x8000#32 := by
        apply BitVec.eq_of_getLsbD_eq
        intro j hj
        rw [BitVec.getLsbD_and, hbit j hj, BitVec.getLsbD_setWidth]
        grind
      rw [hself, hneg i hi]
      grind

/-- The value that comes back. -/
theorem readBack_toInt (value : Int32) :
    let low := value.toUInt32.toUInt8.toUInt32.toInt32 |||
      (value >>> 8).toUInt32.toUInt8.toUInt32.toInt32 <<< 8
    (low ||| -(low &&& 0x8000)).toInt = value.toInt.bmod (2 ^ 16) := by
  intro low
  have hlow : low.toBitVec = (value.toBitVec.setWidth 16).setWidth 32 :=
    lowBytes_bits value.toBitVec
  have hbits : (low ||| -(low &&& 0x8000)).toBitVec =
      (value.toBitVec.setWidth 16).signExtend 32 := by
    rw [← signExtended_bits, ← hlow]
    rfl
  calc (low ||| -(low &&& 0x8000)).toInt = (low ||| -(low &&& 0x8000)).toBitVec.toInt := rfl
    _ = (value.toBitVec.setWidth 16).toInt := by
        rw [hbits, BitVec.toInt_signExtend_of_le (by decide)]
    _ = value.toInt.bmod (2 ^ 16) := by
        have hint : value.toInt = (value.toBitVec.toNat : Int).bmod (2 ^ 32) :=
          BitVec.toInt_eq_toNat_bmod value.toBitVec
        rw [BitVec.toInt_setWidth, hint, Int.bmod_bmod_of_dvd (by decide)]

/-- What `VIDIOC_G_CTRL` reports after a `VIDIOC_S_CTRL` that went well. -/
theorem gCtrl_after_sCtrl {σ : Type} {camera : BrightnessControl σ} (hstores : camera.Stores)
    {data : UInt8 × UInt8} {value : Int32} {s s' : σ}
    (hset : vidiocSCtrl camera data V4L2_CID_BRIGHTNESS value s = some (0, s')) (before : Int32) :
    ∃ back, vidiocGCtrl camera V4L2_CID_BRIGHTNESS before s' = some (0, back) ∧
      back.toInt = value.toInt.bmod (2 ^ 16) := by
  rw [vidiocSCtrl, if_neg (by decide), setLeValue_eq] at hset
  have hset : (if (camera.setCur (lowBytes value) s).1 ≠ 2
      then (- EIO, (camera.setCur (lowBytes value) s).2)
      else (0, (camera.setCur (lowBytes value) s).2)) = (0, s') := Option.some.inj hset
  by_cases htaken : (camera.setCur (lowBytes value) s).1 = 2
  · have hafter : (camera.setCur (lowBytes value) s).2 = s' := by
      have hsnd := congrArg Prod.snd hset
      rwa [if_neg (not_not.mpr htaken)] at hsnd
    have hcur := hstores (lowBytes value) s rfl htaken
    rw [hafter] at hcur
    refine ⟨_, ?_, readBack_toInt value⟩
    rw [vidiocGCtrl, if_neg (by decide), hcur]
    exact congrArg (Option.map fun back => ((0 : Int), back)) (getLeValue_eq _ _)
  · have hfst := congrArg Prod.fst hset
    rw [if_pos htaken] at hfst
    exact absurd hfst (show ¬ (- EIO) = 0 by decide)

/-- **Reading back.**  Against a camera that keeps what it takes, a brightness that
was accepted reads back exactly when it is a signed 16-bit number. -/
theorem brightness_reads_back_iff {σ : Type} {camera : BrightnessControl σ}
    (hstores : camera.Stores) {data : UInt8 × UInt8} {value : Int32} {s s' : σ}
    (hset : vidiocSCtrl camera data V4L2_CID_BRIGHTNESS value s = some (0, s')) (before : Int32) :
    vidiocGCtrl camera V4L2_CID_BRIGHTNESS before s' = some (0, value) ↔
      -2 ^ 15 ≤ value.toInt ∧ value.toInt < 2 ^ 15 := by
  obtain ⟨back, hget, hback⟩ := gCtrl_after_sCtrl hstores hset before
  have hsame : some ((0 : Int), back) = some (0, value) ↔ back.toInt = value.toInt := by
    simp [Int32.toInt_inj]
  rw [hget, hsame, hback]
  constructor
  · intro heq
    have hle := Int.le_bmod (x := value.toInt) (m := 2 ^ 16) (by decide)
    have hlt := Int.bmod_lt (x := value.toInt) (m := 2 ^ 16) (by decide)
    rw [heq] at hle hlt
    norm_num at hle hlt
    omega
  · rintro ⟨hle, hlt⟩
    apply Int.bmod_eq_of_le
    · norm_num
      omega
    · norm_num
      omega

/-- A camera that keeps two bytes. -/
def keepingCamera : BrightnessControl (List UInt8) where
  setCur data _ := (2, data)
  getCur s := (2, s)

theorem keepingCamera_stores : keepingCamera.Stores := fun _ _ _ _ => rfl

/-- A negative brightness reads back. -/
theorem negative_brightness_reads_back :
    vidiocGCtrl keepingCamera V4L2_CID_BRIGHTNESS 0 (lowBytes (-3)) = some (0, -3) := by
  have hset : vidiocSCtrl keepingCamera (0xAA, 0x55) V4L2_CID_BRIGHTNESS (-3) [] =
      some (0, lowBytes (-3)) := by decide
  exact (brightness_reads_back_iff keepingCamera_stores hset 0).mpr (by decide)

/-- A brightness of 40000 is accepted and reads back as a negative number. -/
theorem large_brightness_changes :
    vidiocSCtrl keepingCamera (0, 0) V4L2_CID_BRIGHTNESS 40000 [] =
        some (0, lowBytes 40000) ∧
      vidiocGCtrl keepingCamera V4L2_CID_BRIGHTNESS 0 (lowBytes 40000) = some (0, -25536) := by
  decide

end Myuvc
