import UsbCamera.Alsa.L3Bus

/-!
# The register cache of the UDA1341 driver

The codec cannot be read, so `uda1341_write_reg` keeps every value it writes in a
cache and `uda1341_read_reg_cache` answers from there.  The cache is only worth
having if it agrees with the chip.  That is not obvious from the code: twelve
registers are reached through three bus addresses, a prefix in the data byte
tells some of them apart, and the six extended registers take two transfers, the
first of which only sets an address inside the chip.

The chip here is the receiver of `L3Bus` followed by the decoding that the
prefix macros of the driver describe.  It sees nothing but the levels of the
three pins.  `cache_mirrors_chip` says that after every sequence of writes the
chip and the cache agree on every register written so far.
-/

namespace Alsa

/-! ## The chip -/

/-- The registers of the chip. -/
inductive ChipReg where
  | data00
  | data01
  | data10
  | ext (address : BitVec 5)
  | data1
  | status0
  | status1
deriving DecidableEq, Repr

/-- What one transfer means. -/
inductive Meaning where
  | put (reg : ChipReg) (value : BitVec 8)
  | extAddr (address : BitVec 5)
  | extData (value : BitVec 8)
  | foreign
deriving DecidableEq, Repr

def uda134xL3Addr : BitVec 8 := 5

def uda1341Data0Addr : BitVec 8 := (uda134xL3Addr <<< 2) ||| 0

def uda1341Data1Addr : BitVec 8 := (uda134xL3Addr <<< 2) ||| 1

def uda1341StatusAddr : BitVec 8 := (uda134xL3Addr <<< 2) ||| 2

/-- The decoding of a transfer: the address picks the class of registers, and the
top bits of the data pick one of them. -/
def meaning (addr data : BitVec 8) : Meaning :=
  if addr = uda1341Data0Addr then
    if data >>> 5 = 6#8 then .extAddr (data.setWidth 5)
    else if data >>> 5 = 7#8 then .extData (data &&& 0x1F#8)
    else if data >>> 6 = 0#8 then .put .data00 (data &&& 0x3F#8)
    else if data >>> 6 = 1#8 then .put .data01 (data &&& 0x3F#8)
    else .put .data10 (data &&& 0x3F#8)
  else if addr = uda1341Data1Addr then .put .data1 data
  else if addr = uda1341StatusAddr then
    if data >>> 7 = 0#8 then .put .status0 (data &&& 0x7F#8)
    else .put .status1 (data &&& 0x7F#8)
  else .foreign

/-- The chip: its registers and the extended address set last. -/
structure Chip where
  regs : ChipReg → BitVec 8
  extAddr : BitVec 5

def Chip.put (c : Chip) (reg : ChipReg) (value : BitVec 8) : Chip :=
  { c with regs := Function.update c.regs reg value }

/-- One transfer. -/
def Chip.transfer (c : Chip) (call : BitVec 8 × BitVec 8) : Chip :=
  match meaning call.1 call.2 with
  | .put reg value => c.put reg value
  | .extAddr address => { c with extAddr := address }
  | .extData value => c.put (.ext c.extAddr) value
  | .foreign => c

/-! ## The driver -/

def uda1341RegNum : Nat := 12

def uda1341Ea000 : Nat := 3

def uda1341Ea110 : Nat := 8

def uda1341ExtAddrPrefix : BitVec 32 := 0xC0

def uda1341ExtDataPrefix : BitVec 32 := 0xE0

/-- The defaults that the core fills the cache with. -/
def uda1341Reg : List (BitVec 8) :=
  [0x00, 0x40, 0x80, 0x04, 0x04, 0x04, 0x00, 0x00, 0x00, 0x00, 0x00, 0x83]

def uda1341RegAddr : List (BitVec 8) :=
  [uda1341Data0Addr, uda1341Data0Addr, uda1341Data0Addr, 0, 1, 2, 4, 5, 6,
    uda1341Data1Addr, uda1341StatusAddr, uda1341StatusAddr]

def uda1341DataBit : List (BitVec 8) :=
  [0, 1 <<< 6, 1 <<< 7, 0, 0, 0, 0, 0, 0, 0, 0, 1 <<< 7]

/-- The driver: the cache, the port with the three pins, and the chip as it was
when the port had its first value. -/
structure Codec where
  cache : Nat → BitVec 8
  gpio : Gpio
  attached : Chip

/-- The chip as the waveform has left it. -/
def Codec.chip (s : Codec) : Chip := s.gpio.transfers.foldl Chip.transfer s.attached

/-- The driver once the core has made its cache. -/
def Codec.load (gpbdat : BitVec 32) (chip : Chip) : Codec :=
  ⟨fun reg => uda1341Reg.getD reg 0, Gpio.start gpbdat, chip⟩

def uda1341ReadRegCache (s : Codec) (reg : Nat) : BitVec 32 :=
  if uda1341RegNum ≤ reg then -1 else (s.cache reg).setWidth 32

def uda1341WriteReg (s : Codec) (reg : Nat) (value : BitVec 32) : Int × Codec :=
  if uda1341RegNum ≤ reg then (-1, s)
  else
    let cached := { s with cache := Function.update s.cache reg (value.setWidth 8) }
    let addr := uda1341RegAddr.getD reg 0
    if uda1341Ea000 ≤ reg ∧ reg ≤ uda1341Ea110 then
      let selected := l3Write uda1341Data0Addr
        ((addr.setWidth 32 ||| uda1341ExtAddrPrefix).setWidth 8) s.gpio
      let gpio := l3Write uda1341Data0Addr ((value ||| uda1341ExtDataPrefix).setWidth 8) selected
      (0, { cached with gpio := gpio })
    else
      let bit := uda1341DataBit.getD reg 0
      let gpio := l3Write addr ((value ||| bit.setWidth 32).setWidth 8) s.gpio
      (0, { cached with gpio := gpio })

/-- A sequence of writes. -/
def writeRegs (s : Codec) (calls : List (Nat × BitVec 32)) : Codec :=
  calls.foldl (fun t call => (uda1341WriteReg t call.1 call.2).2) s

/-- The writes of `uda1341_init_regs`: reset with a 384 fs clock and the DC filter,
converters on, full volume, flat tone, not muted. -/
def uda1341InitRegs : List (Nat × BitVec 32) :=
  [(10, 0x40 ||| (1 <<< 4) ||| (1 <<< 0)), (11, (1 <<< 1) ||| (1 <<< 0)), (0, 0),
    (1, 0 <<< 2 ||| 0), (2, 0)]

/-! ## Which register a number stands for -/

/-- The register of the chip that a register number of the driver names. -/
def chipReg : Nat → ChipReg
  | 0 => .data00
  | 1 => .data01
  | 2 => .data10
  | 3 => .ext 0
  | 4 => .ext 1
  | 5 => .ext 2
  | 6 => .ext 4
  | 7 => .ext 5
  | 8 => .ext 6
  | 9 => .data1
  | 10 => .status0
  | _ => .status1

/-- The number of data bits of a register. -/
def ChipReg.width : ChipReg → Nat
  | .data00 | .data01 | .data10 => 6
  | .ext _ => 5
  | .data1 => 8
  | .status0 | .status1 => 7

/-- The value has no more bits than the register; numbers that name no register
take any value. -/
def Fits (call : Nat × BitVec 32) : Prop :=
  call.1 < uda1341RegNum → call.2.toNat < 2 ^ (chipReg call.1).width

instance (call : Nat × BitVec 32) : Decidable (Fits call) :=
  inferInstanceAs (Decidable (_ → _))

/-! ## One write -/

/-- The transfers that a write makes. -/
def busCalls (reg : Nat) (value : BitVec 8) : List (BitVec 8 × BitVec 8) :=
  if uda1341Ea000 ≤ reg ∧ reg ≤ uda1341Ea110 then
    [(uda1341Data0Addr, uda1341RegAddr.getD reg 0 ||| 0xC0#8),
      (uda1341Data0Addr, value ||| 0xE0#8)]
  else [(uda1341RegAddr.getD reg 0, value ||| uda1341DataBit.getD reg 0)]

/-- A write to a known register: the cache takes the low byte, and the bus gets the calls. -/
theorem writeReg_eq (s : Codec) {reg : Nat} (hreg : reg < uda1341RegNum) (value : BitVec 32) :
    uda1341WriteReg s reg value =
      (0, ⟨Function.update s.cache reg (value.setWidth 8),
        l3Writes (busCalls reg (value.setWidth 8)) s.gpio, s.attached⟩) := by
  have hmask : ∀ (x : BitVec 32) (m : BitVec 8),
      (x ||| m.setWidth 32).setWidth 8 = x.setWidth 8 ||| m := by
    intro x m
    rw [BitVec.setWidth_or, BitVec.setWidth_setWidth_of_le m (by decide), BitVec.setWidth_eq]
  have haddr : ((uda1341RegAddr.getD reg 0).setWidth 32 ||| uda1341ExtAddrPrefix).setWidth 8 =
      uda1341RegAddr.getD reg 0 ||| 0xC0#8 := by
    have hprefix := hmask ((uda1341RegAddr.getD reg 0).setWidth 32) 0xC0#8
    rwa [BitVec.setWidth_setWidth_of_le _ (by decide), BitVec.setWidth_eq] at hprefix
  have hdata : (value ||| uda1341ExtDataPrefix).setWidth 8 = value.setWidth 8 ||| 0xE0#8 :=
    hmask value 0xE0#8
  rw [uda1341WriteReg, if_neg (Nat.not_le.mpr hreg), busCalls]
  split
  · rw [← haddr, ← hdata]
    rfl
  · rw [← hmask]
    rfl

/-- A register that does not exist is refused. -/
theorem writeReg_out_of_range (s : Codec) {reg : Nat} (hreg : uda1341RegNum ≤ reg)
    (value : BitVec 32) : uda1341WriteReg s reg value = (-1, s) := by
  rw [uda1341WriteReg, if_pos hreg]

/-- A register with a prefix of its own in the data byte. -/
theorem meaning_direct {reg : Nat} (hreg : reg < uda1341RegNum)
    (hdirect : ¬ (uda1341Ea000 ≤ reg ∧ reg ≤ uda1341Ea110)) :
    ∀ v : BitVec 8, v.toNat < 2 ^ (chipReg reg).width →
      meaning (uda1341RegAddr.getD reg 0) (v ||| uda1341DataBit.getD reg 0) =
        .put (chipReg reg) v := by
  have hcases : reg = 0 ∨ reg = 1 ∨ reg = 2 ∨ reg = 9 ∨ reg = 10 ∨ reg = 11 := by
    simp only [uda1341RegNum, uda1341Ea000, uda1341Ea110] at hreg hdirect
    omega
  rcases hcases with rfl | rfl | rfl | rfl | rfl | rfl <;> decide

/-- An extended register: the first transfer sets its address. -/
theorem meaning_extAddr {reg : Nat} (hext : uda1341Ea000 ≤ reg ∧ reg ≤ uda1341Ea110) :
    ∃ address, chipReg reg = .ext address ∧
      meaning uda1341Data0Addr (uda1341RegAddr.getD reg 0 ||| 0xC0#8) = .extAddr address := by
  have hcases : reg = 3 ∨ reg = 4 ∨ reg = 5 ∨ reg = 6 ∨ reg = 7 ∨ reg = 8 := by
    simp only [uda1341Ea000, uda1341Ea110] at hext
    omega
  rcases hcases with rfl | rfl | rfl | rfl | rfl | rfl <;> exact ⟨_, rfl, by decide⟩

/-- The second transfer carries the value. -/
theorem meaning_extData : ∀ v : BitVec 8, v.toNat < 2 ^ 5 →
    meaning uda1341Data0Addr (v ||| 0xE0#8) = .extData v := by
  decide

/-- **What the chip makes of a write.**  A value that fits is stored in the
register that the number names, and in no other. -/
theorem regs_busCalls (c : Chip) {reg : Nat} {value : BitVec 8} (hreg : reg < uda1341RegNum)
    (hvalue : value.toNat < 2 ^ (chipReg reg).width) :
    ((busCalls reg value).foldl Chip.transfer c).regs =
      Function.update c.regs (chipReg reg) value := by
  unfold busCalls
  split
  · rename_i hext
    obtain ⟨address, hname, hmeaning⟩ := meaning_extAddr hext
    rw [hname] at hvalue ⊢
    have hselect : c.transfer (uda1341Data0Addr, uda1341RegAddr.getD reg 0 ||| 0xC0#8) =
        { c with extAddr := address } := by
      simp only [Chip.transfer, hmeaning]
    rw [List.foldl_cons, hselect]
    simp only [List.foldl_cons, List.foldl_nil, Chip.transfer, meaning_extData value hvalue,
      Chip.put]
  · rename_i hdirect
    simp only [List.foldl_cons, List.foldl_nil, Chip.transfer,
      meaning_direct hreg hdirect value hvalue, Chip.put]

/-- No two registers of the driver are one in the chip. -/
theorem chipReg_injective : ∀ a < uda1341RegNum, ∀ b < uda1341RegNum,
    chipReg a = chipReg b → a = b := by
  decide

/-- A value that fits its register loses nothing on the way. -/
theorem Fits.toNat_setWidth {reg : Nat} {value : BitVec 32} (hfits : Fits (reg, value))
    (hreg : reg < uda1341RegNum) :
    (value.setWidth 8).toNat < 2 ^ (chipReg reg).width ∧
      (value.setWidth 8).setWidth 32 = value := by
  have hvalue : value.toNat < 2 ^ (chipReg reg).width := hfits hreg
  have hwidth : 2 ^ (chipReg reg).width ≤ 2 ^ 8 := by
    refine Nat.pow_le_pow_right (by decide) ?_
    cases chipReg reg <;> simp [ChipReg.width]
  have hsmall : (value.setWidth 8).toNat = value.toNat := by
    rw [BitVec.toNat_setWidth, Nat.mod_eq_of_lt (by omega)]
  refine ⟨by omega, BitVec.eq_of_toNat_eq ?_⟩
  rw [BitVec.toNat_setWidth, hsmall, Nat.mod_eq_of_lt value.isLt]

/-- **One write.**  Cache and chip store the same value, under the number and
under the register that it names. -/
theorem writeReg_spec {s : Codec} {reg : Nat} {value : BitVec 32} (hready : Ready s.gpio)
    (hreg : reg < uda1341RegNum) (hfits : Fits (reg, value)) :
    (uda1341WriteReg s reg value).2.cache = Function.update s.cache reg (value.setWidth 8) ∧
      (uda1341WriteReg s reg value).2.chip.regs =
        Function.update s.chip.regs (chipReg reg) (value.setWidth 8) := by
  rw [writeReg_eq s hreg]
  refine ⟨rfl, ?_⟩
  rw [Codec.chip, transfers_l3Writes _ hready, List.foldl_append]
  exact regs_busCalls s.chip hreg (hfits.toNat_setWidth hreg).1

/-! ## Sequences of writes -/

/-- The bus is ready, and the chip and the cache agree on the listed registers. -/
structure Mirrors (regs : List Nat) (s : Codec) : Prop where
  ready : Ready s.gpio
  agree : ∀ reg < uda1341RegNum, reg ∈ regs → s.chip.regs (chipReg reg) = s.cache reg

/-- **Step lemma.**  After a write the register is mirrored, and so are those that were. -/
theorem Mirrors.write {regs : List Nat} {s : Codec} {reg : Nat} {value : BitVec 32}
    (hs : Mirrors regs s) (hfits : Fits (reg, value)) :
    Mirrors (regs ++ [reg]) (uda1341WriteReg s reg value).2 := by
  by_cases hreg : reg < uda1341RegNum
  · obtain ⟨hcache, hchip⟩ := writeReg_spec hs.ready hreg hfits
    have hready : Ready (uda1341WriteReg s reg value).2.gpio := by
      rw [writeReg_eq s hreg]
      exact (received_l3Writes _ hs.ready).2
    refine ⟨hready, fun other hother hmem => ?_⟩
    rw [hcache, hchip]
    by_cases heq : other = reg
    · rw [heq, Function.update_self, Function.update_self]
    · have hname : chipReg other ≠ chipReg reg :=
        fun hsame => heq (chipReg_injective other hother reg hreg hsame)
      have hold : other ∈ regs := by
        rcases List.mem_append.mp hmem with hold | hnew
        · exact hold
        · exact absurd (List.mem_singleton.mp hnew) heq
      rw [Function.update_of_ne heq, Function.update_of_ne hname]
      exact hs.agree other hother hold
  · rw [writeReg_out_of_range s (Nat.not_lt.mp hreg)]
    refine ⟨hs.ready, fun other hother hmem => ?_⟩
    rcases List.mem_append.mp hmem with hold | hnew
    · exact hs.agree other hother hold
    · rw [List.mem_singleton.mp hnew] at hother
      exact absurd hother hreg

/-- **Run lemma.**  All registers written are mirrored. -/
theorem Mirrors.writes {regs : List Nat} {s : Codec} {calls : List (Nat × BitVec 32)}
    (hs : Mirrors regs s) (hfits : ∀ call ∈ calls, Fits call) :
    Mirrors (regs ++ calls.map Prod.fst) (writeRegs s calls) := by
  induction calls generalizing regs s with
  | nil => simpa [writeRegs] using hs
  | cons call rest ih =>
      have hhead := hs.write (hfits call List.mem_cons_self)
      have hrest := ih hhead fun c hc => hfits c (List.mem_cons_of_mem _ hc)
      rw [List.append_assoc] at hrest
      exact hrest

/-- At first no register is promised anything. -/
theorem mirrors_load (gpbdat : BitVec 32) (chip : Chip) : Mirrors [] (Codec.load gpbdat chip) :=
  ⟨ready_start gpbdat, fun _ _ hmem => by simp at hmem⟩

/-- **The cache mirrors the chip.**  After any sequence of writes whose values fit,
every register written so far holds in the chip what the cache reports.  One
further write changes the register it names and no other, in the cache and in the
chip; a number that names no register is refused, and changes nothing. -/
theorem cache_mirrors_chip (gpbdat : BitVec 32) (chip : Chip) (calls : List (Nat × BitVec 32))
    (hfits : ∀ call ∈ calls, Fits call) :
    let s := writeRegs (Codec.load gpbdat chip) calls
    (∀ reg < uda1341RegNum, reg ∈ calls.map Prod.fst →
      (s.chip.regs (chipReg reg)).setWidth 32 = uda1341ReadRegCache s reg) ∧
    ∀ reg value, Fits (reg, value) →
      let out := uda1341WriteReg s reg value
      (reg < uda1341RegNum → out.1 = 0 ∧ uda1341ReadRegCache out.2 reg = value ∧
        (out.2.chip.regs (chipReg reg)).setWidth 32 = value ∧
        (∀ q, q ≠ chipReg reg → out.2.chip.regs q = s.chip.regs q) ∧
        ∀ other, other ≠ reg →
          uda1341ReadRegCache out.2 other = uda1341ReadRegCache s other) ∧
      (uda1341RegNum ≤ reg → out.1 = -1 ∧ out.2.cache = s.cache ∧ out.2.chip = s.chip) := by
  intro s
  have hs : Mirrors (calls.map Prod.fst) s := (mirrors_load gpbdat chip).writes hfits
  refine ⟨fun reg hreg hmem => ?_, fun reg value hvalue => ⟨fun hreg => ?_, fun hreg => ?_⟩⟩
  · rw [uda1341ReadRegCache, if_neg (Nat.not_le.mpr hreg), hs.agree reg hreg hmem]
  · obtain ⟨hcache, hchip⟩ := writeReg_spec hs.ready hreg hvalue
    obtain ⟨-, hback⟩ := hvalue.toNat_setWidth hreg
    refine ⟨?_, ?_, ?_, fun q hq => ?_, fun other hother => ?_⟩
    · rw [writeReg_eq s hreg]
    · rw [uda1341ReadRegCache, if_neg (Nat.not_le.mpr hreg), hcache, Function.update_self, hback]
    · rw [hchip, Function.update_self, hback]
    · rw [hchip, Function.update_of_ne hq]
    · rw [uda1341ReadRegCache, uda1341ReadRegCache, hcache, Function.update_of_ne hother]
  · rw [writeReg_out_of_range s hreg]
    exact ⟨rfl, rfl, rfl⟩

/-- The start-up writes fit their registers, and STATUS0 holds in the chip what the
cache reports after them. -/
theorem cache_mirrors_chip_startup :
    (∀ call ∈ uda1341InitRegs, Fits call) ∧
      let s := writeRegs (Codec.load 0xFFFFFFFF#32 ⟨fun _ => 0, 0⟩) uda1341InitRegs
      (s.chip.regs (chipReg 10)).setWidth 32 = uda1341ReadRegCache s 10 := by
  have hfits : ∀ call ∈ uda1341InitRegs, Fits call := by decide
  exact ⟨hfits, (cache_mirrors_chip 0xFFFFFFFF#32 ⟨fun _ => 0, 0⟩ uda1341InitRegs hfits).1 10
    (by decide) (by decide)⟩

end Alsa
