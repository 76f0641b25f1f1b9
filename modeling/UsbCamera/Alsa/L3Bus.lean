import UsbCamera.Base.ModeBus

/-!
# The L3 bus on three GPIO pins

The S3C2440 has no L3 controller, so the codec driver moves the three lines of
the bus by hand: L3MODE is bit 2 of the port's data register, L3DATA is bit 3 and
L3CLOCK is bit 4.  Every `set_mod`, `set_dat` and `set_clk` is one
read-modify-write of that register, and the waveform on the wires is the list of
the values the register has had.

Nothing is known about the pins when the first transfer starts, and each transfer
begins and ends by raising all three lines.  From some pin states that alone
makes clock and mode edges.  `l3_transfers_faithful` says that none of them is
taken for a bit: a receiver that goes by edges recovers every address and every
data byte, eight bits each, and nothing else.
-/

namespace Alsa

open ModeBus

/-! ## The driver -/

/-- The data register of the port: the value it had at first, and the values
written since. -/
structure Gpio where
  initial : BitVec 32
  written : List (BitVec 32)
deriving DecidableEq, Repr

/-- What `*gpbdat` reads. -/
def Gpio.gpbdat (g : Gpio) : BitVec 32 := g.written.getLastD g.initial

/-- All values the register has had. -/
def Gpio.values (g : Gpio) : List (BitVec 32) := g.initial :: g.written

/-- A write to `*gpbdat`. -/
def Gpio.write (g : Gpio) (value : BitVec 32) : Gpio :=
  { g with written := g.written ++ [value] }

/-- The register before the driver touches it. -/
def Gpio.start (value : BitVec 32) : Gpio := ⟨value, []⟩

/-- Raise or lower one pin. -/
def setPin (bit : Nat) (val : BitVec 32) (g : Gpio) : Gpio :=
  if val ≠ 0 then g.write (g.gpbdat ||| (1#32 <<< bit))
  else g.write (g.gpbdat &&& ~~~(1#32 <<< bit))

def setMod (val : BitVec 32) (g : Gpio) : Gpio := setPin 2 val g

def setClk (val : BitVec 32) (g : Gpio) : Gpio := setPin 4 val g

def setDat (val : BitVec 32) (g : Gpio) : Gpio := setPin 3 val g

/-- The loop of `sendbyte`, with the rounds still to go. -/
def sendbits : Nat → BitVec 32 → Gpio → Gpio
  | 0, _, g => g
  | n + 1, byte, g =>
      sendbits n (byte >>> 1) (setClk 1 (setDat (byte &&& 1) (setClk 0 g)))

def sendbyte (byte : BitVec 32) (g : Gpio) : Gpio := sendbits 8 byte g

/-- The three lines high, as before and after every transfer. -/
def raiseLines (g : Gpio) : Gpio := setMod 1 (setDat 1 (setClk 1 g))

def l3Write (addr data : BitVec 8) (g : Gpio) : Gpio :=
  let addressed := sendbyte (addr.setWidth 32) (setMod 0 (raiseLines g))
  raiseLines (sendbyte (data.setWidth 32) (setMod 1 addressed))

/-- A sequence of transfers. -/
def l3Writes (calls : List (BitVec 8 × BitVec 8)) (g : Gpio) : Gpio :=
  calls.foldl (fun g call => l3Write call.1 call.2 g) g

/-! ## The wires -/

/-- The levels that a value of the register puts on the lines. -/
def lines (value : BitVec 32) : Lines :=
  ⟨value.getLsbD 2, value.getLsbD 3, value.getLsbD 4⟩

/-- The receiver at the other end, after the waveform so far. -/
def Gpio.receiver (g : Gpio) : Receiver := receive (g.values.map lines)

/-- The byte that eight received bits make. -/
def byteOf (bits : List Bool) : BitVec 8 := BitVec.ofNat 8 (assemble bits)

/-- The transfers that the receiver has seen, as bytes. -/
def Gpio.transfers (g : Gpio) : List (BitVec 8 × BitVec 8) :=
  g.receiver.received.map fun bits => (byteOf bits.1, byteOf bits.2)

@[simp] theorem gpbdat_write (g : Gpio) (value : BitVec 32) : (g.write value).gpbdat = value := by
  simp [Gpio.gpbdat, Gpio.write]

/-- The chip sees the lines at every write. -/
theorem receiver_write (g : Gpio) (value : BitVec 32) :
    (g.write value).receiver = next g.receiver (lines value) := by
  have hvalues : (g.write value).values.map lines = g.values.map lines ++ [lines value] := by
    simp [Gpio.values, Gpio.write]
  rw [Gpio.receiver, hvalues, receive_concat _ (by simp [Gpio.values])]
  rfl

/-- The receiver has seen the present levels. -/
theorem receiver_lines (g : Gpio) : g.receiver.lines = lines g.gpbdat := by
  obtain ⟨initial, written⟩ := g
  rcases List.eq_nil_or_concat written with rfl | ⟨before, value, rfl⟩
  · rfl
  · have hshape : Gpio.mk initial (before.concat value) = (Gpio.mk initial before).write value := by
      simp [Gpio.write]
    rw [hshape, receiver_write, gpbdat_write]
    rfl

/-! ### One pin at a time -/

/-- Setting one pin changes one line. -/
theorem lines_setMod (val : BitVec 32) (g : Gpio) :
    lines (setMod val g).gpbdat = { lines g.gpbdat with mode := decide (val ≠ 0) } := by
  by_cases hval : val = 0#32 <;> simp [setMod, setPin, hval, lines]

theorem lines_setDat (val : BitVec 32) (g : Gpio) :
    lines (setDat val g).gpbdat = { lines g.gpbdat with data := decide (val ≠ 0) } := by
  by_cases hval : val = 0#32 <;> simp [setDat, setPin, hval, lines]

theorem lines_setClk (val : BitVec 32) (g : Gpio) :
    lines (setClk val g).gpbdat = { lines g.gpbdat with clock := decide (val ≠ 0) } := by
  by_cases hval : val = 0#32 <;> simp [setClk, setPin, hval, lines]

/-- Moving a pin shows the receiver the levels it leaves. -/
theorem receiver_setPin (bit : Nat) (val : BitVec 32) (g : Gpio) :
    (setPin bit val g).receiver = next g.receiver (lines (setPin bit val g).gpbdat) := by
  by_cases hval : val = 0#32 <;> simp [setPin, hval, receiver_write]

/-- Moving the data line is no edge. -/
theorem receiver_setDat (val : BitVec 32) (g : Gpio) :
    (setDat val g).receiver = { g.receiver with lines := lines (setDat val g).gpbdat } := by
  have hlines := receiver_lines g
  rw [setDat, receiver_setPin]
  refine next_quiet ?_ ?_ <;> rw [← setDat, lines_setDat, hlines]
  exact id

/-- Lowering the clock shifts nothing in. -/
theorem receiver_setClk_low (g : Gpio) :
    (setClk 0 g).receiver = { g.receiver with lines := lines (setClk 0 g).gpbdat } := by
  have hlines := receiver_lines g
  rw [setClk, receiver_setPin]
  refine next_quiet ?_ ?_ <;> rw [← setClk, lines_setClk, hlines]
  intro habsurd
  simp at habsurd

/-- Raising a low clock shifts in the data line. -/
theorem receiver_setClk_high {g : Gpio} (hlow : (lines g.gpbdat).clock = false) :
    (setClk 1 g).receiver =
      { g.receiver with lines := lines (setClk 1 g).gpbdat,
                        phase := g.receiver.phase.shift (lines g.gpbdat).data } := by
  have hlines := receiver_lines g
  have hdata : (lines (setClk 1 g).gpbdat).data = (lines g.gpbdat).data := by rw [lines_setClk]
  rw [setClk, receiver_setPin, ← setClk, ← hdata]
  refine next_clock_rise ?_ ?_ ?_
  · rw [lines_setClk, hlines]
  · rw [hlines, hlow]
  · rw [lines_setClk]
    rfl

/-! ### A byte -/

/-- The test of the lowest bit. -/
theorem and_one_ne_zero (byte : BitVec 32) : decide (byte &&& 1 ≠ 0) = byte.getLsbD 0 := by
  have hand : byte &&& 1 = BitVec.setWidth 32 (BitVec.ofBool (byte.getLsbD 0)) :=
    BitVec.and_one_eq_setWidth_ofBool_getLsbD
  rw [hand]
  cases byte.getLsbD 0 <;> rfl

/-- One round of the loop shifts in the lowest bit of what is left of the
byte. -/
theorem receiver_round (byte : BitVec 32) (g : Gpio) :
    let sent := setClk 1 (setDat (byte &&& 1) (setClk 0 g))
    sent.receiver = ⟨⟨(lines g.gpbdat).mode, byte.getLsbD 0, true⟩,
      g.receiver.phase.shift (byte.getLsbD 0), g.receiver.closed⟩ := by
  intro sent
  have hlow : (lines (setDat (byte &&& 1) (setClk 0 g)).gpbdat).clock = false := by
    rw [lines_setDat, lines_setClk]
    rfl
  rw [receiver_setClk_high hlow, receiver_setDat, receiver_setClk_low]
  simp only [lines_setClk, lines_setDat, and_one_ne_zero]
  rfl

/-- **The loop.**  The receiver shifts in the low bits of the byte in order, and
the mode line stays where it was. -/
theorem receiver_sendbits (n : Nat) (byte : BitVec 32) (g : Gpio) :
    (sendbits n byte g).receiver.phase = g.receiver.phase.shiftAll (lowBits n byte) ∧
      (sendbits n byte g).receiver.closed = g.receiver.closed ∧
      (lines (sendbits n byte g).gpbdat).mode = (lines g.gpbdat).mode ∧
      (0 < n → (lines (sendbits n byte g).gpbdat).clock = true) := by
  induction n generalizing byte g with
  | zero => exact ⟨rfl, rfl, rfl, fun h => absurd h (Nat.lt_irrefl 0)⟩
  | succ n ih =>
      have hround := receiver_round byte g
      obtain ⟨hphase, hclosed, hmode, hclock⟩ :=
        ih (byte >>> 1) (setClk 1 (setDat (byte &&& 1) (setClk 0 g)))
      rw [hround] at hphase hclosed
      rw [← receiver_lines (setClk 1 _), hround] at hmode
      refine ⟨hphase, hclosed, hmode, fun _ => ?_⟩
      rcases Nat.eq_zero_or_pos n with rfl | hn
      · rw [sendbits, sendbits, lines_setClk]
        rfl
      · exact hclock hn

/-! ### A transfer -/

/-- Between transfers the receiver is idle, or all lines are high. -/
def Ready (g : Gpio) : Prop :=
  g.receiver.phase = .idle ∨ lines g.gpbdat = ⟨true, true, true⟩

/-- At rest all three lines are high. -/
theorem lines_raiseLines (g : Gpio) : lines (raiseLines g).gpbdat = ⟨true, true, true⟩ := by
  rw [raiseLines, lines_setMod, lines_setDat, lines_setClk]
  rfl

/-- A pin moved while the receiver is idle, or without a mode edge while the clock
is high, is taken for nothing. -/
theorem receiver_setPin_unheard {bit : Nat} {val : BitVec 32} {g : Gpio}
    (hcase : g.receiver.phase = .idle ∧
        ((lines g.gpbdat).mode = true → (lines (setPin bit val g).gpbdat).mode = true) ∨
      (lines (setPin bit val g).gpbdat).mode = (lines g.gpbdat).mode ∧
        (lines g.gpbdat).clock = true) :
    (setPin bit val g).receiver =
      { g.receiver with lines := lines (setPin bit val g).gpbdat } := by
  rw [receiver_setPin]
  rcases hcase with ⟨hidle, hmode⟩ | ⟨hmode, hclock⟩
  · exact next_idle hidle (by rwa [receiver_lines])
  · refine next_quiet ?_ fun _ => ?_ <;> rw [receiver_lines]
    · exact hmode
    · exact hclock

/-- Raising the lines is taken for nothing, before the first transfer and after the
last bit of one. -/
theorem receiver_raiseLines {g : Gpio}
    (hready : g.receiver.phase = .idle ∨
      (lines g.gpbdat).mode = true ∧ (lines g.gpbdat).clock = true) :
    (raiseLines g).receiver = { g.receiver with lines := ⟨true, true, true⟩ } := by
  have hclk : (setClk 1 g).receiver = { g.receiver with lines := lines (setClk 1 g).gpbdat } := by
    refine receiver_setPin_unheard ?_
    rw [← setClk, lines_setClk]
    exact hready.imp (fun hidle => ⟨hidle, id⟩) (fun hhigh => ⟨rfl, hhigh.2⟩)
  have hmod : (raiseLines g).receiver =
      { (setDat 1 (setClk 1 g)).receiver with lines := lines (raiseLines g).gpbdat } := by
    refine receiver_setPin_unheard ?_
    rw [← setMod, lines_setMod, receiver_setDat, hclk, lines_setDat, lines_setClk]
    exact hready.imp (fun hidle => ⟨hidle, fun _ => rfl⟩) (fun hhigh => ⟨hhigh.1.symm, rfl⟩)
  rw [hmod, receiver_setDat, hclk, lines_raiseLines]

/-- The first half of a transfer: the falling mode line closes what was received
before, and the address is shifted in. -/
theorem receiver_address {g : Gpio} (addr : BitVec 32) (hready : Ready g) :
    let sent := sendbyte addr (setMod 0 (raiseLines g))
    sent.receiver.phase = .address (lowBits 8 addr) ∧
      sent.receiver.closed = g.receiver.received ∧ (lines sent.gpbdat).mode = false := by
  intro sent
  have hstart : (raiseLines g).receiver = { g.receiver with lines := ⟨true, true, true⟩ } := by
    refine receiver_raiseLines (hready.imp id fun hhigh => ?_)
    rw [hhigh]
    exact ⟨rfl, rfl⟩
  have hfall : (setMod 0 (raiseLines g)).receiver =
      ⟨⟨false, true, true⟩, .address [], g.receiver.received⟩ := by
    rw [setMod, receiver_setPin, ← setMod, lines_setMod, lines_raiseLines, hstart]
    exact next_mode_fall rfl rfl rfl
  obtain ⟨hphase, hclosed, hmode, -⟩ := receiver_sendbits 8 addr (setMod 0 (raiseLines g))
  rw [hfall] at hphase hclosed
  rw [← receiver_lines (setMod 0 _), hfall] at hmode
  rw [shiftAll_address, List.nil_append] at hphase
  exact ⟨hphase, hclosed, hmode⟩

/-- The second half: the rising mode line starts the data, and they are shifted
in. -/
theorem receiver_data {g : Gpio} {bits : List Bool} (data : BitVec 32)
    (hphase : g.receiver.phase = .address bits) (hmode : (lines g.gpbdat).mode = false) :
    let sent := sendbyte data (setMod 1 g)
    sent.receiver.phase = .data bits (lowBits 8 data) ∧
      sent.receiver.closed = g.receiver.closed ∧
      (lines sent.gpbdat).mode = true ∧ (lines sent.gpbdat).clock = true := by
  intro sent
  have hrise : (setMod 1 g).receiver =
      ⟨lines (setMod 1 g).gpbdat, .data bits [], g.receiver.closed⟩ := by
    rw [setMod, receiver_setPin, ← setMod, lines_setMod]
    refine next_mode_rise ?_ ?_ rfl hphase <;> rw [receiver_lines]
    exact hmode
  have hhigh : (lines (setMod 1 g).gpbdat).mode = true := by
    rw [lines_setMod]
    rfl
  obtain ⟨hdata, hclosed, hkept, hclock⟩ := receiver_sendbits 8 data (setMod 1 g)
  rw [hrise] at hdata hclosed
  rw [shiftAll_data, List.nil_append] at hdata
  exact ⟨hdata, hclosed, hkept.trans hhigh, hclock (by decide)⟩

/-- **One transfer.**  The receiver gets the eight bits of the address and the
eight bits of the data, and is ready again. -/
theorem received_l3Write {g : Gpio} (addr data : BitVec 8) (hready : Ready g) :
    (l3Write addr data g).receiver.received = g.receiver.received ++
        [(lowBits 8 (addr.setWidth 32), lowBits 8 (data.setWidth 32))] ∧
      Ready (l3Write addr data g) := by
  obtain ⟨haddr, hbefore, hlow⟩ := receiver_address (addr.setWidth 32) hready
  obtain ⟨hdata, hclosed, hmode, hclock⟩ := receiver_data (data.setWidth 32) haddr hlow
  refine ⟨?_, Or.inr (lines_raiseLines _)⟩
  rw [l3Write, receiver_raiseLines (Or.inr ⟨hmode, hclock⟩), Receiver.received]
  simp only [hdata, hclosed, hbefore]

/-! ## Whole sequences -/

/-- Before the first write the chip is ready. -/
theorem ready_start (value : BitVec 32) : Ready (Gpio.start value) := Or.inl rfl

/-- The eight bits that are sent are the byte. -/
theorem byteOf_lowBits (byte : BitVec 8) : byteOf (lowBits 8 (byte.setWidth 32)) = byte := by
  apply BitVec.eq_of_toNat_eq
  rw [byteOf, assemble_lowBits, BitVec.toNat_ofNat, BitVec.toNat_setWidth]
  omega

/-- What a sequence of transfers adds to what has been received. -/
theorem received_l3Writes {g : Gpio} (calls : List (BitVec 8 × BitVec 8)) (hready : Ready g) :
    (l3Writes calls g).receiver.received = g.receiver.received ++ (calls.map fun call =>
        (lowBits 8 (call.1.setWidth 32), lowBits 8 (call.2.setWidth 32))) ∧
      Ready (l3Writes calls g) := by
  induction calls generalizing g with
  | nil => exact ⟨(List.append_nil _).symm, hready⟩
  | cons call rest ih =>
      obtain ⟨hreceived, hnext⟩ := received_l3Write call.1 call.2 hready
      have hrest := ih hnext
      rw [hreceived, List.append_assoc] at hrest
      exact hrest

/-- The transfers reach the other end as the bytes they were called with. -/
theorem transfers_l3Writes {g : Gpio} (calls : List (BitVec 8 × BitVec 8)) (hready : Ready g) :
    (l3Writes calls g).transfers = g.transfers ++ calls := by
  have hbytes : ∀ call ∈ calls,
      (byteOf (lowBits 8 (call.1.setWidth 32)), byteOf (lowBits 8 (call.2.setWidth 32))) = call :=
    fun call _ => Prod.ext (byteOf_lowBits call.1) (byteOf_lowBits call.2)
  rw [Gpio.transfers, (received_l3Writes calls hready).1, List.map_append, List.map_map]
  exact congrArg _ ((List.map_congr_left hbytes).trans (List.map_id calls))

/-- **Only the three pins move.**  What moving them keeps is kept by a transfer. -/
theorem l3Write_keeps {P : Gpio → Prop}
    (hpin : ∀ bit ∈ [2, 3, 4], ∀ val g, P g → P (setPin bit val g))
    (addr data : BitVec 8) {g : Gpio} (hg : P g) : P (l3Write addr data g) := by
  have hmod : ∀ val {h}, P h → P (setMod val h) := fun val _ => hpin 2 (by decide) val _
  have hdat : ∀ val {h}, P h → P (setDat val h) := fun val _ => hpin 3 (by decide) val _
  have hclk : ∀ val {h}, P h → P (setClk val h) := fun val _ => hpin 4 (by decide) val _
  have hraise : ∀ {h}, P h → P (raiseLines h) := fun hh => hmod 1 (hdat 1 (hclk 1 hh))
  have hsend : ∀ n byte {h}, P h → P (sendbits n byte h) := by
    intro n
    induction n with
    | zero => exact fun _ _ hh => hh
    | succ n ih => exact fun byte _ hh => ih _ (hclk 1 (hdat _ (hclk 0 hh)))
  exact hraise (hsend 8 _ (hmod 1 (hsend 8 _ (hmod 0 (hraise hg)))))

/-- Every value the register has had agrees with `value` off the three pins. -/
def OthersKept (value : BitVec 32) (g : Gpio) : Prop :=
  ∀ v ∈ g.values, ∀ i, i ∉ [2, 3, 4] → v.getLsbD i = value.getLsbD i

/-- The register holds the value that was written last. -/
theorem gpbdat_mem_values (g : Gpio) : g.gpbdat ∈ g.values := by
  rw [Gpio.gpbdat, Gpio.values, List.getLastD_eq_getLast?]
  cases hlast : g.written.getLast? with
  | none => exact List.mem_cons_self
  | some v => exact List.mem_cons_of_mem _ (List.mem_of_getLast? hlast)

/-- Setting one of the three pins leaves the others of the port alone. -/
theorem OthersKept.setPin {value : BitVec 32} {bit : Nat} (hbit : bit ∈ [2, 3, 4])
    (val : BitVec 32) {g : Gpio} (hg : OthersKept value g) :
    OthersKept value (setPin bit val g) := by
  have hwrite : ∀ v, (∀ i, i ∉ [2, 3, 4] → v.getLsbD i = g.gpbdat.getLsbD i) →
      OthersKept value (g.write v) := by
    intro v hv w hw i hi
    rcases List.mem_append.mp (show w ∈ g.values ++ [v] from hw) with hold | hnew
    · exact hg w hold i hi
    · rw [List.mem_singleton.mp hnew, hv i hi]
      exact hg _ (gpbdat_mem_values g) i hi
  have hmask : ∀ i, i ∉ [2, 3, 4] → (1#32 <<< bit).getLsbD i = false := by
    intro i hi
    have hne : i ≠ bit := fun heq => hi (heq ▸ hbit)
    have hpow : (BitVec.twoPow 32 bit).getLsbD i = false := by
      rw [BitVec.getLsbD_twoPow]
      simp [hne.symm]
    exact hpow
  unfold Alsa.setPin
  split
  · refine hwrite _ fun i hi => ?_
    rw [BitVec.getLsbD_or, hmask i hi, Bool.or_false]
  · refine hwrite _ fun i hi => ?_
    rw [BitVec.getLsbD_and, BitVec.getLsbD_not, hmask i hi]
    by_cases hlt : i < 32
    · simp [hlt]
    · simp [BitVec.getLsbD_of_ge _ _ (Nat.not_lt.mp hlt)]

/-- So does any sequence of bus writes. -/
theorem othersKept_l3Writes {value : BitVec 32} {g : Gpio} (calls : List (BitVec 8 × BitVec 8))
    (hg : OthersKept value g) : OthersKept value (l3Writes calls g) := by
  induction calls generalizing g with
  | nil => exact hg
  | cons call rest ih =>
      refine ih (l3Write_keeps (P := OthersKept value) ?_ call.1 call.2 hg)
      exact fun bit hbit val h hh => hh.setPin hbit val

/-- **The bus transmits faithfully.**  Whatever the register held before, the
receiver recovers the addresses and data of all transfers in order, each byte is
made of exactly eight bits, and the other pins of the port never move. -/
theorem l3_transfers_faithful (gpbdat : BitVec 32) (calls : List (BitVec 8 × BitVec 8)) :
    (l3Writes calls (Gpio.start gpbdat)).transfers = calls ∧
      (∀ bits ∈ (l3Writes calls (Gpio.start gpbdat)).receiver.received,
        bits.1.length = 8 ∧ bits.2.length = 8) ∧
      ∀ value ∈ (l3Writes calls (Gpio.start gpbdat)).values,
        ∀ i, i ∉ [2, 3, 4] → value.getLsbD i = gpbdat.getLsbD i := by
  have hready := ready_start gpbdat
  refine ⟨transfers_l3Writes calls hready, ?_, ?_⟩
  · intro bits hbits
    rw [(received_l3Writes calls hready).1] at hbits
    obtain ⟨call, -, rfl⟩ := List.mem_map.mp hbits
    exact ⟨length_lowBits 8 _, length_lowBits 8 _⟩
  · refine othersKept_l3Writes calls fun value hvalue i _ => ?_
    rw [List.mem_singleton.mp hvalue]
    rfl

end Alsa
