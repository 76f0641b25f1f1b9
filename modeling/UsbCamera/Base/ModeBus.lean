import Mathlib.Data.List.Basic
import Mathlib.Tactic

/-!
# A clocked bus framed by a mode line

Three lines carry bytes from one sender to its receivers: a clock, a data line,
and a mode line whose edges say which byte comes next.  A receiver looks at
nothing but edges.  A falling edge of the mode line starts an address, the next
rising edge starts the data that belong to it, and every rising edge of the clock
shifts in the level of the data line.

The receiver here does not count.  It keeps whatever was shifted in between two
mode edges, so a statement about what it has received is also a statement about
how many clock edges the sender produced, and about stray edges around a
transfer.

`next_quiet`, `next_mode_fall`, `next_mode_rise` and `next_clock_rise` are the
four things one sample can do, and every waveform is followed with them.
-/

namespace ModeBus

/-- The levels of the three lines. -/
structure Lines where
  mode : Bool
  data : Bool
  clock : Bool
deriving DecidableEq, Repr

/-- What the receiver is in the middle of. -/
inductive Phase where
  | idle
  | address (bits : List Bool)
  | data (target bits : List Bool)
deriving DecidableEq, Repr

/-- The receiver: the last levels seen, the byte being shifted in, and the
transfers that a later one has closed. -/
structure Receiver where
  lines : Lines
  phase : Phase
  closed : List (List Bool × List Bool)
deriving DecidableEq, Repr

/-- The receiver before the first edge. -/
def listen (lines : Lines) : Receiver := ⟨lines, .idle, []⟩

/-- The transfers received so far, the one still open included. -/
def Receiver.received (r : Receiver) : List (List Bool × List Bool) :=
  match r.phase with
  | .data target bits => r.closed ++ [(target, bits)]
  | _ => r.closed

/-- An edge of the mode line. -/
def modeEdge (old new : Bool) (r : Receiver) : Receiver :=
  match old, new with
  | true, false => { r with phase := .address [], closed := r.received }
  | false, true =>
      match r.phase with
      | .address bits => { r with phase := .data bits [] }
      | _ => r
  | _, _ => r

/-- Shift one bit into the byte being received. -/
def Phase.shift (bit : Bool) : Phase → Phase
  | .idle => .idle
  | .address bits => .address (bits ++ [bit])
  | .data target bits => .data target (bits ++ [bit])

/-- Shift in several bits. -/
def Phase.shiftAll (bits : List Bool) (phase : Phase) : Phase :=
  bits.foldl (fun p bit => p.shift bit) phase

/-- An edge of the clock. -/
def clockEdge (old new bit : Bool) (r : Receiver) : Receiver :=
  match old, new with
  | false, true => { r with phase := r.phase.shift bit }
  | _, _ => r

/-- One sample of the lines. -/
def next (r : Receiver) (lines : Lines) : Receiver :=
  let framed := modeEdge r.lines.mode lines.mode r
  { clockEdge r.lines.clock lines.clock lines.data framed with lines := lines }

/-- A sequence of samples; the first only says where the lines were. -/
def receive : List Lines → Receiver
  | [] => listen ⟨false, false, false⟩
  | lines :: rest => rest.foldl next (listen lines)

/-- A receiver has seen the last sample after all others. -/
theorem receive_concat {samples : List Lines} (lines : Lines) (hne : samples ≠ []) :
    receive (samples ++ [lines]) = next (receive samples) lines := by
  cases samples with
  | nil => exact absurd rfl hne
  | cons first rest => simp [receive, List.foldl_append]

/-- A sample without a mode edge or a rising clock changes nothing. -/
theorem next_quiet {r : Receiver} {lines : Lines} (hmode : lines.mode = r.lines.mode)
    (hclock : lines.clock = true → r.lines.clock = true) :
    next r lines = { r with lines := lines } := by
  cases hm : r.lines.mode <;> cases hc : r.lines.clock <;> cases hl : lines.clock <;>
    simp_all [next, modeEdge, clockEdge]

/-- A rising clock shifts in the data line. -/
theorem next_clock_rise {r : Receiver} {lines : Lines} (hmode : lines.mode = r.lines.mode)
    (hold : r.lines.clock = false) (hnew : lines.clock = true) :
    next r lines = { r with lines := lines, phase := r.phase.shift lines.data } := by
  cases hm : r.lines.mode <;> simp_all [next, modeEdge, clockEdge]

/-- A falling mode line closes the open transfer and starts an address. -/
theorem next_mode_fall {r : Receiver} {lines : Lines} (hclock : lines.clock = r.lines.clock)
    (hold : r.lines.mode = true) (hnew : lines.mode = false) :
    next r lines = ⟨lines, .address [], r.received⟩ := by
  cases hc : r.lines.clock <;> simp_all [next, modeEdge, clockEdge]

/-- A rising mode line after an address starts its data. -/
theorem next_mode_rise {r : Receiver} {lines : Lines} {bits : List Bool}
    (hclock : lines.clock = r.lines.clock) (hold : r.lines.mode = false)
    (hnew : lines.mode = true) (hphase : r.phase = .address bits) :
    next r lines = ⟨lines, .data bits [], r.closed⟩ := by
  cases hc : r.lines.clock <;> simp_all [next, modeEdge, clockEdge]

/-- A mode or clock edge while the receiver is idle is lost on it, unless it is a
falling edge of the mode line. -/
theorem next_idle {r : Receiver} {lines : Lines} (hphase : r.phase = .idle)
    (hmode : r.lines.mode = true → lines.mode = true) :
    next r lines = { r with lines := lines } := by
  cases hm : r.lines.mode <;> cases hl : lines.mode <;> cases hc : r.lines.clock <;>
    cases hk : lines.clock <;> simp_all [next, modeEdge, clockEdge, Phase.shift]

/-- Bits of an address are collected in their order. -/
@[simp] theorem shiftAll_address (bits sofar : List Bool) :
    (Phase.address sofar).shiftAll bits = .address (sofar ++ bits) := by
  induction bits generalizing sofar with
  | nil => simp [Phase.shiftAll]
  | cons bit rest ih =>
      have hstep : (Phase.address sofar).shiftAll (bit :: rest) =
          (Phase.address (sofar ++ [bit])).shiftAll rest := rfl
      rw [hstep, ih, List.append_assoc, List.singleton_append]

/-- So are bits of data; the address stays. -/
@[simp] theorem shiftAll_data (bits target sofar : List Bool) :
    (Phase.data target sofar).shiftAll bits = .data target (sofar ++ bits) := by
  induction bits generalizing sofar with
  | nil => simp [Phase.shiftAll]
  | cons bit rest ih =>
      have hstep : (Phase.data target sofar).shiftAll (bit :: rest) =
          (Phase.data target (sofar ++ [bit])).shiftAll rest := rfl
      rw [hstep, ih, List.append_assoc, List.singleton_append]

/-! ## Bytes, least significant bit first -/

/-- The number whose binary digits are the listed bits, the first the lowest. -/
def assemble : List Bool → Nat
  | [] => 0
  | bit :: rest => bit.toNat + 2 * assemble rest

/-- The `n` lowest bits of a word, the lowest first. -/
def lowBits {w : Nat} : Nat → BitVec w → List Bool
  | 0, _ => []
  | n + 1, x => x.getLsbD 0 :: lowBits n (x >>> 1)

/-- There are as many bits as were asked for. -/
@[simp] theorem length_lowBits {w : Nat} (n : Nat) (x : BitVec w) :
    (lowBits n x).length = n := by
  induction n generalizing x with
  | zero => rfl
  | succ n ih => simp [lowBits, ih]

/-- Reading the low bits back gives the low part of the word. -/
theorem assemble_lowBits {w : Nat} (n : Nat) (x : BitVec w) :
    assemble (lowBits n x) = x.toNat % 2 ^ n := by
  induction n generalizing x with
  | zero => simp [lowBits, assemble, Nat.mod_one]
  | succ n ih =>
      have hshift : (x >>> 1).toNat = x.toNat / 2 := by
        rw [BitVec.toNat_ushiftRight, Nat.shiftRight_eq_div_pow, pow_one]
      have hlow : (x.getLsbD 0).toNat = x.toNat % 2 := by
        rw [BitVec.getLsbD, Nat.toNat_testBit, pow_zero, Nat.div_one]
      rw [lowBits, assemble, ih, hshift, hlow, pow_succ', Nat.mod_mul]

end ModeBus
