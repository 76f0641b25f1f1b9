import UsbCamera.Myuvc.UrbLedger

/-!
# The geometry of the URBs

`myuvc_alloc_init_urbs` takes the size of a frame from the device and rounds it up
to packets of 800 bytes, at most 32 of them.  Every URB gets that many packets, a
transfer buffer for them, and descriptors that lay the packets out in the buffer.

The layout is right whatever the number of packets is.  The number is another
matter: `DIV_ROUND_UP` adds 799 before it divides, in 32 bits, and the size comes
from the device.  Close enough to `2 ^ 32` the sum wraps to less than a packet, and
the URBs have no packets at all (`urb_geometry_iff`).
-/

namespace Myuvc

/-! ## Pieces in a row -/

/-- The pieces, each an offset and a length, fill the bytes from `lo` to `hi` in a
row, without gap or overlap. -/
def Tiles : Nat → List (Nat × Nat) → Nat → Prop
  | lo, [], hi => lo = hi
  | lo, piece :: rest, hi => piece.1 = lo ∧ Tiles (lo + piece.2) rest hi

theorem Tiles.append {lo mid hi : Nat} {xs ys : List (Nat × Nat)} (hx : Tiles lo xs mid)
    (hy : Tiles mid ys hi) : Tiles lo (xs ++ ys) hi := by
  induction xs generalizing lo with
  | nil =>
      obtain rfl : lo = mid := hx
      exact hy
  | cons piece rest ih => exact ⟨hx.1, ih hx.2⟩

/-- Packets of one size tile what they have together. -/
theorem tiles_packets (psize n : Nat) :
    Tiles 0 ((List.range n).map fun j => (j * psize, psize)) (psize * n) := by
  induction n with
  | zero => rfl
  | succ n ih =>
      rw [List.range_succ, List.map_append]
      refine ih.append ⟨Nat.mul_comm n psize, ?_⟩
      exact (Nat.mul_succ psize n).symm

/-! ## The number of packets -/

/-- What the URBs of a stream with frames of up to `frame` bytes should be like. -/
structure UrbGeometry (frame urbSize : Nat) (u : UrbObj) : Prop where
  packets : 1 ≤ u.numberOfPackets ∧ u.numberOfPackets ≤ 32
  size : urbSize = wMaxPacketSize * u.numberOfPackets
  covers : min frame (32 * wMaxPacketSize) ≤ urbSize
  below : urbSize < frame + wMaxPacketSize
  length : u.transferBufferLength = urbSize
  tiles : Tiles 0 u.isoFrameDesc urbSize

/-- As long as the sum does not wrap, the packets are the frame rounded up. -/
theorem npackets_fits {size : UInt32} (hsize : size ≠ 0) (hfit : size.toNat ≤ 2 ^ 32 - 800) :
    (1 ≤ npackets size ∧ npackets size ≤ 32) ∧
      min size.toNat (32 * wMaxPacketSize) ≤ wMaxPacketSize * npackets size ∧
      wMaxPacketSize * npackets size < size.toNat + wMaxPacketSize := by
  have hpos : size.toNat ≠ 0 := by
    intro hzero
    exact hsize (UInt32.toNat_inj.mp hzero)
  unfold npackets wMaxPacketSize
  omega

/-- When it wraps, there are none. -/
theorem npackets_wraps {size : UInt32} (hwrap : 2 ^ 32 - 800 < size.toNat) : npackets size = 0 := by
  have hlt := size.toNat_lt
  unfold npackets wMaxPacketSize
  omega

/-! ## The URBs of a stream -/

theorem allocSlot_urbSize (env : StreamonEnv) (packets : Nat) (d : Driver) (i : Nat) :
    (allocSlot env packets d i).queue.urbSize = d.queue.urbSize := rfl

/-- The allocating loop keeps the size of the URBs when it succeeds. -/
theorem allocUrbSlots_urbSize {env : StreamonEnv} {packets : Nat} {is : List Nat}
    {d t : Driver} (h : allocUrbSlots env packets is d = (true, t)) :
    t.queue.urbSize = d.queue.urbSize := by
  induction is generalizing d with
  | nil =>
      obtain ⟨-, rfl⟩ := Prod.mk.inj h
      rfl
  | cons i rest ih =>
      obtain ⟨-, heq⟩ | ⟨-, heq⟩ := allocUrbSlots_cons env packets i rest d
      · rw [heq] at h
        rw [ih h, allocSlot_urbSize]
      · rw [heq] at h
        cases h

/-- What a successful `myuvc_alloc_init_urbs` has made of every slot. -/
theorem allocInitUrbs_urbs {d t : Driver} {env : StreamonEnv}
    (h : allocInitUrbs d env = (0, t)) :
    t.queue.urbSize = wMaxPacketSize * npackets d.params.dwMaxVideoFrameSize ∧
      ∀ i < MYUVC_URBS, ∃ u, t.queue.urb i =
        some (setupUrb (npackets d.params.dwMaxVideoFrameSize) t.queue.urbSize u) := by
  unfold allocInitUrbs at h
  simp only at h
  split at h
  · have herror := (Prod.mk.inj h).1
    cases herror
  · rename_i e heq
    have hsize := allocUrbSlots_urbSize heq
    obtain ⟨-, rfl⟩ := Prod.mk.inj h
    refine ⟨hsize, fun i hi => ?_⟩
    have hnodup : urbSlots.Nodup := List.nodup_range
    have htables := allocUrbSlots_tables hnodup env (npackets d.params.dwMaxVideoFrameSize)
      { d with queue := { d.queue with
        urbSize := wMaxPacketSize * npackets d.params.dwMaxVideoFrameSize } }
    rw [heq] at htables
    obtain ⟨-, -, hfull, -⟩ | ⟨-, hfalse, -⟩ := htables
    · have hsome : e.queue.urb i ≠ none := (hfull i (List.mem_range.mpr hi)).1
      obtain ⟨u, hu⟩ := Option.ne_none_iff_exists'.mp hsome
      refine ⟨u, ?_⟩
      simp only [if_pos hi, hu, Option.map_some, hsize]
    · cases hfalse

/-- **URB geometry.**  For a device that reports frames of some size, the URBs that
`myuvc_alloc_init_urbs` allocates are as they should be exactly when the size is at
most `2 ^ 32 - 800`. -/
theorem urb_geometry_iff {d t : Driver} {env : StreamonEnv}
    (hsize : d.params.dwMaxVideoFrameSize ≠ 0) (halloc : allocInitUrbs d env = (0, t)) :
    (∀ i < MYUVC_URBS, ∃ u, t.queue.urb i = some u ∧
      UrbGeometry d.params.dwMaxVideoFrameSize.toNat t.queue.urbSize u) ↔
      d.params.dwMaxVideoFrameSize.toNat ≤ 2 ^ 32 - 800 := by
  obtain ⟨hurbSize, hurbs⟩ := allocInitUrbs_urbs halloc
  constructor
  · intro hall
    obtain ⟨u, hu, hgeometry⟩ := hall 0 (by decide)
    obtain ⟨v, hv⟩ := hurbs 0 (by decide)
    obtain rfl := Option.some.inj (hu.symm.trans hv)
    by_contra hwrap
    have hpackets : 1 ≤ npackets d.params.dwMaxVideoFrameSize := hgeometry.packets.1
    rw [npackets_wraps (by omega)] at hpackets
    omega
  · intro hfit i hi
    obtain ⟨v, hv⟩ := hurbs i hi
    obtain ⟨hpackets, hcovers, hbelow⟩ := npackets_fits hsize hfit
    rw [← hurbSize] at hcovers hbelow
    refine ⟨_, hv, hpackets, hurbSize, hcovers, hbelow, rfl, ?_⟩
    rw [hurbSize]
    exact tiles_packets wMaxPacketSize _

/-- A driver whose device reports frames of the given size. -/
def reporting (size : UInt32) : Driver :=
  { Driver.load 0 with params := { (Driver.load 0).params with dwMaxVideoFrameSize := size } }

/-- A frame of 320 by 240 in two bytes a pixel takes all 32 packets. -/
theorem small_frame_geometry :
    ∃ t, allocInitUrbs (reporting 153600) plainEnv = (0, t) ∧ t.queue.urbSize = 25600 ∧
      ∃ u, t.queue.urb 4 = some u ∧ UrbGeometry 153600 25600 u := by
  have halloc : allocInitUrbs (reporting 153600) plainEnv =
      (0, (allocInitUrbs (reporting 153600) plainEnv).2) := rfl
  refine ⟨_, halloc, rfl, ?_⟩
  exact (urb_geometry_iff (by decide) halloc).mpr (by decide) 4 (by decide)

/-- A device that reports frames of almost `2 ^ 32` bytes gets URBs without
packets. -/
theorem huge_frame_without_packets :
    ∃ t, allocInitUrbs (reporting 4294966497) plainEnv = (0, t) ∧ t.queue.urbSize = 0 ∧
      ∃ u, t.queue.urb 0 = some u ∧ u.numberOfPackets = 0 := by
  have hnone : npackets (reporting 4294966497).params.dwMaxVideoFrameSize = 0 :=
    npackets_wraps (by decide)
  have halloc : allocInitUrbs (reporting 4294966497) plainEnv =
      (0, (allocInitUrbs (reporting 4294966497) plainEnv).2) := rfl
  obtain ⟨hsize, hurbs⟩ := allocInitUrbs_urbs halloc
  obtain ⟨u, hu⟩ := hurbs 0 (by decide)
  rw [hnone] at hsize hu
  exact ⟨_, halloc, hsize, _, hu, rfl⟩

end Myuvc
