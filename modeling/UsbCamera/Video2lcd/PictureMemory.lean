import UsbCamera.Base.Address
import UsbCamera.Base.Copies
import UsbCamera.Video2lcd.Picture

/-!
# Pictures in the memory of the program

`Picture.lean` takes a picture for a block of its own.  Here all pictures lie in one
memory with 32-bit addresses: the data pointer of a picture is the address where it
begins, pointers are added up as the machine does, and a function is what it returns
together with the `memcpy` calls it makes, each with the addresses it has computed.
So a call that leaves its pictures can be seen to do so.

The model follows `merge.c` and `zoom.c` loop by loop.  The lemmas say what the
addresses are for a picture that lies in the memory as a whole (`Placed`).
-/

namespace Video2lcd.InMemory

open CInt Copies Address

/-- The memory of the program. -/
abbrev Memory := Nat → UInt8

/-- `T_PixelDatas` with the address its data pointer holds. -/
abbrev Picture := PixelDatas UInt32

/-- What a call returns, and the copies it makes. -/
structure Call where
  ret : Int32
  copies : List Copy
deriving DecidableEq

/-- The memory that a call leaves. -/
def Call.after (call : Call) (m : Memory) : Memory := run m call.copies

/-- A call that gives up before it copies anything. -/
def refused : Call := ⟨-1, []⟩

/-- The copying loop of `PicMerge` and `PicMergeRegion`; `i` rounds are left. -/
def copyLines (n srcLine dstLine : UInt32) : Nat → UInt32 → UInt32 → List Copy
  | 0, _, _ => []
  | i + 1, pucSrc, pucDst =>
      ⟨pucDst.toNat, pucSrc.toNat, n.toNat⟩ ::
        copyLines n srcLine dstLine i (pucSrc + srcLine) (pucDst + dstLine)

/-- The address of a pixel, as `merge.c` computes it. -/
def pixelAddress (pic : Picture) (iX iY : Int32) : UInt32 :=
  pic.aucPixelDatas + (iY * pic.iLineBytes).toUInt32 + (iX * pic.iBpp / 8).toUInt32

/-- `PicMerge`. -/
def picMerge (iX iY : Int32) (ptSmallPic ptBigPic : Picture) : Call :=
  if ptBigPic.iWidth < ptSmallPic.iWidth ∨ ptBigPic.iHeight < ptSmallPic.iHeight ∨
      ptSmallPic.iBpp ≠ ptBigPic.iBpp then
    refused
  else
    ⟨0, copyLines ptSmallPic.iLineBytes.toUInt32 ptSmallPic.iLineBytes.toUInt32
      ptBigPic.iLineBytes.toUInt32 ptSmallPic.iHeight.toInt.toNat ptSmallPic.aucPixelDatas
      (pixelAddress ptBigPic iX iY)⟩

/-- `PicMergeRegion`. -/
def picMergeRegion (iStartXofNewPic iStartYofNewPic iStartXofOldPic iStartYofOldPic : Int32)
    (iWidth iHeight : Int32) (ptNewPic ptOldPic : Picture) : Call :=
  let iLineBytesCpy := iWidth * ptNewPic.iBpp / 8
  if (iStartXofNewPic < 0 ∨ ptNewPic.iWidth ≤ iStartXofNewPic) ∨
      (iStartYofNewPic < 0 ∨ ptNewPic.iHeight ≤ iStartYofNewPic) ∨
      (iStartXofOldPic < 0 ∨ ptOldPic.iWidth ≤ iStartXofOldPic) ∨
      (iStartYofOldPic < 0 ∨ ptOldPic.iHeight ≤ iStartYofOldPic) then
    refused
  else
    ⟨0, copyLines iLineBytesCpy.toUInt32 ptNewPic.iLineBytes.toUInt32
      ptOldPic.iLineBytes.toUInt32 iHeight.toInt.toNat
      (pixelAddress ptNewPic iStartXofNewPic iStartYofNewPic)
      (pixelAddress ptOldPic iStartXofOldPic iStartYofOldPic)⟩

/-- The loop that fills `pdwSrcXTable`, from column `x` on. -/
def srcXTable (iOriginWidth iZoomWidth : UInt32) : Nat → UInt32 → List UInt32
  | 0, _ => []
  | i + 1, x => x * iOriginWidth / iZoomWidth :: srcXTable iOriginWidth iZoomWidth i (x + 1)

/-- The inner loop of `PicZoom`, along the table from column `x` on. -/
def zoomLine (dwPixelBytes pucDest pucSrc : UInt32) : List UInt32 → UInt32 → List Copy
  | [], _ => []
  | dwSrcX :: rest, x =>
      ⟨(pucDest + x * dwPixelBytes).toNat, (pucSrc + dwSrcX * dwPixelBytes).toNat,
        dwPixelBytes.toNat⟩ :: zoomLine dwPixelBytes pucDest pucSrc rest (x + 1)

/-- The outer loop of `PicZoom`, from line `y` on. -/
def zoomLines (ptOriginPic ptZoomPic : Picture) (pdwSrcXTable : List UInt32) :
    Nat → UInt32 → List Copy
  | 0, _ => []
  | i + 1, y =>
      let dwSrcY := y * ptOriginPic.iHeight.toUInt32 / ptZoomPic.iHeight.toUInt32
      let pucDest := ptZoomPic.aucPixelDatas + y * ptZoomPic.iLineBytes.toUInt32
      let pucSrc := ptOriginPic.aucPixelDatas + dwSrcY * ptOriginPic.iLineBytes.toUInt32
      zoomLine (ptOriginPic.iBpp / 8).toUInt32 pucDest pucSrc pdwSrcXTable 0 ++
        zoomLines ptOriginPic ptZoomPic pdwSrcXTable i (y + 1)

/-- `PicZoom`; `malloc` is asked for the table of source columns. -/
def picZoom (malloc : Malloc) (ptOriginPic ptZoomPic : Picture) : Call :=
  if ptOriginPic.iBpp ≠ ptZoomPic.iBpp then refused
  else if (malloc (4 * ptZoomPic.iWidth.toUInt32).toNat).isNone then refused
  else
    let pdwSrcXTable := srcXTable ptOriginPic.iWidth.toUInt32 ptZoomPic.iWidth.toUInt32
      ptZoomPic.iWidth.toUInt32.toNat 0
    ⟨0, zoomLines ptOriginPic ptZoomPic pdwSrcXTable ptZoomPic.iHeight.toUInt32.toNat 0⟩

/-- A picture of `w` times `h` pixels of `p` bytes whose lines are `stride` bytes apart
lies in the memory as a whole. -/
structure Placed (pic : Picture) (w h p stride : Nat) : Prop where
  width : pic.iWidth.toInt = w
  height : pic.iHeight.toInt = h
  depth : pic.iBpp.toInt = 8 * p
  line : pic.iLineBytes.toInt = stride
  room : w * p ≤ stride
  fits : pic.aucPixelDatas.toNat + stride * h < 2 ^ 32

/-- A picture of the memory as a block of its own. -/
def Picture.block (pic : Picture) (m : Memory) (size : Nat) : PixelDatas Data :=
  { pic with aucPixelDatas := .block ⟨size, ByteStore.window m pic.aucPixelDatas.toNat⟩ }

/-- Two pictures of that many bytes have no byte in common. -/
def Apart (pic : Picture) (size : Nat) (pic' : Picture) (size' : Nat) : Prop :=
  pic.aucPixelDatas.toNat + size ≤ pic'.aucPixelDatas.toNat ∨
    pic'.aucPixelDatas.toNat + size' ≤ pic.aucPixelDatas.toNat

/-- The address of a pixel. -/
theorem Placed.pixelAddress_toNat {pic : Picture} {w h p stride x y : Nat} {iX iY : Int32}
    (hpic : Placed pic w h p stride) (hx : iX.toInt = x) (hy : iY.toInt = y)
    (hbits : x * (8 * p) < 2 ^ 31)
    (hin : pic.aucPixelDatas.toNat + y * stride + x * p < 2 ^ 32) :
    (pixelAddress pic iX iY).toNat = pic.aucPixelDatas.toNat + y * stride + x * p := by
  have hrow : (iY * pic.iLineBytes).toUInt32.toNat = y * stride := by
    rw [Int32.toUInt32_mul, UInt32.toNat_mul, toNat_of_toInt hy, toNat_of_toInt hpic.line]
    exact Nat.mod_eq_of_lt (by omega)
  have hcol : (iX * pic.iBpp / 8).toUInt32.toNat = x * p :=
    toNat_of_toInt (toInt_pixel_bytes hx hpic.depth hbits)
  rw [pixelAddress, UInt32.toNat_add, UInt32.toNat_add, hrow, hcol]
  omega

/-- The calls that the copying loop makes. -/
theorem copyLines_eq (n srcLine dstLine : UInt32) (rounds : Nat) (pucSrc pucDst : UInt32) :
    copyLines n srcLine dstLine rounds pucSrc pucDst =
      (List.range rounds).map fun i =>
        ⟨(pucDst + UInt32.ofNat i * dstLine).toNat, (pucSrc + UInt32.ofNat i * srcLine).toNat,
          n.toNat⟩ := by
  exact ((steps srcLine).prod (steps dstLine)).map_rounds
    (fun s => ⟨s.2.toNat, s.1.toNat, n.toNat⟩)
    (f := fun rounds s => copyLines n srcLine dstLine rounds s.1 s.2) (fun _ => rfl)
    (fun _ _ => rfl) rounds (pucSrc, pucDst)

end Video2lcd.InMemory
