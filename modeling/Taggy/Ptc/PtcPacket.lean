import Taggy.Data.ByteOrder
import Taggy.Data.Crc

/-! The packets of the lidar's command protocol, and the blocks in which a file is sent. -/

namespace Taggy

open Struct

inductive PtcVersion where
  | one
  | two
  deriving DecidableEq

namespace PtcVersion

def identifier0 : PtcVersion → UInt8
  | one => 0x47
  | two => 0x57

def identifier1 : PtcVersion → UInt8
  | one => 0x74
  | two => 0x75

def headerSize : PtcVersion → ℕ
  | one => 8
  | two => 12

-- Where the header has its command; the return code is the next byte.
def cmdPlace : PtcVersion → ℕ
  | one => 2
  | two => 3

end PtcVersion

/-- The bytes of a header, read as the program does through a pointer to its structure. -/
@[ext]
structure PtcHeader (v : PtcVersion) where
  bytes : List UInt8
  length_bytes : bytes.length = v.headerSize

namespace PtcHeader

variable {v : PtcVersion}

def byte (h : PtcHeader v) (i : ℕ) : UInt8 := h.bytes.getD i 0

def isValidIdentifier (h : PtcHeader v) : Bool :=
  h.byte 0 == v.identifier0 && h.byte 1 == v.identifier1

def returnCode (h : PtcHeader v) : UInt8 := h.byte (v.cmdPlace + 1)

def isValidReturnCode (h : PtcHeader v) : Bool := h.isValidIdentifier && h.returnCode == 0

def cmd (h : PtcHeader v) : UInt8 := h.byte v.cmdPlace

def payloadLen (h : PtcHeader v) : ℕ := ofBigEndian (h.bytes.drop (v.headerSize - 4))

/-- What `init` and `SetPayloadLen` leave in the structure, with this return code in it. -/
def make (v : PtcVersion) (cmd returnCode : UInt8) (payloadLen : ℕ) : PtcHeader v where
  bytes := match v with
    | .one => [0x47, 0x74, cmd, returnCode] ++ bigEndian 4 payloadLen
    | .two => [0x57, 0x75, 1, cmd, returnCode, 0, 0, 0] ++ bigEndian 4 payloadLen
  length_bytes := by cases v <;> simp [bigEndian_length, PtcVersion.headerSize]

end PtcHeader

def ptcStreamEncode (v : PtcVersion) (payload : List UInt8) (cmd : UInt8) : List UInt8 :=
  (PtcHeader.make v cmd 0 payload.length).bytes ++ payload

section Crc

def crcPolynomial : BitVec 32 := 0x04c11db7

-- The marker below the byte reaches the highest bit when the byte has left the register.
def crcTableLoop : ℕ → BitVec 32 → BitVec 32 → Option (BitVec 32)
  | 0, _, _ => none
  | fuel + 1, k, j =>
    if j = 0x80000000 then some k
    else
      let next := (k <<< 1) ^^^ (if (k ^^^ j) &&& 0x80000000 ≠ 0 then crcPolynomial else 0)
      crcTableLoop fuel next (j <<< 1)

def crcInit (i : UInt8) : Option (BitVec 32) :=
  crcTableLoop 32 0 ((i.toBitVec.setWidth 32 <<< 24) ||| 0x800000)

def crcTable (i : UInt8) : BitVec 32 := (crcInit i).getD 0

def crcCalc (bytes : List UInt8) : BitVec 32 :=
  bytes.foldl (fun crc b =>
    (crc <<< 8) ^^^
      crcTable (UInt8.ofBitVec ((((crc >>> 24) ^^^ b.toBitVec.setWidth 32) &&& 0xff).setWidth 8)))
    0xffffffff

lemma and_highest_ne_zero (x : BitVec 32) : x &&& 0x80000000 ≠ 0 ↔ x.msb = true := by
  have hand : x &&& 0x80000000 = if x.getLsbD 31 then BitVec.twoPow 32 31 else 0#32 :=
    BitVec.and_twoPow x 31
  rw [hand, BitVec.msb_eq_getLsbD_last]
  cases x.getLsbD 31
  · simp
  · simp only [if_true, iff_true]
    decide

lemma crcTableLoop_eq {n fuel : ℕ} {k y : BitVec 32} (hn : n < 32)
    (hy : ∀ i, i + n ≤ 31 → y.getLsbD i = false) :
    crcTableLoop (n + fuel + 1) k (y ||| BitVec.twoPow 32 (31 - n)) =
      some (Crc.shifts crcPolynomial n (k ^^^ y) ^^^ y <<< n) := by
  induction n generalizing k y with
  | zero =>
    have hzero : y = 0#32 := by
      apply BitVec.eq_of_getLsbD_eq
      intro i hi
      rw [hy i (by omega), BitVec.getLsbD_zero]
    rw [hzero, crcTableLoop, if_pos (by decide), Crc.shifts]
    simp
  | succ n ih =>
    have hmarker : (y ||| BitVec.twoPow 32 (31 - (n + 1))).getLsbD (31 - (n + 1)) = true := by
      rw [BitVec.getLsbD_or, BitVec.getLsbD_twoPow]
      simp
      omega
    have hne : y ||| BitVec.twoPow 32 (31 - (n + 1)) ≠ 0x80000000 := by
      intro h
      have hhighest : (0x80000000 : BitVec 32) = BitVec.twoPow 32 31 := rfl
      rw [h, hhighest, BitVec.getLsbD_twoPow] at hmarker
      simp at hmarker
      omega
    have hmsb : (k ^^^ (y ||| BitVec.twoPow 32 (31 - (n + 1)))).msb = (k ^^^ y).msb := by
      rw [BitVec.msb_xor, BitVec.msb_xor, BitVec.msb_or]
      have htwo : (BitVec.twoPow 32 (31 - (n + 1))).msb = false := by
        rw [BitVec.msb_eq_getLsbD_last, BitVec.getLsbD_twoPow]
        simp
        omega
      rw [htwo, Bool.or_false]
    have hnext : (k <<< 1) ^^^ (if (k ^^^ y).msb = true then crcPolynomial else 0) =
        Crc.shift crcPolynomial (k ^^^ y) ^^^ (y <<< 1) := by
      rw [Crc.shift, BitVec.shiftLeft_xor_distrib, BitVec.xor_comm (k <<< 1 ^^^ y <<< 1),
        BitVec.xor_assoc, BitVec.xor_assoc, BitVec.xor_self, BitVec.xor_zero, BitVec.xor_comm]
      rfl
    have hshift : (y ||| BitVec.twoPow 32 (31 - (n + 1))) <<< 1 =
        (y <<< 1) ||| BitVec.twoPow 32 (31 - n) := by
      rw [BitVec.shiftLeft_or_distrib, BitVec.twoPow_eq, BitVec.twoPow_eq, ← BitVec.shiftLeft_add]
      congr 2
      omega
    have hclear : ∀ i, i + n ≤ 31 → (y <<< 1).getLsbD i = false := by
      intro i hi
      rw [BitVec.getLsbD_shiftLeft]
      cases i with
      | zero => simp
      | succ i => rw [Nat.add_sub_cancel, hy i (by omega), Bool.and_false]
    have hfuel : n + 1 + fuel + 1 = (n + fuel + 1) + 1 := by omega
    rw [hfuel, crcTableLoop, if_neg hne]
    simp only [and_highest_ne_zero, hmsb]
    rw [hnext, hshift, ih (by omega) hclear, BitVec.xor_assoc, BitVec.xor_self, BitVec.xor_zero,
      Crc.shifts, ← BitVec.shiftLeft_add, Nat.add_comm 1]

lemma crcInit_eq (i : UInt8) :
    crcInit i = some (Crc.shifts crcPolynomial 8 (Crc.place 24 i)) := by
  have hclear : ∀ j, j + 8 ≤ 31 → (Crc.place 24 i : BitVec 32).getLsbD j = false := by
    intro j hj
    rw [Crc.place, BitVec.getLsbD_shiftLeft, decide_eq_true (by omega : j < 24), Bool.not_true,
      Bool.and_false, Bool.false_and]
  have hlost : (Crc.place 24 i : BitVec 32) <<< 8 = 0#32 := by
    rw [Crc.place, ← BitVec.shiftLeft_add]
    exact BitVec.shiftLeft_eq_zero (by omega)
  have hloop := @crcTableLoop_eq 8 23 0 _ (by omega) hclear
  rw [hlost, BitVec.xor_zero] at hloop
  have hzero : (0 : BitVec 32) ^^^ Crc.place 24 i = Crc.place 24 i := BitVec.zero_xor
  rw [hzero] at hloop
  exact hloop

lemma crcCalc_eq (bytes : List UInt8) :
    crcCalc bytes = Crc.run crcPolynomial (BitVec.allOnes 32) (bytes.flatMap Crc.bits) := by
  have hstep : ∀ (crc : BitVec 32) (b : UInt8), (crc <<< 8) ^^^ crcTable (UInt8.ofBitVec
      ((((crc >>> 24) ^^^ b.toBitVec.setWidth 32) &&& 0xff).setWidth 8)) =
        Crc.run crcPolynomial crc (Crc.bits b) := by
    intro crc b
    have hindex : UInt8.ofBitVec ((((crc >>> 24) ^^^ b.toBitVec.setWidth 32) &&& 0xff).setWidth 8) =
        Crc.top crc ^^^ b := by
      have hones : (0xff : BitVec 32).setWidth 8 = BitVec.allOnes 8 := rfl
      apply UInt8.toBitVec_inj.mp
      rw [BitVec.setWidth_and, hones, BitVec.and_allOnes, BitVec.setWidth_xor,
        BitVec.setWidth_setWidth_of_le _ (by omega), BitVec.setWidth_eq]
      rfl
    rw [Crc.run_bits (by omega), crcTable, crcInit_eq, Option.getD_some, hindex]
  have hfold : ∀ s : BitVec 32,
      bytes.foldl (fun crc b => Crc.run crcPolynomial crc (Crc.bits b)) s =
      Crc.run crcPolynomial s (bytes.flatMap Crc.bits) := by
    induction bytes with
    | nil =>
      intro s
      rfl
    | cons b bytes ih =>
      intro s
      rw [List.foldl_cons, ih, List.flatMap_cons, Crc.run_append]
  rw [crcCalc]
  simp only [hstep]
  exact hfold _

theorem crcCalc_detects_burst (bytes : List UInt8) :
    (∀ i, (crcInit i).isSome) ∧
      crcCalc bytes = Crc.run crcPolynomial (BitVec.allOnes 32) (bytes.flatMap Crc.bits) ∧
      ∀ (bytes' : List UInt8) (pre bs cs post : List Bool),
        bytes.flatMap Crc.bits = pre ++ bs ++ post → bytes'.flatMap Crc.bits = pre ++ cs ++ post →
        bs.length = cs.length → bs.length ≤ 32 → bs ≠ cs → crcCalc bytes ≠ crcCalc bytes' := by
  refine ⟨fun i => by rw [crcInit_eq]; rfl, crcCalc_eq bytes, ?_⟩
  intro bytes' pre bs cs post hb hb' hl hw hne h
  rw [crcCalc_eq, crcCalc_eq, hb, hb'] at h
  exact hne (Crc.burst_detected rfl hw hl h)

theorem crcCalc_detects_last_bit : crcCalc [0x01, 0x02] ≠ crcCalc [0x01, 0x03] := by
  obtain ⟨-, -, hburst⟩ := crcCalc_detects_burst [0x01, 0x02]
  exact hburst [0x01, 0x03] (Crc.bits 1 ++ [false, false, false, false, false, false, true])
    [false] [true] [] (by decide) (by decide) rfl (by decide) (by decide)

end Crc

/-- The length as the signed number that the program counts down. -/
def intLength (file : List UInt8) : ℤ := (BitVec.ofNat 32 file.length).toInt

def splitFrames (fileLength : ℤ) (file : List UInt8) : List (List UInt8) :=
  if 0 < fileLength then
    file.take (min 1024 fileLength).toNat :: splitFrames (fileLength - 1024) (file.drop 1024)
  else []
termination_by fileLength.toNat

def blockHeader (currentIndex totalSize : ℕ) (crc : BitVec 32) : List UInt8 :=
  bigEndian 4 0 ++ bigEndian 4 currentIndex ++ bigEndian 4 totalSize ++ bigEndian 4 crc.toNat

-- The parser of the second version inherits a method that makes no packages.
def splitFileFrames (v : PtcVersion) (file : List UInt8) : List (List UInt8) :=
  match v with
  | .one =>
    let frames := splitFrames (intLength file) file
    frames.mapIdx fun i frame => blockHeader (i + 1) frames.length (crcCalc frame) ++ frame
  | .two => []

end Taggy
