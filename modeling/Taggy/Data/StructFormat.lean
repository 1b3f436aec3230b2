import Mathlib.Data.Nat.Digits.Defs
import Mathlib.Tactic

/-! Little-endian records without padding, described by a format string. -/

namespace Taggy.Struct

inductive Code where
  | float
  | double
  | uchar
  deriving DecidableEq, Repr

def Code.ofChar? : Char → Option Code
  | 'f' => some .float
  | 'd' => some .double
  | 'B' => some .uchar
  | _ => none

def Code.size : Code → ℕ
  | .float => 4
  | .double => 8
  | .uchar => 1

def parseItems : Option ℕ → List Char → Option (List Code)
  | none, [] => some []
  | some _, [] => none
  | count, c :: cs =>
    if c.isDigit then parseItems (some (10 * count.getD 0 + (c.toNat - '0'.toNat))) cs
    else do
      let code ← Code.ofChar? c
      let codes ← parseItems none cs
      some (List.replicate (count.getD 1) code ++ codes)

def parse (format : String) : Option (List Code) :=
  match format.toList with
  | '<' :: cs => parseItems none cs
  | _ => none

structure Value where
  code : Code
  bits : BitVec (8 * code.size)
  deriving DecidableEq

def littleEndian : ℕ → ℕ → List UInt8
  | 0, _ => []
  | n + 1, k => UInt8.ofNat k :: littleEndian n (k / 256)

def ofLittleEndian (bs : List UInt8) : ℕ := Nat.ofDigits 256 (bs.map UInt8.toNat)

def Value.pack (v : Value) : List UInt8 := littleEndian v.code.size v.bits.toNat

def Code.unpack (c : Code) (bs : List UInt8) : Value := ⟨c, BitVec.ofNat _ (ofLittleEndian bs)⟩

def calcsize (codes : List Code) : ℕ := (codes.map Code.size).sum

def pack (vs : List Value) : List UInt8 := vs.flatMap Value.pack

def unpackFields : List Code → List UInt8 → List Value
  | [], _ => []
  | c :: cs, bs => c.unpack (bs.take c.size) :: unpackFields cs (bs.drop c.size)

def unpack (format : String) (data : List UInt8) : Except String (List Value) :=
  match parse format with
  | none => .error "bad char in struct format"
  | some codes =>
    if data.length = calcsize codes then .ok (unpackFields codes data)
    else .error ("unpack requires a buffer of " ++ toString (calcsize codes) ++ " bytes")

lemma littleEndian_length (n k : ℕ) : (littleEndian n k).length = n := by
  induction n generalizing k with
  | zero => rfl
  | succ n ih => rw [littleEndian, List.length_cons, ih]

lemma ofLittleEndian_cons (b : UInt8) (bs : List UInt8) :
    ofLittleEndian (b :: bs) = b.toNat + 256 * ofLittleEndian bs := Nat.ofDigits_cons

lemma ofLittleEndian_lt (bs : List UInt8) : ofLittleEndian bs < 256 ^ bs.length := by
  have hb : ∀ d ∈ bs.map UInt8.toNat, d < 256 := by
    intro d hd
    obtain ⟨b, -, rfl⟩ := List.mem_map.mp hd
    exact b.toNat_lt
  have hl := Nat.ofDigits_lt_base_pow_length (by norm_num) hb
  rwa [List.length_map] at hl

lemma ofLittleEndian_littleEndian {n k : ℕ} (h : k < 256 ^ n) :
    ofLittleEndian (littleEndian n k) = k := by
  induction n generalizing k with
  | zero =>
    have hk : k = 0 := by simpa using h
    rw [hk]
    rfl
  | succ n ih =>
    have hq : k / 256 < 256 ^ n := Nat.div_lt_of_lt_mul (by rwa [pow_succ'] at h)
    rw [littleEndian, ofLittleEndian_cons, ih hq, UInt8.toNat_ofNat']
    omega

lemma littleEndian_ofLittleEndian (bs : List UInt8) :
    littleEndian bs.length (ofLittleEndian bs) = bs := by
  induction bs with
  | nil => rfl
  | cons b bs ih =>
    have hb := b.toNat_lt
    have hq : (b.toNat + 256 * ofLittleEndian bs) / 256 = ofLittleEndian bs := by omega
    have hr : UInt8.ofNat (b.toNat + 256 * ofLittleEndian bs) = b := by
      apply UInt8.toNat_inj.mp
      rw [UInt8.toNat_ofNat']
      omega
    rw [List.length_cons, littleEndian, ofLittleEndian_cons, hq, hr, ih]

lemma pow_size (n : ℕ) : 2 ^ (8 * n) = 256 ^ n := by
  rw [pow_mul]
  norm_num

@[simp] lemma pack_length (v : Value) : v.pack.length = v.code.size := littleEndian_length _ _

lemma unpack_pack (v : Value) : v.code.unpack v.pack = v := by
  have hv : v.bits.toNat < 256 ^ v.code.size := by
    rw [← pow_size]
    exact v.bits.isLt
  rw [Code.unpack, Value.pack, ofLittleEndian_littleEndian hv, BitVec.ofNat_toNat,
    BitVec.setWidth_eq]

lemma pack_unpack {c : Code} {bs : List UInt8} (h : bs.length = c.size) :
    (c.unpack bs).pack = bs := by
  have hb : ofLittleEndian bs < 2 ^ (8 * c.size) := by
    rw [pow_size, ← h]
    exact ofLittleEndian_lt bs
  rw [Value.pack, Code.unpack, BitVec.toNat_ofNat, Nat.mod_eq_of_lt hb, ← h]
  exact littleEndian_ofLittleEndian bs

lemma pack_size (vs : List Value) : (pack vs).length = calcsize (vs.map Value.code) := by
  induction vs with
  | nil => rfl
  | cons v vs ih =>
    rw [pack, List.flatMap_cons, List.length_append, pack_length]
    exact congrArg (v.code.size + ·) ih

theorem unpackFields_pack (vs : List Value) (extra : List UInt8) :
    unpackFields (vs.map Value.code) (pack vs ++ extra) = vs := by
  induction vs with
  | nil => rfl
  | cons v vs ih =>
    have hp : pack (v :: vs) ++ extra = v.pack ++ (pack vs ++ extra) := by
      rw [pack, List.flatMap_cons, List.append_assoc]
      rfl
    have hl : v.code.size = v.pack.length := (pack_length v).symm
    rw [List.map_cons, unpackFields, hp, hl, List.take_left, List.drop_left, unpack_pack, ih]

theorem unpack_packed {format : String} {vs : List Value}
    (h : parse format = some (vs.map Value.code)) : unpack format (pack vs) = .ok vs := by
  have hv := unpackFields_pack vs []
  rw [List.append_nil] at hv
  rw [unpack, h]
  simp only [pack_size, if_true, hv]

theorem pack_unpackFields {codes : List Code} {data : List UInt8}
    (h : calcsize codes ≤ data.length) :
    pack (unpackFields codes data) = data.take (calcsize codes) := by
  induction codes generalizing data with
  | nil => rfl
  | cons c cs ih =>
    have hs : calcsize (c :: cs) = c.size + calcsize cs := rfl
    rw [hs] at h
    have ht : (data.take c.size).length = c.size := by
      rw [List.length_take]
      omega
    have hd : calcsize cs ≤ (data.drop c.size).length := by
      rw [List.length_drop]
      omega
    rw [unpackFields, pack, List.flatMap_cons, pack_unpack ht, hs, List.take_add]
    exact congrArg (data.take c.size ++ ·) (ih hd)

end Taggy.Struct
