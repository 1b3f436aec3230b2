import Taggy.Data.StructFormat

/-! Unsigned numbers with the highest byte first. -/

namespace Taggy.Struct

def bigEndian (n k : ℕ) : List UInt8 := (littleEndian n k).reverse

def ofBigEndian (bs : List UInt8) : ℕ := ofLittleEndian bs.reverse

lemma bigEndian_length (n k : ℕ) : (bigEndian n k).length = n := by
  rw [bigEndian, List.length_reverse, littleEndian_length]

lemma ofBigEndian_bigEndian {n k : ℕ} (h : k < 256 ^ n) : ofBigEndian (bigEndian n k) = k := by
  rw [ofBigEndian, bigEndian, List.reverse_reverse, ofLittleEndian_littleEndian h]

end Taggy.Struct
