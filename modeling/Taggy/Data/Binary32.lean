import Mathlib.Algebra.Order.Round
import Mathlib.Data.Int.Log
import Mathlib.Tactic
import Taggy.Data.PyFloat

/-! Binary floating point numbers of 32 bits: rounding to nearest, ties to even, and the bits. -/

namespace Taggy

section HalfEven

variable {K : Type} [Field K] [LinearOrder K] [FloorRing K]

def roundHalfEven (x : K) : ℤ :=
  if (round x : K) = x + 1 / 2 ∧ Odd (round x) then round x - 1 else round x

variable [IsStrictOrderedRing K]

/-- Rounding to nearest, ties to even, reaches an integer from half a unit below it on, the
midpoint included exactly if the integer is even. -/
lemma le_roundHalfEven_iff {n : ℤ} {x : K} :
    n ≤ roundHalfEven x ↔ (n : K) < x + 1 / 2 ∨ ((n : K) = x + 1 / 2 ∧ Even n) := by
  have hr : n ≤ round x ↔ (n : K) ≤ x + 1 / 2 := by rw [round_eq, Int.le_floor]
  rw [roundHalfEven]
  split
  · rename_i ht
    rw [Int.le_sub_one_iff, ← ht.1, Int.cast_lt, Int.cast_inj]
    constructor
    · exact Or.inl
    · rintro (hn | ⟨rfl, he⟩)
      · exact hn
      · exact (Int.not_even_iff_odd.mpr ht.2 he).elim
  · rename_i ht
    rw [hr, le_iff_lt_or_eq]
    refine or_congr_right (iff_self_and.mpr fun hn => ?_)
    have hn' : round x = n := by rw [round_eq, ← hn, Int.floor_intCast]
    rw [hn', not_and, Int.not_odd_iff_even] at ht
    exact ht hn

end HalfEven

abbrev Binary32 := BitVec 32

namespace Binary32

section Rounding

def quantum (a : ℚ) : ℤ := if a < 2 ^ (-126 : ℤ) then -149 else Int.log 2 a - 23

def significand (a : ℚ) : ℕ := (roundHalfEven (a / 2 ^ quantum a)).toNat

def nearest (q : ℚ) : ℚ :=
  let a := (significand |q| : ℚ) * 2 ^ quantum |q|
  if q < 0 then -a else a

lemma quantum_cases (a : ℚ) :
    (a < 2 ^ (-126 : ℤ) ∧ quantum a = -149 ∧ a / 2 ^ quantum a < 2 ^ 23) ∨
      (2 ^ (-126 : ℤ) ≤ a ∧ -149 ≤ quantum a ∧ quantum a = Int.log 2 a - 23 ∧
        2 ^ 23 ≤ a / 2 ^ quantum a ∧ a / 2 ^ quantum a < 2 ^ 24) := by
  by_cases h : a < 2 ^ (-126 : ℤ)
  · have hq : quantum a = -149 := if_pos h
    refine Or.inl ⟨h, hq, ?_⟩
    rw [hq, div_lt_iff₀ (by positivity)]
    calc a < 2 ^ (-126 : ℤ) := h
      _ = 2 ^ 23 * 2 ^ (-149 : ℤ) := by norm_num
  · have hq : quantum a = Int.log 2 a - 23 := if_neg h
    rw [not_lt] at h
    have hpos : 0 < a := lt_of_lt_of_le (by positivity) h
    have hlog : -126 ≤ Int.log 2 a := by
      rw [← Int.zpow_le_iff_le_log (by norm_num) hpos]
      exact_mod_cast h
    have hlo : (2 : ℚ) ^ Int.log 2 a ≤ a := by
      exact_mod_cast Int.zpow_log_le_self (by norm_num) hpos
    have hhi : a < (2 : ℚ) ^ (Int.log 2 a + 1) := by
      exact_mod_cast Int.lt_zpow_succ_log_self (by norm_num) a
    refine Or.inr ⟨h, by omega, hq, ?_, ?_⟩
    · rw [le_div_iff₀ (by positivity), hq]
      calc (2 : ℚ) ^ 23 * 2 ^ (Int.log 2 a - 23) = 2 ^ Int.log 2 a := by
            rw [← zpow_natCast, ← zpow_add₀ two_ne_zero]
            congr 1
            norm_num
        _ ≤ a := hlo
    · rw [div_lt_iff₀ (by positivity), hq]
      calc a < 2 ^ (Int.log 2 a + 1) := hhi
        _ = 2 ^ 24 * 2 ^ (Int.log 2 a - 23) := by
            rw [← zpow_natCast, ← zpow_add₀ two_ne_zero]
            congr 1
            push_cast
            ring

variable {a : ℚ}

lemma le_quantum (a : ℚ) : -149 ≤ quantum a := by
  rcases quantum_cases a with ⟨-, hq, -⟩ | ⟨-, hq, -⟩
  · exact hq.ge
  · exact hq

lemma le_significand_iff {n : ℕ} (hn : 0 < n) :
    n ≤ significand a ↔
      (n : ℚ) - 1 / 2 < a / 2 ^ quantum a ∨ ((n : ℚ) - 1 / 2 = a / 2 ^ quantum a ∧ Even n) := by
  have hz : n ≤ significand a ↔ (n : ℤ) ≤ roundHalfEven (a / 2 ^ quantum a) := by
    rw [significand]
    omega
  rw [hz, le_roundHalfEven_iff, Int.cast_natCast, sub_lt_iff_lt_add, sub_eq_iff_eq_add,
    Int.even_coe_nat]

lemma significand_le (a : ℚ) : significand a ≤ 2 ^ 24 := by
  have hlt : a / 2 ^ quantum a < 2 ^ 24 := by
    rcases quantum_cases a with ⟨-, -, hs⟩ | ⟨-, -, -, -, hs⟩
    · exact hs.trans (by norm_num)
    · exact hs
  by_contra hn
  rw [not_le, ← Nat.succ_le_iff, le_significand_iff (by omega)] at hn
  push_cast at hn
  rcases hn with hn | ⟨hn, -⟩ <;> linarith

lemma le_significand (h : -149 < quantum a) : 2 ^ 23 ≤ significand a := by
  rcases quantum_cases a with ⟨-, hq, -⟩ | ⟨-, -, -, hs, -⟩
  · omega
  · rw [le_significand_iff (by omega)]
    refine Or.inl (lt_of_lt_of_le ?_ hs)
    norm_num

lemma significand_eq_zero_iff : significand a = 0 ↔ a ≤ 2 ^ (-150 : ℤ) := by
  have hone : 1 ≤ significand a ↔ 1 / 2 < a / 2 ^ quantum a := by
    rw [le_significand_iff one_pos]
    norm_num
  rw [← Nat.lt_one_iff, ← not_le, hone, not_lt]
  rcases quantum_cases a with ⟨-, hq, -⟩ | ⟨ha, -, -, hs, -⟩
  · rw [hq, div_le_iff₀ (by positivity)]
    have hh : (1 / 2 : ℚ) * 2 ^ (-149 : ℤ) = 2 ^ (-150 : ℤ) := by norm_num
    rw [hh]
  · refine iff_of_false (fun h => ?_) (fun h => ?_)
    · exact absurd (hs.trans h) (by norm_num)
    · exact absurd (ha.trans h) (by norm_num)

end Rounding

section Bits

def infinityBits : ℕ := 255 * 2 ^ 23

def magnitude (a : ℚ) : ℕ := (quantum a + 149).toNat * 2 ^ 23 + significand a

lemma le_of_quantum {a : ℚ} {k : ℤ} (hk : -149 < k) (h : k ≤ quantum a) : 2 ^ 23 * 2 ^ k ≤ a := by
  rcases quantum_cases a with ⟨-, hq, -⟩ | ⟨-, -, -, hs, -⟩
  · omega
  · rw [le_div_iff₀ (by positivity)] at hs
    refine le_trans ?_ hs
    gcongr
    norm_num

lemma lt_of_quantum {a : ℚ} {k : ℤ} (h : quantum a ≤ k) : a < 2 ^ 24 * 2 ^ k := by
  have hs : a < 2 ^ 24 * 2 ^ quantum a := by
    rw [← div_lt_iff₀ (by positivity)]
    rcases quantum_cases a with ⟨-, -, hs⟩ | ⟨-, -, -, -, hs⟩
    · exact hs.trans (by norm_num)
    · exact hs
  refine hs.trans_le ?_
  gcongr
  norm_num

lemma infinityBits_le_iff {a : ℚ} : infinityBits ≤ magnitude a ↔ 2 ^ 128 - 2 ^ 103 ≤ a := by
  have hle := significand_le a
  have hge := le_quantum a
  rcases lt_trichotomy (quantum a) 104 with hq | hq | hq
  · have hlt := lt_of_quantum (k := 103) (by omega : quantum a ≤ 103)
    refine iff_of_false ?_ (not_le.mpr (hlt.trans_le (by norm_num)))
    rw [infinityBits, magnitude]
    omega
  · have hm : infinityBits ≤ magnitude a ↔ 2 ^ 24 ≤ significand a := by
      rw [infinityBits, magnitude, hq]
      omega
    rw [hm, le_significand_iff (by norm_num), hq, and_iff_left (by decide), ← le_iff_lt_or_eq,
      le_div_iff₀ (by positivity)]
    norm_num
  · have hlo := le_of_quantum (by norm_num) (by omega : 105 ≤ quantum a)
    have hs := le_significand (a := a) (by omega)
    refine iff_of_true ?_ (le_trans (by norm_num) hlo)
    rw [infinityBits, magnitude]
    omega

def ofRat (q : ℚ) : Binary32 :=
  BitVec.ofNat 32 ((if q < 0 then 2 ^ 31 else 0) + min (magnitude |q|) infinityBits)

def ofBits (bits : ℕ) : ℚ :=
  let exponent : ℕ := bits / 2 ^ 23
  let fraction : ℕ := bits % 2 ^ 23
  if exponent = 0 then fraction * 2 ^ (-149 : ℤ)
  else (2 ^ 23 + fraction) * 2 ^ ((exponent : ℤ) - 150)

def value (b : Binary32) : PyFloat :=
  let bits : ℕ := b.toNat % 2 ^ 31
  let negative : Bool := decide (2 ^ 31 ≤ b.toNat)
  if bits < infinityBits then .finite (if negative then -ofBits bits else ofBits bits)
  else if bits = infinityBits then if negative then .negInf else .posInf
  else .nan

lemma ofBits_eq {k m : ℕ} (hm : m ≤ 2 ^ 24) (hk : k = 0 ∨ 2 ^ 23 ≤ m) :
    ofBits (k * 2 ^ 23 + m) = m * 2 ^ ((k : ℤ) - 149) := by
  rw [ofBits]
  rcases lt_or_ge m (2 ^ 23) with hlt | hge
  · obtain rfl : k = 0 := hk.resolve_right (not_le.mpr hlt)
    rw [zero_mul, zero_add, Nat.div_eq_of_lt hlt, Nat.mod_eq_of_lt hlt, if_pos rfl]
    norm_num
  rcases hm.lt_or_eq with hlt | rfl
  · have he : (k * 2 ^ 23 + m) / 2 ^ 23 = k + 1 := by omega
    have hf : (k * 2 ^ 23 + m) % 2 ^ 23 = m - 2 ^ 23 := by omega
    have hx : ((k + 1 : ℕ) : ℤ) - 150 = k - 149 := by omega
    rw [he, hf, if_neg (Nat.succ_ne_zero k), Nat.cast_sub hge, hx]
    norm_num
  · have he : (k * 2 ^ 23 + 2 ^ 24) / 2 ^ 23 = k + 2 := by omega
    have hf : (k * 2 ^ 23 + 2 ^ 24) % 2 ^ 23 = 0 := by omega
    have hx : ((k + 2 : ℕ) : ℤ) - 150 = 1 + (k - 149) := by omega
    rw [he, hf, if_neg (Nat.succ_ne_zero (k + 1)), hx, zpow_add₀ two_ne_zero]
    norm_num
    ring

lemma ofBits_magnitude (a : ℚ) : ofBits (magnitude a) = significand a * 2 ^ quantum a := by
  have hq := le_quantum a
  have hk : (quantum a + 149).toNat = 0 ∨ 2 ^ 23 ≤ significand a := by
    rcases hq.eq_or_lt with he | hlt
    · exact Or.inl (by omega)
    · exact Or.inr (le_significand hlt)
  rw [magnitude, ofBits_eq (significand_le a) hk, Int.toNat_of_nonneg (by omega)]
  congr 2
  ring

lemma ofRat_bits (q : ℚ) :
    (ofRat q).toNat % 2 ^ 31 = min (magnitude |q|) infinityBits ∧
      (2 ^ 31 ≤ (ofRat q).toNat ↔ q < 0) := by
  have hinf : infinityBits < 2 ^ 31 := by norm_num [infinityBits]
  have hmin : min (magnitude |q|) infinityBits < 2 ^ 31 := (min_le_right _ _).trans_lt hinf
  have hn : (ofRat q).toNat = (if q < 0 then 2 ^ 31 else 0) + min (magnitude |q|) infinityBits := by
    rw [ofRat, BitVec.toNat_ofNat, Nat.mod_eq_of_lt]
    split <;> omega
  rw [hn]
  by_cases hq : q < 0
  · rw [if_pos hq]
    exact ⟨by omega, iff_of_true (Nat.le_add_right _ _) hq⟩
  · rw [if_neg hq]
    exact ⟨by omega, iff_of_false (by omega) hq⟩

theorem value_ofRat {q : ℚ} (h : |q| < 2 ^ 128 - 2 ^ 103) :
    value (ofRat q) = .finite (nearest q) := by
  obtain ⟨hbits, hsign⟩ := ofRat_bits q
  have hm : magnitude |q| < infinityBits := by
    rw [← not_le, infinityBits_le_iff, not_le]
    exact h
  rw [min_eq_left hm.le] at hbits
  rw [value, hbits, if_pos hm, ofBits_magnitude, nearest]
  simp only [decide_eq_true_eq, hsign]

theorem value_ofRat_overflow {q : ℚ} (h : 2 ^ 128 - 2 ^ 103 ≤ |q|) :
    value (ofRat q) = if q < 0 then .negInf else .posInf := by
  obtain ⟨hbits, hsign⟩ := ofRat_bits q
  rw [min_eq_right (infinityBits_le_iff.mpr h)] at hbits
  rw [value, hbits, if_neg (lt_irrefl _), if_pos rfl]
  simp only [decide_eq_true_eq, hsign]

lemma nearest_eq_zero_iff {q : ℚ} : nearest q = 0 ↔ |q| ≤ 2 ^ (-150 : ℤ) := by
  have hq : nearest q = 0 ↔ (significand |q| : ℚ) * 2 ^ quantum |q| = 0 := by
    rw [nearest]
    split
    · exact neg_eq_zero
    · exact Iff.rfl
  have hp : (2 : ℚ) ^ quantum |q| ≠ 0 := by positivity
  rw [hq, mul_eq_zero, or_iff_left hp, Nat.cast_eq_zero, significand_eq_zero_iff]

lemma ofRat_zero : ofRat 0 = 0 := by
  have hs : significand |(0 : ℚ)| = 0 := significand_eq_zero_iff.mpr (by norm_num)
  have hq : quantum |(0 : ℚ)| = -149 := if_pos (by norm_num)
  rw [ofRat, magnitude, hs, hq]
  rfl

end Bits

section Order

variable {a b : ℚ}

lemma quantum_mono (h : a ≤ b) : quantum a ≤ quantum b := by
  by_contra hlt
  rw [not_le] at hlt
  have hge := le_quantum b
  have hlo := le_of_quantum (by omega : -149 < quantum a) le_rfl
  have hhi := lt_of_quantum (by omega : quantum b ≤ quantum a - 1)
  have hstep : (2 : ℚ) ^ 24 * 2 ^ (quantum a - 1) = 2 ^ 23 * 2 ^ quantum a := by
    rw [zpow_sub_one₀ two_ne_zero]
    ring
  rw [hstep] at hhi
  exact absurd (hlo.trans h) (not_le.mpr hhi)

lemma significand_mono (h : a ≤ b) (hq : quantum a = quantum b) :
    significand a ≤ significand b := by
  rcases Nat.eq_zero_or_pos (significand a) with hzero | hpos
  · rw [hzero]
    exact Nat.zero_le _
  · have hdiv : a / 2 ^ quantum a ≤ b / 2 ^ quantum b := by
      rw [hq]
      gcongr
    rw [le_significand_iff hpos]
    rcases (le_significand_iff hpos).mp le_rfl with hlt | ⟨heq, heven⟩
    · exact Or.inl (hlt.trans_le hdiv)
    · rw [← heq] at hdiv
      exact hdiv.lt_or_eq.imp_right (⟨·, heven⟩)

lemma nearest_mono (ha : 0 ≤ a) (h : a ≤ b) : nearest a ≤ nearest b := by
  have hb : 0 ≤ b := ha.trans h
  rw [nearest, nearest, if_neg ha.not_gt, if_neg hb.not_gt, abs_of_nonneg ha, abs_of_nonneg hb]
  rcases (quantum_mono h).eq_or_lt with hq | hq
  · rw [hq]
    have hs : (significand a : ℚ) ≤ significand b := by exact_mod_cast significand_mono h hq
    gcongr
  · have hge := le_quantum a
    have hsa : (significand a : ℚ) ≤ 2 ^ 24 := by exact_mod_cast significand_le a
    have hsb : (2 : ℚ) ^ 23 ≤ significand b := by
      exact_mod_cast le_significand (by omega : -149 < quantum b)
    calc (significand a : ℚ) * 2 ^ quantum a ≤ 2 ^ 24 * 2 ^ (quantum b - 1) := by
          gcongr
          · norm_num
          · omega
      _ = 2 ^ 23 * 2 ^ quantum b := by
          rw [zpow_sub_one₀ two_ne_zero]
          ring
      _ ≤ significand b * 2 ^ quantum b := by gcongr

lemma abs_nearest_le {q : ℚ} (h : |q| ≤ b) : |nearest q| ≤ nearest b := by
  have habs : |nearest q| = nearest |q| := by
    have hpos : (0 : ℚ) ≤ significand |q| * 2 ^ quantum |q| := by positivity
    rw [nearest, nearest, if_neg (abs_nonneg q).not_gt, abs_abs]
    split
    · rw [abs_neg, abs_of_nonneg hpos]
    · exact abs_of_nonneg hpos
  rw [habs]
  exact nearest_mono (abs_nonneg q) h

end Order

end Binary32

end Taggy
