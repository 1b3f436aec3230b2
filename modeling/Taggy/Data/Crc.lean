import Mathlib.Tactic

/-! Cyclic redundancy checks that divide the message from its first bit on, for any register
width and any polynomial, and their computation by bytes. -/

namespace Taggy.Crc

variable {w : ℕ} (poly : BitVec w)

def shift (s : BitVec w) : BitVec w := (s <<< 1) ^^^ (if s.msb then poly else 0#w)

def shifts : ℕ → BitVec w → BitVec w
  | 0, s => s
  | n + 1, s => shifts n (shift poly s)

def bitStep (s : BitVec w) (b : Bool) : BitVec w :=
  (s <<< 1) ^^^ (if s.msb ^^ b then poly else 0#w)

def run (s : BitVec w) (bs : List Bool) : BitVec w := bs.foldl (bitStep poly) s

variable {poly}

lemma shift_xor (s t : BitVec w) : shift poly (s ^^^ t) = shift poly s ^^^ shift poly t := by
  rw [shift, shift, shift, BitVec.shiftLeft_xor_distrib, BitVec.msb_xor]
  cases s.msb <;> cases t.msb
  · simp
  · simp [BitVec.xor_assoc]
  · simp only [Bool.bne_false, if_true, Bool.false_eq_true, if_false, BitVec.xor_zero]
    rw [BitVec.xor_assoc, BitVec.xor_assoc, BitVec.xor_comm poly]
  · simp only [bne_self_eq_false, Bool.false_eq_true, if_false, if_true, BitVec.xor_zero]
    rw [BitVec.xor_assoc, ← BitVec.xor_assoc poly, BitVec.xor_comm poly, BitVec.xor_assoc,
      BitVec.xor_self, BitVec.xor_zero]

lemma shifts_xor (n : ℕ) (s t : BitVec w) :
    shifts poly n (s ^^^ t) = shifts poly n s ^^^ shifts poly n t := by
  induction n generalizing s t with
  | zero => rfl
  | succ n ih => rw [shifts, shifts, shifts, shift_xor, ih]

-- The lowest bit of the polynomial tells whether it was added, so that no bit is lost.
lemma shift_injective (hp : poly.getLsbD 0 = true) : Function.Injective (shift poly) := by
  intro s t h
  have hw : 0 < w := BitVec.lt_of_getLsbD hp
  have hmsb : ∀ u : BitVec w, (shift poly u).getLsbD 0 = u.msb := by
    intro u
    rw [shift, BitVec.getLsbD_xor, BitVec.getLsbD_shiftLeft]
    cases u.msb <;> simp [hp]
  have hm : s.msb = t.msb := by rw [← hmsb, h, hmsb]
  rw [shift, shift, hm, BitVec.xor_left_inj] at h
  refine BitVec.eq_of_getLsbD_eq fun i hi => ?_
  rcases Nat.lt_or_ge (i + 1) w with hi' | hi'
  · have hb := congrArg (·.getLsbD (i + 1)) h
    simpa [hi, hi'] using hb
  · obtain rfl : i = w - 1 := by omega
    rwa [BitVec.msb_eq_getLsbD_last, BitVec.msb_eq_getLsbD_last] at hm

lemma shifts_injective (hp : poly.getLsbD 0 = true) (n : ℕ) :
    Function.Injective (shifts poly n) := by
  induction n with
  | zero => exact Function.injective_id
  | succ n ih => exact ih.comp (shift_injective hp)

lemma shift_of_clear {s : BitVec w} (hs : ∀ i, w ≤ i + 1 → s.getLsbD i = false) :
    shift poly s = s <<< 1 := by
  have hmsb : s.msb = false := by
    rw [BitVec.msb_eq_getLsbD_last]
    exact hs (w - 1) (by omega)
  rw [shift, hmsb, if_neg Bool.false_ne_true, BitVec.xor_zero]

lemma shifts_of_clear {n k : ℕ} {s : BitVec w} (hk : k ≤ n)
    (hs : ∀ i, w ≤ i + n → s.getLsbD i = false) : shifts poly k s = s <<< k := by
  induction k generalizing n s with
  | zero => rw [shifts, BitVec.shiftLeft_zero]
  | succ k ih =>
    have hclear : ∀ i, w ≤ i + (n - 1) → (s <<< 1).getLsbD i = false := by
      intro i hi
      rw [BitVec.getLsbD_shiftLeft]
      rcases Nat.eq_zero_or_pos i with rfl | hpos
      · simp
      · rw [hs (i - 1) (by omega), Bool.and_false]
    rw [shifts, shift_of_clear fun i hi => hs i (by omega), ih (by omega) hclear,
      ← BitVec.shiftLeft_add, Nat.add_comm]

def bitAt (i : ℕ) (b : Bool) : BitVec w := if b then BitVec.twoPow w i else 0#w

lemma getLsbD_bitAt {i j : ℕ} {b : Bool} (hj : j < w) :
    (bitAt i b : BitVec w).getLsbD j = (decide (i = j) && b) := by
  cases b
  · simp [bitAt]
  · simp only [bitAt, if_true, BitVec.getLsbD_twoPow, Bool.and_true]
    rcases eq_or_ne i j with rfl | hne
    · simp [hj]
    · simp [hne]

lemma bitStep_eq (hw : 0 < w) (s : BitVec w) (b : Bool) :
    bitStep poly s b = shift poly (s ^^^ bitAt (w - 1) b) := by
  have hmsb : (bitAt (w - 1) b : BitVec w).msb = b := by
    rw [BitVec.msb_eq_getLsbD_last, getLsbD_bitAt (by omega), decide_eq_true rfl, Bool.true_and]
  have hshift : (bitAt (w - 1) b : BitVec w) <<< 1 = 0#w := by
    refine BitVec.eq_of_getLsbD_eq fun i hi => ?_
    rw [BitVec.getLsbD_shiftLeft, getLsbD_bitAt (by omega), BitVec.getLsbD_zero]
    rcases Nat.eq_zero_or_pos i with rfl | hpos
    · simp
    · rw [decide_eq_false (by omega : ¬ w - 1 = i - 1), Bool.false_and, Bool.and_false]
  rw [bitStep, shift, BitVec.msb_xor, hmsb, BitVec.shiftLeft_xor_distrib, hshift, BitVec.xor_zero]

/-- The bits side by side in the register, the first one just under the given place. -/
def window : ℕ → List Bool → BitVec w
  | _, [] => 0#w
  | n, b :: bs => bitAt (n - 1) b ^^^ window (n - 1) bs

lemma getLsbD_window {n i : ℕ} {bs : List Bool} (hi : i < w) (hb : bs.length ≤ n) :
    (window n bs : BitVec w).getLsbD i = (decide (i < n) && bs.getD (n - 1 - i) false) := by
  induction bs generalizing n with
  | nil => simp [window]
  | cons b bs ih =>
    rw [List.length_cons] at hb
    rw [window, BitVec.getLsbD_xor, getLsbD_bitAt hi, ih (by omega)]
    rcases lt_trichotomy i (n - 1) with hlt | rfl | hgt
    · have hidx : n - 1 - i = n - 1 - 1 - i + 1 := by omega
      have hn : i < n := by omega
      have hne : n - 1 ≠ i := by omega
      rw [hidx, List.getD_cons_succ, decide_eq_true hlt, decide_eq_true hn, decide_eq_false hne,
        Bool.false_and, Bool.false_xor]
    · have hn : n - 1 < n := by omega
      simp [hn]
    · have hn : ¬ i < n := by omega
      have hn' : ¬ i < n - 1 := by omega
      have hne : n - 1 ≠ i := by omega
      rw [decide_eq_false hn, decide_eq_false hn', decide_eq_false hne, Bool.false_and,
        Bool.false_and, Bool.false_and, Bool.xor_self]

lemma window_inj {n : ℕ} {bs cs : List Bool} (hw : n ≤ w) (hb : bs.length ≤ n)
    (hl : bs.length = cs.length) (h : (window n bs : BitVec w) = window n cs) : bs = cs := by
  refine List.ext_getElem hl fun k hk hk' => ?_
  have hbit : (window n bs : BitVec w).getLsbD (n - 1 - k) =
      (window n cs : BitVec w).getLsbD (n - 1 - k) := by rw [h]
  have hlt : n - 1 - k < n := by omega
  have hidx : n - 1 - (n - 1 - k) = k := by omega
  rwa [getLsbD_window (by omega) hb, getLsbD_window (by omega) (hl ▸ hb), hidx,
    decide_eq_true hlt, Bool.true_and, Bool.true_and, List.getD_eq_getElem?_getD,
    List.getD_eq_getElem?_getD, List.getElem?_eq_getElem hk, List.getElem?_eq_getElem hk',
    Option.getD_some, Option.getD_some] at hbit

lemma window_shiftLeft {n : ℕ} {bs : List Bool} (hb : bs.length ≤ n) :
    (window n bs : BitVec w) <<< 1 = window (n + 1) bs := by
  refine BitVec.eq_of_getLsbD_eq fun i hi => ?_
  rw [BitVec.getLsbD_shiftLeft, getLsbD_window (by omega) hb, getLsbD_window hi (by omega)]
  rcases Nat.eq_zero_or_pos i with rfl | hpos
  · have hge : bs.length ≤ n := hb
    simp [hge]
  · have hidx : n - 1 - (i - 1) = n + 1 - 1 - i := by omega
    have hiff : i - 1 < n ↔ i < n + 1 := by omega
    have hnot : ¬ i < 1 := by omega
    rw [hidx, decide_eq_true hi, decide_eq_false hnot, Bool.not_false, Bool.true_and,
      Bool.true_and, decide_eq_decide.mpr hiff]

/-- As long as the bits fit into the register, they are just added to it and shifted. -/
lemma run_eq_shifts {s : BitVec w} {bs : List Bool} (hb : bs.length ≤ w) :
    run poly s bs = shifts poly bs.length (s ^^^ window w bs) := by
  induction bs generalizing s with
  | nil => rw [window, BitVec.xor_zero]; rfl
  | cons b bs ih =>
    rw [List.length_cons] at hb
    have hclear : ∀ i, w ≤ i + 1 → (window (w - 1) bs : BitVec w).getLsbD i = false := by
      intro i hi
      rcases Nat.lt_or_ge i w with hlt | hge
      · rw [getLsbD_window hlt (by omega), decide_eq_false (by omega), Bool.false_and]
      · exact BitVec.getLsbD_of_ge _ _ hge
    have hw : (window w bs : BitVec w) = shift poly (window (w - 1) bs) := by
      rw [shift_of_clear hclear, window_shiftLeft (by omega), Nat.sub_add_cancel (by omega)]
    have hrun : run poly s (b :: bs) = run poly (bitStep poly s b) bs := rfl
    rw [hrun, ih (by omega), bitStep_eq (by omega), hw, ← shift_xor, window, BitVec.xor_assoc,
      List.length_cons, shifts]

lemma run_append (s : BitVec w) (bs cs : List Bool) :
    run poly s (bs ++ cs) = run poly (run poly s bs) cs := List.foldl_append

lemma run_injective (hw : 0 < w) (hp : poly.getLsbD 0 = true) (bs : List Bool) :
    Function.Injective (run poly · bs) := by
  induction bs with
  | nil => exact Function.injective_id
  | cons b bs ih =>
    refine ih.comp fun s t h => ?_
    rw [bitStep_eq hw, bitStep_eq hw] at h
    exact (BitVec.xor_left_inj _).mp (shift_injective hp h)

/-- No error within a stretch as long as the register goes unnoticed. -/
theorem burst_detected (hp : poly.getLsbD 0 = true) {s : BitVec w} {pre bs cs post : List Bool}
    (hb : bs.length ≤ w) (hl : bs.length = cs.length)
    (h : run poly s (pre ++ bs ++ post) = run poly s (pre ++ cs ++ post)) : bs = cs := by
  rw [run_append, run_append _ (pre ++ cs), run_append, run_append] at h
  have hmiddle := run_injective (BitVec.lt_of_getLsbD hp) hp post h
  generalize run poly s pre = t at hmiddle
  have hshifts : shifts poly bs.length (t ^^^ window w bs) =
      shifts poly bs.length (t ^^^ window w cs) := by
    rw [← run_eq_shifts hb, hl, ← run_eq_shifts (by omega)]
    exact hmiddle
  exact window_inj le_rfl hb hl ((BitVec.xor_right_inj _).mp (shifts_injective hp _ hshifts))

section Bytes

def bits (b : UInt8) : List Bool := List.ofFn fun i : Fin 8 => b.toBitVec.getMsbD i

-- The byte in the register, with its lowest bit at this place.
def place (i : ℕ) (b : UInt8) : BitVec w := b.toBitVec.setWidth w <<< i

def top (s : BitVec w) : UInt8 := UInt8.ofBitVec ((s >>> (w - 8)).setWidth 8)

lemma length_bits (b : UInt8) : (bits b).length = 8 := List.length_ofFn

lemma getD_bits {b : UInt8} {i : ℕ} (hi : i < 8) :
    (bits b).getD (7 - i) false = b.toBitVec.getLsbD i := by
  have hlt : 7 - i < (bits b).length := by
    rw [length_bits]
    omega
  have hidx : 8 - 1 - (7 - i) = i := by omega
  have hget : (bits b)[7 - i] = b.toBitVec.getMsbD (7 - i) := List.getElem_ofFn _
  rw [List.getD_eq_getElem?_getD, List.getElem?_eq_getElem hlt, Option.getD_some, hget,
    BitVec.getMsbD, hidx, decide_eq_true (by omega), Bool.true_and]

lemma window_bits (hw : 8 ≤ w) (b : UInt8) :
    (window w (bits b) : BitVec w) = place (w - 8) b := by
  refine BitVec.eq_of_getLsbD_eq fun i hi => ?_
  rw [getLsbD_window hi (by rw [length_bits]; exact hw), place, BitVec.getLsbD_shiftLeft,
    BitVec.getLsbD_setWidth, decide_eq_true hi, Bool.true_and, Bool.true_and]
  rcases Nat.lt_or_ge i (w - 8) with hlt | hge
  · have hlen : ¬ w - 1 - i < 8 := by omega
    simp [bits, hlt, hlen]
  · have hlt : w - 1 - i < 8 := by omega
    have hnot : ¬ i < w - 8 := by omega
    have hidx : w - 1 - i = 7 - (i - (w - 8)) := by omega
    have hw' : i - (w - 8) < w := by omega
    rw [hidx, getD_bits (by omega), decide_eq_true hw', decide_eq_false hnot, Bool.not_false,
      Bool.true_and, Bool.true_and]

lemma place_xor (i : ℕ) (b c : UInt8) :
    (place i (b ^^^ c) : BitVec w) = place i b ^^^ place i c := by
  rw [place, place, place, UInt8.toBitVec_xor, BitVec.setWidth_xor, BitVec.shiftLeft_xor_distrib]

/-- The byte that leaves the register selects what is added to the rest. -/
lemma run_bits (hw : 8 ≤ w) (s : BitVec w) (b : UInt8) :
    run poly s (bits b) = (s <<< 8) ^^^ shifts poly 8 (place (w - 8) (top s ^^^ b)) := by
  have hclear : ∀ i, w ≤ i + 8 → (s ^^^ place (w - 8) (top s)).getLsbD i = false := by
    intro i hi
    rcases Nat.lt_or_ge i w with hlt | hge
    · have hi8 : i - (w - 8) < 8 := by omega
      have hsum : w - 8 + (i - (w - 8)) = i := by omega
      have htop : (place (w - 8) (top s) : BitVec w).getLsbD i = s.getLsbD i := by
        simp [place, top, hlt, hi, hi8, hsum]
      rw [BitVec.getLsbD_xor, htop, Bool.xor_self]
    · exact BitVec.getLsbD_of_ge _ _ hge
  have hlow : (place (w - 8) (top s) : BitVec w) <<< 8 = 0#w := by
    rw [place, ← BitVec.shiftLeft_add]
    exact BitVec.shiftLeft_eq_zero (by omega)
  have hsplit : s ^^^ place (w - 8) b =
      (s ^^^ place (w - 8) (top s)) ^^^ place (w - 8) (top s ^^^ b) := by
    rw [place_xor, BitVec.xor_assoc, ← BitVec.xor_assoc (place (w - 8) (top s)), BitVec.xor_self,
      BitVec.zero_xor]
  rw [run_eq_shifts (length_bits b ▸ hw), length_bits, window_bits hw, hsplit, shifts_xor,
    shifts_of_clear le_rfl hclear, BitVec.shiftLeft_xor_distrib, hlow, BitVec.xor_zero]

end Bytes

end Taggy.Crc
