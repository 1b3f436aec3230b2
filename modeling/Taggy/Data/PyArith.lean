import Mathlib.Data.Rat.Defs
import Mathlib.Order.Lattice
import Mathlib.Tactic

/-! The arithmetic of Python's numbers that a script may use, and the two-argument `min` and
`max`, which keep their first argument unless the second compares strictly better. -/

namespace Taggy.Py

class Arith (α : Type) extends Zero α, One α, Neg α, Mul α, OfScientific α, LT α where
  decidableLT : DecidableLT α

attribute [reducible, instance] Arith.decidableLT

instance : Arith ℚ where
  decidableLT := inferInstance

section Comparison

variable {α : Type} [LT α] [DecidableLT α]

def min (a b : α) : α := if b < a then b else a

def max (a b : α) : α := if a < b then b else a

def clamp (lo hi x : α) : α := Py.max lo (Py.min hi x)

end Comparison

variable {α : Type} [LinearOrder α]

lemma min_eq (a b : α) : Py.min a b = a ⊓ b := by
  rw [Py.min]
  split
  · exact (inf_eq_right.mpr (by order)).symm
  · exact (inf_eq_left.mpr (by order)).symm

lemma max_eq (a b : α) : Py.max a b = a ⊔ b := by
  rw [Py.max]
  split
  · exact (sup_eq_right.mpr (by order)).symm
  · exact (sup_eq_left.mpr (by order)).symm

lemma clamp_eq (lo hi x : α) : Py.clamp lo hi x = lo ⊔ (hi ⊓ x) := by
  rw [Py.clamp, max_eq, min_eq]

lemma clamp_eq_zero [AddCommGroup α] [IsOrderedAddMonoid α] (m x : α) :
    Py.clamp (-m) m x = 0 ↔ m = 0 ∨ (0 < m ∧ x = 0) := by
  rw [clamp_eq]
  rcases lt_trichotomy m 0 with hm | rfl | hm
  · have hpos : 0 < -m ⊔ (m ⊓ x) := (neg_pos.mpr hm).trans_le le_sup_left
    refine iff_of_false hpos.ne' ?_
    rintro (rfl | ⟨hm', _⟩)
    · exact lt_irrefl _ hm
    · exact lt_asymm hm hm'
  · simp
  · have hneg : -m < 0 := neg_neg_iff_pos.mpr hm
    constructor
    · intro h
      refine Or.inr ⟨hm, le_antisymm ?_ ?_⟩
      · by_contra hx
        have hpos : 0 < -m ⊔ (m ⊓ x) := (lt_inf_iff.mpr ⟨hm, not_le.mp hx⟩).trans_le le_sup_right
        exact hpos.ne' h
      · by_contra hx
        have hlt : -m ⊔ (m ⊓ x) < 0 := sup_lt_iff.mpr ⟨hneg, inf_le_right.trans_lt (not_le.mp hx)⟩
        exact hlt.ne h
    · rintro (rfl | ⟨_, rfl⟩)
      · exact (lt_irrefl _ hm).elim
      · rw [inf_eq_right.mpr hm.le, sup_eq_right.mpr hneg.le]

end Taggy.Py
