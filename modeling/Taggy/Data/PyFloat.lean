import Taggy.Data.PyArith

/-! Numbers with the infinities and the not-a-number of floating point, compared as in Python:
no comparison with a not-a-number holds. The two zeros are one. -/

namespace Taggy

inductive PyFloat where
  | finite (value : ℚ)
  | posInf
  | negInf
  | nan
  deriving DecidableEq

namespace PyFloat

instance : Zero PyFloat := ⟨.finite 0⟩

def neg : PyFloat → PyFloat
  | .finite q => .finite (-q)
  | .posInf => .negInf
  | .negInf => .posInf
  | .nan => .nan

instance : Neg PyFloat := ⟨neg⟩

def lt : PyFloat → PyFloat → Bool
  | .nan, _ => false
  | _, .nan => false
  | .posInf, _ => false
  | _, .negInf => false
  | .negInf, _ => true
  | _, .posInf => true
  | .finite p, .finite q => decide (p < q)

instance : LT PyFloat := ⟨fun a b => lt a b = true⟩

instance : DecidableLT PyFloat := fun a b => inferInstanceAs (Decidable (lt a b = true))

variable {p q : ℚ} {x : PyFloat}

@[simp] lemma zero_def : (0 : PyFloat) = .finite 0 := rfl

@[simp] lemma neg_finite : -(finite p) = finite (-p) := rfl

@[simp] lemma neg_posInf : -posInf = negInf := rfl

@[simp] lemma neg_negInf : -negInf = posInf := rfl

@[simp] lemma neg_nan : -nan = nan := rfl

@[simp] lemma finite_lt : finite p < finite q ↔ p < q := decide_eq_true_iff

@[simp] lemma finite_lt_posInf : finite p < posInf := rfl

@[simp] lemma negInf_lt_finite : negInf < finite p := rfl

@[simp] lemma negInf_lt_posInf : negInf < posInf := rfl

@[simp] lemma not_posInf_lt : ¬ posInf < x := by
  cases x <;> exact Bool.false_ne_true

@[simp] lemma not_lt_negInf : ¬ x < negInf := by
  cases x <;> exact Bool.false_ne_true

@[simp] lemma not_nan_lt : ¬ nan < x := Bool.false_ne_true

@[simp] lemma not_lt_nan : ¬ x < nan := by
  cases x <;> exact Bool.false_ne_true

lemma clamp_finite (m x : ℚ) :
    Py.clamp (-finite m) (finite m) (finite x) = finite (Py.clamp (-m) m x) := by
  simp only [Py.clamp, Py.max, Py.min, neg_finite, finite_lt]
  split <;> simp only [finite_lt] <;> split <;> rfl

lemma max_neg_self (m : ℚ) : Py.max (finite (-m)) (finite m) = finite 0 ↔ m = 0 := by
  rw [Py.max]
  split <;> simp

lemma clamp_eq_zero (m x : PyFloat) :
    Py.clamp (-m) m x = 0 ↔ m = 0 ∨ (0 < m ∧ x = 0) := by
  cases m with
  | finite m =>
    cases x with
    | finite x =>
      rw [clamp_finite, zero_def, finite.injEq, finite.injEq, finite.injEq, finite_lt]
      exact Py.clamp_eq_zero m x
    | posInf => simp [Py.clamp, Py.min, max_neg_self]
    | negInf => simp [Py.clamp, Py.min, Py.max]
    | nan => simp [Py.clamp, Py.min, max_neg_self]
  | posInf => cases x <;> simp [Py.clamp, Py.max, Py.min]
  | negInf => cases x <;> simp [Py.clamp, Py.max, Py.min]
  | nan => cases x <;> simp [Py.clamp, Py.max, Py.min]

end PyFloat

end Taggy
