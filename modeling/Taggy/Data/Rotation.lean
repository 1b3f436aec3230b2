import Mathlib.Algebra.Quaternion
import Mathlib.Analysis.SpecialFunctions.Trigonometric.Basic
import Mathlib.LinearAlgebra.Matrix.ToLin
import Mathlib.LinearAlgebra.Matrix.Notation
import Mathlib.Tactic

/-! The rotation that a quaternion stands for, and the rotations about the three axes. -/

namespace Taggy.Rotation

open Quaternion Matrix

-- The numeral two of a ring carries this proof; as a constant it is one term in all modules.
instance two_atLeastTwo : Nat.AtLeastTwo 2 := ⟨le_rfl⟩

section Matrix

variable {R : Type} [CommRing R]

def ofVector (v : Fin 3 → R) : ℍ[R] := ⟨0, v 0, v 1, v 2⟩

@[simp] lemma ofVector_re (v : Fin 3 → R) : (ofVector v).re = 0 := rfl

@[simp] lemma ofVector_imI (v : Fin 3 → R) : (ofVector v).imI = v 0 := rfl

@[simp] lemma ofVector_imJ (v : Fin 3 → R) : (ofVector v).imJ = v 1 := rfl

@[simp] lemma ofVector_imK (v : Fin 3 → R) : (ofVector v).imK = v 2 := rfl

def matrix (q : ℍ[R]) : Matrix (Fin 3) (Fin 3) R :=
  !![q.re ^ 2 + q.imI ^ 2 - q.imJ ^ 2 - q.imK ^ 2, 2 * (q.imI * q.imJ - q.re * q.imK),
      2 * (q.imI * q.imK + q.re * q.imJ);
    2 * (q.imI * q.imJ + q.re * q.imK), q.re ^ 2 - q.imI ^ 2 + q.imJ ^ 2 - q.imK ^ 2,
      2 * (q.imJ * q.imK - q.re * q.imI);
    2 * (q.imI * q.imK - q.re * q.imJ), 2 * (q.imJ * q.imK + q.re * q.imI),
      q.re ^ 2 - q.imI ^ 2 - q.imJ ^ 2 + q.imK ^ 2]

lemma ofVector_injective : Function.Injective (ofVector : (Fin 3 → R) → ℍ[R]) := by
  intro v w h
  funext i
  fin_cases i
  · exact congrArg QuaternionAlgebra.imI h
  · exact congrArg QuaternionAlgebra.imJ h
  · exact congrArg QuaternionAlgebra.imK h

/-- The matrix acts on vectors as conjugation by the quaternion. -/
theorem conjugate (q : ℍ[R]) (v : Fin 3 → R) :
    q * ofVector v * star q = ofVector (matrix q *ᵥ v) := by
  ext <;> simp [matrix, dotProduct, Fin.sum_univ_three] <;> ring

theorem matrix_mul (p q : ℍ[R]) : matrix (p * q) = matrix p * matrix q := by
  apply Matrix.mulVec_injective
  funext v
  apply ofVector_injective
  rw [← conjugate, ← Matrix.mulVec_mulVec, ← conjugate, ← conjugate, star_mul]
  simp only [mul_assoc]

end Matrix

section Axes

open Real

noncomputable def aboutX (t : ℝ) : ℍ[ℝ] := ⟨cos (t / 2), sin (t / 2), 0, 0⟩

noncomputable def aboutY (t : ℝ) : ℍ[ℝ] := ⟨cos (t / 2), 0, sin (t / 2), 0⟩

noncomputable def aboutZ (t : ℝ) : ℍ[ℝ] := ⟨cos (t / 2), 0, 0, sin (t / 2)⟩

@[simp] lemma aboutX_re (t : ℝ) : (aboutX t).re = cos (t / 2) := rfl

@[simp] lemma aboutX_imI (t : ℝ) : (aboutX t).imI = sin (t / 2) := rfl

@[simp] lemma aboutX_imJ (t : ℝ) : (aboutX t).imJ = 0 := rfl

@[simp] lemma aboutX_imK (t : ℝ) : (aboutX t).imK = 0 := rfl

@[simp] lemma aboutY_re (t : ℝ) : (aboutY t).re = cos (t / 2) := rfl

@[simp] lemma aboutY_imI (t : ℝ) : (aboutY t).imI = 0 := rfl

@[simp] lemma aboutY_imJ (t : ℝ) : (aboutY t).imJ = sin (t / 2) := rfl

@[simp] lemma aboutY_imK (t : ℝ) : (aboutY t).imK = 0 := rfl

@[simp] lemma aboutZ_re (t : ℝ) : (aboutZ t).re = cos (t / 2) := rfl

@[simp] lemma aboutZ_imI (t : ℝ) : (aboutZ t).imI = 0 := rfl

@[simp] lemma aboutZ_imJ (t : ℝ) : (aboutZ t).imJ = 0 := rfl

@[simp] lemma aboutZ_imK (t : ℝ) : (aboutZ t).imK = sin (t / 2) := rfl

noncomputable def matrixX (t : ℝ) : Matrix (Fin 3) (Fin 3) ℝ :=
  !![1, 0, 0; 0, cos t, -sin t; 0, sin t, cos t]

noncomputable def matrixY (t : ℝ) : Matrix (Fin 3) (Fin 3) ℝ :=
  !![cos t, 0, sin t; 0, 1, 0; -sin t, 0, cos t]

noncomputable def matrixZ (t : ℝ) : Matrix (Fin 3) (Fin 3) ℝ :=
  !![cos t, -sin t, 0; sin t, cos t, 0; 0, 0, 1]

@[simp] lemma aboutX_zero : aboutX 0 = 1 := by
  ext <;> simp

@[simp] lemma aboutZ_zero : aboutZ 0 = 1 := by
  ext <;> simp

lemma half_angle (t : ℝ) :
    cos t = cos (t / 2) ^ 2 - sin (t / 2) ^ 2 ∧ sin t = 2 * (cos (t / 2) * sin (t / 2)) ∧
      cos (t / 2) ^ 2 + sin (t / 2) ^ 2 = 1 := by
  have ht : t = 2 * (t / 2) := by ring
  refine ⟨?_, ?_, cos_sq_add_sin_sq _⟩
  · rw [← cos_two_mul', ← ht]
  · have hs := sin_two_mul (t / 2)
    rw [← ht] at hs
    linarith

lemma matrix_aboutX (t : ℝ) : matrix (aboutX t) = matrixX t := by
  obtain ⟨hc, hs, -⟩ := half_angle t
  rw [matrixX, hc, hs]
  ext i j
  fin_cases i <;> fin_cases j <;> simp [matrix, aboutX]

lemma matrix_aboutY (t : ℝ) : matrix (aboutY t) = matrixY t := by
  obtain ⟨hc, hs, -⟩ := half_angle t
  rw [matrixY, hc, hs]
  ext i j
  fin_cases i <;> fin_cases j <;> simp [matrix, aboutY]

lemma matrix_aboutZ (t : ℝ) : matrix (aboutZ t) = matrixZ t := by
  obtain ⟨hc, hs, -⟩ := half_angle t
  rw [matrixZ, hc, hs]
  ext i j
  fin_cases i <;> fin_cases j <;> simp [matrix, aboutZ]

lemma normSq_aboutX (t : ℝ) : normSq (aboutX t) = 1 := by
  rw [normSq_def']
  simp [aboutX]

lemma normSq_aboutY (t : ℝ) : normSq (aboutY t) = 1 := by
  rw [normSq_def']
  simp [aboutY]

lemma normSq_aboutZ (t : ℝ) : normSq (aboutZ t) = 1 := by
  rw [normSq_def']
  simp [aboutZ]

end Axes

section Unit

variable {p q r : ℍ[ℝ]}

lemma zeros_of_sq_add_sq {a b : ℝ} (h : a ^ 2 + b ^ 2 = 0) : a = 0 ∧ b = 0 := by
  obtain ⟨ha, hb⟩ := (add_eq_zero_iff_of_nonneg (sq_nonneg a) (sq_nonneg b)).mp h
  exact ⟨pow_eq_zero_iff two_ne_zero |>.mp ha, pow_eq_zero_iff two_ne_zero |>.mp hb⟩

lemma matrix_one : matrix (1 : ℍ[ℝ]) = 1 := by
  ext i j
  fin_cases i <;> fin_cases j <;> simp [matrix]

lemma matrix_column_sq (hq : normSq q = 1) :
    matrix q 0 0 ^ 2 + matrix q 1 0 ^ 2 = 1 - matrix q 2 0 ^ 2 := by
  rw [normSq_def'] at hq
  simp only [matrix, of_apply, cons_val]
  linear_combination (q.re ^ 2 + q.imI ^ 2 + q.imJ ^ 2 + q.imK ^ 2 + 1) * hq

lemma matrix_row_sq (hq : normSq q = 1) :
    matrix q 2 2 ^ 2 + matrix q 2 1 ^ 2 = 1 - matrix q 2 0 ^ 2 := by
  rw [normSq_def'] at hq
  simp only [matrix, of_apply, cons_val]
  linear_combination (q.re ^ 2 + q.imI ^ 2 + q.imJ ^ 2 + q.imK ^ 2 + 1) * hq

lemma eq_axis_of_fixed (hr : normSq r = 1) (h : matrix r 0 0 = 1) :
    r = ⟨r.re, r.imI, 0, 0⟩ ∧ r.re ^ 2 + r.imI ^ 2 = 1 := by
  rw [normSq_def'] at hr
  simp only [matrix, of_apply, cons_val_zero] at h
  have hsum : r.imJ ^ 2 + r.imK ^ 2 = 0 := by linarith
  obtain ⟨hj, hk⟩ := zeros_of_sq_add_sq hsum
  refine ⟨?_, by linarith⟩
  ext
  · rfl
  · rfl
  · exact hj
  · exact hk

lemma eq_one_or_neg_one_of_fixed {a b s k : ℝ} (hab : a ^ 2 + b ^ 2 = 1)
    (hs : s = s * (a ^ 2 - b ^ 2) + k * (2 * (a * b)))
    (hk : k = -(s * (2 * (a * b))) + k * (a ^ 2 - b ^ 2)) (hne : s ≠ 0 ∨ k ≠ 0) :
    b = 0 ∧ (a = 1 ∨ a = -1) := by
  have hpos : s ^ 2 + k ^ 2 ≠ 0 := by
    intro hz
    obtain ⟨hs', hk'⟩ := zeros_of_sq_add_sq hz
    exact hne.elim (fun h => h hs') fun h => h hk'
  have hcos : (s ^ 2 + k ^ 2) * (a ^ 2 - b ^ 2 - 1) = 0 := by
    linear_combination -s * hs - k * hk
  have hone : a ^ 2 - b ^ 2 - 1 = 0 := (mul_eq_zero.mp hcos).resolve_left hpos
  have hb : b ^ 2 = 0 := by linarith
  refine ⟨pow_eq_zero_iff two_ne_zero |>.mp hb, mul_self_eq_one_iff.mp ?_⟩
  linarith

/-- Two unit quaternions whose rotations agree on the first axis and in the last row are equal
up to sign, unless the first axis is taken to the last one. -/
theorem eq_or_eq_neg (hp : normSq p = 1) (hq : normSq q = 1)
    (hcol : ∀ i, matrix p i 0 = matrix q i 0) (hrow : ∀ j, matrix p 2 j = matrix q 2 j)
    (hne : matrix q 2 1 ≠ 0 ∨ matrix q 2 2 ≠ 0) : p = q ∨ p = -q := by
  have hunit : star q * q = 1 := by
    rw [star_mul_self, hq]
    rfl
  have hfix : matrix (star q * p) 0 0 = 1 := by
    have he : matrix (star q * p) 0 0 = matrix (star q * q) 0 0 := by
      simp only [matrix_mul, Matrix.mul_apply, hcol]
    rw [he, hunit, matrix_one, one_apply_eq]
  have hnorm : normSq (star q * p) = 1 := by rw [map_mul, normSq_star, hp, hq, one_mul]
  obtain ⟨haxis, hab⟩ := eq_axis_of_fixed hnorm hfix
  have hpq : p = q * (star q * p) := by
    rw [← mul_assoc, self_mul_star, hq]
    exact (one_mul p).symm
  have hm : matrix p = matrix q * matrix (star q * p) := by rw [← matrix_mul, ← hpq]
  generalize star q * p = r at haxis hab hpq hm
  generalize r.re = a, r.imI = b at haxis hab
  have h1 : matrix q 2 1 = matrix q 2 1 * (a ^ 2 - b ^ 2) + matrix q 2 2 * (2 * (a * b)) := by
    have h := hrow 1
    rw [hm, haxis, Matrix.mul_apply, Fin.sum_univ_three] at h
    simpa [matrix] using h.symm
  have h2 : matrix q 2 2 = -(matrix q 2 1 * (2 * (a * b))) + matrix q 2 2 * (a ^ 2 - b ^ 2) := by
    have h := hrow 2
    rw [hm, haxis, Matrix.mul_apply, Fin.sum_univ_three] at h
    simpa [matrix] using h.symm
  obtain ⟨rfl, rfl | rfl⟩ := eq_one_or_neg_one_of_fixed hab h1 h2 hne
  · left
    rw [hpq, haxis]
    exact mul_one q
  · right
    have hr : r = -1 := by
      rw [haxis]
      ext <;> simp
    rw [hpq, hr]
    exact mul_neg_one q

end Unit

end Taggy.Rotation
