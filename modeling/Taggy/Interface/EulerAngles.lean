import Mathlib.Analysis.Quaternion
import Mathlib.Analysis.SpecialFunctions.Complex.Arg
import Taggy.Data.Rotation

/-! Conversion between Euler angles and quaternions. -/

namespace Taggy.Go2Sdk

open Quaternion Real Rotation Matrix

noncomputable def atan2 (y x : ℝ) : ℝ := Complex.arg ⟨x, y⟩

noncomputable def copysign (x y : ℝ) : ℝ := if y < 0 then -|x| else |x|

noncomputable def eulerFromQuaternion (qw qx qy qz : ℝ) : ℝ × ℝ × ℝ :=
  let sinrCosp := 2.0 * (qw * qx + qy * qz)
  let cosrCosp := 1.0 - 2.0 * (qx * qx + qy * qy)
  let roll := atan2 sinrCosp cosrCosp
  let sinp := 2.0 * (qw * qy - qz * qx)
  let pitch := if 1 ≤ |sinp| then copysign (π / 2) sinp else arcsin sinp
  let sinyCosp := 2.0 * (qw * qz + qx * qy)
  let cosyCosp := 1.0 - 2.0 * (qy * qy + qz * qz)
  let yaw := atan2 sinyCosp cosyCosp
  (roll, pitch, yaw)

noncomputable def quaternionFromEuler (roll pitch yaw : ℝ) : ℍ[ℝ] :=
  let cy := cos (yaw * 0.5)
  let sy := sin (yaw * 0.5)
  let cp := cos (pitch * 0.5)
  let sp := sin (pitch * 0.5)
  let cr := cos (roll * 0.5)
  let sr := sin (roll * 0.5)
  ⟨cr * cp * cy + sr * sp * sy, sr * cp * cy - cr * sp * sy, cr * sp * cy + sr * cp * sy,
    cr * cp * sy - sr * sp * cy⟩

section Convention

lemma quaternionFromEuler_eq (roll pitch yaw : ℝ) :
    quaternionFromEuler roll pitch yaw = aboutZ yaw * aboutY pitch * aboutX roll := by
  have hhalf : ∀ t : ℝ, t * 0.5 = t / 2 := fun t => by ring
  simp only [quaternionFromEuler, hhalf]
  ext <;> simp <;> ring

lemma normSq_quaternionFromEuler (roll pitch yaw : ℝ) :
    normSq (quaternionFromEuler roll pitch yaw) = 1 := by
  rw [quaternionFromEuler_eq, map_mul, map_mul, normSq_aboutX, normSq_aboutY, normSq_aboutZ,
    one_mul, one_mul]

lemma matrix_quaternionFromEuler (roll pitch yaw : ℝ) :
    matrix (quaternionFromEuler roll pitch yaw) = matrixZ yaw * matrixY pitch * matrixX roll := by
  rw [quaternionFromEuler_eq, matrix_mul, matrix_mul, matrix_aboutX, matrix_aboutY, matrix_aboutZ]

theorem quaternionFromEuler_convention (roll pitch yaw : ℝ) :
    ‖quaternionFromEuler roll pitch yaw‖ = 1 ∧
      matrix (quaternionFromEuler roll pitch yaw) =
        matrixZ yaw * matrixY pitch * matrixX roll := by
  refine ⟨?_, matrix_quaternionFromEuler roll pitch yaw⟩
  have hn := normSq_quaternionFromEuler roll pitch yaw
  rw [normSq_eq_norm_mul_self] at hn
  exact (mul_self_eq_one_iff.mp hn).resolve_right fun h => by
    linarith [norm_nonneg (quaternionFromEuler roll pitch yaw)]

lemma entries_quaternionFromEuler (roll pitch yaw : ℝ) :
    let m := matrix (quaternionFromEuler roll pitch yaw)
    m 0 0 = cos pitch * cos yaw ∧ m 1 0 = cos pitch * sin yaw ∧ m 2 0 = -sin pitch ∧
      m 2 1 = cos pitch * sin roll ∧ m 2 2 = cos pitch * cos roll := by
  simp only [matrix_quaternionFromEuler]
  simp [matrixX, matrixY, matrixZ, Matrix.mul_apply, Fin.sum_univ_three, mul_comm]

end Convention

section Angles

lemma atan2_of_polar {c t : ℝ} (hc : 0 < c) (ht : t ∈ Set.Ioc (-π) π) :
    atan2 (c * sin t) (c * cos t) = t := by
  have hpolar : (⟨c * cos t, c * sin t⟩ : ℂ) = c * (Complex.cos t + Complex.sin t * Complex.I) := by
    apply Complex.ext <;> simp [Complex.cos_ofReal_re, Complex.sin_ofReal_re]
  rw [atan2, hpolar]
  exact Complex.arg_mul_cos_add_sin_mul_I hc ht

lemma polar_atan2 (y x : ℝ) :
    √(x ^ 2 + y ^ 2) * cos (atan2 y x) = x ∧ √(x ^ 2 + y ^ 2) * sin (atan2 y x) = y := by
  have hn : ‖(⟨x, y⟩ : ℂ)‖ = √(x ^ 2 + y ^ 2) := Complex.norm_eq_sqrt_sq_add_sq _
  rw [← hn, atan2]
  exact ⟨Complex.norm_mul_cos_arg _, Complex.norm_mul_sin_arg _⟩

lemma sin_pitch_eq (q : ℍ[ℝ]) : 2 * (q.re * q.imJ - q.imK * q.imI) = -matrix q 2 0 := by
  simp only [matrix, of_apply, cons_val]
  ring

lemma eulerFromQuaternion_of_unit {q : ℍ[ℝ]} (hq : normSq q = 1) :
    eulerFromQuaternion q.re q.imI q.imJ q.imK =
      (atan2 (matrix q 2 1) (matrix q 2 2),
        if 1 ≤ |-matrix q 2 0| then copysign (π / 2) (-matrix q 2 0) else arcsin (-matrix q 2 0),
        atan2 (matrix q 1 0) (matrix q 0 0)) := by
  rw [normSq_def'] at hq
  have htwo : (2.0 : ℝ) = 2 := by norm_num
  have hone : (1.0 : ℝ) = 1 := by norm_num
  have h00 : 1 - 2 * (q.imJ * q.imJ + q.imK * q.imK) = matrix q 0 0 := by
    simp only [matrix, of_apply, cons_val]
    linear_combination -hq
  have h10 : 2 * (q.re * q.imK + q.imI * q.imJ) = matrix q 1 0 := by
    simp only [matrix, of_apply, cons_val]
    ring
  have h21 : 2 * (q.re * q.imI + q.imJ * q.imK) = matrix q 2 1 := by
    simp only [matrix, of_apply, cons_val]
    ring
  have h22 : 1 - 2 * (q.imI * q.imI + q.imJ * q.imJ) = matrix q 2 2 := by
    simp only [matrix, of_apply, cons_val]
    linear_combination -hq
  simp only [eulerFromQuaternion, htwo, hone, h00, h10, sin_pitch_eq, h21, h22]

theorem euler_round_trip {roll pitch yaw : ℝ} (hroll : roll ∈ Set.Ioc (-π) π)
    (hpitch : pitch ∈ Set.Ioo (-(π / 2)) (π / 2)) (hyaw : yaw ∈ Set.Ioc (-π) π) :
    (let q := quaternionFromEuler roll pitch yaw
     eulerFromQuaternion q.re q.imI q.imJ q.imK) = (roll, pitch, yaw) := by
  have hcos : 0 < cos pitch := cos_pos_of_mem_Ioo hpitch
  have hclamp : ¬1 ≤ |sin pitch| := by
    rw [not_le, ← sq_lt_one_iff_abs_lt_one]
    linarith [sin_sq_add_cos_sq pitch, pow_pos hcos 2]
  obtain ⟨h00, h10, h20, h21, h22⟩ := entries_quaternionFromEuler roll pitch yaw
  rw [eulerFromQuaternion_of_unit (normSq_quaternionFromEuler roll pitch yaw), h00, h10, h20, h21,
    h22, neg_neg, if_neg hclamp, atan2_of_polar hcos hroll, atan2_of_polar hcos hyaw,
    arcsin_sin hpitch.1.le hpitch.2.le]

theorem right_angle_roll_round_trip :
    (let q := quaternionFromEuler (π / 2) (π / 4) π
     eulerFromQuaternion q.re q.imI q.imJ q.imK) = (π / 2, π / 4, π) :=
  euler_round_trip ⟨by linarith [pi_pos], by linarith [pi_pos]⟩
    ⟨by linarith [pi_pos], by linarith [pi_pos]⟩ ⟨by linarith [pi_pos], le_rfl⟩

end Angles

section Orientation

variable {q : ℍ[ℝ]}

lemma sin_pitch_le_one (hq : normSq q = 1) : |-matrix q 2 0| ≤ 1 := by
  rw [← sq_le_one_iff_abs_le_one, neg_sq]
  linarith [matrix_row_sq hq, sq_nonneg (matrix q 2 1), sq_nonneg (matrix q 2 2)]

/-- Away from the vertical, the entries that the angles are read from are restored. -/
lemma orientation_of_regular (hq : normSq q = 1) (hv : |-matrix q 2 0| < 1) :
    let e := eulerFromQuaternion q.re q.imI q.imJ q.imK
    quaternionFromEuler e.1 e.2.1 e.2.2 = q ∨ quaternionFromEuler e.1 e.2.1 e.2.2 = -q := by
  rw [eulerFromQuaternion_of_unit hq, if_neg (not_le.mpr hv)]
  obtain ⟨h00, h10, h20, h21, h22⟩ := entries_quaternionFromEuler
    (atan2 (matrix q 2 1) (matrix q 2 2)) (arcsin (-matrix q 2 0))
    (atan2 (matrix q 1 0) (matrix q 0 0))
  obtain ⟨hlow, hhigh⟩ := abs_lt.mp hv
  obtain ⟨hc, hs⟩ := polar_atan2 (matrix q 1 0) (matrix q 0 0)
  obtain ⟨hc', hs'⟩ := polar_atan2 (matrix q 2 1) (matrix q 2 2)
  rw [matrix_column_sq hq, ← neg_sq (matrix q 2 0), ← cos_arcsin] at hc hs
  rw [matrix_row_sq hq, ← neg_sq (matrix q 2 0), ← cos_arcsin] at hc' hs'
  rw [hc] at h00
  rw [hs] at h10
  rw [sin_arcsin hlow.le hhigh.le, neg_neg] at h20
  rw [hs'] at h21
  rw [hc'] at h22
  apply eq_or_eq_neg (normSq_quaternionFromEuler _ _ _) hq
  · intro i
    fin_cases i
    · exact h00
    · exact h10
    · exact h20
  · intro j
    fin_cases j
    · exact h20
    · exact h21
    · exact h22
  · by_contra hno
    obtain ⟨h1, h2⟩ := not_or.mp hno
    have hrow := matrix_row_sq hq
    rw [not_not.mp h1, not_not.mp h2, ← neg_sq (matrix q 2 0)] at hrow
    linarith [(sq_lt_one_iff_abs_lt_one _).mpr hv]

lemma atan2_zero : atan2 0 0 = 0 := Complex.arg_zero

lemma copysign_half_turn {s : ℝ} (hs : s = 1 ∨ s = -1) : copysign (π / 2) s = s * (π / 2) := by
  have hpi : |π / 2| = π / 2 := abs_of_pos (by linarith [pi_pos])
  cases hs with
  | inl h => rw [h, copysign, if_neg (by norm_num), hpi, one_mul]
  | inr h => rw [h, copysign, if_pos (by norm_num), hpi, neg_one_mul]

lemma cos_sin_quarter_turn {s : ℝ} (hs : s = 1 ∨ s = -1) :
    cos (s * (π / 2) / 2) = √2 / 2 ∧ sin (s * (π / 2) / 2) = s * (√2 / 2) := by
  have hquarter : s * (π / 2) / 2 = s * (π / 4) := by ring
  rw [hquarter]
  cases hs with
  | inl h =>
    rw [h, one_mul, one_mul, cos_pi_div_four, sin_pi_div_four]
    exact ⟨rfl, rfl⟩
  | inr h =>
    rw [h, neg_one_mul, neg_one_mul, cos_neg, sin_neg, cos_pi_div_four, sin_pi_div_four]
    exact ⟨rfl, rfl⟩

lemma eulerFromQuaternion_of_vertical {s : ℝ} (hq : normSq q = 1) (hv : -matrix q 2 0 = s)
    (hs : s = 1 ∨ s = -1) : eulerFromQuaternion q.re q.imI q.imJ q.imK = (0, s * (π / 2), 0) := by
  have hsq : s ^ 2 = 1 := sq_eq_one_iff.mpr hs
  have hcol := matrix_column_sq hq
  have hrow := matrix_row_sq hq
  rw [← neg_sq (matrix q 2 0), hv, hsq, sub_self] at hcol hrow
  obtain ⟨h00, h10⟩ := zeros_of_sq_add_sq hcol
  obtain ⟨h22, h21⟩ := zeros_of_sq_add_sq hrow
  have hclamp : 1 ≤ |s| := (abs_eq zero_le_one).mpr hs |>.ge
  rw [eulerFromQuaternion_of_unit hq, hv, h00, h10, h21, h22, if_pos hclamp,
    copysign_half_turn hs, atan2_zero]

lemma quaternionFromEuler_quarter_turn {s : ℝ} (hs : s = 1 ∨ s = -1) :
    quaternionFromEuler 0 (s * (π / 2)) 0 = ⟨√2 / 2, 0, s * (√2 / 2), 0⟩ := by
  obtain ⟨hc, hsin⟩ := cos_sin_quarter_turn hs
  rw [quaternionFromEuler_eq, aboutX_zero, aboutZ_zero, one_mul, mul_one, aboutY, hc, hsin]

lemma components_of_vertical {s : ℝ} (hq : normSq q = 1) (hv : -matrix q 2 0 = s)
    (hs : s ^ 2 = 1) : q.imJ = s * q.re ∧ q.imK = -(s * q.imI) := by
  rw [← sin_pitch_eq] at hv
  rw [normSq_def'] at hq
  have hplanes : (q.re - s * q.imJ) ^ 2 + (q.imI + s * q.imK) ^ 2 = 0 := by
    linear_combination hq - s * hv + (q.imJ ^ 2 + q.imK ^ 2 - 1) * hs
  obtain ⟨hw, hz⟩ := zeros_of_sq_add_sq hplanes
  refine ⟨?_, ?_⟩
  · linear_combination -s * hw - q.imJ * hs
  · linear_combination s * hz - q.imK * hs

lemma orientation_of_vertical {s : ℝ} (hq : normSq q = 1) (hv : -matrix q 2 0 = s)
    (hs : s = 1 ∨ s = -1) :
    (quaternionFromEuler 0 (s * (π / 2)) 0 = q ∨ quaternionFromEuler 0 (s * (π / 2)) 0 = -q) ↔
      q.imI = 0 := by
  rw [quaternionFromEuler_quarter_turn hs]
  constructor
  · rintro (h | h)
    · exact (congrArg QuaternionAlgebra.imI h).symm
    · exact neg_eq_zero.mp (congrArg QuaternionAlgebra.imI h).symm
  · intro hx
    have hsq : s ^ 2 = 1 := sq_eq_one_iff.mpr hs
    obtain ⟨hj, hk⟩ := components_of_vertical hq hv hsq
    rw [hx, mul_zero, neg_zero] at hk
    have hre : (√2 / 2) ^ 2 = q.re ^ 2 := by
      have hroot : √2 ^ 2 = (2 : ℝ) := sq_sqrt zero_le_two
      rw [normSq_def', hx, hk, hj] at hq
      linear_combination hroot / 4 - hq / 2 + q.re ^ 2 / 2 * hsq
    obtain h | h := sq_eq_sq_iff_eq_or_eq_neg.mp hre
    · left
      ext
      · exact h
      · exact hx.symm
      · rw [h]
        exact hj.symm
      · exact hk.symm
    · right
      ext
      · exact h
      · exact (neg_eq_zero.mpr hx).symm
      · simp [h, hj]
      · exact (neg_eq_zero.mpr hk).symm

theorem quaternion_round_trip_iff (hq : normSq q = 1) :
    (let e := eulerFromQuaternion q.re q.imI q.imJ q.imK
     quaternionFromEuler e.1 e.2.1 e.2.2 = q ∨ quaternionFromEuler e.1 e.2.1 e.2.2 = -q) ↔
      |2 * (q.re * q.imJ - q.imK * q.imI)| ≠ 1 ∨ q.imI = 0 := by
  rw [sin_pitch_eq]
  by_cases hv : |-matrix q 2 0| = 1
  · have hs := eq_or_eq_neg_of_abs_eq hv
    rw [eulerFromQuaternion_of_vertical hq rfl hs, orientation_of_vertical hq rfl hs]
    exact (or_iff_right (not_not.mpr hv)).symm
  · have hlt : |-matrix q 2 0| < 1 := lt_of_le_of_ne (sin_pitch_le_one hq) hv
    exact iff_of_true (orientation_of_regular hq hlt) (Or.inl hv)

theorem third_turn_round_trip :
    let q : ℍ[ℝ] := ⟨1 / 2, 1 / 2, 1 / 2, 1 / 2⟩
    (let e := eulerFromQuaternion q.re q.imI q.imJ q.imK
     quaternionFromEuler e.1 e.2.1 e.2.2 = q ∨ quaternionFromEuler e.1 e.2.1 e.2.2 = -q) ↔
      |2 * (q.re * q.imJ - q.imK * q.imI)| ≠ 1 ∨ q.imI = 0 :=
  quaternion_round_trip_iff ((normSq_def' _).trans (by norm_num))

theorem roll_lost_when_vertical :
    let q : ℍ[ℝ] := ⟨1 / 2, 1 / 2, 1 / 2, -1 / 2⟩
    let e := eulerFromQuaternion q.re q.imI q.imJ q.imK
    normSq q = 1 ∧
      ¬(quaternionFromEuler e.1 e.2.1 e.2.2 = q ∨ quaternionFromEuler e.1 e.2.1 e.2.2 = -q) := by
  intro q e
  have hq : normSq q = 1 := by
    rw [normSq_def']
    norm_num [q]
  have hv : -matrix q 2 0 = 1 := by
    rw [← sin_pitch_eq]
    norm_num [q]
  refine ⟨hq, ?_⟩
  rw [show e = (0, 1 * (π / 2), 0) from eulerFromQuaternion_of_vertical hq hv (Or.inl rfl),
    orientation_of_vertical hq hv (Or.inl rfl)]
  norm_num [q]

end Orientation

end Taggy.Go2Sdk
