import Taggy.Data.PyFloat
import Taggy.Interface.VelocityController

/-! The limits the timer puts on a command, for numbers that may be infinite or no number. -/

namespace Taggy

/-- The number of the interval from `-limit` to `limit` nearest to the given one, and zero for
one that is no number. -/
structure Projects (limit : ℚ) (x v : PyFloat) : Prop where
  bounded : ∃ c, v = .finite c ∧ -limit ≤ c ∧ c ≤ limit
  kept : ∀ q, x = .finite q → -limit ≤ q → q ≤ limit → v = x
  above : .finite limit < x → v = .finite limit
  below : x < .finite (-limit) → v = .finite (-limit)
  invalid : x = .nan → v = 0

namespace PyFloat

variable {m : ℚ}

lemma max_neg_eq (hm : 0 ≤ m) : Py.max (finite (-m)) (finite m) = finite m := by
  rw [Py.max]
  split
  · rfl
  · rename_i hlt
    rw [finite_lt, not_lt] at hlt
    exact congrArg finite (le_antisymm (neg_le_self hm) hlt)

lemma projects_finite (hm : 0 ≤ m) (q : ℚ) :
    Projects m (finite q) (Py.clamp (-finite m) (finite m) (finite q)) := by
  have hneg : -m ≤ m := neg_le_self hm
  rw [clamp_finite, Py.clamp_eq]
  refine ⟨⟨_, rfl, le_sup_left, sup_le hneg inf_le_left⟩, ?_, ?_, ?_, by simp⟩
  · rintro q ⟨⟩ hlo hhi
    rw [inf_eq_right.mpr hhi, sup_eq_right.mpr hlo]
  · intro hq
    rw [finite_lt] at hq
    rw [inf_eq_left.mpr hq.le, sup_eq_right.mpr hneg]
  · intro hq
    rw [finite_lt] at hq
    rw [inf_eq_right.mpr (hq.le.trans hneg), sup_eq_left.mpr hq.le]

lemma projects_iff (hm : 0 ≤ m) (x : PyFloat) :
    Projects m x (Py.clamp (-finite m) (finite m) x) ↔ x ≠ nan ∨ m = 0 := by
  have hneg : -m ≤ m := neg_le_self hm
  have htop : ∃ c, finite m = .finite c ∧ -m ≤ c ∧ c ≤ m := ⟨m, rfl, hneg, le_rfl⟩
  cases x with
  | finite q => exact iff_of_true (projects_finite hm q) (Or.inl (by simp))
  | posInf =>
    have hc : Py.clamp (-finite m) (finite m) posInf = finite m := by
      simp [Py.clamp, Py.min, max_neg_eq hm]
    rw [hc]
    exact iff_of_true ⟨htop, by simp, fun _ => rfl, by simp, by simp⟩ (Or.inl (by simp))
  | negInf =>
    have hc : Py.clamp (-finite m) (finite m) negInf = finite (-m) := by
      simp [Py.clamp, Py.min, Py.max]
    rw [hc]
    exact iff_of_true ⟨⟨-m, rfl, le_rfl, hneg⟩, by simp, by simp, fun _ => rfl, by simp⟩
      (Or.inl (by simp))
  | nan =>
    have hc : Py.clamp (-finite m) (finite m) nan = finite m := by
      simp [Py.clamp, Py.min, max_neg_eq hm]
    rw [hc]
    constructor
    · intro hp
      exact Or.inr (finite.inj (hp.invalid rfl))
    · rintro (hn | rfl)
      · exact (hn rfl).elim
      · exact ⟨htop, by simp, by simp, by simp, fun _ => rfl⟩

end PyFloat

namespace Go2VelocityController

variable (maxLinearVel maxAngularVel : ℚ)

def Sanitised (cmd : Twist PyFloat) (call : RobotCall PyFloat) : Prop :=
  ∀ vx vy wz, call = .setVelocity vx vy wz →
    Projects maxLinearVel cmd.linear.x vx ∧ Projects maxLinearVel cmd.linear.y vy ∧
      Projects maxAngularVel cmd.angular.z wz

/-- Every component is a number, or its limit is zero. -/
def Valid (cmd : Twist PyFloat) : Prop :=
  (cmd.linear.x ≠ .nan ∨ maxLinearVel = 0) ∧ (cmd.linear.y ≠ .nan ∨ maxLinearVel = 0) ∧
    (cmd.angular.z ≠ .nan ∨ maxAngularVel = 0)

variable {maxLinearVel maxAngularVel}

lemma limited_sanitised (hl : 0 ≤ maxLinearVel) (ha : 0 ≤ maxAngularVel) (cmd : Twist PyFloat) :
    Sanitised maxLinearVel maxAngularVel cmd
        (limited (.finite maxLinearVel) (.finite maxAngularVel) cmd) ↔
      Valid maxLinearVel maxAngularVel cmd := by
  rw [Valid, ← PyFloat.projects_iff hl, ← PyFloat.projects_iff hl, ← PyFloat.projects_iff ha]
  constructor
  · intro hs
    exact hs _ _ _ rfl
  · rintro hp vx vy wz ⟨⟩
    exact hp

lemma controlLoop_eq (c : Go2VelocityController PyFloat) (now : ℤ) :
    c.controlLoop now =
      if c.emergencyStop = true ∨ c.timeout < secondsSince now c.lastCmdTime then c.command .stop
      else c.command (limited c.maxLinearVel c.maxAngularVel c.currentCmd) := by
  rw [controlLoop]
  split_ifs <;> first | rfl | tauto

theorem sanitised_iff (c : Go2VelocityController PyFloat) (now : ℤ) (hl : 0 ≤ maxLinearVel)
    (ha : 0 ≤ maxAngularVel) (hcl : c.maxLinearVel = .finite maxLinearVel)
    (hca : c.maxAngularVel = .finite maxAngularVel) :
    (∀ call ∈ c.controlLoop now, Sanitised maxLinearVel maxAngularVel c.currentCmd call) ↔
      c.connected = false ∨ c.emergencyStop = true ∨
        c.timeout < ((now - c.lastCmdTime : ℤ) : ℚ) / 10 ^ 9 ∨
          Valid maxLinearVel maxAngularVel c.currentCmd := by
  rw [controlLoop_eq, hcl, hca]
  cases hn : c.connected with
  | false =>
    refine iff_of_true (fun call hm => ?_) (Or.inl rfl)
    simp [command, hn] at hm
  | true =>
    by_cases hq : c.emergencyStop = true ∨ c.timeout < secondsSince now c.lastCmdTime
    · rw [if_pos hq]
      refine iff_of_true (fun call hm => ?_) (Or.inr (hq.imp_right Or.inl))
      rw [command, if_pos hn] at hm
      obtain rfl := List.mem_singleton.mp hm
      rintro vx vy wz ⟨⟩
    · rw [if_neg hq, command, if_pos hn, List.forall_mem_singleton, limited_sanitised hl ha]
      tauto

def holding (x : PyFloat) : Go2VelocityController PyFloat where
  maxLinearVel := .finite 1
  maxAngularVel := .finite 1
  timeout := 1 / 2
  connected := true
  currentCmd := ⟨⟨x, 0, 0⟩, 0⟩
  lastCmdTime := 0

theorem infinite_sanitised :
    (∀ call ∈ (holding .posInf).controlLoop 1, Sanitised 1 1 (holding .posInf).currentCmd call) ↔
      (holding .posInf).connected = false ∨ (holding .posInf).emergencyStop = true ∨
        (holding .posInf).timeout < ((1 - (holding .posInf).lastCmdTime : ℤ) : ℚ) / 10 ^ 9 ∨
          Valid 1 1 (holding .posInf).currentCmd :=
  sanitised_iff (holding .posInf) 1 zero_le_one zero_le_one rfl rfl

theorem nan_at_full_speed :
    ¬ ∀ call ∈ (holding .nan).controlLoop 1, Sanitised 1 1 (holding .nan).currentCmd call := by
  intro h
  have hcall : (holding .nan).controlLoop 1 = [.setVelocity (.finite 1) 0 0] := by decide +kernel
  rw [hcall, List.forall_mem_singleton] at h
  have hv := (h _ _ _ rfl).1.invalid rfl
  revert hv
  decide

end Go2VelocityController

end Taggy
