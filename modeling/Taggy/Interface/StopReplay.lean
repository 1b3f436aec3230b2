import Taggy.Data.PyFloat
import Taggy.History.Steps
import Taggy.Interface.VelocityController

/-! Commands that outlive an emergency stop: the timer sends the stored command again once the
stop is released. -/

namespace Taggy.Go2VelocityController

open History

section Fresh

variable {α : Type}

def Releases (h : List (ℤ × ControllerEvent α)) (i : ℤ × ControllerEvent α) : Prop :=
  i.2 = .emergencyStop false ∧ lastStop h = some true

/-- The command came in with no release of the stop since. -/
def Fresh (h : List (ℤ × ControllerEvent α)) (msg : Twist α) : Prop :=
  ∃ pre t post, h = pre ++ (t, .cmdVel msg) :: post ∧
    AtEachStep (fun mid i => ¬ Releases (pre ++ (t, .cmdVel msg) :: mid) i) post

variable {h : List (ℤ × ControllerEvent α)} {i : ℤ × ControllerEvent α} {msg : Twist α}

lemma fresh_concat : Fresh (h ++ [i]) msg ↔ i.2 = .cmdVel msg ∨ (Fresh h msg ∧ ¬ Releases h i) := by
  constructor
  · rintro ⟨pre, t, post, he, hr⟩
    rcases concat_split.mp he with ⟨_, _, rfl⟩ | ⟨post', rfl, rfl⟩
    · exact Or.inl rfl
    · obtain ⟨hpost, hi⟩ := atEachStep_concat.mp hr
      exact Or.inr ⟨⟨pre, t, post', rfl, hpost⟩, hi⟩
  · rintro (hi | ⟨⟨pre, t, post, rfl, hr⟩, hi⟩)
    · obtain ⟨t, e⟩ := i
      obtain rfl : e = .cmdVel msg := hi
      exact ⟨h, t, [], rfl, atEachStep_nil⟩
    · refine ⟨pre, t, post ++ [i], by simp, atEachStep_concat.mpr ⟨hr, hi⟩⟩

lemma fresh_lastCmd (hf : Fresh h msg) : ∃ t last, lastCmd h = some (t, last) ∧ Fresh h last := by
  induction h using List.reverseRecOn with
  | nil =>
    obtain ⟨pre, t, post, he, -⟩ := hf
    simp at he
  | append_singleton h i ih =>
    obtain ⟨now, e⟩ := i
    rw [lastCmd_concat]
    cases e with
    | cmdVel last => exact ⟨now, last, rfl, fresh_concat.mpr (Or.inl rfl)⟩
    | emergencyStop | tick =>
      obtain ⟨hfh, hr⟩ := (fresh_concat.mp hf).resolve_left (by simp)
      obtain ⟨t, last, hl, hfl⟩ := ih hfh
      exact ⟨t, last, hl, fresh_concat.mpr (Or.inr ⟨hfl, hr⟩)⟩

end Fresh

variable (maxLinearVel maxAngularVel : PyFloat) (timeout : ℚ) (now : ℤ)

def Zeroed (limit x : PyFloat) : Prop := limit = 0 ∨ (0 < limit ∧ x = 0)

def Neutral (cmd : Twist PyFloat) : Prop :=
  Zeroed maxLinearVel cmd.linear.x ∧ Zeroed maxLinearVel cmd.linear.y ∧
    Zeroed maxAngularVel cmd.angular.z

lemma limited_zero (cmd : Twist PyFloat) :
    limited maxLinearVel maxAngularVel cmd = .setVelocity 0 0 0 ↔
      Neutral maxLinearVel maxAngularVel cmd := by
  rw [limited, RobotCall.setVelocity.injEq, PyFloat.clamp_eq_zero, PyFloat.clamp_eq_zero,
    PyFloat.clamp_eq_zero]
  rfl

/-- Every nonzero velocity of the timer forwards a command that came in after the latest
release of the stop. -/
def NoReplay (h : List (ℤ × ControllerEvent PyFloat)) : Prop :=
  AtEachStep (fun pre i => i.2 = .tick → ∀ vx vy wz,
    .setVelocity vx vy wz ∈
      Transducer.reply step (init maxLinearVel maxAngularVel timeout true now) pre i →
    (vx, vy, wz) ≠ (0, 0, 0) →
      ∃ msg, Fresh pre msg ∧ limited maxLinearVel maxAngularVel msg = .setVelocity vx vy wz) h

/-- The timer has nothing to send, or a command has come in since the latest release. -/
def Harmless (h : List (ℤ × ControllerEvent PyFloat)) (t : ℤ) : Prop :=
  lastStop h = some true ∨
    timeout < ((t - ((lastCmd h).getD (now, 0)).1 : ℤ) : ℚ) / 10 ^ 9 ∨
    Neutral maxLinearVel maxAngularVel ((lastCmd h).getD (now, 0)).2 ∨ ∃ msg, Fresh h msg

lemma tick_iff (h : List (ℤ × ControllerEvent PyFloat)) (t : ℤ) :
    (∀ vx vy wz, .setVelocity vx vy wz ∈
        Transducer.reply step (init maxLinearVel maxAngularVel timeout true now) h (t, .tick) →
      (vx, vy, wz) ≠ (0, 0, 0) →
        ∃ msg, Fresh h msg ∧ limited maxLinearVel maxAngularVel msg = .setVelocity vx vy wz) ↔
      Harmless maxLinearVel maxAngularVel timeout now h t := by
  rw [reply_tick]
  by_cases hq : lastStop h = some true ∨ timeout < secondsSince t ((lastCmd h).getD (now, 0)).1
  · rw [if_pos hq]
    refine iff_of_true (fun vx vy wz hm => ?_) (hq.imp_right Or.inl)
    simp at hm
  rw [if_neg hq]
  constructor
  · intro hall
    by_cases hn : Neutral maxLinearVel maxAngularVel ((lastCmd h).getD (now, 0)).2
    · exact Or.inr (Or.inr (Or.inl hn))
    · obtain ⟨msg, hf, -⟩ := hall _ _ _ (List.mem_singleton_self _) fun hz => by
        obtain ⟨hx, hyz⟩ := Prod.mk.inj hz
        obtain ⟨hy, hw⟩ := Prod.mk.inj hyz
        exact hn ((limited_zero maxLinearVel maxAngularVel _).mp (by rw [limited, hx, hy, hw]))
      exact Or.inr (Or.inr (Or.inr ⟨msg, hf⟩))
  · intro hh vx vy wz hm hne
    have hv := (List.mem_singleton.mp hm).symm
    rcases hh with hs | ht | hn | ⟨msg, hf⟩
    · exact (hq (Or.inl hs)).elim
    · exact (hq (Or.inr ht)).elim
    · rw [(limited_zero maxLinearVel maxAngularVel _).mpr hn] at hv
      obtain ⟨rfl, rfl, rfl⟩ := RobotCall.setVelocity.inj hv
      exact (hne rfl).elim
    · obtain ⟨t', last, hl, hfl⟩ := fresh_lastCmd hf
      refine ⟨last, hfl, ?_⟩
      rw [← hv, hl, Option.getD_some]

theorem no_replay_iff (h : List (ℤ × ControllerEvent PyFloat)) :
    NoReplay maxLinearVel maxAngularVel timeout now h ↔
      AtEachStep (fun pre i => i.2 = .tick →
        Harmless maxLinearVel maxAngularVel timeout now pre i.1) h := by
  apply atEachStep_congr
  rintro pre ⟨t, e⟩
  refine forall_congr' fun he => ?_
  obtain rfl : e = .tick := he
  exact tick_iff maxLinearVel maxAngularVel timeout now pre t

theorem replayed_command :
    ¬ NoReplay (.finite 1) (.finite 1) (1 / 2) 0
      [(0, .cmdVel ⟨⟨.finite (3 / 10), 0, 0⟩, 0⟩), (1, .emergencyStop true),
        (2, .emergencyStop false), (3, .tick)] := by
  intro h
  obtain ⟨msg, hf, -⟩ := h [(0, .cmdVel ⟨⟨.finite (3 / 10), 0, 0⟩, 0⟩), (1, .emergencyStop true),
    (2, .emergencyStop false)] (3, .tick) [] rfl rfl (.finite (3 / 10)) 0 0 (by decide +kernel)
    (by decide +kernel)
  rcases (fresh_concat (h := [_, _])).mp hf with he | ⟨-, hr⟩
  · simp at he
  · exact hr ⟨rfl, rfl⟩

end Taggy.Go2VelocityController
