import Taggy.History.Steps
import Taggy.Interface.VelocityController

/-! What the controller's timer sends, read off the history of the messages. -/

namespace Taggy.Go2VelocityController

open History

section Clock

variable {α : Type} {h : List (ℤ × ControllerEvent α)}

lemma mem_cmdVels_le (hc : (h.map Prod.fst).Pairwise (· ≤ ·)) {t t' : ℤ} {msg msg' : Twist α}
    (hl : lastCmd h = some (t, msg)) (hm : (t', msg') ∈ cmdVels h) : t' ≤ t := by
  have hp : (cmdVels h).Pairwise fun a b => a.1 ≤ b.1 := by
    refine List.Pairwise.filterMap _ ?_ (List.pairwise_map.mp hc)
    intro i j hij a ha b hb
    obtain ⟨m, -, rfl⟩ := Option.map_eq_some_iff.mp ha
    obtain ⟨m', -, rfl⟩ := Option.map_eq_some_iff.mp hb
    exact hij
  obtain ⟨ms, hms⟩ := List.getLast?_eq_some_iff.mp hl
  rw [hms] at hp hm
  rcases List.mem_append.mp hm with hm | hm
  · exact (List.pairwise_append.mp hp).2.2 _ hm _ (List.mem_singleton_self _)
  · obtain ⟨rfl, -⟩ := Prod.mk.inj (List.mem_singleton.mp hm)
    exact le_rfl

lemma secondsSince_anti {now t t' : ℤ} (h : t' ≤ t) : secondsSince now t ≤ secondsSince now t' := by
  rw [secondsSince, secondsSince]
  gcongr

/-- The stop is not active, and a command came in within the timeout. -/
def Live (timeout : ℚ) (h : List (ℤ × ControllerEvent α)) (now : ℤ) : Prop :=
  lastStop h ≠ some true ∧
    ∃ t msg, (t, msg) ∈ cmdVels h ∧ ((now - t : ℤ) : ℚ) / 10 ^ 9 ≤ timeout

lemma live_iff (hc : (h.map Prod.fst).Pairwise (· ≤ ·)) {timeout : ℚ} {now : ℤ} :
    Live timeout h now ↔ lastStop h ≠ some true ∧
      ∃ t msg, lastCmd h = some (t, msg) ∧ ((now - t : ℤ) : ℚ) / 10 ^ 9 ≤ timeout := by
  refine and_congr_right fun _ => ⟨?_, ?_⟩
  · rintro ⟨t', msg', hm, ht⟩
    cases hl : lastCmd h with
    | none =>
      rw [List.getLast?_eq_none_iff.mp hl] at hm
      exact (List.not_mem_nil hm).elim
    | some last =>
      exact ⟨last.1, last.2, rfl, (secondsSince_anti (mem_cmdVels_le hc hl hm)).trans ht⟩
  · rintro ⟨t, msg, hl, ht⟩
    exact ⟨t, msg, List.mem_of_getLast? hl, ht⟩

end Clock

variable {α : Type} [LinearOrder α] [AddCommGroup α]

def within (limit x : α) : α := max (-limit) (min limit x)

def Contract (maxLinearVel maxAngularVel : α) (timeout : ℚ) (h : List (ℤ × ControllerEvent α))
    (i : ℤ × ControllerEvent α) (velocities : List (α × α × α)) : Prop :=
  match i.2 with
  | .cmdVel _ => velocities = []
  | .emergencyStop data =>
    velocities = if data = true ∧ lastStop h ≠ some true then [(0, 0, 0)] else []
  | .tick => ∃ v, velocities = [v] ∧
    (Live timeout h i.1 → ∃ t msg, lastCmd h = some (t, msg) ∧
      v = (within maxLinearVel msg.linear.x, within maxLinearVel msg.linear.y,
        within maxAngularVel msg.angular.z)) ∧
    (¬ Live timeout h i.1 → v = (0, 0, 0))

def velocities (c : Go2VelocityController α) (h : List (ℤ × ControllerEvent α))
    (i : ℤ × ControllerEvent α) : List (α × α × α) :=
  (Transducer.reply step c h i).filterMap Go2HighLevelInterface.velocity?

variable (maxLinearVel maxAngularVel : α) (timeout : ℚ) (now : ℤ)

lemma limited_velocity (cmd : Twist α) :
    Go2HighLevelInterface.velocity? (limited maxLinearVel maxAngularVel cmd) =
      some (within maxLinearVel cmd.linear.x, within maxLinearVel cmd.linear.y,
        within maxAngularVel cmd.angular.z) := by
  simp only [limited, Go2HighLevelInterface.velocity?, Py.clamp_eq]
  rfl

variable [IsOrderedAddMonoid α]

lemma within_zero {limit : α} (hl : 0 ≤ limit) : within limit 0 = 0 := by
  rw [within, min_eq_right hl, max_eq_right (neg_nonpos.mpr hl)]

variable {maxLinearVel maxAngularVel} {h : List (ℤ × ControllerEvent α)}

lemma tick_contract (hl : 0 ≤ maxLinearVel) (ha : 0 ≤ maxAngularVel)
    (hc : (h.map Prod.fst).Pairwise (· ≤ ·)) (t : ℤ) :
    Contract maxLinearVel maxAngularVel timeout h (t, .tick)
      (velocities (init maxLinearVel maxAngularVel timeout true now) h (t, .tick)) := by
  rw [Contract, velocities, reply_tick]
  by_cases hs : lastStop h = some true
  · rw [if_pos (Or.inl hs)]
    exact ⟨_, rfl, fun hlive => (hlive.1 hs).elim, fun _ => rfl⟩
  by_cases ht : timeout < secondsSince t ((lastCmd h).getD (now, 0)).1
  · rw [if_pos (Or.inr ht)]
    refine ⟨_, rfl, fun hlive => ?_, fun _ => rfl⟩
    obtain ⟨-, t', msg, hlast, htime⟩ := (live_iff hc).mp hlive
    rw [hlast, Option.getD_some] at ht
    exact (not_lt.mpr htime ht).elim
  rw [if_neg (not_or.mpr ⟨hs, ht⟩), List.filterMap_cons, limited_velocity]
  refine ⟨_, rfl, fun hlive => ?_, fun hdead => ?_⟩
  · obtain ⟨-, t', msg, hlast, -⟩ := (live_iff hc).mp hlive
    exact ⟨t', msg, hlast, by rw [hlast, Option.getD_some]⟩
  · cases hlast : lastCmd h with
    | none =>
      have hzero : ((none : Option (ℤ × Twist α)).getD (now, 0)).2 = 0 := rfl
      rw [hzero]
      exact Prod.ext (within_zero hl) (Prod.ext (within_zero hl) (within_zero ha))
    | some last =>
      rw [hlast, Option.getD_some, not_lt] at ht
      exact (hdead ((live_iff hc).mpr ⟨hs, last.1, last.2, hlast, ht⟩)).elim

theorem watchdog (hl : 0 ≤ maxLinearVel) (ha : 0 ≤ maxAngularVel)
    (h : List (ℤ × ControllerEvent α)) (hc : (h.map Prod.fst).Pairwise (· ≤ ·)) :
    AtEachStep (fun pre i => Contract maxLinearVel maxAngularVel timeout pre i
      (velocities (init maxLinearVel maxAngularVel timeout true now) pre i)) h := by
  intro pre i post he
  obtain ⟨t, e⟩ := i
  cases e with
  | cmdVel msg => rfl
  | emergencyStop data =>
    change velocities _ pre _ = if data = true ∧ lastStop pre ≠ some true then [(0, 0, 0)] else []
    rw [velocities, reply_emergencyStop]
    split <;> rfl
  | tick =>
    apply tick_contract timeout now hl ha
    rw [he, List.map_append] at hc
    exact (List.pairwise_append.mp hc).1

theorem watchdog_tick :
    AtEachStep (fun pre i => Contract (1 : ℚ) 1 (1 / 2) pre i
        (velocities (init 1 1 (1 / 2) true 0) pre i))
      [(0, .cmdVel ⟨⟨2, 0, 0⟩, ⟨0, 0, 0⟩⟩), (1, .tick), (10 ^ 9, .tick)] :=
  watchdog (1 / 2) 0 (by norm_num) (by norm_num) _ (by decide)

end Taggy.Go2VelocityController
