import Taggy.Control.ControlHistory

/-! The latest velocity or damp request, which is the one the robot is left on. -/

namespace Taggy

section LastTwist

variable {α : Type}

def lastTwist (ms : List (Msg α)) : Option (Twist α) := (ms.filterMap Msg.twist?).getLast?

lemma lastTwist_append (ms ms' : List (Msg α)) :
    lastTwist (ms ++ ms') = (lastTwist ms').or (lastTwist ms) := by
  rw [lastTwist, List.filterMap_append, List.getLast?_append]
  rfl

end LastTwist

namespace Go2ControlNode

def isCommand (req : Request) : Bool := req.apiId == SportAPI.move || req.apiId == SportAPI.damp

def lastCommand (reqs : List Request) : Option Request := (reqs.filter isCommand).getLast?

lemma lastCommand_append (reqs reqs' : List Request) :
    lastCommand (reqs ++ reqs') = (lastCommand reqs').or (lastCommand reqs) := by
  rw [lastCommand, List.filter_append, List.getLast?_append]
  rfl

variable {α β : Type} [Zero α] [Zero β] (fs : FloatSemantics α β) (h : List (ℤ × Msg α))

lemma lastCommand_none {reqs : List Request} (hn : ∀ req ∈ reqs, isCommand req = false) :
    lastCommand reqs = none := by
  rw [lastCommand, List.filter_eq_nil_iff.mpr fun req hm => by simp [hn req hm]]
  rfl

lemma posture_not_command (now : ℤ) (command : String) :
    ∀ req ∈ publishes fs h (now, .cmdPosture command), isCommand req = false := by
  intro req hm
  have hp := posture_request_api fs h now command req hm
  refine Bool.or_eq_false_iff.mpr ⟨beq_eq_false_iff_ne.mpr ?_, beq_eq_false_iff_ne.mpr ?_⟩
  · exact fun he => move_not_posture (he ▸ hp)
  · exact fun he => damp_not_posture (he ▸ hp)

variable {h}

lemma no_command_of_stopped (hs : Stopped h) (i : ℤ × Msg α) :
    ∀ req ∈ publishes fs h i, isCommand req = false := by
  obtain ⟨now, msg⟩ := i
  cases msg with
  | cmdVel twist => simp [publishes_cmdVel, hs]
  | emergencyStop data => simp [publishes_emergencyStop, hs]
  | cmdPosture command => exact posture_not_command fs h now command

lemma activation_damps (hs : ¬ Stopped h) {i : ℤ × Msg α} (ha : Activation i) :
    ∃ req, lastCommand (publishes fs h i) = some req ∧ req.apiId = SportAPI.damp := by
  obtain ⟨now, msg⟩ := i
  cases msg with
  | emergencyStop data =>
    rw [publishes_emergencyStop, if_pos ⟨ha, hs⟩]
    exact ⟨_, rfl, rfl⟩
  | cmdVel twist => simp [Activation] at ha
  | cmdPosture command => simp [Activation] at ha

lemma lastCommand_of_stopped (hs : Stopped h) :
    ∃ req, lastCommand (published fs h) = some req ∧ req.apiId = SportAPI.damp := by
  induction h using List.reverseRecOn with
  | nil => exact (not_stopped_nil hs).elim
  | append_singleton h i ih =>
    rw [published_concat, lastCommand_append]
    by_cases hh : Stopped h
    · obtain ⟨req, hl, hd⟩ := ih hh
      refine ⟨req, ?_, hd⟩
      rw [lastCommand_none (no_command_of_stopped fs hh i), hl, Option.none_or]
    · have ha : Activation i := (stopped_concat.mp hs).resolve_right fun hc => hh hc.1
      obtain ⟨req, hl, hd⟩ := activation_damps fs hh ha
      exact ⟨req, by rw [hl, Option.some_or], hd⟩

theorem lastCommand_carries (h : List (ℤ × Msg α)) (req : Request)
    (hl : lastCommand (published fs h) = some req) :
    req.apiId = SportAPI.damp ∨
      ∃ twist, lastTwist (h.map Prod.snd) = some twist ∧ CarriesVelocity fs twist req := by
  induction h using List.reverseRecOn with
  | nil => simp [lastCommand] at hl
  | append_singleton h i ih =>
    rw [published_concat, lastCommand_append] at hl
    rw [List.map_append, List.map_singleton, lastTwist_append]
    obtain ⟨now, msg⟩ := i
    cases msg with
    | cmdVel twist =>
      by_cases hs : Stopped h
      · obtain ⟨req', hl', hd⟩ := lastCommand_of_stopped fs hs
        have hn := lastCommand_none (no_command_of_stopped fs hs (now, .cmdVel twist))
        rw [hn, Option.none_or, hl', Option.some_inj] at hl
        exact Or.inl (hl ▸ hd)
      · rw [publishes_cmdVel, if_neg hs] at hl
        obtain rfl := Option.some_inj.mp hl
        exact Or.inr ⟨twist, rfl, moveRequest_carries fs now twist _⟩
    | emergencyStop data =>
      rw [publishes_emergencyStop] at hl
      split at hl
      · obtain rfl := Option.some_inj.mp hl
        exact Or.inl rfl
      · exact ih hl
    | cmdPosture command =>
      rw [lastCommand_none (posture_not_command fs h now command), Option.none_or] at hl
      exact ih hl

end Go2ControlNode

end Taggy
