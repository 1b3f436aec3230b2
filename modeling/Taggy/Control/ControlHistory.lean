import Taggy.Control.ControlSteps

/-! The control node's requests, read off the history of its messages. -/

namespace Taggy.Go2ControlNode

open History

variable {α β : Type} [Zero α] [Zero β] (fs : FloatSemantics α β)

lemma publishes_length (h : List (ℤ × Msg α)) (i : ℤ × Msg α) :
    (publishes fs h i).length ≤ 1 := by
  obtain ⟨now, msg⟩ := i
  cases msg with
  | cmdVel twist => rw [publishes_cmdVel]; split <;> simp
  | emergencyStop data => rw [publishes_emergencyStop]; split <;> simp
  | cmdPosture command => rw [publishes_cmdPosture]; split <;> simp

def CarriesVelocity (twist : Twist α) (req : Request) : Prop :=
  req.apiId = SportAPI.move ∧
    req.parameter = velocityText (fs.dumpFloat (fs.narrow twist.linear.x))
      (fs.dumpFloat (fs.narrow twist.linear.y)) (fs.dumpFloat (fs.narrow twist.angular.z))

lemma moveRequest_carries (now : ℤ) (twist : Twist α) (req : Request) :
    CarriesVelocity fs twist (moveRequest fs now twist req) :=
  ⟨rfl, moveParameter_eq fs twist⟩

lemma move_published_iff (h : List (ℤ × Msg α)) (now : ℤ) (twist : Twist α) :
    (∃ req, publishes fs h (now, .cmdVel twist) = [req] ∧ CarriesVelocity fs twist req) ↔
      Latch.Open Activation Release h := by
  have hopen : ¬ Stopped h ↔ Latch.Open Activation Release h := Latch.not_latched_iff_open
  rw [← hopen, publishes_cmdVel]
  constructor
  · rintro ⟨req, hp, _⟩ hs
    rw [if_pos hs] at hp
    simp at hp
  · intro hs
    exact ⟨_, if_neg hs, moveRequest_carries fs now twist _⟩

lemma nothing_published_iff (h : List (ℤ × Msg α)) (now : ℤ) (twist : Twist α) :
    publishes fs h (now, .cmdVel twist) = [] ↔ ¬ Latch.Open Activation Release h := by
  have hopen : ¬ Stopped h ↔ Latch.Open Activation Release h := Latch.not_latched_iff_open
  rw [← hopen, not_not, publishes_cmdVel]
  constructor
  · intro hp
    by_contra hs
    rw [if_neg hs] at hp
    cases hp
  · intro hs
    exact if_pos hs

def isDamp (req : Request) : Bool := req.apiId == SportAPI.damp

lemma damps_published (h : List (ℤ × Msg α)) (i : ℤ × Msg α) :
    (publishes fs h i).countP isDamp = if Activation i ∧ ¬ Stopped h then 1 else 0 := by
  obtain ⟨now, msg⟩ := i
  cases msg with
  | cmdVel twist =>
    have hmove : isDamp (moveRequest fs now twist (after fs h).request) = false := rfl
    rw [publishes_cmdVel]
    split <;> simp [Activation, hmove]
  | emergencyStop data =>
    have hdamp : isDamp (stamp SportAPI.damp now (after fs h).request) = true := rfl
    rw [publishes_emergencyStop]
    change _ = if data = true ∧ ¬ Stopped h then 1 else 0
    split
    · rw [List.countP_singleton, if_pos hdamp]
    · rw [List.countP_nil]
  | cmdPosture command =>
    have hnone : (publishes fs h (now, .cmdPosture command)).countP isDamp = 0 := by
      refine List.countP_eq_zero.mpr fun req hm hd => damp_not_posture ?_
      rw [← beq_iff_eq.mp hd]
      exact posture_request_api fs h now command req hm
    rw [hnone]
    simp [Activation]

lemma damps_eq_risingEdges (h : List (ℤ × Msg α)) :
    (published fs h).countP isDamp = Latch.risingEdges Activation Release h := by
  induction h using List.reverseRecOn with
  | nil => rfl
  | append_singleton h i ih =>
    rw [published_concat, List.countP_append, ih, damps_published, Latch.risingEdges_concat]
    rfl

lemma unknown_ignored (h : List (ℤ × Msg α)) (now : ℤ) {command : String}
    (hr : command ∉ releasePostures) (hu : command ∉ ungatedPostures) :
    publishes fs h (now, .cmdPosture command) = [] ∧
      (after fs (h ++ [(now, .cmdPosture command)])).estopActive = (after fs h).estopActive := by
  cases postureKind command with
  | release _ hr' => exact (hr hr').elim
  | ungated _ _ hu' => exact (hu hu').elim
  | unknown _ _ ha => simp [publishes_cmdPosture, step, postureCallback_eq, ha]

theorem bridge_history (h : List (ℤ × Msg α)) :
    AtEachStep (fun pre i =>
      (∀ now twist, i = (now, .cmdVel twist) →
        ((∃ req, publishes fs pre i = [req] ∧ CarriesVelocity fs twist req) ↔
          Latch.Open Activation Release pre) ∧
        (publishes fs pre i = [] ↔ ¬ Latch.Open Activation Release pre)) ∧
      (publishes fs pre i).length ≤ 1 ∧
      ∀ now command, i = (now, .cmdPosture command) →
        command ∉ releasePostures ++ ungatedPostures →
          publishes fs pre i = [] ∧
            (after fs (pre ++ [i])).estopActive = (after fs pre).estopActive) h ∧
    (published fs h).countP isDamp = Latch.risingEdges Activation Release h := by
  refine ⟨?_, damps_eq_risingEdges fs h⟩
  intro pre i post _
  refine ⟨?_, publishes_length fs pre i, ?_⟩
  · rintro now twist rfl
    exact ⟨move_published_iff fs pre now twist, nothing_published_iff fs pre now twist⟩
  · rintro now command rfl hc
    rw [List.mem_append, not_or] at hc
    exact unknown_ignored fs pre now hc.1 hc.2

end Taggy.Go2ControlNode
