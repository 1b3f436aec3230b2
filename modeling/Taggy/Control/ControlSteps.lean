import Taggy.Control.ControlNode

/-! What one callback of the control node can do to the flag, and what it can publish. -/

namespace Taggy.Go2ControlNode

def postureApis : List ℤ :=
  [SportAPI.balanceStand, SportAPI.stopMove, SportAPI.standUp, SportAPI.standDown,
    SportAPI.recoveryStand, SportAPI.sit, SportAPI.hello, SportAPI.stretch]

lemma damp_not_posture : SportAPI.damp ∉ postureApis := by decide

lemma move_not_posture : SportAPI.move ∉ postureApis := by decide

def stamp (apiId now : ℤ) (req : Request) : Request :=
  { req with header.identity.apiId := apiId, header.identity.id := now }

def postureAction (command : String) : Option (ℤ × Bool) :=
  if command = "up" ∨ command = "stand" then some (SportAPI.standUp, true)
  else if command = "down" ∨ command = "lie" then some (SportAPI.standDown, false)
  else if command = "balance" then some (SportAPI.balanceStand, false)
  else if command = "recovery" then some (SportAPI.recoveryStand, true)
  else if command = "sit" then some (SportAPI.sit, false)
  else if command = "hello" then some (SportAPI.hello, false)
  else if command = "stretch" then some (SportAPI.stretch, false)
  else if command = "stop" then some (SportAPI.stopMove, false)
  else none

def answer (now : ℤ) (n : Go2ControlNode) : Option (ℤ × Bool) → Go2ControlNode × List Request
  | none => (n, [])
  | some (apiId, clears) =>
    (⟨stamp apiId now n.request, n.estopActive && !clears⟩, [stamp apiId now n.request])

lemma call_send (apiId now : ℤ) (n : Go2ControlNode) :
    n.call (SportClient.send apiId now) = answer now n (some (apiId, false)) := by
  simp [answer, call, SportClient.send, stamp]

lemma call_send_clearEstop (apiId now : ℤ) (n : Go2ControlNode) :
    n.clearEstop.call (SportClient.send apiId now) = answer now n (some (apiId, true)) := by
  simp [answer, call, clearEstop, SportClient.send, stamp]

lemma postureCallback_eq (now : ℤ) (command : String) (n : Go2ControlNode) :
    n.postureCallback now command =
      match postureAction command with
      | none => (n, [])
      | some (apiId, clears) =>
        (⟨stamp apiId now n.request, n.estopActive && !clears⟩, [stamp apiId now n.request]) := by
  change _ = answer now n (postureAction command)
  simp only [postureAction, apply_ite (answer now n), ← call_send, ← call_send_clearEstop]
  rfl

inductive PostureKind (command : String) : Prop
  | release (apiId : ℤ) : command ∈ releasePostures →
      apiId ∈ postureApis → postureAction command = some (apiId, true) → PostureKind command
  | ungated (apiId : ℤ) : command ∉ releasePostures → command ∈ ungatedPostures →
      apiId ∈ postureApis → postureAction command = some (apiId, false) → PostureKind command
  | unknown : command ∉ releasePostures → command ∉ ungatedPostures →
      postureAction command = none → PostureKind command

lemma release_not_ungated {command : String} (hr : command ∈ releasePostures) :
    command ∉ ungatedPostures := by
  simp only [releasePostures, List.mem_cons, List.not_mem_nil, or_false] at hr
  rcases hr with rfl | rfl | rfl <;> decide

lemma postureKind (command : String) : PostureKind command := by
  by_cases hr : command ∈ releasePostures
  · have hm := hr
    simp only [releasePostures, List.mem_cons, List.not_mem_nil, or_false] at hm
    rcases hm with rfl | rfl | rfl <;> exact .release _ hr (by decide) rfl
  · by_cases hu : command ∈ ungatedPostures
    · have hm := hu
      simp only [ungatedPostures, List.mem_cons, List.not_mem_nil, or_false] at hm
      rcases hm with rfl | rfl | rfl | rfl | rfl | rfl | rfl <;>
        exact .ungated _ hr hu (by decide) rfl
    · refine .unknown hr hu ?_
      simp only [releasePostures, ungatedPostures, List.mem_cons, List.not_mem_nil, or_false,
        not_or] at hr hu
      simp [postureAction, hr, hu]

variable {α β : Type} [Zero α] [Zero β] (fs : FloatSemantics α β)

def moveParameter (twist : Twist α) : String :=
  (SportClient.axes (fs.narrow twist.linear.x) (fs.narrow twist.linear.y)
    (fs.narrow twist.angular.z)).dump fs.dumpFloat

def velocityText (x y z : String) : String :=
  "\x7b\"x\":" ++ x ++ ",\"y\":" ++ y ++ ",\"z\":" ++ z ++ "\x7d"

lemma moveParameter_eq (twist : Twist α) :
    moveParameter fs twist =
      velocityText (fs.dumpFloat (fs.narrow twist.linear.x))
        (fs.dumpFloat (fs.narrow twist.linear.y)) (fs.dumpFloat (fs.narrow twist.angular.z)) := by
  rw [moveParameter, SportClient.axes_eq]
  apply String.toList_injective
  simp [Json.Object.dump, Json.dumpMember, Json.Scalar.dump, velocityText]

def moveRequest (now : ℤ) (twist : Twist α) (req : Request) : Request :=
  stamp SportAPI.move now { req with parameter := moveParameter fs twist }

lemma cmdVelCallback_eq (now : ℤ) (twist : Twist α) (n : Go2ControlNode) :
    n.cmdVelCallback fs now twist =
      if n.estopActive then (n, [])
      else (⟨moveRequest fs now twist n.request, n.estopActive⟩,
        [moveRequest fs now twist n.request]) := rfl

lemma estopCallback_eq (now : ℤ) (data : Bool) (n : Go2ControlNode) :
    n.estopCallback now data =
      if data && !n.estopActive then
        (⟨stamp SportAPI.damp now n.request, true⟩, [stamp SportAPI.damp now n.request])
      else (⟨n.request, data && n.estopActive⟩, []) := by
  cases n with
  | mk request estopActive =>
    cases data <;> cases estopActive <;> rfl

variable {fs} {n : Go2ControlNode} {i : ℤ × Msg α}

lemma step_estopActive :
    (step fs n i).1.estopActive = true ↔
      Activation i ∨ (n.estopActive = true ∧ ¬ Release i) := by
  obtain ⟨now, msg⟩ := i
  cases msg with
  | cmdVel twist =>
    cases hn : n.estopActive <;> simp [step, cmdVelCallback_eq, Activation, Release, hn]
  | emergencyStop data =>
    cases hn : n.estopActive <;> cases data <;>
      simp [step, estopCallback_eq, Activation, Release, hn]
  | cmdPosture command =>
    cases postureKind command with
    | release apiId hr _ ha => simp [step, postureCallback_eq, Activation, Release, ha, hr]
    | ungated apiId hr _ _ ha => simp [step, postureCallback_eq, Activation, Release, ha, hr]
    | unknown hr _ ha => simp [step, postureCallback_eq, Activation, Release, ha, hr]

theorem estopActive_iff (h : List (ℤ × Msg α)) :
    (after fs h).estopActive = true ↔ Stopped h := by
  induction h using List.reverseRecOn with
  | nil => simp
  | append_singleton h i ih => rw [after_concat, step_estopActive, ih, stopped_concat]

lemma estopActive_eq (h : List (ℤ × Msg α)) :
    (after fs h).estopActive = decide (Stopped h) := by
  rw [Bool.eq_iff_iff, estopActive_iff, decide_eq_true_iff]

variable (fs) (h : List (ℤ × Msg α)) (now : ℤ)

lemma publishes_cmdVel (twist : Twist α) :
    publishes fs h (now, .cmdVel twist) =
      if Stopped h then [] else [moveRequest fs now twist (after fs h).request] := by
  simp only [publishes, step, cmdVelCallback_eq, estopActive_iff]
  split <;> rfl

lemma publishes_emergencyStop (data : Bool) :
    publishes fs h (now, .emergencyStop data) =
      if data = true ∧ ¬ Stopped h then [stamp SportAPI.damp now (after fs h).request] else [] := by
  simp only [publishes, step, estopCallback_eq, estopActive_eq, Bool.and_eq_true,
    Bool.not_eq_true', decide_eq_false_iff_not]
  split <;> rfl

lemma publishes_cmdPosture (command : String) :
    publishes fs h (now, .cmdPosture command) =
      match postureAction command with
      | none => []
      | some (apiId, _) => [stamp apiId now (after fs h).request] := by
  simp only [publishes, step, postureCallback_eq]
  split <;> rfl

lemma posture_request_api (command : String) :
    ∀ req ∈ publishes fs h (now, .cmdPosture command), req.apiId ∈ postureApis := by
  intro req hm
  rw [publishes_cmdPosture] at hm
  cases postureKind command with
  | release apiId _ hp ha =>
    rw [ha] at hm
    exact List.mem_singleton.mp hm ▸ hp
  | ungated apiId _ _ hp ha =>
    rw [ha] at hm
    exact List.mem_singleton.mp hm ▸ hp
  | unknown _ _ ha =>
    rw [ha] at hm
    exact (List.not_mem_nil hm).elim

end Taggy.Go2ControlNode
