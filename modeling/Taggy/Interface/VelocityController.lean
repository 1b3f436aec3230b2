import Taggy.Control.Messages
import Taggy.Data.PyArith
import Taggy.History.Transducer
import Taggy.Interface.HighLevelInterface

/-! The velocity controller: the latest command, replayed by a timer until it is too old or
the stop is active. -/

namespace Taggy

inductive ControllerEvent (α : Type) where
  | cmdVel (msg : Twist α)
  | emergencyStop (data : Bool)
  | tick
  deriving DecidableEq

namespace ControllerEvent

variable {α : Type}

def twist? : ControllerEvent α → Option (Twist α)
  | .cmdVel msg => some msg
  | .emergencyStop _ => none
  | .tick => none

def stop? : ControllerEvent α → Option Bool
  | .cmdVel _ => none
  | .emergencyStop data => some data
  | .tick => none

end ControllerEvent

structure Go2VelocityController (α : Type) where
  maxLinearVel : α
  maxAngularVel : α
  timeout : ℚ
  connected : Bool
  currentCmd : Twist α
  lastCmdTime : ℤ
  emergencyStop : Bool := false

namespace Go2VelocityController

section Callbacks

variable {α : Type}

def init [Zero α] (maxLinearVel maxAngularVel : α) (timeout : ℚ) (connected : Bool) (now : ℤ) :
    Go2VelocityController α where
  maxLinearVel := maxLinearVel
  maxAngularVel := maxAngularVel
  timeout := timeout
  connected := connected
  currentCmd := 0
  lastCmdTime := now

def command (call : RobotCall α) (c : Go2VelocityController α) : List (RobotCall α) :=
  if c.connected then [call] else []

def cmdVelCallback (now : ℤ) (msg : Twist α) (c : Go2VelocityController α) :
    Go2VelocityController α :=
  { c with currentCmd := msg, lastCmdTime := now }

def estopCallback (data : Bool) (c : Go2VelocityController α) :
    Go2VelocityController α × List (RobotCall α) :=
  if data && !c.emergencyStop then ({ c with emergencyStop := true }, c.command .stop)
  else if !data && c.emergencyStop then ({ c with emergencyStop := false }, [])
  else (c, [])

def secondsSince (now last : ℤ) : ℚ := (now - last : ℤ) / 10 ^ 9

variable [Neg α] [LT α] [DecidableLT α]

def limited (maxLinearVel maxAngularVel : α) (cmd : Twist α) : RobotCall α :=
  .setVelocity (Py.clamp (-maxLinearVel) maxLinearVel cmd.linear.x)
    (Py.clamp (-maxLinearVel) maxLinearVel cmd.linear.y)
    (Py.clamp (-maxAngularVel) maxAngularVel cmd.angular.z)

def controlLoop (now : ℤ) (c : Go2VelocityController α) : List (RobotCall α) :=
  if c.emergencyStop then c.command .stop
  else if c.timeout < secondsSince now c.lastCmdTime then c.command .stop
  else c.command (limited c.maxLinearVel c.maxAngularVel c.currentCmd)

-- The first component of an input is the reading of the clock in its callback, in nanoseconds.
def step (c : Go2VelocityController α) (i : ℤ × ControllerEvent α) :
    Go2VelocityController α × List (RobotCall α) :=
  match i.2 with
  | .cmdVel msg => (c.cmdVelCallback i.1 msg, [])
  | .emergencyStop data => c.estopCallback data
  | .tick => (c, c.controlLoop i.1)

end Callbacks

section History

variable {α : Type} (h : List (ℤ × ControllerEvent α))

def cmdVels : List (ℤ × Twist α) := h.filterMap fun i => i.2.twist?.map (i.1, ·)

def lastCmd : Option (ℤ × Twist α) := (cmdVels h).getLast?

def lastStop : Option Bool := (h.filterMap fun i => i.2.stop?).getLast?

lemma lastCmd_concat (i : ℤ × ControllerEvent α) :
    lastCmd (h ++ [i]) = (i.2.twist?.map (i.1, ·)).or (lastCmd h) := by
  obtain ⟨now, e⟩ := i
  rw [lastCmd, cmdVels, List.filterMap_append, List.getLast?_append]
  cases e <;> rfl

lemma lastStop_concat (i : ℤ × ControllerEvent α) :
    lastStop (h ++ [i]) = i.2.stop?.or (lastStop h) := by
  obtain ⟨now, e⟩ := i
  rw [lastStop, List.filterMap_append, List.getLast?_append]
  cases e <;> rfl

def remember (c : Go2VelocityController α) : Go2VelocityController α :=
  { c with
    currentCmd := ((lastCmd h).getD (c.lastCmdTime, c.currentCmd)).2
    lastCmdTime := ((lastCmd h).getD (c.lastCmdTime, c.currentCmd)).1
    emergencyStop := (lastStop h).getD c.emergencyStop }

lemma estopCallback_fst (data : Bool) (c : Go2VelocityController α) :
    (c.estopCallback data).1 = { c with emergencyStop := data } := by
  obtain ⟨_, _, _, _, _, _, active⟩ := c
  cases data <;> cases active <;> rfl

lemma estopCallback_snd (data : Bool) (c : Go2VelocityController α) :
    (c.estopCallback data).2 = if data && !c.emergencyStop then c.command .stop else [] := by
  obtain ⟨_, _, _, _, _, _, active⟩ := c
  cases data <;> cases active <;> rfl

lemma remember_emergencyStop [Zero α] (maxLinearVel maxAngularVel : α) (timeout : ℚ) (now : ℤ) :
    (remember h (init maxLinearVel maxAngularVel timeout true now)).emergencyStop =
      decide (lastStop h = some true) := by
  rw [remember]
  cases lastStop h with
  | none => rfl
  | some data => cases data <;> rfl

variable [Neg α] [LT α] [DecidableLT α]

lemma after_eq (c : Go2VelocityController α) : Transducer.after step c h = remember h c := by
  induction h using List.reverseRecOn with
  | nil => rfl
  | append_singleton h i ih =>
    rw [Transducer.after_concat, ih]
    simp only [remember, lastCmd_concat, lastStop_concat]
    obtain ⟨now, e⟩ := i
    cases e with
    | cmdVel msg => rfl
    | emergencyStop data => exact estopCallback_fst data _
    | tick => rfl

variable [Zero α] (maxLinearVel maxAngularVel : α) (timeout : ℚ) (now t : ℤ)

lemma reply_tick :
    Transducer.reply step (init maxLinearVel maxAngularVel timeout true now) h (t, .tick) =
      if lastStop h = some true ∨ timeout < secondsSince t ((lastCmd h).getD (now, 0)).1 then
        [.stop]
      else [limited maxLinearVel maxAngularVel ((lastCmd h).getD (now, 0)).2] := by
  rw [Transducer.reply, after_eq, step, controlLoop, remember_emergencyStop]
  by_cases hs : lastStop h = some true
  · rw [decide_eq_true hs, if_pos rfl, if_pos (Or.inl hs)]
    rfl
  · rw [decide_eq_false hs, if_neg Bool.false_ne_true]
    simp only [hs, false_or]
    rfl

lemma reply_emergencyStop (data : Bool) :
    Transducer.reply step (init maxLinearVel maxAngularVel timeout true now) h
        (t, .emergencyStop data) =
      if data = true ∧ lastStop h ≠ some true then [.stop] else [] := by
  rw [Transducer.reply, after_eq]
  change (estopCallback data _).2 = _
  rw [estopCallback_snd, remember_emergencyStop]
  by_cases hs : lastStop h = some true
  · simp [hs]
  · rw [decide_eq_false hs, Bool.not_false, Bool.and_true]
    cases data with
    | true => rw [if_pos rfl, if_pos ⟨rfl, hs⟩]; rfl
    | false => rfl

end History

end Go2VelocityController

end Taggy
