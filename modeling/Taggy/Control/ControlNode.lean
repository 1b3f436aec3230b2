import Mathlib.Algebra.Group.Hom.Defs
import Mathlib.Data.Rat.Defs
import Taggy.Control.SportClient
import Taggy.Data.PyArith
import Taggy.History.Latch
import Taggy.History.Transducer

/-! The bridge from velocity, stop and posture messages to requests of the sport service. -/

namespace Taggy

-- Narrowing of a message's doubles to floats, and the serializer's text for a float.
structure FloatSemantics (α β : Type) [Zero α] [Zero β] where
  narrow : ZeroHom α β
  dumpFloat : β → String

-- Narrowing is exact on the values the worked examples use.
def FloatSemantics.exact : FloatSemantics ℚ ℚ where
  narrow := ZeroHom.id ℚ
  dumpFloat q := if q = 0 then "0.0" else if q = 1 / 2 then "0.5" else toString q

structure Go2ControlNode where
  request : Request := {}
  estopActive : Bool := false
  deriving DecidableEq

namespace Go2ControlNode

def call (n : Go2ControlNode) (command : Request → Request × List Request) :
    Go2ControlNode × List Request :=
  ({ n with request := (command n.request).1 }, (command n.request).2)

def clearEstop (n : Go2ControlNode) : Go2ControlNode := { n with estopActive := false }

variable {α β : Type} [Zero α] [Zero β] (fs : FloatSemantics α β)

def cmdVelCallback (now : ℤ) (msg : Twist α) (n : Go2ControlNode) : Go2ControlNode × List Request :=
  if n.estopActive then (n, [])
  else n.call (SportClient.move fs.dumpFloat (fs.narrow msg.linear.x) (fs.narrow msg.linear.y)
    (fs.narrow msg.angular.z) now)

def estopCallback (now : ℤ) (data : Bool) (n : Go2ControlNode) : Go2ControlNode × List Request :=
  if data && !n.estopActive then { n with estopActive := true }.call (SportClient.damp now)
  else if !data && n.estopActive then ({ n with estopActive := false }, [])
  else (n, [])

def postureCallback (now : ℤ) (command : String) (n : Go2ControlNode) :
    Go2ControlNode × List Request :=
  if command = "up" ∨ command = "stand" then n.clearEstop.call (SportClient.standUp now)
  else if command = "down" ∨ command = "lie" then n.call (SportClient.standDown now)
  else if command = "balance" then n.call (SportClient.balanceStand now)
  else if command = "recovery" then n.clearEstop.call (SportClient.recoveryStand now)
  else if command = "sit" then n.call (SportClient.sit now)
  else if command = "hello" then n.call (SportClient.hello now)
  else if command = "stretch" then n.call (SportClient.stretch now)
  else if command = "stop" then n.call (SportClient.stopMove now)
  else (n, [])

-- The first component of an input is the reading of the uptime clock in its callback.
def step (n : Go2ControlNode) (i : ℤ × Msg α) : Go2ControlNode × List Request :=
  match i.2 with
  | .cmdVel twist => n.cmdVelCallback fs i.1 twist
  | .emergencyStop data => n.estopCallback i.1 data
  | .cmdPosture command => n.postureCallback i.1 command

def after (h : List (ℤ × Msg α)) : Go2ControlNode := Transducer.after (step fs) {} h

def published (h : List (ℤ × Msg α)) : List Request := Transducer.outputs (step fs) {} h

def publishes (h : List (ℤ × Msg α)) (i : ℤ × Msg α) : List Request :=
  (step fs (after fs h) i).2

abbrev Activation (i : ℤ × Msg α) : Prop := i.2.isActivation = true

abbrev Release (i : ℤ × Msg α) : Prop := i.2.isRelease = true

abbrev Ungated (i : ℤ × Msg α) : Prop := i.2.isUngated = true

def Stopped (h : List (ℤ × Msg α)) : Prop := Latch.Latched Activation Release h

instance (h : List (ℤ × Msg α)) : Decidable (Stopped h) :=
  inferInstanceAs (Decidable (Latch.Latched Activation Release h))

@[simp] lemma after_nil : after fs [] = {} := rfl

@[simp] lemma published_nil : published fs [] = [] := rfl

@[simp] lemma after_concat (h : List (ℤ × Msg α)) (i : ℤ × Msg α) :
    after fs (h ++ [i]) = (step fs (after fs h) i).1 := Transducer.after_concat _ _ h i

@[simp] lemma published_concat (h : List (ℤ × Msg α)) (i : ℤ × Msg α) :
    published fs (h ++ [i]) = published fs h ++ publishes fs h i :=
  Transducer.outputs_concat _ _ h i

omit [Zero α] in
@[simp] lemma not_stopped_nil : ¬ Stopped ([] : List (ℤ × Msg α)) := Latch.not_latched_nil

omit [Zero α] in
lemma stopped_concat {h : List (ℤ × Msg α)} {i : ℤ × Msg α} :
    Stopped (h ++ [i]) ↔ Activation i ∨ (Stopped h ∧ ¬ Release i) := Latch.latched_concat

end Go2ControlNode

end Taggy
