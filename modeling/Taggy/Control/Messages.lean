import Mathlib.Algebra.Notation.Defs
import Mathlib.Tactic

/-! The messages that travel to the control node, and the requests it sends on. -/

namespace Taggy

structure Vector3 (α : Type) where
  x : α
  y : α
  z : α
  deriving DecidableEq

structure Twist (α : Type) where
  linear : Vector3 α
  angular : Vector3 α
  deriving DecidableEq

instance {α : Type} [Zero α] : Zero (Vector3 α) := ⟨⟨0, 0, 0⟩⟩

instance {α : Type} [Zero α] : Zero (Twist α) := ⟨⟨0, 0⟩⟩

inductive Topic where
  | cmdVel
  | emergencyStop
  | cmdPosture
  deriving DecidableEq, Repr

inductive Msg (α : Type) where
  | cmdVel (twist : Twist α)
  | emergencyStop (data : Bool)
  | cmdPosture (data : String)
  deriving DecidableEq

def Msg.topic {α : Type} : Msg α → Topic
  | .cmdVel _ => .cmdVel
  | .emergencyStop _ => .emergencyStop
  | .cmdPosture _ => .cmdPosture

def Msg.twist? {α : Type} : Msg α → Option (Twist α)
  | .cmdVel twist => some twist
  | _ => none

def releasePostures : List String := ["up", "stand", "recovery"]

def ungatedPostures : List String := ["down", "lie", "balance", "sit", "hello", "stretch", "stop"]

@[simp] def Msg.isActivation {α : Type} : Msg α → Bool
  | .emergencyStop data => data
  | _ => false

@[simp] def Msg.isRelease {α : Type} : Msg α → Bool
  | .emergencyStop data => !data
  | .cmdPosture command => decide (command ∈ releasePostures)
  | _ => false

@[simp] def Msg.isUngated {α : Type} : Msg α → Bool
  | .cmdPosture command => decide (command ∈ ungatedPostures)
  | _ => false

structure RequestIdentity where
  id : ℤ := 0
  apiId : ℤ := 0
  deriving DecidableEq

structure RequestLease where
  id : ℤ := 0
  deriving DecidableEq

structure RequestPolicy where
  priority : ℤ := 0
  noreply : Bool := false
  deriving DecidableEq

structure RequestHeader where
  identity : RequestIdentity := {}
  lease : RequestLease := {}
  policy : RequestPolicy := {}
  deriving DecidableEq

structure Request where
  header : RequestHeader := {}
  parameter : String := ""
  binary : List UInt8 := []
  deriving DecidableEq

abbrev Request.apiId (req : Request) : ℤ := req.header.identity.apiId

end Taggy
