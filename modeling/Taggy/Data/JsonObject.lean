import Mathlib.Tactic

/-! Flat JSON objects, kept in key order and written without whitespace. -/

namespace Taggy.Json

inductive Scalar (β : Type) where
  | null
  | boolean (value : Bool)
  | integer (value : ℤ)
  | float (value : β)
  deriving DecidableEq

abbrev Object (β : Type) := List (String × Scalar β)

variable {β : Type}

def Object.set (key : String) (value : Scalar β) : Object β → Object β
  | [] => [(key, value)]
  | (k, v) :: rest =>
    if key < k then (key, value) :: (k, v) :: rest
    else if key = k then (key, value) :: rest
    else (k, v) :: Object.set key value rest

variable (dumpFloat : β → String)

def Scalar.dump : Scalar β → String
  | .null => "null"
  | .boolean true => "true"
  | .boolean false => "false"
  | .integer n => toString n
  | .float x => dumpFloat x

def dumpMember (m : String × Scalar β) : String := "\"" ++ m.1 ++ "\":" ++ m.2.dump dumpFloat

def Object.dump (o : Object β) : String :=
  "\x7b" ++ ",".intercalate (o.map (dumpMember dumpFloat)) ++ "\x7d"

end Taggy.Json
