import Taggy.Control.Messages
import Taggy.Data.JsonObject

/-! The client of the robot's sport service: every command overwrites part of one
reusable request and publishes it. -/

namespace Taggy

namespace SportAPI

def damp : ℤ := 1001
def balanceStand : ℤ := 1002
def stopMove : ℤ := 1003
def standUp : ℤ := 1004
def standDown : ℤ := 1005
def recoveryStand : ℤ := 1006
def euler : ℤ := 1007
def move : ℤ := 1008
def sit : ℤ := 1009
def riseSit : ℤ := 1010
def speedLevel : ℤ := 1015
def hello : ℤ := 1016
def stretch : ℤ := 1017
def switchJoystick : ℤ := 1027

end SportAPI

namespace SportClient

-- Every command leaves the caller's request as it was published.
def send (apiId now : ℤ) (req : Request) : Request × List Request :=
  let req := { req with header.identity.apiId := apiId, header.identity.id := now }
  (req, [req])

def damp : ℤ → Request → Request × List Request := send SportAPI.damp
def balanceStand : ℤ → Request → Request × List Request := send SportAPI.balanceStand
def stopMove : ℤ → Request → Request × List Request := send SportAPI.stopMove
def standUp : ℤ → Request → Request × List Request := send SportAPI.standUp
def standDown : ℤ → Request → Request × List Request := send SportAPI.standDown
def recoveryStand : ℤ → Request → Request × List Request := send SportAPI.recoveryStand
def sit : ℤ → Request → Request × List Request := send SportAPI.sit
def riseSit : ℤ → Request → Request × List Request := send SportAPI.riseSit
def hello : ℤ → Request → Request × List Request := send SportAPI.hello
def stretch : ℤ → Request → Request × List Request := send SportAPI.stretch

variable {β : Type} (dumpFloat : β → String)

def sendWith (apiId : ℤ) (js : Json.Object β) (now : ℤ) (req : Request) : Request × List Request :=
  send apiId now { req with parameter := js.dump dumpFloat }

def axes (x y z : β) : Json.Object β :=
  ((Json.Object.set "x" (.float x) []).set "y" (.float y)).set "z" (.float z)

lemma axes_eq (x y z : β) : axes x y z = [("x", .float x), ("y", .float y), ("z", .float z)] := by
  have hyx : ¬ "y" < "x" := by decide
  have hzx : ¬ "z" < "x" := by decide
  have hzy : ¬ "z" < "y" := by decide
  have nyx : "y" ≠ "x" := by decide
  have nzx : "z" ≠ "x" := by decide
  have nzy : "z" ≠ "y" := by decide
  simp only [axes, Json.Object.set, if_neg hyx, if_neg nyx, if_neg hzx, if_neg nzx, if_neg hzy,
    if_neg nzy]

def euler (roll pitch yaw : β) : ℤ → Request → Request × List Request :=
  sendWith dumpFloat SportAPI.euler (axes roll pitch yaw)

def move (vx vy vyaw : β) : ℤ → Request → Request × List Request :=
  sendWith dumpFloat SportAPI.move (axes vx vy vyaw)

def speedLevel (level : ℤ) : ℤ → Request → Request × List Request :=
  sendWith dumpFloat SportAPI.speedLevel (Json.Object.set "data" (.integer level) [])

def switchJoystick (flag : Bool) : ℤ → Request → Request × List Request :=
  sendWith dumpFloat SportAPI.switchJoystick (Json.Object.set "data" (.boolean flag) [])

end SportClient

end Taggy
