import Taggy.Data.PyArith
import Taggy.Interface.RobotState

/-! The high-level interface of the robot: the commands it sends and the state it decodes. -/

namespace Taggy

structure HighLevelCommand (α : Type) [Zero α] where
  vx : α := 0
  vy : α := 0
  wz : α := 0
  bodyHeight : α := 0
  gaitType : ℤ := 1
  mode : ℤ := 2

-- A socket is the number of sockets created before it.
structure Go2HighLevelInterface (α : Type) [Zero α] where
  socket : Option ℕ := none
  running : Bool := false
  created : ℕ := 0
  currentState : RobotState := {}
  currentCommand : HighLevelCommand α := {}

inductive RobotCall (α : Type) where
  | setVelocity (vx vy wz : α)
  | stop
  | stand
  deriving DecidableEq

inductive ConnectStep where
  | socket
  | setsockopt
  | bind
  | settimeout
  deriving DecidableEq

namespace Go2HighLevelInterface

variable {α : Type} [Zero α]

-- `raises` is the step of the `try` block that raises, if one does.
def connect (raises : Option ConnectStep) (g : Go2HighLevelInterface α) :
    Go2HighLevelInterface α × Bool :=
  if raises = some .socket then (g, false)
  else
    let g := { g with socket := some g.created, created := g.created + 1 }
    if raises.isSome then (g, false) else ({ g with running := true }, true)

def disconnect (g : Go2HighLevelInterface α) : Go2HighLevelInterface α :=
  { g with running := false, socket := none }

def sendCommand (g : Go2HighLevelInterface α) : List (HighLevelCommand α) :=
  if g.socket.isSome then [g.currentCommand] else []

def send (command : HighLevelCommand α) (g : Go2HighLevelInterface α) :
    Go2HighLevelInterface α × List (HighLevelCommand α) :=
  let g := { g with currentCommand := command }
  (g, g.sendCommand)

def setVelocity [DecidableEq α] (vx vy wz : α) (g : Go2HighLevelInterface α) :
    Go2HighLevelInterface α × List (HighLevelCommand α) :=
  g.send { g.currentCommand with
    vx := vx
    vy := vy
    wz := wz
    mode := if vx ≠ 0 ∨ vy ≠ 0 ∨ wz ≠ 0 then 2 else 1 }

def stop [DecidableEq α] (g : Go2HighLevelInterface α) :
    Go2HighLevelInterface α × List (HighLevelCommand α) := g.setVelocity 0 0 0

def stand (g : Go2HighLevelInterface α) : Go2HighLevelInterface α × List (HighLevelCommand α) :=
  g.send { mode := 1 }

def perform [DecidableEq α] (g : Go2HighLevelInterface α) :
    RobotCall α → Go2HighLevelInterface α × List (HighLevelCommand α)
  | .setVelocity vx vy wz => g.setVelocity vx vy wz
  | .stop => g.stop
  | .stand => g.stand

def velocity? : RobotCall α → Option (α × α × α)
  | .setVelocity vx vy wz => some (vx, vy, wz)
  | .stop => some (0, 0, 0)
  | .stand => none

def getState (g : Go2HighLevelInterface α) : RobotState := g.currentState

-- The second component is what gets printed.
def parseState (g : Go2HighLevelInterface α) (data : List UInt8) :
    Go2HighLevelInterface α × List String :=
  if data.length < 80 then (g, [])
  else
    match Struct.unpack RobotState.stateFormat (data.take 80) with
    | .error e => (g, ["[Go2] Parse error: " ++ e])
    | .ok values =>
      ({ g with currentState := (RobotState.ofValues? values).getD g.currentState }, [])

end Go2HighLevelInterface

end Taggy
