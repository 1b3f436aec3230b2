import Taggy.Data.Binary32
import Taggy.Data.StructFormat

/-! The state the robot reports, with every float as the bits it is sent in, and its packing. -/

namespace Taggy

abbrev Binary64 := BitVec 64

structure RobotState where
  x : Binary32 := 0x00000000
  y : Binary32 := 0x00000000
  z : Binary32 := 0x00000000
  qw : Binary32 := 0x3F800000
  qx : Binary32 := 0x00000000
  qy : Binary32 := 0x00000000
  qz : Binary32 := 0x00000000
  vx : Binary32 := 0x00000000
  vy : Binary32 := 0x00000000
  vz : Binary32 := 0x00000000
  wx : Binary32 := 0x00000000
  wy : Binary32 := 0x00000000
  wz : Binary32 := 0x00000000
  imuAccX : Binary32 := 0x00000000
  imuAccY : Binary32 := 0x00000000
  imuAccZ : Binary32 := 0x00000000
  imuGyroX : Binary32 := 0x00000000
  imuGyroY : Binary32 := 0x00000000
  imuGyroZ : Binary32 := 0x00000000
  batteryLevel : Binary32 := 0x42C80000
  mode : BitVec 8 := 0
  timestamp : Binary64 := 0x0000000000000000
  deriving DecidableEq

namespace RobotState

open Struct

def stateFormat : String := "<3f4f3f3f3f3f1f1B1d"

def stateCodes : List Code := List.replicate 20 .float ++ [.uchar, .double]

lemma parse_stateFormat : parse stateFormat = some stateCodes := by decide

def values (s : RobotState) : List Value :=
  [⟨.float, s.x⟩, ⟨.float, s.y⟩, ⟨.float, s.z⟩,
    ⟨.float, s.qw⟩, ⟨.float, s.qx⟩, ⟨.float, s.qy⟩, ⟨.float, s.qz⟩,
    ⟨.float, s.vx⟩, ⟨.float, s.vy⟩, ⟨.float, s.vz⟩,
    ⟨.float, s.wx⟩, ⟨.float, s.wy⟩, ⟨.float, s.wz⟩,
    ⟨.float, s.imuAccX⟩, ⟨.float, s.imuAccY⟩, ⟨.float, s.imuAccZ⟩,
    ⟨.float, s.imuGyroX⟩, ⟨.float, s.imuGyroY⟩, ⟨.float, s.imuGyroZ⟩,
    ⟨.float, s.batteryLevel⟩, ⟨.uchar, s.mode⟩, ⟨.double, s.timestamp⟩]

def ofValues? : List Value → Option RobotState
  | [⟨.float, x⟩, ⟨.float, y⟩, ⟨.float, z⟩,
      ⟨.float, qw⟩, ⟨.float, qx⟩, ⟨.float, qy⟩, ⟨.float, qz⟩,
      ⟨.float, vx⟩, ⟨.float, vy⟩, ⟨.float, vz⟩,
      ⟨.float, wx⟩, ⟨.float, wy⟩, ⟨.float, wz⟩,
      ⟨.float, imuAccX⟩, ⟨.float, imuAccY⟩, ⟨.float, imuAccZ⟩,
      ⟨.float, imuGyroX⟩, ⟨.float, imuGyroY⟩, ⟨.float, imuGyroZ⟩,
      ⟨.float, batteryLevel⟩, ⟨.uchar, mode⟩, ⟨.double, timestamp⟩] =>
    some ⟨x, y, z, qw, qx, qy, qz, vx, vy, vz, wx, wy, wz, imuAccX, imuAccY, imuAccZ,
      imuGyroX, imuGyroY, imuGyroZ, batteryLevel, mode, timestamp⟩
  | _ => none

lemma values_code (s : RobotState) : s.values.map Value.code = stateCodes := rfl

lemma ofValues?_values (s : RobotState) : ofValues? s.values = some s := rfl

lemma values_unpackFields (data : List UInt8) : ∃ s, values s = unpackFields stateCodes data :=
  ⟨⟨_, _, _, _, _, _, _, _, _, _, _, _, _, _, _, _, _, _, _, _, _, _⟩, rfl⟩

end RobotState

end Taggy
