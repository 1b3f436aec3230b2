import Taggy.History.Steps
import Taggy.History.Transducer
import Taggy.History.Latch
import Taggy.Data.JsonObject
import Taggy.Data.JsonReader
import Taggy.Data.PyArith
import Taggy.Data.PyFloat
import Taggy.Data.Binary32
import Taggy.Data.StructFormat
import Taggy.Data.ByteOrder
import Taggy.Data.Crc
import Taggy.Data.Rotation
import Taggy.Data.Bus
import Taggy.Control.Messages
import Taggy.Control.SportClient
import Taggy.Control.ControlNode
import Taggy.Control.ControlSteps
import Taggy.Control.ControlHistory
import Taggy.Control.StoppedNode
import Taggy.Control.LastCommand
import Taggy.Control.RequestReuse
import Taggy.Control.MoveText
import Taggy.Teleop.KeyboardTeleop
import Taggy.Teleop.TerminalInput
import Taggy.Teleop.SpeedKeys
import Taggy.Teleop.TeleopSystem
import Taggy.Teleop.StopOrder
import Taggy.Teleop.StopKeys
import Taggy.Teleop.FlagAgreement
import Taggy.Teleop.VelocityLimits
import Taggy.Interface.RobotState
import Taggy.Interface.HighLevelInterface
import Taggy.Interface.Connection
import Taggy.Interface.CommandPacket
import Taggy.Interface.StateDecoding
import Taggy.Interface.VelocityController
import Taggy.Interface.Sanitising
import Taggy.Interface.Watchdog
import Taggy.Interface.StopReplay
import Taggy.Interface.EulerAngles
import Taggy.Interface.VelocityNode
import Taggy.History.Simulation
import Taggy.Lidar.Ring
import Taggy.Lidar.FrameSplit
import Taggy.Lidar.PacketLoss
import Taggy.History.Framing
import Taggy.Lidar.DriverLoop
import Taggy.Lidar.FrameAssembly
import Taggy.Lidar.Revolutions
import Taggy.Lidar.PacketQueue
import Taggy.Lidar.ComputePool
import Taggy.Lidar.PoolPoints
import Taggy.Lidar.PoolWork
import Taggy.Lidar.PoolTurns
import Taggy.Lidar.PoolBarrier
import Taggy.Ptc.PtcPacket
import Taggy.Ptc.PtcClient
import Taggy.Ptc.Queries
import Taggy.Ptc.Session
import Taggy.Ptc.Upgrade
import Taggy.Pcap.MappedFile
import Taggy.Pcap.PcapSource
import Taggy.Pcap.Capture
import Taggy.Pcap.CaptureSafety
import Taggy.Pcap.Replay
