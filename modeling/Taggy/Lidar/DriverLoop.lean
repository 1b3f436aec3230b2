import Taggy.Lidar.FrameSplit
import Taggy.Lidar.PacketLoss

/-! The driver's loop: the packets of an XT lidar, decoded and gathered into frames. -/

namespace Taggy

def kBufSize : ℕ := 1500

structure UdpPacket where
  buffer : List UInt8
  packetLen : ℕ
  ip : ℕ
  port : ℕ
  isTimeout : Bool := false
  deriving DecidableEq

namespace UdpPacket

variable (p : UdpPacket)

def byte (i : ℕ) : ℕ := (p.buffer.getD i 0).toNat

def word (i : ℕ) : ℕ := p.byte i + 256 * p.byte (i + 1)

def dword (i : ℕ) : ℕ := p.word i + 65536 * p.word (i + 2)

def isFault : Bool :=
  p.packetLen = 99 ∨ (p.byte 0 = 0xCD ∧ p.byte 1 = 0xDC) ∨ (p.byte 21 = 0xCD ∧ p.byte 22 = 0xDC)

def isXt : Bool := p.byte 0 = 0xEE ∧ p.byte 1 = 0xFF ∧ p.byte 2 = 6 ∧ p.byte 3 = 1

def laserNum : ℕ := p.byte 6

def blockNum : ℕ := p.byte 7

def distUnit : ℕ := p.byte 9

def azimuth : ℤ := p.word 12

-- The tail follows the blocks: an azimuth and four bytes for each laser. Nine bytes are reserved.
def seqNum : ℕ := p.dword (12 + (2 + 4 * p.laserNum) * p.blockNum + 24)

end UdpPacket

structure LidarDecodedFrame where
  maxPacketPerFrame : ℕ
  maxPointPerPacket : ℕ
  frameInit : Bool := false
  blockNum : ℕ := 0
  laserNum : ℕ := 0
  perPointsNum : ℕ := 0
  distanceUnit : ℕ := 0
  packetNum : ℕ := 0
  frameIndex : ℕ := 0
  scanComplete : Bool := false
  pointCloudSize : ℕ := 0
  pointCloudRawData : ℕ → List UInt8 := fun _ => []

def LidarDecodedFrame.update (frame : LidarDecodedFrame) : LidarDecodedFrame :=
  { frame with packetNum := 0, scanComplete := false, frameIndex := frame.frameIndex + 1 }

structure Udp6_1Parser where
  splitter : FrameSplitter
  lossMessage : PacketSeqnumLossMessage := {}
  lossEnabled : Bool := false
  lastMaxPacketNum : ℕ := 0

-- The readings of the clock are those of the loss report.
structure Arrival where
  packet : UdpPacket
  now : ℕ
  later : ℕ
  allInitFinish : Bool := true

namespace Udp6_1Parser

def initFrame (p : UdpPacket) (frame : LidarDecodedFrame) : LidarDecodedFrame × Bool :=
  if frame.frameInit then (frame, true)
  else
    let frame := { frame with
      blockNum := p.blockNum
      laserNum := p.laserNum
      perPointsNum := p.blockNum * p.laserNum
      distanceUnit := p.distUnit }
    if frame.perPointsNum > frame.maxPointPerPacket then (frame, false)
    else if frame.laserNum > 256 then (frame, false)
    else ({ frame with frameInit := true }, true)

def store (p : UdpPacket) (parser : Udp6_1Parser) (frame : LidarDecodedFrame) :
    Udp6_1Parser × LidarDecodedFrame × Bool :=
  let (parser, frame) :=
    if parser.lastMaxPacketNum ≠ frame.maxPacketPerFrame then
      ({ parser with lastMaxPacketNum := frame.maxPacketPerFrame },
        { frame with
          pointCloudSize := p.packetLen
          pointCloudRawData := fun _ => List.replicate p.packetLen 0 })
    else (parser, frame)
  if frame.pointCloudSize ≠ p.packetLen then (parser, frame, false)
  else
    (parser, { frame with
      pointCloudRawData := Function.update frame.pointCloudRawData frame.packetNum
        (p.buffer.take p.packetLen)
      packetNum := frame.packetNum + 1 }, true)

-- The flag says that zero is returned.
def decodePacket (i : Arrival) (parser : Udp6_1Parser) (frame : LidarDecodedFrame) :
    Udp6_1Parser × LidarDecodedFrame × Bool :=
  let p := i.packet
  if p.isXt = false then (parser, frame, false)
  else
    let frame := { frame with scanComplete := false }
    let (frame, ok) := initFrame p frame
    if ok = false then (parser, frame, false)
    else if p.blockNum ≠ frame.blockNum ∨ p.laserNum ≠ frame.laserNum ∨
        p.distUnit ≠ frame.distanceUnit then (parser, frame, false)
    else
      let (splitter, split) := parser.splitter.observe p.azimuth
      let parser := { parser with splitter := splitter }
      if split then (parser, { frame with scanComplete := true }, true)
      else
        let (message, _) :=
          parser.lossMessage.calPktLoss parser.lossEnabled i.now i.later p.seqNum
        store p { parser with lossMessage := message } frame

end Udp6_1Parser

structure HesaiLidarSdk where
  deviceIpAddress : ℕ
  deviceUdpPort : ℕ
  parser : Udp6_1Parser
  frame : LidarDecodedFrame
  packetIndex : ℕ := 0
  udpPacketFrame : List UdpPacket := []

inductive RunOutput where
  | computeXyzi (index : ℕ)
  | frame (packets : List UdpPacket) (rawData : List (List UInt8)) (sent : Bool)
  | failedToStart (packets : List UdpPacket)
  deriving DecidableEq

namespace HesaiLidarSdk

-- What `UdpParser` does around the parser of the lidar.
def decodePacket (i : Arrival) (s : HesaiLidarSdk) : HesaiLidarSdk × Bool :=
  if i.packet.packetLen < 6 then
    ({ s with frame := { s.frame with scanComplete := false } }, false)
  else if s.frame.packetNum ≥ s.frame.maxPacketPerFrame then (s, false)
  else
    let (parser, frame, ok) := s.parser.decodePacket i s.frame
    ({ s with parser := parser, frame := frame }, ok)

def foreign (p : UdpPacket) (s : HesaiLidarSdk) : Bool :=
  s.deviceUdpPort ≠ 0 ∧ (p.isTimeout = false ∨ s.packetIndex = 0) ∧
    (s.deviceIpAddress ≠ p.ip ∨ s.deviceUdpPort ≠ p.port)

def rawData (s : HesaiLidarSdk) : List (List UInt8) :=
  (List.range s.frame.packetNum).map s.frame.pointCloudRawData

-- How many points a row of raw data has is left to the threads that compute them.
variable (validPoints : List UInt8 → ℕ)

def pointsNum (s : HesaiLidarSdk) : ℕ := (s.rawData.map validPoints).sum

def closeFrame (i : Arrival) (s : HesaiLidarSdk) : HesaiLidarSdk × List RunOutput :=
  let sent := decide (s.pointsNum validPoints > 1000)
  let closed := RunOutput.frame s.udpPacketFrame s.rawData sent
  let s := { s with frame := s.frame.update, packetIndex := 0, udpPacketFrame := [] }
  if i.packet.isTimeout = false then
    let s := (s.decodePacket i).1
    ({ s with
        udpPacketFrame := s.udpPacketFrame ++ [i.packet]
        packetIndex := s.packetIndex + 1 }, [closed, .computeXyzi s.packetIndex])
  else (s, [closed])

def storeDecoded (i : Arrival) (s : HesaiLidarSdk) : HesaiLidarSdk × List RunOutput :=
  let (s, computed) :=
    if s.frame.packetNum ≠ s.packetIndex then
      ({ s with
          udpPacketFrame := s.udpPacketFrame ++ [i.packet]
          packetIndex := s.packetIndex + 1 }, [RunOutput.computeXyzi s.packetIndex])
    else (s, [])
  if s.packetIndex ≥ s.frame.maxPacketPerFrame then
    ({ s with frame := s.frame.update, packetIndex := 0, udpPacketFrame := [] },
      computed ++ [.failedToStart s.udpPacketFrame])
  else (s, computed)

def run (s : HesaiLidarSdk) (i : Arrival) : HesaiLidarSdk × List RunOutput :=
  if i.packet.isFault then (s, [])
  else if i.allInitFinish = false then (s, [])
  else if s.foreign i.packet then (s, [])
  else
    let (s, ok) := s.decodePacket i
    if ok = false then (s, [])
    else if s.frame.scanComplete then s.closeFrame validPoints i
    else s.storeDecoded i

end HesaiLidarSdk

end Taggy
