import Mathlib.Logic.Function.Basic
import Mathlib.Tactic
import Taggy.History.Simulation

/-! The threads that compute the points of the packets of a frame, and the loop that waits for
them. -/

namespace Taggy

def kMinPointsOfOneFrame : ℕ := 1000

/-- What the loop sets when it decodes a packet and the threads read when they compute points. -/
structure ComputeParam where
  rotationFlag : ℤ := 1
  returnMode : ℕ := 0
  deriving DecidableEq

def ComputeParam.forward (p : ComputeParam) : Bool := p.rotationFlag > 0

structure PacketRow where
  rawData : List UInt8
  sensorTimestamp : ℕ

/-- The point of a channel depends on the direction, on the return mode and on the packet. Some
channels have none. -/
structure PoolConfig (P : Type) where
  handleThreadCount : ℕ
  handleBufferSize : ℕ
  maxPacketPerFrame : ℕ
  blockNum : ℕ
  laserNum : ℕ
  point : Bool → ℕ → PacketRow → ℕ → Option P

def PoolConfig.perPointsNum {P : Type} (c : PoolConfig P) : ℕ := c.blockNum * c.laserNum

/-- How far a thread is with a packet. The return mode is read anew for each block. -/
structure Work where
  packetIndex : ℕ
  channel : ℕ := 0
  pointNum : ℕ := 0
  returnMode : Option ℕ := none

structure ComputePool (P : Type) where
  param : ComputeParam := {}
  rawData : ℕ → PacketRow := fun _ => ⟨[], 0⟩
  packetIndex : ℕ := 0
  waiting : Bool := false
  decodedPacketsBuffer : List ℕ := []
  parserThread : Option Work := none
  nUdpCount : ℕ := 0
  handleThreadPacketBuffer : ℕ → List ℕ := fun _ => []
  handleThread : ℕ → Option Work := fun _ => none
  computePacketNum : ℕ := 0
  points : ℕ → P
  validPoints : ℕ → ℕ := fun _ => 0

inductive PoolEvent where
  | decodes (param : ComputeParam)
  | store (row : PacketRow)
  | scanComplete
  | poll
  | failedToStart
  | parserTakes
  | parserHandsOn
  | parserComputes
  | handleTakes (thread : ℕ)
  | handleComputes (thread : ℕ)

inductive PoolOutput (P : Type) where
  | computed (packetIndex : ℕ)
  | closed (points : List P) (sent : Bool)

namespace ComputePool

variable {P : Type}

/-- What a thread does with a packet between two of its accesses to the frame. When it has nothing
more to do with the packet, no work is left. -/
def computeXyzi (c : PoolConfig P) (w : Work) (s : ComputePool P) :
    ComputePool P × Option Work × List (PoolOutput P) :=
  if w.packetIndex ≥ c.maxPacketPerFrame then
    ({ s with computePacketNum := s.computePacketNum + 1 }, none, [])
  else if w.channel < c.perPointsNum then
    match w.returnMode with
    | none => (s, some { w with returnMode := some s.param.returnMode }, [])
    | some mode =>
      let point := c.point s.param.forward mode (s.rawData w.packetIndex) w.channel
      ({ s with
        points := match point with
          | some p => Function.update s.points (w.packetIndex * c.perPointsNum + w.pointNum) p
          | none => s.points },
        some { w with
          channel := w.channel + 1
          pointNum := w.pointNum + point.toList.length
          returnMode := if (w.channel + 1) % c.laserNum = 0 then none else some mode }, [])
  else
    ({ s with
      validPoints := Function.update s.validPoints w.packetIndex w.pointNum
      computePacketNum := s.computePacketNum + 1 }, none, [.computed w.packetIndex])

def memcpy (dst src count : ℕ) (points : ℕ → P) : ℕ → P :=
  fun k => if dst ≤ k ∧ k < dst + count then points (src + (k - dst)) else points k

-- The ranges may overlap: this is what a copy does that reads before it writes.
def gatherPoints (perPointsNum : ℕ) (validPoints : ℕ → ℕ) (points : ℕ → P) : ℕ → (ℕ → P) × ℕ
  | 0 => (points, 0)
  | i + 1 =>
    let (points, pointsNum) := gatherPoints perPointsNum validPoints points i
    (if pointsNum ≠ i * perPointsNum then
        memcpy pointsNum (i * perPointsNum) (validPoints i) points
      else points,
      pointsNum + validPoints i)

def computeXyziComplete (s : ComputePool P) : Bool := s.computePacketNum = s.packetIndex

/-- What the loop does with the frame after it has waited for the points. -/
def closeFrame (c : PoolConfig P) (s : ComputePool P) : ComputePool P × PoolOutput P :=
  let (points, pointsNum) :=
    gatherPoints c.perPointsNum s.validPoints s.points s.packetIndex
  ({ s with points := points, packetIndex := 0, waiting := false, computePacketNum := 0 },
    .closed ((List.range pointsNum).map points) (decide (pointsNum > kMinPointsOfOneFrame)))

def handOn (c : PoolConfig P) (i : ℕ) (s : ComputePool P) : ComputePool P :=
  let thread := s.nUdpCount % c.handleThreadCount
  let buffer := s.handleThreadPacketBuffer thread ++ [i]
  let buffer := if buffer.length > c.handleBufferSize then buffer.tail else buffer
  { s with
    handleThreadPacketBuffer := Function.update s.handleThreadPacketBuffer thread buffer
    nUdpCount := thread + 1 }

-- A step that fails is one that its thread has to wait for, or that the loop does not make.
def step (c : PoolConfig P) (s : ComputePool P) :
    PoolEvent → Option (ComputePool P × List (PoolOutput P))
  | .decodes param => if s.waiting = false then some ({ s with param := param }, []) else none
  | .store row =>
    if s.waiting = false ∧ s.packetIndex < c.maxPacketPerFrame ∧
        s.decodedPacketsBuffer.length < c.handleBufferSize then
      some ({ s with
        rawData := Function.update s.rawData s.packetIndex row
        decodedPacketsBuffer := s.decodedPacketsBuffer ++ [s.packetIndex]
        packetIndex := s.packetIndex + 1 }, [])
    else none
  | .scanComplete =>
    if s.waiting = false ∧ s.packetIndex < c.maxPacketPerFrame then
      some ({ s with waiting := true }, [])
    else none
  | .poll =>
    if s.waiting then
      if s.computeXyziComplete then some ((s.closeFrame c).1, [(s.closeFrame c).2])
      else some (s, [])
    else none
  | .failedToStart =>
    if s.waiting = false ∧ s.packetIndex ≥ c.maxPacketPerFrame then
      some ({ s with
        packetIndex := 0
        decodedPacketsBuffer := []
        handleThreadPacketBuffer :=
          if c.handleThreadCount > 1 then fun _ => [] else s.handleThreadPacketBuffer
        computePacketNum := 0 }, [])
    else none
  | .parserTakes =>
    match s.parserThread, s.decodedPacketsBuffer with
    | none, i :: rest =>
      some ({ s with parserThread := some { packetIndex := i }, decodedPacketsBuffer := rest }, [])
    | _, _ => none
  | .parserHandsOn =>
    if c.handleThreadCount < 2 then none
    else
      match s.parserThread with
      | some w => some ({ s with parserThread := none }.handOn c w.packetIndex, [])
      | none => none
  | .parserComputes =>
    if c.handleThreadCount < 2 then
      match s.parserThread with
      | some w =>
        let (s, left, outputs) := s.computeXyzi c w
        some ({ s with parserThread := left }, outputs)
      | none => none
    else none
  | .handleTakes thread =>
    match s.handleThread thread, s.handleThreadPacketBuffer thread with
    | none, i :: rest =>
      some ({ s with
        handleThread := Function.update s.handleThread thread (some { packetIndex := i })
        handleThreadPacketBuffer := Function.update s.handleThreadPacketBuffer thread rest }, [])
    | _, _ => none
  | .handleComputes thread =>
    match s.handleThread thread with
    | some w =>
      let (s, left, outputs) := s.computeXyzi c w
      some ({ s with handleThread := Function.update s.handleThread thread left }, outputs)
    | none => none

end ComputePool

end Taggy
