import Taggy.Data.ByteOrder
import Taggy.Lidar.DriverLoop
import Taggy.Pcap.MappedFile

/-! Packets that come from a capture file instead of the lidar. -/

namespace Taggy

open Struct

def kDataMaxLength : ℕ := kBufSize * 100

structure PcapRecord where
  tsSec : ℕ
  tsUsec : ℕ
  inclLen : ℕ
  origLen : ℕ

def convertEndian32 (value : ℕ) : ℕ :=
  value % 256 * 2 ^ 24 + value / 2 ^ 8 % 256 * 2 ^ 16 + value / 2 ^ 16 % 256 * 2 ^ 8 +
    value / 2 ^ 24 % 256

namespace PcapRecord

def ofBytes (bytes : List UInt8) : PcapRecord where
  tsSec := ofLittleEndian (bytes.take 4)
  tsUsec := ofLittleEndian ((bytes.drop 4).take 4)
  inclLen := ofLittleEndian ((bytes.drop 8).take 4)
  origLen := ofLittleEndian ((bytes.drop 12).take 4)

def swap (r : PcapRecord) : PcapRecord where
  tsSec := convertEndian32 r.tsSec
  tsUsec := convertEndian32 r.tsUsec
  inclLen := convertEndian32 r.inclLen
  origLen := convertEndian32 r.origLen

end PcapRecord

/-- What is done with the bytes of a record: no callback, or a callback for these bytes. -/
inductive Callback where
  | skip (ret : ℤ)
  | udp (pos len : ℕ)
  | tcp (pos len : ℕ)
  deriving DecidableEq

section Layers

variable (payload : List UInt8) (inclLen : ℕ)

def payloadByte (i : ℕ) : ℕ := (payload.getD i 0).toNat

def etherType (pos : ℕ) : ℕ := payloadByte payload pos + 256 * payloadByte payload (pos + 1)

def udpLayer (headerSize : ℕ) : Callback :=
  if inclLen < headerSize then .skip 1 else .udp headerSize (inclLen - headerSize)

def getLenres (tcpPos : ℕ) : ℕ := payloadByte payload (tcpPos + 12) / 16 * 4

-- The length is an unsigned number of 32 bits, also where it would be negative.
def tcpLayer (headerSize tcpPos dataPos : ℕ) : Callback :=
  if inclLen < headerSize then .skip 1
  else if getLenres payload tcpPos < 20 then .skip 2
  else
    let headerOptionsLen := getLenres payload tcpPos - 20
    .tcp (dataPos + headerOptionsLen)
      (((inclLen : ℤ) - dataPos - headerOptionsLen) % 2 ^ 32).toNat

def transport (protocolPos : ℕ) (udp tcp : Callback) : Callback :=
  if payloadByte payload protocolPos = 17 then udp
  else if payloadByte payload protocolPos = 6 then tcp
  else .skip 2

-- With a tag, the data of TCP are looked for where they are without one, and the protocol of
-- IPv6 where IPv4 has it.
def dispatch : Callback :=
  if etherType payload 12 = 0x0008 then
    transport payload 23 (udpLayer inclLen 42) (tcpLayer payload inclLen 54 34 54)
  else if etherType payload 12 = 0xdd86 then
    transport payload 20 (udpLayer inclLen 62) (tcpLayer payload inclLen 74 54 74)
  else if etherType payload 12 = 0x0081 then
    if etherType payload 16 = 0x0008 then
      transport payload 27 (udpLayer inclLen 46) (tcpLayer payload inclLen 58 38 54)
    else if etherType payload 16 = 0xdd86 then
      transport payload 27 (udpLayer inclLen 66) (tcpLayer payload inclLen 78 58 74)
    else .skip 2
  else .skip 1

end Layers

structure PcapSource (file : List UInt8) where
  p : MappedFile file
  swapped : Bool
  payload : List UInt8
  payload_length : payload.length = kBufSize
  isLoop : Bool
  beginPos : ℕ
  isPcapEnd : Bool
  receiveBuffer : List UInt8
  receiveBuffer_length : receiveBuffer.length = kDataMaxLength
  dataIndex : ℕ
  dataLength : ℕ

/-- The number a call returns, and what it has written to the caller's buffer. -/
structure ReceivedPacket where
  ret : ℤ
  buffer : List UInt8
  deriving DecidableEq

def overwrite (array : List UInt8) (pos : ℕ) (bytes : List UInt8) : List UInt8 :=
  array.take pos ++ bytes ++ array.drop (pos + bytes.length)

lemma overwrite_length {array bytes : List UInt8} {pos : ℕ}
    (h : pos + bytes.length ≤ array.length) :
    (overwrite array pos bytes).length = array.length := by
  rw [overwrite, List.length_append, List.length_append, List.length_take, List.length_drop]
  omega

namespace PcapSource

variable {file : List UInt8}

def magicNumbers (swapped : Bool) : List ℕ :=
  if swapped then [0xd4c3b2a1, 0x4d3cb2a1] else [0xa1b2c3d4, 0xa1b23c4d]

-- The header keeps what was in it when the file is too short to hold one.
def openPcap (file pcapHeader payload receiveBuffer : List UInt8)
    (hp : payload.length = kBufSize) (hr : receiveBuffer.length = kDataMaxLength)
    (isLoop : Bool) : Option (PcapSource file) := do
  let (p, read) ← (MappedFile.openFile file).read 24
  let magicNumber := ofLittleEndian ((read.getD pcapHeader).take 4)
  if magicNumber ∈ magicNumbers false ∨ magicNumber ∈ magicNumbers true then
    some {
      p := p
      swapped := decide (magicNumber ∈ magicNumbers true)
      payload := payload
      payload_length := hp
      isLoop := isLoop
      beginPos := p.fpos
      isPcapEnd := false
      receiveBuffer := receiveBuffer
      receiveBuffer_length := hr
      dataIndex := 0
      dataLength := 0 }
  else none

-- A step that fails is an access outside of an array or of the mapped file.
def udpCallback (s : PcapSource file) (pos len : ℕ) :
    Option (PcapSource file × ReceivedPacket) :=
  if pos + len ≤ kBufSize then some (s, ⟨len, (s.payload.drop pos).take len⟩) else none

def frame (s : PcapSource file) (pos : ℕ) : List UInt8 :=
  0xEE :: 0xFF :: (s.receiveBuffer.drop pos).take 581

def tcpCallback (s : PcapSource file) (pos len : ℕ) :
    Option (PcapSource file × ReceivedPacket) :=
  if len % 581 ≠ 0 then some (s, ⟨-1, []⟩)
  else if h : pos + len ≤ kBufSize ∧ s.dataLength + len ≤ kDataMaxLength then
    let s := { s with
      receiveBuffer := overwrite s.receiveBuffer s.dataLength ((s.payload.drop pos).take len)
      receiveBuffer_length := by
        have hp := s.payload_length
        have hr := s.receiveBuffer_length
        rw [overwrite_length, hr]
        rw [List.length_take, List.length_drop]
        omega
      dataLength := s.dataLength + len }
    if s.dataIndex + 581 ≤ s.dataLength then
      some ({ s with dataIndex := s.dataIndex + 581 }, ⟨583, s.frame s.dataIndex⟩)
    else some (s, ⟨-1, []⟩)
  else none

def call (s : PcapSource file) : Callback → Option (PcapSource file × ReceivedPacket)
  | .skip ret => some (s, ⟨ret, []⟩)
  | .udp pos len => s.udpCallback pos len
  | .tcp pos len => s.tcpCallback pos len

def nextRecord (s : PcapSource file) : Option (PcapSource file × ReceivedPacket) := do
  let (p, read) ← s.p.read 16
  match read with
  | none => return ({ s with p := p }, ⟨-1, []⟩)
  | some bytes =>
    let record := PcapRecord.ofBytes bytes
    let inclLen := (if s.swapped then record.swap else record).inclLen
    if inclLen ≤ kBufSize ∧ 14 < inclLen then
      let (p, data) ← p.readInto inclLen
      match data with
      | none => return ({ s with p := p }, ⟨-1, []⟩)
      | some data =>
        if h : data.length ≤ kBufSize then
          let s := { s with
            p := p
            payload := overwrite s.payload 0 data
            payload_length := by
              have hp := s.payload_length
              rw [overwrite_length, hp]
              omega }
          s.call (dispatch s.payload inclLen)
        else none
    else
      let (p, moved) := p.move inclLen
      return ({ s with p := p }, ⟨if moved then 1 else -1, []⟩)

def next (s : PcapSource file) : Option (PcapSource file × ReceivedPacket) :=
  if s.p.eof then
    if s.isLoop then { s with p := s.p.seek s.beginPos }.nextRecord
    else some ({ s with isPcapEnd := true }, ⟨-1, []⟩)
  else s.nextRecord

-- What is left in the buffer moves to its begin.
def compact (s : PcapSource file) : PcapSource file :=
  if kDataMaxLength < s.dataLength + kBufSize * 5 then
    { s with
      receiveBuffer := overwrite s.receiveBuffer 0
        ((s.receiveBuffer.drop s.dataIndex).take (s.dataLength - s.dataIndex))
      receiveBuffer_length := by
        rw [overwrite_length, s.receiveBuffer_length]
        rw [List.length_take, List.length_drop]
        omega
      dataIndex := 0
      dataLength := s.dataLength - s.dataIndex }
  else s

-- A frame that is still in the buffer is taken from the begin of the buffer.
def receive (s : PcapSource file) : Option (PcapSource file × ReceivedPacket) :=
  if s.dataIndex + 581 ≤ s.dataLength then
    some ({ s with dataIndex := s.dataIndex + 581 }, ⟨583, s.frame 0⟩)
  else s.compact.next

end PcapSource

end Taggy
