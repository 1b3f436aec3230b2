import Taggy.History.Transducer
import Taggy.Ptc.PtcPacket

/-! The client of the lidar's command protocol, over a connection that delivers its bytes
in pieces of any size. -/

namespace Taggy

inductive Reception where
  | bytes (more : ℕ)
  | timedOut
  | closed
  deriving DecidableEq

namespace Reception

-- A receive that gives something gives at least one byte and at most what was asked for.
def count (more asked : ℕ) : ℕ := min (more + 1) asked

end Reception

inductive Sending where
  | whole
  | short
  | broken
  deriving DecidableEq

structure Connection where
  incoming : List UInt8
  receptions : List Reception
  opened : Bool

/-- What is collected in a buffer, and how many bytes are still to come. -/
structure Collected where
  connection : Connection
  buf : List UInt8
  nLeft : ℕ

def receiveLoop (incoming buf : List UInt8) : ℕ → List Reception → Collected
  | 0, rs => ⟨⟨incoming, rs, true⟩, buf, 0⟩
  | nLeft + 1, [] => ⟨⟨incoming, [], true⟩, buf, nLeft + 1⟩
  | nLeft + 1, .timedOut :: rs => ⟨⟨incoming, rs, true⟩, buf, nLeft + 1⟩
  | nLeft + 1, .closed :: rs => ⟨⟨incoming, rs, false⟩, buf, nLeft + 1⟩
  | nLeft + 1, .bytes more :: rs =>
    let chunk := incoming.take (Reception.count more (nLeft + 1))
    if chunk = [] then ⟨⟨incoming, rs, true⟩, buf, nLeft + 1⟩
    else receiveLoop (incoming.drop chunk.length) (buf ++ chunk) (nLeft + 1 - chunk.length) rs

namespace PtcVersion

variable (v : PtcVersion)

def findIdentifier : List UInt8 → Option ℕ
  | a :: b :: bs =>
    if a = v.identifier0 ∧ b = v.identifier1 then some 0
    else (findIdentifier (b :: bs)).map (· + 1)
  | _ => none

-- Once the identifier is found, the loop goes on as the one that receives the payload.
def headerLoop (incoming : List UInt8) : List Reception → Collected
  | [] => ⟨⟨incoming, [], true⟩, [], v.headerSize⟩
  | .timedOut :: rs => ⟨⟨incoming, rs, true⟩, [], v.headerSize⟩
  | .closed :: rs => ⟨⟨incoming, rs, false⟩, [], v.headerSize⟩
  | .bytes more :: rs =>
    let chunk := incoming.take (Reception.count more v.headerSize)
    let rest := incoming.drop chunk.length
    if chunk = [] then ⟨⟨incoming, rs, true⟩, [], v.headerSize⟩
    else
      match v.findIdentifier chunk with
      | none => headerLoop rest rs
      | some i =>
        receiveLoop rest (chunk.drop i) (v.headerSize - (chunk.length - i)) rs

/-- The buffer for the header, zero where nothing was received. -/
def header (buf : List UInt8) : PtcHeader v where
  bytes := (buf ++ List.replicate v.headerSize 0).take v.headerSize
  length_bytes := by simp

end PtcVersion

/-- What the other side and the network do during one query. -/
structure Exchange where
  flushed : ℕ
  sending : Sending
  arrived : List UInt8
  receptions : List Reception

structure PtcClient where
  version : PtcVersion
  opened : Bool
  incoming : List UInt8
  retCode : ℤ

structure Answer where
  ret : ℤ
  output : List UInt8
  sent : List UInt8
  deriving DecidableEq

namespace PtcClient

def payloadLen {v : PtcVersion} (h : PtcHeader v) : ℤ := (BitVec.ofNat 32 h.payloadLen).toInt

def receivePayload (c : PtcClient) (header : PtcHeader c.version) (connection : Connection)
    (sent out : List UInt8) (isHaveHeader : Bool) : PtcClient × Answer :=
  let nPayLoadLen := payloadLen header
  if 0 < nPayLoadLen then
    let body := receiveLoop connection.incoming [] nPayLoadLen.toNat connection.receptions
    let next := { c with incoming := body.connection.incoming, opened := body.connection.opened }
    if 0 < body.nLeft then ({ next with retCode := -3 }, ⟨-1, out, sent⟩)
    else (next, ⟨0, (if isHaveHeader then header.bytes else []) ++ body.buf, sent⟩)
  else
    ({ c with incoming := connection.incoming, opened := connection.opened },
      ⟨0, if isHaveHeader then header.bytes else out, sent⟩)

def queryCommand (c : PtcClient) (byteStreamIn out : List UInt8) (cmd : UInt8)
    (isHaveHeader : Bool) (e : Exchange) : PtcClient × Answer :=
  if c.opened = false then (c, ⟨-1, out, []⟩)
  else
    let encoded := ptcStreamEncode c.version byteStreamIn cmd
    let incoming := c.incoming.drop e.flushed ++ e.arrived
    let sent := encoded.take (encoded.length % 65536)
    let failed (header : PtcHeader c.version) : Answer :=
      ⟨-1, if isHaveHeader then header.bytes else out, sent⟩
    if e.sending ≠ .whole ∨ encoded.length % 65536 ≠ encoded.length then
      ({ c with incoming := incoming, opened := decide (e.sending ≠ .broken), retCode := -4 },
        failed (c.version.header []))
    else
      let received := c.version.headerLoop incoming e.receptions
      let header := c.version.header received.buf
      let next := { c with
        incoming := received.connection.incoming, opened := received.connection.opened }
      if 0 < received.nLeft then ({ next with retCode := -2 }, failed header)
      else if header.isValidReturnCode = false ∨ header.cmd ≠ cmd then
        ({ next with retCode := header.returnCode.toNat }, failed header)
      else c.receivePayload header received.connection sent out isHaveHeader

end PtcClient

end Taggy
