import Taggy.Ptc.Queries

/-! What the queries of a session return. -/

namespace Taggy.PtcClient

section Sound

lemma receivePayload_takes (c : PtcClient) (header : PtcHeader c.version)
    (connection : Connection) (sent out : List UInt8) (isHaveHeader : Bool) :
    ∃ payload,
      connection.incoming = payload ++
        (c.receivePayload header connection sent out isHaveHeader).1.incoming ∧
      ((c.receivePayload header connection sent out isHaveHeader).2.ret = 0 →
        (payload.length : ℤ) = max 0 (payloadLen header) ∧
        (c.receivePayload header connection sent out isHaveHeader).2.output =
          (if payload = [] then if isHaveHeader then header.bytes else out
            else (if isHaveHeader then header.bytes else []) ++ payload) ∧
        (c.receivePayload header connection sent out isHaveHeader).1.retCode = c.retCode) ∧
      ((c.receivePayload header connection sent out isHaveHeader).2.ret ≠ 0 →
        (c.receivePayload header connection sent out isHaveHeader).2.ret = -1 ∧
        (c.receivePayload header connection sent out isHaveHeader).1.retCode = -3) ∧
      (c.receivePayload header connection sent out isHaveHeader).2.sent = sent := by
  rw [receivePayload]
  dsimp only
  split
  · rename_i hpos
    obtain ⟨got, hbuf, hincoming, hleft⟩ := receiveLoop_takes connection.incoming []
      (payloadLen header).toNat connection.receptions
    rw [List.nil_append] at hbuf
    refine ⟨got, ?_⟩
    split
    · exact ⟨hincoming, fun h => by simp at h, fun _ => ⟨rfl, rfl⟩, rfl⟩
    · rename_i hdone
      have hlen : got.length = (payloadLen header).toNat := by omega
      have hne : got ≠ [] := by
        intro hnil
        rw [hnil, List.length_nil] at hlen
        omega
      refine ⟨hincoming, fun _ => ⟨by omega, ?_, rfl⟩, fun h => absurd rfl h, rfl⟩
      rw [if_neg hne, hbuf]
  · exact ⟨[], rfl, fun _ => ⟨by simp; omega, by rw [if_pos rfl], rfl⟩, fun h => absurd rfl h, rfl⟩

/-- A query that succeeds returns what stands behind a header that answers its command, and
no query takes more than it has read. -/
def Sound (c : PtcClient) (payload out : List UInt8) (cmd : UInt8) (isHaveHeader : Bool)
    (e : Exchange) (result : PtcClient × Answer) : Prop :=
  ∃ taken, c.incoming.drop e.flushed ++ e.arrived = taken ++ result.1.incoming ∧
    (result.2.ret = 0 →
      result.2.sent = ptcStreamEncode c.version payload cmd ∧ result.1.retCode = c.retCode ∧
      ∃ (stale : List UInt8) (header : PtcHeader c.version) (body : List UInt8),
        taken = stale ++ header.bytes ++ body ∧ header.isValidReturnCode = true ∧
        header.cmd = cmd ∧ (body.length : ℤ) = max 0 (payloadLen header) ∧
        result.2.output = if body = [] then if isHaveHeader then header.bytes else out
          else (if isHaveHeader then header.bytes else []) ++ body) ∧
    (result.2.ret ≠ 0 → result.2.ret = -1 ∧ result.1.retCode ∈ Set.Icc (-4) 255)

theorem queryCommand_sound {c : PtcClient} (payload out : List UInt8) (cmd : UInt8)
    (isHaveHeader : Bool) (e : Exchange) (hopened : c.opened = true) :
    Sound c payload out cmd isHaveHeader e (c.queryCommand payload out cmd isHaveHeader e) := by
  rw [queryCommand, if_neg (by rw [hopened]; decide)]
  dsimp only
  split
  · exact ⟨[], rfl, fun h => by simp at h, fun _ => ⟨rfl, by simp⟩⟩
  · rename_i hsent
    rw [not_or, not_not, not_not] at hsent
    obtain ⟨stale, hstream, hfound⟩ := PtcVersion.headerLoop_takes
      (c.incoming.drop e.flushed ++ e.arrived) e.receptions (v := c.version)
    generalize c.version.headerLoop (c.incoming.drop e.flushed ++ e.arrived) e.receptions =
      received at *
    split
    · exact ⟨stale ++ received.buf, hstream, fun h => by simp at h, fun _ => ⟨rfl, by simp⟩⟩
    · rename_i hleft
      obtain ⟨hlen, -⟩ := hfound (by omega)
      have hbytes : (c.version.header received.buf).bytes = received.buf :=
        congrArg PtcHeader.bytes (PtcVersion.header_bytes ⟨received.buf, hlen⟩)
      split
      · refine ⟨stale ++ received.buf, hstream, fun h => by simp at h, fun _ => ⟨rfl, ?_⟩⟩
        have hcode := (c.version.header received.buf).returnCode.toNat_lt
        constructor
        · dsimp only
          omega
        · dsimp only
          omega
      · rename_i hvalid
        rw [not_or, Bool.not_eq_false, not_not] at hvalid
        obtain ⟨body, hincoming, hok, hfail, hsame⟩ := receivePayload_takes c
          (c.version.header received.buf) received.connection
          ((ptcStreamEncode c.version payload cmd).take
            ((ptcStreamEncode c.version payload cmd).length % 65536)) out isHaveHeader
        refine ⟨stale ++ received.buf ++ body, ?_, fun h => ⟨?_, ?_, ?_⟩, fun h => ?_⟩
        · rw [List.append_assoc, ← hincoming, hstream]
        · rw [hsame, hsent.2, List.take_length]
        · exact (hok h).2.2
        · exact ⟨stale, c.version.header received.buf, body, by rw [hbytes], hvalid.1, hvalid.2,
            (hok h).1, (hok h).2.1⟩
        · obtain ⟨hret, hcode⟩ := hfail h
          rw [hret, hcode]
          exact ⟨rfl, by simp⟩

theorem queryCommand_sound_in_pieces :
    Sound ⟨.one, true, [0x47], 0⟩ [] [] 5 false
      ⟨0, .whole, [0x12, 0x47, 0x74, 5, 0, 0, 0, 0, 2, 8, 9],
        [.bytes 1, .bytes 2, .bytes 9, .bytes 0, .bytes 0]⟩
      (⟨.one, true, [], 0⟩, ⟨0, [8, 9], [0x47, 0x74, 5, 0, 0, 0, 0, 0]⟩) := by
  have h := queryCommand_sound (c := ⟨.one, true, [0x47], 0⟩) [] [] 5 false
    ⟨0, .whole, [0x12, 0x47, 0x74, 5, 0, 0, 0, 0, 2, 8, 9],
      [.bytes 1, .bytes 2, .bytes 9, .bytes 0, .bytes 0]⟩ rfl
  exact h

end Sound

section Runs

/-- One query of a session, with what comes back for it and what comes after that. -/
structure Turn where
  payload : List UInt8
  cmd : UInt8
  reply : Reply
  later : List UInt8
  exchange : Exchange

namespace Turn

variable (t : Turn)

def accepted : Bool := t.reply.returnCode == 0

-- The payload of a reply that refuses the command is not read.
def leftover : List UInt8 := (if t.accepted then [] else t.reply.payload) ++ t.later

def answer (v : PtcVersion) : Answer where
  ret := if t.accepted then 0 else -1
  output := if t.accepted then t.reply.payload else []
  sent := ptcStreamEncode v t.payload t.cmd

end Turn

def query (c : PtcClient) (t : Turn) : PtcClient × List Answer :=
  let (next, answer) := c.queryCommand t.payload [] t.cmd false t.exchange
  (next, [answer])

def Carried (v : PtcVersion) : List UInt8 → List Turn → Prop
  | _, [] => True
  | left, t :: ts =>
    t.reply.cmd = t.cmd ∧
      Carries v t.payload (left.drop t.exchange.flushed) t.reply t.later t.exchange ∧
      Carried v t.leftover ts

lemma query_carried {c : PtcClient} {t : Turn} (hopened : c.opened = true)
    (hcmd : t.reply.cmd = t.cmd)
    (h : Carries c.version t.payload (c.incoming.drop t.exchange.flushed) t.reply t.later
      t.exchange) :
    c.query t =
      ({ c with
        incoming := t.leftover
        retCode := if t.accepted then c.retCode else t.reply.returnCode.toNat },
      [t.answer c.version]) := by
  have hquery := queryCommand_carried hopened h [] false
  rw [hcmd] at hquery
  rw [query, hquery, Turn.leftover, Turn.answer]
  rcases eq_or_ne t.reply.returnCode 0 with haccepted | hrefused
  · have hflag : t.accepted = true := beq_iff_eq.mpr haccepted
    rw [hflag, if_pos haccepted]
    rcases eq_or_ne t.reply.payload [] with hnil | hne
    · simp [hnil]
    · simp [hne]
  · have hflag : t.accepted = false := beq_eq_false_iff_ne.mpr hrefused
    rw [hflag, if_neg hrefused]
    rfl

/-- A reply is found unless a receive ends between the two bytes of its identifier. -/
theorem answered_iff {c : PtcClient} {payload later : List UInt8} {r : Reply} {e : Exchange}
    (out : List UInt8) (isHaveHeader : Bool) (hopened : c.opened = true)
    (h : Brings c.version payload (c.incoming.drop e.flushed) r later e)
    (haccepted : r.returnCode = 0)
    (hlater : c.version.NoIdentifier ((r.bytes c.version).drop 1 ++ later)) :
    (c.queryCommand payload out r.cmd isHaveHeader e).2.ret = 0 ↔
      c.version.Splits e.receptions ((c.incoming.drop e.flushed).length + 1) = false := by
  constructor
  · intro hret
    by_contra hsplits
    rw [Bool.not_eq_false] at hsplits
    obtain ⟨post, hpost⟩ := PtcHeader.make_bytes c.version r.cmd r.returnCode r.payload.length
    have hbytes : r.bytes c.version =
        c.version.identifier0 :: (r.bytes c.version).drop 1 := by
      rw [Reply.bytes, Reply.header, hpost]
      rfl
    have hmisses := PtcVersion.headerLoop_misses h.silent hlater hsplits
    rw [← List.cons_append, ← hbytes, ← h.arrived] at hmisses
    have hsize : 0 < c.version.headerSize := by cases c.version <;> decide
    rw [queryCommand, if_neg (by rw [hopened]; decide)] at hret
    dsimp only at hret
    split at hret
    · simp at hret
    · rw [if_pos (by rw [hmisses]; exact hsize)] at hret
      simp at hret
  · intro hsplits
    rw [queryCommand_carried hopened ⟨h, hsplits⟩, if_pos haccepted]

theorem answered_iff_first_piece :
    (queryCommand ⟨.one, true, [], 0⟩ [] [] 5 false
        ⟨0, .whole, [0x47, 0x74, 5, 0, 0, 0, 0, 1, 7],
          .bytes 0 :: List.replicate 9 (.bytes 9)⟩).2.ret = 0 ↔
      PtcVersion.one.Splits (.bytes 0 :: List.replicate 9 (.bytes 9)) 1 = false :=
  answered_iff (c := ⟨.one, true, [], 0⟩) (r := ⟨5, 0, [7]⟩) [] false rfl
    ⟨rfl, by decide, (List.append_nil _).symm, by decide, rfl, by simp [Delivers], by decide⟩ rfl
    rfl

end Runs

end Taggy.PtcClient
