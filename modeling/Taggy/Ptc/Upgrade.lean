import Taggy.Ptc.Session

/-! Sending a file to the lidar, block by block, and what the other side can read from it. -/

namespace Taggy

section Splitting

lemma splitFrames_take (n : ℤ) (file : List UInt8) (k : ℕ) :
    ((splitFrames n file).take k).flatten = (file.take n.toNat).take (1024 * k) := by
  induction k generalizing n file with
  | zero => rw [List.take_zero, Nat.mul_zero, List.take_zero]; rfl
  | succ k ih =>
    rw [splitFrames]
    split
    · rename_i hpos
      have hhead : (file.take n.toNat).take 1024 = file.take (min 1024 n).toNat := by
        have hmin : min 1024 n.toNat = (min 1024 n).toNat := by omega
        rw [List.take_take, hmin]
      have htail : (file.take n.toNat).drop 1024 = (file.drop 1024).take (n - 1024).toNat := by
        have hsub : n.toNat - 1024 = (n - 1024).toNat := by omega
        rw [List.drop_take, hsub]
      rw [List.take_succ_cons, List.flatten_cons, ih, Nat.mul_succ, Nat.add_comm, List.take_add,
        hhead, htail]
    · have hzero : n.toNat = 0 := by omega
      rw [hzero, List.take_zero, List.take_nil, List.take_nil]
      rfl

lemma length_of_mem_splitFrames {n : ℤ} {file frame : List UInt8}
    (h : frame ∈ splitFrames n file) : frame.length ≤ 1024 := by
  induction n, file using splitFrames.induct with
  | case1 n file hpos ih =>
    rw [splitFrames, if_pos hpos, List.mem_cons] at h
    rcases h with rfl | h
    · rw [List.length_take]
      omega
    · exact ih h
  | case2 n file hneg =>
    rw [splitFrames, if_neg hneg] at h
    cases h

lemma length_splitFrames (n : ℤ) (file : List UInt8) :
    (splitFrames n file).length = (n.toNat + 1023) / 1024 := by
  induction n, file using splitFrames.induct with
  | case1 n file hpos ih =>
    rw [splitFrames, if_pos hpos, List.length_cons, ih]
    omega
  | case2 n file hneg =>
    rw [splitFrames, if_neg hneg, List.length_nil]
    omega

end Splitting

structure Upgrade where
  client : PtcClient
  ret : ℤ
  answers : List Answer
  upgradeProgress : ℕ

namespace PtcClient

-- The command of an extern upgrade is the first thing in the payload.
def upgradePayload (cmd : UInt8) (cmdId : BitVec 32) (package : List UInt8) : List UInt8 :=
  if cmd ≠ 255 then package else Struct.bigEndian 4 cmdId.toNat ++ package

def upgradeLoop (c : PtcClient) (cmd : UInt8) (cmdId : BitVec 32) (exchanges : ℕ → Exchange)
    (i progress : ℕ) : List (List UInt8) → Upgrade
  | [] => ⟨c, 0, [], progress⟩
  | package :: packages =>
    let (next, answer) :=
      c.queryCommand (upgradePayload cmd cmdId package) [] cmd false (exchanges i)
    if answer.ret ≠ 0 then ⟨next, -1, [answer], i + 1⟩
    else
      let rest := next.upgradeLoop cmd cmdId exchanges (i + 1) (i + 1) packages
      { rest with answers := answer :: rest.answers }

def upgradeCmd (cmdId : BitVec 32) (isExtern : ℤ) : UInt8 :=
  if isExtern = 0 then UInt8.ofBitVec (cmdId.setWidth 8) else 255

def upgradeLidar (c : PtcClient) (dataIn : List UInt8) (cmdId : BitVec 32) (isExtern : ℤ)
    (exchanges : ℕ → Exchange) (progress : ℕ) : Upgrade :=
  c.upgradeLoop (upgradeCmd cmdId isExtern) cmdId exchanges 0 progress
    (splitFileFrames c.version dataIn)

end PtcClient

structure Block where
  currentIndex : ℕ
  totalSize : ℕ
  crc : ℕ
  frame : List UInt8
  deriving DecidableEq

/-- The block in what was sent, read by the layout of the packets alone. -/
def readBlock (v : PtcVersion) (cmd : UInt8) (sent : List UInt8) : Option Block :=
  let header := v.header sent
  let payload := sent.drop v.headerSize
  if header.isValidReturnCode ∧ header.cmd = cmd ∧ header.payloadLen = payload.length then
    let block := if cmd ≠ 255 then payload else payload.drop 4
    some ⟨Struct.ofBigEndian ((block.drop 4).take 4), Struct.ofBigEndian ((block.drop 8).take 4),
      Struct.ofBigEndian ((block.drop 12).take 4), block.drop 16⟩
  else none

section Reading

variable {v : PtcVersion}

lemma header_append (h : PtcHeader v) (rest : List UInt8) : v.header (h.bytes ++ rest) = h := by
  apply PtcHeader.ext
  change (h.bytes ++ rest ++ List.replicate v.headerSize 0).take v.headerSize = h.bytes
  rw [← h.length_bytes, List.append_assoc, List.take_left]

lemma readBlock_encode {cmd : UInt8} {cmdId crc : BitVec 32} {currentIndex totalSize : ℕ}
    {frame : List UInt8} (hi : currentIndex < 2 ^ 32) (ht : totalSize < 2 ^ 32)
    (hl : frame.length ≤ 1024) :
    readBlock v cmd (ptcStreamEncode v (PtcClient.upgradePayload cmd cmdId
      (blockHeader currentIndex totalSize crc ++ frame)) cmd) =
      some ⟨currentIndex, totalSize, crc.toNat, frame⟩ := by
  have hfield : ∀ k, (Struct.bigEndian 4 k).length = 4 := Struct.bigEndian_length 4
  have hblock : (blockHeader currentIndex totalSize crc ++ frame).length = 16 + frame.length := by
    rw [blockHeader]
    simp only [List.length_append, hfield]
  have hpayload : (PtcClient.upgradePayload cmd cmdId
      (blockHeader currentIndex totalSize crc ++ frame)).length ≤ 1044 := by
    rw [PtcClient.upgradePayload]
    split
    · omega
    · rw [List.length_append, hfield]
      omega
  have hread : (if cmd ≠ 255 then PtcClient.upgradePayload cmd cmdId
        (blockHeader currentIndex totalSize crc ++ frame)
      else (PtcClient.upgradePayload cmd cmdId
        (blockHeader currentIndex totalSize crc ++ frame)).drop 4) =
      blockHeader currentIndex totalSize crc ++ frame := by
    rw [PtcClient.upgradePayload]
    split
    · rfl
    · exact List.drop_left' (hfield _)
  generalize PtcClient.upgradePayload cmd cmdId
    (blockHeader currentIndex totalSize crc ++ frame) = payload at *
  have hlen := (PtcHeader.make v cmd 0 payload.length).length_bytes
  rw [readBlock, ptcStreamEncode, header_append, ← hlen, List.drop_left,
    if_pos ⟨PtcHeader.make_isValidReturnCode, PtcHeader.make_cmd,
      PtcHeader.make_payloadLen (by omega)⟩, hread]
  have hcrc : crc.toNat < 256 ^ 4 := crc.isLt
  have h₁ : (blockHeader currentIndex totalSize crc ++ frame).drop 4 =
      Struct.bigEndian 4 currentIndex ++ (Struct.bigEndian 4 totalSize ++
        (Struct.bigEndian 4 crc.toNat ++ frame)) := by
    rw [blockHeader, List.append_assoc, List.append_assoc, List.append_assoc]
    exact List.drop_left' (hfield 0)
  have h₂ : (blockHeader currentIndex totalSize crc ++ frame).drop 8 =
      Struct.bigEndian 4 totalSize ++ (Struct.bigEndian 4 crc.toNat ++ frame) := by
    rw [← List.drop_drop (i := 4) (j := 4), h₁]
    exact List.drop_left' (hfield _)
  have h₃ : (blockHeader currentIndex totalSize crc ++ frame).drop 12 =
      Struct.bigEndian 4 crc.toNat ++ frame := by
    rw [← List.drop_drop (i := 4) (j := 8), h₂]
    exact List.drop_left' (hfield _)
  have h₄ : (blockHeader currentIndex totalSize crc ++ frame).drop 16 = frame := by
    rw [← List.drop_drop (i := 4) (j := 12), h₃]
    exact List.drop_left' (hfield _)
  dsimp only
  rw [h₁, h₂, h₃, h₄, List.take_left' (hfield _), List.take_left' (hfield _),
    List.take_left' (hfield _), Struct.ofBigEndian_bigEndian (by omega),
    Struct.ofBigEndian_bigEndian (by omega), Struct.ofBigEndian_bigEndian hcrc]

end Reading

namespace PtcClient

/-- Some of the packages are sent, in order and one command each, up to the first failure. -/
structure Sends (v : PtcVersion) (cmd : UInt8) (cmdId : BitVec 32) (packages : List (List UInt8))
    (i progress : ℕ) (r : Upgrade) : Prop where
  count : r.answers.length ≤ packages.length
  sent : r.answers.map Answer.sent = (packages.take r.answers.length).map
    (fun package => ptcStreamEncode v (upgradePayload cmd cmdId package) cmd)
  progress : r.upgradeProgress = if packages = [] then progress else i + r.answers.length
  before : ∀ a ∈ r.answers.dropLast, a.ret = 0
  success : r.ret = 0 ↔ r.answers.length = packages.length ∧ ∀ a ∈ r.answers, a.ret = 0
  failure : r.ret = 0 ∨ r.ret = -1

lemma upgradeLoop_sends {c : PtcClient} (cmd : UInt8) (cmdId : BitVec 32)
    (exchanges : ℕ → Exchange) (i progress : ℕ) {packages : List (List UInt8)}
    (hopened : c.opened = true) (hlen : ∀ package ∈ packages, package.length ≤ 1040) :
    Sends c.version cmd cmdId packages i progress
      (c.upgradeLoop cmd cmdId exchanges i progress packages) := by
  induction packages generalizing c i progress with
  | nil => exact ⟨le_rfl, rfl, rfl, by simp [upgradeLoop], by simp [upgradeLoop], Or.inl rfl⟩
  | cons package packages ih =>
    have hpackage := hlen package List.mem_cons_self
    have hpayload : (upgradePayload cmd cmdId package).length + c.version.headerSize < 65536 := by
      have hsize : c.version.headerSize ≤ 12 := by cases c.version <;> decide
      rw [upgradePayload]
      split
      · omega
      · rw [List.length_append, Struct.bigEndian_length]
        omega
    have hsent := queryCommand_sent [] cmd false (exchanges i) hopened hpayload
    have hversion := queryCommand_version c (upgradePayload cmd cmdId package) [] cmd false
      (exchanges i)
    have hstays := @queryCommand_opened c (upgradePayload cmd cmdId package) [] cmd false
      (exchanges i) hopened
    rw [upgradeLoop]
    generalize c.queryCommand (upgradePayload cmd cmdId package) [] cmd false (exchanges i) =
      result at *
    obtain ⟨next, answer⟩ := result
    dsimp only at *
    split
    · rename_i hfails
      refine ⟨by simp, ?_, by simp, by simp, ?_, Or.inr rfl⟩
      · rw [List.length_singleton, List.take_succ_cons, List.take_zero, List.map_singleton,
          List.map_singleton, hsent]
      · simp [hfails]
    · rename_i hok
      rw [not_not] at hok
      obtain ⟨hcount, hsents, hprogress, hbefore, hsuccess, hfailure⟩ :=
        ih (i + 1) (i + 1) (hstays hok) fun p hp => hlen p (List.mem_cons_of_mem _ hp)
      generalize next.upgradeLoop cmd cmdId exchanges (i + 1) (i + 1) packages = rest at *
      refine ⟨?_, ?_, ?_, ?_, ?_, hfailure⟩
      · rw [List.length_cons, List.length_cons]
        omega
      · rw [List.length_cons, List.take_succ_cons, List.map_cons, List.map_cons, hsent, hsents,
          hversion]
      · rw [hprogress, if_neg (List.cons_ne_nil _ _), List.length_cons]
        split
        · rename_i hnil
          rw [hnil, List.length_nil] at hcount
          omega
        · omega
      · intro a ha
        cases hanswers : rest.answers with
        | nil =>
          rw [hanswers] at ha
          cases ha
        | cons b answers =>
          rw [hanswers, List.dropLast_cons_of_ne_nil (List.cons_ne_nil _ _), List.mem_cons] at ha
          rcases ha with rfl | ha
          · exact hok
          · exact hbefore a (by rw [hanswers]; exact ha)
      · rw [hsuccess, List.length_cons, List.length_cons, Nat.add_right_cancel_iff,
          List.forall_mem_cons]
        exact and_congr_right fun _ => (and_iff_right hok).symm

/-- What the other side has received, block by block: the begin of the file, and all of it
if and only if the upgrade reports success. -/
structure Uploads (v : PtcVersion) (cmd : UInt8) (file : List UInt8) (r : Upgrade) : Prop where
  blocks : ∃ blocks : List Block,
    r.answers.map (fun a => readBlock v cmd a.sent) = blocks.map some ∧
    (∀ k b, blocks[k]? = some b → b.currentIndex = k + 1 ∧
      b.totalSize = (file.length + 1023) / 1024 ∧ b.crc = (crcCalc b.frame).toNat) ∧
    blocks.flatMap Block.frame = file.take (1024 * r.answers.length)
  before : ∀ a ∈ r.answers.dropLast, a.ret = 0
  success : r.ret = 0 ↔
    file.length ≤ 1024 * r.answers.length ∧ ∀ a ∈ r.answers, a.ret = 0
  failure : r.ret = 0 ∨ r.ret = -1
  progress : file ≠ [] → r.upgradeProgress = r.answers.length

lemma intLength_eq {file : List UInt8} (h : file.length < 2 ^ 31) :
    intLength file = file.length := by
  rw [intLength, BitVec.toInt_eq_toNat_of_lt, BitVec.toNat_ofNat, Nat.mod_eq_of_lt (by omega)]
  rw [BitVec.toNat_ofNat, Nat.mod_eq_of_lt (by omega)]
  omega

theorem upgradeLidar_uploads {c : PtcClient} (file : List UInt8) (cmdId : BitVec 32) (isExtern : ℤ)
    (exchanges : ℕ → Exchange) (progress : ℕ) (hopened : c.opened = true)
    (hfile : file.length < 2 ^ 31) :
    (c.version = .one → Uploads .one (upgradeCmd cmdId isExtern) file
      (c.upgradeLidar file cmdId isExtern exchanges progress)) ∧
    (c.version = .two → (c.upgradeLidar file cmdId isExtern exchanges progress).answers = [] ∧
      (c.upgradeLidar file cmdId isExtern exchanges progress).ret = 0) := by
  constructor
  · intro hone
    rw [upgradeLidar, hone, splitFileFrames, intLength_eq hfile]
    have hcount := length_splitFrames file.length file
    have hframe : ∀ frame ∈ splitFrames file.length file, frame.length ≤ 1024 :=
      fun frame => length_of_mem_splitFrames
    have hflatten := splitFrames_take file.length file
    generalize splitFrames file.length file = frames at *
    generalize hpackages : (frames.mapIdx fun i frame =>
      blockHeader (i + 1) frames.length (crcCalc frame) ++ frame) = packages
    have hlen : ∀ package ∈ packages, package.length ≤ 1040 := by
      intro package hp
      rw [← hpackages, List.mem_mapIdx] at hp
      obtain ⟨i, hi, rfl⟩ := hp
      have := hframe _ (List.getElem_mem hi)
      simp only [blockHeader, List.length_append, Struct.bigEndian_length]
      omega
    have hsends := upgradeLoop_sends (upgradeCmd cmdId isExtern) cmdId exchanges 0 progress hopened
      hlen
    rw [hone] at hsends
    have htotal : packages.length = frames.length := by rw [← hpackages, List.length_mapIdx]
    generalize c.upgradeLoop (upgradeCmd cmdId isExtern) cmdId exchanges 0 progress packages = r
      at hsends
    obtain ⟨hle, hsent, hprogress, hbefore, hsuccess, hfailure⟩ := hsends
    rw [Int.toNat_natCast] at hcount hflatten
    refine ⟨⟨(frames.take r.answers.length).mapIdx fun i frame =>
      ⟨i + 1, frames.length, (crcCalc frame).toNat, frame⟩, ?_, ?_, ?_⟩, hbefore, ?_, hfailure, ?_⟩
    · have hread : r.answers.map (fun a => readBlock .one (upgradeCmd cmdId isExtern) a.sent) =
          (r.answers.map Answer.sent).map (readBlock .one (upgradeCmd cmdId isExtern)) := by
        rw [List.map_map]
        rfl
      rw [hread, hsent, List.map_map]
      apply List.ext_getElem
      · simp [← hpackages]
      · intro k hk hk'
        have hin : k < frames.length := by
          simp only [List.length_map, List.length_take, htotal] at hk
          omega
        have hl := hframe frames[k] (List.getElem_mem hin)
        simp only [List.getElem_map, List.getElem_take, List.getElem_mapIdx, Function.comp_apply,
          ← hpackages]
        exact readBlock_encode (by omega) (by omega) hl
    · intro k b hb
      rw [List.getElem?_mapIdx, Option.map_eq_some_iff] at hb
      obtain ⟨frame, -, rfl⟩ := hb
      exact ⟨rfl, hcount, rfl⟩
    · have hframes : ((frames.take r.answers.length).mapIdx fun i frame =>
          (⟨i + 1, frames.length, (crcCalc frame).toNat, frame⟩ : Block)).flatMap Block.frame =
          (frames.take r.answers.length).flatten := by
        rw [List.flatMap_def]
        apply congrArg List.flatten
        apply List.ext_getElem
        · simp
        · simp
      rw [hframes, hflatten, List.take_of_length_le le_rfl]
    · rw [hsuccess, htotal, hcount]
      refine and_congr_left fun _ => ?_
      omega
    · intro hne
      have hpos : 0 < file.length := List.length_pos_of_ne_nil hne
      rw [hprogress, if_neg, Nat.zero_add]
      intro hnil
      rw [hnil, List.length_nil] at htotal
      omega
  · intro htwo
    rw [upgradeLidar, htwo, splitFileFrames]
    exact ⟨rfl, rfl⟩

theorem upgradeLidar_uploads_refused :
    (PtcVersion.one = .one → Uploads .one (upgradeCmd 0x83 0) [1, 2, 3]
      (upgradeLidar ⟨.one, true, [], 0⟩ [1, 2, 3] 0x83 0
        (fun _ => ⟨0, .whole, [0x47, 0x74, 0x83, 9, 0, 0, 0, 0], [.bytes 7]⟩) 0)) ∧
    (PtcVersion.one = .two → (upgradeLidar ⟨.one, true, [], 0⟩ [1, 2, 3] 0x83 0
        (fun _ => ⟨0, .whole, [0x47, 0x74, 0x83, 9, 0, 0, 0, 0], [.bytes 7]⟩) 0).answers = [] ∧
      (upgradeLidar ⟨.one, true, [], 0⟩ [1, 2, 3] 0x83 0
        (fun _ => ⟨0, .whole, [0x47, 0x74, 0x83, 9, 0, 0, 0, 0], [.bytes 7]⟩) 0).ret = 0) :=
  upgradeLidar_uploads (c := ⟨.one, true, [], 0⟩) _ _ _ _ _ rfl (by decide)

end PtcClient

end Taggy
