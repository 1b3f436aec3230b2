import Mathlib.Data.List.GetD
import Taggy.Pcap.Capture

/-! A capture is played back record by record, and over and over if it is played in a loop. -/

namespace Taggy

section Prefix

variable {file bytes rest : List UInt8}

lemma PlainFile.take_prefix {s : PlainFile file} (h : file.drop s.fpos = bytes ++ rest) :
    (s.take bytes.length).2 = some bytes ∧ file.drop (s.take bytes.length).1.fpos = rest := by
  have hlength := congrArg List.length h
  rw [List.length_drop, List.length_append] at hlength
  have hle : s.fpos + bytes.length ≤ file.length := by
    have hpos := s.fpos_le
    omega
  rw [PlainFile.take_of_le hle, h, List.take_left, ← List.drop_drop, h, List.drop_left]
  exact ⟨rfl, rfl⟩

namespace MappedFile

lemma read_prefix {s : MappedFile file} (h : file.drop s.fpos = bytes ++ rest)
    (hsize : 0 < bytes.length ∧ bytes.length ≤ 24) :
    ∃ q, s.read bytes.length = some (q, some bytes) ∧ file.drop q.fpos = rest := by
  obtain ⟨q, hread, hview⟩ := s.read_eq hsize
  obtain ⟨htaken, hrest⟩ := PlainFile.take_prefix (s := s.view) h
  rw [htaken] at hread
  rw [← hview] at hrest
  exact ⟨q, hread, hrest⟩

lemma readInto_prefix {s : MappedFile file} (h : file.drop s.fpos = bytes ++ rest) :
    ∃ q, s.readInto bytes.length = some (q, some bytes) ∧ file.drop q.fpos = rest := by
  obtain ⟨q, hread, hview⟩ := s.readInto_eq bytes.length
  obtain ⟨htaken, hrest⟩ := PlainFile.take_prefix (s := s.view) h
  rw [htaken] at hread
  rw [← hview] at hrest
  exact ⟨q, hread, hrest⟩

lemma move_prefix {s : MappedFile file} (h : file.drop s.fpos = bytes ++ rest) :
    ∃ q, s.move bytes.length = (q, true) ∧ file.drop q.fpos = rest := by
  have hmove := s.move_view bytes.length
  obtain ⟨htaken, hrest⟩ := PlainFile.take_prefix (s := s.view) h
  refine ⟨(s.move bytes.length).1, Prod.ext rfl ?_, ?_⟩
  · have hmoved := congrArg Prod.snd hmove
    simp only [Prod.map_snd, id_eq, htaken, Option.isSome_some] at hmoved
    exact hmoved
  · rw [← hrest]
    exact congrArg (fun r => file.drop r.1.fpos) hmove

lemma eof_iff (s : MappedFile file) : s.eof = true ↔ file.drop s.fpos = [] := by
  rw [eof, decide_eq_true_iff, List.drop_eq_nil_iff]

end MappedFile

end Prefix

namespace PcapSource

open Struct

variable {file rest : List UInt8} {s s' : PcapSource file} {c : Capture}

/-- Only the place in the file and the buffer of the record differ. -/
structure SamePlayer (s s' : PcapSource file) : Prop where
  swapped : s'.swapped = s.swapped
  isLoop : s'.isLoop = s.isLoop
  beginPos : s'.beginPos = s.beginPos
  isPcapEnd : s'.isPcapEnd = s.isPcapEnd
  dataIndex : s'.dataIndex = s.dataIndex
  dataLength : s'.dataLength = s.dataLength

lemma overwrite_front (array bytes : List UInt8) :
    overwrite array 0 bytes = bytes ++ array.drop bytes.length := by
  rw [overwrite, List.take_zero, List.nil_append, Nat.zero_add]

lemma dispatch_foreign {data more : List UInt8} {inclLen : ℕ} (hlength : 14 < data.length)
    (htype : etherType data 12 ∉ [0x0008, 0xdd86, 0x0081]) :
    dispatch (data ++ more) inclLen = .skip 1 := by
  have hsame : etherType (data ++ more) 12 = etherType data 12 := by
    rw [etherType, etherType, payloadByte_append (by omega), payloadByte_append (by omega)]
  simp only [List.mem_cons, List.not_mem_nil, or_false, not_or] at htype
  rw [dispatch, hsame, if_neg htype.1, if_neg htype.2.1, if_neg htype.2.2]

lemma call_frame {s : PcapSource file} {f : CapturedFrame} {more : List UInt8}
    (hlength : 14 < f.data.length) (hle : f.data.length ≤ kBufSize)
    (hpayload : s.payload = f.data ++ more) :
    s.call (dispatch s.payload f.data.length) = some (s, f.reply) := by
  rw [hpayload]
  cases f with
  | udp f h =>
    have hencode := f.encode_length
    have hwithin : f.headerSize + f.payload.length ≤ kBufSize := hencode ▸ h
    have hdata : (s.payload.drop f.headerSize).take f.payload.length = f.payload := by
      rw [hpayload, CapturedFrame.data, UdpFrame.encode, List.append_assoc,
        List.drop_left' f.front_length, List.take_left]
    rw [CapturedFrame.data, dispatch_udp, call, udpCallback, if_pos hwithin, hdata]
    rfl
  | foreign data h =>
    have htype : etherType data 12 ∉ [0x0008, 0xdd86, 0x0081] :=
      (h.resolve_left hlength.not_ge).resolve_left hle.not_gt
    have hskip := @dispatch_foreign data more data.length hlength htype
    rw [CapturedFrame.data, hskip]
    rfl

lemma nextRecord_record {r : CapturedRecord}
    (h : file.drop s.p.fpos = r.bytes s.swapped ++ rest) :
    ∃ s', s.nextRecord = some (s', r.frame.reply) ∧ file.drop s'.p.fpos = rest ∧
      SamePlayer s s' := by
  have hheader := r.header_length s.swapped
  rw [CapturedRecord.bytes, List.append_assoc] at h
  obtain ⟨p, hread, hrest⟩ := MappedFile.read_prefix h (by rw [hheader]; decide)
  rw [hheader] at hread
  rw [nextRecord, hread, Option.bind_eq_bind, Option.bind_some]
  dsimp only
  rw [r.inclLen_header s.swapped]
  split
  · rename_i hlength
    obtain ⟨q, hinto, hrest'⟩ := MappedFile.readInto_prefix hrest
    rw [hinto, Option.bind_some]
    dsimp only
    rw [dif_pos hlength.1]
    exact ⟨_, call_frame hlength.2 hlength.1 (overwrite_front _ _), hrest',
      ⟨rfl, rfl, rfl, rfl, rfl, rfl⟩⟩
  · rename_i hlength
    obtain ⟨q, hmove, hrest'⟩ := MappedFile.move_prefix hrest
    rw [hmove]
    refine ⟨{ s with p := q }, ?_, hrest', ⟨rfl, rfl, rfl, rfl, rfl, rfl⟩⟩
    cases hframe : r.frame with
    | udp f hf =>
      have hdata : r.frame.data.length = f.headerSize + f.payload.length := by
        rw [hframe, CapturedFrame.data, f.encode_length]
      have hlow := f.le_headerSize
      have hhigh : r.frame.data.length ≤ kBufSize := by
        rw [hframe]
        exact hf
      exact (hlength ⟨hhigh, by omega⟩).elim
    | foreign data hf => rfl

/-- The records that are still to be played when so many have been since the begin. -/
structure Plays (c : Capture) (s : PcapSource file) (played : ℕ) : Prop where
  swapped : s.swapped = c.swapped
  beginPos : file.drop s.beginPos = c.records.flatMap (·.bytes c.swapped)
  beginPos_le : s.beginPos ≤ file.length
  place : file.drop s.p.fpos = (c.records.drop played).flatMap (·.bytes c.swapped)
  played_le : played ≤ c.records.length
  dataIndex : s.dataIndex = 0
  dataLength : s.dataLength = 0

lemma receive_eq_next (hindex : s.dataIndex = 0) (hlength : s.dataLength = 0) :
    s.receive = s.next := by
  have hcompact : s.compact = s := if_neg (by rw [hlength]; decide)
  rw [receive, hindex, hlength, if_neg (by decide), hcompact]

lemma eof_iff_played {played : ℕ} (hs : Plays c s played) :
    s.p.eof = true ↔ played = c.records.length := by
  rw [MappedFile.eof_iff, hs.place]
  refine ⟨fun h => ?_, fun h => by rw [h, List.drop_length]; rfl⟩
  by_contra hne
  have hlt : played < c.records.length := lt_of_le_of_ne hs.played_le hne
  rw [List.drop_eq_getElem_cons hlt, List.flatMap_cons, List.append_eq_nil_iff] at h
  have hheader := c.records[played].header_length c.swapped
  rw [CapturedRecord.bytes, List.append_eq_nil_iff] at h
  rw [h.1.1] at hheader
  cases hheader

lemma nextRecord_plays {played : ℕ} (hs : Plays c s played) (hlt : played < c.records.length) :
    ∃ s', s.nextRecord = some (s', c.records[played].frame.reply) ∧ Plays c s' (played + 1) ∧
      s'.isLoop = s.isLoop ∧ s'.isPcapEnd = s.isPcapEnd := by
  have hplace := hs.place
  rw [List.drop_eq_getElem_cons hlt, List.flatMap_cons, ← hs.swapped] at hplace
  obtain ⟨s', hnext, hrest, hsame⟩ := nextRecord_record hplace
  refine ⟨s', hnext, ⟨hsame.swapped.trans hs.swapped, ?_, ?_, ?_, hlt,
    hsame.dataIndex.trans hs.dataIndex, hsame.dataLength.trans hs.dataLength⟩, hsame.isLoop,
    hsame.isPcapEnd⟩
  · rw [hsame.beginPos]
    exact hs.beginPos
  · rw [hsame.beginPos]
    exact hs.beginPos_le
  · rw [hrest, hs.swapped]

lemma seek_plays {played : ℕ} (hs : Plays c s played) :
    Plays c { s with p := s.p.seek s.beginPos } 0 := by
  refine ⟨hs.swapped, hs.beginPos, hs.beginPos_le, ?_, Nat.zero_le _, hs.dataIndex,
    hs.dataLength⟩
  rw [MappedFile.seek, dif_pos hs.beginPos_le]
  exact hs.beginPos

lemma nextRecord_end {played : ℕ} (hs : Plays c s played) (h : file.drop s.p.fpos = []) :
    ∃ s', s.nextRecord = some (s', ⟨-1, []⟩) ∧ Plays c s' played ∧ s'.isLoop = s.isLoop ∧
      s'.isPcapEnd = s.isPcapEnd := by
  obtain ⟨q, hread, hview⟩ := s.p.read_eq (by decide : 0 < 16 ∧ 16 ≤ 24)
  have hshort : ¬ s.p.view.fpos + 16 ≤ file.length := by
    have hle := List.drop_eq_nil_iff.mp h
    have hfpos : s.p.view.fpos = s.p.fpos := rfl
    omega
  rw [PlainFile.take_of_not_le hshort] at hread hview
  have hfpos : q.fpos = s.p.fpos := congrArg PlainFile.fpos hview
  refine ⟨{ s with p := q }, ?_, ⟨hs.swapped, hs.beginPos, hs.beginPos_le, ?_, hs.played_le,
    hs.dataIndex, hs.dataLength⟩, rfl, rfl⟩
  · rw [nextRecord, hread]
    rfl
  · dsimp only
    rw [hfpos]
    exact hs.place

/-- What a call gives after so many calls: the records in turn, and nothing after the last of them
unless the capture is played in a loop. -/
def replay (replies : List ReceivedPacket) (isLoop : Bool) (calls : ℕ) : ReceivedPacket :=
  replies.getD (if isLoop then calls % replies.length else calls) ⟨-1, []⟩

lemma replay_played {played : ℕ} (hlt : played < c.records.length) (isLoop : Bool) :
    replay c.replies isLoop played = c.records[played].frame.reply := by
  have hlength : c.replies.length = c.records.length := List.length_map _
  have hplace : (if isLoop then played % c.replies.length else played) = played := by
    cases isLoop
    · rfl
    · exact Nat.mod_eq_of_lt (hlength ▸ hlt)
  rw [replay, hplace, List.getD_eq_getElem _ _ (hlength ▸ hlt)]
  exact List.getElem_map _

lemma replay_loop (calls : ℕ) :
    replay c.replies true (c.records.length + calls) = replay c.replies true calls := by
  have hlength : c.replies.length = c.records.length := List.length_map _
  rw [replay, replay, if_pos rfl, if_pos rfl, ← hlength, Nat.add_mod_left]

lemma replay_end {calls : ℕ} {isLoop : Bool} (h : c.records.length ≤ calls)
    (hloop : isLoop = true → c.records = []) : replay c.replies isLoop calls = ⟨-1, []⟩ := by
  have hlength : c.replies.length = c.records.length := List.length_map _
  rw [replay, List.getD_eq_default]
  cases isLoop with
  | false => exact hlength.trans_le h
  | true =>
    rw [hlength, hloop rfl]
    exact Nat.zero_le _

structure PlaysOn (c : Capture) (s : PcapSource file) (played : ℕ) (s' : PcapSource file)
    (played' : ℕ) : Prop where
  plays : Plays c s' played'
  isLoop : s'.isLoop = s.isLoop
  isPcapEnd : ∀ calls, (s'.isPcapEnd = true ∨
      s'.isLoop = false ∧ c.records.length < played' + calls) ↔
    (s.isPcapEnd = true ∨ s.isLoop = false ∧ c.records.length < played + (calls + 1))
  later : ∀ calls, replay c.replies s.isLoop (played' + calls) =
    replay c.replies s.isLoop (played + (calls + 1))

lemma next_record {played : ℕ} (hs : Plays c s played) (heof : ¬ s.p.eof = true) :
    ∃ s' played', s.next = some (s', replay c.replies s.isLoop played) ∧
      PlaysOn c s played s' played' := by
  have hlt : played < c.records.length :=
    lt_of_le_of_ne hs.played_le fun h => heof ((eof_iff_played hs).mpr h)
  obtain ⟨s', hnext, hplays, hloop, hend⟩ := nextRecord_plays hs hlt
  rw [next, if_neg heof, hnext, replay_played hlt]
  refine ⟨s', played + 1, rfl, hplays, hloop, fun calls => ?_, fun calls => ?_⟩
  · rw [hend, hloop, add_assoc, add_comm 1]
  · rw [add_assoc, add_comm 1]

lemma next_loop {played : ℕ} (hs : Plays c s played) (heof : s.p.eof = true)
    (hloop : s.isLoop = true) :
    ∃ s' played', s.next = some (s', replay c.replies s.isLoop played) ∧
      PlaysOn c s played s' played' := by
  have hplayed := (eof_iff_played hs).mp heof
  have hbegin := seek_plays hs
  have hagain (calls : ℕ) :
      replay c.replies s.isLoop (played + calls) = replay c.replies s.isLoop calls := by
    rw [hloop, hplayed, replay_loop]
  rw [next, if_pos heof, if_pos hloop, ← Nat.add_zero played, hagain]
  by_cases hnone : c.records = []
  · have hempty (calls : ℕ) : replay c.replies s.isLoop calls = ⟨-1, []⟩ :=
      replay_end (by simp [hnone]) fun _ => hnone
    have hrest := hbegin.place
    rw [hnone] at hrest
    obtain ⟨s', hnext, hplays, hloop', hend⟩ := nextRecord_end hbegin hrest
    rw [hnext, hempty]
    refine ⟨s', 0, rfl, hplays, hloop', fun calls => ?_, fun calls => by rw [hempty, hempty]⟩
    rw [hend, hloop']
    simp only [hloop, Bool.true_eq_false, false_and]
  · have hlt : 0 < c.records.length := List.length_pos_iff.mpr hnone
    obtain ⟨s', hnext, hplays, hloop', hend⟩ := nextRecord_plays hbegin hlt
    rw [hnext, replay_played hlt]
    refine ⟨s', 1, rfl, hplays, hloop', fun calls => ?_, fun calls => ?_⟩
    · rw [hend, hloop']
      simp only [hloop, Bool.true_eq_false, false_and]
    · rw [Nat.add_zero, hagain, add_comm]

lemma next_stop {played : ℕ} (hs : Plays c s played) (heof : s.p.eof = true)
    (hloop : ¬ s.isLoop = true) :
    ∃ s' played', s.next = some (s', replay c.replies s.isLoop played) ∧
      PlaysOn c s played s' played' := by
  have hplayed := (eof_iff_played hs).mp heof
  have hover (calls : ℕ) : replay c.replies s.isLoop (played + calls) = ⟨-1, []⟩ :=
    replay_end (hplayed ▸ Nat.le_add_right _ _) fun h => (hloop h).elim
  refine ⟨{ s with isPcapEnd := true }, played, ?_, ⟨hs.swapped, hs.beginPos, hs.beginPos_le,
    hs.place, hs.played_le, hs.dataIndex, hs.dataLength⟩, rfl, fun calls => ?_, fun calls => ?_⟩
  · rw [next, if_pos heof, if_neg hloop, ← Nat.add_zero played, hover]
  · have hlt : c.records.length < played + (calls + 1) := by omega
    exact ⟨fun _ => Or.inr ⟨eq_false_of_ne_true hloop, hlt⟩, fun _ => Or.inl rfl⟩
  · rw [hover, hover]

lemma receive_plays {played : ℕ} (hs : Plays c s played) :
    ∃ s' played', s.receive = some (s', replay c.replies s.isLoop played) ∧
      PlaysOn c s played s' played' := by
  rw [receive_eq_next hs.dataIndex hs.dataLength]
  by_cases heof : s.p.eof = true
  · by_cases hloop : s.isLoop = true
    · exact next_loop hs heof hloop
    · exact next_stop hs heof hloop
  · exact next_record hs heof

lemma run_plays {played : ℕ} (hs : Plays c s played) (n : ℕ) :
    ∃ last, Machine.run (fun s () => s.receive) s (List.replicate n ()) =
        some (last, (List.range n).map fun calls => replay c.replies s.isLoop (played + calls)) ∧
      (last.isPcapEnd = true ↔
        s.isPcapEnd = true ∨ s.isLoop = false ∧ c.records.length < played + n) := by
  induction n generalizing s played with
  | zero =>
    have hle := hs.played_le
    exact ⟨s, rfl, by simp [hle]⟩
  | succ n ih =>
    obtain ⟨s', played', hreceive, hplays, hloop, hend, hlater⟩ := receive_plays hs
    obtain ⟨last, hrun, hlast⟩ := ih hplays
    refine ⟨last, ?_, ?_⟩
    · rw [List.replicate_succ, Machine.run, hreceive, Option.bind_eq_bind, Option.bind_some]
      dsimp only
      rw [hrun, hloop, List.range_succ_eq_map, List.map_cons, List.map_map, Nat.add_zero]
      simp only [hlater]
      rfl
    · exact hlast.trans (hend n)

lemma open_plays (c : Capture) (pcapHeader : List UInt8) {payload receiveBuffer : List UInt8}
    (hp : payload.length = kBufSize) (hr : receiveBuffer.length = kDataMaxLength)
    (isLoop : Bool) :
    ∃ s, openPcap c.bytes pcapHeader payload receiveBuffer hp hr isLoop = some s ∧ Plays c s 0 ∧
      s.isLoop = isLoop ∧ s.isPcapEnd = false := by
  have hfront : (word c.swapped c.magicNumber ++ c.header.toList).length = 24 := by
    simp [word_length]
  have hbytes : c.bytes.drop (MappedFile.openFile c.bytes).fpos =
      (word c.swapped c.magicNumber ++ c.header.toList) ++
        c.records.flatMap (·.bytes c.swapped) := rfl
  obtain ⟨p, hread, hrest⟩ := MappedFile.read_prefix hbytes (by rw [hfront]; decide)
  rw [hfront] at hread
  have hmagic : (word c.swapped c.magicNumber ++ c.header.toList).take 4 =
      word c.swapped c.magicNumber := List.take_left' (word_length _ _)
  have hvalid : ofLittleEndian (word c.swapped c.magicNumber) ∈ magicNumbers c.swapped ∧
      decide (ofLittleEndian (word c.swapped c.magicNumber) ∈ magicNumbers true) = c.swapped := by
    rw [Capture.magicNumber]
    cases c.swapped <;> cases c.nanoseconds <;> decide
  obtain ⟨hmember, hswapped⟩ := hvalid
  have hknown : ofLittleEndian (word c.swapped c.magicNumber) ∈ magicNumbers false ∨
      ofLittleEndian (word c.swapped c.magicNumber) ∈ magicNumbers true := by
    cases hs : c.swapped with
    | false => exact Or.inl (hs ▸ hmember)
    | true => exact Or.inr (hs ▸ hmember)
  rw [openPcap, hread, Option.bind_eq_bind, Option.bind_some]
  dsimp only
  rw [Option.getD_some, hmagic, if_pos hknown]
  exact ⟨_, rfl, ⟨hswapped, hrest, p.fpos_le, hrest, Nat.zero_le _, rfl, rfl⟩, rfl, rfl⟩

example : (List.range 3).map (replay twoRecords.replies true) = [⟨3, [6, 7, 8]⟩, ⟨1, []⟩,
    ⟨3, [6, 7, 8]⟩] := by decide

end PcapSource

end Taggy
