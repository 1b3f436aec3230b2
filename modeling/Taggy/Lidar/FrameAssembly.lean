import Taggy.History.Framing
import Taggy.History.Simulation
import Taggy.Lidar.DriverLoop

/-! The frames that the driver's loop gathers from the packets of one lidar. -/

namespace Taggy

/-- What all packets of one lidar have in common. -/
structure XtStream where
  blockNum : ℕ
  laserNum : ℕ
  distUnit : ℕ
  size : ℕ

namespace XtStream

variable (x : XtStream)

structure Sends (p : UdpPacket) : Prop where
  blockNum : p.blockNum = x.blockNum
  laserNum : p.laserNum = x.laserNum
  distUnit : p.distUnit = x.distUnit
  size : p.packetLen = x.size

instance (p : UdpPacket) : Decidable (x.Sends p) :=
  decidable_of_iff (p.blockNum = x.blockNum ∧ p.laserNum = x.laserNum ∧ p.distUnit = x.distUnit ∧
    p.packetLen = x.size)
    ⟨fun ⟨b, l, u, n⟩ => ⟨b, l, u, n⟩, fun ⟨b, l, u, n⟩ => ⟨b, l, u, n⟩⟩

def row (p : UdpPacket) : List UInt8 := p.buffer.take x.size

end XtStream

def RunOutput.packets : RunOutput → List UdpPacket
  | .computeXyzi _ => []
  | .frame packets _ _ => packets
  | .failedToStart packets => packets

namespace HesaiLidarSdk

structure Settings where
  deviceIpAddress : ℕ
  deviceUdpPort : ℕ
  maxPacketPerFrame : ℕ
  maxPointPerPacket : ℕ
  lossEnabled : Bool

def settings (s : HesaiLidarSdk) : Settings where
  deviceIpAddress := s.deviceIpAddress
  deviceUdpPort := s.deviceUdpPort
  maxPacketPerFrame := s.frame.maxPacketPerFrame
  maxPointPerPacket := s.frame.maxPointPerPacket
  lossEnabled := s.parser.lossEnabled

structure Fits (x : XtStream) (c : Settings) : Prop where
  header : 6 ≤ x.size
  points : x.blockNum * x.laserNum ≤ c.maxPointPerPacket
  room : 1 < c.maxPacketPerFrame

abbrev Marked := UdpPacket × Bool

/-- What the loop has taken in: the packets since the last cut, and what the parser remembers. -/
structure Gathering where
  splitter : FrameSplitter
  message : PacketSeqnumLossMessage
  frame : List Marked

/-- The parser and the frame have taken in the packets. -/
structure Decoded (x : XtStream) (splitter : FrameSplitter) (message : PacketSeqnumLossMessage)
    (gathered : List Marked) (s : HesaiLidarSdk) : Prop where
  splitter : s.parser.splitter = splitter
  message : s.parser.lossMessage = message
  packetNum : s.frame.packetNum = gathered.length
  rows : s.rawData = gathered.map fun m => x.row m.1
  dims : s.frame.frameInit = true → s.frame.blockNum = x.blockNum ∧
    s.frame.laserNum = x.laserNum ∧ s.frame.distanceUnit = x.distUnit ∧
    s.frame.perPointsNum = x.blockNum * x.laserNum
  allocated : s.parser.lastMaxPacketNum = s.frame.maxPacketPerFrame →
    s.frame.pointCloudSize = x.size
  filled : gathered ≠ [] → s.parser.lastMaxPacketNum = s.frame.maxPacketPerFrame

/-- The loop has counted and kept the same packets as the parser. -/
structure Sync (x : XtStream) (g : Gathering) (s : HesaiLidarSdk) : Prop where
  decoded : Decoded x g.splitter g.message g.frame s
  packets : s.udpPacketFrame = g.frame.map Prod.fst
  packetIndex : s.packetIndex = g.frame.length
  short : g.frame.length < s.frame.maxPacketPerFrame

/-- The packets that reach the parser of the lidar and are its own. -/
structure Accepts (c : Settings) (i : Arrival) : Prop where
  notFault : i.packet.isFault = false
  initialised : i.allInitFinish = true
  address : c.deviceUdpPort = 0 ∨
    (c.deviceIpAddress = i.packet.ip ∧ c.deviceUdpPort = i.packet.port)
  isXt : i.packet.isXt = true

instance (c : Settings) (i : Arrival) : Decidable (Accepts c i) :=
  decidable_of_iff (i.packet.isFault = false ∧ i.allInitFinish = true ∧ (c.deviceUdpPort = 0 ∨
    (c.deviceIpAddress = i.packet.ip ∧ c.deviceUdpPort = i.packet.port)) ∧ i.packet.isXt = true)
    ⟨fun ⟨f, n, a, t⟩ => ⟨f, n, a, t⟩, fun ⟨f, n, a, t⟩ => ⟨f, n, a, t⟩⟩

variable {x : XtStream}

def ready (x : XtStream) (frame : LidarDecodedFrame) : LidarDecodedFrame :=
  { frame with
    scanComplete := false
    frameInit := true
    blockNum := x.blockNum
    laserNum := x.laserNum
    perPointsNum := x.blockNum * x.laserNum
    distanceUnit := x.distUnit }

lemma initFrame_eq {p : UdpPacket} {frame : LidarDecodedFrame} (hp : x.Sends p)
    (hpoints : x.blockNum * x.laserNum ≤ frame.maxPointPerPacket)
    (hd : frame.frameInit = true → frame.blockNum = x.blockNum ∧ frame.laserNum = x.laserNum ∧
      frame.distanceUnit = x.distUnit ∧ frame.perPointsNum = x.blockNum * x.laserNum) :
    Udp6_1Parser.initFrame p { frame with scanComplete := false } = (ready x frame, true) := by
  have hlaser : ¬ x.laserNum > 256 := by
    rw [← hp.laserNum]
    exact (UInt8.toNat_lt _).le.not_gt
  rw [Udp6_1Parser.initFrame]
  by_cases hi : frame.frameInit = true
  · obtain ⟨hb, hl, hu, hpp⟩ := hd hi
    obtain ⟨_, _, init, block, laser, perPoints, unit, _, _, _, _, _⟩ := frame
    obtain rfl : init = true := hi
    obtain rfl : block = x.blockNum := hb
    obtain rfl : laser = x.laserNum := hl
    obtain rfl : unit = x.distUnit := hu
    obtain rfl : perPoints = x.blockNum * x.laserNum := hpp
    rfl
  · rw [if_neg hi]
    dsimp only
    rw [hp.blockNum, hp.laserNum, hp.distUnit, if_neg hpoints.not_gt, if_neg hlaser]
    rfl

variable {splitter : FrameSplitter} {message : PacketSeqnumLossMessage} {gathered : List Marked}
  {s : HesaiLidarSdk} {i : Arrival}

def counted (enabled : Bool) (i : Arrival) (message : PacketSeqnumLossMessage) :
    PacketSeqnumLossMessage :=
  (message.calPktLoss enabled i.now i.later i.packet.seqNum).1

lemma parser_decodePacket {parser : Udp6_1Parser} {frame : LidarDecodedFrame}
    (hp : x.Sends i.packet) (hx : i.packet.isXt = true)
    (hinit : Udp6_1Parser.initFrame i.packet { frame with scanComplete := false } =
      (ready x frame, true)) :
    parser.decodePacket i frame =
      if (parser.splitter.observe i.packet.azimuth).2 then
        ({ parser with splitter := (parser.splitter.observe i.packet.azimuth).1 },
          { ready x frame with scanComplete := true }, true)
      else
        Udp6_1Parser.store i.packet { parser with
          splitter := (parser.splitter.observe i.packet.azimuth).1
          lossMessage := counted parser.lossEnabled i parser.lossMessage } (ready x frame) := by
  have hsame : ¬ (i.packet.blockNum ≠ (ready x frame).blockNum ∨
      i.packet.laserNum ≠ (ready x frame).laserNum ∨
      i.packet.distUnit ≠ (ready x frame).distanceUnit) := by
    rw [hp.blockNum, hp.laserNum, hp.distUnit]
    simp [ready]
  rw [Udp6_1Parser.decodePacket, if_neg (by simp [hx])]
  dsimp only
  rw [hinit]
  dsimp only
  rw [if_neg (by decide), if_neg hsame]
  rfl

/-- What a packet of the stream does to the driver, as the framing of the marked packets. -/
def events (x : XtStream) (validPoints : List UInt8 → ℕ) : Framing.Event Marked → RunOutput
  | .stored index => .computeXyzi index
  | .closed f => .frame (f.map Prod.fst) (f.map fun m => x.row m.1)
      (decide ((f.map fun m => validPoints (x.row m.1)).sum > 1000))
  | .overflowed f => .failedToStart (f.map Prod.fst)

lemma store_eq (parser : Udp6_1Parser) {frame : LidarDecodedFrame} {p : UdpPacket} {n : ℕ}
    {rows : List (List UInt8)} (hp : x.Sends p) (hn : frame.packetNum = n)
    (hrows : (List.range n).map frame.pointCloudRawData = rows)
    (ha : parser.lastMaxPacketNum = frame.maxPacketPerFrame → frame.pointCloudSize = x.size)
    (hf : n ≠ 0 → parser.lastMaxPacketNum = frame.maxPacketPerFrame) :
    ∃ data, Udp6_1Parser.store p parser frame =
        ({ parser with lastMaxPacketNum := frame.maxPacketPerFrame },
          { frame with
            pointCloudSize := x.size
            pointCloudRawData := data
            packetNum := n + 1 }, true) ∧
      (List.range (n + 1)).map data = rows ++ [x.row p] := by
  have hkept : ∀ data : ℕ → List UInt8, (List.range n).map data = rows →
      (List.range (n + 1)).map (Function.update data n (x.row p)) = rows ++ [x.row p] := by
    intro data hd
    rw [List.range_succ, List.map_append, List.map_singleton, Function.update_self, ← hd]
    congr 1
    apply List.map_congr_left
    intro k hk
    exact Function.update_of_ne (List.mem_range.mp hk).ne _ _
  have hrow : p.buffer.take p.packetLen = x.row p := by rw [XtStream.row, hp.size]
  subst hn
  rw [Udp6_1Parser.store]
  by_cases hl : parser.lastMaxPacketNum = frame.maxPacketPerFrame
  · refine ⟨Function.update frame.pointCloudRawData frame.packetNum (x.row p), ?_, hkept _ hrows⟩
    rw [if_neg (not_not.mpr hl)]
    dsimp only
    rw [if_neg (not_not.mpr ((ha hl).trans hp.size.symm)), ← hl, hrow, ← ha hl]
  · have hzero : frame.packetNum = 0 := by
      by_contra hne
      exact hl (hf hne)
    have hnil : rows = [] := by rw [← hrows, hzero]; rfl
    refine ⟨Function.update (fun _ => List.replicate p.packetLen 0) frame.packetNum (x.row p), ?_,
      hkept _ (by rw [hnil, hzero]; rfl)⟩
    rw [if_pos hl]
    dsimp only
    rw [if_neg (not_not.mpr rfl), hrow, hp.size]

structure SameLoop (s s' : HesaiLidarSdk) : Prop where
  packets : s'.udpPacketFrame = s.udpPacketFrame
  packetIndex : s'.packetIndex = s.packetIndex
  settings : s'.settings = s.settings

lemma decodePacket_eq (hn : s.frame.packetNum < s.frame.maxPacketPerFrame)
    (hfits : Fits x s.settings) (hp : x.Sends i.packet) :
    s.decodePacket i =
      ({ s with
        parser := (s.parser.decodePacket i s.frame).1
        frame := (s.parser.decodePacket i s.frame).2.1 },
        (s.parser.decodePacket i s.frame).2.2) := by
  have hlen : ¬ i.packet.packetLen < 6 := by
    rw [hp.size]
    exact hfits.header.not_gt
  rw [decodePacket, if_neg hlen, if_neg hn.not_ge]

lemma decode_stored (hs : Decoded x splitter message gathered s)
    (hn : gathered.length < s.frame.maxPacketPerFrame)
    (hfits : Fits x s.settings) (hp : x.Sends i.packet)
    (hx : i.packet.isXt = true) (hsplit : (splitter.observe i.packet.azimuth).2 = false)
    (mark : Bool) :
    ∃ s', s.decodePacket i = (s', true) ∧ SameLoop s s' ∧ s'.frame.scanComplete = false ∧
      Decoded x (splitter.observe i.packet.azimuth).1 (counted s.parser.lossEnabled i message)
        (gathered ++ [(i.packet, mark)]) s' := by
  have hrows := hs.rows
  rw [rawData, hs.packetNum] at hrows
  obtain ⟨data, hstore, hdata⟩ := store_eq
    { s.parser with
      splitter := (splitter.observe i.packet.azimuth).1
      lossMessage := counted s.parser.lossEnabled i message }
    hp (show (ready x s.frame).packetNum = gathered.length from hs.packetNum) hrows hs.allocated
    (fun hne => hs.filled fun he => hne (by rw [he]; rfl))
  have hdecode := decodePacket_eq (by rwa [hs.packetNum]) hfits hp
  rw [parser_decodePacket hp hx (initFrame_eq hp hfits.points hs.dims), hs.splitter, hs.message,
    hsplit, if_neg Bool.false_ne_true, hstore] at hdecode
  refine ⟨_, hdecode, ⟨rfl, rfl, rfl⟩, rfl, ⟨rfl, rfl, ?_, ?_, fun _ => ⟨rfl, rfl, rfl, rfl⟩,
    fun _ => rfl, fun _ => rfl⟩⟩
  · rw [List.length_append]
    rfl
  · rw [List.map_append]
    exact hdata

lemma decode_split (hs : Decoded x splitter message gathered s)
    (hn : gathered.length < s.frame.maxPacketPerFrame)
    (hfits : Fits x s.settings) (hp : x.Sends i.packet)
    (hx : i.packet.isXt = true) (hsplit : (splitter.observe i.packet.azimuth).2 = true) :
    ∃ s', s.decodePacket i = (s', true) ∧ SameLoop s s' ∧ s'.frame.scanComplete = true ∧
      Decoded x (splitter.observe i.packet.azimuth).1 message gathered s' := by
  have hdecode := decodePacket_eq (by rwa [hs.packetNum]) hfits hp
  rw [parser_decodePacket hp hx (initFrame_eq hp hfits.points hs.dims), hs.splitter, hsplit,
    if_pos rfl] at hdecode
  exact ⟨_, hdecode, ⟨rfl, rfl, rfl⟩, rfl, ⟨rfl, hs.message, hs.packetNum, hs.rows,
    fun _ => ⟨rfl, rfl, rfl, rfl⟩, hs.allocated, hs.filled⟩⟩

lemma observe_last (azimuth : ℤ) :
    (splitter.observe azimuth).1.observe azimuth = ((splitter.observe azimuth).1, false) := by
  have hlast : (splitter.observe azimuth).1.lastAzimuth = azimuth := by
    rw [FrameSplitter.observe]
    dsimp only
    split
    · rfl
    · rename_i h
      exact (not_not.mp h).symm
  have h := FrameSplitter.observe_same (splitter.observe azimuth).1
  rwa [hlast] at h

lemma decoded_update (hs : Decoded x splitter message gathered s) (packets : List UdpPacket)
    (index : ℕ) :
    Decoded x splitter message []
      { s with frame := s.frame.update, packetIndex := index, udpPacketFrame := packets } :=
  ⟨hs.splitter, hs.message, rfl, rfl, hs.dims, hs.allocated, fun h => (h rfl).elim⟩

variable (validPoints : List UInt8 → ℕ)

lemma run_decodes (ha : Accepts s.settings i) :
    s.run validPoints i =
      if (s.decodePacket i).2 = false then ((s.decodePacket i).1, [])
      else if (s.decodePacket i).1.frame.scanComplete then
        (s.decodePacket i).1.closeFrame validPoints i
      else (s.decodePacket i).1.storeDecoded i := by
  have hforeign : ¬ s.foreign i.packet = true := by
    rw [foreign, decide_eq_true_eq]
    rintro ⟨hport, -, hother⟩
    rcases ha.address with hp | ⟨hip, hp⟩
    · exact hport hp
    · exact hother.elim (fun h => h hip) (fun h => h hp)
  rw [run, ha.notFault, ha.initialised, if_neg Bool.false_ne_true, if_neg (by decide),
    if_neg hforeign]

lemma decodePacket_foreign (hx : i.packet.isXt = false) :
    ∃ s', s.decodePacket i = (s', false) ∧ SameLoop s s' ∧
      (Decoded x splitter message gathered s → Decoded x splitter message gathered s') := by
  have hparser : s.parser.decodePacket i s.frame = (s.parser, s.frame, false) := by
    rw [Udp6_1Parser.decodePacket, if_pos hx]
  rw [decodePacket]
  split
  · exact ⟨_, rfl, ⟨rfl, rfl, rfl⟩, fun hs => ⟨hs.splitter, hs.message, hs.packetNum, hs.rows,
      hs.dims, hs.allocated, hs.filled⟩⟩
  · split
    · exact ⟨s, rfl, ⟨rfl, rfl, rfl⟩, id⟩
    · rw [hparser]
      exact ⟨s, rfl, ⟨rfl, rfl, rfl⟩, id⟩

lemma run_rejected (hx : i.packet.isXt = true → i.packet.isTimeout = false)
    (ha : ¬ Accepts s.settings i) :
    ∃ s', s.run validPoints i = (s', []) ∧ SameLoop s s' ∧
      (Decoded x splitter message gathered s → Decoded x splitter message gathered s') := by
  have hsame : ∃ s', (s, ([] : List RunOutput)) = (s', []) ∧ SameLoop s s' ∧
      (Decoded x splitter message gathered s → Decoded x splitter message gathered s') :=
    ⟨s, rfl, ⟨rfl, rfl, rfl⟩, id⟩
  rw [run]
  split
  · exact hsame
  · rename_i hfault
    split
    · exact hsame
    · rename_i hinit
      split
      · exact hsame
      · rename_i hforeign
        have hnot : i.packet.isXt = false := by
          by_contra hxt
          rw [Bool.not_eq_false] at hxt
          refine ha ⟨by simpa using hfault, by simpa using hinit, ?_, hxt⟩
          rw [foreign, decide_eq_true_eq] at hforeign
          by_cases hport : s.settings.deviceUdpPort = 0
          · exact Or.inl hport
          · refine Or.inr (not_not.mp fun hne => hforeign ⟨hport, Or.inl (hx hxt), ?_⟩)
            exact not_and_or.mp hne
        obtain ⟨s', hd, hl, hk⟩ := decodePacket_foreign (x := x) (s := s) hnot
        rw [hd]
        exact ⟨s', rfl, hl, hk⟩

lemma SameLoop.max {s' : HesaiLidarSdk} (hl : SameLoop s s') :
    s'.frame.maxPacketPerFrame = s.frame.maxPacketPerFrame :=
  congrArg Settings.maxPacketPerFrame hl.settings

lemma storeDecoded_sync {s' : HesaiLidarSdk} (hs : Sync x ⟨splitter, message, gathered⟩ s)
    (hl : SameLoop s s') {splitter' : FrameSplitter} {message' : PacketSeqnumLossMessage}
    (hd : Decoded x splitter' message' (gathered ++ [(i.packet, false)]) s') :
    Sync x ⟨splitter', message',
        (Framing.step Prod.snd s.frame.maxPacketPerFrame gathered (i.packet, false)).1⟩
        (s'.storeDecoded i).1 ∧
      (s'.storeDecoded i).2 =
        (Framing.step Prod.snd s.frame.maxPacketPerFrame gathered (i.packet, false)).2.map
          (events x validPoints) ∧
      (s'.storeDecoded i).1.settings = s.settings := by
  have hnew : s'.frame.packetNum ≠ s'.packetIndex := by
    rw [hd.packetNum, hl.packetIndex, hs.packetIndex, List.length_append]
    exact Nat.succ_ne_self _
  have hpackets : s'.udpPacketFrame ++ [i.packet] =
      (gathered ++ [(i.packet, false)]).map Prod.fst := by
    rw [hl.packets, hs.packets, List.map_append]
    rfl
  rw [storeDecoded, if_pos hnew, Framing.step, if_neg Bool.false_ne_true]
  dsimp only
  rw [hl.packetIndex, hs.packetIndex, hl.max, hpackets]
  by_cases hfull : s.frame.maxPacketPerFrame ≤ gathered.length + 1
  · rw [if_pos hfull, if_pos hfull]
    exact ⟨⟨decoded_update hd _ _, rfl, rfl, hl.max ▸ hs.short.trans_le' (Nat.zero_le _)⟩, rfl,
      hl.settings⟩
  · rw [if_neg hfull, if_neg hfull]
    refine ⟨⟨⟨hd.splitter, hd.message, hd.packetNum, hd.rows, hd.dims, hd.allocated, hd.filled⟩,
      rfl, ?_, ?_⟩, rfl, hl.settings⟩
    · rw [List.length_append]
      rfl
    · rw [List.length_append]
      exact hl.max ▸ not_le.mp hfull

lemma closeFrame_sync {s' : HesaiLidarSdk} (hs : Sync x ⟨splitter, message, gathered⟩ s)
    (hl : SameLoop s s')
    (hfits : Fits x s.settings) (hp : x.Sends i.packet)
    (hx : i.packet.isXt = true) (ht : i.packet.isTimeout = false)
    (hd : Decoded x (splitter.observe i.packet.azimuth).1 message gathered s') :
    Sync x ⟨(splitter.observe i.packet.azimuth).1, counted s.parser.lossEnabled i message,
        (Framing.step Prod.snd s.frame.maxPacketPerFrame gathered (i.packet, true)).1⟩
        (s'.closeFrame validPoints i).1 ∧
      (s'.closeFrame validPoints i).2 =
        (Framing.step Prod.snd s.frame.maxPacketPerFrame gathered (i.packet, true)).2.map
          (events x validPoints) ∧
      (s'.closeFrame validPoints i).1.settings = s.settings := by
  have hpoints : s'.pointsNum validPoints =
      (gathered.map fun m => validPoints (x.row m.1)).sum := by
    rw [pointsNum, hd.rows, List.map_map]
    rfl
  have hfits' : Fits x s'.settings := hl.settings ▸ hfits
  have henabled : s'.parser.lossEnabled = s.parser.lossEnabled :=
    congrArg Settings.lossEnabled hl.settings
  obtain ⟨s'', hdecode, hl', -, hd'⟩ := decode_stored (i := i) (decoded_update hd [] 0)
    (hl.max ▸ hs.short.trans_le' (Nat.zero_le _)) hfits' hp hx (by rw [observe_last]) true
  rw [observe_last] at hd'
  rw [closeFrame, if_pos ht, Framing.step, if_pos rfl]
  dsimp only
  rw [hdecode, hl'.packets, hl'.packetIndex, hpoints, hd.rows, hl.packets, hs.packets]
  have hmax : s''.frame.maxPacketPerFrame = s.frame.maxPacketPerFrame := hl'.max.trans hl.max
  refine ⟨⟨⟨hd'.splitter, henabled ▸ hd'.message, hd'.packetNum, hd'.rows, hd'.dims,
    hd'.allocated, hd'.filled⟩, rfl, rfl, ?_⟩, rfl, hl'.settings.trans hl.settings⟩
  exact hmax.symm ▸ hfits.room

def gather (c : Settings) (g : Gathering) (i : Arrival) :
    Gathering × List (Framing.Event Marked) :=
  if Accepts c i then
    let seen := g.splitter.observe i.packet.azimuth
    let framed := Framing.step Prod.snd c.maxPacketPerFrame g.frame (i.packet, seen.2)
    (⟨seen.1, counted c.lossEnabled i g.message, framed.1⟩, framed.2)
  else (g, [])

lemma run_gathers {g : Gathering} (hs : Sync x g s)
    (hfits : Fits x s.settings) (hp : Accepts s.settings i → x.Sends i.packet)
    (ht : i.packet.isXt = true → i.packet.isTimeout = false) :
    Sync x (gather s.settings g i).1 (s.run validPoints i).1 ∧
      (s.run validPoints i).2 = (gather s.settings g i).2.map (events x validPoints) ∧
      (s.run validPoints i).1.settings = s.settings := by
  rw [gather]
  split
  · rename_i ha
    rw [run_decodes validPoints ha]
    cases hsplit : (g.splitter.observe i.packet.azimuth).2 with
    | false =>
      obtain ⟨s', hdecode, hl, hscan, hd⟩ :=
        decode_stored hs.decoded hs.short hfits (hp ha) ha.isXt hsplit false
      rw [hdecode]
      dsimp only
      rw [if_neg (by decide), hscan, if_neg Bool.false_ne_true, hsplit]
      exact storeDecoded_sync validPoints hs hl hd
    | true =>
      obtain ⟨s', hdecode, hl, hscan, hd⟩ :=
        decode_split hs.decoded hs.short hfits (hp ha) ha.isXt hsplit
      rw [hdecode]
      dsimp only
      rw [if_neg (by decide), hscan, if_pos rfl, hsplit]
      exact closeFrame_sync validPoints hs hl hfits (hp ha) ha.isXt (ht ha.isXt) hd
  · rename_i ha
    obtain ⟨s', hrun, hl, hk⟩ := run_rejected (x := x) validPoints ht ha
    rw [hrun]
    exact ⟨⟨hk hs.decoded, hl.packets.trans hs.packets, hl.packetIndex.trans hs.packetIndex,
      hl.max ▸ hs.short⟩, rfl, hl.settings⟩

def start (c : Settings) (frameStartAzimuth : ℤ) : HesaiLidarSdk where
  deviceIpAddress := c.deviceIpAddress
  deviceUdpPort := c.deviceUdpPort
  parser := {
    splitter := { frameStartAzimuth := frameStartAzimuth }
    lossEnabled := c.lossEnabled }
  frame := {
    maxPacketPerFrame := c.maxPacketPerFrame
    maxPointPerPacket := c.maxPointPerPacket }

lemma start_sync {c : Settings} (hfits : Fits x c) (frameStartAzimuth : ℤ) :
    Sync x ⟨{ frameStartAzimuth := frameStartAzimuth }, {}, []⟩ (start c frameStartAzimuth) := by
  have hroom : 0 < c.maxPacketPerFrame := Nat.zero_lt_of_lt hfits.room
  refine ⟨⟨rfl, rfl, rfl, rfl, fun h => (Bool.false_ne_true h).elim, fun h => ?_,
    fun h => (h rfl).elim⟩, rfl, rfl, hroom⟩
  exact (hroom.ne h).elim

def accepted (c : Settings) (h : List Arrival) : List Arrival := h.filter (Accepts c ·)

/-- What is put into the ring because no data come has no header. -/
def NoTimeouts (h : List Arrival) : Prop :=
  ∀ i ∈ h, i.packet.isXt = true → i.packet.isTimeout = false

/-- The packets, each with whether the parser splits the frame in front of it. -/
def marked (splitter : FrameSplitter) (packets : List UdpPacket) : List Marked :=
  packets.zip (Transducer.outputs FrameSplitter.step splitter (packets.map UdpPacket.azimuth))

lemma marked_length (splitter : FrameSplitter) (packets : List UdpPacket) :
    (Transducer.outputs FrameSplitter.step splitter (packets.map UdpPacket.azimuth)).length =
      packets.length := by
  rw [FrameSplitter.outputs_length, List.length_map]

lemma marked_packets (splitter : FrameSplitter) (packets : List UdpPacket) :
    (marked splitter packets).map Prod.fst = packets :=
  List.map_fst_zip (marked_length splitter packets).ge

lemma marked_concat (splitter : FrameSplitter) (packets : List UdpPacket) (p : UdpPacket) :
    marked splitter (packets ++ [p]) = marked splitter packets ++
      [(p, ((Transducer.after FrameSplitter.step splitter
        (packets.map UdpPacket.azimuth)).observe p.azimuth).2)] := by
  rw [marked, List.map_append, List.map_singleton, Transducer.outputs_concat,
    List.zip_append (marked_length splitter packets).symm]
  rfl

lemma gather_run (c : Settings) (splitter : FrameSplitter) (message : PacketSeqnumLossMessage)
    (h : List Arrival) :
    Transducer.after (gather c) ⟨splitter, message, []⟩ h =
        ⟨Transducer.after FrameSplitter.step splitter
            ((accepted c h).map (·.packet.azimuth)),
          (accepted c h).foldl (fun message i => counted c.lossEnabled i message) message,
          Transducer.after (Framing.step Prod.snd c.maxPacketPerFrame) []
            (marked splitter ((accepted c h).map Arrival.packet))⟩ ∧
      Transducer.outputs (gather c) ⟨splitter, message, []⟩ h =
        Transducer.outputs (Framing.step Prod.snd c.maxPacketPerFrame) []
          (marked splitter ((accepted c h).map Arrival.packet)) := by
  induction h using List.reverseRecOn with
  | nil => exact ⟨rfl, rfl⟩
  | append_singleton h i ih =>
    obtain ⟨hafter, hout⟩ := ih
    rw [Transducer.after_concat, Transducer.outputs_concat, Transducer.reply, hafter, hout, gather]
    by_cases ha : Accepts c i
    · have haccepted : accepted c (h ++ [i]) = accepted c h ++ [i] := by
        simp [accepted, ha]
      rw [if_pos ha, haccepted, List.map_append, List.map_append, List.map_singleton,
        List.map_singleton, marked_concat, List.foldl_append, Transducer.after_concat,
        Transducer.after_concat, Transducer.outputs_concat, List.map_map]
      exact ⟨rfl, rfl⟩
    · have haccepted : accepted c (h ++ [i]) = accepted c h := by
        simp [accepted, ha]
      rw [if_neg ha, haccepted]
      exact ⟨rfl, List.append_nil _⟩

/-- What has come of the packets that were accepted: each is in one frame, in the order of arrival
and with its row of raw data, and the frames end in front of the packets where the parser splits. A
frame that gets full is thrown away. -/
structure Assembles (x : XtStream) (validPoints : List UInt8 → ℕ) (c : Settings)
    (splitter : FrameSplitter) (arrivals : List Arrival) (s : HesaiLidarSdk)
    (outputs : List RunOutput) : Prop where
  cut : outputs = (Transducer.outputs (Framing.step Prod.snd c.maxPacketPerFrame) []
    (marked splitter (arrivals.map Arrival.packet))).map (events x validPoints)
  once : outputs.flatMap RunOutput.packets ++ s.udpPacketFrame = arrivals.map Arrival.packet
  rows : s.rawData = s.udpPacketFrame.map x.row
  frame : ∀ packets rows sent, .frame packets rows sent ∈ outputs →
    packets.length < c.maxPacketPerFrame ∧ rows = packets.map x.row ∧
      sent = decide ((rows.map validPoints).sum > 1000)
  overflow : ∀ packets, .failedToStart packets ∈ outputs → packets.length = c.maxPacketPerFrame
  losses : s.parser.lossMessage =
    arrivals.foldl (fun message i => counted c.lossEnabled i message) {}

lemma events_packets (es : List (Framing.Event Marked)) :
    (es.map (events x validPoints)).flatMap RunOutput.packets =
      (es.flatMap Framing.Event.items).map Prod.fst := by
  rw [List.flatMap_map, List.map_flatMap]
  congr 1
  funext e
  cases e <;> rfl

lemma run_cut {c : Settings} (hfits : Fits x c) (frameStartAzimuth : ℤ) (h : List Arrival)
    (hx : ∀ i ∈ accepted c h, x.Sends i.packet) (ht : NoTimeouts h) :
    Sync x ⟨Transducer.after FrameSplitter.step { frameStartAzimuth := frameStartAzimuth }
          ((accepted c h).map (·.packet.azimuth)),
        (accepted c h).foldl (fun message i => counted c.lossEnabled i message) {},
        Transducer.after (Framing.step Prod.snd c.maxPacketPerFrame) []
          (marked { frameStartAzimuth := frameStartAzimuth } ((accepted c h).map Arrival.packet))⟩
        (Transducer.after (run validPoints) (start c frameStartAzimuth) h) ∧
      Transducer.outputs (run validPoints) (start c frameStartAzimuth) h =
        (Transducer.outputs (Framing.step Prod.snd c.maxPacketPerFrame) []
          (marked { frameStartAzimuth := frameStartAzimuth }
            ((accepted c h).map Arrival.packet))).map (events x validPoints) := by
  have hrefines : Transducer.Refines (run validPoints) (gather c) (events x validPoints)
      (fun s g => Sync x g s ∧ s.settings = c)
      (fun i => (Accepts c i → x.Sends i.packet) ∧
        (i.packet.isXt = true → i.packet.isTimeout = false)) := by
    intro s g i hi ⟨hs, hc⟩
    obtain ⟨hnext, hreply, hsettings⟩ :=
      run_gathers validPoints hs (hc.symm ▸ hfits) (hc.symm ▸ hi.1) hi.2
    rw [hc] at hnext hreply
    exact ⟨⟨hnext, hsettings.trans hc⟩, hreply⟩
  obtain ⟨⟨hsync, -⟩, hout⟩ := hrefines.run ⟨start_sync hfits frameStartAzimuth, rfl⟩ h
    fun i hi => ⟨fun ha => hx i (List.mem_filter.mpr ⟨hi, decide_eq_true ha⟩), ht i hi⟩
  obtain ⟨hafter, hevents⟩ := gather_run c { frameStartAzimuth := frameStartAzimuth } {} h
  rw [hafter] at hsync
  rw [hevents] at hout
  exact ⟨hsync, hout⟩

lemma run_once {c : Settings} (hfits : Fits x c) (frameStartAzimuth : ℤ) (h : List Arrival)
    (hx : ∀ i ∈ accepted c h, x.Sends i.packet) (ht : NoTimeouts h) :
    (Transducer.outputs (run validPoints) (start c frameStartAzimuth) h).flatMap
        RunOutput.packets ++
      (Transducer.after (run validPoints) (start c frameStartAzimuth) h).udpPacketFrame =
        (accepted c h).map Arrival.packet := by
  obtain ⟨hsync, hout⟩ := run_cut validPoints hfits frameStartAzimuth h hx ht
  rw [hout, events_packets, hsync.packets, ← List.map_append, Framing.partition, marked_packets]

lemma run_frame {c : Settings} (hfits : Fits x c) (frameStartAzimuth : ℤ) (h : List Arrival)
    (hx : ∀ i ∈ accepted c h, x.Sends i.packet) (ht : NoTimeouts h) {packets : List UdpPacket}
    {rows : List (List UInt8)} {sent : Bool}
    (hf : .frame packets rows sent ∈
      Transducer.outputs (run validPoints) (start c frameStartAzimuth) h) :
    packets.length < c.maxPacketPerFrame ∧ rows = packets.map x.row ∧
      sent = decide ((rows.map validPoints).sum > 1000) := by
  obtain ⟨-, hout⟩ := run_cut validPoints hfits frameStartAzimuth h hx ht
  have hlegal : Framing.Legal Prod.snd c.maxPacketPerFrame _ _ := Framing.legal hfits.room
    (marked { frameStartAzimuth := frameStartAzimuth } ((accepted c h).map Arrival.packet))
  rw [hout, List.mem_map] at hf
  obtain ⟨e, he, hf⟩ := hf
  cases e with
  | stored index => cases hf
  | overflowed f => cases hf
  | closed f =>
    cases hf
    rw [List.length_map, List.map_map, List.map_map]
    exact ⟨(hlegal.closed f he).1, rfl, rfl⟩

lemma run_overflow {c : Settings} (hfits : Fits x c) (frameStartAzimuth : ℤ) (h : List Arrival)
    (hx : ∀ i ∈ accepted c h, x.Sends i.packet) (ht : NoTimeouts h) {packets : List UdpPacket}
    (hf : .failedToStart packets ∈
      Transducer.outputs (run validPoints) (start c frameStartAzimuth) h) :
    packets.length = c.maxPacketPerFrame := by
  obtain ⟨-, hout⟩ := run_cut validPoints hfits frameStartAzimuth h hx ht
  have hlegal : Framing.Legal Prod.snd c.maxPacketPerFrame _ _ := Framing.legal hfits.room
    (marked { frameStartAzimuth := frameStartAzimuth } ((accepted c h).map Arrival.packet))
  rw [hout, List.mem_map] at hf
  obtain ⟨e, he, hf⟩ := hf
  cases e with
  | stored index => cases hf
  | closed f => cases hf
  | overflowed f =>
    cases hf
    rw [List.length_map]
    exact (hlegal.overflowed f he).1

def turned (azimuth : ℕ) : Arrival where
  packet := {
    buffer := [0xEE, 0xFF, 6, 1, 0, 0, 1, 1, 0, 4, 0, 0, UInt8.ofNat azimuth,
      UInt8.ofNat (azimuth / 256)]
    packetLen := 14
    ip := 0
    port := 0 }
  now := 0
  later := 0

lemma turned_sends (azimuth : ℕ) : XtStream.Sends ⟨1, 1, 4, 14⟩ (turned azimuth).packet :=
  ⟨rfl, rfl, rfl, rfl⟩

lemma turned_onTime (azimuths : List ℕ) : NoTimeouts (azimuths.map turned) :=
  List.forall_mem_map.mpr fun _ _ _ => rfl

lemma turned_accepted (c : Settings) (azimuths : List ℕ) :
    ∀ i ∈ accepted c (azimuths.map turned), XtStream.Sends ⟨1, 1, 4, 14⟩ i.packet := by
  intro i hi
  obtain ⟨azimuth, -, rfl⟩ := List.mem_map.mp (List.mem_of_mem_filter hi)
  exact turned_sends azimuth

end HesaiLidarSdk

end Taggy
