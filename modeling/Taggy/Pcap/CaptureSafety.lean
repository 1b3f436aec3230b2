import Taggy.Pcap.Capture

/-! Whatever is in a capture file, no call reads or writes outside of its buffers. -/

namespace Taggy

section Layers

variable {payload : List UInt8} {inclLen : ℕ}

def Callback.Within (inclLen : ℕ) : Callback → Prop
  | .skip _ => True
  | .udp pos len => pos + len ≤ inclLen
  | .tcp pos len => len % 581 = 0 → pos + len ≤ inclLen

lemma udpLayer_within (headerSize : ℕ) : (udpLayer inclLen headerSize).Within inclLen := by
  rw [udpLayer]
  split
  · trivial
  · rw [Callback.Within]
    omega

-- A length that wraps around is at most forty below the word, and none of these is a number
-- of whole frames.
lemma tcpLayer_within {headerSize tcpPos dataPos : ℕ} (hl : inclLen ≤ kBufSize)
    (hdata : dataPos ≤ headerSize) : (tcpLayer payload inclLen headerSize tcpPos dataPos).Within
      inclLen := by
  have hbyte : payloadByte payload (tcpPos + 12) < 256 := (payload.getD (tcpPos + 12) 0).toNat_lt
  rw [kBufSize] at hl
  rw [tcpLayer]
  split
  · trivial
  · split
    · trivial
    · rw [getLenres] at *
      intro hframes
      omega

lemma transport_within {protocolPos : ℕ} {udp tcp : Callback} (hu : udp.Within inclLen)
    (ht : tcp.Within inclLen) : (transport payload protocolPos udp tcp).Within inclLen := by
  rw [transport]
  split
  · exact hu
  · split
    · exact ht
    · trivial

lemma dispatch_within (hl : inclLen ≤ kBufSize) : (dispatch payload inclLen).Within inclLen := by
  rw [dispatch]
  split
  · exact transport_within (udpLayer_within _) (tcpLayer_within hl le_rfl)
  · split
    · exact transport_within (udpLayer_within _) (tcpLayer_within hl le_rfl)
    · split
      · split
        · exact transport_within (udpLayer_within _) (tcpLayer_within hl (by omega))
        · split
          · exact transport_within (udpLayer_within _) (tcpLayer_within hl (by omega))
          · trivial
      · trivial

end Layers

namespace PcapSource

variable {file : List UInt8}

/-- The buffer has room for so many records behind the data in it. -/
structure HasRoom (s : PcapSource file) (records : ℕ) : Prop where
  index_le : s.dataIndex ≤ s.dataLength
  length_le : s.dataLength + records * kBufSize ≤ kDataMaxLength

def Fits (r : ReceivedPacket) : Prop :=
  r.buffer.length ≤ kBufSize ∧ (r.buffer ≠ [] → r.ret = r.buffer.length)

/-- The call comes to an end, with the buffers in order. -/
def Returns (result : Option (PcapSource file × ReceivedPacket)) : Prop :=
  ∃ s r, result = some (s, r) ∧ s.HasRoom 4 ∧ Fits r

lemma HasRoom.less {s : PcapSource file} (h : s.HasRoom 5) : s.HasRoom 4 :=
  ⟨h.index_le, by have := h.length_le; omega⟩

lemma fits_nil (ret : ℤ) : Fits ⟨ret, []⟩ := ⟨Nat.zero_le _, fun h => (h rfl).elim⟩

lemma fits_frame {s : PcapSource file} {pos : ℕ} (h : pos + 581 ≤ kDataMaxLength) :
    Fits ⟨583, s.frame pos⟩ := by
  have hr := s.receiveBuffer_length
  have hlen : (s.frame pos).length = 583 := by
    rw [frame, List.length_cons, List.length_cons, List.length_take, List.length_drop]
    omega
  refine ⟨?_, fun _ => ?_⟩
  · rw [hlen, kBufSize]
    omega
  · rw [hlen]
    rfl

lemma call_returns {s : PcapSource file} {inclLen : ℕ} {c : Callback} (hl : inclLen ≤ kBufSize)
    (hc : c.Within inclLen) (h : s.HasRoom 5) : Returns (s.call c) := by
  have hindex := h.index_le
  have hlength := h.length_le
  cases c with
  | skip ret => exact ⟨s, _, rfl, h.less, fits_nil ret⟩
  | udp pos len =>
    have hwithin : pos + len ≤ kBufSize := le_trans hc hl
    have hp := s.payload_length
    have hlen : ((s.payload.drop pos).take len).length = len := by
      rw [List.length_take, List.length_drop]
      omega
    refine ⟨s, _, if_pos hwithin, h.less, ?_, fun _ => ?_⟩
    · dsimp only
      omega
    · dsimp only
      omega
  | tcp pos len =>
    rw [call, tcpCallback]
    split
    · exact ⟨s, _, rfl, h.less, fits_nil _⟩
    · rename_i hframes
      rw [not_not] at hframes
      have hwithin := hc hframes
      have hbound : pos + len ≤ kBufSize ∧ s.dataLength + len ≤ kDataMaxLength := by omega
      rw [dif_pos hbound]
      dsimp only
      split
      · refine ⟨_, _, rfl, ⟨?_, ?_⟩, ?_⟩
        · assumption
        · dsimp only
          omega
        · exact fits_frame (by omega)
      · refine ⟨_, _, rfl, ⟨?_, ?_⟩, fits_nil _⟩
        · dsimp only
          omega
        · dsimp only
          omega

lemma nextRecord_returns {s : PcapSource file} (h : s.HasRoom 5) : Returns s.nextRecord := by
  obtain ⟨p, hread, -⟩ := s.p.read_eq (by decide : 0 < 16 ∧ 16 ≤ 24)
  have hroom (q : MappedFile file) : HasRoom { s with p := q } 5 := ⟨h.index_le, h.length_le⟩
  rw [nextRecord, hread, Option.bind_eq_bind, Option.bind_some]
  cases (s.p.view.take 16).2 with
  | none => exact ⟨_, _, rfl, (hroom p).less, fits_nil _⟩
  | some bytes =>
    dsimp only
    generalize (if s.swapped = true then (PcapRecord.ofBytes bytes).swap
      else PcapRecord.ofBytes bytes).inclLen = inclLen
    split
    · rename_i hin
      obtain ⟨q, hinto, -⟩ := p.readInto_eq inclLen
      rw [hinto, Option.bind_some]
      cases hdata : (p.view.take inclLen).2 with
      | none => exact ⟨_, _, rfl, (hroom q).less, fits_nil _⟩
      | some data =>
        have hlen : data.length ≤ kBufSize := by
          rw [PlainFile.take] at hdata
          split at hdata
          · rw [← Option.some.inj hdata, List.length_take]
            omega
          · cases hdata
        dsimp only
        rw [dif_pos hlen]
        exact call_returns hin.1 (dispatch_within hin.1) ⟨h.index_le, h.length_le⟩
    · exact ⟨_, _, rfl, (hroom _).less, fits_nil _⟩

lemma next_returns {s : PcapSource file} (h : s.HasRoom 5) : Returns s.next := by
  rw [next]
  split
  · split
    · exact nextRecord_returns ⟨h.index_le, h.length_le⟩
    · exact ⟨_, _, rfl, ⟨h.less.index_le, h.less.length_le⟩, fits_nil _⟩
  · exact nextRecord_returns h

lemma compact_hasRoom {s : PcapSource file} (h : s.HasRoom 4)
    (hframe : ¬ s.dataIndex + 581 ≤ s.dataLength) : s.compact.HasRoom 5 := by
  rw [compact]
  split
  · constructor
    · exact Nat.zero_le _
    · dsimp only
      rw [kDataMaxLength, kBufSize]
      omega
  · exact ⟨h.index_le, by omega⟩

lemma receive_returns {s : PcapSource file} (h : s.HasRoom 4) : Returns s.receive := by
  rw [receive]
  split
  · refine ⟨_, _, rfl, ⟨?_, h.length_le⟩, fits_frame ?_⟩
    · assumption
    · rw [kDataMaxLength, kBufSize]
      omega
  · rename_i hframe
    exact next_returns (compact_hasRoom h hframe)

lemma openPcap_hasRoom {pcapHeader payload receiveBuffer : List UInt8}
    {hp : payload.length = kBufSize} {hr : receiveBuffer.length = kDataMaxLength} {isLoop : Bool}
    {s : PcapSource file}
    (h : openPcap file pcapHeader payload receiveBuffer hp hr isLoop = some s) :
    s.HasRoom 4 := by
  obtain ⟨p, hread, -⟩ := (MappedFile.openFile file).read_eq (by decide : 0 < 24 ∧ 24 ≤ 24)
  rw [openPcap, hread, Option.bind_eq_bind, Option.bind_some] at h
  dsimp only at h
  split at h
  · cases h
    constructor
    · exact le_rfl
    · dsimp only
      rw [kDataMaxLength]
      omega
  · cases h

/-- Whatever the file holds, every call on an opened capture comes to an end, stays within the
buffers and the mapped part of the file, and gives no more than the caller's buffer holds. -/
theorem receives_safely {file pcapHeader payload receiveBuffer : List UInt8}
    {hp : payload.length = kBufSize} {hr : receiveBuffer.length = kDataMaxLength} {isLoop : Bool}
    {s : PcapSource file} (h : openPcap file pcapHeader payload receiveBuffer hp hr isLoop = some s)
    (n : ℕ) :
    ∃ last packets, Machine.run (fun s () => s.receive) s (List.replicate n ()) =
      some (last, packets) ∧ packets.length = n ∧ ∀ r ∈ packets, Fits r := by
  obtain ⟨last, packets, hrun, -, hlength, hall⟩ :=
    Machine.run_of_invariant (fun _ _ hs => receive_returns hs) (openPcap_hasRoom h)
      (List.replicate n ())
  exact ⟨last, packets, hrun, by rw [hlength, List.length_replicate], hall⟩

theorem receives_safely_twoRecords :
    ∃ s, openPcap twoRecords.bytes [] (List.replicate kBufSize 0) (List.replicate kDataMaxLength 0)
      (List.length_replicate ..) (List.length_replicate ..) true = some s ∧
      ∃ last packets, Machine.run (fun s () => s.receive) s (List.replicate 3 ()) =
        some (last, packets) ∧ packets.length = 3 ∧ ∀ r ∈ packets, Fits r := by
  have hopens : (openPcap twoRecords.bytes [] (List.replicate kBufSize 0)
      (List.replicate kDataMaxLength 0) (List.length_replicate ..) (List.length_replicate ..)
      true).isSome := by
    decide +kernel
  obtain ⟨s, hs⟩ := Option.isSome_iff_exists.1 hopens
  exact ⟨s, hs, receives_safely hs 3⟩

end PcapSource

end Taggy
