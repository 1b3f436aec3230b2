import Taggy.Pcap.PcapSource

/-! Capture files in either byte order, and the frames in them. -/

namespace Taggy

open Struct

section Words

def word (swapped : Bool) (n : ℕ) : List UInt8 :=
  if swapped then bigEndian 4 n else littleEndian 4 n

lemma word_length (swapped : Bool) (n : ℕ) : (word swapped n).length = 4 := by
  rw [word]
  split
  · exact bigEndian_length 4 n
  · exact littleEndian_length 4 n

lemma convertEndian32_ofLittleEndian {bs : List UInt8} (h : bs.length = 4) :
    convertEndian32 (ofLittleEndian bs) = ofBigEndian bs := by
  obtain ⟨a, b, c, d, rfl⟩ : ∃ a b c d, bs = [a, b, c, d] := by
    match bs, h with
    | [a, b, c, d], _ => exact ⟨a, b, c, d, rfl⟩
  have ha := a.toNat_lt
  have hb := b.toNat_lt
  have hc := c.toNat_lt
  have hd := d.toNat_lt
  have hnil : ofLittleEndian [] = 0 := rfl
  have hreverse : [a, b, c, d].reverse = [d, c, b, a] := rfl
  rw [convertEndian32, ofBigEndian, hreverse]
  simp only [ofLittleEndian_cons, hnil]
  generalize hvalue : a.toNat + 256 * (b.toNat + 256 * (c.toNat + 256 * (d.toNat + 256 * 0))) =
    value
  have hone : value % 256 = a.toNat := by omega
  have htwo : value / 2 ^ 8 % 256 = b.toNat := by omega
  have hthree : value / 2 ^ 16 % 256 = c.toNat := by omega
  have hfour : value / 2 ^ 24 % 256 = d.toNat := by omega
  rw [hone, htwo, hthree, hfour]
  omega

lemma ofLittleEndian_word {swapped : Bool} {n : ℕ} (h : n < 2 ^ 32) :
    (if swapped then convertEndian32 (ofLittleEndian (word swapped n))
      else ofLittleEndian (word swapped n)) = n := by
  have hn : n < 256 ^ 4 := by omega
  cases swapped with
  | true =>
    rw [if_pos rfl, convertEndian32_ofLittleEndian (word_length true n)]
    exact ofBigEndian_bigEndian hn
  | false => exact ofLittleEndian_littleEndian hn

end Words

inductive Carrier where
  | ipv4
  | ipv6
  | taggedIpv4

/-- The addresses, the types and the headers of a datagram, as they stand in front of it. -/
structure UdpFrame where
  carrier : Carrier
  addresses : Vector UInt8 12
  tag : Vector UInt8 2
  ipv4 : Vector UInt8 9 × Vector UInt8 10
  ipv6 : Vector UInt8 6 × Vector UInt8 33
  udp : Vector UInt8 8
  payload : List UInt8

namespace UdpFrame

def front (f : UdpFrame) : List UInt8 :=
  f.addresses.toList ++ match f.carrier with
    | .ipv4 => 0x08 :: 0x00 :: (f.ipv4.1.toList ++ 17 :: f.ipv4.2.toList)
    | .ipv6 => 0x86 :: 0xdd :: (f.ipv6.1.toList ++ 17 :: f.ipv6.2.toList)
    | .taggedIpv4 => 0x81 :: 0x00 :: (f.tag.toList ++ 0x08 :: 0x00 ::
      (f.ipv4.1.toList ++ 17 :: f.ipv4.2.toList))

def encode (f : UdpFrame) : List UInt8 := f.front ++ f.udp.toList ++ f.payload

def headerSize (f : UdpFrame) : ℕ :=
  match f.carrier with
  | .ipv4 => 42
  | .ipv6 => 62
  | .taggedIpv4 => 46

lemma front_length (f : UdpFrame) : (f.front ++ f.udp.toList).length = f.headerSize := by
  rw [front, headerSize]
  cases f.carrier <;> simp

lemma encode_length (f : UdpFrame) : f.encode.length = f.headerSize + f.payload.length := by
  rw [encode, List.length_append, front_length]

lemma le_headerSize (f : UdpFrame) : 42 ≤ f.headerSize := by
  rw [headerSize]
  split <;> omega

end UdpFrame

section Dispatch

lemma payloadByte_eq {payload front rest : List UInt8} {b : UInt8} {i : ℕ}
    (h : payload = front ++ b :: rest) (hi : front.length = i) :
    payloadByte payload i = b.toNat := by
  subst h hi
  simp [payloadByte]

lemma etherType_eq {payload front rest : List UInt8} {a b : UInt8} {i : ℕ}
    (h : payload = front ++ a :: b :: rest) (hi : front.length = i) :
    etherType payload i = a.toNat + 256 * b.toNat := by
  have hsplit : payload = (front ++ [a]) ++ b :: rest := by
    rw [h, List.append_assoc, List.singleton_append]
  rw [etherType, payloadByte_eq h hi,
    payloadByte_eq hsplit (by rw [List.length_append, List.length_singleton, hi])]

lemma payloadByte_append {payload rest : List UInt8} {i : ℕ} (h : i < payload.length) :
    payloadByte (payload ++ rest) i = payloadByte payload i := by
  simp [payloadByte, List.getElem?_append_left h]

lemma udpLayer_eq {inclLen headerSize len : ℕ} (h : inclLen = headerSize + len) :
    udpLayer inclLen headerSize = .udp headerSize len := by
  rw [udpLayer, if_neg (by omega), h, Nat.add_sub_cancel_left]

lemma dispatch_udp (f : UdpFrame) (rest : List UInt8) :
    dispatch (f.encode ++ rest) f.encode.length = .udp f.headerSize f.payload.length := by
  have hlength := f.encode_length
  rw [UdpFrame.headerSize] at hlength ⊢
  cases hcarrier : f.carrier with
  | ipv4 =>
    rw [hcarrier] at hlength
    have hbytes : f.encode ++ rest = f.addresses.toList ++ 0x08 :: 0x00 ::
        (f.ipv4.1.toList ++ 17 :: (f.ipv4.2.toList ++ f.udp.toList ++ f.payload ++ rest)) := by
      simp [UdpFrame.encode, UdpFrame.front, hcarrier]
    have hprotocol : f.encode ++ rest = (f.addresses.toList ++ 0x08 :: 0x00 :: f.ipv4.1.toList) ++
        17 :: (f.ipv4.2.toList ++ f.udp.toList ++ f.payload ++ rest) := by
      simp [hbytes]
    have htype : etherType (f.encode ++ rest) 12 = 0x0008 := etherType_eq hbytes (by simp)
    have hudp : payloadByte (f.encode ++ rest) 23 = 17 := payloadByte_eq hprotocol (by simp)
    rw [dispatch, if_pos htype, transport, if_pos hudp]
    exact udpLayer_eq hlength
  | ipv6 =>
    rw [hcarrier] at hlength
    have hbytes : f.encode ++ rest = f.addresses.toList ++ 0x86 :: 0xdd ::
        (f.ipv6.1.toList ++ 17 :: (f.ipv6.2.toList ++ f.udp.toList ++ f.payload ++ rest)) := by
      simp [UdpFrame.encode, UdpFrame.front, hcarrier]
    have hprotocol : f.encode ++ rest = (f.addresses.toList ++ 0x86 :: 0xdd :: f.ipv6.1.toList) ++
        17 :: (f.ipv6.2.toList ++ f.udp.toList ++ f.payload ++ rest) := by
      simp [hbytes]
    have htype : etherType (f.encode ++ rest) 12 = 0xdd86 := etherType_eq hbytes (by simp)
    have hudp : payloadByte (f.encode ++ rest) 20 = 17 := payloadByte_eq hprotocol (by simp)
    rw [dispatch, htype, if_neg (by decide), if_pos rfl, transport,
      if_pos hudp]
    exact udpLayer_eq hlength
  | taggedIpv4 =>
    rw [hcarrier] at hlength
    have hbytes : f.encode ++ rest = f.addresses.toList ++ 0x81 :: 0x00 :: (f.tag.toList ++
        0x08 :: 0x00 :: (f.ipv4.1.toList ++ 17 ::
        (f.ipv4.2.toList ++ f.udp.toList ++ f.payload ++ rest))) := by
      simp [UdpFrame.encode, UdpFrame.front, hcarrier]
    have htagged : f.encode ++ rest = (f.addresses.toList ++ 0x81 :: 0x00 :: f.tag.toList) ++
        0x08 :: 0x00 :: (f.ipv4.1.toList ++ 17 ::
        (f.ipv4.2.toList ++ f.udp.toList ++ f.payload ++ rest)) := by
      simp [hbytes]
    have hprotocol : f.encode ++ rest = (f.addresses.toList ++ 0x81 :: 0x00 :: (f.tag.toList ++
        0x08 :: 0x00 :: f.ipv4.1.toList)) ++
        17 :: (f.ipv4.2.toList ++ f.udp.toList ++ f.payload ++ rest) := by
      simp [hbytes]
    have htype : etherType (f.encode ++ rest) 12 = 0x0081 := etherType_eq hbytes (by simp)
    have htagged : etherType (f.encode ++ rest) 16 = 0x0008 := etherType_eq htagged (by simp)
    have hudp : payloadByte (f.encode ++ rest) 27 = 17 := payloadByte_eq hprotocol (by simp)
    rw [dispatch, htype, if_neg (by decide), if_neg (by decide), if_pos rfl, if_pos htagged,
      transport, if_pos hudp]
    exact udpLayer_eq hlength

end Dispatch

/-- A frame that holds no datagram for the lidar: too short, too long, or of another type. -/
def Foreign (data : List UInt8) : Prop :=
  data.length ≤ 14 ∨ kBufSize < data.length ∨ etherType data 12 ∉ [0x0008, 0xdd86, 0x0081]

inductive CapturedFrame where
  | udp (f : UdpFrame) (h : f.encode.length ≤ kBufSize)
  | foreign (data : List UInt8) (h : Foreign data)

namespace CapturedFrame

def data : CapturedFrame → List UInt8
  | udp f _ => f.encode
  | foreign data _ => data

def reply : CapturedFrame → ReceivedPacket
  | udp f _ => ⟨f.payload.length, f.payload⟩
  | foreign _ _ => ⟨1, []⟩

end CapturedFrame

structure CapturedRecord where
  times : Vector UInt8 8
  origLen : Vector UInt8 4
  frame : CapturedFrame
  data_lt : frame.data.length < 2 ^ 32

namespace CapturedRecord

def header (swapped : Bool) (r : CapturedRecord) : List UInt8 :=
  r.times.toList ++ word swapped r.frame.data.length ++ r.origLen.toList

def bytes (swapped : Bool) (r : CapturedRecord) : List UInt8 := r.header swapped ++ r.frame.data

lemma header_length (swapped : Bool) (r : CapturedRecord) : (r.header swapped).length = 16 := by
  simp [header, word_length]

lemma inclLen_header (swapped : Bool) (r : CapturedRecord) :
    (if swapped then (PcapRecord.ofBytes (r.header swapped)).swap
      else PcapRecord.ofBytes (r.header swapped)).inclLen = r.frame.data.length := by
  have hword : ((r.header swapped).drop 8).take 4 = word swapped r.frame.data.length := by
    rw [header, List.append_assoc, List.drop_left' (by simp), List.take_left' (word_length ..)]
  rw [← ofLittleEndian_word r.data_lt, ← hword]
  cases swapped <;> rfl

end CapturedRecord

structure Capture where
  swapped : Bool
  nanoseconds : Bool
  header : Vector UInt8 20
  records : List CapturedRecord

namespace Capture

def magicNumber (c : Capture) : ℕ := if c.nanoseconds then 0xa1b23c4d else 0xa1b2c3d4

def bytes (c : Capture) : List UInt8 :=
  word c.swapped c.magicNumber ++ c.header.toList ++ c.records.flatMap (·.bytes c.swapped)

def replies (c : Capture) : List ReceivedPacket := c.records.map (·.frame.reply)

end Capture

def twoRecords : Capture where
  swapped := true
  nanoseconds := false
  header := Vector.replicate 20 0
  records := [
    { times := Vector.replicate 8 1
      origLen := Vector.replicate 4 0
      frame := .udp {
        carrier := .ipv4
        addresses := Vector.replicate 12 2
        tag := Vector.replicate 2 0
        ipv4 := (Vector.replicate 9 3, Vector.replicate 10 4)
        ipv6 := (Vector.replicate 6 0, Vector.replicate 33 0)
        udp := Vector.replicate 8 5
        payload := [6, 7, 8] } (by decide)
      data_lt := by decide },
    { times := Vector.replicate 8 1
      origLen := Vector.replicate 4 0
      frame := .foreign (List.replicate 20 9) (Or.inr (Or.inr (by decide)))
      data_lt := by decide }]

end Taggy
