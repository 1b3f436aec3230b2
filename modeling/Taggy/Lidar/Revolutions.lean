import Mathlib.Data.List.GetD
import Taggy.Lidar.FrameAssembly

/-! The frames of a lidar that turns in one direction are its revolutions. -/

namespace Taggy.HesaiLidarSdk

variable {x : XtStream} (validPoints : List UInt8 → ℕ) {C dir origin : ℤ}

/-- The revolution that the lidar is in at each packet. -/
def rev (dir C origin : ℤ) (angles : List ℤ) (k : ℕ) : ℤ :=
  FrameSplitter.revolution dir C origin (angles.getD k 0)

lemma rev_next {angles : List ℤ} (hc : angles.IsChain (FrameSplitter.Turns dir C)) (origin : ℤ)
    {k : ℕ} (hk : k + 1 < angles.length) :
    rev dir C origin angles (k + 1) = rev dir C origin angles k ∨
      rev dir C origin angles (k + 1) = rev dir C origin angles k + 1 := by
  have hturns := List.isChain_iff_getElem.mp hc k hk
  rw [rev, rev, List.getD_eq_getElem _ _ hk, List.getD_eq_getElem _ _ (Nat.lt_of_succ_lt hk)]
  exact FrameSplitter.revolution_step hturns origin

def ThreeAngles (angles : List ℤ) (n : ℕ) : Prop := 3 ≤ (angles.take n).toFinset.card

lemma ThreeAngles.mono {angles : List ℤ} {n k : ℕ} (hn : ThreeAngles angles n) (hk : n ≤ k) :
    ThreeAngles angles k := by
  refine hn.trans (Finset.card_le_card fun θ hθ => ?_)
  rw [List.mem_toFinset] at hθ ⊢
  exact (List.take_prefix_take_left hk).subset hθ

lemma marks_getElem (hs : 0 ≤ origin) (hsC : origin < C) {angles : List ℤ}
    (hc : angles.IsChain (FrameSplitter.Turns dir C)) {k : ℕ} (hn : ThreeAngles angles (k + 1))
    (hk : k + 1 < angles.length) :
    (Transducer.outputs FrameSplitter.step { frameStartAzimuth := origin }
      (angles.map (· % C)))[k + 1]? =
        some (decide (rev dir C origin angles k ≠ rev dir C origin angles (k + 1))) := by
  have hlt : k < angles.length := Nat.lt_of_succ_lt hk
  have htake : angles.take (k + 1) = angles.take k ++ [angles[k]] :=
    List.take_succ_eq_append_getElem hlt
  have hdrop : angles.drop (k + 1) = angles[k + 1] :: angles.drop (k + 2) :=
    List.drop_eq_getElem_cons hk
  have hsplit : angles = (angles.take k ++ [angles[k]]) ++ angles.drop (k + 1) := by
    rw [← htake, List.take_append_drop]
  have hchain : (angles.take k ++ angles[k] :: angles.drop (k + 1)).IsChain
      (FrameSplitter.Turns dir C) := by
    rwa [← List.singleton_append, ← List.append_assoc, ← hsplit]
  rw [ThreeAngles, htake] at hn
  have hout := FrameSplitter.outputs_warmed_up hs hsC hn _ hchain
  have hlength : (Transducer.outputs FrameSplitter.step { frameStartAzimuth := origin }
      ((angles.take k ++ [angles[k]]).map (· % C))).length = k + 1 := by
    rw [FrameSplitter.outputs_length, List.length_map, ← htake, List.length_take]
    omega
  conv_lhs => rw [hsplit]
  rw [List.map_append, Transducer.outputs, Transducer.run_append]
  change (Transducer.outputs _ _ _ ++ Transducer.outputs _ (Transducer.after _ _ _) _)[k + 1]? = _
  rw [List.getElem?_append_right hlength.le, hlength, Nat.sub_self, hout, hdrop, rev, rev,
    List.getD_eq_getElem _ _ hlt, List.getD_eq_getElem _ _ hk]
  rfl

section Cuts

variable {before f rest : List Marked} {last : Marked} {r : ℕ → ℤ} {n : ℕ}

lemma unmarked (hw : Framing.Whole Prod.snd f) {k : ℕ} (hk : k + 1 < f.length) :
    f[k + 1].2 = false := by
  cases f with
  | nil => exact (Nat.not_lt_zero _ hk).elim
  | cons first rest => exact hw _ (List.getElem_mem (l := rest) (Nat.lt_of_succ_lt_succ hk))

/-- From the given one on, a packet is marked if it is in another revolution than the one before. -/
def MarksRevolutions (r : ℕ → ℤ) (n : ℕ) (h : List Marked) : Prop :=
  ∀ k m, n ≤ k + 1 → h[k + 1]? = some m →
    (r (k + 1) = r k ∨ r (k + 1) = r k + 1) ∧ m.2 = decide (r k ≠ r (k + 1))

lemma one_revolution (hr : MarksRevolutions r n (before ++ f ++ last :: rest))
    (hw : Framing.Whole Prod.snd f) (hlast : last.2 = true) (hb : n ≤ before.length) :
    ∀ k < f.length, r (before.length + k) + 1 = r (before.length + f.length) := by
  have hconst : ∀ k < f.length, r (before.length + k) = r before.length := by
    intro k
    induction k with
    | zero => exact fun _ => rfl
    | succ k ih =>
      intro hk
      have hitem : (before ++ f ++ last :: rest)[before.length + k + 1]? = some f[k + 1] := by
        rw [List.append_assoc, add_assoc, List.getElem?_append_right (Nat.le_add_right _ _),
          Nat.add_sub_cancel_left, List.getElem?_append_left hk, List.getElem?_eq_getElem hk]
      obtain ⟨-, hmark⟩ := hr _ _ (by omega) hitem
      rw [unmarked hw hk] at hmark
      have heq := not_not.mp (of_decide_eq_false hmark.symm)
      exact heq.symm.trans (ih (Nat.lt_of_succ_lt hk))
  intro k hk
  obtain ⟨m, hm⟩ : ∃ m, f.length = m + 1 := ⟨f.length - 1, by omega⟩
  have hitem : (before ++ f ++ last :: rest)[before.length + m + 1]? = some last := by
    rw [List.getElem?_append_right (by rw [List.length_append]; omega), List.length_append,
      hm, add_assoc, Nat.sub_self]
    rfl
  obtain ⟨hnext, hmark⟩ := hr _ _ (by omega) hitem
  have hne := of_decide_eq_true (hmark.symm.trans hlast)
  rw [hconst k hk, hm, ← add_assoc, hnext.resolve_left hne.symm, hconst m (by omega)]

lemma begins_revolution (hr : MarksRevolutions r n (before ++ f ++ last :: rest))
    (ho : Framing.Opens Prod.snd before f) (hb : n ≤ before.length) (hpos : 0 < before.length) :
    r (before.length - 1) + 1 = r before.length := by
  rcases ho with rfl | ⟨first, others, rfl, hfirst⟩
  · exact (lt_irrefl _ hpos).elim
  · obtain ⟨m, hm⟩ : ∃ m, before.length = m + 1 := ⟨before.length - 1, by omega⟩
    have hitem : (before ++ first :: others ++ last :: rest)[m + 1]? = some first := by
      rw [List.append_assoc, List.getElem?_append_right hm.le, hm, Nat.sub_self]
      rfl
    obtain ⟨hnext, hmark⟩ := hr _ _ (by omega) hitem
    have hne := of_decide_eq_true (hmark.symm.trans hfirst)
    rw [hm, Nat.add_sub_cancel]
    exact (hnext.resolve_left hne.symm).symm

end Cuts

lemma marks_revolutions (hs : 0 ≤ origin) (hsC : origin < C) {angles : List ℤ} {n : ℕ}
    (hn : ThreeAngles angles n) (hc : angles.IsChain (FrameSplitter.Turns dir C))
    {packets : List UdpPacket} (ha : packets.map UdpPacket.azimuth = angles.map (· % C)) :
    MarksRevolutions (rev dir C origin angles) n
      (marked { frameStartAzimuth := origin } packets) := by
  intro k m hk hm
  rw [marked, List.getElem?_zip_eq_some, ha] at hm
  obtain ⟨hpacket, hmark⟩ := hm
  have hlength := congrArg List.length ha
  rw [List.length_map, List.length_map] at hlength
  have hlt : k + 1 < packets.length := (List.getElem?_eq_some_iff.mp hpacket).1
  rw [hlength] at hlt
  rw [marks_getElem hs hsC hc (hn.mono hk) hlt] at hmark
  exact ⟨rev_next hc origin hlt, (Option.some.inj hmark).symm⟩

/-- How many packets have been put out, or thrown away, in these outputs. -/
def taken (outputs : List RunOutput) : ℕ := (outputs.flatMap RunOutput.packets).length

/-- The packets of a frame are those that follow the ones of the outputs before it. Once three
different angles have been seen, they are of one revolution and reach to its end, and unless an
overfull frame came before from its begin. -/
structure FrameOfRevolution (r : ℕ → ℤ) (angles : List ℤ) (accepted packets : List UdpPacket)
    (before : List RunOutput) : Prop where
  place : packets <+: accepted.drop (taken before)
  same : ThreeAngles angles (taken before) → ∀ k < packets.length,
    r (taken before + k) + 1 = r (taken before + packets.length)
  begins : ThreeAngles angles (taken before) → (∀ q, .failedToStart q ∉ before) →
    r (taken before - 1) + 1 = r (taken before)

variable {validPoints} in
lemma events_split {es : List (Framing.Event Marked)} {before post : List RunOutput}
    {packets : List UdpPacket} {rows : List (List UInt8)} {sent : Bool}
    (he : es.map (events x validPoints) = before ++ .frame packets rows sent :: post) :
    ∃ pre f post', es = pre ++ .closed f :: post' ∧ pre.map (events x validPoints) = before ∧
      f.map Prod.fst = packets := by
  obtain ⟨pre, rest, rfl, hpre, hrest⟩ := List.map_eq_append_iff.mp he
  obtain ⟨e, post', rfl, hclosed, -⟩ := List.map_eq_cons_iff.mp hrest
  cases e with
  | stored index => cases hclosed
  | overflowed f => cases hclosed
  | closed f => exact ⟨pre, f, post', rfl, hpre, (RunOutput.frame.inj hclosed).1⟩

theorem frames_are_revolutions {c : Settings} (hfits : Fits x c) (h : List Arrival)
    (hx : ∀ i ∈ accepted c h, x.Sends i.packet) (ht : NoTimeouts h)
    (hs : 0 ≤ origin) (hsC : origin < C) {angles : List ℤ}
    (hc : angles.IsChain (FrameSplitter.Turns dir C))
    (ha : (accepted c h).map (·.packet.azimuth) = angles.map (· % C))
    {before post : List RunOutput} {packets : List UdpPacket} {rows : List (List UInt8)}
    {sent : Bool} (hf : Transducer.outputs (run validPoints) (start c origin) h =
      before ++ .frame packets rows sent :: post) :
    FrameOfRevolution (rev dir C origin angles) angles ((accepted c h).map Arrival.packet) packets
      before := by
  obtain ⟨-, hout⟩ := run_cut validPoints hfits origin h hx ht
  rw [hout] at hf
  obtain ⟨pre, f, post', he, rfl, rfl⟩ := events_split hf
  obtain ⟨last, rest, hplace, hlast, hopens⟩ := Framing.closed_place he
  have hwhole := (Framing.legal hfits.room _).closed f
    (he ▸ List.mem_append_right pre List.mem_cons_self)
  have hazimuths : ((accepted c h).map Arrival.packet).map UdpPacket.azimuth =
      angles.map (· % C) := by
    rw [List.map_map]
    exact ha
  have htaken : taken (pre.map (events x validPoints)) =
      (pre.flatMap Framing.Event.items).length := by
    rw [taken, events_packets, List.length_map]
  have hr {n : ℕ} (hn : ThreeAngles angles n) := marks_revolutions hs hsC hn hc hazimuths
  rw [hplace] at hr
  refine ⟨?_, fun hn k hk => ?_, fun hn hno => ?_⟩
  · have hpackets := marked_packets { frameStartAzimuth := origin }
      ((accepted c h).map Arrival.packet)
    rw [hplace, List.append_assoc, List.map_append, List.map_append] at hpackets
    rw [← hpackets, htaken, ← List.length_map Prod.fst, List.drop_left]
    exact List.prefix_append _ _
  · rw [htaken, List.length_map] at *
    exact one_revolution (hr hn) hwhole.2 hlast le_rfl k hk
  · rw [htaken] at *
    have hpos : 0 < (pre.flatMap Framing.Event.items).length := by
      by_contra hzero
      rw [Nat.eq_zero_of_not_pos hzero] at hn
      exact absurd hn (by simp [ThreeAngles])
    refine begins_revolution (hr hn) (hopens fun g hg => hno (g.map Prod.fst) ?_) le_rfl hpos
    exact List.mem_map_of_mem hg

theorem second_frame_is_revolution :
    FrameOfRevolution (rev 1 36000 0 [35960, 35960, 35980, 35990, 36010, 53000, 70000, 72010])
      [35960, 35960, 35980, 35990, 36010, 53000, 70000, 72010]
      ((accepted ⟨0, 0, 8, 8, true⟩
        ([35960, 35960, 35980, 35990, 10, 17000, 34000, 10].map turned)).map Arrival.packet)
      ([10, 17000, 34000].map fun azimuth => (turned azimuth).packet)
      ((Transducer.outputs (run fun _ => 1) (start ⟨0, 0, 8, 8, true⟩ 0)
        ([35960, 35960, 35980, 35990, 10, 17000, 34000, 10].map turned)).take 8) := by
  have hframe : Transducer.outputs (run fun _ => 1) (start ⟨0, 0, 8, 8, true⟩ 0)
      ([35960, 35960, 35980, 35990, 10, 17000, 34000, 10].map turned) =
        (Transducer.outputs (run fun _ => 1) (start ⟨0, 0, 8, 8, true⟩ 0)
          ([35960, 35960, 35980, 35990, 10, 17000, 34000, 10].map turned)).take 8 ++
        .frame ([10, 17000, 34000].map fun azimuth => (turned azimuth).packet)
          ([10, 17000, 34000].map fun azimuth => (turned azimuth).packet.buffer) false ::
        [.computeXyzi 0] := by
    decide +kernel
  refine frames_are_revolutions (fun _ => 1) (x := ⟨1, 1, 4, 14⟩)
    ⟨by decide, by decide, by decide⟩ _ (turned_accepted _ _) (turned_onTime _)
    le_rfl (by norm_num) ?_ ?_ hframe
  · simp [FrameSplitter.Turns]
  · decide +kernel

end Taggy.HesaiLidarSdk
