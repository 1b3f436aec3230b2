import Taggy.History.Steps
import Taggy.History.Transducer
import Taggy.Interface.HighLevelInterface

/-! Decoding the datagrams of a run: the guard and the slice are shorter than the format. -/

namespace Taggy

namespace RobotState

open Struct

def datagram (s : RobotState) : List UInt8 := pack s.values

def Packs (d : List UInt8) (s : RobotState) : Prop := ∃ extra, d = s.datagram ++ extra

def WellFormed (d : List UInt8) : Prop := ∃ s, Packs d s

lemma datagram_length (s : RobotState) : s.datagram.length = 89 := by
  rw [datagram, pack_size, values_code]
  rfl

lemma packs_unique {d : List UInt8} {s s' : RobotState} (h : Packs d s) (h' : Packs d s') :
    s = s' := by
  obtain ⟨extra, rfl⟩ := h
  obtain ⟨extra', he⟩ := h'
  have hv : unpackFields stateCodes (s.datagram ++ extra) = s.values :=
    unpackFields_pack s.values extra
  rw [he] at hv
  have hv' : s'.values = s.values := (unpackFields_pack s'.values extra').symm.trans hv
  apply Option.some_inj.mp
  rw [← ofValues?_values s, ← ofValues?_values s', hv']

lemma wellFormed_iff {d : List UInt8} : WellFormed d ↔ 89 ≤ d.length := by
  constructor
  · rintro ⟨s, extra, rfl⟩
    rw [List.length_append, datagram_length]
    omega
  · intro hd
    obtain ⟨s, hs⟩ := values_unpackFields d
    have hp : s.datagram = d.take 89 := by
      rw [datagram, hs]
      exact pack_unpackFields hd
    exact ⟨s, d.drop 89, by rw [hp, List.take_append_drop]⟩

lemma packs_iff {d : List UInt8} {s : RobotState} : Packs d s ↔ d.take 89 = s.datagram := by
  constructor
  · rintro ⟨extra, rfl⟩
    rw [← datagram_length s, List.take_left]
  · intro hd
    exact ⟨d.drop 89, by rw [← hd, List.take_append_drop]⟩

end RobotState

namespace Go2HighLevelInterface

open RobotState History

variable {α : Type} [Zero α]

def received (ds : List (List UInt8)) : Go2HighLevelInterface α :=
  Transducer.after parseState {} ds

def LastPacked (ds : List (List UInt8)) (s : RobotState) : Prop :=
  ∃ pre d post, ds = pre ++ d :: post ∧ Packs d s ∧ ∀ e ∈ post, ¬ WellFormed e

variable (α) in
/-- The state after a run is the one packed in its latest well-formed datagram, and a datagram
that is too short changes nothing. -/
def Decodes (ds : List (List UInt8)) : Prop :=
  (∀ s, LastPacked ds s → (received ds : Go2HighLevelInterface α).getState = s) ∧
    ((∀ d ∈ ds, ¬ WellFormed d) → (received ds : Go2HighLevelInterface α).getState = {}) ∧
    AtEachStep (fun pre d => d.length < 89 →
      (received (pre ++ [d]) : Go2HighLevelInterface α).getState =
        (received pre : Go2HighLevelInterface α).getState) ds

lemma unpack_slice (data : List UInt8) :
    ∃ e, Struct.unpack stateFormat (data.take 80) = .error e := by
  have hl : (data.take 80).length ≠ Struct.calcsize stateCodes := by
    have hs : Struct.calcsize stateCodes = 89 := rfl
    rw [hs, List.length_take]
    omega
  rw [Struct.unpack, parse_stateFormat]
  exact ⟨_, if_neg hl⟩

lemma parseState_unchanged (g : Go2HighLevelInterface α) (data : List UInt8) :
    (g.parseState data).1 = g := by
  rw [parseState]
  split
  · rfl
  · obtain ⟨e, he⟩ := unpack_slice data
    rw [he]

lemma received_initial (ds : List (List UInt8)) : (received ds : Go2HighLevelInterface α) = {} := by
  induction ds using List.reverseRecOn with
  | nil => rfl
  | append_singleton ds d ih =>
    rw [received, Transducer.after_concat, parseState_unchanged]
    exact ih

lemma lastPacked_unique {ds : List (List UInt8)} {s s' : RobotState} (h : LastPacked ds s)
    (h' : LastPacked ds s') : s = s' := by
  obtain ⟨pre, d, post, he, hd, hp⟩ := h
  obtain ⟨pre', d', post', he', hd', hp'⟩ := h'
  have hdd : d = d' := last_unique he ⟨s, hd⟩ hp he' ⟨s', hd'⟩ hp'
  exact packs_unique hd (hdd ▸ hd')

lemma decodes_iff_initial (ds : List (List UInt8)) :
    Decodes α ds ↔ ∀ s, LastPacked ds s → s = {} := by
  have hget : ∀ ds, (received ds : Go2HighLevelInterface α).getState = {} := by
    intro ds
    rw [received_initial]
    rfl
  constructor
  · intro h s hs
    exact (h.1 s hs).symm.trans (hget ds)
  · intro h
    refine ⟨fun s hs => (hget ds).trans (h s hs).symm, fun _ => hget ds, ?_⟩
    intro pre d post _ _
    exact (hget (pre ++ [d])).trans (hget pre).symm

variable (α) in
theorem decodes_iff (ds : List (List UInt8)) :
    Decodes α ds ↔
      (∀ d ∈ ds, d.length < 89) ∨
        ∃ pre d post, ds = pre ++ d :: post ∧ d.take 89 = ({} : RobotState).datagram ∧
          ∀ e ∈ post, e.length < 89 := by
  have hshort : ∀ e, ¬ WellFormed e ↔ e.length < 89 := fun e => by rw [wellFormed_iff, not_le]
  rw [decodes_iff_initial]
  constructor
  · intro h
    by_cases hw : ∃ d ∈ ds, WellFormed d
    · obtain ⟨pre, d, post, he, ⟨s, hs⟩, hp⟩ := exists_last hw
      have hinit : s = {} := h s ⟨pre, d, post, he, hs, hp⟩
      refine Or.inr ⟨pre, d, post, he, packs_iff.mp (hinit ▸ hs), ?_⟩
      exact fun e hm => (hshort e).mp (hp e hm)
    · exact Or.inl fun d hd => (hshort d).mp fun hwd => hw ⟨d, hd, hwd⟩
  · rintro (hn | ⟨pre, d, post, he, hd, hp⟩) s hs
    · obtain ⟨pre, d, post, rfl, hd, _⟩ := hs
      exact ((hshort d).mpr (hn d (by simp)) ⟨s, hd⟩).elim
    · have hl : LastPacked ds {} :=
        ⟨pre, d, post, he, packs_iff.mpr hd, fun e hm => (hshort e).mpr (hp e hm)⟩
      exact lastPacked_unique hs hl

theorem state_not_decoded :
    ¬ Decodes ℚ [({ x := 0x3F800000, mode := 1 } : RobotState).datagram] := by
  intro h
  have hs := h.1 { x := 0x3F800000, mode := 1 }
    ⟨[], _, [], rfl, ⟨[], (List.append_nil _).symm⟩, by simp⟩
  exact absurd hs (by decide)

end Go2HighLevelInterface

end Taggy
