import Taggy.History.Transducer
import Taggy.Lidar.PoolPoints
import Taggy.Lidar.PoolWork

/-! What holds of a frame while the threads compute its points, whatever turns they take. -/

namespace Taggy.ComputePool

/-- The packets of a frame, each with the parameters that have been in force since it was stored. -/
abbrev Frame := List (PacketRow × List ComputeParam)

/-- What the outputs tell of a frame: which packets were computed, and what became of the points. -/
structure PoolRound (P : Type) where
  computed : List ℕ
  points : List P
  sent : Bool

variable {P : Type} {c : PoolConfig P} {frame : Frame} {done : List ℕ} {s s' t : ComputePool P}
  {w : Work} {f : PacketRow × List ComputeParam}

def round (done : List ℕ) : PoolOutput P → List ℕ × List (PoolRound P)
  | .computed i => (done ++ [i], [])
  | .closed points sent => ([], [⟨done, points, sent⟩])

/-- What a thread has done with the packet in its hand. -/
structure Begun (c : PoolConfig P) (f : PacketRow × List ComputeParam) (points : ℕ → P)
    (w : Work) : Prop where
  within : w.channel ≤ c.perPointsNum
  computes : ∃ pts, Computes c f.1 f.2 w.channel w.returnMode pts ∧ w.pointNum = pts.length ∧
    InPlace c.perPointsNum points w.packetIndex pts

/-- The points of a packet are computed and stand in its row. -/
def Computed (c : PoolConfig P) (f : PacketRow × List ComputeParam) (s : ComputePool P)
    (i : ℕ) : Prop :=
  ∃ pts, Points c f.1 f.2 pts ∧ Filled c.perPointsNum s.validPoints s.points i pts

def Idle (c : PoolConfig P) (s : ComputePool P) : Prop :=
  ∀ thread, c.handleThreadCount ≤ thread →
    s.handleThread thread = none ∧ s.handleThreadPacketBuffer thread = []

structure Works (c : PoolConfig P) (frame : Frame) (done : List ℕ) (s : ComputePool P) : Prop where
  packetIndex : s.packetIndex = frame.length
  stored : ∀ i f, frame[i]? = some f → s.rawData i = f.1 ∧ s.param ∈ f.2
  once : ↑done + inflight c s = Multiset.range frame.length
  counted : s.computePacketNum = done.length
  begun : ∀ h w, s.hand h = some w → ∀ f, frame[w.packetIndex]? = some f → Begun c f s.points w
  computed : ∀ i ∈ done, ∀ f, frame[i]? = some f → Computed c f s i
  short : frame.length ≤ c.maxPacketPerFrame
  idle : Idle c s

lemma Begun.fresh (i : ℕ) (points : ℕ → P) : Begun c f points { packetIndex := i } := by
  refine ⟨Nat.zero_le _, [], .start, rfl, fun j p hp => ?_⟩
  rw [List.getElem?_nil] at hp
  cases hp

namespace Works

lemma within (hw : Works c frame done s) {h : Hand} (hh : s.hand h = some w) : h.Within c := by
  cases h with
  | parser => trivial
  | handle thread =>
    by_contra hle
    rw [hand, (hw.idle thread (not_lt.mp hle)).1] at hh
    cases hh

lemma below (hw : Works c frame done s) {i : ℕ} (hi : i ∈ inflight c s) : i < frame.length := by
  rw [← Multiset.mem_range, ← hw.once]
  exact Multiset.mem_add.mpr (Or.inr hi)

lemma disjoint (hw : Works c frame done s) :
    (inflight c s).Nodup ∧ Disjoint (done : Multiset ℕ) (inflight c s) := by
  have hn := Multiset.nodup_range frame.length
  rw [← hw.once, Multiset.nodup_add] at hn
  exact hn.2

lemma in_frame (hw : Works c frame done s) {h : Hand} (hh : s.hand h = some w) :
    w.packetIndex < frame.length := hw.below (mem_inflight (hw.within hh) hh)

lemma not_done (hw : Works c frame done s) {h : Hand} (hh : s.hand h = some w) {i : ℕ}
    (hi : i ∈ done) : i ≠ w.packetIndex := fun heq =>
  Multiset.disjoint_left.mp hw.disjoint.2 hi (heq ▸ mem_inflight (hw.within hh) hh)

end Works

structure SameFrame (s t : ComputePool P) : Prop where
  param : t.param = s.param
  rawData : t.rawData = s.rawData
  packetIndex : t.packetIndex = s.packetIndex
  computePacketNum : t.computePacketNum = s.computePacketNum
  points : t.points = s.points
  validPoints : t.validPoints = s.validPoints

lemma Works.move (hw : Works c frame done s) (hsame : SameFrame s t)
    (ht : inflight c t = inflight c s) (hidle : Idle c t)
    (hhands : ∀ h w, t.hand h = some w → s.hand h = some w ∨ ∃ i, w = { packetIndex := i }) :
    Works c frame done t := by
  obtain ⟨hparam, hraw, hindex, hnum, hpoints, hvalid⟩ := hsame
  refine ⟨hindex.trans hw.packetIndex, ?_, ht ▸ hw.once, hnum.trans hw.counted, ?_, ?_, hw.short,
    hidle⟩
  · rw [hraw, hparam]
    exact hw.stored
  · intro h w hh f hf
    rw [hpoints]
    rcases hhands h w hh with hold | ⟨i, rfl⟩
    · exact hw.begun h w hold f hf
    · exact Begun.fresh i s.points
  · intro i hi f hf
    obtain ⟨pts, hpts, hfilled⟩ := hw.computed i hi f hf
    exact ⟨pts, hpts, by rwa [hvalid, hpoints]⟩

/-- Nothing but the row of one packet, the work on it and the count of the packets differ. -/
structure SameRows (c : PoolConfig P) (i : ℕ) (s t : ComputePool P) : Prop where
  places : Weight.Same s t
  param : t.param = s.param
  rawData : t.rawData = s.rawData
  packetIndex : t.packetIndex = s.packetIndex
  waiting : t.waiting = s.waiting
  points : ∀ k pts, k ≠ i → pts.length ≤ c.perPointsNum →
    InPlace c.perPointsNum s.points k pts → InPlace c.perPointsNum t.points k pts
  validPoints : ∀ k, k ≠ i → t.validPoints k = s.validPoints k

lemma SameRows.hand {i : ℕ} (hsame : SameRows c i s t) (h : Hand) : t.hand h = s.hand h := by
  cases h with
  | parser => exact hsame.places.parser
  | handle thread => exact congrFun hsame.places.handle thread

lemma idle_setHand {h : Hand} (hh : h.Within c) (w : Option Work) (hidle : Idle c s) :
    Idle c (s.setHand h w) := by
  intro thread ht
  cases h with
  | parser => exact hidle thread ht
  | handle other =>
    obtain ⟨hhand, hbuffer⟩ := hidle thread ht
    exact ⟨(Function.update_of_ne (lt_of_lt_of_le hh ht).ne' _ _).trans hhand, hbuffer⟩

lemma Works.progress (hw : Works c frame done s) {h : Hand} (hh : s.hand h = some w)
    {left : Option Work} {done' : List ℕ} (hsame : SameRows c w.packetIndex s t)
    (hone : (done' : Multiset ℕ) + left.elim 0 (index.hand h) = ↑done + {w.packetIndex})
    (hcounted : t.computePacketNum = done'.length)
    (hleft : ∀ w' ∈ left, w'.packetIndex = w.packetIndex ∧
      ∀ f, frame[w.packetIndex]? = some f → Begun c f t.points w')
    (hdone : ∀ i ∈ done', i ∈ done ∨
      i = w.packetIndex ∧ ∀ f, frame[w.packetIndex]? = some f → Computed c f t w.packetIndex) :
    Works c frame done' (t.setHand h left) := by
  have hwithin := hw.within hh
  have htotal := index.total_setHand hwithin left t
  rw [hsame.hand, hh, index.total_same hsame.places, Option.elim_some, index_hand] at htotal
  have hframe : (t.setHand h left).points = t.points ∧
      (t.setHand h left).validPoints = t.validPoints ∧
      (t.setHand h left).rawData = t.rawData ∧ (t.setHand h left).param = t.param ∧
      (t.setHand h left).packetIndex = t.packetIndex ∧
      (t.setHand h left).computePacketNum = t.computePacketNum := by
    cases h <;> exact ⟨rfl, rfl, rfl, rfl, rfl, rfl⟩
  obtain ⟨hpoints, hvalid, hraw, hparam, hindex, hnum⟩ := hframe
  refine ⟨?_, ?_, ?_, hnum.trans hcounted, ?_, ?_, hw.short, ?_⟩
  · rw [hindex, hsame.packetIndex, hw.packetIndex]
  · rw [hraw, hparam, hsame.rawData, hsame.param]
    exact hw.stored
  · apply add_right_cancel (b := {w.packetIndex})
    calc (done' : Multiset ℕ) + inflight c (t.setHand h left) + {w.packetIndex}
        = ↑done' + left.elim 0 (index.hand h) + inflight c s := by
          rw [add_assoc, inflight, htotal, add_comm (index.total c s), add_assoc]
          rfl
      _ = ↑done + inflight c s + {w.packetIndex} := by rw [hone, add_right_comm]
      _ = Multiset.range frame.length + {w.packetIndex} := by rw [hw.once]
  · intro u w' hu f hf
    rw [hpoints]
    by_cases hne : u = h
    · rw [hne, hand_setHand_self] at hu
      obtain ⟨hindex', hbegun⟩ := hleft w' hu
      exact hbegun f (hindex' ▸ hf)
    · rw [hand_setHand_of_ne hne, hsame.hand] at hu
      have hother := hand_ne hw.disjoint.1 hwithin (hw.within hu) hne hh hu
      obtain ⟨hchannel, pts, hcomputes, hnum', hplace⟩ := hw.begun u w' hu f hf
      exact ⟨hchannel, pts, hcomputes, hnum',
        hsame.points _ pts hother (hcomputes.length_le.trans hchannel) hplace⟩
  · intro i hi f hf
    rcases hdone i hi with hold | ⟨rfl, hnew⟩
    · have hother := hw.not_done hh hold
      obtain ⟨pts, hpts, hlength, hplace⟩ := hw.computed i hold f hf
      refine ⟨pts, hpts, ?_, ?_⟩
      · rw [hvalid, hsame.validPoints i hother, hlength]
      · rw [hpoints]
        exact hsame.points i pts hother hpts.length_le hplace
    · obtain ⟨pts, hpts, hlength, hplace⟩ := hnew f hf
      exact ⟨pts, hpts, hvalid ▸ hlength, hpoints ▸ hplace⟩
  · apply idle_setHand hwithin
    intro thread ht
    rw [hsame.places.handle, hsame.places.buffered]
    exact hw.idle thread ht

structure Turn (c : PoolConfig P) (frame : Frame) (done : List ℕ) (s s' : ComputePool P)
    (outputs : List (PoolOutput P)) : Prop where
  works : Works c frame (Transducer.after round done outputs) s'
  quiet : Transducer.outputs round done outputs = []
  param : s'.param = s.param
  waiting : s'.waiting = s.waiting
  less : work c s' < work c s

inductive PoolEvent.ofThread : PoolEvent → Prop
  | parserTakes : ofThread .parserTakes
  | parserHandsOn : ofThread .parserHandsOn
  | parserComputes : ofThread .parserComputes
  | handleTakes (thread : ℕ) : ofThread (.handleTakes thread)
  | handleComputes (thread : ℕ) : ofThread (.handleComputes thread)

lemma turn_parserTakes {o : List (PoolOutput P)} (hw : Works c frame done s)
    (he : s.step c .parserTakes = some (s', o)) : Turn c frame done s s' o := by
  rw [step] at he
  split at he
  · rename_i i rest hp hd
    obtain ⟨rfl, rfl⟩ := Prod.mk.inj (Option.some.inj he)
    have hin := index.total_parserTakes (c := c) hp hd
    have hwork := (turnsLeft c).total_parserTakes (c := c) hp hd
    refine ⟨hw.move ⟨rfl, rfl, rfl, rfl, rfl, rfl⟩ (add_right_cancel hin) hw.idle ?_, rfl, rfl,
      rfl, ?_⟩
    · intro h w hh
      cases h with
      | parser => exact Or.inr ⟨i, (Option.some.inj hh).symm⟩
      | handle thread => exact Or.inl hh
    · have hless : (turnsLeft c).parser { packetIndex := i } < (turnsLeft c).decoded i := by
        have heffort := effort_le c { packetIndex := i }
        rw [turnsLeft]
        dsimp only
        split <;> omega
      rw [work, work]
      omega
  · cases he

lemma handOn_eq {i thread : ℕ} (ht : thread = s.nUdpCount % c.handleThreadCount)
    (hroom : (s.handleThreadPacketBuffer thread).length < c.handleBufferSize) :
    { s with parserThread := none }.handOn c i = { s with
      parserThread := none
      handleThreadPacketBuffer := Function.update s.handleThreadPacketBuffer thread
        (s.handleThreadPacketBuffer thread ++ [i])
      nUdpCount := thread + 1 } := by
  have hlen : ¬ (s.handleThreadPacketBuffer thread ++ [i]).length > c.handleBufferSize := by
    rw [List.length_append, List.length_singleton]
    omega
  subst ht
  rw [handOn]
  dsimp only
  rw [if_neg hlen]

lemma turn_parserHandsOn {o : List (PoolOutput P)} (hc : c.maxPacketPerFrame ≤ c.handleBufferSize)
    (hw : Works c frame done s) (he : s.step c .parserHandsOn = some (s', o)) :
    Turn c frame done s s' o := by
  rw [step] at he
  split at he
  · cases he
  · rename_i hthreads
    split at he
    · rename_i w hp
      obtain ⟨rfl, rfl⟩ := Prod.mk.inj (Option.some.inj he)
      obtain ⟨thread, hthread⟩ : ∃ thread, thread = s.nUdpCount % c.handleThreadCount := ⟨_, rfl⟩
      have ht : thread < c.handleThreadCount := hthread ▸ Nat.mod_lt _ (by omega)
      have hroom : (s.handleThreadPacketBuffer thread).length < c.handleBufferSize := by
        have hbuffer := buffer_length_lt (h := .parser) trivial hp ht
        have hcard := congrArg Multiset.card hw.once
        rw [Multiset.card_add, Multiset.card_range] at hcard
        have hshort := hw.short
        omega
      have hin := index.total_parserHandsOn (i := w.packetIndex) ht hp
      have hwork := (turnsLeft c).total_parserHandsOn (i := w.packetIndex) ht hp
      rw [handOn_eq hthread hroom]
      refine ⟨hw.move ⟨rfl, rfl, rfl, rfl, rfl, rfl⟩ (add_right_cancel hin) ?_ ?_, rfl, rfl,
        rfl, ?_⟩
      · intro u hu
        obtain ⟨hhand, hbuffer⟩ := hw.idle u hu
        exact ⟨hhand, (Function.update_of_ne (ht.trans_le hu).ne' _ _).trans hbuffer⟩
      · intro h w hh
        cases h with
        | parser => cases hh
        | handle u => exact Or.inl hh
      · have hless : (turnsLeft c).buffered w.packetIndex < (turnsLeft c).parser w := by
          rw [turnsLeft]
          dsimp only
          rw [if_neg hthreads]
          omega
        rw [work, work]
        omega
    · cases he

lemma turn_handleTakes {thread : ℕ} {o : List (PoolOutput P)} (hw : Works c frame done s)
    (he : s.step c (.handleTakes thread) = some (s', o)) : Turn c frame done s s' o := by
  rw [step] at he
  split at he
  · rename_i i rest hh hb
    obtain ⟨rfl, rfl⟩ := Prod.mk.inj (Option.some.inj he)
    have ht : thread < c.handleThreadCount := by
      by_contra h
      rw [(hw.idle thread (not_lt.mp h)).2] at hb
      cases hb
    have hin := index.total_handleTakes ht hh hb
    have hwork := (turnsLeft c).total_handleTakes ht hh hb
    refine ⟨hw.move ⟨rfl, rfl, rfl, rfl, rfl, rfl⟩ (add_right_cancel hin) ?_ ?_, rfl, rfl,
      rfl, ?_⟩
    · intro u hu
      have hne : u ≠ thread := (ht.trans_le hu).ne'
      obtain ⟨hhand, hbuffer⟩ := hw.idle u hu
      exact ⟨(Function.update_of_ne hne _ _).trans hhand,
        (Function.update_of_ne hne _ _).trans hbuffer⟩
    · intro h w hw'
      cases h with
      | parser => exact Or.inl hw'
      | handle u =>
        by_cases hu : u = thread
        · subst hu
          have hself := Function.update_self u (some { packetIndex := i }) s.handleThread
          exact Or.inr ⟨i, (Option.some.inj (hself.symm.trans hw')).symm⟩
        · exact Or.inl ((Function.update_of_ne hu _ _).symm.trans hw')
    · have hless : (turnsLeft c).handle { packetIndex := i } < (turnsLeft c).buffered i :=
        Nat.lt_succ_of_le (effort_le c _)
      rw [work, work]
      omega
  · cases he

lemma work_setHand {h : Hand} {i : ℕ} {left : Option Work} (hh : h.Within c)
    (hhand : s.hand h = some w) (hsame : SameRows c i s t)
    (heffort : (turnsLeft c).hand h = effort c)
    (hless : left.elim 0 (effort c) < effort c w) : work c (t.setHand h left) < work c s := by
  have htotal := (turnsLeft c).total_setHand hh left t
  rw [hsame.hand, hhand, (turnsLeft c).total_same hsame.places, heffort, Option.elim_some] at htotal
  rw [work, work]
  omega

lemma turn_reads {h : Hand} (hw : Works c frame done s) (hh : s.hand h = some w)
    (heffort : (turnsLeft c).hand h = effort c) (hmode : w.returnMode = none) :
    Turn c frame done s
      (s.setHand h (some { w with returnMode := some s.param.returnMode })) [] := by
  have hsame : SameRows c w.packetIndex s s :=
    ⟨⟨rfl, rfl, rfl, rfl⟩, rfl, rfl, rfl, rfl, fun _ _ _ _ hp => hp, fun _ _ => rfl⟩
  refine ⟨hw.progress hh hsame ?_ hw.counted ?_ fun i hi => Or.inl hi, rfl, ?_, ?_, ?_⟩
  · rw [Option.elim_some, index_hand]
    rfl
  · intro w' hw'
    obtain rfl := Option.some.inj hw'
    refine ⟨rfl, fun f hf => ?_⟩
    obtain ⟨hchannel, pts, hcomputes, hnum, hplace⟩ := hw.begun h w hh f hf
    rw [hmode] at hcomputes
    exact ⟨hchannel, pts, .reads hcomputes (hw.stored _ f hf).2, hnum, hplace⟩
  · cases h <;> rfl
  · cases h <;> rfl
  · refine work_setHand (hw.within hh) hh hsame heffort ?_
    rw [Option.elim_some, effort, effort, hmode]
    exact Nat.lt_succ_self _

lemma turn_point {h : Hand} {mode : ℕ} {point : Option P} (hw : Works c frame done s)
    (hh : s.hand h = some w) (heffort : (turnsLeft c).hand h = effort c)
    (hmode : w.returnMode = some mode) (hchannel : w.channel < c.perPointsNum)
    (ht : t = { s with
      points := match point with
        | some p => Function.update s.points (w.packetIndex * c.perPointsNum + w.pointNum) p
        | none => s.points })
    (hpoint : c.point s.param.forward mode (s.rawData w.packetIndex) w.channel = point) :
    Turn c frame done s
      (t.setHand h (some { w with
        channel := w.channel + 1
        pointNum := w.pointNum + point.toList.length
        returnMode := if (w.channel + 1) % c.laserNum = 0 then none else some mode })) [] := by
  have hframe := List.getElem?_eq_getElem (hw.in_frame hh)
  obtain ⟨-, pts, hcomputes, hnum, hplace⟩ := hw.begun h w hh _ hframe
  have hnumber : w.pointNum < c.perPointsNum :=
    hnum ▸ hcomputes.length_le.trans_lt hchannel
  have hsame : SameRows c w.packetIndex s t := by
    subst ht
    refine ⟨⟨rfl, rfl, rfl, rfl⟩, rfl, rfl, rfl, rfl, fun k pts hk hpts hp => ?_, fun _ _ => rfl⟩
    cases point with
    | none => exact hp
    | some p => exact hp.update hpts hk.symm hnumber
  have hnew : InPlace c.perPointsNum t.points w.packetIndex (pts ++ point.toList) := by
    subst ht
    cases point with
    | none =>
      rw [Option.toList_none, List.append_nil]
      exact hplace
    | some p =>
      dsimp only
      rw [hnum]
      exact hplace.append
  have hcounted : t.computePacketNum = done.length := by
    rw [ht]
    exact hw.counted
  refine ⟨hw.progress hh hsame ?_ hcounted ?_ fun i hi => Or.inl hi, rfl, ?_, ?_, ?_⟩
  · rw [Option.elim_some, index_hand]
    rfl
  · intro w' hw'
    obtain rfl := Option.some.inj hw'
    refine ⟨rfl, fun f hf => ⟨hchannel, pts ++ point.toList, ?_, ?_, hnew⟩⟩
    · obtain rfl := Option.some.inj (hframe.symm.trans hf)
      obtain ⟨hraw, hparam⟩ := hw.stored _ _ hf
      rw [hmode] at hcomputes
      rw [← hpoint, hraw]
      exact .point hcomputes hparam
    · rw [List.length_append, hnum]
  · cases h <;> exact hsame.param
  · cases h <;> exact hsame.waiting
  · refine work_setHand (hw.within hh) hh hsame heffort ?_
    rw [Option.elim_some, effort, effort, hmode]
    dsimp only
    split <;> simp <;> omega

lemma turn_finish {h : Hand} (hw : Works c frame done s) (hh : s.hand h = some w)
    (heffort : (turnsLeft c).hand h = effort c) (hchannel : ¬ w.channel < c.perPointsNum)
    (ht : t = { s with
      validPoints := Function.update s.validPoints w.packetIndex w.pointNum
      computePacketNum := s.computePacketNum + 1 }) :
    Turn c frame done s (t.setHand h none) [.computed w.packetIndex] := by
  have hsame : SameRows c w.packetIndex s t := by
    subst ht
    exact ⟨⟨rfl, rfl, rfl, rfl⟩, rfl, rfl, rfl, rfl, fun _ _ _ _ hp => hp,
      fun k hk => Function.update_of_ne hk _ _⟩
  have hcounted : t.computePacketNum = (done ++ [w.packetIndex]).length := by
    rw [ht, List.length_append, ← hw.counted]
    rfl
  have hcomputed (f) (hf : frame[w.packetIndex]? = some f) : Computed c f t w.packetIndex := by
    obtain ⟨hwithin, pts, hcomputes, hnum, hplace⟩ := hw.begun h w hh f hf
    rw [le_antisymm hwithin (not_lt.mp hchannel)] at hcomputes
    subst ht
    exact ⟨pts, ⟨_, hcomputes⟩, (Function.update_self _ _ _).trans hnum, hplace⟩
  refine ⟨hw.progress hh hsame ?_ hcounted (fun w' hw' => ?_) fun i hi => ?_, rfl, ?_, ?_, ?_⟩
  · rw [Option.elim_none, add_zero]
    rfl
  · cases hw'
  · rcases List.mem_append.mp hi with hi | hi
    · exact Or.inl hi
    · exact Or.inr ⟨List.mem_singleton.mp hi, hcomputed⟩
  · cases h <;> exact hsame.param
  · cases h <;> exact hsame.waiting
  · exact work_setHand (hw.within hh) hh hsame heffort (Nat.succ_pos _)

lemma turn_computes {h : Hand} (hw : Works c frame done s) (hh : s.hand h = some w)
    (heffort : (turnsLeft c).hand h = effort c) :
    Turn c frame done s ((s.computeXyzi c w).1.setHand h (s.computeXyzi c w).2.1)
      (s.computeXyzi c w).2.2 := by
  have hindex : ¬ w.packetIndex ≥ c.maxPacketPerFrame :=
    ((hw.in_frame hh).trans_le hw.short).not_ge
  rw [computeXyzi, if_neg hindex]
  by_cases hchannel : w.channel < c.perPointsNum
  · rw [if_pos hchannel]
    cases hmode : w.returnMode with
    | none => exact turn_reads hw hh heffort hmode
    | some mode => exact turn_point hw hh heffort hmode hchannel rfl rfl
  · rw [if_neg hchannel]
    exact turn_finish hw hh heffort hchannel rfl

lemma turn {e : PoolEvent} {o : List (PoolOutput P)} (hc : c.maxPacketPerFrame ≤ c.handleBufferSize)
    (hw : Works c frame done s) (ht : PoolEvent.ofThread e) (he : s.step c e = some (s', o)) :
    Turn c frame done s s' o := by
  cases ht with
  | parserTakes => exact turn_parserTakes hw he
  | parserHandsOn => exact turn_parserHandsOn hc hw he
  | parserComputes =>
    rw [step] at he
    split at he
    · rename_i hthreads
      split at he
      · rename_i w hp
        obtain ⟨rfl, rfl⟩ := Prod.mk.inj (Option.some.inj he)
        refine turn_computes (h := .parser) hw hp ?_
        funext w
        exact if_pos hthreads
      · cases he
    · cases he
  | handleTakes thread => exact turn_handleTakes hw he
  | handleComputes thread =>
    rw [step] at he
    split at he
    · rename_i w hh
      obtain ⟨rfl, rfl⟩ := Prod.mk.inj (Option.some.inj he)
      exact turn_computes (h := .handle thread) hw hh rfl
    · cases he

end Taggy.ComputePool
