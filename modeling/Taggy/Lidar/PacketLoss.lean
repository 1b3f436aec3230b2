import Mathlib.Data.Nat.ModEq
import Mathlib.Tactic
import Taggy.History.Transducer

/-! How the driver counts lost packets from their sequence numbers. -/

namespace Taggy

structure PacketSeqnumLossMessage where
  lastTotalPackageCount : ℕ := 0
  lastSeqnum : ℕ := 0
  lossCount : ℕ := 0
  startTime : ℕ := 0
  totalLossCount : ℕ := 0
  totalPacketCount : ℕ := 0
  maxSequence : ℕ := 0xFFFFFFFF
  isPacketLoss : Bool := false
  isInit : Bool := false
  deriving DecidableEq

structure LossReport where
  lost : ℕ
  packets : ℕ
  deriving DecidableEq

namespace PacketSeqnumLossMessage

-- The two times are the readings of the microsecond clock when the report is due and when it
-- has been printed.
def report (now later : ℕ) (m : PacketSeqnumLossMessage) :
    PacketSeqnumLossMessage × List LossReport :=
  if m.lossCount ≠ 0 ∧ (now + 2 ^ 32 - m.startTime) % 2 ^ 32 ≥ 1 * 1000 * 1000 then
    ({ m with
        lossCount := 0
        startTime := later
        lastTotalPackageCount := m.totalPacketCount },
      [⟨m.lossCount, (m.totalPacketCount + 2 ^ 64 - m.lastTotalPackageCount) % 2 ^ 64⟩])
  else (m, [])

def diff (seqnum : ℕ) (m : PacketSeqnumLossMessage) : ℕ :=
  if seqnum ≥ m.lastSeqnum then seqnum - m.lastSeqnum
  else (m.maxSequence - m.lastSeqnum) + seqnum + 1

def count (seqnum : ℕ) (m : PacketSeqnumLossMessage) : PacketSeqnumLossMessage :=
  let diff := m.diff seqnum
  let m := { m with
    isPacketLoss := false
    totalPacketCount := (m.totalPacketCount + diff) % 2 ^ 64 }
  if diff > 1 then
    { m with
      lossCount := (m.lossCount + (diff - 1)) % 2 ^ 32
      totalLossCount := (m.totalLossCount + (diff - 1)) % 2 ^ 32
      isPacketLoss := true }
  else m

def calPktLoss (enabled : Bool) (now later seqnum : ℕ) (m : PacketSeqnumLossMessage) :
    PacketSeqnumLossMessage × List LossReport :=
  if enabled = false then (m, [])
  else if m.isInit = false then
    ({ m with
        isPacketLoss := false
        lossCount := 0
        totalLossCount := 0
        startTime := now
        lastTotalPackageCount := 0
        totalPacketCount := 0
        lastSeqnum := seqnum
        isInit := true }, [])
  else
    let (m, printed) := (m.count seqnum).report now later
    ({ m with lastSeqnum := seqnum }, printed)

structure Sample where
  now : ℕ
  later : ℕ
  seqnum : ℕ
  deriving DecidableEq

def step (m : PacketSeqnumLossMessage) (i : Sample) : PacketSeqnumLossMessage × List LossReport :=
  m.calPktLoss true i.now i.later i.seqnum

/-- How far each sequence number is ahead of the one before it. -/
def gaps (modulus first : ℕ) (rest : List ℕ) : List ℕ :=
  List.zipWith (fun s s' => (s' + modulus - s) % modulus) (first :: rest) rest

def lost (gaps : List ℕ) : ℕ := (gaps.map (· - 1)).sum

lemma gaps_concat (modulus first s : ℕ) (rest : List ℕ) :
    gaps modulus first (rest ++ [s]) =
      gaps modulus first rest ++ [(s + modulus - rest.getLastD first) % modulus] := by
  induction rest generalizing first with
  | nil => rfl
  | cons s' rest ih =>
    rw [List.getLastD_cons]
    exact congrArg ((s' + modulus - first) % modulus :: ·) (ih s')

lemma diff_eq {m : PacketSeqnumLossMessage} {seqnum : ℕ} (hl : m.lastSeqnum ≤ m.maxSequence)
    (hs : seqnum ≤ m.maxSequence) :
    m.diff seqnum = (seqnum + (m.maxSequence + 1) - m.lastSeqnum) % (m.maxSequence + 1) := by
  rw [diff]
  split
  · rename_i h
    have hm : seqnum + (m.maxSequence + 1) - m.lastSeqnum =
        (seqnum - m.lastSeqnum) + (m.maxSequence + 1) := by omega
    rw [hm, Nat.add_mod_right, Nat.mod_eq_of_lt (by omega)]
  · rw [Nat.mod_eq_of_lt (by omega)]
    omega

/-- The counters of a run: what is still to be reported, and what the reports have said. -/
structure Accounts (gaps : List ℕ) (m : PacketSeqnumLossMessage) (printed : List LossReport) :
    Prop where
  packets : m.totalPacketCount = gaps.sum % 2 ^ 64
  losses : m.totalLossCount = lost gaps % 2 ^ 32
  unreported : (printed.map LossReport.lost).sum + m.lossCount ≡ lost gaps [MOD 2 ^ 32]
  reported : (printed.map LossReport.packets).sum ≡ m.lastTotalPackageCount [MOD 2 ^ 64]
  bounded : m.lastTotalPackageCount < 2 ^ 64

variable {gs : List ℕ} {m : PacketSeqnumLossMessage} {printed : List LossReport}

lemma Accounts.report (ha : Accounts gs m printed) (now later : ℕ) :
    Accounts gs (m.report now later).1 (printed ++ (m.report now later).2) := by
  obtain ⟨hp, hl, hu, hr, hb⟩ := ha
  rw [PacketSeqnumLossMessage.report]
  split
  · have hlt : m.totalPacketCount < 2 ^ 64 := by
      rw [hp]
      exact Nat.mod_lt _ (by norm_num)
    refine ⟨hp, hl, by simpa using hu, ?_, hlt⟩
    rw [List.map_append, List.sum_append, Nat.ModEq] at *
    simp only [List.map_cons, List.map_nil, List.sum_singleton]
    omega
  · rw [List.append_nil]
    exact ⟨hp, hl, hu, hr, hb⟩

lemma Accounts.count (ha : Accounts gs m printed) (seqnum : ℕ) :
    Accounts (gs ++ [m.diff seqnum]) (m.count seqnum) printed := by
  obtain ⟨hp, hl, hu, hr, hb⟩ := ha
  have hlost : lost (gs ++ [m.diff seqnum]) = lost gs + (m.diff seqnum - 1) := by
    simp [lost]
  have hpackets : (m.totalPacketCount + m.diff seqnum) % 2 ^ 64 =
      (gs ++ [m.diff seqnum]).sum % 2 ^ 64 := by
    rw [hp, Nat.mod_add_mod, List.sum_append, List.sum_singleton]
  rw [Nat.ModEq] at hu
  rw [PacketSeqnumLossMessage.count]
  dsimp only
  split
  · refine ⟨hpackets, ?_, ?_, hr, hb⟩
    · rw [hlost, hl, Nat.mod_add_mod]
    · rw [hlost, Nat.ModEq]
      dsimp only
      omega
  · rename_i hd
    have hzero : m.diff seqnum - 1 = 0 := by omega
    rw [hzero, add_zero] at hlost
    exact ⟨hpackets, hlost ▸ hl, hlost ▸ hu, hr, hb⟩

lemma count_frame (seqnum : ℕ) (m : PacketSeqnumLossMessage) :
    (m.count seqnum).maxSequence = m.maxSequence ∧ (m.count seqnum).isInit = m.isInit := by
  rw [count]
  dsimp only
  split <;> exact ⟨rfl, rfl⟩

lemma report_frame (now later : ℕ) (m : PacketSeqnumLossMessage) :
    (m.report now later).1.maxSequence = m.maxSequence ∧
      (m.report now later).1.isInit = m.isInit := by
  rw [report]
  split <;> exact ⟨rfl, rfl⟩

def start (maxSequence : ℕ) : PacketSeqnumLossMessage := { maxSequence := maxSequence }

variable {maxSequence : ℕ} (first : Sample) (rest : List Sample)

lemma step_init {m : PacketSeqnumLossMessage} (hm : m.isInit = true) (i : Sample) :
    step m i = ({ ((m.count i.seqnum).report i.now i.later).1 with lastSeqnum := i.seqnum },
      ((m.count i.seqnum).report i.now i.later).2) := by
  rw [step, calPktLoss, if_neg (by decide), if_neg (by simp [hm])]

structure After (maxSequence : ℕ) (first : Sample) (rest : List Sample)
    (m : PacketSeqnumLossMessage) (printed : List LossReport) : Prop where
  accounts : Accounts (gaps (maxSequence + 1) first.seqnum (rest.map Sample.seqnum)) m printed
  maxSequence : m.maxSequence = maxSequence
  isInit : m.isInit = true
  lastSeqnum : m.lastSeqnum = (rest.map Sample.seqnum).getLastD first.seqnum

lemma After.step {m : PacketSeqnumLossMessage} {printed : List LossReport}
    {first i : Sample} {rest : List Sample} (h : After maxSequence first rest m printed)
    (hl : m.lastSeqnum ≤ maxSequence) (hs : i.seqnum ≤ maxSequence) :
    After maxSequence first (rest ++ [i]) (step m i).1 (printed ++ (step m i).2) := by
  obtain ⟨ha, hmax, hinit, hlast⟩ := h
  subst hmax
  obtain ⟨hcm, hci⟩ := count_frame i.seqnum m
  obtain ⟨hrm, hri⟩ := report_frame i.now i.later (m.count i.seqnum)
  obtain ⟨hp, hlo, hu, hr, hb⟩ := (ha.count i.seqnum).report i.now i.later
  have hgaps : gaps (m.maxSequence + 1) first.seqnum ((rest ++ [i]).map Sample.seqnum) =
      gaps (m.maxSequence + 1) first.seqnum (rest.map Sample.seqnum) ++ [m.diff i.seqnum] := by
    rw [diff_eq hl hs, hlast, List.map_append]
    exact gaps_concat _ _ _ _
  rw [step_init hinit]
  refine ⟨?_, hrm.trans hcm, hri.trans (hci.trans hinit), ?_⟩
  · rw [hgaps]
    exact ⟨hp, hlo, hu, hr, hb⟩
  · rw [List.map_append]
    exact List.getLastD_concat.symm

lemma after_run (hs : ∀ i ∈ first :: rest, i.seqnum ≤ maxSequence) :
    After maxSequence first rest (Transducer.after step (start maxSequence) (first :: rest))
      (Transducer.outputs step (start maxSequence) (first :: rest)) := by
  induction rest using List.reverseRecOn with
  | nil => exact ⟨⟨rfl, rfl, rfl, rfl, by change 0 < 2 ^ 64; norm_num⟩, rfl, rfl, rfl⟩
  | append_singleton rest i ih =>
    have h := ih fun j hj => hs j (by simp at hj ⊢; tauto)
    have hl : (rest.map Sample.seqnum).getLastD first.seqnum ≤ maxSequence := by
      rw [List.getLastD_map]
      exact hs _ (by
        have hm := List.getLastD_mem_cons (l := rest) (a := first)
        simp at hm ⊢
        tauto)
    rw [← List.cons_append, Transducer.after_concat, Transducer.outputs_concat]
    exact h.step (h.lastSeqnum ▸ hl) (hs i (by simp))

section Gaps

variable {modulus k : ℕ} {ks : List ℕ}

def fresh (gaps : List ℕ) : ℕ := gaps.countP (0 < ·)

lemma lost_add_fresh (gs : List ℕ) : lost gs + fresh gs = gs.sum := by
  induction gs with
  | nil => rfl
  | cons g gs ih =>
    have hl : lost (g :: gs) = (g - 1) + lost gs := rfl
    rw [hl, List.sum_cons, fresh, List.countP_cons, ← ih, fresh]
    split
    · rename_i h
      simp at h
      omega
    · rename_i h
      simp at h
      omega

lemma gap_modEq (hM : 0 < modulus) (k k' : ℕ) :
    (((k' % modulus + modulus - k % modulus) % modulus : ℕ) : ℤ) ≡ k' - k [ZMOD modulus] := by
  have hlt := Nat.mod_lt k hM
  have hcast : ((k' % modulus + modulus - k % modulus : ℕ) : ℤ) =
      (k' : ℤ) % modulus + modulus - (k : ℤ) % modulus := by
    rw [Nat.cast_sub (by omega)]
    push_cast
    rfl
  have hmod : (k' : ℤ) % modulus + modulus - (k : ℤ) % modulus ≡ k' + modulus - k [ZMOD modulus] :=
    ((Int.mod_modEq _ _).add_right _).sub (Int.mod_modEq _ _)
  have hshift : (k' : ℤ) + modulus - k = k' - k + modulus := by ring
  rw [Int.natCast_mod, hcast]
  refine (Int.mod_modEq _ _).trans (hmod.trans ?_)
  rw [hshift]
  exact Int.add_emod_right _ _

lemma gap_eq {k' : ℕ} (hlt : k < k') (hM : k' < k + modulus) :
    (k' % modulus + modulus - k % modulus) % modulus = k' - k := by
  have hpos : 0 < modulus := by omega
  have hmod := gap_modEq hpos k k'
  rw [← Nat.cast_sub hlt.le, Int.natCast_modEq_iff] at hmod
  exact hmod.eq_of_lt_of_lt (Nat.mod_lt _ hpos) (by omega)

lemma sum_gaps_mod (hM : 0 < modulus) (k : ℕ) (ks : List ℕ) :
    ((gaps modulus (k % modulus) (ks.map (· % modulus))).sum : ℤ) ≡
      ks.getLastD k - k [ZMOD modulus] := by
  induction ks generalizing k with
  | nil => simp [gaps]
  | cons k' ks ih =>
    have hgaps : gaps modulus (k % modulus) ((k' :: ks).map (· % modulus)) =
        (k' % modulus + modulus - k % modulus) % modulus ::
          gaps modulus (k' % modulus) (ks.map (· % modulus)) := rfl
    rw [hgaps, List.sum_cons, List.getLastD_cons, Nat.cast_add]
    have hsum := (gap_modEq hM k k').add (ih k')
    rwa [sub_add_sub_comm, add_comm (k' : ℤ), add_sub_add_right_eq_sub] at hsum

lemma gaps_increasing (hc : (k :: ks).IsChain fun a b => a < b ∧ b < a + modulus) :
    (gaps modulus (k % modulus) (ks.map (· % modulus))).sum = ks.getLastD k - k ∧
      fresh (gaps modulus (k % modulus) (ks.map (· % modulus))) = ks.length ∧
      k ≤ ks.getLastD k := by
  induction ks generalizing k with
  | nil => simp [gaps, fresh]
  | cons k' ks ih =>
    rw [List.isChain_cons_cons] at hc
    obtain ⟨⟨hlt, hM⟩, hc⟩ := hc
    have hgaps : gaps modulus (k % modulus) ((k' :: ks).map (· % modulus)) =
        (k' % modulus + modulus - k % modulus) % modulus ::
          gaps modulus (k' % modulus) (ks.map (· % modulus)) := rfl
    obtain ⟨hsum, hfresh, hle⟩ := ih hc
    rw [hgaps, gap_eq hlt hM, List.sum_cons, hsum, List.getLastD_cons, fresh, List.countP_cons]
    refine ⟨by omega, ?_, by omega⟩
    rw [fresh] at hfresh
    rw [hfresh, if_pos (by simpa using hlt), List.length_cons]

end Gaps

/-- What the counters say of packets with the given counts, which arrive with their sequence
numbers in any order: the losses are right modulo the range of the sequence numbers, exact if the
packets arrive in order, and the reports add up to them. -/
structure CountsLost (modulus k : ℕ) (ks : List ℕ) (m : PacketSeqnumLossMessage)
    (printed : List LossReport) : Prop where
  anyOrder : (m.totalLossCount : ℤ) + fresh (gaps modulus (k % modulus) (ks.map (· % modulus))) ≡
    ks.getLastD k - k [ZMOD modulus]
  inOrder : (k :: ks).IsChain (fun a b => a < b ∧ b < a + modulus) →
    m.totalLossCount = (ks.getLastD k - k - ks.length) % 2 ^ 32 ∧
      m.totalPacketCount = (ks.getLastD k - k) % 2 ^ 64
  lost : (printed.map LossReport.lost).sum + m.lossCount ≡ m.totalLossCount [MOD 2 ^ 32]
  packets : (printed.map LossReport.packets).sum ≡ m.lastTotalPackageCount [MOD 2 ^ 64]

theorem counts_lost (hM : maxSequence + 1 ∣ 2 ^ 32) (k : ℕ) (ks : List ℕ)
    (hf : first.seqnum = k % (maxSequence + 1))
    (hr : rest.map Sample.seqnum = ks.map (· % (maxSequence + 1))) :
    CountsLost (maxSequence + 1) k ks
      (Transducer.after step (start maxSequence) (first :: rest))
      (Transducer.outputs step (start maxSequence) (first :: rest)) := by
  have hs : ∀ i ∈ first :: rest, i.seqnum ≤ maxSequence := by
    intro i hi
    rw [← Nat.lt_succ_iff]
    rcases List.mem_cons.mp hi with rfl | hi
    · exact hf ▸ Nat.mod_lt _ (Nat.succ_pos _)
    · have hm := List.mem_map_of_mem (f := Sample.seqnum) hi
      rw [hr] at hm
      obtain ⟨k', -, he⟩ := List.mem_map.mp hm
      exact he ▸ Nat.mod_lt _ (Nat.succ_pos _)
  obtain ⟨⟨hp, hl, hu, hrep, -⟩, -, -, -⟩ := after_run first rest hs
  rw [hf, hr] at hp hl hu
  have hadd := lost_add_fresh
    (gaps (maxSequence + 1) (k % (maxSequence + 1)) (ks.map (· % (maxSequence + 1))))
  refine ⟨?_, ?_, ?_, hrep⟩
  · have hsum := sum_gaps_mod (Nat.succ_pos maxSequence) k ks
    rw [← hadd, Nat.cast_add] at hsum
    refine Int.ModEq.trans (Int.ModEq.add_right _ ?_) hsum
    rw [hl, Int.natCast_modEq_iff]
    exact (Nat.mod_modEq _ _).of_dvd hM
  · intro hc
    obtain ⟨hsum, hfresh, hle⟩ := gaps_increasing hc
    rw [hsum, hfresh] at hadd
    rw [hp, hl, hsum]
    exact ⟨by rw [← hadd, Nat.add_sub_cancel], rfl⟩
  · rw [hl]
    exact hu.trans (Nat.mod_modEq _ _).symm

theorem counts_one_lost :
    CountsLost (0xFFFF + 1) 65534 [65535, 65537]
      (Transducer.after step (start 0xFFFF) [⟨0, 0, 65534⟩, ⟨10, 10, 65535⟩, ⟨20, 20, 1⟩])
      (Transducer.outputs step (start 0xFFFF) [⟨0, 0, 65534⟩, ⟨10, 10, 65535⟩, ⟨20, 20, 1⟩]) :=
  counts_lost ⟨0, 0, 65534⟩ [⟨10, 10, 65535⟩, ⟨20, 20, 1⟩] (by decide) 65534 [65535, 65537] rfl rfl

end PacketSeqnumLossMessage

end Taggy
