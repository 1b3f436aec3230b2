import Taggy.Lidar.ComputePool

/-! The points of a packet, and how the loop moves the points of a frame together. -/

namespace Taggy.ComputePool

variable {P : Type} {c : PoolConfig P} {row : PacketRow} {window : List ComputeParam} {k : ℕ}
  {mode : Option ℕ} {pts : List P}

/-- The points that a thread can have computed of the channels before this one, where each reading
finds one of the parameters of the window, and the return mode that it has read for the block. -/
inductive Computes (c : PoolConfig P) (row : PacketRow) (window : List ComputeParam) :
    ℕ → Option ℕ → List P → Prop
  | start : Computes c row window 0 none []
  | reads {k : ℕ} {pts : List P} {p : ComputeParam} : Computes c row window k none pts →
      p ∈ window → Computes c row window k (some p.returnMode) pts
  | point {k mode : ℕ} {pts : List P} {p : ComputeParam} :
      Computes c row window k (some mode) pts → p ∈ window →
      Computes c row window (k + 1) (if (k + 1) % c.laserNum = 0 then none else some mode)
        (pts ++ (c.point p.forward mode row k).toList)

lemma Computes.length_le (h : Computes c row window k mode pts) : pts.length ≤ k := by
  induction h with
  | start => exact le_rfl
  | reads _ _ ih => exact ih
  | point _ _ ih =>
    rw [List.length_append]
    exact Nat.add_le_add ih (Option.length_toList_le)

lemma Computes.mono {window' : List ComputeParam} (h : Computes c row window k mode pts)
    (hsub : window ⊆ window') : Computes c row window' k mode pts := by
  induction h with
  | start => exact .start
  | reads _ hp ih => exact .reads ih (hsub hp)
  | point _ hp ih => exact .point ih (hsub hp)

def Points (c : PoolConfig P) (row : PacketRow) (window : List ComputeParam)
    (pts : List P) : Prop :=
  ∃ mode, Computes c row window c.perPointsNum mode pts

def rowPoints (c : PoolConfig P) (p : ComputeParam) (row : PacketRow) : List P :=
  (List.range c.perPointsNum).filterMap (c.point p.forward p.returnMode row)

/-- All parameters of the window mean the same to the threads. -/
def Steady (window : List ComputeParam) (p : ComputeParam) : Prop :=
  ∀ q ∈ window, q.forward = p.forward ∧ q.returnMode = p.returnMode

lemma Computes.steady {p : ComputeParam} (hs : Steady window p)
    (h : Computes c row window k mode pts) :
    (∀ m ∈ mode, m = p.returnMode) ∧
      pts = (List.range k).filterMap (c.point p.forward p.returnMode row) := by
  induction h with
  | start => exact ⟨fun m hm => (Option.not_mem_none m hm).elim, rfl⟩
  | reads _ hp ih =>
    refine ⟨fun m hm => ?_, ih.2⟩
    rw [← Option.mem_some.mp hm]
    exact (hs _ hp).2
  | @point k m pts q _ hq ih =>
    obtain ⟨hm, hpts⟩ := ih
    have hmode : m = p.returnMode := hm m rfl
    refine ⟨fun m' hm' => ?_, ?_⟩
    · split at hm'
      · cases hm'
      · rw [← Option.mem_some.mp hm', hmode]
    · rw [hpts, hmode, (hs q hq).1, List.range_succ, List.filterMap_append]
      congr 1

lemma Points.steady {p : ComputeParam} (hs : Steady window p) (h : Points c row window pts) :
    pts = rowPoints c p row := by
  obtain ⟨mode, h⟩ := h
  exact (h.steady hs).2

lemma Points.length_le (h : Points c row window pts) : pts.length ≤ c.perPointsNum := by
  obtain ⟨mode, h⟩ := h
  exact h.length_le

section Gather

variable {perPointsNum i : ℕ} {validPoints : ℕ → ℕ} {points : ℕ → P}

/-- The points stand where the row of the packet begins. -/
def InPlace (perPointsNum : ℕ) (points : ℕ → P) (i : ℕ) (pts : List P) : Prop :=
  ∀ j p, pts[j]? = some p → points (i * perPointsNum + j) = p

lemma InPlace.append {p : P} (h : InPlace perPointsNum points i pts) :
    InPlace perPointsNum (Function.update points (i * perPointsNum + pts.length) p) i
      (pts ++ [p]) := by
  intro j q hq
  rcases Nat.lt_or_ge j pts.length with hj | hj
  · rw [List.getElem?_append_left hj] at hq
    rw [Function.update_of_ne (by omega)]
    exact h j q hq
  · rw [List.getElem?_append_right hj, List.getElem?_singleton] at hq
    split at hq
    · rename_i hzero
      rw [show j = pts.length by omega, Function.update_self]
      exact Option.some.inj hq
    · cases hq

lemma InPlace.update {l n : ℕ} {p : P} (h : InPlace perPointsNum points i pts)
    (hpts : pts.length ≤ perPointsNum) (hl : l ≠ i) (hn : n < perPointsNum) :
    InPlace perPointsNum (Function.update points (l * perPointsNum + n) p) i pts := by
  intro j q hq
  have hj : j < perPointsNum := (List.getElem?_eq_some_iff.mp hq).1.trans_le hpts
  rw [Function.update_of_ne ?_]
  · exact h j q hq
  · intro heq
    apply hl
    have hpos : 0 < perPointsNum := Nat.zero_lt_of_lt hn
    have hdiv := congrArg (· / perPointsNum) heq
    simp only [Nat.add_comm (_ * perPointsNum), Nat.add_mul_div_right _ _ hpos,
      Nat.div_eq_of_lt hj, Nat.div_eq_of_lt hn, Nat.zero_add] at hdiv
    exact hdiv.symm

structure Filled (perPointsNum : ℕ) (validPoints : ℕ → ℕ) (points : ℕ → P) (i : ℕ)
    (pts : List P) : Prop where
  valid : validPoints i = pts.length
  inPlace : InPlace perPointsNum points i pts

lemma moved_spec {dst src : ℕ} (count : ℕ) (hle : dst ≤ src) (points : ℕ → P) :
    ∃ moved, (if dst ≠ src then memcpy dst src count points else points) = moved ∧
      (∀ k < dst, moved k = points k) ∧ (∀ j < count, moved (dst + j) = points (src + j)) ∧
      ∀ k, src + count ≤ k → moved k = points k := by
  refine ⟨_, rfl, ?_, ?_, ?_⟩
  · intro k hk
    split
    · rw [memcpy, if_neg (by omega)]
    · rfl
  · intro j hj
    split
    · rw [memcpy, if_pos (by omega), Nat.add_sub_cancel_left]
    · rename_i heq
      rw [not_not.mp heq]
  · intro k hk
    split
    · rw [memcpy, if_neg (by omega)]
    · rfl

lemma gatherPoints_spec {rows : List (List P)} (hrows : ∀ pts ∈ rows, pts.length ≤ perPointsNum)
    (hfilled : ∀ i pts, rows[i]? = some pts → Filled perPointsNum validPoints points i pts)
    (hi : i ≤ rows.length) :
    (gatherPoints perPointsNum validPoints points i).2 ≤ i * perPointsNum ∧
      (List.range (gatherPoints perPointsNum validPoints points i).2).map
        (gatherPoints perPointsNum validPoints points i).1 = (rows.take i).flatten ∧
      ∀ k, i * perPointsNum ≤ k →
        (gatherPoints perPointsNum validPoints points i).1 k = points k := by
  induction i with
  | zero => exact ⟨Nat.zero_le _, rfl, fun _ _ => rfl⟩
  | succ i ih =>
    obtain ⟨hle, hgathered, hrest⟩ := ih (Nat.le_of_succ_le hi)
    have hget : rows[i]? = some rows[i] := List.getElem?_eq_getElem hi
    obtain ⟨hvalid, hpoints⟩ := hfilled i rows[i] hget
    have hlen := hrows rows[i] (List.getElem_mem hi)
    rw [gatherPoints]
    generalize gatherPoints perPointsNum validPoints points i = gathered at hle hgathered hrest ⊢
    obtain ⟨moving, num⟩ := gathered
    dsimp only at hle hgathered hrest ⊢
    obtain ⟨moved, hmoved, hbefore, hinside, hafter⟩ :=
      moved_spec (validPoints i) hle moving
    rw [hmoved, Nat.succ_mul]
    refine ⟨by omega, ?_, fun k hk => ?_⟩
    · rw [List.range_add, List.map_append, List.map_map, List.take_succ_eq_append_getElem hi,
        List.flatten_append, List.flatten_singleton, ← hgathered]
      congr 1
      · exact List.map_congr_left fun k hk => hbefore k (List.mem_range.mp hk)
      · rw [hvalid]
        apply List.ext_getElem
        · simp
        · intro j hj hj'
          rw [List.getElem_map, List.getElem_range, Function.comp_apply,
            hinside j (by rwa [hvalid]), hrest _ (Nat.le_add_right _ _)]
          exact hpoints j _ (List.getElem?_eq_getElem hj')
    · rw [hafter k (by omega), hrest k (by omega)]

end Gather

end Taggy.ComputePool
