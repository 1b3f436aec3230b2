import Mathlib.Data.Int.Basic
import Mathlib.Tactic
import Taggy.History.Transducer

/-! Where the driver cuts the packets of a turning lidar into frames. -/

namespace Taggy

section Circle
variable {C θ s d : ℤ}

lemma ediv_sub_eq (hs : 0 ≤ s) (hsC : s < C) (θ : ℤ) :
    (θ - s) / C = θ / C - if θ % C < s then 1 else 0 := by
  have hC : 0 < C := hs.trans_lt hsC
  have he := Int.mul_ediv_add_emod θ C
  have hlo := Int.emod_nonneg θ hC.ne'
  have hhi := Int.emod_lt_of_pos θ hC
  split
  · rename_i h
    have : θ - s = (θ % C - s + C) + C * (θ / C - 1) := by linear_combination -he
    rw [this, Int.add_mul_ediv_left _ _ hC.ne', Int.ediv_eq_zero_of_lt (by omega) (by omega)]
    ring
  · rename_i h
    have : θ - s = (θ % C - s) + C * (θ / C) := by linear_combination -he
    rw [this, Int.add_mul_ediv_left _ _ hC.ne', Int.ediv_eq_zero_of_lt (by omega) (by omega)]
    ring

lemma sub_ediv_eq (hs : 0 ≤ s) (hsC : s < C) (θ : ℤ) :
    (s - θ) / C = -(θ / C) - if s < θ % C then 1 else 0 := by
  have hC : 0 < C := hs.trans_lt hsC
  have he := Int.mul_ediv_add_emod θ C
  have hlo := Int.emod_nonneg θ hC.ne'
  have hhi := Int.emod_lt_of_pos θ hC
  split
  · rename_i h
    have : s - θ = (s - θ % C + C) + C * (-(θ / C) - 1) := by linear_combination he
    rw [this, Int.add_mul_ediv_left _ _ hC.ne', Int.ediv_eq_zero_of_lt (by omega) (by omega)]
    ring
  · rename_i h
    have : s - θ = (s - θ % C) + C * -(θ / C) := by linear_combination he
    rw [this, Int.add_mul_ediv_left _ _ hC.ne', Int.ediv_eq_zero_of_lt (by omega) (by omega)]
    ring

lemma emod_add_cases (hd : 0 ≤ d) (hdC : d < C) (θ : ℤ) :
    ((θ + d) % C = θ % C + d ∧ (θ + d) / C = θ / C) ∨
      ((θ + d) % C = θ % C + d - C ∧ (θ + d) / C = θ / C + 1) := by
  have hC : 0 < C := hd.trans_lt hdC
  have hlo := Int.emod_nonneg θ hC.ne'
  have hhi := Int.emod_lt_of_pos θ hC
  have he := Int.mul_ediv_add_emod θ C
  by_cases h : θ % C + d < C
  · have : θ + d = (θ % C + d) + C * (θ / C) := by linear_combination -he
    left
    rw [this, Int.add_mul_emod_self_left, Int.add_mul_ediv_left _ _ hC.ne',
      Int.emod_eq_of_lt (by omega) h, Int.ediv_eq_zero_of_lt (by omega) h]
    exact ⟨rfl, zero_add _⟩
  · have : θ + d = (θ % C + d - C) + C * (θ / C + 1) := by linear_combination -he
    right
    rw [this, Int.add_mul_emod_self_left, Int.add_mul_ediv_left _ _ hC.ne',
      Int.emod_eq_of_lt (by omega) (by omega), Int.ediv_eq_zero_of_lt (by omega) (by omega)]
    exact ⟨rfl, zero_add _⟩

end Circle

structure FrameSplitter where
  lastAzimuth : ℤ := 0
  lastLastAzimuth : ℤ := 0
  frameStartAzimuth : ℤ
  rotationFlag : ℤ := 0
  deriving DecidableEq

namespace FrameSplitter

def updateRotation (rotation : ℤ) (p : FrameSplitter) : FrameSplitter :=
  if |p.rotationFlag| = 10240 then p
  else
    let flag := if 128 * 8 < |p.rotationFlag| then p.rotationFlag.tdiv 128 else p.rotationFlag
    { p with rotationFlag := flag + rotation }

def division (azimuth : ℤ) (p : FrameSplitter) : ℤ :=
  let division1 := |p.lastAzimuth - p.lastLastAzimuth|
  let division2 := |p.lastAzimuth - azimuth|
  if division1 > division2 then division2 else division1

def reversed (azimuth : ℤ) (p : FrameSplitter) : Bool :=
  p.lastLastAzimuth - p.lastAzimuth = p.division azimuth ∨
    p.lastAzimuth - azimuth = p.division azimuth

def crosses (azimuth : ℤ) (p : FrameSplitter) : Bool :=
  if p.rotationFlag > 0 then
    if p.lastAzimuth - azimuth > p.division azimuth then
      p.frameStartAzimuth > p.lastAzimuth ∨ p.frameStartAzimuth ≤ azimuth
    else
      p.lastAzimuth < azimuth ∧ p.lastAzimuth < p.frameStartAzimuth ∧
        azimuth ≥ p.frameStartAzimuth
  else
    if azimuth - p.lastAzimuth > p.division azimuth then
      p.frameStartAzimuth < p.lastAzimuth ∨ p.frameStartAzimuth ≥ azimuth
    else
      p.lastAzimuth > azimuth ∧ p.lastAzimuth > p.frameStartAzimuth ∧
        azimuth ≤ p.frameStartAzimuth

-- The test for -1 never fires: both azimuths start at zero.
def isNeedFrameSplit (azimuth : ℤ) (p : FrameSplitter) : FrameSplitter × Bool :=
  if p.lastLastAzimuth = -1 then (p, false)
  else if p.division azimuth = 0 then (p, false)
  else
    let p := p.updateRotation (if p.reversed azimuth then -1 else 1)
    (p, p.crosses azimuth)

-- What every parser of a turning lidar does with the azimuth of a packet.
def observe (p : FrameSplitter) (azimuth : ℤ) : FrameSplitter × Bool :=
  let (p, split) := p.isNeedFrameSplit azimuth
  if azimuth ≠ p.lastAzimuth then
    ({ p with lastLastAzimuth := p.lastAzimuth, lastAzimuth := azimuth }, split)
  else (p, split)

def step (p : FrameSplitter) (azimuth : ℤ) : FrameSplitter × List Bool :=
  ((p.observe azimuth).1, [(p.observe azimuth).2])

lemma outputs_length (p : FrameSplitter) (azimuths : List ℤ) :
    (Transducer.outputs step p azimuths).length = azimuths.length := by
  induction azimuths using List.reverseRecOn with
  | nil => rfl
  | append_singleton azimuths azimuth ih =>
    rw [Transducer.outputs_concat, List.length_append, ih, List.length_append]
    rfl

lemma updateRotation_pos {p : FrameSplitter} (h : 0 ≤ p.rotationFlag) :
    0 < (p.updateRotation 1).rotationFlag := by
  rw [updateRotation]
  split
  · rename_i he
    rw [abs_of_nonneg h] at he
    omega
  · have ht : 0 ≤ p.rotationFlag.tdiv 128 := Int.tdiv_nonneg h (by norm_num)
    dsimp only
    split <;> omega

lemma updateRotation_neg {p : FrameSplitter} (h : p.rotationFlag ≤ 0) :
    (p.updateRotation (-1)).rotationFlag < 0 := by
  rw [updateRotation]
  split
  · rename_i he
    rw [abs_of_nonpos h] at he
    omega
  · have ht : p.rotationFlag.tdiv 128 ≤ 0 := by
      rw [← neg_neg p.rotationFlag, Int.neg_tdiv, neg_nonpos]
      exact Int.tdiv_nonneg (neg_nonneg.mpr h) (by norm_num)
    dsimp only
    split <;> omega

def revolution (dir C start θ : ℤ) : ℤ := dir * (θ - start) / C

variable {C d d' az : ℤ} {p : FrameSplitter}

lemma division_cases (azimuth : ℤ) (p : FrameSplitter) :
    ∃ u v, p.division azimuth = (if v < u then v else u) ∧
      (u = p.lastAzimuth - p.lastLastAzimuth ∧ 0 ≤ u ∨
        u = p.lastLastAzimuth - p.lastAzimuth ∧ 0 ≤ u) ∧
      (v = p.lastAzimuth - azimuth ∧ 0 ≤ v ∨ v = azimuth - p.lastAzimuth ∧ 0 ≤ v) := by
  refine ⟨|p.lastAzimuth - p.lastLastAzimuth|, |p.lastAzimuth - azimuth|, rfl, ?_, ?_⟩
  · rcases abs_cases (p.lastAzimuth - p.lastLastAzimuth) with h | h <;> omega
  · rcases abs_cases (p.lastAzimuth - azimuth) with h | h <;> omega

@[simp] lemma updateRotation_azimuth (rotation : ℤ) (p : FrameSplitter) :
    (p.updateRotation rotation).lastAzimuth = p.lastAzimuth ∧
      (p.updateRotation rotation).lastLastAzimuth = p.lastLastAzimuth ∧
      (p.updateRotation rotation).frameStartAzimuth = p.frameStartAzimuth := by
  rw [updateRotation]
  split <;> exact ⟨rfl, rfl, rfl⟩

lemma updateRotation_division (rotation azimuth : ℤ) (p : FrameSplitter) :
    (p.updateRotation rotation).division azimuth = p.division azimuth := by
  obtain ⟨hl, hll, -⟩ := p.updateRotation_azimuth rotation
  rw [division, division, hl, hll]

lemma reversed_forward (hllC : p.lastLastAzimuth < C) (haz : 0 ≤ az) (hd' : 0 < d')
    (hC' : 2 * d' < C) (hd : 0 < d) (hC : 2 * d < C)
    (h' : p.lastAzimuth = p.lastLastAzimuth + d' ∨ p.lastAzimuth = p.lastLastAzimuth + d' - C)
    (h : az = p.lastAzimuth + d ∨ az = p.lastAzimuth + d - C) :
    p.division az ≠ 0 ∧ p.reversed az = false ∧
      (p.division az < p.lastAzimuth - az ↔ az ≤ p.lastAzimuth) := by
  obtain ⟨u, v, hdiv, hu, hv⟩ := p.division_cases az
  rw [reversed, decide_eq_false_iff_not, hdiv]
  split <;> omega

lemma reversed_backward (hll0 : 0 ≤ p.lastLastAzimuth) (haz : az < C) (hd' : 0 < d')
    (hC' : 2 * d' < C) (hd : 0 < d) (hC : 2 * d < C)
    (h' : p.lastLastAzimuth = p.lastAzimuth + d' ∨ p.lastLastAzimuth = p.lastAzimuth + d' - C)
    (h : p.lastAzimuth = az + d ∨ p.lastAzimuth = az + d - C) :
    p.division az ≠ 0 ∧ p.reversed az = true ∧
      (p.division az < az - p.lastAzimuth ↔ p.lastAzimuth ≤ az) := by
  obtain ⟨u, v, hdiv, hu, hv⟩ := p.division_cases az
  rw [reversed, decide_eq_true_eq, hdiv]
  split <;> omega

lemma crosses_forward (hflag : 0 < p.rotationFlag)
    (hw : p.division az < p.lastAzimuth - az ↔ az ≤ p.lastAzimuth) :
    p.crosses az = true ↔
      if p.lastAzimuth < az then p.lastAzimuth < p.frameStartAzimuth ∧ p.frameStartAzimuth ≤ az
      else p.lastAzimuth < p.frameStartAzimuth ∨ p.frameStartAzimuth ≤ az := by
  rw [crosses, if_pos hflag]
  by_cases hle : az ≤ p.lastAzimuth
  · rw [if_pos (hw.mpr hle), if_neg hle.not_gt, decide_eq_true_eq]
  · rw [if_neg (hw.not.mpr hle), if_pos (not_le.mp hle), decide_eq_true_eq]
    omega

lemma crosses_backward (hflag : p.rotationFlag < 0)
    (hw : p.division az < az - p.lastAzimuth ↔ p.lastAzimuth ≤ az) :
    p.crosses az = true ↔
      if az < p.lastAzimuth then p.frameStartAzimuth < p.lastAzimuth ∧ az ≤ p.frameStartAzimuth
      else p.frameStartAzimuth < p.lastAzimuth ∨ az ≤ p.frameStartAzimuth := by
  rw [crosses, if_neg hflag.not_gt]
  by_cases hle : p.lastAzimuth ≤ az
  · rw [if_pos (hw.mpr hle), if_neg hle.not_gt, decide_eq_true_eq]
  · rw [if_neg (hw.not.mpr hle), if_pos (not_le.mp hle), decide_eq_true_eq]
    omega

section Revolution

variable {θ s : ℤ}

lemma revolution_forward (hs : 0 ≤ s) (hsC : s < C) (hd : 0 < d) (hC : d < C) :
    revolution 1 C s θ ≠ revolution 1 C s (θ + d) ↔
      if θ % C < (θ + d) % C then θ % C < s ∧ s ≤ (θ + d) % C
      else θ % C < s ∨ s ≤ (θ + d) % C := by
  rw [revolution, revolution, one_mul, one_mul, ediv_sub_eq hs hsC, ediv_sub_eq hs hsC]
  rcases emod_add_cases hd.le hC θ with ⟨hm, hq⟩ | ⟨hm, hq⟩
  · have hw : θ % C < (θ + d) % C := by omega
    rw [hq, if_pos hw]
    split <;> split <;> omega
  · have hw : ¬ θ % C < (θ + d) % C := by omega
    rw [hq, if_neg hw]
    split <;> split <;> omega

lemma revolution_backward (hs : 0 ≤ s) (hsC : s < C) (hd : 0 < d) (hC : d < C) :
    revolution (-1) C s (θ + d) ≠ revolution (-1) C s θ ↔
      if θ % C < (θ + d) % C then s < (θ + d) % C ∧ θ % C ≤ s
      else s < (θ + d) % C ∨ θ % C ≤ s := by
  rw [revolution, revolution, neg_one_mul, neg_one_mul, neg_sub, neg_sub, sub_ediv_eq hs hsC,
    sub_ediv_eq hs hsC]
  rcases emod_add_cases hd.le hC θ with ⟨hm, hq⟩ | ⟨hm, hq⟩
  · have hw : θ % C < (θ + d) % C := by omega
    rw [hq, if_pos hw]
    split <;> split <;> omega
  · have hw : ¬ θ % C < (θ + d) % C := by omega
    rw [hq, if_neg hw]
    split <;> split <;> omega

end Revolution

lemma observe_same (p : FrameSplitter) : p.observe p.lastAzimuth = (p, false) := by
  have hdiv : p.division p.lastAzimuth = 0 := by
    obtain ⟨u, v, hdiv, hu, hv⟩ := p.division_cases p.lastAzimuth
    rw [hdiv]
    split <;> omega
  rw [observe, isNeedFrameSplit]
  by_cases h : p.lastLastAzimuth = -1
  · simp [h]
  · simp [h, hdiv]

lemma observe_of_ne {rotation : ℤ} {split : Bool} (hne : az ≠ p.lastAzimuth)
    (h : p.isNeedFrameSplit az = (p.updateRotation rotation, split)) :
    p.observe az = ({ p.updateRotation rotation with
      lastLastAzimuth := p.lastAzimuth, lastAzimuth := az }, split) := by
  obtain ⟨hl, -, -⟩ := p.updateRotation_azimuth rotation
  rw [observe, h]
  dsimp only
  rw [if_pos (by rwa [hl]), hl]

/-- The azimuths are those of a lidar that turns in one direction, by less than half a circle from
one packet to the next, and is at the angle. -/
structure Turning (dir C θ : ℤ) (p : FrameSplitter) : Prop where
  last : p.lastAzimuth = θ % C
  lastLast : ∃ d, 0 < d ∧ 2 * d < C ∧ p.lastLastAzimuth = (θ - dir * d) % C
  start_nonneg : 0 ≤ p.frameStartAzimuth
  start_lt : p.frameStartAzimuth < C

variable {dir θ θ' : ℤ}

lemma observe_forward (ht : Turning 1 C θ p) (hd : 0 < d) (hC : 2 * d < C) :
    p.observe ((θ + d) % C) =
        ({ p.updateRotation 1 with
          lastLastAzimuth := p.lastAzimuth, lastAzimuth := (θ + d) % C },
          (p.updateRotation 1).crosses ((θ + d) % C)) ∧
      (0 ≤ p.rotationFlag → (p.updateRotation 1).crosses ((θ + d) % C) =
        decide (revolution 1 C p.frameStartAzimuth θ ≠
          revolution 1 C p.frameStartAzimuth (θ + d))) := by
  obtain ⟨hl, ⟨d', hd', hC', hll⟩, hs, hsC⟩ := ht
  have hC0 : C ≠ 0 := by omega
  have hlo := Int.emod_nonneg (θ + d) hC0
  have hll0 := Int.emod_nonneg (θ - 1 * d') hC0
  have hllC := Int.emod_lt_of_pos (θ - 1 * d') (by omega : 0 < C)
  rw [← hll] at hll0 hllC
  have hprev := emod_add_cases hd'.le (by omega : d' < C) (θ - 1 * d')
  have hθ : θ - 1 * d' + d' = θ := by ring
  rw [hθ, ← hl, ← hll] at hprev
  have hnext := emod_add_cases hd.le (by omega : d < C) θ
  rw [← hl] at hnext
  obtain ⟨hdiv, hrev, hw⟩ := reversed_forward hllC hlo hd' hC' hd hC
    (hprev.imp And.left And.left) (hnext.imp And.left And.left)
  obtain ⟨hul, -, hus⟩ := p.updateRotation_azimuth 1
  refine ⟨?_, fun hflag => ?_⟩
  · apply observe_of_ne (by omega)
    rw [isNeedFrameSplit, if_neg (by omega), if_neg hdiv, hrev]
    rfl
  · have hcross := crosses_forward (p := p.updateRotation 1) (updateRotation_pos hflag)
      (by rwa [updateRotation_division, hul])
    rw [hul, hus, hl] at hcross
    rw [Bool.eq_iff_iff, hcross, decide_eq_true_eq,
      revolution_forward hs hsC hd (by omega : d < C)]

lemma observe_backward (ht : Turning (-1) C (θ + d) p) (hd : 0 < d) (hC : 2 * d < C) :
    p.observe (θ % C) =
        ({ p.updateRotation (-1) with lastLastAzimuth := p.lastAzimuth, lastAzimuth := θ % C },
          (p.updateRotation (-1)).crosses (θ % C)) ∧
      (p.rotationFlag ≤ 0 → (p.updateRotation (-1)).crosses (θ % C) =
        decide (revolution (-1) C p.frameStartAzimuth (θ + d) ≠
          revolution (-1) C p.frameStartAzimuth θ)) := by
  obtain ⟨hl, ⟨d', hd', hC', hll⟩, hs, hsC⟩ := ht
  have hC0 : C ≠ 0 := by omega
  have hlC := Int.emod_lt_of_pos θ (by omega : 0 < C)
  have hll0 := Int.emod_nonneg (θ + d - -1 * d') hC0
  rw [← hll] at hll0
  have hprev := emod_add_cases hd'.le (by omega : d' < C) (θ + d)
  have hθ : θ + d + d' = θ + d - -1 * d' := by ring
  rw [hθ, ← hl, ← hll] at hprev
  have hnext := emod_add_cases hd.le (by omega : d < C) θ
  rw [← hl] at hnext
  obtain ⟨hdiv, hrev, hw⟩ := reversed_backward hll0 hlC hd' hC' hd hC
    (hprev.imp And.left And.left) (hnext.imp And.left And.left)
  obtain ⟨hul, -, hus⟩ := p.updateRotation_azimuth (-1)
  refine ⟨?_, fun hflag => ?_⟩
  · apply observe_of_ne (by omega)
    rw [isNeedFrameSplit, if_neg (by omega), if_neg hdiv, hrev]
    rfl
  · have hcross := crosses_backward (p := p.updateRotation (-1)) (updateRotation_neg hflag)
      (by rwa [updateRotation_division, hul])
    rw [hul, hus, hl] at hcross
    rw [Bool.eq_iff_iff, hcross, decide_eq_true_eq,
      revolution_backward hs hsC hd (by omega : d < C)]

/-- The direction is 1 or -1, and the lidar turns that way by less than half a circle. -/
def Turns (dir C θ θ' : ℤ) : Prop :=
  (dir = 1 ∨ dir = -1) ∧ 0 ≤ dir * (θ' - θ) ∧ 2 * (dir * (θ' - θ)) < C

lemma observe_turning (ht : Turning dir C θ p) (hd : Turns dir C θ θ') (hne : θ ≠ θ') :
    p.observe (θ' % C) =
        ({ p.updateRotation dir with lastLastAzimuth := p.lastAzimuth, lastAzimuth := θ' % C },
          (p.updateRotation dir).crosses (θ' % C)) ∧
      (0 ≤ dir * p.rotationFlag → (p.updateRotation dir).crosses (θ' % C) =
        decide (revolution dir C p.frameStartAzimuth θ ≠
          revolution dir C p.frameStartAzimuth θ')) := by
  obtain ⟨rfl | rfl, hd, hC⟩ := hd
  · obtain ⟨d, rfl⟩ : ∃ d, θ' = θ + d := ⟨θ' - θ, by ring⟩
    obtain ⟨ho, hc⟩ := observe_forward ht (by omega : 0 < d) (by omega)
    exact ⟨ho, fun hflag => hc (by omega)⟩
  · obtain ⟨d, rfl⟩ : ∃ d, θ = θ' + d := ⟨θ - θ', by ring⟩
    obtain ⟨ho, hc⟩ := observe_backward ht (by omega) (by omega)
    exact ⟨ho, fun hflag => hc (by omega)⟩

lemma turning_next (ht : Turning dir C θ p) (hd : Turns dir C θ θ') (hne : θ ≠ θ') :
    Turning dir C θ' (p.observe (θ' % C)).1 ∧
      (p.observe (θ' % C)).1.rotationFlag = (p.updateRotation dir).rotationFlag ∧
      (p.observe (θ' % C)).1.frameStartAzimuth = p.frameStartAzimuth := by
  obtain ⟨-, -, hus⟩ := p.updateRotation_azimuth dir
  rw [(observe_turning ht hd hne).1]
  obtain ⟨hdir, hd, hC⟩ := hd
  refine ⟨⟨rfl, ⟨dir * (θ' - θ), ?_, hC, ?_⟩, hus.symm ▸ ht.start_nonneg,
    hus.symm ▸ ht.start_lt⟩, rfl, hus⟩
  · rcases hdir with rfl | rfl <;> omega
  · have hback : θ' - dir * (dir * (θ' - θ)) = θ := by
      rcases hdir with rfl | rfl <;> ring
    rw [hback]
    exact ht.last

lemma updateRotation_dir (hdir : dir = 1 ∨ dir = -1) (h : 0 ≤ dir * p.rotationFlag) :
    0 ≤ dir * (p.updateRotation dir).rotationFlag := by
  rcases hdir with rfl | rfl
  · have hpos := updateRotation_pos (p := p) (by omega)
    omega
  · have hneg := updateRotation_neg (p := p) (by omega)
    omega

def splits (dir C start θ : ℤ) (angles : List ℤ) : List Bool :=
  List.zipWith (fun θ θ' => decide (revolution dir C start θ ≠ revolution dir C start θ'))
    (θ :: angles) angles

lemma outputs_turning (angles : List ℤ) (ht : Turning dir C θ p) (hf : 0 ≤ dir * p.rotationFlag)
    (hc : (θ :: angles).IsChain (Turns dir C)) :
    Transducer.outputs step p (angles.map (· % C)) =
      splits dir C p.frameStartAzimuth θ angles := by
  induction angles generalizing θ p with
  | nil => rfl
  | cons θ' angles ih =>
    rw [List.isChain_cons_cons] at hc
    change (p.observe (θ' % C)).2 :: Transducer.outputs step (p.observe (θ' % C)).1 _ = _
    by_cases hne : θ = θ'
    · subst hne
      rw [← ht.last, observe_same, ih ht hf hc.2, splits, splits, List.zipWith_cons_cons]
      simp
    · obtain ⟨hnext, hflag, hstart⟩ := turning_next ht hc.1 hne
      rw [ih hnext (hflag ▸ updateRotation_dir hc.1.1 hf) hc.2, hstart,
        (observe_turning ht hc.1 hne).1, (observe_turning ht hc.1 hne).2 hf]
      rfl

lemma revolution_step (hd : Turns dir C θ θ') (start : ℤ) :
    revolution dir C start θ' = revolution dir C start θ ∨
      revolution dir C start θ' = revolution dir C start θ + 1 := by
  obtain ⟨-, hd, hC⟩ := hd
  have hθ : dir * (θ' - start) = dir * (θ - start) + dir * (θ' - θ) := by ring
  rw [revolution, revolution, hθ]
  exact (emod_add_cases hd (by omega) _).imp And.right And.right

lemma count_splits (start : ℤ) (angles : List ℤ) (hc : (θ :: angles).IsChain (Turns dir C)) :
    ((splits dir C start θ angles).count true : ℤ) =
      revolution dir C start (angles.getLastD θ) - revolution dir C start θ := by
  induction angles generalizing θ with
  | nil => simp [splits]
  | cons θ' angles ih =>
    rw [List.isChain_cons_cons] at hc
    have hsplits : splits dir C start θ (θ' :: angles) =
        decide (revolution dir C start θ ≠ revolution dir C start θ') ::
          splits dir C start θ' angles := rfl
    have hlast : (θ' :: angles).getLastD θ = angles.getLastD θ' := by
      cases angles <;> rfl
    rw [hsplits, hlast, List.count_cons, Nat.cast_add, ih hc.2]
    rcases revolution_step hc.1 start with h | h
    · simp [h]
    · simp [h]
      ring

lemma updateRotation_small (h : |p.rotationFlag| ≤ 1) :
    (p.updateRotation dir).rotationFlag = p.rotationFlag + dir := by
  rw [updateRotation, if_neg (by omega), if_neg (by omega)]

lemma observe_first (start a : ℤ) :
    (observe { frameStartAzimuth := start } a).1 =
      { lastAzimuth := a, frameStartAzimuth := start } := by
  have hdiv : division a { frameStartAzimuth := start } = 0 := by
    rw [division]
    simp
  have hsplit : isNeedFrameSplit a { frameStartAzimuth := start } =
      ({ frameStartAzimuth := start }, false) := by
    rw [isNeedFrameSplit, if_neg (by norm_num), if_pos hdiv]
  rw [observe, hsplit]
  by_cases ha : a = 0
  · simp [ha]
  · simp [ha]

-- The initial zeros count as an azimuth, so the second angle may be taken for a step back.
lemma observe_second (start : ℤ) {a a' : ℤ} (hne : a ≠ a') :
    ∃ f, |f| ≤ 1 ∧ (observe { lastAzimuth := a, frameStartAzimuth := start } a').1 =
      { lastAzimuth := a'
        lastLastAzimuth := a
        frameStartAzimuth := start
        rotationFlag := f } := by
  by_cases hdiv : division a' { lastAzimuth := a, frameStartAzimuth := start } = 0
  · refine ⟨0, by norm_num, ?_⟩
    simp [observe, isNeedFrameSplit, hdiv, hne.symm]
  · by_cases hrev : reversed a' { lastAzimuth := a, frameStartAzimuth := start } = true
    · refine ⟨-1, by norm_num, ?_⟩
      simp [observe, isNeedFrameSplit, hdiv, hrev, hne.symm, updateRotation]
    · refine ⟨1, by norm_num, ?_⟩
      simp [observe, isNeedFrameSplit, hdiv, hrev, hne.symm, updateRotation]

lemma emod_ne_of_turns (hd : Turns dir C θ θ') (hne : θ ≠ θ') : θ % C ≠ θ' % C := by
  obtain ⟨hdir, hd, hC⟩ := hd
  rcases hdir with rfl | rfl
  · have hm := emod_add_cases (d := θ' - θ) (C := C) (by omega) (by omega) θ
    rw [add_sub_cancel] at hm
    omega
  · have hm := emod_add_cases (d := θ - θ') (C := C) (by omega) (by omega) θ'
    rw [add_sub_cancel] at hm
    omega

lemma turning_second {start f : ℤ} (hs : 0 ≤ start) (hsC : start < C) (hd : Turns dir C θ θ')
    (hne : θ ≠ θ') : Turning dir C θ' ⟨θ' % C, θ % C, start, f⟩ := by
  obtain ⟨hdir, hd, hC⟩ := hd
  refine ⟨rfl, ⟨dir * (θ' - θ), ?_, hC, ?_⟩, hs, hsC⟩
  · rcases hdir with rfl | rfl <;> omega
  · have hback : θ' - dir * (dir * (θ' - θ)) = θ := by
      rcases hdir with rfl | rfl <;> ring
    rw [hback]

/-- What is known after packets at so many different angles, the last of them at the given one. -/
inductive WarmedUp (dir C start : ℤ) : ℕ → ℤ → FrameSplitter → Prop
  | one (θ : ℤ) : WarmedUp dir C start 1 θ ⟨θ % C, 0, start, 0⟩
  | two {θ θ' f : ℤ} (hd : Turns dir C θ θ') (hne : θ ≠ θ') (hf : |f| ≤ 1) :
      WarmedUp dir C start 2 θ' ⟨θ' % C, θ % C, start, f⟩
  | turning {n : ℕ} {θ : ℤ} {p : FrameSplitter} (hn : 3 ≤ n) (ht : Turning dir C θ p)
      (hf : 0 ≤ dir * p.rotationFlag) (hs : p.frameStartAzimuth = start) :
      WarmedUp dir C start n θ p

variable {start : ℤ} {n : ℕ}

lemma WarmedUp.last (hw : WarmedUp dir C start n θ p) : p.lastAzimuth = θ % C := by
  cases hw with
  | one => rfl
  | two => rfl
  | turning _ ht => exact ht.last

lemma WarmedUp.next (hs : 0 ≤ start) (hsC : start < C) (hw : WarmedUp dir C start n θ p)
    (hd : Turns dir C θ θ') (hne : θ ≠ θ') :
    WarmedUp dir C start (n + 1) θ' (p.observe (θ' % C)).1 := by
  cases hw with
  | one =>
    obtain ⟨f, hf, ho⟩ := observe_second start (emod_ne_of_turns hd hne)
    rw [ho]
    exact .two hd hne hf
  | two hfirst hne' hf =>
    obtain ⟨hturn, hflag, hstart⟩ := turning_next (turning_second hs hsC hfirst hne') hd hne
    rw [updateRotation_small hf] at hflag
    refine .turning le_rfl hturn ?_ hstart
    rw [hflag]
    dsimp only at hf ⊢
    obtain ⟨hlo, hhi⟩ := abs_le.mp hf
    rcases hd.1 with rfl | rfl <;> omega
  | turning hn ht hf hstart =>
    obtain ⟨hturn, hflag, hstart'⟩ := turning_next ht hd hne
    refine .turning (hn.trans (Nat.le_succ _)) hturn ?_ (hstart'.trans hstart)
    rw [hflag]
    exact updateRotation_dir hd.1 hf

lemma notMem_of_turns {first : List ℤ} (hc : (first ++ [θ, θ']).IsChain (Turns dir C))
    (hne : θ ≠ θ') : θ' ∉ first ++ [θ] := by
  have hle : (first ++ [θ, θ']).IsChain fun a b => dir * a ≤ dir * b := by
    refine hc.imp fun a b hab => ?_
    obtain ⟨-, hd, -⟩ := hab
    rw [mul_sub] at hd
    omega
  have hpair := List.isChain_iff_pairwise.mp hle
  have hlast : Turns dir C θ θ' :=
    (List.isChain_cons_cons.mp (List.isChain_split.mp hc).2).1
  have hlt : dir * θ < dir * θ' := by
    obtain ⟨hdir, hd, -⟩ := hlast
    rcases hdir with rfl | rfl <;> omega
  intro hmem
  have hle' : dir * θ' ≤ dir * θ := by
    rcases List.mem_append.mp hmem with h | h
    · exact (List.pairwise_append.mp hpair).2.2 θ' h θ List.mem_cons_self
    · rw [List.mem_singleton.mp h]
  exact hlt.not_ge hle'

lemma warmed_up (hs : 0 ≤ start) (hsC : start < C) (first : List ℤ) (θ : ℤ)
    (hc : (first ++ [θ]).IsChain (Turns dir C)) :
    WarmedUp dir C start (first ++ [θ]).toFinset.card θ
      (Transducer.after step { frameStartAzimuth := start } ((first ++ [θ]).map (· % C))) := by
  induction first using List.reverseRecOn generalizing θ with
  | nil =>
    have ho : Transducer.after step { frameStartAzimuth := start } [θ % C] =
        (observe { frameStartAzimuth := start } (θ % C)).1 := rfl
    change WarmedUp dir C start 1 θ (Transducer.after step _ [θ % C])
    rw [ho, observe_first]
    exact .one θ
  | append_singleton first θ₀ ih =>
    have hsplit : first ++ [θ₀] ++ [θ] = first ++ [θ₀, θ] := List.append_assoc ..
    rw [hsplit] at hc
    have hw := ih θ₀ (List.isChain_split.mp hc).1
    have hd : Turns dir C θ₀ θ := (List.isChain_cons_cons.mp (List.isChain_split.mp hc).2).1
    rw [List.map_append, List.map_singleton, Transducer.after_concat, List.toFinset_append]
    change WarmedUp dir C start _ θ (observe _ (θ % C)).1
    by_cases hne : θ₀ = θ
    · subst hne
      have hcard : (first ++ [θ₀]).toFinset ∪ [θ₀].toFinset = (first ++ [θ₀]).toFinset := by
        apply Finset.union_eq_left.mpr
        simp
      rw [hcard, ← hw.last, observe_same]
      exact hw
    · have hcard : ((first ++ [θ₀]).toFinset ∪ [θ].toFinset).card =
          (first ++ [θ₀]).toFinset.card + 1 := by
        have hnew : θ ∉ (first ++ [θ₀]).toFinset := by
          rw [List.mem_toFinset]
          exact notMem_of_turns hc hne
        rw [Finset.union_comm]
        exact Finset.card_insert_of_notMem hnew
      rw [hcard]
      exact hw.next hs hsC hd hne

lemma outputs_warmed_up {first : List ℤ} (hs : 0 ≤ start) (hsC : start < C)
    (hthree : 3 ≤ (first ++ [θ]).toFinset.card) (angles : List ℤ)
    (hc : (first ++ θ :: angles).IsChain (Turns dir C)) :
    Transducer.outputs step
        (Transducer.after step { frameStartAzimuth := start } ((first ++ [θ]).map (· % C)))
        (angles.map (· % C)) = splits dir C start θ angles := by
  obtain ⟨hfirst, hrest⟩ := List.isChain_split.mp hc
  have hw := warmed_up hs hsC first θ hfirst
  generalize Transducer.after step { frameStartAzimuth := start } ((first ++ [θ]).map (· % C)) = p
    at hw ⊢
  generalize (first ++ [θ]).toFinset.card = n at hthree hw
  cases hw with
  | one => omega
  | two => omega
  | turning hn ht hf hstart =>
    rw [outputs_turning angles ht hf hrest, hstart]

/-- Once three different angles have been seen, a packet is the first of a frame exactly if the
lidar has passed the start of the frame since the packet before, once in each revolution. -/
theorem one_split_per_revolution {first : List ℤ} (hs : 0 ≤ start) (hsC : start < C)
    (hthree : 3 ≤ (first ++ [θ]).toFinset.card) (angles : List ℤ)
    (hc : (first ++ θ :: angles).IsChain (Turns dir C)) :
    Transducer.outputs step
        (Transducer.after step { frameStartAzimuth := start } ((first ++ [θ]).map (· % C)))
        (angles.map (· % C)) = splits dir C start θ angles ∧
      ((splits dir C start θ angles).count true : ℤ) =
        revolution dir C start (angles.getLastD θ) - revolution dir C start θ :=
  ⟨outputs_warmed_up hs hsC hthree angles hc,
    count_splits start angles (List.isChain_split.mp hc).2⟩

theorem one_split_at_zero :
    Transducer.outputs step
        (Transducer.after step { frameStartAzimuth := 0 }
          (([35960, 35960, 35980] ++ [35990]).map (· % (36000 : ℤ))))
        ([36010, 36030].map (· % 36000)) = splits 1 36000 0 35990 [36010, 36030] ∧
      ((splits 1 36000 0 35990 [36010, 36030]).count true : ℤ) =
        revolution 1 36000 0 ([36010, 36030].getLastD 35990) - revolution 1 36000 0 35990 :=
  have hthree : 3 ≤ ([35960, 35960, 35980] ++ [(35990 : ℤ)]).toFinset.card := by decide
  have hc : ([35960, 35960, 35980] ++ 35990 :: [36010, (36030 : ℤ)]).IsChain (Turns 1 36000) := by
    simp [Turns]
  one_split_per_revolution le_rfl (by norm_num) hthree _ hc

end FrameSplitter

end Taggy
