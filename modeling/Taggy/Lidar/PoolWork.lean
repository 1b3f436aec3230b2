import Mathlib.Algebra.BigOperators.Group.Finset.Basic
import Mathlib.Algebra.Order.BigOperators.Group.Finset
import Taggy.Lidar.ComputePool

/-! What is in the hands of the threads and in their buffers, summed up with any weights. -/

namespace Taggy.ComputePool

variable {P : Type} {c : PoolConfig P} {s : ComputePool P} {w : Work}

inductive Hand where
  | parser
  | handle (thread : ℕ)

def Hand.Within (c : PoolConfig P) : Hand → Prop
  | .parser => True
  | .handle thread => thread < c.handleThreadCount

def hand (s : ComputePool P) : Hand → Option Work
  | .parser => s.parserThread
  | .handle thread => s.handleThread thread

def setHand : Hand → Option Work → ComputePool P → ComputePool P
  | .parser, w, s => { s with parserThread := w }
  | .handle thread, w, s => { s with handleThread := Function.update s.handleThread thread w }

lemma hand_setHand_self (h : Hand) (w : Option Work) (s : ComputePool P) :
    (s.setHand h w).hand h = w := by
  cases h with
  | parser => rfl
  | handle thread => exact Function.update_self _ _ _

lemma hand_setHand_of_ne {h u : Hand} (hu : u ≠ h) (w : Option Work) (s : ComputePool P) :
    (s.setHand h w).hand u = s.hand u := by
  cases h with
  | parser =>
    cases u with
    | parser => exact (hu rfl).elim
    | handle thread => rfl
  | handle thread =>
    cases u with
    | parser => rfl
    | handle other => exact Function.update_of_ne (fun heq => hu (congrArg Hand.handle heq)) _ _

/-- The weights of a packet that waits for the parser thread, that it has in its hand, that waits
for a handle thread and that this has in its hand. -/
structure Weight (M : Type) where
  decoded : ℕ → M
  parser : Work → M
  buffered : ℕ → M
  handle : Work → M

namespace Weight

variable {M N : Type} [AddCommMonoid M] [AddCommMonoid N] (v : Weight M)

def hand : Hand → Work → M
  | .parser => v.parser
  | .handle _ => v.handle

def total (c : PoolConfig P) (s : ComputePool P) : M :=
  (s.decodedPacketsBuffer.map v.decoded).sum + s.parserThread.elim 0 v.parser +
    ∑ thread ∈ Finset.range c.handleThreadCount, (s.handleThread thread).elim 0 v.handle +
    ∑ thread ∈ Finset.range c.handleThreadCount,
      ((s.handleThreadPacketBuffer thread).map v.buffered).sum

lemma sum_range_update {α : Type} (f : α → M) (g : ℕ → α) {n thread : ℕ} (ht : thread < n) (a : α) :
    ∑ u ∈ Finset.range n, f (Function.update g thread a u) + f (g thread) =
      ∑ u ∈ Finset.range n, f (g u) + f a := by
  have hother : ∑ u ∈ (Finset.range n).erase thread, f (Function.update g thread a u) =
      ∑ u ∈ (Finset.range n).erase thread, f (g u) :=
    Finset.sum_congr rfl fun u hu => by rw [Function.update_of_ne (Finset.ne_of_mem_erase hu)]
  rw [← Finset.add_sum_erase _ (fun u => f (Function.update g thread a u))
    (Finset.mem_range.mpr ht), ← Finset.add_sum_erase _ (fun u => f (g u))
    (Finset.mem_range.mpr ht), hother, Function.update_self]
  abel

lemma total_setHand {h : Hand} (hh : h.Within c) (w : Option Work) (s : ComputePool P) :
    v.total c (s.setHand h w) + (s.hand h).elim 0 (v.hand h) =
      v.total c s + w.elim 0 (v.hand h) := by
  cases h with
  | parser =>
    rw [total, total, setHand, ComputePool.hand, Weight.hand]
    dsimp only
    abel
  | handle thread =>
    have hsum := sum_range_update (fun w => Option.elim w 0 v.handle) s.handleThread hh w
    rw [total, total, setHand, ComputePool.hand, Weight.hand]
    dsimp only
    rw [add_right_comm, add_right_comm _ _ (w.elim 0 v.handle)]
    congr 1
    rw [add_assoc, hsum, ← add_assoc]

structure Same (s t : ComputePool P) : Prop where
  decoded : t.decodedPacketsBuffer = s.decodedPacketsBuffer
  parser : t.parserThread = s.parserThread
  handle : t.handleThread = s.handleThread
  buffered : t.handleThreadPacketBuffer = s.handleThreadPacketBuffer

lemma total_same {t : ComputePool P} (h : Same s t) : v.total c t = v.total c s := by
  rw [total, total, h.decoded, h.parser, h.handle, h.buffered]

def map (f : M →+ N) : Weight N where
  decoded i := f (v.decoded i)
  parser w := f (v.parser w)
  buffered i := f (v.buffered i)
  handle w := f (v.handle w)

lemma elim_map (f : M →+ N) (g : Work → M) (w : Option Work) :
    f (w.elim 0 g) = w.elim 0 fun w => f (g w) := by
  cases w with
  | none => exact map_zero f
  | some w => rfl

lemma map_total (f : M →+ N) (c : PoolConfig P) (s : ComputePool P) :
    f (v.total c s) = (v.map f).total c s := by
  simp only [total, map, map_add, map_sum, map_list_sum, List.map_map, elim_map]
  rfl

end Weight

section Takes

variable {M : Type} [AddCancelCommMonoid M] (v : Weight M) {thread i : ℕ} {rest : List ℕ}

lemma Weight.total_parserTakes (hp : s.parserThread = none)
    (hd : s.decodedPacketsBuffer = i :: rest) :
    v.total c { s with
        parserThread := some { packetIndex := i }
        decodedPacketsBuffer := rest } + v.decoded i =
      v.total c s + v.parser { packetIndex := i } := by
  rw [total, total, hp, hd, List.map_cons, List.sum_cons]
  dsimp only
  rw [Option.elim_some, Option.elim_none]
  abel

lemma Weight.total_parserHandsOn (ht : thread < c.handleThreadCount)
    (hp : s.parserThread = some w) :
    v.total c { s with
        parserThread := none
        handleThreadPacketBuffer := Function.update s.handleThreadPacketBuffer thread
          (s.handleThreadPacketBuffer thread ++ [i])
        nUdpCount := thread + 1 } + v.parser w = v.total c s + v.buffered i := by
  have hsum := sum_range_update (fun buffer => (List.map v.buffered buffer).sum)
    s.handleThreadPacketBuffer ht (s.handleThreadPacketBuffer thread ++ [i])
  rw [List.map_append, List.sum_append, List.map_singleton, List.sum_singleton,
    add_comm _ (v.buffered i), ← add_assoc] at hsum
  rw [total, total, hp]
  dsimp only
  rw [add_right_cancel hsum, Option.elim_some, Option.elim_none]
  abel

lemma Weight.total_handleTakes (ht : thread < c.handleThreadCount)
    (hh : s.handleThread thread = none) (hb : s.handleThreadPacketBuffer thread = i :: rest) :
    v.total c { s with
        handleThread := Function.update s.handleThread thread (some { packetIndex := i })
        handleThreadPacketBuffer := Function.update s.handleThreadPacketBuffer thread rest } +
          v.buffered i = v.total c s + v.handle { packetIndex := i } := by
  have hhands := sum_range_update (fun w => Option.elim w 0 v.handle) s.handleThread ht
    (some { packetIndex := i })
  have hbuffers := sum_range_update (fun buffer => (List.map v.buffered buffer).sum)
    s.handleThreadPacketBuffer ht rest
  rw [hh, Option.elim_some, Option.elim_none, add_zero] at hhands
  rw [hb, List.map_cons, List.sum_cons, ← add_assoc] at hbuffers
  rw [total, total]
  dsimp only
  rw [hhands, ← add_right_cancel hbuffers]
  abel

end Takes

lemma elim_le {f g : Work → ℕ} (h : ∀ w, f w ≤ g w) (w : Option Work) :
    w.elim 0 f ≤ w.elim 0 g := by
  cases w with
  | none => exact le_rfl
  | some w => exact h w

lemma Weight.total_le {v u : Weight ℕ} (hdecoded : ∀ i, v.decoded i ≤ u.decoded i)
    (hparser : ∀ w, v.parser w ≤ u.parser w) (hbuffered : ∀ i, v.buffered i ≤ u.buffered i)
    (hhandle : ∀ w, v.handle w ≤ u.handle w) (c : PoolConfig P) (s : ComputePool P) :
    v.total c s ≤ u.total c s := by
  refine Nat.add_le_add (Nat.add_le_add (Nat.add_le_add ?_ (elim_le hparser _)) ?_) ?_
  · exact List.sum_le_sum fun i _ => hdecoded i
  · exact Finset.sum_le_sum fun thread _ => elim_le hhandle _
  · exact Finset.sum_le_sum fun thread _ => List.sum_le_sum fun i _ => hbuffered i

section Inflight

def index : Weight (Multiset ℕ) where
  decoded i := {i}
  parser w := {w.packetIndex}
  buffered i := {i}
  handle w := {w.packetIndex}

lemma index_hand (h : Hand) (w : Work) : index.hand h w = {w.packetIndex} := by
  cases h <;> rfl

/-- The packets whose points are still to be computed. -/
def inflight (c : PoolConfig P) (s : ComputePool P) : Multiset ℕ := index.total c s

lemma inflight_hand {h : Hand} (hh : h.Within c) (hw : s.hand h = some w) :
    inflight c (s.setHand h none) + {w.packetIndex} = inflight c s := by
  have htotal := index.total_setHand hh none s
  rwa [hw, Option.elim_some, index_hand, Option.elim_none, add_zero] at htotal

lemma mem_inflight {h : Hand} (hh : h.Within c) (hw : s.hand h = some w) :
    w.packetIndex ∈ inflight c s := by
  rw [← inflight_hand hh hw]
  exact Multiset.mem_add.mpr (Or.inr (Multiset.mem_singleton_self _))

lemma hand_ne {h u : Hand} {w' : Work} (hn : (inflight c s).Nodup) (hh : h.Within c)
    (hu : u.Within c) (hne : u ≠ h) (hw : s.hand h = some w) (hw' : s.hand u = some w') :
    w'.packetIndex ≠ w.packetIndex := by
  have hkept : (s.setHand h none).hand u = some w' := (hand_setHand_of_ne hne _ _).trans hw'
  rw [← inflight_hand hh hw, Multiset.add_comm, Multiset.singleton_add,
    Multiset.nodup_cons] at hn
  exact fun heq => hn.1 (heq ▸ mem_inflight hu hkept)

/-- No packet is dropped from a buffer as long as so many may be in it. -/
lemma buffer_length_lt {h : Hand} (hh : h.Within c) (hw : s.hand h = some w) {thread : ℕ}
    (ht : thread < c.handleThreadCount) :
    (s.handleThreadPacketBuffer thread).length < (inflight c s).card := by
  have hbuffered : ((s.handleThreadPacketBuffer thread) : Multiset ℕ) ≤
      inflight c (s.setHand h none) := by
    have hsum : ∀ l : List ℕ, (l.map index.buffered).sum = ↑l := by
      intro l
      exact (Multiset.sum_map_singleton (↑l : Multiset ℕ))
    have hbuffer : (s.setHand h none).handleThreadPacketBuffer = s.handleThreadPacketBuffer := by
      cases h <;> rfl
    rw [inflight, Weight.total, hbuffer, ← hsum]
    refine le_trans ?_ (Multiset.le_add_left _ _)
    exact Finset.single_le_sum (f := fun thread =>
      ((s.handleThreadPacketBuffer thread).map index.buffered).sum) (fun _ _ => Multiset.zero_le _)
      (Finset.mem_range.mpr ht)
  have hcard := Multiset.card_le_card hbuffered
  rw [← inflight_hand hh hw, Multiset.card_add, Multiset.card_singleton]
  exact Nat.lt_succ_of_le hcard

end Inflight

section Effort

/-- How many turns a thread may still need for the packet that it has in its hand. -/
def effort (c : PoolConfig P) (w : Work) : ℕ :=
  2 * (c.perPointsNum - w.channel) + (if w.returnMode.isNone then 1 else 0) + 1

lemma effort_le (c : PoolConfig P) (w : Work) : effort c w ≤ 2 * c.perPointsNum + 2 := by
  rw [effort]
  split <;> omega

def turnsLeft (c : PoolConfig P) : Weight ℕ where
  decoded _ := 2 * c.perPointsNum + 5
  parser w := if c.handleThreadCount < 2 then effort c w else 2 * c.perPointsNum + 4
  buffered _ := 2 * c.perPointsNum + 3
  handle w := effort c w

def work (c : PoolConfig P) (s : ComputePool P) : ℕ := (turnsLeft c).total c s

lemma work_le (c : PoolConfig P) (s : ComputePool P) :
    work c s ≤ (2 * c.perPointsNum + 5) * (inflight c s).card := by
  have hcard := index.map_total
    ((AddMonoidHom.mulLeft (2 * c.perPointsNum + 5)).comp Multiset.cardHom) c s
  refine le_trans (Weight.total_le (fun _ => ?_) (fun w => ?_) (fun _ => ?_) (fun w => ?_) c s)
    hcard.ge
  all_goals change _ ≤ (2 * c.perPointsNum + 5) * 1
  all_goals rw [mul_one]
  · exact le_rfl
  · have heffort := effort_le c w
    rw [turnsLeft]
    dsimp only
    split <;> omega
  · exact Nat.add_le_add_left (by decide) _
  · exact (effort_le c w).trans (Nat.add_le_add_left (by decide) _)

end Effort

end Taggy.ComputePool
