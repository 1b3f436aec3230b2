import Taggy.History.Steps

/-! A latch, read off the history of its inputs: it is set by one kind of input and
reset by another. -/

namespace Taggy.Latch

open History

variable {ι : Type} (set reset : ι → Prop)

def Latched (h : List ι) : Prop :=
  ∃ pre a post, h = pre ++ a :: post ∧ set a ∧ ∀ e ∈ post, ¬ reset e

variable {set reset} {h : List ι} {i : ι}

@[simp] lemma not_latched_nil : ¬ Latched set reset [] := by
  rintro ⟨pre, a, post, he, _⟩
  simp at he

lemma latched_concat :
    Latched set reset (h ++ [i]) ↔ set i ∨ (Latched set reset h ∧ ¬ reset i) := by
  constructor
  · rintro ⟨pre, a, post, he, ha, hr⟩
    rcases concat_split.mp he with ⟨_, _, rfl⟩ | ⟨post', rfl, rfl⟩
    · exact Or.inl ha
    · exact Or.inr ⟨⟨pre, a, post', rfl, ha, fun e he => hr e (by simp [he])⟩, hr i (by simp)⟩
  · rintro (hi | ⟨⟨pre, a, post, rfl, ha, hr⟩, hi⟩)
    · exact ⟨h, i, [], rfl, hi, by simp⟩
    · refine ⟨pre, a, post ++ [i], by simp, ha, ?_⟩
      intro e he
      rcases List.mem_append.mp he with he | he
      · exact hr e he
      · exact List.mem_singleton.mp he ▸ hi

lemma latched_append {g : List ι} (hg : Latched set reset h) (hr : ∀ e ∈ g, ¬ reset e) :
    Latched set reset (h ++ g) := by
  obtain ⟨pre, a, post, rfl, ha, hp⟩ := hg
  refine ⟨pre, a, post ++ g, by simp, ha, ?_⟩
  intro e he
  exact (List.mem_append.mp he).elim (hp e) (hr e)

lemma latched_of_subset {reset' : ι → Prop} (hr : ∀ e, reset e → reset' e)
    (hl : Latched set reset' h) : Latched set reset h := by
  obtain ⟨pre, a, post, he, ha, hp⟩ := hl
  exact ⟨pre, a, post, he, ha, fun e hm hre => hp e hm (hr e hre)⟩

/-- The latch is open when nothing has set it, or something has reset it after the last
input that set it. -/
def Open (set reset : ι → Prop) (h : List ι) : Prop :=
  (∀ e ∈ h, ¬ set e) ∨
    ∃ pre a post, h = pre ++ a :: post ∧ set a ∧ (∀ e ∈ post, ¬ set e) ∧ ∃ r ∈ post, reset r

lemma not_latched_of_open (ho : Open set reset h) : ¬ Latched set reset h := by
  rintro ⟨pre, a, post, he, ha, hp⟩
  rcases ho with hn | ⟨pre', a', post', he', _, hn, r, hr, hres⟩
  · exact hn a (by simp [he]) ha
  · -- The setting input that nothing resets cannot stand before the last one.
    rcases List.append_eq_append_iff.mp (he.symm.trans he') with ⟨mid, rfl, hm⟩ | ⟨mid, rfl, hm⟩
    · cases mid with
      | nil =>
        obtain ⟨-, rfl⟩ := List.cons.inj hm
        exact hp r hr hres
      | cons b mid =>
        obtain ⟨-, rfl⟩ := List.cons.inj hm
        exact hp r (by simp [hr]) hres
    · cases mid with
      | nil =>
        obtain ⟨-, rfl⟩ := List.cons.inj hm
        exact hp r hr hres
      | cons b mid =>
        obtain ⟨-, rfl⟩ := List.cons.inj hm
        exact hn a (by simp) ha

theorem not_latched_iff_open : ¬ Latched set reset h ↔ Open set reset h := by
  refine ⟨fun hl => ?_, not_latched_of_open⟩
  by_cases hs : ∃ e ∈ h, set e
  · obtain ⟨pre, a, post, he, ha, hp⟩ := exists_last hs
    refine Or.inr ⟨pre, a, post, he, ha, hp, ?_⟩
    by_contra hr
    exact hl ⟨pre, a, post, he, ha, fun e hm hre => hr ⟨e, hm, hre⟩⟩
  · exact Or.inl fun e he hse => hs ⟨e, he, hse⟩

lemma latched_and_not_latched {reset' : ι → Prop} :
    (Latched set reset h ∧ ¬ Latched set reset' h) ↔
      ∃ pre a post, h = pre ++ a :: post ∧ set a ∧ (∀ e ∈ post, ¬ set e ∧ ¬ reset e) ∧
        ∃ r ∈ post, reset' r := by
  constructor
  · rintro ⟨hl, hn⟩
    obtain hnone | ⟨pre, a, post, he, ha, hp, r, hm, hr'⟩ := not_latched_iff_open.mp hn
    · obtain ⟨pre, a, post, rfl, ha, _⟩ := hl
      exact (hnone a (by simp) ha).elim
    · refine ⟨pre, a, post, he, ha, fun e hm => ⟨hp e hm, fun hre => ?_⟩, r, hm, hr'⟩
      exact not_latched_of_open (Or.inr ⟨pre, a, post, he, ha, hp, e, hm, hre⟩) hl
  · rintro ⟨pre, a, post, he, ha, hp, r, hm, hr'⟩
    refine ⟨⟨pre, a, post, he, ha, fun e hm => (hp e hm).2⟩, ?_⟩
    exact not_latched_of_open (Or.inr ⟨pre, a, post, he, ha, fun e hm => (hp e hm).1, r, hm, hr'⟩)

section Computation

variable (set reset) [DecidablePred set] [DecidablePred reset]

def latch (h : List ι) : Bool :=
  h.foldl (fun b i => decide (set i) || (b && !decide (reset i))) false

lemma latch_iff (h : List ι) : latch set reset h = true ↔ Latched set reset h := by
  induction h using List.reverseRecOn with
  | nil => simp [latch]
  | append_singleton h i ih =>
    rw [latched_concat, ← ih]
    simp [latch, List.foldl_append]

instance (h : List ι) : Decidable (Latched set reset h) :=
  decidable_of_iff _ (latch_iff set reset h)

def risingEdges (h : List ι) : ℕ :=
  (List.range h.length).countP fun n =>
    (h[n]?.any fun i => decide (set i)) && !decide (Latched set reset (h.take n))

@[simp] lemma risingEdges_nil : risingEdges set reset [] = 0 := rfl

lemma risingEdges_concat (h : List ι) (i : ι) :
    risingEdges set reset (h ++ [i]) =
      risingEdges set reset h + if set i ∧ ¬ Latched set reset h then 1 else 0 := by
  have hold : ∀ n ∈ List.range h.length,
      (((h ++ [i])[n]?.any fun i => decide (set i)) &&
        !decide (Latched set reset ((h ++ [i]).take n))) =
      ((h[n]?.any fun i => decide (set i)) && !decide (Latched set reset (h.take n))) := by
    intro n hn
    have hlt := List.mem_range.mp hn
    rw [List.getElem?_append_left hlt, List.take_append_of_le_length hlt.le]
  simp only [risingEdges, List.length_append, List.length_singleton, List.range_succ,
    List.countP_append, List.countP_singleton]
  congr 1
  · exact List.countP_congr fun n hn => by rw [hold n hn]
  · simp

end Computation

end Taggy.Latch
