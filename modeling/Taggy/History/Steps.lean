import Mathlib.Data.List.Induction
import Mathlib.Tactic

/-! Histories that grow at the end, and properties of each of their steps. -/

namespace Taggy.History

variable {ι : Type}

lemma concat_split {h pre post : List ι} {i a : ι} :
    h ++ [i] = pre ++ a :: post ↔
      (post = [] ∧ pre = h ∧ a = i) ∨ ∃ post', post = post' ++ [i] ∧ h = pre ++ a :: post' := by
  constructor
  · intro he
    rcases List.eq_nil_or_concat post with rfl | ⟨post', b, rfl⟩
    · obtain ⟨rfl, hi⟩ := List.append_inj' he rfl
      exact Or.inl ⟨rfl, rfl, (List.singleton_inj.mp hi).symm⟩
    · rw [List.concat_eq_append, ← List.cons_append, ← List.append_assoc] at he
      obtain ⟨rfl, hi⟩ := List.append_inj' he rfl
      obtain rfl := List.singleton_inj.mp hi
      exact Or.inr ⟨post', List.concat_eq_append, rfl⟩
  · rintro (⟨rfl, rfl, rfl⟩ | ⟨post', rfl, rfl⟩)
    · rfl
    · simp only [List.append_assoc, List.cons_append]

lemma exists_last {P : ι → Prop} {h : List ι} (hs : ∃ e ∈ h, P e) :
    ∃ pre a post, h = pre ++ a :: post ∧ P a ∧ ∀ e ∈ post, ¬ P e := by
  induction h using List.reverseRecOn with
  | nil => simp at hs
  | append_singleton h i ih =>
    by_cases hi : P i
    · exact ⟨h, i, [], rfl, hi, by simp⟩
    · obtain ⟨e, he, hse⟩ := hs
      have hm : e ∈ h := by
        rcases List.mem_append.mp he with he | he
        · exact he
        · exact (hi (List.mem_singleton.mp he ▸ hse)).elim
      obtain ⟨pre, a, post, rfl, ha, hp⟩ := ih ⟨e, hm, hse⟩
      refine ⟨pre, a, post ++ [i], by simp, ha, ?_⟩
      intro e he
      rcases List.mem_append.mp he with he | he
      · exact hp e he
      · exact List.mem_singleton.mp he ▸ hi

lemma last_unique {P : ι → Prop} {h pre post pre' post' : List ι} {a a' : ι}
    (he : h = pre ++ a :: post) (ha : P a) (hp : ∀ e ∈ post, ¬ P e)
    (he' : h = pre' ++ a' :: post') (ha' : P a') (hp' : ∀ e ∈ post', ¬ P e) : a = a' := by
  classical
  have hlast : ∀ {pre post : List ι} {a : ι}, h = pre ++ a :: post → P a →
      (∀ e ∈ post, ¬ P e) → (h.filter P).getLast? = some a := by
    rintro pre post a rfl ha hp
    have hn : post.filter P = [] := List.filter_eq_nil_iff.mpr fun e he => by simpa using hp e he
    rw [List.filter_append, List.filter_cons_of_pos (by simpa using ha), hn, List.getLast?_concat]
  exact Option.some_inj.mp ((hlast he ha hp).symm.trans (hlast he' ha' hp'))

def AtEachStep (P : List ι → ι → Prop) (h : List ι) : Prop :=
  ∀ pre i post, h = pre ++ i :: post → P pre i

variable {P Q : List ι → ι → Prop}

lemma atEachStep_nil : AtEachStep P [] := by
  intro pre i post he
  simp at he

lemma atEachStep_cons {h : List ι} {i : ι} :
    AtEachStep P (i :: h) ↔ P [] i ∧ AtEachStep (fun pre => P (i :: pre)) h := by
  constructor
  · intro hp
    refine ⟨hp [] i h rfl, fun pre a post he => ?_⟩
    exact hp (i :: pre) a post (by rw [he, List.cons_append])
  · rintro ⟨hi, hh⟩ pre a post he
    cases pre with
    | nil =>
      obtain ⟨rfl, rfl⟩ := List.cons.inj he
      exact hi
    | cons b pre =>
      obtain ⟨rfl, he'⟩ := List.cons.inj he
      exact hh pre a post he'

lemma atEachStep_concat {h : List ι} {i : ι} :
    AtEachStep P (h ++ [i]) ↔ AtEachStep P h ∧ P h i := by
  constructor
  · intro hp
    refine ⟨fun pre a post he => ?_, hp h i [] rfl⟩
    exact hp pre a (post ++ [i]) (by rw [he, List.append_assoc, List.cons_append])
  · rintro ⟨hh, hi⟩ pre a post he
    rcases concat_split.mp he with ⟨_, rfl, rfl⟩ | ⟨post', _, he'⟩
    · exact hi
    · exact hh pre a post' he'

lemma AtEachStep.mono (hpq : ∀ pre i, P pre i → Q pre i) {h : List ι} (hp : AtEachStep P h) :
    AtEachStep Q h :=
  fun pre i post he => hpq pre i (hp pre i post he)

lemma atEachStep_and {h : List ι} :
    AtEachStep (fun pre i => P pre i ∧ Q pre i) h ↔ AtEachStep P h ∧ AtEachStep Q h :=
  ⟨fun hp => ⟨hp.mono fun _ _ => And.left, hp.mono fun _ _ => And.right⟩,
    fun ⟨hp, hq⟩ pre i post he => ⟨hp pre i post he, hq pre i post he⟩⟩

lemma atEachStep_congr_of_mem {h : List ι} (hpq : ∀ pre, ∀ i ∈ h, (P pre i ↔ Q pre i)) :
    AtEachStep P h ↔ AtEachStep Q h := by
  refine forall_congr' fun pre => forall_congr' fun i => forall_congr' fun post =>
    forall_congr' fun he => hpq pre i ?_
  rw [he]
  exact List.mem_append_right pre List.mem_cons_self

lemma atEachStep_congr (hpq : ∀ pre i, P pre i ↔ Q pre i) {h : List ι} :
    AtEachStep P h ↔ AtEachStep Q h :=
  atEachStep_congr_of_mem fun pre i _ => hpq pre i

end Taggy.History
