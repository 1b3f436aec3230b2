import Taggy.Teleop.FlagAgreement

/-! The speeds after a sequence of keys, and the direction in which the speed keys move them. -/

namespace Taggy.KeyboardTeleop

open TeleopSystem History

def increaseKeys : List Char := ['+', '=']

def decreaseKeys : List Char := ['-', '_']

def speedKeys : List Char := increaseKeys ++ decreaseKeys

section Speeds

variable {α : Type} [Py.Arith α]

def typed (t : KeyboardTeleop α) (ks : List Char) : KeyboardTeleop α :=
  ks.foldl (fun t key => (t.press key).1) t

@[simp] lemma typed_concat (t : KeyboardTeleop α) (ks : List Char) (key : Char) :
    t.typed (ks ++ [key]) = ((t.typed ks).press key).1 := by
  rw [typed, List.foldl_append]
  rfl

def rescale (hi x : α) (key : Char) : α :=
  match speedBindings key with
  | some factor => Py.clamp 0.1 hi (x * factor)
  | none => x

def speedAfter (hi x : α) (ks : List Char) : α := (handled ks).foldl (rescale hi) x

lemma speedBindings_none {key : Char} (hk : key ∉ speedKeys) :
    (speedBindings key : Option α) = none := by
  unfold speedBindings
  split <;> first | rfl | exact (hk (by decide)).elim

lemma rescale_other {key : Char} (hk : key ∉ speedKeys) (hi x : α) : rescale hi x key = x := by
  rw [rescale, speedBindings_none hk]

lemma speedAfter_concat (hi x : α) (ks : List Char) (key : Char) :
    speedAfter hi x (ks ++ [key]) =
      if esc ∈ ks then speedAfter hi x ks else rescale hi (speedAfter hi x ks) key := by
  have hesc : esc ∉ speedKeys := by decide
  rw [speedAfter, handled_concat]
  by_cases he : esc ∈ ks
  · rw [if_pos (Or.inl he), if_pos he]
    rfl
  · rw [if_neg he]
    by_cases hk : key = esc
    · rw [if_pos (Or.inr hk), hk, rescale_other hesc]
      rfl
    · rw [if_neg (not_or.mpr ⟨he, hk⟩), List.foldl_append]
      rfl

lemma speedBindings_key {key : Char} {factor : α} (hk : speedBindings key = some factor) :
    key ∈ speedKeys := by
  by_contra hn
  rw [speedBindings_none hn] at hk
  exact Option.some_ne_none _ hk.symm

lemma press_speeds {t : KeyboardTeleop α} (hr : t.running = true) (key : Char) :
    (t.press key).1.linearSpeed = rescale 1.5 t.linearSpeed key ∧
      (t.press key).1.angularSpeed = rescale 2.0 t.angularSpeed key := by
  by_cases hk : key ∈ speedKeys
  · simp only [speedKeys, increaseKeys, decreaseKeys, List.mem_append, List.mem_cons,
      List.not_mem_nil, or_false] at hk
    rw [press_running hr]
    rcases hk with (rfl | rfl) | (rfl | rfl) <;> exact ⟨rfl, rfl⟩
  · rw [rescale_other hk, rescale_other hk]
    have hp := pressed key t
    generalize t.press key = r at hp
    cases hp with
    | speed _ _ hf => exact (hk (speedBindings_key hf)).elim
    | _ => exact ⟨rfl, rfl⟩

theorem typed_speeds {t : KeyboardTeleop α} (hr : t.running = true) (ks : List Char) :
    ((t.typed ks).running = true ↔ esc ∉ ks) ∧
      (t.typed ks).linearSpeed = speedAfter 1.5 t.linearSpeed ks ∧
      (t.typed ks).angularSpeed = speedAfter 2.0 t.angularSpeed ks := by
  induction ks using List.reverseRecOn with
  | nil => exact ⟨iff_of_true hr List.not_mem_nil, rfl, rfl⟩
  | append_singleton ks key ih =>
    obtain ⟨hrun, hl, ha⟩ := ih
    rw [typed_concat, speedAfter_concat, speedAfter_concat, List.mem_append, List.mem_singleton,
      not_or]
    by_cases he : esc ∈ ks
    · have hx : (t.typed ks).running = false := by simpa using mt hrun.mp (not_not_intro he)
      rw [press_exited hx, if_pos he, if_pos he]
      exact ⟨iff_of_false (by simp [hx]) fun hn => hn.1 he, hl, ha⟩
    · have hx : (t.typed ks).running = true := hrun.mpr he
      obtain ⟨hl', ha'⟩ := press_speeds hx key
      rw [running_press_iff hx, hl', ha', hl, ha, if_neg he, if_neg he]
      exact ⟨⟨fun hne => ⟨he, Ne.symm hne⟩, fun hn => Ne.symm hn.2⟩, rfl, rfl⟩

end Speeds

section Direction

def firstSpeedKey (ks : List Char) : Option Char := (handled ks).find? (· ∈ speedKeys)

lemma firstSpeedKey_concat (ks : List Char) (key : Char) :
    firstSpeedKey (ks ++ [key]) =
      (firstSpeedKey ks).or (if esc ∈ ks ∨ key ∉ speedKeys then none else some key) := by
  rw [firstSpeedKey, handled_concat]
  by_cases he : esc ∈ ks ∨ key = esc
  · have hs : esc ∈ ks ∨ key ∉ speedKeys := by
      refine he.imp_right ?_
      rintro rfl
      decide
    rw [if_pos he, if_pos hs, Option.or_none]
    rfl
  · rw [not_or] at he
    rw [if_neg (not_or.mpr he), List.find?_append]
    by_cases hk : key ∈ speedKeys <;> simp [firstSpeedKey, he.1, hk]

variable {hi x : ℚ} {key : Char}

lemma rescale_binding {factor : ℚ} (hf : speedBindings key = some factor) :
    rescale hi x key = 1 / 10 ⊔ (hi ⊓ x * factor) := by
  have hlo : (0.1 : ℚ) = 1 / 10 := by norm_num
  rw [rescale, hf]
  exact (Py.clamp_eq _ _ _).trans (by rw [hlo])

lemma increase_binding (hk : key ∈ increaseKeys) :
    (speedBindings key : Option ℚ) = some (11 / 10) := by
  simp only [increaseKeys, List.mem_cons, List.not_mem_nil, or_false] at hk
  rcases hk with rfl | rfl <;> decide +kernel

lemma decrease_binding (hk : key ∈ decreaseKeys) :
    (speedBindings key : Option ℚ) = some (9 / 10) := by
  simp only [decreaseKeys, List.mem_cons, List.not_mem_nil, or_false] at hk
  rcases hk with rfl | rfl <;> decide +kernel

def Directed (key : Char) (x x' : ℚ) : Prop :=
  (key ∈ increaseKeys → x ≤ x') ∧ (key ∈ decreaseKeys → x' ≤ x)

def Suits (hi : ℚ) (key : Char) (x : ℚ) : Prop :=
  (key ∈ increaseKeys → x ≤ hi) ∧ (key ∈ decreaseKeys → 1 / 10 ≤ x)

lemma directed_refl (key : Char) (x : ℚ) : Directed key x x := ⟨fun _ => le_rfl, fun _ => le_rfl⟩

lemma directed_rescale (hhi : 1 / 10 ≤ hi) :
    Directed key x (rescale hi x key) ↔ Suits hi key x := by
  refine and_congr (forall_congr' fun hk => ?_) (forall_congr' fun hk => ?_)
  · rw [rescale_binding (increase_binding hk), le_sup_iff, le_inf_iff]
    constructor
    · rintro (hx | ⟨hx, -⟩)
      · exact hx.trans hhi
      · exact hx
    · intro hx
      rcases le_total x (1 / 10) with hl | hl
      · exact Or.inl hl
      · exact Or.inr ⟨hx, by linarith⟩
  · rw [rescale_binding (decrease_binding hk), sup_le_iff, inf_le_iff]
    constructor
    · exact fun hx => hx.1
    · exact fun hx => ⟨hx, Or.inr (by linarith)⟩

lemma rescale_range (hhi : 1 / 10 ≤ hi) (hk : key ∈ speedKeys) :
    1 / 10 ≤ rescale hi x key ∧ rescale hi x key ≤ hi := by
  obtain ⟨factor, hf⟩ : ∃ factor : ℚ, speedBindings key = some factor :=
    (List.mem_append.mp hk).elim (fun hk => ⟨_, increase_binding hk⟩)
      fun hk => ⟨_, decrease_binding hk⟩
  rw [rescale_binding hf]
  exact ⟨le_sup_left, sup_le hhi inf_le_left⟩

lemma speedAfter_cases (hhi : 1 / 10 ≤ hi) (ks : List Char) :
    (firstSpeedKey ks = none ∧ speedAfter hi x ks = x) ∨
      (firstSpeedKey ks ≠ none ∧ 1 / 10 ≤ speedAfter hi x ks ∧ speedAfter hi x ks ≤ hi) := by
  induction ks using List.reverseRecOn with
  | nil => exact Or.inl ⟨rfl, rfl⟩
  | append_singleton ks key ih =>
    rw [firstSpeedKey_concat, speedAfter_concat]
    by_cases he : esc ∈ ks
    · rw [if_pos (Or.inl he), if_pos he, Option.or_none]
      exact ih
    by_cases hk : key ∈ speedKeys
    · rw [if_neg (not_or.mpr ⟨he, not_not_intro hk⟩), if_neg he]
      refine Or.inr ⟨?_, rescale_range hhi hk⟩
      cases firstSpeedKey ks <;> simp
    · rw [if_pos (Or.inr hk), if_neg he, rescale_other hk, Option.or_none]
      exact ih

lemma speedAfter_pos (hhi : 1 / 10 ≤ hi) (hx : 0 < x) (ks : List Char) :
    0 < speedAfter hi x ks := by
  rcases speedAfter_cases (x := x) hhi ks with ⟨-, he⟩ | ⟨-, hlo, -⟩
  · rwa [he]
  · exact lt_of_lt_of_le (by norm_num) hlo

lemma speed_directed_iff (hhi : 1 / 10 ≤ hi) (ks : List Char) :
    AtEachStep (fun pre key =>
        Directed key (speedAfter hi x pre) (speedAfter hi x (pre ++ [key]))) ks ↔
      ∀ key, firstSpeedKey ks = some key → Suits hi key x := by
  induction ks using List.reverseRecOn with
  | nil => exact iff_of_true atEachStep_nil fun key hk => by cases hk
  | append_singleton ks key ih =>
    rw [atEachStep_concat, ih, firstSpeedKey_concat, speedAfter_concat]
    by_cases he : esc ∈ ks
    · rw [if_pos he, if_pos (Or.inl he), Option.or_none]
      exact and_iff_left (directed_refl key _)
    rw [if_neg he]
    by_cases hk : key ∈ speedKeys
    · rw [if_neg (not_or.mpr ⟨he, not_not_intro hk⟩), directed_rescale hhi]
      rcases speedAfter_cases (x := x) hhi ks with ⟨hn, hx⟩ | ⟨hs, hlo, hle⟩
      · rw [hn, hx]
        simp
      · obtain ⟨first, hf⟩ := Option.ne_none_iff_exists'.mp hs
        rw [hf, Option.some_or]
        exact and_iff_left ⟨fun _ => hle, fun _ => hlo⟩
    · rw [rescale_other hk, if_pos (Or.inr hk), Option.or_none]
      exact and_iff_left (directed_refl key _)

/-- Each speed key moves both speeds, or leaves them, in the direction of its label. -/
def ActsAsLabelled (t : KeyboardTeleop ℚ) (ks : List Char) : Prop :=
  AtEachStep (fun pre key =>
    Directed key (t.typed pre).linearSpeed (t.typed (pre ++ [key])).linearSpeed ∧
      Directed key (t.typed pre).angularSpeed (t.typed (pre ++ [key])).angularSpeed) ks

theorem acts_as_labelled_iff (linearSpeed angularSpeed : ℚ) (ks : List Char) :
    ActsAsLabelled { linearSpeed := linearSpeed, angularSpeed := angularSpeed } ks ↔
      ∀ key, firstSpeedKey ks = some key →
        Suits (3 / 2) key linearSpeed ∧ Suits 2 key angularSpeed := by
  have hl : (1.5 : ℚ) = 3 / 2 := by norm_num
  have ha : (2.0 : ℚ) = 2 := by norm_num
  have hs := typed_speeds (t := { linearSpeed := linearSpeed, angularSpeed := angularSpeed }) rfl
  calc ActsAsLabelled { linearSpeed := linearSpeed, angularSpeed := angularSpeed } ks
      ↔ AtEachStep (fun pre key =>
          Directed key (speedAfter (3 / 2) linearSpeed pre)
              (speedAfter (3 / 2) linearSpeed (pre ++ [key])) ∧
            Directed key (speedAfter 2 angularSpeed pre)
              (speedAfter 2 angularSpeed (pre ++ [key]))) ks := by
        refine atEachStep_congr fun pre key => ?_
        rw [(hs pre).2.1, (hs pre).2.2, (hs (pre ++ [key])).2.1, (hs (pre ++ [key])).2.2, hl, ha]
    _ ↔ (∀ key, firstSpeedKey ks = some key → Suits (3 / 2) key linearSpeed) ∧
          ∀ key, firstSpeedKey ks = some key → Suits 2 key angularSpeed := by
        rw [atEachStep_and, speed_directed_iff (by norm_num), speed_directed_iff (by norm_num)]
    _ ↔ ∀ key, firstSpeedKey ks = some key →
          Suits (3 / 2) key linearSpeed ∧ Suits 2 key angularSpeed := by
        rw [← forall_and]
        exact forall_congr' fun key => imp_and.symm

theorem plus_slows_down :
    ¬ ActsAsLabelled { linearSpeed := 5, angularSpeed := 1 / 2 } ['+'] := by
  intro h
  have hd := (h [] '+' [] rfl).1.1 (by decide)
  revert hd
  decide +kernel

end Direction

end Taggy.KeyboardTeleop
