import Taggy.Control.ControlSteps

/-! What the control node publishes while its emergency stop is in force. -/

namespace Taggy.Go2ControlNode

open History

section

variable {α : Type}

lemma not_release_of_ungated {i : ℤ × Msg α} (hu : Ungated i) : ¬ Release i := by
  obtain ⟨now, msg⟩ := i
  cases msg with
  | cmdVel twist => simp [Ungated] at hu
  | emergencyStop data => simp [Ungated] at hu
  | cmdPosture command =>
    intro hr
    simp only [Ungated, Release, Msg.isUngated, Msg.isRelease, decide_eq_true_eq] at hu hr
    exact release_not_ungated hr hu

/-- No ungated posture has been processed in the stop that is still in force. -/
def Undisturbed (h : List (ℤ × Msg α)) : Prop :=
  ∀ pre i post, h = pre ++ i :: post → Stopped pre → (∀ e ∈ post, ¬ Release e) → ¬ Ungated i

lemma undisturbed_of_not_stopped {h : List (ℤ × Msg α)} (hs : ¬ Stopped h) : Undisturbed h := by
  intro pre i post he hp hr hu
  have hi : Stopped (pre ++ [i]) := stopped_concat.mpr (Or.inr ⟨hp, not_release_of_ungated hu⟩)
  apply hs
  rw [he, ← List.singleton_append, ← List.append_assoc]
  exact Latch.latched_append hi hr

lemma undisturbed_concat {h : List (ℤ × Msg α)} {i : ℤ × Msg α} :
    Undisturbed (h ++ [i]) ↔
      (Stopped h → ¬ Ungated i) ∧ (¬ Release i → Undisturbed h) := by
  constructor
  · intro hd
    refine ⟨fun hs => hd h i [] rfl hs (by simp), ?_⟩
    intro hi pre j post he hp hr
    refine hd pre j (post ++ [i]) (by simp [he]) hp ?_
    intro e hm
    rcases List.mem_append.mp hm with hm | hm
    · exact hr e hm
    · exact List.mem_singleton.mp hm ▸ hi
  · rintro ⟨hi, hh⟩ pre j post he hp hr
    rcases concat_split.mp he with ⟨_, rfl, rfl⟩ | ⟨post', rfl, he'⟩
    · exact hi hp
    · exact hh (hr i (by simp)) pre j post' he' hp fun e hm => hr e (by simp [hm])

end

variable {α β : Type} [Zero α] [Zero β] (fs : FloatSemantics α β)

/-- While the stop is in force, nothing but a release publishes a posture, stand or action
request. -/
def QuietWhileStopped (h : List (ℤ × Msg α)) : Prop :=
  AtEachStep (fun pre i => Stopped pre → ¬ Release i →
    ∀ req ∈ publishes fs pre i, req.apiId ∉ postureApis) h

lemma stopped_publishes_nil {h : List (ℤ × Msg α)} {i : ℤ × Msg α} (hs : Stopped h)
    (hr : ¬ Release i) (hu : ¬ Ungated i) : publishes fs h i = [] := by
  obtain ⟨now, msg⟩ := i
  cases msg with
  | cmdVel twist => rw [publishes_cmdVel, if_pos hs]
  | emergencyStop data => rw [publishes_emergencyStop, if_neg (fun hd => hd.2 hs)]
  | cmdPosture command =>
    simp only [Release, Ungated, Msg.isRelease, Msg.isUngated, decide_eq_true_eq] at hr hu
    cases postureKind command with
    | release _ hr' => exact (hr hr').elim
    | ungated _ _ hu' => exact (hu hu').elim
    | unknown _ _ ha => rw [publishes_cmdPosture, ha]

lemma ungated_publishes {h : List (ℤ × Msg α)} {i : ℤ × Msg α} (hu : Ungated i) :
    ∃ req, publishes fs h i = [req] ∧ req.apiId ∈ postureApis := by
  obtain ⟨now, msg⟩ := i
  cases msg with
  | cmdVel twist => simp [Ungated] at hu
  | emergencyStop data => simp [Ungated] at hu
  | cmdPosture command =>
    simp only [Ungated, Msg.isUngated, decide_eq_true_eq] at hu
    cases postureKind command with
    | release _ hr => exact (release_not_ungated hr hu).elim
    | ungated apiId _ _ hm ha =>
      refine ⟨stamp apiId now (after fs h).request, ?_, hm⟩
      rw [publishes_cmdPosture, ha]
    | unknown _ hn => exact (hn hu).elim

lemma quiet_step_iff (pre : List (ℤ × Msg α)) (i : ℤ × Msg α) :
    (Stopped pre → ¬ Release i → ∀ req ∈ publishes fs pre i, req.apiId ∉ postureApis) ↔
      (Stopped pre → ¬ Ungated i) := by
  constructor
  · intro hq hs hu
    obtain ⟨req, hp, ha⟩ := ungated_publishes fs (h := pre) hu
    exact hq hs (not_release_of_ungated hu) req (by simp [hp]) ha
  · intro hg hs hr req hm
    rw [stopped_publishes_nil fs hs hr (hg hs)] at hm
    simp at hm

theorem quiet_while_stopped_iff (h : List (ℤ × Msg α)) :
    QuietWhileStopped fs h ↔ AtEachStep (fun pre i => Stopped pre → ¬ Ungated i) h :=
  atEachStep_congr (quiet_step_iff fs)

theorem balance_during_stop :
    ¬ QuietWhileStopped FloatSemantics.exact
      [(0, .emergencyStop true), (1, .cmdPosture "balance")] := by
  intro hq
  have hs : Stopped [((0 : ℤ), (Msg.emergencyStop true : Msg ℚ))] := by decide
  exact hq [(0, .emergencyStop true)] (1, .cmdPosture "balance") [] rfl hs (by decide)
    _ (List.mem_singleton_self _) (by decide)

def LastIsDamp (h : List (ℤ × Msg α)) : Prop :=
  ∃ req, (published fs h).getLast? = some req ∧ req.apiId = SportAPI.damp

lemma last_published_of_stopped {h : List (ℤ × Msg α)} (hs : Stopped h) :
    LastIsDamp fs h ↔ Undisturbed h := by
  induction h using List.reverseRecOn with
  | nil => exact (not_stopped_nil hs).elim
  | append_singleton h i ih =>
    rw [LastIsDamp, published_concat, undisturbed_concat]
    by_cases hh : Stopped h
    · have hr : ¬ Release i := by
        rcases stopped_concat.mp hs with ha | ⟨_, hr⟩
        · obtain ⟨now, msg⟩ := i
          cases msg <;> simp_all [Activation, Release]
        · exact hr
      by_cases hu : Ungated i
      · -- A posture request goes out on top of the damp.
        obtain ⟨req, hp, ha⟩ := ungated_publishes fs (h := h) hu
        refine iff_of_false ?_ fun hd => hd.1 hh hu
        rintro ⟨req', hl, hd⟩
        rw [hp, List.getLast?_concat, Option.some.injEq] at hl
        subst req'
        exact damp_not_posture (hd ▸ ha)
      · rw [stopped_publishes_nil fs hh hr hu, List.append_nil]
        exact (ih hh).trans ⟨fun hd => ⟨fun _ => hu, fun _ => hd⟩, fun hd => hd.2 hr⟩
    · have ha : Activation i := (stopped_concat.mp hs).resolve_right fun hc => hh hc.1
      obtain ⟨now, msg⟩ := i
      cases msg with
      | emergencyStop data =>
        have hd : data = true := ha
        rw [publishes_emergencyStop, if_pos ⟨hd, hh⟩]
        refine iff_of_true ⟨_, List.getLast?_concat, rfl⟩ ?_
        exact ⟨fun hc => (hh hc).elim, fun _ => undisturbed_of_not_stopped hh⟩
      | cmdVel twist => simp [Activation] at ha
      | cmdPosture command => simp [Activation] at ha

theorem stop_effective_iff (h : List (ℤ × Msg α)) (now : ℤ) :
    (after fs (h ++ [(now, .emergencyStop true)])).estopActive = true ∧
        LastIsDamp fs (h ++ [(now, .emergencyStop true)]) ↔
      Undisturbed h := by
  have hs : Stopped (h ++ [(now, .emergencyStop true)]) := stopped_concat.mpr (Or.inl rfl)
  rw [estopActive_iff, last_published_of_stopped fs hs, undisturbed_concat]
  simp [hs, Ungated, Release]

theorem second_stop_ineffective :
    ¬ ((after FloatSemantics.exact ([(0, .emergencyStop true), (1, .cmdPosture "balance")] ++
          [(2, .emergencyStop true)])).estopActive = true ∧
        LastIsDamp FloatSemantics.exact ([(0, .emergencyStop true), (1, .cmdPosture "balance")] ++
          [(2, .emergencyStop true)])) := by
  rintro ⟨_, req, hl, hd⟩
  obtain rfl := Option.some.inj hl
  exact absurd hd (by decide)

end Taggy.Go2ControlNode
