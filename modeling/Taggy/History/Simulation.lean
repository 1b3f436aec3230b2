import Mathlib.Tactic
import Taggy.History.Transducer

/-! Machines that may fail to take an input, and the runs that one makes just as another does. -/

namespace Taggy.Machine

variable {σ τ ι ο : Type}

def run (step : σ → ι → Option (σ × ο)) (s : σ) : List ι → Option (σ × List ο)
  | [] => some (s, [])
  | i :: is => do
    let (next, o) ← step s i
    let (last, os) ← run step next is
    return (last, o :: os)

lemma run_cons {step : σ → ι → Option (σ × ο)} {s last : σ} {i : ι} {is : List ι} {outputs : List ο}
    (h : run step s (i :: is) = some (last, outputs)) :
    ∃ next o os, step s i = some (next, o) ∧ run step next is = some (last, os) ∧
      outputs = o :: os := by
  rw [run, Option.bind_eq_bind, Option.bind_eq_some_iff] at h
  obtain ⟨⟨next, o⟩, hstep, h⟩ := h
  rw [Option.bind_eq_bind, Option.bind_eq_some_iff] at h
  obtain ⟨⟨last', os⟩, hrun, h⟩ := h
  cases h
  exact ⟨next, o, os, hstep, hrun, rfl⟩

lemma run_of_invariant {step : σ → ι → Option (σ × ο)} {P : σ → Prop} {Q : ο → Prop}
    (hstep : ∀ s i, P s → ∃ next o, step s i = some (next, o) ∧ P next ∧ Q o) {s : σ} (hs : P s)
    (is : List ι) : ∃ last outputs, run step s is = some (last, outputs) ∧ P last ∧
      outputs.length = is.length ∧ ∀ o ∈ outputs, Q o := by
  induction is generalizing s with
  | nil => exact ⟨s, [], rfl, hs, rfl, List.forall_mem_nil _⟩
  | cons i is ih =>
    obtain ⟨next, o, hnext, hP, hQ⟩ := hstep s i hs
    obtain ⟨last, outputs, hrun, hlast, hlength, hall⟩ := ih hP
    refine ⟨last, o :: outputs, ?_, hlast, ?_, List.forall_mem_cons.2 ⟨hQ, hall⟩⟩
    · rw [run, hnext, Option.bind_eq_bind, Option.bind_some]
      dsimp only
      rw [hrun]
      rfl
    · rw [List.length_cons, List.length_cons, hlength]

def Simulates (concrete : σ → ι → Option (σ × ο)) (abstract : τ → ι → Option (τ × ο))
    (view : σ → τ) : Prop :=
  ∀ s i, (concrete s i).map (Prod.map view id) = abstract (view s) i

theorem Simulates.run {concrete : σ → ι → Option (σ × ο)} {abstract : τ → ι → Option (τ × ο)}
    {view : σ → τ} (h : Simulates concrete abstract view) (s : σ) (is : List ι) :
    (run concrete s is).map (Prod.map view id) = Machine.run abstract (view s) is := by
  induction is generalizing s with
  | nil => rfl
  | cons i is ih =>
    rw [Machine.run, Machine.run, ← h]
    cases hs : concrete s i with
    | none => rfl
    | some next =>
      change ((Machine.run concrete next.1 is).bind _).map _ =
        (Machine.run abstract (view next.1) is).bind _
      rw [← ih, Option.map_bind, Option.bind_map]
      rfl

end Taggy.Machine

namespace Taggy.Transducer

variable {σ τ ι ο ο' : Type} (step : σ → ι → σ × List ο) (step' : τ → ι → τ × List ο')
  (f : ο' → ο) (R : σ → τ → Prop) (ok : ι → Prop)

def Refines : Prop :=
  ∀ s t i, ok i → R s t →
    R (step s i).1 (step' t i).1 ∧ (step s i).2 = (step' t i).2.map f

variable {step step' f R ok}

theorem Refines.run (hstep : Refines step step' f R ok) {s : σ} {t : τ} (hR : R s t) (h : List ι)
    (hok : ∀ i ∈ h, ok i) :
    R (after step s h) (after step' t h) ∧ outputs step s h = (outputs step' t h).map f := by
  induction h using List.reverseRecOn with
  | nil => exact ⟨hR, rfl⟩
  | append_singleton h i ih =>
    obtain ⟨hafter, hout⟩ := ih fun j hj => hok j (List.mem_append_left _ hj)
    obtain ⟨hnext, hreply⟩ := hstep _ _ i (hok i (by simp)) hafter
    rw [after_concat, after_concat, outputs_concat, outputs_concat, List.map_append, hout]
    exact ⟨hnext, congrArg (_ ++ ·) hreply⟩

end Taggy.Transducer
