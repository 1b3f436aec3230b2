import Mathlib.Data.List.Induction
import Mathlib.Tactic

/-! Deterministic machines that answer every input with a list of outputs, seen through
the history of the inputs they have processed. -/

namespace Taggy.Transducer

variable {σ ι ο : Type}

def run (step : σ → ι → σ × List ο) (s : σ) : List ι → σ × List ο
  | [] => (s, [])
  | i :: h =>
    let next := step s i
    let rest := run step next.1 h
    (rest.1, next.2 ++ rest.2)

def after (step : σ → ι → σ × List ο) (s : σ) (h : List ι) : σ := (run step s h).1

def outputs (step : σ → ι → σ × List ο) (s : σ) (h : List ι) : List ο := (run step s h).2

def reply (step : σ → ι → σ × List ο) (s : σ) (h : List ι) (i : ι) : List ο :=
  (step (after step s h) i).2

variable (step : σ → ι → σ × List ο) (s : σ)

lemma run_append (g h : List ι) :
    run step s (g ++ h) =
      ((run step (run step s g).1 h).1, (run step s g).2 ++ (run step (run step s g).1 h).2) := by
  induction g generalizing s with
  | nil => rfl
  | cons i g ih => simp only [List.cons_append, run, ih, List.append_assoc]

@[simp] lemma after_nil : after step s [] = s := rfl

@[simp] lemma outputs_nil : outputs step s [] = [] := rfl

@[simp] lemma after_concat (h : List ι) (i : ι) :
    after step s (h ++ [i]) = (step (after step s h) i).1 := by
  simp only [after, run_append, run]

@[simp] lemma outputs_concat (h : List ι) (i : ι) :
    outputs step s (h ++ [i]) = outputs step s h ++ reply step s h i := by
  simp only [outputs, reply, after, run_append, run, List.append_nil]

/-- What a function of the past and the next input picks out of a history. -/
def collect (f : List ι → ι → List ο) (h : List ι) : List ο :=
  outputs (fun pre i => (pre ++ [i], f pre i)) [] h

variable (f : List ι → ι → List ο)

lemma after_record (g h : List ι) : after (fun pre i => (pre ++ [i], f pre i)) g h = g ++ h := by
  induction h using List.reverseRecOn with
  | nil => simp
  | append_singleton h i ih => rw [after_concat, ih, List.append_assoc]

@[simp] lemma collect_nil : collect f [] = [] := rfl

@[simp] lemma collect_concat (h : List ι) (i : ι) :
    collect f (h ++ [i]) = collect f h ++ f h i := by
  rw [collect, outputs_concat, reply, after_record, List.nil_append]
  rfl

end Taggy.Transducer
