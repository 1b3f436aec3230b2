import Taggy.History.Transducer

/-! Streams cut into frames in front of the items that are marked, or where a frame has no more
room. -/

namespace Taggy.Framing

inductive Event (ι : Type) where
  | stored (index : ℕ)
  | closed (frame : List ι)
  | overflowed (frame : List ι)

variable {ι : Type}

def Event.items : Event ι → List ι
  | .stored _ => []
  | .closed frame => frame
  | .overflowed frame => frame

variable (mark : ι → Bool) (room : ℕ)

def step (frame : List ι) (i : ι) : List ι × List (Event ι) :=
  if mark i then ([i], [.closed frame, .stored 0])
  else if room ≤ frame.length + 1 then ([], [.stored frame.length, .overflowed (frame ++ [i])])
  else (frame ++ [i], [.stored frame.length])

/-- Only its first item may be marked. -/
def Whole (frame : List ι) : Prop := ∀ i ∈ frame.tail, mark i = false

structure Legal (frame : List ι) (events : List (Event ι)) : Prop where
  short : frame.length < room
  whole : Whole mark frame
  closed : ∀ f, .closed f ∈ events → f.length < room ∧ Whole mark f
  overflowed : ∀ f, .overflowed f ∈ events → f.length = room ∧ Whole mark f

variable {mark room}

lemma step_items (frame : List ι) (i : ι) :
    (step mark room frame i).2.flatMap Event.items ++ (step mark room frame i).1 =
      frame ++ [i] := by
  rw [step]
  split
  · simp [Event.items]
  · split <;> simp [Event.items]

lemma partition (h : List ι) :
    (Transducer.outputs (step mark room) [] h).flatMap Event.items ++
      Transducer.after (step mark room) [] h = h := by
  induction h using List.reverseRecOn with
  | nil => rfl
  | append_singleton h i ih =>
    rw [Transducer.outputs_concat, Transducer.after_concat, List.flatMap_append, List.append_assoc]
    exact (congrArg _ (step_items _ i)).trans ((List.append_assoc _ _ _).symm.trans
      (congrArg (· ++ [i]) ih))

lemma whole_concat {frame : List ι} {i : ι} (hw : Whole mark frame) (hi : ¬ mark i = true) :
    Whole mark (frame ++ [i]) := by
  cases frame with
  | nil =>
    intro j hj
    exact (List.not_mem_nil hj).elim
  | cons first rest =>
    intro j hj
    rw [List.cons_append, List.tail_cons, List.mem_append, List.mem_singleton] at hj
    rcases hj with hj | rfl
    · exact hw j hj
    · exact Bool.eq_false_iff.mpr hi

lemma legal_step (hroom : 1 < room) {frame : List ι} {events : List (Event ι)}
    (hl : Legal mark room frame events) (i : ι) :
    Legal mark room (step mark room frame i).1 (events ++ (step mark room frame i).2) := by
  obtain ⟨hs, hw, hc, ho⟩ := hl
  rw [step]
  split
  · refine ⟨hroom, fun j hj => (List.not_mem_nil hj).elim, fun f hf => ?_, fun f hf => ?_⟩
    · have hf' : .closed f ∈ events ∨ f = frame := by simpa using hf
      rcases hf' with hf | rfl
      · exact hc f hf
      · exact ⟨hs, hw⟩
    · exact ho f (by simpa using hf)
  · rename_i hi
    have hwhole := whole_concat hw hi
    split
    · rename_i hfull
      refine ⟨by simp; omega, fun j hj => (List.not_mem_nil hj).elim, fun f hf => ?_,
        fun f hf => ?_⟩
      · exact hc f (by simpa using hf)
      · have hf' : .overflowed f ∈ events ∨ f = frame ++ [i] := by simpa using hf
        rcases hf' with hf | rfl
        · exact ho f hf
        · refine ⟨?_, hwhole⟩
          rw [List.length_append, List.length_singleton]
          omega
    · rename_i hfree
      refine ⟨?_, hwhole, fun f hf => hc f (by simpa using hf),
        fun f hf => ho f (by simpa using hf)⟩
      rw [List.length_append, List.length_singleton]
      omega

lemma legal (hroom : 1 < room) (h : List ι) :
    Legal mark room (Transducer.after (step mark room) [] h)
      (Transducer.outputs (step mark room) [] h) := by
  induction h using List.reverseRecOn with
  | nil =>
    refine ⟨by simp; omega, fun j hj => (List.not_mem_nil hj).elim, fun f hf => ?_, fun f hf => ?_⟩
    · exact (List.not_mem_nil hf).elim
    · exact (List.not_mem_nil hf).elim
  | append_singleton h i ih =>
    rw [Transducer.outputs_concat, Transducer.after_concat]
    exact legal_step hroom ih i

/-- It is the first frame, or it starts with a marked item. -/
def Opens (mark : ι → Bool) (before frame : List ι) : Prop :=
  before = [] ∨ ∃ i rest, frame = i :: rest ∧ mark i = true

variable (mark room) in
lemma opens_current (h : List ι) :
    ∃ before, h = before ++ Transducer.after (step mark room) [] h ∧
      ((∀ f, .overflowed f ∉ Transducer.outputs (step mark room) [] h) →
        Opens mark before (Transducer.after (step mark room) [] h)) := by
  induction h using List.reverseRecOn with
  | nil => exact ⟨[], rfl, fun _ => Or.inl rfl⟩
  | append_singleton h i ih =>
    obtain ⟨before, hplace, hopens⟩ := ih
    rw [Transducer.after_concat, Transducer.outputs_concat, Transducer.reply, step]
    split
    · rename_i hi
      exact ⟨h, rfl, fun _ => Or.inr ⟨i, [], rfl, hi⟩⟩
    · split
      · refine ⟨h ++ [i], (List.append_nil _).symm, fun hno => ?_⟩
        exact (hno (Transducer.after (step mark room) [] h ++ [i]) (by simp)).elim
      · refine ⟨before, ?_, fun hno => ?_⟩
        · rw [← List.append_assoc, ← hplace]
        · rcases hopens fun f hf => hno f (List.mem_append_left _ hf) with hb | ⟨j, rest, hf, hj⟩
          · exact Or.inl hb
          · exact Or.inr ⟨j, rest ++ [i], by rw [hf, List.cons_append], hj⟩

lemma append_split {κ : Type} {l r pre post : List κ} {a : κ} (h : l ++ r = pre ++ a :: post) :
    (∃ more, pre = l ++ more ∧ r = more ++ a :: post) ∨ ∃ more, l = pre ++ a :: more := by
  rcases List.append_eq_append_iff.mp h with hmore | ⟨more, hl, hr⟩
  · exact Or.inl hmore
  · cases more with
    | nil => exact Or.inl ⟨[], by rw [hl, List.append_nil, List.append_nil], hr.symm⟩
    | cons b more =>
      obtain ⟨rfl, -⟩ := List.cons.inj hr
      exact Or.inr ⟨more, hl⟩

lemma step_closed {frame f : List ι} {i : ι} {more post : List (Event ι)}
    (h : (step mark room frame i).2 = more ++ .closed f :: post) :
    more = [] ∧ mark i = true ∧ frame = f := by
  rw [step] at h
  split at h
  · rename_i hi
    match more with
    | [] => exact ⟨rfl, hi, Event.closed.inj (List.cons.inj h).1⟩
    | [_] => simp at h
    | _ :: _ :: _ => simp at h
  · split at h
    · match more with
      | [] | [_] => simp at h
      | _ :: _ :: _ => simp at h
    · match more with
      | [] => simp at h
      | _ :: _ => simp at h

lemma closed_split {h : List ι} {pre post : List (Event ι)} {frame : List ι}
    (hf : Transducer.outputs (step mark room) [] h = pre ++ .closed frame :: post) :
    ∃ before i rest, h = before ++ i :: rest ∧ mark i = true ∧
      Transducer.outputs (step mark room) [] before = pre ∧
      Transducer.after (step mark room) [] before = frame := by
  induction h using List.reverseRecOn generalizing post with
  | nil => simp at hf
  | append_singleton h i ih =>
    rw [Transducer.outputs_concat] at hf
    rcases append_split hf with ⟨more, hpre, hreply⟩ | ⟨more, hout⟩
    · obtain ⟨rfl, hi, hframe⟩ := step_closed hreply
      exact ⟨h, i, [], rfl, hi, by rw [hpre, List.append_nil], hframe⟩
    · obtain ⟨before, j, rest, rfl, hj, hpre, hframe⟩ := ih hout
      exact ⟨before, j, rest ++ [i], by rw [List.append_assoc, List.cons_append], hj, hpre, hframe⟩

/-- Where a closed frame stands: behind all that went into events before it. -/
lemma closed_place {h : List ι} {pre post : List (Event ι)} {frame : List ι}
    (hf : Transducer.outputs (step mark room) [] h = pre ++ .closed frame :: post) :
    ∃ i rest, h = pre.flatMap Event.items ++ frame ++ i :: rest ∧ mark i = true ∧
      ((∀ f, .overflowed f ∉ pre) → Opens mark (pre.flatMap Event.items) frame) := by
  obtain ⟨before, i, rest, rfl, hi, rfl, rfl⟩ := closed_split hf
  refine ⟨i, rest, by rw [partition], hi, fun hno => ?_⟩
  obtain ⟨first, hplace, hopens⟩ := opens_current mark room before
  have hfirst : first = (Transducer.outputs (step mark room) [] before).flatMap Event.items :=
    List.append_cancel_right (hplace.symm.trans (partition before).symm)
  exact hfirst ▸ hopens hno

end Taggy.Framing
