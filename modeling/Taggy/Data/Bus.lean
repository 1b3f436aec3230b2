import Mathlib.Data.List.Sublists
import Mathlib.Logic.Function.Basic
import Mathlib.Tactic

/-! Topics with one first-in first-out queue each. A queue may lose its oldest message, but
never its newest. -/

namespace Taggy

structure Bus {τ μ : Type} [DecidableEq τ] (topic : μ → τ) where
  sent : List μ
  delivered : List μ
  queue : τ → List μ
  fifo : ∀ t, (delivered.filter (topic · = t) ++ queue t).Sublist (sent.filter (topic · = t))
  newest : ∀ t, (delivered.filter (topic · = t) ++ queue t).getLast? =
    (sent.filter (topic · = t)).getLast?

namespace Bus

variable {τ μ : Type} [DecidableEq τ] {topic : μ → τ}

def empty : Bus topic where
  sent := []
  delivered := []
  queue := fun _ => []
  fifo := fun _ => List.Sublist.refl _
  newest := fun _ => rfl

def publish (b : Bus topic) (ms : List μ) : Bus topic where
  sent := b.sent ++ ms
  delivered := b.delivered
  queue := fun t => b.queue t ++ ms.filter (topic · = t)
  fifo := by
    intro t
    rw [List.filter_append, ← List.append_assoc]
    exact (b.fifo t).append_right _
  newest := by
    intro t
    rw [List.filter_append, ← List.append_assoc, List.getLast?_append, b.newest t,
      List.getLast?_append]

lemma topic_of_mem (b : Bus topic) {t : τ} {m : μ} (hm : m ∈ b.queue t) : topic m = t := by
  have hs := (b.fifo t).subset (List.mem_append_right _ hm)
  simpa using (List.mem_filter.mp hs).2

lemma filter_topic_self (b : Bus topic) {t : τ} {m : μ} (hm : m ∈ b.queue t) :
    [m].filter (topic · = t) = [m] := by
  simp [b.topic_of_mem hm]

def deliver (b : Bus topic) (t : τ) : Option (μ × Bus topic) :=
  match hq : b.queue t with
  | [] => none
  | m :: rest =>
    some (m,
      { sent := b.sent
        delivered := b.delivered ++ [m]
        queue := Function.update b.queue t rest
        fifo := by
          intro u
          have hf := b.fifo u
          by_cases hu : u = t
          · subst u
            rw [List.filter_append, b.filter_topic_self (by simp [hq]), Function.update_self,
              List.append_assoc, List.singleton_append, ← hq]
            exact hf
          · have hm : topic m = t := b.topic_of_mem (by simp [hq])
            simpa [Function.update_of_ne hu, hm, Ne.symm hu] using hf
        newest := by
          intro u
          have hn := b.newest u
          by_cases hu : u = t
          · subst u
            rw [List.filter_append, b.filter_topic_self (by simp [hq]), Function.update_self,
              List.append_assoc, List.singleton_append, ← hq]
            exact hn
          · have hm : topic m = t := b.topic_of_mem (by simp [hq])
            simpa [Function.update_of_ne hu, hm, Ne.symm hu] using hn })

lemma getLast?_tail {xs : List μ} (h : 2 ≤ xs.length) : xs.tail.getLast? = xs.getLast? := by
  match xs with
  | [] | [_] => simp at h
  | _ :: y :: ys => simp [List.getLast?_cons_cons]

def drop (b : Bus topic) (t : τ) : Bus topic :=
  if h : 2 ≤ (b.queue t).length then
    { sent := b.sent
      delivered := b.delivered
      queue := Function.update b.queue t (b.queue t).tail
      fifo := by
        intro u
        by_cases hu : u = t
        · subst u
          rw [Function.update_self]
          exact ((List.tail_sublist _).append_left _).trans (b.fifo t)
        · rw [Function.update_of_ne hu]
          exact b.fifo u
      newest := by
        intro u
        by_cases hu : u = t
        · subst u
          have hn := b.newest t
          rw [List.getLast?_append] at hn
          rw [Function.update_self, List.getLast?_append, getLast?_tail h, hn]
        · rw [Function.update_of_ne hu]
          exact b.newest u }
  else b

variable (b : Bus topic) (t : τ)

@[simp] lemma publish_sent (ms : List μ) : (b.publish ms).sent = b.sent ++ ms := rfl

@[simp] lemma publish_delivered (ms : List μ) : (b.publish ms).delivered = b.delivered := rfl

@[simp] lemma drop_sent : (b.drop t).sent = b.sent := by
  rw [drop]
  split <;> rfl

@[simp] lemma drop_delivered : (b.drop t).delivered = b.delivered := by
  rw [drop]
  split <;> rfl

variable {b t} {m : μ} {b' : Bus topic}

lemma deliver_some (h : b.deliver t = some (m, b')) :
    b'.sent = b.sent ∧ b'.delivered = b.delivered ++ [m] ∧
      ∃ rest, b.queue t = m :: rest ∧ b'.queue = Function.update b.queue t rest := by
  unfold deliver at h
  split at h
  · simp at h
  · rename_i m' rest hq
    obtain ⟨rfl, rfl⟩ := Prod.mk.inj (Option.some.inj h)
    exact ⟨rfl, rfl, rest, hq, rfl⟩

lemma deliver_cons {rest : List μ} (h : b.queue t = m :: rest) :
    ∃ b', b.deliver t = some (m, b') ∧ b'.queue = Function.update b.queue t rest := by
  unfold deliver
  split
  · rename_i hq
    rw [hq] at h
    simp at h
  · rename_i m' rest' hq
    rw [hq] at h
    obtain ⟨rfl, rfl⟩ := List.cons.inj h
    exact ⟨_, rfl, rfl⟩

def Awaits (b : Bus topic) (ms : List μ) : Prop := ∀ t, b.queue t = ms.filter (topic · = t)

lemma awaits_publish (h : b.Awaits []) (ms : List μ) : (b.publish ms).Awaits ms := by
  intro t
  change b.queue t ++ _ = _
  rw [h t, List.filter_nil, List.nil_append]

lemma deliver_awaited {ms : List μ} (h : b.Awaits (m :: ms)) :
    ∃ b', b.deliver (topic m) = some (m, b') ∧ b'.Awaits ms := by
  have hq : b.queue (topic m) = m :: ms.filter (topic · = topic m) := by
    rw [h, List.filter_cons_of_pos (by simp)]
  obtain ⟨b', hd, hb⟩ := deliver_cons hq
  refine ⟨b', hd, fun t => ?_⟩
  rw [hb]
  by_cases ht : t = topic m
  · rw [ht, Function.update_self]
  · rw [Function.update_of_ne ht, h t, List.filter_cons_of_neg (by simpa using Ne.symm ht)]

lemma delivered_sublist (b : Bus topic) (t : τ) :
    (b.delivered.filter (topic · = t)).Sublist (b.sent.filter (topic · = t)) :=
  (List.sublist_append_left _ _).trans (b.fifo t)

lemma mem_sent_of_delivered (hm : m ∈ b.delivered) : m ∈ b.sent := by
  have hs := (b.delivered_sublist (topic m)).subset (List.mem_filter.mpr ⟨hm, by simp⟩)
  exact (List.mem_filter.mp hs).1

lemma delivered_newest (h : b.queue t = []) :
    (b.delivered.filter (topic · = t)).getLast? = (b.sent.filter (topic · = t)).getLast? := by
  simpa [h] using b.newest t

end Bus

end Taggy
