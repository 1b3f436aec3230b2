import Taggy.Control.LastCommand
import Taggy.Teleop.TeleopSystem

/-! Which keys the messages of a run come from, and what a processed stop key holds back
whatever the order of delivery. -/

namespace Taggy.TeleopSystem

open KeyboardTeleop Go2ControlNode History

section Origin

variable {α : Type}

/-- The stop and release messages come from their keys, the standing postures from theirs. -/
def Origin (m : Sent α) : Prop :=
  (m.msg = .emergencyStop true → m.key ∈ stopKeys) ∧
    (m.msg = .emergencyStop false → m.key ∈ releaseKeys) ∧
    ∀ posture, m.msg = .cmdPosture posture → posture ∈ releasePostures → m.key ∈ standKeys

def Chronological (a b : Sent α) : Prop := a.press < b.press ∨ (a.press = b.press ∧ a.key = b.key)

lemma release_posture_key {key : Char} {posture : String}
    (hk : postureBindings key = some posture) (hp : posture ∈ releasePostures) :
    key ∈ standKeys := by
  unfold postureBindings at hk
  split at hk <;> simp only [Option.some.injEq, reduceCtorEq] at hk <;> subst hk
  all_goals revert hp; decide

variable [Py.Arith α]

lemma press_origin (p : ℕ) (key : Char) (t : KeyboardTeleop α) :
    ∀ msg ∈ (t.press key).2, Origin ⟨p, key, msg⟩ := by
  have hp := pressed key t
  generalize t.press key = r at hp
  intro msg hm
  cases hp with
  | exited | idleRelease | speed | refused | unbound => simp at hm
  | quit => simp_all [Origin, sendVelocity]
  | stop _ hk =>
    simp only [List.mem_cons, List.not_mem_nil, or_false] at hm
    rcases hm with rfl | rfl <;> simp [Origin, sendVelocity, hk]
  | release _ hk => simp_all [Origin]
  | posture posture _ hk =>
    obtain rfl := List.mem_singleton.mp hm
    refine ⟨by simp, by simp, ?_⟩
    rintro posture' ⟨⟩ hp
    exact release_posture_key hk hp
  | space => simp_all [Origin, sendVelocity]
  | move => simp_all [Origin, sendVelocity]

structure Provenance (s : TeleopSystem α) : Prop where
  origin : ∀ m ∈ s.bus.sent, Origin m
  press_lt : ∀ m ∈ s.bus.sent, m.press < s.presses
  chronological : s.bus.sent.Pairwise Chronological

lemma provenance_press {s : TeleopSystem α} (h : Provenance s) (key : Char) :
    Provenance (s.press key) := by
  have hnew : ∀ m ∈ (s.teleop.press key).2.map fun msg => (⟨s.presses, key, msg⟩ : Sent α),
      Origin m ∧ m.press = s.presses ∧ m.key = key := by
    intro m hm
    obtain ⟨msg, hmsg, rfl⟩ := List.mem_map.mp hm
    exact ⟨press_origin s.presses key s.teleop msg hmsg, rfl, rfl⟩
  refine ⟨?_, ?_, ?_⟩
  · intro m hm
    exact (List.mem_append.mp hm).elim (h.origin m) fun hm => (hnew m hm).1
  · intro m hm
    change m.press < s.presses + 1
    rcases List.mem_append.mp hm with hm | hm
    · exact (h.press_lt m hm).trans (Nat.lt_succ_self _)
    · rw [(hnew m hm).2.1]
      exact Nat.lt_succ_self _
  · refine List.pairwise_append.mpr ⟨h.chronological, ?_, ?_⟩
    · refine List.pairwise_of_forall_mem_list fun a ha b hb => Or.inr ?_
      exact ⟨(hnew a ha).2.1.trans (hnew b hb).2.1.symm, (hnew a ha).2.2.trans (hnew b hb).2.2.symm⟩
    · intro a ha b hb
      exact Or.inl ((hnew b hb).2.1 ▸ h.press_lt a ha)

end Origin

variable {α β : Type} [Py.Arith α] [Zero β] {fs : FloatSemantics α β}

variable (fs) in
lemma provenance_run (linearSpeed angularSpeed : α) (es : List SystemEvent) :
    Provenance (run fs (start linearSpeed angularSpeed) es) := by
  apply run_invariant
  · exact ⟨by simp [start, Bus.empty], by simp [start, Bus.empty], by simp [start, Bus.empty]⟩
  · intro key s h
    exact provenance_press h key
  · intro topic now s h
    obtain ⟨-, hp, hs⟩ := deliver_frame fs s topic now
    exact ⟨by rw [hs]; exact h.origin, by rw [hs, hp]; exact h.press_lt,
      by rw [hs]; exact h.chronological⟩
  · intro topic s h
    exact ⟨by simpa using h.origin, by simpa using h.press_lt, by simpa using h.chronological⟩

variable {s : TeleopSystem α}

lemma log_origin (ht : Traced fs s) (hp : Provenance s) {d : Delivery α} (hd : d ∈ s.log) :
    Origin d.sent := by
  apply hp.origin
  apply Bus.mem_sent_of_delivered
  rw [← ht.delivered]
  exact List.mem_map_of_mem hd

lemma log_chronological (ht : Traced fs s) (hp : Provenance s) {pre post : List (Delivery α)}
    {x e : Delivery α} (hl : s.log = pre ++ x :: post) (he : e ∈ post)
    (htopic : e.sent.msg.topic = x.sent.msg.topic) : Chronological x.sent e.sent := by
  have hs := s.bus.delivered_sublist x.sent.msg.topic
  rw [← ht.delivered, hl, List.map_append, List.map_cons, List.filter_append,
    List.filter_cons_of_pos (by simp)] at hs
  have hc := (hp.chronological.sublist List.filter_sublist).sublist hs
  apply (List.pairwise_cons.mp (List.pairwise_append.mp hc).2.1).1
  exact List.mem_filter.mpr ⟨List.mem_map_of_mem he, by simpa using htopic⟩

variable (fs)

def NonzeroMove (req : Request) : Prop :=
  req.apiId = SportAPI.move ∧
    req.parameter ≠ velocityText (fs.dumpFloat 0) (fs.dumpFloat 0) (fs.dumpFloat 0)

instance : DecidablePred (NonzeroMove fs) := fun _ => inferInstanceAs (Decidable (_ ∧ _))

/-- Once the message of a stop key has been processed, no nonzero velocity goes out until a
message that `releases` it has been. -/
def HeldUntil (releases : Sent α → Sent α → Prop) (s : TeleopSystem α) : Prop :=
  ∀ pre x mid d post, s.log = pre ++ x :: (mid ++ d :: post) →
    x.sent.key ∈ stopKeys → x.sent.msg = .emergencyStop true →
      (∀ e ∈ mid ++ [d], ¬ releases x.sent e.sent) → ∀ req ∈ d.requests, ¬ NonzeroMove fs req

def LaterRelease (x e : Sent α) : Prop := x.press < e.press ∧ e.key ∈ releaseKeys ++ standKeys

def LaterReleaseOrStand (x e : Sent α) : Prop :=
  (x.press < e.press ∧ e.key ∈ releaseKeys) ∨ e.key ∈ standKeys

variable {fs}

lemma release_origin (ht : Traced fs s) (hp : Provenance s) {pre post : List (Delivery α)}
    {x e : Delivery α} (hl : s.log = pre ++ x :: post) (hk : x.sent.key ∈ stopKeys)
    (hx : x.sent.msg = .emergencyStop true) (he : e ∈ post) (hr : Release e.input) :
    LaterReleaseOrStand x.sent e.sent := by
  have ho := log_origin ht hp (d := e) (by simp [hl, he])
  cases hm : e.sent.msg with
  | cmdVel twist => simp [Release, hm] at hr
  | emergencyStop data =>
    have hd : data = false := by simpa [Release, Delivery.input, hm] using hr
    have hkey : e.sent.key ∈ releaseKeys := ho.2.1 (hd ▸ hm)
    have hc := log_chronological ht hp hl he (by rw [hm, hx]; rfl)
    refine Or.inl ⟨hc.resolve_right fun hsame => ?_, hkey⟩
    -- A stop key is not a release key, so the two presses differ.
    rw [← hsame.2] at hkey
    exact stop_not_release hk hkey
  | cmdPosture posture =>
    have hrel : posture ∈ releasePostures := by simpa [Release, Delivery.input, hm] using hr
    exact Or.inr (ho.2.2 posture hm hrel)

theorem held_until_release (fs : FloatSemantics α β) (linearSpeed angularSpeed : α)
    (es : List SystemEvent) :
    HeldUntil fs LaterReleaseOrStand (run fs (start linearSpeed angularSpeed) es) := by
  intro pre x mid d post hl hk hx hr req hreq
  have ht := traced_run fs linearSpeed angularSpeed es
  have hp := provenance_run fs linearSpeed angularSpeed es
  have hstop : Stopped ((pre ++ x :: mid).map Delivery.input) := by
    refine ⟨pre.map Delivery.input, x.input, mid.map Delivery.input, by simp, ?_, ?_⟩
    · simp [Activation, hx]
    · intro i hi
      obtain ⟨e, he, rfl⟩ := List.mem_map.mp hi
      intro hrel
      exact hr e (by simp [he]) (release_origin ht hp hl hk hx (by simp [he]) hrel)
  have hd := ht.requests (pre ++ x :: mid) d post (by simp [hl])
  rw [hd] at hreq
  intro hmove
  have hc := no_command_of_stopped fs hstop _ req hreq
  rw [isCommand, hmove.1] at hc
  exact absurd hc (by decide)

theorem overtaken_stop :
    ¬ HeldUntil FloatSemantics.exact LaterRelease
      (run FloatSemantics.exact (start (3 / 10) (1 / 2))
        [.key '1', .key 'q', .key 'x', .deliver .emergencyStop 0, .deliver .cmdPosture 1,
          .deliver .cmdVel 2]) := by
  intro h
  refine h [] _ [_] _ [] rfl (by decide) rfl ?_ _ (List.mem_singleton_self _) (by decide +kernel)
  rw [List.singleton_append, List.forall_mem_cons, List.forall_mem_singleton]
  exact ⟨fun hr => absurd hr.1 (by decide), fun hr => absurd hr.1 (by decide)⟩

end Taggy.TeleopSystem
