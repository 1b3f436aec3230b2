import Mathlib.Data.List.TakeWhile
import Taggy.Teleop.StopOrder

/-! The two emergency stop flags, kept by the teleop and by the node, when every message is
delivered in the order it was published. -/

namespace Taggy.TeleopSystem

open KeyboardTeleop Go2ControlNode History

section Flags

variable {α : Type}

def flag (b : Bool) (ms : List (Msg α)) : Bool :=
  ms.foldl (fun b msg => msg.isActivation || (b && !msg.isRelease)) b

lemma flag_unchanged {ms : List (Msg α)}
    (h : ∀ msg ∈ ms, msg.isActivation = false ∧ msg.isRelease = false) (b : Bool) :
    flag b ms = b := by
  induction ms with
  | nil => rfl
  | cons msg ms ih =>
    obtain ⟨⟨ha, hr⟩, hms⟩ := List.forall_mem_cons.mp h
    have hb : flag b (msg :: ms) = flag b ms := by
      rw [flag, List.foldl_cons, ha, hr, Bool.not_false, Bool.and_true, Bool.false_or]
      rfl
    rw [hb, ih hms]

def handled (ks : List Char) : List Char := ks.takeWhile (· ≠ esc)

lemma handled_eq {ks : List Char} (h : esc ∉ ks) : handled ks = ks := by
  refine List.takeWhile_eq_self_iff.mpr fun k hk => ?_
  simpa using fun he : k = esc => h (he ▸ hk)

lemma handled_concat (ks : List Char) (key : Char) :
    handled (ks ++ [key]) = if esc ∈ ks ∨ key = esc then handled ks else handled ks ++ [key] := by
  by_cases hk : esc ∈ ks
  · rw [if_pos (Or.inl hk), handled, List.takeWhile_append, if_neg]
    · rfl
    · intro hl
      have hs := (List.takeWhile_prefix (· ≠ esc)).eq_of_length hl
      simpa using List.takeWhile_eq_self_iff.mp hs esc hk
  · have hlen : (ks.takeWhile (· ≠ esc)).length = ks.length := congrArg List.length (handled_eq hk)
    rw [handled, List.takeWhile_append, if_pos hlen, handled_eq hk]
    by_cases he : key = esc
    · simp [he]
    · simp [he, hk]

lemma latched_handled {ks : List Char} {key : Char} {reset : Char → Prop} (hk : esc ∉ ks)
    (hr : ¬ reset esc) :
    Latch.Latched (· ∈ stopKeys) reset (handled (ks ++ [key])) ↔
      key ∈ stopKeys ∨ (Latch.Latched (· ∈ stopKeys) reset (handled ks) ∧ ¬ reset key) := by
  rw [handled_concat]
  by_cases he : key = esc
  · have hs : esc ∉ stopKeys := by decide
    rw [if_pos (Or.inr he), he]
    simp [hs, hr]
  · rw [if_neg (not_or.mpr ⟨hk, he⟩), Latch.latched_concat]

/-- A standing key since the latest stop key, with neither a stop nor a release key since. -/
def StoodUp (ks : List Char) : Prop :=
  ∃ pre x post, ks = pre ++ x :: post ∧ x ∈ stopKeys ∧
    (∀ k ∈ post, k ∉ stopKeys ∧ k ∉ releaseKeys) ∧ ∃ k ∈ post, k ∈ standKeys

structure Agreement (ks : List Char) (s : TeleopSystem α) : Prop where
  idle : s.bus.Awaits []
  running : s.teleop.running = true ↔ esc ∉ ks
  teleop : s.teleop.estopActive = true ↔
    Latch.Latched (· ∈ stopKeys) (· ∈ releaseKeys) (handled ks)
  node : s.node.estopActive = true ↔
    Latch.Latched (· ∈ stopKeys) (· ∈ releaseKeys ++ standKeys) (handled ks)

lemma Agreement.node_teleop {ks : List Char} {s : TeleopSystem α} (h : Agreement ks s)
    (hn : s.node.estopActive = true) : s.teleop.estopActive = true := by
  refine h.teleop.mpr (Latch.latched_of_subset ?_ (h.node.mp hn))
  exact fun k hk => List.mem_append_left _ hk

lemma disagree_iff {ks : List Char} {s : TeleopSystem α} (h : Agreement ks s) :
    (s.teleop.estopActive = true ∧ ¬ s.node.estopActive = true) ↔ StoodUp (handled ks) := by
  rw [h.teleop, h.node, Latch.latched_and_not_latched]
  constructor
  · rintro ⟨pre, x, post, he, hx, hp, k, hk, hr⟩
    refine ⟨pre, x, post, he, hx, hp, k, hk, ?_⟩
    exact (List.mem_append.mp hr).resolve_left (hp k hk).2
  · rintro ⟨pre, x, post, he, hx, hp, k, hk, hs⟩
    exact ⟨pre, x, post, he, hx, hp, k, hk, List.mem_append_right _ hs⟩

variable [Py.Arith α] {key : Char} {t : KeyboardTeleop α}

lemma press_quiet (hs : key ∉ stopKeys) (hr : key ∉ releaseKeys) (hu : key ∉ standKeys) :
    (t.press key).1.estopActive = t.estopActive ∧
      ∀ msg ∈ (t.press key).2, msg.isActivation = false ∧ msg.isRelease = false := by
  constructor
  · have hp := pressed key t
    generalize t.press key = r at hp
    cases hp with
    | stop _ hk => exact (hs hk).elim
    | release _ hk => exact (hr hk).elim
    | _ => rfl
  · intro msg hm
    obtain ⟨ha, hf, hp⟩ := press_origin 0 key t msg hm
    cases msg with
    | cmdVel twist => exact ⟨rfl, rfl⟩
    | emergencyStop data =>
      cases data with
      | true => exact (hs (ha rfl)).elim
      | false => exact (hr (hf rfl)).elim
    | cmdPosture posture =>
      refine ⟨rfl, decide_eq_false fun hrel => hu (hp posture rfl hrel)⟩

lemma press_stop (hr : t.running = true) (hk : key ∈ stopKeys) (b : Bool) :
    (t.press key).1.estopActive = true ∧ flag b (t.press key).2 = true := by
  rw [press_running hr]
  simp only [stopKeys, List.mem_cons, List.not_mem_nil, or_false] at hk
  rcases hk with rfl | rfl <;> exact ⟨rfl, rfl⟩

lemma press_release (hr : t.running = true) (hk : key ∈ releaseKeys) {b : Bool}
    (hb : b = true → t.estopActive = true) :
    (t.press key).1.estopActive = false ∧ flag b (t.press key).2 = false := by
  rw [press_running hr]
  obtain ⟨_, _, active, _⟩ := t
  simp only [releaseKeys, List.mem_cons, List.not_mem_nil, or_false] at hk
  cases active with
  | true => rcases hk with rfl | rfl <;> cases b <;> exact ⟨rfl, rfl⟩
  | false =>
    obtain rfl : b = false := by simpa using hb
    rcases hk with rfl | rfl <;> exact ⟨rfl, rfl⟩

lemma press_stand (hr : t.running = true) (hk : key ∈ standKeys) (b : Bool) :
    (t.press key).1.estopActive = t.estopActive ∧ flag b (t.press key).2 = false := by
  rw [press_running hr]
  simp only [standKeys, List.mem_cons, List.not_mem_nil, or_false] at hk
  rcases hk with rfl | rfl <;> cases b <;> exact ⟨rfl, rfl⟩

lemma press_flags (hr : t.running = true) {b : Bool} (hb : b = true → t.estopActive = true) :
    ((t.press key).1.estopActive = true ↔
      key ∈ stopKeys ∨ (t.estopActive = true ∧ key ∉ releaseKeys)) ∧
    (flag b (t.press key).2 = true ↔
      key ∈ stopKeys ∨ (b = true ∧ key ∉ releaseKeys ++ standKeys)) := by
  by_cases hs : key ∈ stopKeys
  · obtain ⟨ht, hn⟩ := press_stop hr hs b
    simp [ht, hn, hs]
  by_cases hk : key ∈ releaseKeys
  · obtain ⟨ht, hn⟩ := press_release hr hk hb
    simp [ht, hn, hs, hk]
  by_cases hu : key ∈ standKeys
  · obtain ⟨ht, hn⟩ := press_stand hr hu b
    simp [ht, hn, hs, hk, hu]
  obtain ⟨ht, hm⟩ := press_quiet (t := t) hs hk hu
  rw [ht, flag_unchanged hm]
  simp [hs, hk, hu]

end Flags

section Delivery

variable {α β : Type} [Py.Arith α] [Zero β] (fs : FloatSemantics α β)

def deliveries : (ℕ → ℤ) → List (Sent α) → List SystemEvent
  | _, [] => []
  | now, m :: ms => .deliver m.msg.topic (now 0) :: deliveries (fun i => now (i + 1)) ms

def pressAndDeliver (key : Char) (now : ℕ → ℤ) (s : TeleopSystem α) : TeleopSystem α :=
  run fs (s.press key)
    (deliveries now ((s.teleop.press key).2.map fun msg => ⟨s.presses, key, msg⟩))

def lockstep (s : TeleopSystem α) (ks : List (Char × (ℕ → ℤ))) : TeleopSystem α :=
  ks.foldl (fun s k => s.pressAndDeliver fs k.1 k.2) s

lemma deliver_awaited {s : TeleopSystem α} {m : Sent α} {ms : List (Sent α)}
    (h : s.bus.Awaits (m :: ms)) (now : ℤ) :
    (s.deliver fs m.msg.topic now).bus.Awaits ms ∧
      (s.deliver fs m.msg.topic now).teleop = s.teleop ∧
      (s.deliver fs m.msg.topic now).node.estopActive = flag s.node.estopActive [m.msg] := by
  obtain ⟨b', hd, ha⟩ := Bus.deliver_awaited h
  rw [deliver, hd]
  refine ⟨ha, rfl, ?_⟩
  rw [Bool.eq_iff_iff, step_estopActive]
  simp [flag, Activation, Release]

lemma run_deliveries {s : TeleopSystem α} {ms : List (Sent α)} (h : s.bus.Awaits ms)
    (now : ℕ → ℤ) :
    (run fs s (deliveries now ms)).bus.Awaits [] ∧
      (run fs s (deliveries now ms)).teleop = s.teleop ∧
      (run fs s (deliveries now ms)).node.estopActive =
        flag s.node.estopActive (ms.map Sent.msg) := by
  induction ms generalizing s now with
  | nil => exact ⟨h, rfl, rfl⟩
  | cons m ms ih =>
    obtain ⟨ha, ht, hn⟩ := deliver_awaited fs h (now 0)
    obtain ⟨ha', ht', hn'⟩ := ih ha fun i => now (i + 1)
    exact ⟨ha', ht'.trans ht, hn'.trans (by rw [hn]; rfl)⟩

lemma pressAndDeliver_spec {s : TeleopSystem α} (h : s.bus.Awaits []) (key : Char) (now : ℕ → ℤ) :
    (s.pressAndDeliver fs key now).bus.Awaits [] ∧
      (s.pressAndDeliver fs key now).teleop = (s.teleop.press key).1 ∧
      (s.pressAndDeliver fs key now).node.estopActive =
        flag s.node.estopActive (s.teleop.press key).2 := by
  obtain ⟨ha, ht, hn⟩ := run_deliveries fs (s := s.press key) (Bus.awaits_publish h _) now
  refine ⟨ha, ht, hn.trans ?_⟩
  rw [List.map_map, Function.comp_def, List.map_id']
  rfl

lemma agreement_press {ks : List Char} {s : TeleopSystem α} (h : Agreement ks s) (key : Char)
    (now : ℕ → ℤ) : Agreement (ks ++ [key]) (s.pressAndDeliver fs key now) := by
  obtain ⟨ha, ht, hn⟩ := pressAndDeliver_spec fs h.idle key now
  cases hr : s.teleop.running with
  | false =>
    have hesc : esc ∈ ks := by simpa [hr] using h.running
    have hk : handled (ks ++ [key]) = handled ks := by rw [handled_concat, if_pos (Or.inl hesc)]
    rw [press_exited hr] at ht hn
    refine ⟨ha, by simp [ht, hr, hesc], ?_, ?_⟩
    · rw [ht, hk]
      exact h.teleop
    · rw [hn, hk]
      exact h.node
  | true =>
    have hesc : esc ∉ ks := h.running.mp hr
    obtain ⟨hft, hfn⟩ := press_flags hr h.node_teleop
    have hrun : (s.pressAndDeliver fs key now).teleop.running = true ↔ esc ∉ ks ++ [key] := by
      rw [ht, running_press_iff hr]
      simp [hesc, eq_comm]
    rw [← ht, h.teleop] at hft
    rw [← hn, h.node] at hfn
    refine ⟨ha, hrun, ?_, ?_⟩
    · exact hft.trans (latched_handled hesc (by decide)).symm
    · exact hfn.trans (latched_handled hesc (by decide)).symm

lemma agreement_lockstep (linearSpeed angularSpeed : α) (ks : List (Char × (ℕ → ℤ))) :
    Agreement (ks.map Prod.fst) (lockstep fs (start linearSpeed angularSpeed) ks) := by
  induction ks using List.reverseRecOn with
  | nil => exact ⟨fun _ => rfl, by simp [lockstep, start], by simp [lockstep, start, handled],
      by simp [lockstep, start, handled]⟩
  | append_singleton ks k ih =>
    rw [List.map_append, lockstep, List.foldl_append]
    exact agreement_press fs ih k.1 k.2

def velocityOf (key : Char) (t : KeyboardTeleop α) : Option (Msg α) :=
  (moveBindings key).map fun v =>
    sendVelocity (v.1 * t.linearSpeed) (v.2.1 * t.linearSpeed) (v.2.2 * t.angularSpeed)

def Refuses (t : KeyboardTeleop α) (key : Char) : Prop := (t.press key).2 = []

def Ignores (n : Go2ControlNode) (msg : Msg α) : Prop :=
  ∀ now, (Go2ControlNode.step fs n (now, msg)).2 = []

lemma refuses_iff {t : KeyboardTeleop α} {key : Char} {msg : Msg α} (hr : t.running = true)
    (hm : velocityOf key t = some msg) : Refuses t key ↔ t.estopActive = true := by
  obtain ⟨v, hv, -⟩ := Option.map_eq_some_iff.mp hm
  rw [Refuses, press_movement hv hr]
  cases t.estopActive with
  | true => exact iff_of_true rfl rfl
  | false => exact iff_of_false (List.cons_ne_nil _ _) Bool.false_ne_true

lemma ignores_iff {t : KeyboardTeleop α} {key : Char} {msg : Msg α} (n : Go2ControlNode)
    (hm : velocityOf key t = some msg) : Ignores fs n msg ↔ n.estopActive = true := by
  obtain ⟨v, -, rfl⟩ := Option.map_eq_some_iff.mp hm
  simp only [Ignores, Go2ControlNode.step, sendVelocity, cmdVelCallback_eq]
  cases n.estopActive with
  | true => simp
  | false => simp

/-- The node never holds its flag alone, and the teleop holds its own alone exactly when
`stoodUp`. -/
structure AgreeUnless (stoodUp : Prop) (s : TeleopSystem α) : Prop where
  node_teleop : s.node.estopActive = true → s.teleop.estopActive = true
  flags : s.teleop.estopActive = s.node.estopActive ↔ ¬ stoodUp
  refuses : s.teleop.running = true → ∀ key msg, velocityOf key s.teleop = some msg →
    (Refuses s.teleop key ↔ Ignores fs s.node msg ∨ stoodUp)

theorem flags_agree (linearSpeed angularSpeed : α) (ks : List (Char × (ℕ → ℤ))) :
    AgreeUnless fs (StoodUp (handled (ks.map Prod.fst)))
      (lockstep fs (start linearSpeed angularSpeed) ks) := by
  have h := agreement_lockstep fs linearSpeed angularSpeed ks
  have hn := h.node_teleop
  have hd := disagree_iff h
  refine ⟨hn, ?_, fun hr key msg hm => ?_⟩
  · rw [← hd, Bool.eq_iff_iff]
    tauto
  · rw [refuses_iff hr hm, ignores_iff fs _ hm, ← hd]
    tauto

theorem flags_disagree :
    ¬ ((lockstep FloatSemantics.exact (start (3 / 10) (1 / 2))
        [('x', fun _ => 0), ('1', fun _ => 1)]).teleop.estopActive =
      (lockstep FloatSemantics.exact (start (3 / 10) (1 / 2))
        [('x', fun _ => 0), ('1', fun _ => 1)]).node.estopActive) := by
  decide

end Delivery

end Taggy.TeleopSystem
