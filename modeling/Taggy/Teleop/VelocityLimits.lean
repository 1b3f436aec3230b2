import Taggy.Control.RequestReuse
import Taggy.Teleop.SpeedKeys

/-! The size of the velocities that reach the robot from a sequence of keys. -/

namespace Taggy

-- The serializer's text is left open, and numbers are exact.
def FloatSemantics.rational (dumpFloat : ℚ → String) : FloatSemantics ℚ ℚ where
  narrow := ZeroHom.id ℚ
  dumpFloat := dumpFloat

def Twist.Within (limit : ℚ) (twist : Twist ℚ) : Prop :=
  |twist.linear.x| ≤ limit ∧ |twist.linear.y| ≤ limit ∧ |twist.angular.z| ≤ limit

lemma Twist.within_zero {limit : ℚ} (hl : 0 ≤ limit) : (0 : Twist ℚ).Within limit := by
  have h : |(0 : ℚ)| ≤ limit := abs_zero.trans_le hl
  exact ⟨h, h, h⟩

namespace KeyboardTeleop

open TeleopSystem

def rotationKeys : List Char := ['q', 'e', 'Q', 'E']

lemma movement_binding {key : Char} (hk : key ∈ movementKeys) :
    ∃ v : ℚ × ℚ × ℚ, moveBindings key = some v ∧
      if key ∈ rotationKeys then v.1 = 0 ∧ v.2.1 = 0 ∧ |v.2.2| = 1
      else v.2.2 = 0 ∧ (|v.1| = 1 ∧ v.2.1 = 0 ∨ v.1 = 0 ∧ |v.2.1| = 1) := by
  simp only [movementKeys, List.mem_cons, List.not_mem_nil, or_false] at hk
  rcases hk with rfl | rfl | rfl | rfl | rfl | rfl | rfl | rfl | rfl | rfl | rfl | rfl <;>
    exact ⟨_, rfl, by decide +kernel⟩

/-- The speed the movement key goes at after the keys, started at the default speeds. -/
def speedOf (key : Char) (ks : List Char) : ℚ :=
  if key ∈ rotationKeys then speedAfter 2 (1 / 2) ks else speedAfter (3 / 2) (3 / 10) ks

def velocity (v : ℚ × ℚ × ℚ) (linearSpeed angularSpeed : ℚ) : Twist ℚ :=
  ⟨⟨v.1 * linearSpeed, v.2.1 * linearSpeed, 0⟩, ⟨0, 0, v.2.2 * angularSpeed⟩⟩

lemma abs_mul_unit {u s : ℚ} (hu : |u| = 1) (hs : 0 < s) : |u * s| = s := by
  rw [abs_mul, hu, one_mul, abs_of_pos hs]

lemma velocity_within {key : Char} {v : ℚ × ℚ × ℚ} (hv : moveBindings key = some v)
    {linearSpeed angularSpeed : ℚ} (hl : 0 < linearSpeed) (ha : 0 < angularSpeed) :
    (velocity v linearSpeed angularSpeed).Within 1 ↔
      (if key ∈ rotationKeys then angularSpeed else linearSpeed) ≤ 1 := by
  obtain ⟨v', hv', hunit⟩ := movement_binding (movement_of_binding hv)
  obtain rfl := Option.some_inj.mp (hv.symm.trans hv')
  rw [velocity, Twist.Within]
  by_cases hr : key ∈ rotationKeys
  · rw [if_pos hr] at hunit ⊢
    obtain ⟨hx, hy, hz⟩ := hunit
    rw [hx, hy, abs_mul_unit hz ha]
    simp
  · rw [if_neg hr] at hunit ⊢
    obtain ⟨hz, ⟨hx, hy⟩ | ⟨hx, hy⟩⟩ := hunit
    · rw [hz, hy, abs_mul_unit hx hl]
      simp
    · rw [hz, hx, abs_mul_unit hy hl]
      simp

def initial : KeyboardTeleop ℚ := { linearSpeed := 3 / 10, angularSpeed := 1 / 2 }

lemma initial_speedOf (key : Char) (ks : List Char) :
    (if key ∈ rotationKeys then (initial.typed ks).angularSpeed
      else (initial.typed ks).linearSpeed) = speedOf key ks := by
  have hl : (1.5 : ℚ) = 3 / 2 := by norm_num
  have ha : (2.0 : ℚ) = 2 := by norm_num
  obtain ⟨-, hl', ha'⟩ := typed_speeds (t := initial) rfl ks
  rw [hl', ha', hl, ha]
  rfl

variable {α : Type} [Py.Arith α]

lemma press_accepted {t : KeyboardTeleop ℚ} {key : Char} {v : ℚ × ℚ × ℚ}
    (hv : moveBindings key = some v) (hr : t.running = true) (ht : t.estopActive = false) :
    t.press key = (t, [.cmdVel (velocity v t.linearSpeed t.angularSpeed)]) := by
  rw [press_movement hv hr, ht]
  rfl

lemma press_twist {t : KeyboardTeleop α} {key : Char} {twist : Twist α}
    (hm : .cmdVel twist ∈ (t.press key).2) :
    twist = 0 ∨ (t.running = true ∧ t.estopActive = false ∧ ∃ v, moveBindings key = some v ∧
      twist =
        ⟨⟨v.1 * t.linearSpeed, v.2.1 * t.linearSpeed, 0⟩, ⟨0, 0, v.2.2 * t.angularSpeed⟩⟩) := by
  have hp := pressed key t
  generalize t.press key = r at hp hm
  cases hp with
  | exited | release | idleRelease | posture | speed | refused | unbound => simp at hm
  | quit | stop | space =>
    simp [sendVelocity] at hm
    exact Or.inl hm
  | move v hr hv he =>
    obtain ⟨⟩ := List.mem_singleton.mp hm
    exact Or.inr ⟨hr, he, v, hv, rfl⟩

lemma typed_estopActive {t : KeyboardTeleop α} (hr : t.running = true)
    (ht : t.estopActive = false) (ks : List Char) :
    (t.typed ks).estopActive = true ↔
      Latch.Latched (· ∈ stopKeys) (· ∈ releaseKeys) (handled ks) := by
  induction ks using List.reverseRecOn with
  | nil => simp [typed, ht, handled]
  | append_singleton ks key ih =>
    have hrun := (typed_speeds hr ks).1
    rw [typed_concat]
    by_cases he : esc ∈ ks
    · have hx : (t.typed ks).running = false := by simpa using mt hrun.mp (not_not_intro he)
      rw [press_exited hx, handled_concat, if_pos (Or.inl he)]
      exact ih
    · rw [(press_flags (hrun.mpr he) (b := false) (by simp)).1, latched_handled he (by decide), ih]

end KeyboardTeleop

namespace TeleopSystem

open KeyboardTeleop Go2ControlNode History

section Typed

variable {α β : Type} [Py.Arith α] [Zero β] {fs : FloatSemantics α β}

structure Typing (t : KeyboardTeleop α) (ks : List Char) (s : TeleopSystem α) : Prop where
  teleop : s.teleop = t.typed ks
  sent : ∀ m ∈ s.bus.sent, ∃ pre post, ks = pre ++ m.key :: post ∧
    m.msg ∈ ((t.typed pre).press m.key).2

variable (fs) in
lemma typing_run (linearSpeed angularSpeed : α) (es : List SystemEvent) :
    Typing (start linearSpeed angularSpeed).teleop (keys es)
      (run fs (start linearSpeed angularSpeed) es) := by
  apply run_keys_invariant
  · exact ⟨rfl, by simp [start, Bus.empty]⟩
  · intro ks key s h
    refine ⟨?_, ?_⟩
    · rw [typed_concat, ← h.teleop]
      rfl
    · intro m hm
      rcases List.mem_append.mp hm with hm | hm
      · obtain ⟨pre, post, rfl, hmsg⟩ := h.sent m hm
        exact ⟨pre, post ++ [key], by simp, hmsg⟩
      · obtain ⟨msg, hmsg, rfl⟩ := List.mem_map.mp hm
        exact ⟨ks, [], rfl, h.teleop ▸ hmsg⟩
  · intro ks topic now s h
    obtain ⟨ht, -, hs⟩ := deliver_frame fs s topic now
    exact ⟨ht.trans h.teleop, by rw [hs]; exact h.sent⟩
  · intro ks topic s h
    exact ⟨h.teleop, by simpa using h.sent⟩

lemma Typing.log {t : KeyboardTeleop α} {ks : List Char} {s : TeleopSystem α} (h : Typing t ks s)
    (ht : Traced fs s) {d : Delivery α} (hd : d ∈ s.log) :
    ∃ pre post, ks = pre ++ d.sent.key :: post ∧
      d.sent.msg ∈ ((t.typed pre).press d.sent.key).2 := by
  apply h.sent
  apply Bus.mem_sent_of_delivered
  rw [← ht.delivered]
  exact List.mem_map_of_mem hd

lemma run_append (s : TeleopSystem α) (es es' : List SystemEvent) :
    run fs s (es ++ es') = run fs (run fs s es) es' := List.foldl_append

lemma keys_append (es es' : List SystemEvent) : keys (es ++ es') = keys es ++ keys es' :=
  List.filterMap_append

omit [Py.Arith α] in
lemma keys_deliveries (now : ℕ → ℤ) (ms : List (Sent α)) : keys (deliveries now ms) = [] := by
  induction ms generalizing now with
  | nil => rfl
  | cons m ms ih => exact ih fun i => now (i + 1)

variable (fs) in
lemma lockstep_run (s : TeleopSystem α) (ks : List (Char × (ℕ → ℤ))) :
    ∃ es, keys es = ks.map Prod.fst ∧ run fs s es = lockstep fs s ks := by
  induction ks using List.reverseRecOn with
  | nil => exact ⟨[], rfl, rfl⟩
  | append_singleton ks k ih =>
    obtain ⟨es, hk, hr⟩ := ih
    refine ⟨es ++ .key k.1 :: deliveries k.2 (((lockstep fs s ks).teleop.press k.1).2.map
      fun msg => ⟨(lockstep fs s ks).presses, k.1, msg⟩), ?_, ?_⟩
    · rw [keys_append, hk, List.map_append]
      exact congrArg (ks.map Prod.fst ++ k.1 :: ·) (keys_deliveries _ _)
    · have hl : lockstep fs s (ks ++ [k]) = (lockstep fs s ks).pressAndDeliver fs k.1 k.2 :=
        List.foldl_concat ..
      rw [run_append, hr, hl]
      rfl

omit [Py.Arith α] in
lemma keys_map_key (ks : List Char) : keys (ks.map .key) = ks := by
  rw [keys, List.filterMap_map]
  exact List.filterMap_some

lemma run_keys_log (s : TeleopSystem α) (ks : List Char) :
    (run fs s (ks.map .key)).log = s.log := by
  induction ks generalizing s with
  | nil => rfl
  | cons key ks ih => exact ih (s.press key)

end Typed

section Limits

variable (dumpFloat : ℚ → String)

/-- Every velocity request carries a velocity within the limits of the documentation. -/
def Limited (s : TeleopSystem ℚ) : Prop :=
  ∀ d ∈ s.log, ∀ req ∈ d.requests, req.apiId = SportAPI.move →
    ∃ twist, d.sent.msg = .cmdVel twist ∧
      CarriesVelocity (.rational dumpFloat) twist req ∧ twist.Within 1

/-- The keys that move the robot are typed at a speed of at most 1. -/
def Moderate (ks : List Char) : Prop :=
  AtEachStep (fun pre key => key ∈ movementKeys → esc ∉ pre →
    ¬ Latch.Latched (· ∈ stopKeys) (· ∈ releaseKeys) pre → speedOf key pre ≤ 1) ks

variable {dumpFloat}

lemma initial_accepts {ks : List Char} :
    ((initial.typed ks).running = true ∧ (initial.typed ks).estopActive = false) ↔
      esc ∉ ks ∧ ¬ Latch.Latched (· ∈ stopKeys) (· ∈ releaseKeys) ks := by
  rw [(typed_speeds rfl ks).1, ← Bool.not_eq_true, typed_estopActive rfl rfl]
  refine and_congr_right fun he => ?_
  rw [handled_eq he]

lemma initial_within {ks : List Char} {key : Char} {v : ℚ × ℚ × ℚ}
    (hv : moveBindings key = some v) :
    (velocity v (initial.typed ks).linearSpeed (initial.typed ks).angularSpeed).Within 1 ↔
      speedOf key ks ≤ 1 := by
  obtain ⟨-, hl, ha⟩ := typed_speeds (t := initial) rfl ks
  rw [velocity_within hv, initial_speedOf]
  · rw [hl]
    exact speedAfter_pos (by norm_num) (by norm_num [initial]) ks
  · rw [ha]
    exact speedAfter_pos (by norm_num) (by norm_num [initial]) ks

lemma limited_of_moderate {es : List SystemEvent} (hm : Moderate (keys es)) :
    Limited dumpFloat (run (.rational dumpFloat) (start (3 / 10) (1 / 2)) es) := by
  intro d hd req hreq hmove
  have ht := traced_run (.rational dumpFloat) (3 / 10 : ℚ) (1 / 2) es
  have hy := typing_run (.rational dumpFloat) (3 / 10 : ℚ) (1 / 2) es
  obtain ⟨pre, post, hl⟩ := List.append_of_mem hd
  rw [ht.requests pre d post hl] at hreq
  obtain ⟨ks, ks', hks, hmsg⟩ := hy.log ht hd
  cases hw : d.sent.msg with
  | cmdVel twist =>
    rw [Delivery.input, hw, publishes_cmdVel] at hreq
    split at hreq
    · exact (List.not_mem_nil hreq).elim
    obtain rfl := List.mem_singleton.mp hreq
    refine ⟨twist, rfl, moveRequest_carries _ _ _ _, ?_⟩
    rw [hw] at hmsg
    rcases press_twist hmsg with rfl | ⟨hr, he, v, hv, rfl⟩
    · exact Twist.within_zero zero_le_one
    · obtain ⟨hesc, hstop⟩ := initial_accepts.mp ⟨hr, he⟩
      exact (initial_within hv).mpr (hm ks _ ks' hks (movement_of_binding hv) hesc hstop)
  | emergencyStop | cmdPosture =>
    obtain ⟨apiId, ha, rfl⟩ := published_command _ hreq
    obtain rfl : apiId = SportAPI.move := hmove
    have hs := api?_eq_move.mp ha
    rw [hw] at hs
    exact (Bool.false_ne_true hs).elim

variable (dumpFloat) in
lemma prompt_run (ks : List Char) :
    ∃ es, keys es = ks ∧ ∃ s, run (.rational dumpFloat) (start (3 / 10) (1 / 2)) es = s ∧
      s.teleop = initial.typed ks ∧ s.bus.Awaits [] ∧
      (s.node.estopActive = true → s.teleop.estopActive = true) := by
  have hks : (ks.map fun key => (key, fun _ : ℕ => (0 : ℤ))).map Prod.fst = ks := by
    rw [List.map_map, Function.comp_def, List.map_id']
  obtain ⟨es, hes, hrun⟩ := lockstep_run (.rational dumpFloat)
    (start (3 / 10 : ℚ) (1 / 2)) (ks.map fun key => (key, fun _ => 0))
  have hagree := agreement_lockstep (.rational dumpFloat) (3 / 10 : ℚ) (1 / 2)
    (ks.map fun key => (key, fun _ => 0))
  have hy := typing_run (.rational dumpFloat) (3 / 10 : ℚ) (1 / 2) es
  rw [hks] at hes
  rw [hes, hrun] at hy
  exact ⟨es, hes, _, hrun, hy.teleop, hagree.idle, hagree.node_teleop⟩

lemma press_delivered {fs : FloatSemantics ℚ ℚ} {s : TeleopSystem ℚ} {key : Char} {twist : Twist ℚ}
    (hi : s.bus.Awaits []) (hn : s.node.estopActive = false)
    (hp : s.teleop.press key = (s.teleop, [.cmdVel twist])) :
    ∃ d ∈ (run fs s [.key key, .deliver .cmdVel 0]).log,
      d.sent.msg = .cmdVel twist ∧ ∃ req ∈ d.requests, req.apiId = SportAPI.move := by
  have ha := Bus.awaits_publish hi [(⟨s.presses, key, .cmdVel twist⟩ : Sent ℚ)]
  obtain ⟨bus, hb, -⟩ := Bus.deliver_awaited ha
  have hs : run fs s [.key key, .deliver .cmdVel 0] = (s.press key).deliver fs .cmdVel 0 := rfl
  have hbus : (s.press key).bus.deliver .cmdVel = some (⟨s.presses, key, .cmdVel twist⟩, bus) := by
    rw [press, hp]
    exact hb
  rw [hs, deliver, hbus]
  refine ⟨_, List.mem_append_right _ (List.mem_singleton_self _), rfl,
    moveRequest fs 0 twist s.node.request, ?_, rfl⟩
  have hstep : (s.node.cmdVelCallback fs 0 twist).2 = [moveRequest fs 0 twist s.node.request] := by
    rw [cmdVelCallback_eq, hn]
    rfl
  exact hstep ▸ List.mem_singleton_self _

variable (dumpFloat) in
/-- A movement key that the teleop accepts reaches the robot when every message before it has
been delivered. -/
lemma accepted_delivered {pre : List Char} {key : Char} {v : ℚ × ℚ × ℚ}
    (hv : moveBindings key = some v) (hr : (initial.typed pre).running = true)
    (he : (initial.typed pre).estopActive = false) :
    ∃ es, keys es = pre ++ [key] ∧
      ∃ d ∈ (run (.rational dumpFloat) (start (3 / 10) (1 / 2)) es).log,
        d.sent.msg = .cmdVel
            (velocity v (initial.typed pre).linearSpeed (initial.typed pre).angularSpeed) ∧
          ∃ req ∈ d.requests, req.apiId = SportAPI.move := by
  obtain ⟨es, hes, s, hrun, ht, hi, hn⟩ := prompt_run dumpFloat pre
  rw [← ht] at hr he ⊢
  have hstop : s.node.estopActive = false := by
    simpa [he] using hn
  refine ⟨es ++ [.key key, .deliver .cmdVel 0], ?_, ?_⟩
  · rw [keys_append, hes]
    rfl
  · rw [run_append, hrun]
    exact press_delivered hi hstop (press_accepted hv hr he)

lemma moderate_of_limited {ks : List Char}
    (hall : ∀ es, keys es = ks →
      Limited dumpFloat (run (.rational dumpFloat) (start (3 / 10) (1 / 2)) es)) :
    Moderate ks := by
  intro pre key post hks hkey hesc hstop
  obtain ⟨v, hv, -⟩ := movement_binding hkey
  obtain ⟨hr, he⟩ := initial_accepts.mpr ⟨hesc, hstop⟩
  obtain ⟨es, hes, d, hd, hmsg, req, hreq, hmove⟩ := accepted_delivered dumpFloat hv hr he
  have hlim := hall (es ++ post.map .key) (by
    rw [keys_append, hes, keys_map_key, hks, List.append_assoc, List.singleton_append])
  rw [run_append] at hlim
  obtain ⟨twist, hw, -, hin⟩ := hlim d (by rwa [run_keys_log]) req hreq hmove
  obtain rfl := Msg.cmdVel.inj (hmsg.symm.trans hw)
  exact (initial_within hv).mp hin

variable (dumpFloat) in
theorem limited_iff (ks : List Char) :
    (∀ es, keys es = ks →
      Limited dumpFloat (run (.rational dumpFloat) (start (3 / 10) (1 / 2)) es)) ↔
      Moderate ks :=
  ⟨moderate_of_limited, fun hm _ hes => limited_of_moderate (hes ▸ hm)⟩

def fastTurn : List SystemEvent := (List.replicate 8 '+').map .key ++ [.key 'q', .deliver .cmdVel 0]

theorem turn_over_limit :
    ¬ Limited FloatSemantics.exact.dumpFloat
      (run (.rational FloatSemantics.exact.dumpFloat) (start (3 / 10) (1 / 2)) fastTurn) := by
  intro h
  obtain ⟨twist, hw, -, -, -, hz⟩ :=
    h _ (List.mem_singleton_self _) _ (List.mem_singleton_self _) rfl
  obtain rfl := Msg.cmdVel.inj hw
  revert hz
  decide +kernel

end Limits

end TeleopSystem

end Taggy
