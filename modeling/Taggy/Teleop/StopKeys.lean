import Taggy.Control.LastCommand
import Taggy.Teleop.TeleopSystem

/-! The keys that halt the robot win over the movement keys typed before them, whatever the
order of delivery. -/

namespace Taggy

namespace KeyboardTeleop

def haltKeys : List Char := [' ', '\x1b', 'x', 'X']

def velocityKeys : List Char := movementKeys ++ haltKeys

variable {α : Type} [Py.Arith α] {key : Char}

lemma press_halt {t : KeyboardTeleop α} (hr : t.running = true) (hk : key ∈ haltKeys) :
    lastTwist (t.press key).2 = some 0 := by
  simp only [haltKeys, List.mem_cons, List.not_mem_nil, or_false] at hk
  rw [press_running hr]
  rcases hk with rfl | rfl | rfl | rfl <;> rfl

lemma press_other (t : KeyboardTeleop α) (hk : key ∉ velocityKeys) :
    lastTwist (t.press key).2 = none := by
  simp only [velocityKeys, haltKeys, List.mem_append, List.mem_cons, not_or, List.not_mem_nil,
    not_false_eq_true, and_true] at hk
  have hp := pressed key t
  generalize t.press key = r at hp
  cases hp with
  | exited | release | idleRelease | posture | speed | refused | unbound => rfl
  | quit _ he => exact (hk.2.2.1 he).elim
  | stop _ hs =>
    simp only [stopKeys, List.mem_cons, List.not_mem_nil, or_false] at hs
    exact (hs.elim hk.2.2.2.1 hk.2.2.2.2).elim
  | space _ hs => exact (hk.2.1 hs).elim
  | move v _ hm => exact (hk.1 (movement_of_binding hm)).elim

end KeyboardTeleop

namespace TeleopSystem

open KeyboardTeleop Go2ControlNode History

section Halted

variable {α : Type}

lemma lastTwist_eq (ms : List (Sent α)) :
    lastTwist (ms.map Sent.msg) =
      (ms.filter (·.msg.topic = .cmdVel)).getLast?.bind (·.msg.twist?) := by
  induction ms using List.reverseRecOn with
  | nil => rfl
  | append_singleton ms m ih =>
    rw [List.map_append, lastTwist_append, ih, List.filter_append, List.getLast?_append]
    obtain ⟨press, key, msg⟩ := m
    cases msg <;> rfl

def sentTwist (s : TeleopSystem α) : Option (Twist α) := lastTwist (s.bus.sent.map Sent.msg)

variable [Py.Arith α]

/-- The last velocity sent is zero once the program has ended, and while the last of the
velocity keys is one that halts. -/
structure Halted (ks : List Char) (s : TeleopSystem α) : Prop where
  ended : s.teleop.running = false → s.sentTwist = some 0
  halted : ∀ key ∈ haltKeys, (ks.filter (· ∈ velocityKeys)).getLast? = some key →
    s.sentTwist = some 0

lemma sentTwist_press (s : TeleopSystem α) (key : Char) :
    (s.press key).sentTwist = (lastTwist (s.teleop.press key).2).or s.sentTwist := by
  rw [sentTwist, press, Bus.publish_sent, List.map_append, lastTwist_append, List.map_map]
  simp [Function.comp_def, sentTwist]

lemma halted_press {ks : List Char} {s : TeleopSystem α} (h : Halted ks s) (key : Char) :
    Halted (ks ++ [key]) (s.press key) := by
  cases hr : s.teleop.running with
  | false =>
    have hz : (s.press key).sentTwist = some 0 := by
      rw [sentTwist_press, press_exited hr]
      exact h.ended hr
    exact ⟨fun _ => hz, fun _ _ _ => hz⟩
  | true =>
    refine ⟨fun hx => ?_, fun last hlast hl => ?_⟩
    · have hkey : key = esc := by
        by_contra hne
        exact Bool.false_ne_true (hx.symm.trans ((running_press_iff hr).mpr hne))
      rw [hkey, sentTwist_press, press_halt hr (by decide), Option.some_or]
    · rw [List.filter_append, List.getLast?_append] at hl
      by_cases hv : key ∈ velocityKeys
      · rw [List.filter_cons_of_pos (by simpa using hv)] at hl
        have hkey : key = last := by simpa using hl
        rw [sentTwist_press, press_halt hr (hkey ▸ hlast), Option.some_or]
      · rw [List.filter_cons_of_neg (by simpa using hv)] at hl
        rw [sentTwist_press, press_other _ hv, Option.none_or]
        exact h.halted last hlast hl

end Halted

variable {α β : Type} [Py.Arith α] [Zero β] {fs : FloatSemantics α β}

variable (fs) in
lemma halted_run (linearSpeed angularSpeed : α) (es : List SystemEvent) :
    Halted (keys es) (run fs (start linearSpeed angularSpeed) es) := by
  apply run_keys_invariant
  · exact ⟨by simp [start], by simp⟩
  · intro ks key s h
    exact halted_press h key
  · intro ks topic now s h
    obtain ⟨ht, -, hs⟩ := deliver_frame fs s topic now
    exact ⟨by rw [ht, sentTwist, hs]; exact h.ended, by rw [sentTwist, hs]; exact h.halted⟩
  · intro ks topic s h
    exact ⟨by simpa [sentTwist] using h.ended, by simpa [sentTwist] using h.halted⟩

lemma delivered_sentTwist {s : TeleopSystem α} (ht : Traced fs s)
    (hq : s.bus.queue .cmdVel = []) :
    lastTwist ((s.log.map Delivery.input).map Prod.snd) = s.sentTwist := by
  have hm : (s.log.map Delivery.input).map Prod.snd = s.bus.delivered.map Sent.msg := by
    rw [← ht.delivered, List.map_map, List.map_map]
    rfl
  rw [hm, sentTwist, lastTwist_eq, lastTwist_eq, Bus.delivered_newest hq]

variable (fs) in
def ZeroMove (req : Request) : Prop :=
  req.apiId = SportAPI.move ∧
    req.parameter = velocityText (fs.dumpFloat 0) (fs.dumpFloat 0) (fs.dumpFloat 0)

variable (fs) in
def LeftHalted (reqs : List Request) : Prop :=
  ∀ req, lastCommand reqs = some req → req.apiId = SportAPI.damp ∨ ZeroMove fs req

lemma zeroMove_of_carries {req : Request} (h : CarriesVelocity fs (0 : Twist α) req) :
    ZeroMove fs req := by
  have hz : fs.narrow (0 : α) = 0 := map_zero fs.narrow
  have hp := h.2
  change req.parameter = velocityText (fs.dumpFloat (fs.narrow 0)) (fs.dumpFloat (fs.narrow 0))
    (fs.dumpFloat (fs.narrow 0)) at hp
  rw [hz] at hp
  exact ⟨h.1, hp⟩

theorem stop_keys_win (fs : FloatSemantics α β) (linearSpeed angularSpeed : α)
    (es : List SystemEvent) (key : Char) (hk : key ∈ haltKeys)
    (hl : ((keys es).filter (· ∈ velocityKeys)).getLast? = some key)
    (hq : ∀ topic, (run fs (start linearSpeed angularSpeed) es).bus.queue topic = []) :
    LeftHalted fs (run fs (start linearSpeed angularSpeed) es).requests := by
  intro req hreq
  have ht := traced_run fs linearSpeed angularSpeed es
  have hz := (halted_run fs linearSpeed angularSpeed es).halted key hk hl
  rw [ht.published] at hreq
  rcases lastCommand_carries fs _ req hreq with hd | ⟨twist, htw, hc⟩
  · exact Or.inl hd
  · rw [delivered_sentTwist ht (hq .cmdVel), hz, Option.some_inj] at htw
    exact Or.inr (zeroMove_of_carries (htw ▸ hc))

theorem stop_keys_win_space :
    LeftHalted FloatSemantics.exact (run FloatSemantics.exact (start (3 / 10) (1 / 2))
      [.key 'q', .deliver .cmdVel 0, .key ' ', .deliver .cmdVel 1]).requests := by
  refine stop_keys_win FloatSemantics.exact (3 / 10) (1 / 2) _ ' ' (by decide) (by decide) ?_
  intro topic
  cases topic <;> rfl

end TeleopSystem

end Taggy
