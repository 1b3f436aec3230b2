import Taggy.Control.ControlSteps
import Taggy.Data.Bus
import Taggy.Teleop.KeyboardTeleop

/-! The keyboard teleop and the control node, joined by the three command topics. -/

namespace Taggy

structure Sent (α : Type) where
  press : ℕ
  key : Char
  msg : Msg α

structure Delivery (α : Type) where
  sent : Sent α
  now : ℤ
  requests : List Request

abbrev Delivery.input {α : Type} (d : Delivery α) : ℤ × Msg α := (d.now, d.sent.msg)

structure TeleopSystem (α : Type) where
  teleop : KeyboardTeleop α
  node : Go2ControlNode := {}
  bus : Bus (fun m : Sent α => m.msg.topic) := Bus.empty
  presses : ℕ := 0
  log : List (Delivery α) := []

inductive SystemEvent where
  | key (key : Char)
  | deliver (topic : Topic) (now : ℤ)
  | drop (topic : Topic)

def SystemEvent.key? : SystemEvent → Option Char
  | .key c => some c
  | .deliver _ _ => none
  | .drop _ => none

def keys (es : List SystemEvent) : List Char := es.filterMap SystemEvent.key?

lemma keys_concat (es : List SystemEvent) (e : SystemEvent) :
    keys (es ++ [e]) = keys es ++ e.key?.toList := by
  rw [keys, List.filterMap_append]
  cases e <;> rfl

namespace TeleopSystem

open KeyboardTeleop Go2ControlNode History

variable {α β : Type} [Py.Arith α] [Zero β] (fs : FloatSemantics α β)

def press (key : Char) (s : TeleopSystem α) : TeleopSystem α :=
  { s with
    teleop := (s.teleop.press key).1
    bus := s.bus.publish ((s.teleop.press key).2.map fun msg => ⟨s.presses, key, msg⟩)
    presses := s.presses + 1 }

def deliver (topic : Topic) (now : ℤ) (s : TeleopSystem α) : TeleopSystem α :=
  match s.bus.deliver topic with
  | none => s
  | some (m, bus) =>
    { s with
      node := (Go2ControlNode.step fs s.node (now, m.msg)).1
      bus := bus
      log := s.log ++ [⟨m, now, (Go2ControlNode.step fs s.node (now, m.msg)).2⟩] }

def step (s : TeleopSystem α) : SystemEvent → TeleopSystem α
  | .key key => s.press key
  | .deliver topic now => s.deliver fs topic now
  | .drop topic => { s with bus := s.bus.drop topic }

def run (s : TeleopSystem α) (es : List SystemEvent) : TeleopSystem α := es.foldl (step fs) s

def start (linearSpeed angularSpeed : α) : TeleopSystem α :=
  { teleop := { linearSpeed := linearSpeed, angularSpeed := angularSpeed } }

def requests (s : TeleopSystem α) : List Request := s.log.flatMap Delivery.requests

lemma deliver_frame (s : TeleopSystem α) (topic : Topic) (now : ℤ) :
    (s.deliver fs topic now).teleop = s.teleop ∧ (s.deliver fs topic now).presses = s.presses ∧
      (s.deliver fs topic now).bus.sent = s.bus.sent := by
  rw [deliver]
  split
  · exact ⟨rfl, rfl, rfl⟩
  · rename_i m bus hb
    exact ⟨rfl, rfl, (Bus.deliver_some hb).1⟩

variable {fs} {s : TeleopSystem α}

lemma run_concat (es : List SystemEvent) (e : SystemEvent) :
    run fs s (es ++ [e]) = step fs (run fs s es) e := by
  simp [run, List.foldl_append]

lemma run_keys_invariant {I : List Char → TeleopSystem α → Prop} (es : List SystemEvent)
    (hs : I [] s) (hp : ∀ ks key s, I ks s → I (ks ++ [key]) (s.press key))
    (hd : ∀ ks topic now s, I ks s → I ks (s.deliver fs topic now))
    (hl : ∀ ks topic s, I ks s → I ks { s with bus := s.bus.drop topic }) :
    I (keys es) (run fs s es) := by
  induction es using List.reverseRecOn with
  | nil => exact hs
  | append_singleton es e ih =>
    rw [run_concat, keys_concat]
    cases e with
    | key key => exact hp _ key _ ih
    | deliver topic now =>
      rw [SystemEvent.key?, Option.toList_none, List.append_nil]
      exact hd _ topic now _ ih
    | drop topic =>
      rw [SystemEvent.key?, Option.toList_none, List.append_nil]
      exact hl _ topic _ ih

lemma run_invariant {I : TeleopSystem α → Prop} (es : List SystemEvent) (hs : I s)
    (hp : ∀ key s, I s → I (s.press key))
    (hd : ∀ topic now s, I s → I (s.deliver fs topic now))
    (hl : ∀ topic s, I s → I { s with bus := s.bus.drop topic }) : I (run fs s es) :=
  run_keys_invariant (I := fun _ => I) es hs (fun _ => hp) (fun _ => hd) (fun _ => hl)

variable (fs) in
structure Traced (s : TeleopSystem α) : Prop where
  node : s.node = after fs (s.log.map Delivery.input)
  delivered : s.log.map Delivery.sent = s.bus.delivered
  requests : AtEachStep
    (fun pre d => d.requests = publishes fs (pre.map Delivery.input) d.input) s.log

lemma traced_deliver (h : Traced fs s) (topic : Topic) (now : ℤ) :
    Traced fs (s.deliver fs topic now) := by
  rw [deliver]
  split
  · exact h
  · rename_i m bus hb
    obtain ⟨-, hd, -⟩ := Bus.deliver_some hb
    refine ⟨?_, ?_, ?_⟩
    · rw [List.map_append, List.map_singleton, after_concat, ← h.node]
    · rw [List.map_append, List.map_singleton, h.delivered, hd]
    · refine atEachStep_concat.mpr ⟨h.requests, ?_⟩
      rw [publishes, ← h.node]

variable (fs) in
lemma traced_run (linearSpeed angularSpeed : α) (es : List SystemEvent) :
    Traced fs (run fs (start linearSpeed angularSpeed) es) := by
  apply run_invariant
  · exact ⟨rfl, rfl, atEachStep_nil⟩
  · intro key s h
    exact ⟨h.node, h.delivered, h.requests⟩
  · intro topic now s h
    exact traced_deliver h topic now
  · intro topic s h
    exact ⟨h.node, h.delivered.trans (Bus.drop_delivered _ _).symm, h.requests⟩

lemma Traced.published (h : Traced fs s) :
    s.requests = published fs (s.log.map Delivery.input) := by
  have hr := h.requests
  rw [TeleopSystem.requests]
  generalize s.log = log at hr
  induction log using List.reverseRecOn with
  | nil => rfl
  | append_singleton log d ih =>
    obtain ⟨hlog, hd⟩ := atEachStep_concat.mp hr
    rw [List.flatMap_append, ih hlog, List.map_append, List.map_singleton, published_concat, ← hd,
      List.flatMap_singleton]

end TeleopSystem

end Taggy
