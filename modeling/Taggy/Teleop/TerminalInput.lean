import Taggy.History.Steps
import Taggy.History.Transducer
import Taggy.Teleop.KeyboardTeleop

/-! The teleop's input loop on a terminal: a kernel queue that raw mode flushes, the text
buffer of standard input behind it, and keys that arrive between any two steps. -/

namespace Taggy

structure Terminal where
  kernel : List Char := []
  text : List Char := []

namespace Terminal

def type (key : Char) (t : Terminal) : Terminal := { t with kernel := t.kernel ++ [key] }

def setraw (t : Terminal) : Terminal := { t with kernel := [] }

def select (t : Terminal) : Bool := !t.kernel.isEmpty

-- `none` where the read would block.
def read (t : Terminal) : Option (Char × Terminal) :=
  match t.text with
  | key :: rest => some (key, { t with text := rest })
  | [] =>
    match t.kernel with
    | key :: rest => some (key, ⟨[], rest⟩)
    | [] => none

end Terminal

inductive Pc where
  | setraw
  | select
  | read
  | tcsetattr (key : Option Char)
  | handle (key : Option Char)
  | exited
  deriving DecidableEq

inductive TerminalEvent where
  | arrive (key : Char)
  | proceed
  deriving DecidableEq

-- `seen` holds the keys that had arrived before the latest `select`.
structure Session (α : Type) where
  teleop : KeyboardTeleop α
  terminal : Terminal := {}
  pc : Pc := .setraw
  typed : List Char := []
  seen : List Char := []
  returned : List Char := []

namespace Session

variable {α : Type}

/-- No key is lost, reordered or, when `get_key` reports none, left waiting. -/
def Faithful (s : Session α) : Prop :=
  s.returned <+: s.typed ∧ (s.pc = .handle none → s.seen <+: s.returned)

/-- Raw mode is entered with no unread key, and a `select` that finds nothing leaves nothing
in the text buffer. -/
def Orderly (s : Session α) : Prop :=
  (s.pc = .setraw → s.terminal.kernel = []) ∧
    (s.pc = .select → s.terminal.kernel = [] → s.terminal.text = [])

instance (s : Session α) : Decidable (Orderly s) :=
  inferInstanceAs (Decidable ((_ → _) ∧ (_ → _ → _)))

def taken (s : Session α) : List Char :=
  match s.pc with
  | .tcsetattr key => key.toList
  | _ => []

structure Accounted (s : Session α) : Prop where
  keys : s.typed = s.returned ++ s.taken ++ s.terminal.text ++ s.terminal.kernel
  idle : s.pc = .tcsetattr none ∨ s.pc = .handle none → s.seen = s.returned

lemma Accounted.faithful {s : Session α} (h : Accounted s) : Faithful s := by
  refine ⟨?_, fun hp => ?_⟩
  · rw [h.keys, List.append_assoc, List.append_assoc]
    exact List.prefix_append _ _
  · rw [h.idle (Or.inr hp)]

variable [Py.Arith α]

def proceed (s : Session α) : Session α × List (Msg α) :=
  match s.pc with
  | .setraw => ({ s with terminal := s.terminal.setraw, pc := .select }, [])
  | .select =>
    ({ s with seen := s.typed, pc := if s.terminal.select then .read else .tcsetattr none }, [])
  | .read =>
    match s.terminal.read with
    | some (key, terminal) => ({ s with terminal := terminal, pc := .tcsetattr (some key) }, [])
    | none => (s, [])
  | .tcsetattr key => ({ s with pc := .handle key, returned := s.returned ++ key.toList }, [])
  | .handle none => ({ s with pc := .setraw }, [])
  | .handle (some key) =>
    let next := s.teleop.press key
    ({ s with teleop := next.1, pc := if next.1.running then .setraw else .exited }, next.2)
  | .exited => (s, [])

def step (s : Session α) : TerminalEvent → Session α × List (Msg α)
  | .arrive key => ({ s with terminal := s.terminal.type key, typed := s.typed ++ [key] }, [])
  | .proceed => s.proceed

def after (teleop : KeyboardTeleop α) (es : List TerminalEvent) : Session α :=
  Transducer.after step { teleop := teleop } es

lemma accounted_arrive {s : Session α} (h : Accounted s) (key : Char) :
    Accounted (s.step (.arrive key)).1 where
  keys := by
    have ht : (s.step (.arrive key)).1.taken = s.taken := rfl
    rw [ht]
    simp only [step, Terminal.type, h.keys, List.append_assoc]
  idle := h.idle

lemma accounted_proceed {s : Session α} (h : Accounted s) (ho : Orderly s) :
    Accounted (s.step .proceed).1 := by
  obtain ⟨teleop, ⟨kernel, text⟩, pc, typed, seen, returned⟩ := s
  have hk := h.keys
  simp only [taken] at hk
  cases pc with
  | setraw =>
    have hq : kernel = [] := ho.1 rfl
    exact ⟨by simpa [step, proceed, taken, Terminal.setraw, hq] using hk, by simp [step, proceed]⟩
  | select =>
    cases kernel with
    | nil =>
      have ht : text = [] := ho.2 rfl rfl
      have hr : typed = returned := by simpa [ht] using hk
      exact ⟨by simp [step, proceed, taken, Terminal.select, hr, ht], fun _ => hr⟩
    | cons key kernel =>
      exact ⟨by simpa [step, proceed, taken, Terminal.select] using hk,
        by simp [step, proceed, Terminal.select]⟩
  | read =>
    cases text with
    | cons key text =>
      exact ⟨by simpa [step, proceed, taken, Terminal.read] using hk,
        by simp [step, proceed, Terminal.read]⟩
    | nil =>
      cases kernel with
      | cons key kernel =>
        exact ⟨by simpa [step, proceed, taken, Terminal.read] using hk,
          by simp [step, proceed, Terminal.read]⟩
      | nil => exact h
  | tcsetattr key =>
    cases key with
    | none => exact ⟨by simpa [step, proceed, taken] using hk,
        fun _ => by simpa [step, proceed] using h.idle (Or.inl rfl)⟩
    | some key => exact ⟨by simpa [step, proceed, taken] using hk, by simp [step, proceed]⟩
  | handle key =>
    cases key with
    | none => exact ⟨by simpa [step, proceed, taken] using hk, by simp [step, proceed]⟩
    | some key =>
      cases hr : (teleop.press key).1.running with
      | false => exact ⟨by simpa [step, proceed, taken, hr] using hk, by simp [step, proceed, hr]⟩
      | true => exact ⟨by simpa [step, proceed, taken, hr] using hk, by simp [step, proceed, hr]⟩
  | exited => exact h

theorem faithful_of_orderly (teleop : KeyboardTeleop α) (es : List TerminalEvent)
    (ho : History.AtEachStep (fun pre e => e = .proceed → Orderly (after teleop pre)) es) :
    Faithful (after teleop es) := by
  suffices h : Accounted (after teleop es) from h.faithful
  induction es using List.reverseRecOn with
  | nil => exact ⟨rfl, by simp [after]⟩
  | append_singleton es e ih =>
    obtain ⟨hes, he⟩ := History.atEachStep_concat.mp ho
    have hh := ih hes
    rw [after, Transducer.after_concat]
    cases e with
    | arrive key => exact accounted_arrive hh key
    | proceed => exact accounted_proceed hh (he rfl)

theorem stop_key_faithful :
    Faithful (after (⟨3 / 10, 1 / 2, false, true⟩ : KeyboardTeleop ℚ)
      [.proceed, .arrive 'x', .proceed, .proceed, .proceed]) := by
  apply faithful_of_orderly
  simp only [History.atEachStep_cons]
  exact ⟨by decide, by decide, by decide, by decide, by decide, History.atEachStep_nil⟩

theorem stop_key_lost :
    ¬ Faithful (after (⟨3 / 10, 1 / 2, false, true⟩ : KeyboardTeleop ℚ)
        [.arrive 'x', .proceed, .proceed, .proceed]) ∧
      ¬ Faithful (after (⟨3 / 10, 1 / 2, false, true⟩ : KeyboardTeleop ℚ)
        [.proceed, .arrive 'w', .arrive 'x', .proceed, .proceed, .proceed, .proceed, .proceed,
          .proceed, .proceed]) :=
  ⟨fun h => absurd (h.2 rfl) (by decide), fun h => absurd (h.2 rfl) (by decide)⟩

end Session

end Taggy
