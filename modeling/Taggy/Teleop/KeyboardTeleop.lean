import Taggy.Control.Messages
import Taggy.Data.PyArith

/-! Keyboard teleoperation: the bindings of the keys and one pass of the main loop. -/

namespace Taggy

structure KeyboardTeleop (α : Type) where
  linearSpeed : α
  angularSpeed : α
  estopActive : Bool := false
  running : Bool := true
  deriving DecidableEq

namespace KeyboardTeleop

def esc : Char := '\x1b'
def stopKeys : List Char := ['x', 'X']
def releaseKeys : List Char := ['r', 'R']
def standKeys : List Char := ['1', '4']
def movementKeys : List Char := ['w', 's', 'a', 'd', 'q', 'e', 'W', 'S', 'A', 'D', 'Q', 'E']

lemma stop_not_release {key : Char} (hk : key ∈ stopKeys) : key ∉ releaseKeys := by
  simp only [stopKeys, List.mem_cons, List.not_mem_nil, or_false] at hk
  rcases hk with rfl | rfl <;> decide

def postureBindings : Char → Option String
  | '1' => some "up"
  | '2' => some "down"
  | '3' => some "balance"
  | '4' => some "recovery"
  | '5' => some "hello"
  | '6' => some "stretch"
  | _ => none

variable {α : Type}

def sendPosture (posture : String) : Msg α := .cmdPosture posture

def sendVelocity [Zero α] (vx vy wz : α) : Msg α := .cmdVel ⟨⟨vx, vy, 0⟩, ⟨0, 0, wz⟩⟩

def sendEstop (active : Bool) (t : KeyboardTeleop α) : KeyboardTeleop α × Msg α :=
  ({ t with estopActive := active }, .emergencyStop active)

variable [Py.Arith α]

def moveBindings : Char → Option (α × α × α)
  | 'w' | 'W' => some (1, 0, 0)
  | 's' | 'S' => some (-1, 0, 0)
  | 'a' | 'A' => some (0, 1, 0)
  | 'd' | 'D' => some (0, -1, 0)
  | 'q' | 'Q' => some (0, 0, 1)
  | 'e' | 'E' => some (0, 0, -1)
  | _ => none

def speedBindings : Char → Option α
  | '+' | '=' => some 1.1
  | '-' | '_' => some 0.9
  | _ => none

def adjustSpeed (factor : α) (t : KeyboardTeleop α) : KeyboardTeleop α :=
  { t with
    linearSpeed := Py.max 0.1 (Py.min 1.5 (t.linearSpeed * factor))
    angularSpeed := Py.max 0.1 (Py.min 2.0 (t.angularSpeed * factor)) }

def loopBody (key : Char) (t : KeyboardTeleop α) : KeyboardTeleop α × List (Msg α) :=
  if key = esc then
    -- The second velocity is the one the loop's `finally` clause sends.
    ({ t with running := false }, [sendVelocity 0 0 0, sendVelocity 0 0 0])
  else if key ∈ stopKeys then
    ((t.sendEstop true).1, [(t.sendEstop true).2, sendVelocity 0 0 0])
  else if key ∈ releaseKeys then
    if t.estopActive then ((t.sendEstop false).1, [(t.sendEstop false).2]) else (t, [])
  else if let some posture := postureBindings key then (t, [sendPosture posture])
  else if key = ' ' then (t, [sendVelocity 0 0 0])
  else if let some factor := speedBindings key then (t.adjustSpeed factor, [])
  else if let some (vx, vy, wz) := moveBindings key then
    if t.estopActive then (t, [])
    else (t, [sendVelocity (vx * t.linearSpeed) (vy * t.linearSpeed) (wz * t.angularSpeed)])
  else (t, [])

def press (key : Char) (t : KeyboardTeleop α) : KeyboardTeleop α × List (Msg α) :=
  if t.running then t.loopBody key else (t, [])

inductive Pressed (key : Char) (t : KeyboardTeleop α) : KeyboardTeleop α × List (Msg α) → Prop
  | exited : t.running = false → Pressed key t (t, [])
  | quit : t.running = true → key = esc →
      Pressed key t ({ t with running := false }, [sendVelocity 0 0 0, sendVelocity 0 0 0])
  | stop : t.running = true → key ∈ stopKeys →
      Pressed key t ({ t with estopActive := true }, [.emergencyStop true, sendVelocity 0 0 0])
  | release : t.running = true → key ∈ releaseKeys → t.estopActive = true →
      Pressed key t ({ t with estopActive := false }, [.emergencyStop false])
  | idleRelease : t.running = true → key ∈ releaseKeys → t.estopActive = false →
      Pressed key t (t, [])
  | posture (posture : String) : t.running = true → postureBindings key = some posture →
      Pressed key t (t, [.cmdPosture posture])
  | space : t.running = true → key = ' ' → Pressed key t (t, [sendVelocity 0 0 0])
  | speed (factor : α) : t.running = true → speedBindings key = some factor →
      Pressed key t (t.adjustSpeed factor, [])
  | move (v : α × α × α) : t.running = true → moveBindings key = some v → t.estopActive = false →
      Pressed key t (t, [sendVelocity (v.1 * t.linearSpeed) (v.2.1 * t.linearSpeed)
        (v.2.2 * t.angularSpeed)])
  | refused (v : α × α × α) : t.running = true → moveBindings key = some v →
      t.estopActive = true → Pressed key t (t, [])
  | unbound : t.running = true → key ≠ esc → key ∉ stopKeys → key ∉ releaseKeys → key ≠ ' ' →
      postureBindings key = none → (speedBindings key : Option α) = none →
      (moveBindings key : Option (α × α × α)) = none → Pressed key t (t, [])

lemma pressed (key : Char) (t : KeyboardTeleop α) : Pressed key t (t.press key) := by
  rw [press]
  cases hr : t.running with
  | false => exact .exited hr
  | true =>
    rw [if_pos rfl]
    rw [loopBody]
    split
    · exact .quit hr ‹_›
    split
    · exact .stop hr ‹_›
    split
    · split
      · exact .release hr ‹_› ‹_›
      · exact .idleRelease hr ‹_› (by simpa using ‹¬ t.estopActive = true›)
    split
    · exact .posture _ hr ‹_›
    split
    · exact .space hr ‹_›
    split
    · exact .speed _ hr ‹_›
    split
    · split
      · exact .refused _ hr ‹_› ‹_›
      · exact .move _ hr ‹_› (by simpa using ‹¬ t.estopActive = true›)
    · rename_i hesc hstop hrelease _ hposture hspace _ hspeed _ hmove
      exact .unbound hr hesc hstop hrelease hspace (Option.eq_none_iff_forall_ne_some.mpr hposture)
        (Option.eq_none_iff_forall_ne_some.mpr hspeed)
        (Option.eq_none_iff_forall_ne_some.mpr fun v hv => hmove _ _ _ hv)

variable {key : Char} {t : KeyboardTeleop α}

lemma movement_of_binding {v : α × α × α} (hk : moveBindings key = some v) :
    key ∈ movementKeys := by
  unfold moveBindings at hk
  split at hk <;> first | decide | simp at hk

lemma press_exited (hr : t.running = false) : t.press key = (t, []) := by
  rw [press, hr, if_neg Bool.false_ne_true]

lemma press_running (hr : t.running = true) : t.press key = t.loopBody key := by
  rw [press, if_pos hr]

lemma press_movement {v : α × α × α} (hv : moveBindings key = some v) (hr : t.running = true) :
    t.press key =
      (t, if t.estopActive then []
        else [sendVelocity (v.1 * t.linearSpeed) (v.2.1 * t.linearSpeed)
          (v.2.2 * t.angularSpeed)]) := by
  have hk := movement_of_binding hv
  rw [press_running hr]
  obtain ⟨_, _, active, _⟩ := t
  simp only [movementKeys, List.mem_cons, List.not_mem_nil, or_false] at hk
  rcases hk with rfl | rfl | rfl | rfl | rfl | rfl | rfl | rfl | rfl | rfl | rfl | rfl <;>
    obtain rfl := Option.some_inj.mp hv <;> cases active <;> rfl

lemma running_press_iff (hr : t.running = true) :
    (t.press key).1.running = true ↔ key ≠ esc := by
  by_cases he : key = esc
  · rw [press_running hr, he]
    exact iff_of_false Bool.false_ne_true fun hne => hne rfl
  · refine iff_of_true ?_ he
    have hp := pressed key t
    generalize t.press key = r at hp
    cases hp with
    | quit _ hk => exact (he hk).elim
    | _ => exact hr

end KeyboardTeleop

end Taggy
