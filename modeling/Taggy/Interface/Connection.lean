import Taggy.History.Latch
import Taggy.History.Steps
import Taggy.History.Transducer
import Taggy.Interface.HighLevelInterface

/-! The life cycle of the connection: a failed connect may leave its socket behind. -/

namespace Taggy

inductive InterfaceCall (α : Type) where
  | connect (raises : Option ConnectStep)
  | disconnect
  | command (call : RobotCall α)

inductive InterfaceOutput (α : Type) [Zero α] where
  | returned (connected : Bool)
  | datagram (command : HighLevelCommand α)

namespace Go2HighLevelInterface

open History

variable {α : Type} [Zero α] [DecidableEq α]

def step (g : Go2HighLevelInterface α) :
    InterfaceCall α → Go2HighLevelInterface α × List (InterfaceOutput α)
  | .connect raises => ((g.connect raises).1, [.returned (g.connect raises).2])
  | .disconnect => (g.disconnect, [])
  | .command call => ((g.perform call).1, (g.perform call).2.map .datagram)

def after (h : List (InterfaceCall α)) : Go2HighLevelInterface α := Transducer.after step {} h

def reply (h : List (InterfaceCall α)) (call : InterfaceCall α) : List (InterfaceOutput α) :=
  Transducer.reply step {} h call

@[simp] lemma after_concat (h : List (InterfaceCall α)) (call : InterfaceCall α) :
    after (h ++ [call]) = (step (after h) call).1 := Transducer.after_concat _ _ h call

def Connects (call : InterfaceCall α) : Prop :=
  ∃ raises, call = .connect raises ∧ ∀ g : Go2HighLevelInterface α, (g.connect raises).2 = true

def Disconnects (call : InterfaceCall α) : Prop := call = .disconnect

def Connected (h : List (InterfaceCall α)) : Prop := Latch.Latched Connects Disconnects h

/-- The socket is there exactly while the connection is running, from a connect that returned
true to the next disconnect. -/
structure Consistent (h : List (InterfaceCall α)) : Prop where
  present : (after h).socket.isSome = true ↔ (after h).running = true
  running : (after h).running = true ↔ Connected h

structure LifeCycle (h : List (InterfaceCall α)) (call : InterfaceCall α) : Prop where
  failed : .returned false ∈ reply h call →
    (after (h ++ [call])).socket = (after h).socket ∧
      (after (h ++ [call])).running = (after h).running
  consistent : Consistent (h ++ [call])
  sends : ∀ command, .datagram command ∈ reply h call →
    (after h).socket.isSome = true ∧ (after h).running = true ∧ Connected h

omit [DecidableEq α] in
lemma connect_returned (raises : Option ConnectStep) (g : Go2HighLevelInterface α) :
    (g.connect raises).2 = raises.isNone := by
  match raises with
  | none | some .socket | some .setsockopt | some .bind | some .settimeout => rfl

omit [DecidableEq α] in
lemma connects_iff {call : InterfaceCall α} : Connects call ↔ call = .connect none := by
  constructor
  · rintro ⟨raises, rfl, hr⟩
    have hn := (connect_returned raises {}).symm.trans (hr {})
    rw [Option.isNone_iff_eq_none.mp hn]
  · rintro rfl
    exact ⟨none, rfl, connect_returned none⟩

lemma perform_frame (g : Go2HighLevelInterface α) (call : RobotCall α) :
    (g.perform call).1.socket = g.socket ∧ (g.perform call).1.running = g.running ∧
      (g.perform call).1.created = g.created := by
  cases call <;> exact ⟨rfl, rfl, rfl⟩

lemma perform_sends {g : Go2HighLevelInterface α} {call : RobotCall α}
    {command : HighLevelCommand α} (hm : command ∈ (g.perform call).2) :
    g.socket.isSome = true := by
  by_contra hs
  have hn : (g.perform call).2 = [] := by cases call <;> exact if_neg hs
  rw [hn] at hm
  exact List.not_mem_nil hm

lemma socket_lt_created (h : List (InterfaceCall α)) :
    ∀ s, (after h).socket = some s → s < (after h).created := by
  induction h using List.reverseRecOn with
  | nil => simp [after]
  | append_singleton h call ih =>
    rw [after_concat]
    cases call with
    | connect raises =>
      match raises with
      | some .socket => exact ih
      | none | some .setsockopt | some .bind | some .settimeout =>
        rintro s ⟨⟩
        exact Nat.lt_succ_self _
    | disconnect => simp [step, disconnect]
    | command call =>
      obtain ⟨hs, -, hc⟩ := perform_frame (after h) call
      change ∀ s, ((after h).perform call).1.socket = some s →
        s < ((after h).perform call).1.created
      rw [hs, hc]
      exact ih

lemma consistent_nil : Consistent ([] : List (InterfaceCall α)) := by
  refine ⟨by simp [after], ?_⟩
  rw [Connected]
  exact iff_of_false (by simp [after]) Latch.not_latched_nil

def FailsEarly (call : InterfaceCall α) : Prop :=
  ∀ raises, call = .connect (some raises) → raises = .socket

variable {h : List (InterfaceCall α)} {call : InterfaceCall α}

omit [DecidableEq α] in
lemma connected_concat :
    Connected (h ++ [call]) ↔ call = .connect none ∨ (Connected h ∧ call ≠ .disconnect) := by
  rw [Connected, Latch.latched_concat, connects_iff]
  rfl

lemma failed_unchanged (hf : FailsEarly call) (hr : .returned false ∈ reply h call) :
    after (h ++ [call]) = after h := by
  rw [after_concat]
  cases call with
  | connect raises =>
    cases raises with
    | none => simp [reply, Transducer.reply, step, connect_returned] at hr
    | some raises =>
      obtain rfl := hf raises rfl
      rfl
  | disconnect => simp [reply, Transducer.reply, step] at hr
  | command call => simp [reply, Transducer.reply, step] at hr

lemma consistent_concat (hc : Consistent h) (hf : FailsEarly call) : Consistent (h ++ [call]) := by
  obtain ⟨hp, hr⟩ := hc
  cases call with
  | connect raises =>
    cases raises with
    | none =>
      have hrun : (after (h ++ [.connect none])).running = true := by
        rw [after_concat]
        rfl
      have hsock : (after (h ++ [.connect none])).socket.isSome = true := by
        rw [after_concat]
        rfl
      exact ⟨iff_of_true hsock hrun, iff_of_true hrun (connected_concat.mpr (Or.inl rfl))⟩
    | some raises =>
      obtain rfl := hf raises rfl
      have hsame : after (h ++ [.connect (some .socket)]) = after h := by
        rw [after_concat]
        rfl
      refine ⟨by rw [hsame]; exact hp, ?_⟩
      rw [hsame, hr, connected_concat]
      simp
  | disconnect =>
    have hrun : (after (h ++ [.disconnect])).running = false := by
      rw [after_concat]
      rfl
    have hsock : (after (h ++ [.disconnect])).socket = none := by
      rw [after_concat]
      rfl
    refine ⟨by rw [hrun, hsock]; exact Iff.rfl, ?_⟩
    rw [hrun, connected_concat]
    simp
  | command call =>
    obtain ⟨hs, hn, -⟩ := perform_frame (after h) call
    have hrun : (after (h ++ [.command call])).running = (after h).running := by
      rw [after_concat]
      exact hn
    have hsock : (after (h ++ [.command call])).socket = (after h).socket := by
      rw [after_concat]
      exact hs
    refine ⟨by rw [hrun, hsock]; exact hp, ?_⟩
    rw [hrun, hr, connected_concat]
    simp

lemma lifeCycle (hc : Consistent h) (hf : FailsEarly call) : LifeCycle h call := by
  refine ⟨fun hr => ?_, consistent_concat hc hf, fun command hm => ?_⟩
  · rw [failed_unchanged hf hr]
    exact ⟨rfl, rfl⟩
  · cases call with
    | connect raises => simp [reply, Transducer.reply, step] at hm
    | disconnect => simp [reply, Transducer.reply, step] at hm
    | command call =>
      have hs : (after h).socket.isSome = true := by
        obtain ⟨sent, hsent, -⟩ := List.mem_map.mp hm
        exact perform_sends hsent
      exact ⟨hs, hc.present.mp hs, hc.running.mp (hc.present.mp hs)⟩

lemma failsEarly (hl : LifeCycle h call) : FailsEarly call := by
  rintro raises rfl
  have hr : .returned false ∈ reply h (.connect (some raises)) := by
    rw [reply, Transducer.reply, step, connect_returned]
    exact List.mem_singleton_self _
  have hs := (hl.failed hr).1
  rw [after_concat] at hs
  by_contra hne
  have hnew : (step (after h) (.connect (some raises))).1.socket = some (after h).created := by
    rw [step, connect, if_neg (by simpa using hne)]
    rfl
  exact lt_irrefl _ (socket_lt_created h _ (hs.symm.trans hnew))

/-- The life cycle is kept over a run exactly if no connect of it gets past the creation of the
socket and then fails. -/
theorem life_cycle_iff (h : List (InterfaceCall α)) :
    AtEachStep LifeCycle h ↔ ∀ raises, .connect (some raises) ∈ h → raises = .socket := by
  have hiff : AtEachStep LifeCycle h ↔ ∀ call ∈ h, FailsEarly call := by
    constructor
    · intro hl call hm
      obtain ⟨pre, post, he⟩ := List.append_of_mem hm
      exact failsEarly (hl pre call post he)
    · intro hf
      suffices hs : AtEachStep LifeCycle h ∧ Consistent h from hs.1
      induction h using List.reverseRecOn with
      | nil => exact ⟨atEachStep_nil, consistent_nil⟩
      | append_singleton h call ih =>
        obtain ⟨hl, hc⟩ := ih fun call hm => hf call (List.mem_append_left _ hm)
        have hcall := lifeCycle hc (hf call (by simp))
        exact ⟨atEachStep_concat.mpr ⟨hl, hcall⟩, hcall.consistent⟩
  rw [hiff]
  constructor
  · exact fun hf raises hm => hf _ hm raises rfl
  · rintro hf call hm raises rfl
    exact hf raises hm

theorem bind_failure_sends :
    ¬ AtEachStep LifeCycle
      [.connect (some .bind), (.command (.setVelocity 1 0 0) : InterfaceCall ℚ)] := by
  intro hl
  have hs := (hl [.connect (some .bind)] _ [] rfl).sends _ (List.mem_singleton_self _)
  exact Bool.false_ne_true hs.2.1

end Go2HighLevelInterface

end Taggy
