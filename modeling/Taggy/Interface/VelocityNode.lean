import Taggy.History.Simulation
import Taggy.Interface.CommandPacket
import Taggy.Interface.Sanitising

/-! The node of the velocity controller from its creation to its end, with the datagrams it
sends. -/

namespace Taggy

namespace Struct

def packPyFloat : PyFloat → Except String Value
  | .finite q => packFloat q
  | .posInf => .ok ⟨.float, 0x7F800000⟩
  | .negInf => .ok ⟨.float, 0xFF800000⟩
  | .nan => .ok ⟨.float, 0x7FC00000⟩

end Struct

open Struct in
def HighLevelCommand.datagram (cmd : HighLevelCommand PyFloat) : Except String (List UInt8) := do
  let mode ← packUchar cmd.mode
  let gait ← packUchar cmd.gaitType
  let vx ← packPyFloat cmd.vx
  let vy ← packPyFloat cmd.vy
  let wz ← packPyFloat cmd.wz
  let height ← packPyFloat cmd.bodyHeight
  return pack [mode, gait, vx, vy, wz, height]

structure VelocityNode where
  controller : Go2VelocityController PyFloat
  go2 : Go2HighLevelInterface PyFloat

namespace VelocityNode

open Go2VelocityController HighLevelCommand

def performAll (g : Go2HighLevelInterface PyFloat) (calls : List (RobotCall PyFloat)) :
    Go2HighLevelInterface PyFloat × List (HighLevelCommand PyFloat) :=
  Transducer.run Go2HighLevelInterface.perform g calls

def init (maxLinearVel maxAngularVel : PyFloat) (timeout : ℚ) (now : ℤ)
    (raises : Option ConnectStep) : VelocityNode × List (Except String (List UInt8)) :=
  let (go2, connected) := ({} : Go2HighLevelInterface PyFloat).connect raises
  let controller := Go2VelocityController.init maxLinearVel maxAngularVel timeout connected now
  let (go2, sent) := performAll go2 (controller.command .stand)
  (⟨controller, go2⟩, sent.map HighLevelCommand.datagram)

def step (n : VelocityNode) (i : ℤ × ControllerEvent PyFloat) :
    VelocityNode × List (Except String (List UInt8)) :=
  let (controller, calls) := n.controller.step i
  let (go2, sent) := performAll n.go2 calls
  (⟨controller, go2⟩, sent.map HighLevelCommand.datagram)

def destroyNode (n : VelocityNode) : VelocityNode × List (Except String (List UInt8)) :=
  let (go2, sent) := performAll n.go2 (n.controller.command .stop)
  let go2 := if n.controller.connected then go2.disconnect else go2
  ({ n with go2 := go2 }, sent.map HighLevelCommand.datagram)

def num : PyFloat → ℚ
  | .finite q => q
  | _ => 0

def velocityOf : RobotCall PyFloat → ℚ × ℚ × ℚ
  | .setVelocity vx vy wz => (num vx, num vy, num wz)
  | .stop => 0
  | .stand => 0

def datagramOf (call : RobotCall PyFloat) : Except String (List UInt8) :=
  (ofVelocity (velocityOf call)).packet

def Limited (m a : ℚ) : RobotCall PyFloat → Prop
  | .setVelocity vx vy wz =>
    (∃ x, vx = .finite x ∧ |x| ≤ m) ∧ (∃ y, vy = .finite y ∧ |y| ≤ m) ∧
      ∃ w, wz = .finite w ∧ |w| ≤ a
  | .stop => True
  | .stand => True

variable {m a : ℚ} {g : Go2HighLevelInterface PyFloat} {call : RobotCall PyFloat}

/-- The interface sends, and has the body height and the gait it was created with. -/
structure Ready (g : Go2HighLevelInterface PyFloat) : Prop where
  socket : g.socket.isSome = true
  height : g.currentCommand.bodyHeight = 0
  gait : g.currentCommand.gaitType = 1

lemma datagram_finite (x y w : ℚ) (mode : ℤ) :
    datagram ⟨.finite x, .finite y, .finite w, 0, 1, mode⟩ = packet ⟨x, y, w, 0, 1, mode⟩ := rfl

lemma mode_finite (x y w : ℚ) :
    (if PyFloat.finite x ≠ 0 ∨ PyFloat.finite y ≠ 0 ∨ PyFloat.finite w ≠ 0 then 2 else 1 : ℤ) =
      if x ≠ 0 ∨ y ≠ 0 ∨ w ≠ 0 then 2 else 1 := by
  simp only [PyFloat.zero_def, ne_eq, PyFloat.finite.injEq]

lemma send_connected (hs : g.socket.isSome = true) (cmd : HighLevelCommand PyFloat) :
    (g.send cmd).2 = [cmd] := if_pos hs

lemma perform_ready (hr : Ready g) (hl : Limited m a call) :
    (g.perform call).2.map datagram = [datagramOf call] ∧ Ready (g.perform call).1 := by
  obtain ⟨hsocket, hheight, hgait⟩ := hr
  obtain ⟨socket, running, created, state, vx, vy, wz, height, gait, mode⟩ := g
  obtain rfl : height = 0 := hheight
  obtain rfl : gait = 1 := hgait
  refine ⟨?_, ?_⟩
  · cases call with
    | setVelocity ux uy uz =>
      obtain ⟨⟨x, rfl, -⟩, ⟨y, rfl, -⟩, ⟨w, rfl, -⟩⟩ := hl
      rw [Go2HighLevelInterface.perform, Go2HighLevelInterface.setVelocity,
        send_connected hsocket, List.map_singleton]
      dsimp only
      rw [mode_finite, datagram_finite]
      rfl
    | stop => exact congrArg (List.map datagram) (send_connected hsocket _)
    | stand => exact congrArg (List.map datagram) (send_connected hsocket _)
  · cases call with
    | setVelocity | stop | stand => exact ⟨hsocket, rfl, rfl⟩

lemma performAll_ready {calls : List (RobotCall PyFloat)} (hr : Ready g)
    (hl : ∀ call ∈ calls, Limited m a call) :
    (performAll g calls).2.map datagram = calls.map datagramOf ∧
      Ready (performAll g calls).1 := by
  induction calls generalizing g with
  | nil => exact ⟨rfl, hr⟩
  | cons call calls ih =>
    obtain ⟨hsent, hready⟩ := perform_ready hr (hl call List.mem_cons_self)
    obtain ⟨hrest, hready'⟩ := ih hready fun c hc => hl c (List.mem_cons_of_mem _ hc)
    refine ⟨?_, hready'⟩
    rw [performAll, Transducer.run]
    dsimp only
    rw [List.map_append, hsent]
    exact congrArg (datagramOf call :: ·) hrest

/-- The number within the limit that is sent for a given one. -/
def limit (m : ℚ) : PyFloat → ℚ
  | .finite q => max (-m) (min m q)
  | .posInf => m
  | .negInf => -m
  | .nan => m

lemma clamp_eq_limit (hm : 0 ≤ m) (x : PyFloat) :
    Py.clamp (-PyFloat.finite m) (.finite m) x = .finite (limit m x) := by
  cases x with
  | finite q =>
    rw [PyFloat.clamp_finite, Py.clamp_eq]
    rfl
  | posInf | nan => simp [Py.clamp, Py.min, PyFloat.max_neg_eq hm, limit]
  | negInf => simp [Py.clamp, Py.min, Py.max, limit]

lemma abs_limit_le (hm : 0 ≤ m) (x : PyFloat) : |limit m x| ≤ m := by
  have hneg : -m ≤ m := neg_le_self hm
  cases x with
  | finite q => exact abs_le.mpr ⟨le_max_left _ _, max_le hneg (min_le_left _ _)⟩
  | posInf | nan => exact (abs_of_nonneg hm).le
  | negInf => exact ((abs_neg m).trans (abs_of_nonneg hm)).le

lemma clamp_limited (hm : 0 ≤ m) (x : PyFloat) :
    ∃ c, Py.clamp (-PyFloat.finite m) (.finite m) x = .finite c ∧ |c| ≤ m :=
  ⟨limit m x, clamp_eq_limit hm x, abs_limit_le hm x⟩

section Controller

variable {timeout : ℚ} {now : ℤ} {c : Go2VelocityController PyFloat}
  {i : ℤ × ControllerEvent PyFloat}

/-- The limits are the given numbers, and the robot is connected. -/
structure Drives (m a : ℚ) (c : Go2VelocityController PyFloat) : Prop where
  linear : c.maxLinearVel = .finite m
  angular : c.maxAngularVel = .finite a
  connected : c.connected = true

lemma step_drives (hc : Drives m a c) : Drives m a (c.step i).1 := by
  obtain ⟨hl, ha, hn⟩ := hc
  obtain ⟨t, e⟩ := i
  cases e with
  | cmdVel msg => exact ⟨hl, ha, hn⟩
  | emergencyStop data =>
    change Drives m a (c.estopCallback data).1
    rw [estopCallback_fst]
    exact ⟨hl, ha, hn⟩
  | tick => exact ⟨hl, ha, hn⟩

lemma step_limited (hm : 0 ≤ m) (ha : 0 ≤ a) (hc : Drives m a c) :
    ∀ call ∈ (c.step i).2, Limited m a call := by
  obtain ⟨hl, hang, hn⟩ := hc
  have hcommand : ∀ call, c.command call = [call] := fun call => if_pos hn
  obtain ⟨t, e⟩ := i
  intro call hcall
  cases e with
  | cmdVel msg => exact (List.not_mem_nil hcall).elim
  | emergencyStop data =>
    change call ∈ (c.estopCallback data).2 at hcall
    rw [estopCallback_snd] at hcall
    split at hcall
    · rw [hcommand] at hcall
      obtain rfl := List.mem_singleton.mp hcall
      exact trivial
    · exact (List.not_mem_nil hcall).elim
  | tick =>
    change call ∈ c.controlLoop t at hcall
    rw [controlLoop_eq, hcommand, hcommand, hl, hang] at hcall
    split at hcall
    · obtain rfl := List.mem_singleton.mp hcall
      exact trivial
    · obtain rfl := List.mem_singleton.mp hcall
      exact ⟨clamp_limited hm _, clamp_limited hm _, clamp_limited ha _⟩

def Follows (m a : ℚ) (n : VelocityNode) (c : Go2VelocityController PyFloat) : Prop :=
  n.controller = c ∧ Drives m a c ∧ Ready n.go2

lemma step_refines (hm : 0 ≤ m) (ha : 0 ≤ a) :
    Transducer.Refines step Go2VelocityController.step datagramOf (Follows m a)
      (fun _ => True) := by
  rintro n c i - ⟨rfl, hdrives, hready⟩
  obtain ⟨hsent, hready'⟩ := performAll_ready hready (step_limited (i := i) hm ha hdrives)
  exact ⟨⟨rfl, step_drives hdrives, hready'⟩, hsent⟩

lemma stop_sent_last (maxLinearVel maxAngularVel : PyFloat) (timeout : ℚ) (now : ℤ)
    {h : List (ℤ × ControllerEvent PyFloat)} (hs : lastStop h = some true) :
    (Transducer.outputs Go2VelocityController.step
      (Go2VelocityController.init maxLinearVel maxAngularVel timeout true now) h).getLast? =
        some .stop := by
  induction h using List.reverseRecOn with
  | nil => cases hs
  | append_singleton h i ih =>
    obtain ⟨t, e⟩ := i
    rw [lastStop_concat] at hs
    rw [Transducer.outputs_concat]
    cases e with
    | cmdVel msg =>
      have hreply : Transducer.reply Go2VelocityController.step
          (Go2VelocityController.init maxLinearVel maxAngularVel timeout true now) h
          (t, .cmdVel msg) = [] := rfl
      rw [hreply, List.append_nil]
      exact ih hs
    | emergencyStop data =>
      obtain rfl : data = true := Option.some.inj hs
      rw [reply_emergencyStop]
      by_cases hactive : lastStop h = some true
      · rw [if_neg (by simp [hactive]), List.append_nil]
        exact ih hactive
      · rw [if_pos ⟨rfl, hactive⟩, List.getLast?_concat]
    | tick =>
      have hactive : lastStop h = some true := hs
      rw [reply_tick, if_pos (Or.inl hactive), List.getLast?_concat]

end Controller

def standing : List UInt8 := Struct.pack (fields 1 0)

lemma datagramOf_zero {call : RobotCall PyFloat} (hc : velocityOf call = 0) :
    datagramOf call = .ok standing := by
  have hmode : ¬ ((0 : ℚ × ℚ × ℚ).1 ≠ 0 ∨ (0 : ℚ × ℚ × ℚ).2.1 ≠ 0 ∨ (0 : ℚ × ℚ × ℚ).2.2 ≠ 0) := by
    simp
  rw [datagramOf, hc, packet_ofVelocity (v := 0) ⟨finite32_zero, finite32_zero, finite32_zero⟩,
    if_neg hmode, standing]

/-- The robot decodes the velocity, rounded, and walks exactly if the velocity is not zero. -/
structure Carries (v : ℚ × ℚ × ℚ) (bytes : List UInt8) : Prop where
  size : bytes.length = 18
  decoded : ∃ vx vy wz height,
    Struct.unpack commandFormat bytes = .ok [⟨.uchar, if v = 0 then 1 else 2⟩, ⟨.uchar, 1⟩,
      ⟨.float, vx⟩, ⟨.float, vy⟩, ⟨.float, wz⟩, ⟨.float, height⟩] ∧
    Binary32.value vx = .finite (Binary32.nearest v.1) ∧
    Binary32.value vy = .finite (Binary32.nearest v.2.1) ∧
    Binary32.value wz = .finite (Binary32.nearest v.2.2) ∧
    Binary32.value height = 0

/-- The number is within the limit, and what is sent of it is, too. -/
def InLimit (m q : ℚ) : Prop := |q| ≤ m ∧ |Binary32.nearest q| ≤ Binary32.nearest m

lemma inLimit {q : ℚ} (h : |q| ≤ m) : InLimit m q := ⟨h, Binary32.abs_nearest_le h⟩

def WithinLimits (m a : ℚ) (bytes : List UInt8) : Prop :=
  ∃ v, Carries v bytes ∧ InLimit m v.1 ∧ InLimit m v.2.1 ∧ InLimit a v.2.2

lemma velocityOf_limited (hm : 0 ≤ m) (ha : 0 ≤ a) (hl : Limited m a call) :
    |(velocityOf call).1| ≤ m ∧ |(velocityOf call).2.1| ≤ m ∧ |(velocityOf call).2.2| ≤ a := by
  cases call with
  | setVelocity vx vy wz =>
    obtain ⟨⟨x, rfl, hx⟩, ⟨y, rfl, hy⟩, ⟨w, rfl, hw⟩⟩ := hl
    exact ⟨hx, hy, hw⟩
  | stop | stand => exact ⟨abs_zero.trans_le hm, abs_zero.trans_le hm, abs_zero.trans_le ha⟩

lemma mode_eq (v : ℚ × ℚ × ℚ) :
    (if v.1 ≠ 0 ∨ v.2.1 ≠ 0 ∨ v.2.2 ≠ 0 then 2 else 1 : BitVec 8) = if v = 0 then 1 else 2 := by
  by_cases hv : v = 0
  · subst hv
    simp
  · rw [if_neg hv, if_pos]
    by_contra hnone
    rw [not_or, not_or, not_not, not_not, not_not] at hnone
    exact hv (Prod.ext hnone.1 (Prod.ext hnone.2.1 hnone.2.2))

lemma datagram_carries (hm : 0 ≤ m) (ha : 0 ≤ a) (hfm : Finite32 m) (hfa : Finite32 a)
    (hl : Limited m a call) :
    ∃ bytes, datagramOf call = .ok bytes ∧ Carries (velocityOf call) bytes := by
  obtain ⟨hx, hy, hw⟩ := velocityOf_limited hm ha hl
  rw [Finite32, abs_of_nonneg hm] at hfm
  rw [Finite32, abs_of_nonneg ha] at hfa
  have hrep : Representable (velocityOf call) :=
    ⟨hx.trans_lt hfm, hy.trans_lt hfm, hw.trans_lt hfa⟩
  have hzero : Binary32.nearest 0 = 0 := Binary32.nearest_eq_zero_iff.mpr (by norm_num)
  obtain ⟨hsize, hunpack⟩ := unpack_fields
    (if (velocityOf call).1 ≠ 0 ∨ (velocityOf call).2.1 ≠ 0 ∨ (velocityOf call).2.2 ≠ 0 then 2
      else 1) (velocityOf call)
  refine ⟨_, packet_ofVelocity hrep, hsize, _, _, _, Binary32.ofRat 0, ?_,
    Binary32.value_ofRat hrep.1, Binary32.value_ofRat hrep.2.1, Binary32.value_ofRat hrep.2.2, ?_⟩
  · exact hunpack.trans
      (congrArg (fun mode => Except.ok (fields mode (velocityOf call))) (mode_eq (velocityOf call)))
  · rw [Binary32.value_ofRat finite32_zero, hzero]
    rfl

lemma datagram_within (hm : 0 ≤ m) (ha : 0 ≤ a) (hfm : Finite32 m) (hfa : Finite32 a)
    (hl : Limited m a call) : ∃ bytes, datagramOf call = .ok bytes ∧ WithinLimits m a bytes := by
  obtain ⟨bytes, hbytes, hcarries⟩ := datagram_carries hm ha hfm hfa hl
  obtain ⟨hx, hy, hw⟩ := velocityOf_limited hm ha hl
  exact ⟨bytes, hbytes, velocityOf call, hcarries, inLimit hx, inLimit hy, inLimit hw⟩

section Lifetime

variable (m a : ℚ) (timeout : ℚ) (now : ℤ) (raises : Option ConnectStep)
  (h : List (ℤ × ControllerEvent PyFloat))

/-- The velocity that the timer sends by the messages so far: none while the stop is active or the
latest command is too old, and else that command within the limits. -/
def commanded (t : ℤ) : ℚ × ℚ × ℚ :=
  let last := (lastCmd h).getD (now, 0)
  if lastStop h = some true ∨ timeout < ((t - last.1 : ℤ) : ℚ) / 10 ^ 9 then 0
  else (limit m last.2.linear.x, limit m last.2.linear.y, limit a last.2.angular.z)

def sent : List (Except String (List UInt8)) :=
  (init (.finite m) (.finite a) timeout now raises).2 ++
    Transducer.outputs step (init (.finite m) (.finite a) timeout now raises).1 h

def destroyed : VelocityNode × List (Except String (List UInt8)) :=
  (Transducer.after step (init (.finite m) (.finite a) timeout now raises).1 h).destroyNode

/-- The node stands the robot up, sends the velocity of its messages whenever its timer expires,
and stops the robot in the end and whenever the stop gets active. After that nothing but the stop
is sent. -/
structure Lifetime : Prop where
  silent : raises ≠ none →
    sent m a timeout now raises h ++ (destroyed m a timeout now raises h).2 = []
  stands : raises = none → Carries 0 standing ∧
    ∃ rest, sent m a timeout now raises h = .ok standing :: rest
  ticks : raises = none → ∀ pre t post, h = pre ++ (t, .tick) :: post →
    ∃ bytes, sent m a timeout now raises (pre ++ [(t, .tick)]) =
      sent m a timeout now raises pre ++ [.ok bytes] ∧
        Carries (commanded m a timeout now pre t) bytes
  stops : raises = none → ∀ pre t data post, h = pre ++ (t, .emergencyStop data) :: post →
    sent m a timeout now raises (pre ++ [(t, .emergencyStop data)]) =
      sent m a timeout now raises pre ++
        if data = true ∧ lastStop pre ≠ some true then [.ok standing] else []
  commands : raises = none → ∀ pre t msg post, h = pre ++ (t, .cmdVel msg) :: post →
    sent m a timeout now raises (pre ++ [(t, .cmdVel msg)]) = sent m a timeout now raises pre
  stopped : raises = none → ∀ pre post, h = pre ++ post → lastStop pre = some true →
    (sent m a timeout now raises pre).getLast? = some (.ok standing)
  limited : ∀ d ∈ sent m a timeout now raises h,
    ∃ bytes, d = .ok bytes ∧ WithinLimits m a bytes
  ends : raises = none → (destroyed m a timeout now raises h).2 = [.ok standing] ∧
    (destroyed m a timeout now raises h).1.go2.socket = none

variable {m a} {raises}

lemma init_connected : (init (.finite m) (.finite a) timeout now none).2 = [.ok standing] ∧
    Follows m a (init (.finite m) (.finite a) timeout now none).1
      (Go2VelocityController.init (.finite m) (.finite a) timeout true now) := by
  have hready : Ready (({} : Go2HighLevelInterface PyFloat).connect none).1 := ⟨rfl, rfl, rfl⟩
  have hstand : ∀ call ∈ [RobotCall.stand], Limited m a call := by simp [Limited]
  obtain ⟨hsent, hready'⟩ := performAll_ready hready hstand
  refine ⟨hsent.trans ?_, rfl, ⟨rfl, rfl, rfl⟩, hready'⟩
  rw [List.map_singleton, datagramOf_zero rfl]

lemma sent_eq (hm : 0 ≤ m) (ha : 0 ≤ a) :
    Follows m a (Transducer.after step (init (.finite m) (.finite a) timeout now none).1 h)
        (Transducer.after Go2VelocityController.step
          (Go2VelocityController.init (.finite m) (.finite a) timeout true now) h) ∧
      sent m a timeout now none h = .ok standing ::
        (Transducer.outputs Go2VelocityController.step
          (Go2VelocityController.init (.finite m) (.finite a) timeout true now) h).map
            datagramOf := by
  obtain ⟨hsent, hfollows⟩ := init_connected (m := m) (a := a) timeout now
  obtain ⟨hafter, hout⟩ := (step_refines hm ha).run hfollows h fun _ _ => trivial
  refine ⟨hafter, ?_⟩
  rw [sent, hsent, hout]
  rfl

lemma step_silent {c : Go2VelocityController PyFloat} (hc : c.connected = false)
    (i : ℤ × ControllerEvent PyFloat) : (c.step i).1.connected = false ∧ (c.step i).2 = [] := by
  have hcommand : ∀ call, c.command call = [] := fun call => if_neg (by simp [hc])
  obtain ⟨t, e⟩ := i
  cases e with
  | cmdVel msg => exact ⟨hc, rfl⟩
  | emergencyStop data =>
    change (c.estopCallback data).1.connected = false ∧ (c.estopCallback data).2 = []
    rw [estopCallback_fst, estopCallback_snd, hcommand, ite_self]
    exact ⟨hc, rfl⟩
  | tick =>
    refine ⟨hc, ?_⟩
    change c.controlLoop t = []
    rw [controlLoop_eq, hcommand, hcommand, ite_self]

lemma silent_run {n : VelocityNode} (hn : n.controller.connected = false) :
    (Transducer.after step n h).controller.connected = false ∧
      Transducer.outputs step n h = [] := by
  induction h using List.reverseRecOn with
  | nil => exact ⟨hn, rfl⟩
  | append_singleton h i ih =>
    obtain ⟨hc, hnone⟩ := ih
    obtain ⟨hc', hcalls⟩ := step_silent hc i
    rw [Transducer.after_concat, Transducer.outputs_concat, hnone, Transducer.reply]
    refine ⟨hc', ?_⟩
    change (performAll _ ((Transducer.after step n h).controller.step i).2).2.map datagram = []
    rw [hcalls]
    rfl

lemma outputs_limited (hm : 0 ≤ m) (ha : 0 ≤ a) {c : Go2VelocityController PyFloat}
    (hc : Drives m a c) : Drives m a (Transducer.after Go2VelocityController.step c h) ∧
      ∀ call ∈ Transducer.outputs Go2VelocityController.step c h, Limited m a call := by
  induction h using List.reverseRecOn with
  | nil => exact ⟨hc, fun call hcall => (List.not_mem_nil hcall).elim⟩
  | append_singleton h i ih =>
    obtain ⟨hdrives, hlimited⟩ := ih
    rw [Transducer.after_concat, Transducer.outputs_concat]
    refine ⟨step_drives hdrives, fun call hcall => ?_⟩
    rcases List.mem_append.mp hcall with hcall | hcall
    · exact hlimited call hcall
    · exact step_limited hm ha hdrives call hcall

lemma tick_commands (hm : 0 ≤ m) (ha : 0 ≤ a) (t : ℤ) :
    ∃ call, Transducer.reply Go2VelocityController.step
        (Go2VelocityController.init (.finite m) (.finite a) timeout true now) h (t, .tick) =
          [call] ∧ Limited m a call ∧ velocityOf call = commanded m a timeout now h t := by
  rw [reply_tick, commanded, secondsSince]
  by_cases hq : lastStop h = some true ∨
      timeout < ((t - ((lastCmd h).getD (now, 0)).1 : ℤ) : ℚ) / 10 ^ 9
  · rw [if_pos hq, if_pos hq]
    exact ⟨_, rfl, trivial, rfl⟩
  · rw [if_neg hq, if_neg hq]
    refine ⟨_, rfl, ⟨clamp_limited hm _, clamp_limited hm _, clamp_limited ha _⟩, ?_⟩
    rw [limited, clamp_eq_limit hm, clamp_eq_limit hm, clamp_eq_limit ha]
    rfl

lemma sent_concat (hm : 0 ≤ m) (ha : 0 ≤ a) (i : ℤ × ControllerEvent PyFloat) :
    sent m a timeout now none (h ++ [i]) = sent m a timeout now none h ++
      (Transducer.reply Go2VelocityController.step
        (Go2VelocityController.init (.finite m) (.finite a) timeout true now) h i).map
          datagramOf := by
  rw [(sent_eq timeout now (h ++ [i]) hm ha).2, (sent_eq timeout now h hm ha).2,
    Transducer.outputs_concat, List.map_append, List.cons_append]

lemma failed_silent (raises : ConnectStep) :
    sent m a timeout now (some raises) h = [] ∧
      (destroyed m a timeout now (some raises) h).2 = [] := by
  have hinit : (init (.finite m) (.finite a) timeout now (some raises)).2 = [] ∧
      (init (.finite m) (.finite a) timeout now (some raises)).1.controller.connected =
        false := by
    cases raises <;> exact ⟨rfl, rfl⟩
  obtain ⟨hc, hnone⟩ := silent_run h hinit.2
  constructor
  · rw [sent, hinit.1, hnone]
    rfl
  · rw [destroyed, destroyNode, Go2VelocityController.command, hc]
    rfl

lemma destroyed_stops (hm : 0 ≤ m) (ha : 0 ≤ a) :
    (destroyed m a timeout now none h).2 = [.ok standing] ∧
      (destroyed m a timeout now none h).1.go2.socket = none := by
  obtain ⟨⟨hcontroller, hdrives, hready⟩, -⟩ := sent_eq timeout now h hm ha
  rw [← hcontroller] at hdrives
  constructor
  · have hstop : Go2VelocityController.command .stop
        (Transducer.after step (init (.finite m) (.finite a) timeout now none).1 h).controller =
          [.stop] := if_pos hdrives.connected
    have hlimited : ∀ call ∈ [RobotCall.stop], Limited m a call := by simp [Limited]
    obtain ⟨hdatagrams, -⟩ := performAll_ready hready hlimited
    rw [List.map_singleton, datagramOf_zero rfl, ← hstop] at hdatagrams
    exact hdatagrams
  · rw [destroyed, destroyNode]
    dsimp only
    rw [if_pos hdrives.connected]
    rfl

lemma standing_carries (hm : 0 ≤ m) (ha : 0 ≤ a) (hfm : Finite32 m) (hfa : Finite32 a) :
    Carries 0 standing := by
  have hstanding : ∃ bytes, datagramOf .stand = .ok bytes ∧ Carries 0 bytes :=
    datagram_carries hm ha hfm hfa trivial
  rw [datagramOf_zero rfl] at hstanding
  obtain ⟨bytes, hbytes, hstand⟩ := hstanding
  obtain rfl := Except.ok.inj hbytes
  exact hstand

theorem lifetime (hm : 0 ≤ m) (ha : 0 ≤ a) (hfm : Finite32 m) (hfa : Finite32 a) :
    Lifetime m a timeout now raises h := by
  cases raises with
  | some raises =>
    obtain ⟨hsent, hdestroyed⟩ := failed_silent (m := m) (a := a) timeout now h raises
    refine ⟨fun _ => ?_, by simp, by simp, by simp, by simp, by simp, by simp [hsent], by simp⟩
    rw [hsent, hdestroyed]
    rfl
  | none =>
    have hsent := (sent_eq timeout now h hm ha).2
    have hstand := standing_carries hm ha hfm hfa
    refine ⟨fun hne => (hne rfl).elim, fun _ => ⟨hstand, _, hsent⟩, fun _ pre t post _ => ?_,
      fun _ pre t data post _ => ?_, fun _ pre t msg post _ => ?_,
      fun _ pre post _ hs => ?_, fun d hd => ?_, fun _ => destroyed_stops timeout now h hm ha⟩
    · obtain ⟨call, hcall, hlimited, hvelocity⟩ := tick_commands timeout now pre hm ha t
      obtain ⟨bytes, hbytes, hcarries⟩ := datagram_carries hm ha hfm hfa hlimited
      rw [hvelocity] at hcarries
      refine ⟨bytes, ?_, hcarries⟩
      rw [sent_concat timeout now pre hm ha, hcall, List.map_singleton, hbytes]
    · rw [sent_concat timeout now pre hm ha, reply_emergencyStop]
      split
      · rw [List.map_singleton, datagramOf_zero rfl]
      · rfl
    · rw [sent_concat timeout now pre hm ha]
      exact List.append_nil _
    · obtain ⟨os, hos⟩ := List.getLast?_eq_some_iff.mp
        (stop_sent_last (.finite m) (.finite a) timeout now hs)
      rw [(sent_eq timeout now pre hm ha).2, hos, List.map_append, List.map_singleton,
        ← List.cons_append, List.getLast?_concat, datagramOf_zero rfl]
    · rw [hsent, List.mem_cons, List.mem_map] at hd
      rcases hd with rfl | ⟨call, hcall, rfl⟩
      · exact ⟨standing, rfl, 0, hstand, inLimit (abs_zero.trans_le hm),
          inLimit (abs_zero.trans_le hm), inLimit (abs_zero.trans_le ha)⟩
      · exact datagram_within hm ha hfm hfa
          ((outputs_limited h hm ha ⟨rfl, rfl, rfl⟩).2 call hcall)

theorem lifetime_of_walk :
    Lifetime 1 1 (1 / 2) 0 none
      [(0, .cmdVel ⟨⟨.posInf, .nan, 0⟩, 0⟩), (1, .tick), (2, .emergencyStop true), (3, .tick)] :=
  lifetime (1 / 2) 0 _ zero_le_one zero_le_one (by norm_num [Finite32]) (by norm_num [Finite32])

end Lifetime

end VelocityNode

end Taggy
