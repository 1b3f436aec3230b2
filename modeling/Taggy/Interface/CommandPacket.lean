import Taggy.Data.Binary32
import Taggy.Interface.Connection

/-! The bytes of a command, and what the robot decodes from them. -/

namespace Taggy

namespace Struct

def packUchar (n : ℤ) : Except String Value :=
  if 0 ≤ n ∧ n ≤ 255 then .ok ⟨.uchar, BitVec.ofInt 8 n⟩
  else .error "ubyte format requires 0 <= number <= 255"

def packFloat (q : ℚ) : Except String Value :=
  if Binary32.infinityBits ≤ Binary32.magnitude |q| then
    .error "float too large to pack with f format"
  else .ok ⟨.float, Binary32.ofRat q⟩

end Struct

namespace HighLevelCommand

open Struct

def commandFormat : String := "<BBffff"

lemma parse_commandFormat :
    parse commandFormat = some [.uchar, .uchar, .float, .float, .float, .float] := by decide

def packet (cmd : HighLevelCommand ℚ) : Except String (List UInt8) := do
  let mode ← packUchar cmd.mode
  let gait ← packUchar cmd.gaitType
  let vx ← packFloat cmd.vx
  let vy ← packFloat cmd.vy
  let wz ← packFloat cmd.wz
  let height ← packFloat cmd.bodyHeight
  return pack [mode, gait, vx, vy, wz, height]

def ofVelocity (v : ℚ × ℚ × ℚ) : HighLevelCommand ℚ where
  vx := v.1
  vy := v.2.1
  wz := v.2.2
  mode := if v.1 ≠ 0 ∨ v.2.1 ≠ 0 ∨ v.2.2 ≠ 0 then 2 else 1

def Finite32 (q : ℚ) : Prop := |q| < 2 ^ 128 - 2 ^ 103

def Representable (v : ℚ × ℚ × ℚ) : Prop := Finite32 v.1 ∧ Finite32 v.2.1 ∧ Finite32 v.2.2

/-- What the robot should decode: the velocities rounded, walking exactly if one of them is not
zero as decoded. -/
structure Wire (v : ℚ × ℚ × ℚ) (bytes : List UInt8) : Prop where
  size : bytes.length = 18
  decoded : ∃ mode vx vy wz height,
    unpack commandFormat bytes = .ok [⟨.uchar, mode⟩, ⟨.uchar, 1⟩, ⟨.float, vx⟩, ⟨.float, vy⟩,
      ⟨.float, wz⟩, ⟨.float, height⟩] ∧
    Binary32.value vx = .finite (Binary32.nearest v.1) ∧
    Binary32.value vy = .finite (Binary32.nearest v.2.1) ∧
    Binary32.value wz = .finite (Binary32.nearest v.2.2) ∧
    Binary32.value height = 0 ∧
    mode = if Binary32.value vx ≠ 0 ∨ Binary32.value vy ≠ 0 ∨ Binary32.value wz ≠ 0 then 2 else 1

lemma packFloat_ok {q : ℚ} (h : Finite32 q) : packFloat q = .ok ⟨.float, Binary32.ofRat q⟩ := by
  rw [packFloat, if_neg]
  rw [Binary32.infinityBits_le_iff, not_le]
  exact h

lemma finite32_zero : Finite32 0 := by norm_num [Finite32]

def fields (mode : BitVec 8) (v : ℚ × ℚ × ℚ) : List Value :=
  [⟨.uchar, mode⟩, ⟨.uchar, 1⟩, ⟨.float, Binary32.ofRat v.1⟩, ⟨.float, Binary32.ofRat v.2.1⟩,
    ⟨.float, Binary32.ofRat v.2.2⟩, ⟨.float, Binary32.ofRat 0⟩]

lemma packet_ofVelocity {v : ℚ × ℚ × ℚ} (h : Representable v) :
    (ofVelocity v).packet =
      .ok (pack (fields (if v.1 ≠ 0 ∨ v.2.1 ≠ 0 ∨ v.2.2 ≠ 0 then 2 else 1) v)) := by
  obtain ⟨hx, hy, hz⟩ := h
  have hmode : packUchar (ofVelocity v).mode =
      .ok ⟨.uchar, if v.1 ≠ 0 ∨ v.2.1 ≠ 0 ∨ v.2.2 ≠ 0 then 2 else 1⟩ := by
    rw [ofVelocity]
    split <;> rfl
  have hgait : packUchar (ofVelocity v).gaitType = .ok ⟨.uchar, 1⟩ := rfl
  have hheight : packFloat (ofVelocity v).bodyHeight = .ok ⟨.float, Binary32.ofRat 0⟩ :=
    packFloat_ok finite32_zero
  have hvx : packFloat (ofVelocity v).vx = .ok ⟨.float, Binary32.ofRat v.1⟩ := packFloat_ok hx
  have hvy : packFloat (ofVelocity v).vy = .ok ⟨.float, Binary32.ofRat v.2.1⟩ := packFloat_ok hy
  have hwz : packFloat (ofVelocity v).wz = .ok ⟨.float, Binary32.ofRat v.2.2⟩ := packFloat_ok hz
  rw [packet, hmode, hgait, hvx, hvy, hwz, hheight]
  rfl

lemma unpack_fields (mode : BitVec 8) (v : ℚ × ℚ × ℚ) :
    (pack (fields mode v)).length = 18 ∧
      unpack commandFormat (pack (fields mode v)) = .ok (fields mode v) := by
  refine ⟨?_, unpack_packed parse_commandFormat⟩
  rw [pack_size]
  rfl

lemma fields_inj {mode mode' : BitVec 8} {v : ℚ × ℚ × ℚ} {vx vy wz height : Binary32}
    (h : fields mode v = [⟨.uchar, mode'⟩, ⟨.uchar, 1⟩, ⟨.float, vx⟩, ⟨.float, vy⟩, ⟨.float, wz⟩,
      ⟨.float, height⟩]) :
    mode = mode' ∧ Binary32.ofRat v.1 = vx ∧ Binary32.ofRat v.2.1 = vy ∧
      Binary32.ofRat v.2.2 = wz := by
  rw [fields] at h
  generalize Binary32.ofRat v.1 = rx, Binary32.ofRat v.2.1 = ry, Binary32.ofRat v.2.2 = rz,
    Binary32.ofRat 0 = r0 at h
  cases h
  exact ⟨rfl, rfl, rfl, rfl⟩

/-- No velocity is lost by rounding unless another one is kept. -/
def Faithful (v : ℚ × ℚ × ℚ) : Prop :=
  v = 0 ∨ 2 ^ (-150 : ℤ) < |v.1| ∨ 2 ^ (-150 : ℤ) < |v.2.1| ∨ 2 ^ (-150 : ℤ) < |v.2.2|

lemma value_ne_zero_iff {q : ℚ} (h : Finite32 q) :
    Binary32.value (Binary32.ofRat q) ≠ 0 ↔ 2 ^ (-150 : ℤ) < |q| := by
  rw [Binary32.value_ofRat h, PyFloat.zero_def, Ne, PyFloat.finite.injEq,
    Binary32.nearest_eq_zero_iff, not_le]

lemma mode_eq_iff {p q : Prop} [Decidable p] [Decidable q] :
    (if p then 2 else 1 : BitVec 8) = (if q then 2 else 1) ↔ (p ↔ q) := by
  by_cases hp : p <;> by_cases hq : q <;> simp [hp, hq]

lemma faithful_iff (v : ℚ × ℚ × ℚ) :
    Faithful v ↔ ((v.1 ≠ 0 ∨ v.2.1 ≠ 0 ∨ v.2.2 ≠ 0) ↔
      2 ^ (-150 : ℤ) < |v.1| ∨ 2 ^ (-150 : ℤ) < |v.2.1| ∨ 2 ^ (-150 : ℤ) < |v.2.2|) := by
  have hbound : (0 : ℚ) < 2 ^ (-150 : ℤ) := by positivity
  rw [Faithful]
  generalize (2 : ℚ) ^ (-150 : ℤ) = bound at hbound ⊢
  have hpos : ∀ {q : ℚ}, bound < |q| → q ≠ 0 := by
    rintro q hq rfl
    rw [abs_zero] at hq
    exact lt_asymm hbound hq
  have hkept : bound < |v.1| ∨ bound < |v.2.1| ∨ bound < |v.2.2| →
      v.1 ≠ 0 ∨ v.2.1 ≠ 0 ∨ v.2.2 ≠ 0 := Or.imp hpos (Or.imp hpos hpos)
  have hzero : v = 0 ↔ ¬ (v.1 ≠ 0 ∨ v.2.1 ≠ 0 ∨ v.2.2 ≠ 0) := by
    rw [not_or, not_or, not_not, not_not, not_not, Prod.ext_iff, Prod.ext_iff]
    rfl
  rw [hzero]
  constructor
  · intro h
    exact ⟨fun hv => h.resolve_left (not_not_intro hv), hkept⟩
  · intro h
    exact (em _).elim (fun hv => Or.inr (h.mp hv)) Or.inl

lemma wire_iff {v : ℚ × ℚ × ℚ} (h : Representable v) :
    Wire v (pack (fields (if v.1 ≠ 0 ∨ v.2.1 ≠ 0 ∨ v.2.2 ≠ 0 then 2 else 1) v)) ↔ Faithful v := by
  obtain ⟨hsize, hunpack⟩ := unpack_fields (if v.1 ≠ 0 ∨ v.2.1 ≠ 0 ∨ v.2.2 ≠ 0 then 2 else 1) v
  obtain ⟨hx, hy, hz⟩ := h
  have hmode := mode_eq_iff (p := v.1 ≠ 0 ∨ v.2.1 ≠ 0 ∨ v.2.2 ≠ 0)
    (q := Binary32.value (Binary32.ofRat v.1) ≠ 0 ∨ Binary32.value (Binary32.ofRat v.2.1) ≠ 0 ∨
      Binary32.value (Binary32.ofRat v.2.2) ≠ 0)
  have hfaithful := faithful_iff v
  rw [← value_ne_zero_iff hx, ← value_ne_zero_iff hy, ← value_ne_zero_iff hz, ← hmode] at hfaithful
  rw [hfaithful]
  constructor
  · rintro ⟨-, mode, vx, vy, wz, height, hd, -, -, -, -, hm⟩
    obtain ⟨rfl, rfl, rfl, rfl⟩ := fields_inj (Except.ok.inj (hunpack.symm.trans hd))
    exact hm
  · intro hm
    refine ⟨hsize, _, _, _, _, _, hunpack, Binary32.value_ofRat hx, Binary32.value_ofRat hy,
      Binary32.value_ofRat hz, ?_, hm⟩
    rw [Binary32.ofRat_zero]
    decide +kernel

end HighLevelCommand

namespace Go2HighLevelInterface

open HighLevelCommand History

def target (call : RobotCall ℚ) : ℚ × ℚ × ℚ := (velocity? call).getD 0

def packets (h : List (InterfaceCall ℚ)) (call : RobotCall ℚ) : List (Except String (List UInt8)) :=
  ((after h).perform call).2.map packet

/-- A call made on a connected interface sends one datagram, which says what was asked for. -/
def WireFormat (h : List (InterfaceCall ℚ)) (i : InterfaceCall ℚ) : Prop :=
  ∀ call, i = .command call → (after h).socket.isSome = true →
    ∃ bytes, packets h call = [.ok bytes] ∧ Wire (target call) bytes

lemma perform_ofVelocity {g : Go2HighLevelInterface ℚ} (hh : g.currentCommand.bodyHeight = 0)
    (hg : g.currentCommand.gaitType = 1) (call : RobotCall ℚ) :
    g.perform call = g.send (ofVelocity (target call)) := by
  obtain ⟨socket, running, created, state, vx, vy, wz, height, gait, mode⟩ := g
  obtain rfl : height = 0 := hh
  obtain rfl : gait = 1 := hg
  cases call with
  | setVelocity | stop | stand => rfl

lemma command_after (h : List (InterfaceCall ℚ)) :
    (after h).currentCommand.bodyHeight = 0 ∧ (after h).currentCommand.gaitType = 1 := by
  induction h using List.reverseRecOn with
  | nil => exact ⟨rfl, rfl⟩
  | append_singleton h call ih =>
    rw [after_concat]
    cases call with
    | connect raises =>
      match raises with
      | none | some .socket | some .setsockopt | some .bind | some .settimeout => exact ih
    | disconnect => exact ih
    | command call =>
      rw [step, perform_ofVelocity ih.1 ih.2]
      exact ⟨rfl, rfl⟩

lemma packets_eq {h : List (InterfaceCall ℚ)} (hs : (after h).socket.isSome = true)
    (call : RobotCall ℚ) : packets h call = [(ofVelocity (target call)).packet] := by
  obtain ⟨hh, hg⟩ := command_after h
  rw [packets, perform_ofVelocity hh hg, send]
  exact congrArg (List.map packet) (if_pos hs)

lemma datagram_iff {h : List (InterfaceCall ℚ)} {call : RobotCall ℚ}
    (hs : (after h).socket.isSome = true) (hr : Representable (target call)) :
    (∃ bytes, packets h call = [.ok bytes] ∧ Wire (target call) bytes) ↔
      Faithful (target call) := by
  rw [← wire_iff hr, packets_eq hs, packet_ofVelocity hr]
  constructor
  · rintro ⟨bytes, hb, hw⟩
    obtain rfl := Except.ok.inj (List.singleton_inj.mp hb)
    exact hw
  · exact fun hw => ⟨_, rfl, hw⟩

/-- The datagrams of a run say what was asked for exactly if no call on a connected interface asks
only for velocities that round to zero. -/
theorem wire_format_iff (h : List (InterfaceCall ℚ))
    (hr : ∀ call, .command call ∈ h → Representable (target call)) :
    AtEachStep WireFormat h ↔
      AtEachStep (fun pre i => ∀ call, i = .command call → (after pre).socket.isSome = true →
        Faithful (target call)) h := by
  apply atEachStep_congr_of_mem
  intro pre i hi
  refine forall_congr' fun call => forall_congr' fun he => forall_congr' fun hs => ?_
  exact datagram_iff hs (hr call (he ▸ hi))

theorem wire_format_forward :
    AtEachStep WireFormat [.connect none, .command (.setVelocity (1 / 2) 0 0)] ↔
      AtEachStep (fun pre i => ∀ call, i = .command call → (after pre).socket.isSome = true →
        Faithful (target call)) [.connect none, .command (.setVelocity (1 / 2) 0 0)] := by
  refine wire_format_iff _ fun call hm => ?_
  obtain rfl : call = .setVelocity (1 / 2) 0 0 := by simpa using hm
  exact ⟨by norm_num [Finite32, target, velocity?], by norm_num [Finite32, target, velocity?],
    by norm_num [Finite32, target, velocity?]⟩

theorem walk_without_velocity :
    ¬ AtEachStep WireFormat [.connect none, .command (.setVelocity (2 ^ (-150 : ℤ)) 0 0)] := by
  intro h
  have hrep : Representable (2 ^ (-150 : ℤ), 0, 0) :=
    ⟨by norm_num [Finite32], finite32_zero, finite32_zero⟩
  obtain ⟨bytes, hb, hw⟩ := h [.connect none] _ [] rfl _ rfl rfl
  rw [packets_eq rfl] at hb
  obtain rfl := Except.ok.inj ((packet_ofVelocity hrep).symm.trans (List.singleton_inj.mp hb))
  have hf : Faithful (2 ^ (-150 : ℤ), 0, 0) := (wire_iff hrep).mp hw
  revert hf
  norm_num [Faithful]

end Go2HighLevelInterface

end Taggy
