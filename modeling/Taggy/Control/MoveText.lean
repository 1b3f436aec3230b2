import Mathlib.Data.BitVec
import Taggy.Control.ControlHistory
import Taggy.Data.Binary32
import Taggy.Data.JsonReader

/-! The text of a velocity request, for velocities that may be too large or no numbers. -/

namespace Taggy

namespace Binary32

def narrow : PyFloat → Binary32
  | .finite q => ofRat q
  | .posInf => 0x7F800000
  | .negInf => 0xFF800000
  | .nan => 0x7FC00000

def IsFinite (b : Binary32) : Prop := ∃ q, value b = .finite q

lemma value_narrow_posInf : value (narrow .posInf) = .posInf := by decide +kernel

lemma value_narrow_negInf : value (narrow .negInf) = .negInf := by decide +kernel

lemma value_narrow_nan : value (narrow .nan) = .nan := by decide +kernel

def InRange (x : PyFloat) : Prop := ∃ q, x = .finite q ∧ |q| < 2 ^ 128 - 2 ^ 103

lemma isFinite_narrow_iff (x : PyFloat) : IsFinite (narrow x) ↔ InRange x := by
  cases x with
  | finite q =>
    by_cases hq : |q| < 2 ^ 128 - 2 ^ 103
    · exact iff_of_true ⟨_, value_ofRat hq⟩ ⟨q, rfl, hq⟩
    · refine iff_of_false ?_ ?_
      · rintro ⟨p, hp⟩
        rw [narrow, value_ofRat_overflow (not_lt.mp hq)] at hp
        split at hp <;> cases hp
      · rintro ⟨p, ⟨⟩, hp⟩
        exact hq hp
  | posInf => simp [IsFinite, InRange, value_narrow_posInf]
  | negInf => simp [IsFinite, InRange, value_narrow_negInf]
  | nan => simp [IsFinite, InRange, value_narrow_nan]

end Binary32

-- The serializer writes finite numbers as numbers and all others as null.
structure DumpsFloats (dumpFloat : Binary32 → String) : Prop where
  finite : ∀ b, Binary32.IsFinite b → Json.isNumber (dumpFloat b).toList = true
  nonfinite : ∀ b, ¬ Binary32.IsFinite b → dumpFloat b = "null"

def FloatSemantics.ieee (dumpFloat : Binary32 → String) : FloatSemantics PyFloat Binary32 where
  narrow := ⟨Binary32.narrow, Binary32.ofRat_zero⟩
  dumpFloat := dumpFloat

def VelocityObject (text : String) : Prop :=
  ∃ o, Json.readObject text = some o ∧ ∀ key ∈ ["x", "y", "z"], ∃ n, o.lookup key = some (.number n)

lemma DumpsFloats.token {dumpFloat : Binary32 → String} (h : DumpsFloats dumpFloat)
    (b : Binary32) :
    ∃ token, Json.Token.read? (dumpFloat b).toList = some token ∧
      ((∃ n, token = .number n) ↔ Binary32.IsFinite b) := by
  by_cases hb : Binary32.IsFinite b
  · exact ⟨_, Json.Token.read?_number (h.finite b hb), iff_of_true ⟨_, rfl⟩ hb⟩
  · refine ⟨.null, ?_, iff_of_false (by simp) hb⟩
    rw [h.nonfinite b hb]
    decide

namespace Go2ControlNode

variable {dumpFloat : Binary32 → String} (hd : DumpsFloats dumpFloat)

include hd

lemma velocityObject_iff (twist : Twist PyFloat) :
    VelocityObject (moveParameter (.ieee dumpFloat) twist) ↔
      Binary32.InRange twist.linear.x ∧ Binary32.InRange twist.linear.y ∧
        Binary32.InRange twist.angular.z := by
  obtain ⟨tx, hx, hx'⟩ := hd.token (Binary32.narrow twist.linear.x)
  obtain ⟨ty, hy, hy'⟩ := hd.token (Binary32.narrow twist.linear.y)
  obtain ⟨tz, hz, hz'⟩ := hd.token (Binary32.narrow twist.angular.z)
  have kx : "x".toList.all Json.isPlain = true := by decide
  have ky : "y".toList.all Json.isPlain = true := by decide
  have kz : "z".toList.all Json.isPlain = true := by decide
  have hreads : List.Forall₂ (Json.Reads dumpFloat)
      [("x", .float (Binary32.narrow twist.linear.x)),
        ("y", .float (Binary32.narrow twist.linear.y)),
        ("z", .float (Binary32.narrow twist.angular.z))] [tx, ty, tz] :=
    .cons ⟨kx, hx⟩ (.cons ⟨ky, hy⟩ (.cons ⟨kz, hz⟩ .nil))
  have hread : Json.readObject (moveParameter (.ieee dumpFloat) twist) =
      some [("x", tx), ("y", ty), ("z", tz)] := by
    rw [moveParameter, SportClient.axes_eq]
    exact Json.readObject_dump hreads
  have lx : [("x", tx), ("y", ty), ("z", tz)].lookup "x" = some tx := rfl
  have ly : [("x", tx), ("y", ty), ("z", tz)].lookup "y" = some ty := rfl
  have lz : [("x", tx), ("y", ty), ("z", tz)].lookup "z" = some tz := rfl
  rw [← Binary32.isFinite_narrow_iff, ← Binary32.isFinite_narrow_iff,
    ← Binary32.isFinite_narrow_iff, ← hx', ← hy', ← hz', VelocityObject, hread]
  simp only [Option.some.injEq, exists_eq_left', List.forall_mem_cons, List.not_mem_nil,
    false_imp_iff, implies_true, and_true, lx, ly, lz]

theorem move_well_formed_iff (h : List (ℤ × Msg PyFloat)) (now : ℤ) (twist : Twist PyFloat) :
    (∀ req ∈ publishes (.ieee dumpFloat) h (now, .cmdVel twist), VelocityObject req.parameter) ↔
      Stopped h ∨ (Binary32.InRange twist.linear.x ∧ Binary32.InRange twist.linear.y ∧
        Binary32.InRange twist.angular.z) := by
  rw [publishes_cmdVel]
  by_cases hs : Stopped h
  · rw [if_pos hs]
    exact iff_of_true (fun req hm => (List.not_mem_nil hm).elim) (Or.inl hs)
  · rw [if_neg hs, List.forall_mem_singleton, or_iff_right hs, ← velocityObject_iff hd]
    rfl

omit hd

def rationalText (q : ℚ) : String := if q = 0 then "0.0" else if q = 1 / 2 then "0.5" else "1.0"

def floatText (b : Binary32) : String :=
  match Binary32.value b with
  | .finite q => rationalText q
  | .posInf | .negInf | .nan => "null"

lemma rationalText_number (q : ℚ) : Json.isNumber (rationalText q).toList = true := by
  rw [rationalText]
  split_ifs <;> decide

lemma floatText_dumps : DumpsFloats floatText := by
  refine ⟨?_, ?_⟩
  · rintro b ⟨q, hq⟩
    rw [floatText, hq]
    exact rationalText_number q
  · intro b hb
    rw [floatText]
    cases hv : Binary32.value b with
    | finite q => exact (hb ⟨q, hv⟩).elim
    | posInf | negInf | nan => rfl

theorem half_well_formed :
    (∀ req ∈ publishes (.ieee floatText) [] (0, .cmdVel ⟨⟨.finite (1 / 2), 0, 0⟩, 0⟩),
        VelocityObject req.parameter) ↔
      Stopped ([] : List (ℤ × Msg PyFloat)) ∨
        (Binary32.InRange (.finite (1 / 2)) ∧ Binary32.InRange 0 ∧ Binary32.InRange 0) :=
  move_well_formed_iff floatText_dumps [] 0 ⟨⟨.finite (1 / 2), 0, 0⟩, 0⟩

theorem large_not_well_formed :
    ¬ ∀ req ∈ publishes (.ieee floatText) [] (0, .cmdVel ⟨⟨.finite (10 ^ 39), 0, 0⟩, 0⟩),
      VelocityObject req.parameter := by
  rw [publishes_cmdVel, if_neg not_stopped_nil, List.forall_mem_singleton]
  intro hv
  obtain ⟨⟨q, hq, hlt⟩, -⟩ :=
    (velocityObject_iff floatText_dumps ⟨⟨.finite (10 ^ 39), 0, 0⟩, 0⟩).mp hv
  obtain rfl := PyFloat.finite.inj hq
  rw [abs_of_pos (by positivity)] at hlt
  exact absurd hlt (by norm_num)

end Go2ControlNode

end Taggy
