import Mathlib.Logic.Function.Basic
import Mathlib.Tactic
import Taggy.History.Simulation

/-! The ring buffer of the driver, and the bounded deque it stands for. -/

namespace Taggy

inductive DequeOp (α : Type) where
  | pushBack (item : α)
  | pushFront (item : α)
  | popBack
  | popFront
  | effPopBack
  | effPopFront
  | peekBack
  | peekFront
  | get (index : ℕ)
  | clear
  | effClear
  | size
  | empty
  | full

inductive DequeAnswer (α : Type) where
  | done
  | item (value : α)
  | number (value : ℕ)
  | flag (value : Bool)
  deriving DecidableEq

structure Ring (α : Type) (n : ℕ) where
  ring : Fin n → α
  begin : ℕ
  size : ℕ
  begin_lt : begin < n
  size_le : size ≤ n

namespace Ring

variable {α : Type} {n : ℕ}

lemma pos (r : Ring α n) : 0 < n := r.begin_lt.pos

def slot (r : Ring α n) (i : ℕ) : Fin n := ⟨i % n, Nat.mod_lt _ r.pos⟩

section Operations

variable [Inhabited α]

def init (h : 0 < n) : Ring α n := ⟨fun _ => default, 0, 0, h, Nat.zero_le n⟩

def empty (r : Ring α n) : Bool := r.size == 0

def full (r : Ring α n) : Bool := decide (n ≤ r.size)

def clear (r : Ring α n) : Ring α n := ⟨fun _ => default, 0, 0, r.pos, Nat.zero_le n⟩

def effClear (r : Ring α n) : Ring α n := ⟨r.ring, 0, 0, r.pos, Nat.zero_le n⟩

-- The hypothesis of an operation is what the source asserts before it, or, for the `eff` pops,
-- what keeps the size from wrapping around.
def pushBack (r : Ring α n) (item : α) (h : r.size < n) : Ring α n where
  ring := Function.update r.ring (r.slot (r.begin + r.size)) item
  begin := r.begin
  size := r.size + 1
  begin_lt := r.begin_lt
  size_le := h

def peekBack (r : Ring α n) (_ : 0 < r.size) : α := r.ring (r.slot (r.begin + r.size - 1))

def popBack (r : Ring α n) (_ : 0 < r.size) : Ring α n × α :=
  let i := r.slot (r.begin + (r.size - 1))
  ({ ring := Function.update r.ring i default
     begin := r.begin
     size := r.size - 1
     begin_lt := r.begin_lt
     size_le := (Nat.sub_le _ _).trans r.size_le }, r.ring i)

def effPopBack (r : Ring α n) (_ : 0 < r.size) : Ring α n where
  ring := r.ring
  begin := r.begin
  size := r.size - 1
  begin_lt := r.begin_lt
  size_le := (Nat.sub_le _ _).trans r.size_le

def pushFront (r : Ring α n) (item : α) (h : r.size < n) : Ring α n where
  ring := Function.update r.ring (r.slot (r.begin + n - 1)) item
  begin := (r.begin + n - 1) % n
  size := r.size + 1
  begin_lt := Nat.mod_lt _ r.pos
  size_le := h

def peekFront (r : Ring α n) (_ : 0 < r.size) : α := r.ring ⟨r.begin, r.begin_lt⟩

def popFront (r : Ring α n) (_ : 0 < r.size) : Ring α n × α :=
  ({ ring := Function.update r.ring ⟨r.begin, r.begin_lt⟩ default
     begin := (r.begin + 1) % n
     size := r.size - 1
     begin_lt := Nat.mod_lt _ r.pos
     size_le := (Nat.sub_le _ _).trans r.size_le }, r.ring ⟨r.begin, r.begin_lt⟩)

def effPopFront (r : Ring α n) (_ : 0 < r.size) : Ring α n where
  ring := r.ring
  begin := (r.begin + 1) % n
  size := r.size - 1
  begin_lt := Nat.mod_lt _ r.pos
  size_le := (Nat.sub_le _ _).trans r.size_le

def get (r : Ring α n) (index : ℕ) (_ : index < r.size) : α := r.ring (r.slot (r.begin + index))

-- A step that fails is an assertion that fails, or a size that would wrap around.
def step (r : Ring α n) : DequeOp α → Option (Ring α n × DequeAnswer α)
  | .pushBack item => if h : r.size < n then some (r.pushBack item h, .done) else none
  | .pushFront item => if h : r.size < n then some (r.pushFront item h, .done) else none
  | .popBack => if h : 0 < r.size then some ((r.popBack h).1, .item (r.popBack h).2) else none
  | .popFront => if h : 0 < r.size then some ((r.popFront h).1, .item (r.popFront h).2) else none
  | .effPopBack => if h : 0 < r.size then some (r.effPopBack h, .done) else none
  | .effPopFront => if h : 0 < r.size then some (r.effPopFront h, .done) else none
  | .peekBack => if h : 0 < r.size then some (r, .item (r.peekBack h)) else none
  | .peekFront => if h : 0 < r.size then some (r, .item (r.peekFront h)) else none
  | .get index => if h : index < r.size then some (r, .item (r.get index h)) else none
  | .clear => some (r.clear, .done)
  | .effClear => some (r.effClear, .done)
  | .size => some (r, .number r.size)
  | .empty => some (r, .flag r.empty)
  | .full => some (r, .flag r.full)

end Operations

section Contents

def contents (r : Ring α n) : List α :=
  List.ofFn fun i : Fin r.size => r.ring (r.slot (r.begin + i))

@[simp] lemma contents_length (r : Ring α n) : r.contents.length = r.size := List.length_ofFn

lemma contents_get (r : Ring α n) {i : ℕ} (h : i < r.contents.length) :
    r.contents[i] = r.ring (r.slot (r.begin + i)) := List.getElem_ofFn h

lemma slot_eq_iff (r : Ring α n) {i j : ℕ} : r.slot i = r.slot j ↔ i % n = j % n := Fin.ext_iff

lemma slot_begin (r : Ring α n) : r.slot r.begin = ⟨r.begin, r.begin_lt⟩ :=
  Fin.ext (Nat.mod_eq_of_lt r.begin_lt)

lemma slot_ne (r : Ring α n) {i j : ℕ} (hij : i ≠ j) (hi : i < n) (hj : j < n) :
    r.slot (r.begin + i) ≠ r.slot (r.begin + j) := by
  rw [Ne, slot_eq_iff]
  intro he
  have hm : i % n = j % n := Nat.ModEq.add_left_cancel' r.begin he
  rw [Nat.mod_eq_of_lt hi, Nat.mod_eq_of_lt hj] at hm
  exact hij hm

variable (r : Ring α n)

lemma contents_pushBack (item : α) (h : r.size < n) :
    (r.pushBack item h).contents = r.contents ++ [item] := by
  apply List.ext_getElem
  · simp [pushBack]
  · intro i hi hi'
    rw [contents_get, List.getElem_append]
    change Function.update r.ring (r.slot (r.begin + r.size)) item (r.slot (r.begin + i)) = _
    have hle : i < r.size + 1 := by simpa using hi'
    split
    · rename_i hlt
      rw [contents_length] at hlt
      rw [Function.update_of_ne (r.slot_ne hlt.ne (hlt.trans h) h), contents_get]
    · rename_i hge
      rw [contents_length, not_lt] at hge
      obtain rfl : i = r.size := by omega
      rw [Function.update_self, List.getElem_singleton]

lemma contents_pushFront (item : α) (h : r.size < n) :
    (r.pushFront item h).contents = item :: r.contents := by
  have hslot : ∀ i, ((r.begin + n - 1) % n + (i + 1)) % n = (r.begin + i) % n := by
    intro i
    have hpos := r.pos
    rw [Nat.mod_add_mod, ← Nat.add_mod_right (r.begin + i) n]
    congr 1
    omega
  have hself : r.slot ((r.begin + n - 1) % n + 0) = r.slot (r.begin + n - 1) :=
    r.slot_eq_iff.mpr (Nat.mod_mod _ _)
  apply List.ext_getElem
  · simp [pushFront]
  · intro i hi hi'
    rw [contents_get]
    change Function.update r.ring (r.slot (r.begin + n - 1)) item
      (r.slot ((r.begin + n - 1) % n + i)) = _
    cases i with
    | zero => rw [hself, Function.update_self, List.getElem_cons_zero]
    | succ i =>
      have hlt : i < r.size := by simpa using hi'
      have hne := (r.pushFront item h).slot_ne (Nat.succ_ne_zero i) (by omega) r.pos
      have hmoved : r.slot ((r.begin + n - 1) % n + (i + 1)) ≠ r.slot (r.begin + n - 1) := by
        rw [← hself]
        exact hne
      rw [Function.update_of_ne hmoved, List.getElem_cons_succ, contents_get]
      exact congrArg r.ring (r.slot_eq_iff.mpr (hslot i))

variable [Inhabited α]

lemma contents_popBack (h : 0 < r.size) :
    r.contents = (r.popBack h).1.contents ++ [(r.popBack h).2] := by
  apply List.ext_getElem
  · simp [popBack, Nat.sub_add_cancel h]
  · intro i hi hi'
    have hlt : i < r.size := by simpa using hi
    rw [contents_get, List.getElem_append]
    split
    · rename_i hrest
      have hlast : i < r.size - 1 := by simpa [popBack] using hrest
      rw [contents_get]
      have hsize := r.size_le
      have hne := r.slot_ne hlast.ne (by omega : i < n) (by omega : r.size - 1 < n)
      exact (Function.update_of_ne hne _ _).symm
    · rename_i hrest
      have hlast : ¬ i < r.size - 1 := by simpa [popBack] using hrest
      obtain rfl : i = r.size - 1 := by omega
      rw [List.getElem_singleton]
      rfl

lemma contents_popFront (h : 0 < r.size) :
    r.contents = (r.popFront h).2 :: (r.popFront h).1.contents := by
  apply List.ext_getElem
  · simp [popFront, Nat.sub_add_cancel h]
  · intro i hi hi'
    have hlt : i < r.size := by simpa using hi
    rw [contents_get]
    cases i with
    | zero =>
      rw [List.getElem_cons_zero, Nat.add_zero, slot_begin]
      rfl
    | succ i =>
      rw [List.getElem_cons_succ, contents_get]
      change _ = Function.update r.ring ⟨r.begin, r.begin_lt⟩ default
        (r.slot ((r.begin + 1) % n + i))
      have hslot : r.slot ((r.begin + 1) % n + i) = r.slot (r.begin + (i + 1)) := by
        rw [slot_eq_iff, Nat.mod_add_mod, Nat.add_assoc, Nat.add_comm 1 i]
      have hsize := r.size_le
      have hne := r.slot_ne (Nat.succ_ne_zero i) (by omega) r.pos
      rw [Nat.add_zero, slot_begin] at hne
      rw [hslot, Function.update_of_ne hne]

lemma contents_effPopBack (h : 0 < r.size) :
    (r.effPopBack h).contents = (r.popBack h).1.contents := by
  apply List.ext_getElem
  · simp [effPopBack, popBack]
  · intro i hi hi'
    have hlast : i < r.size - 1 := by simpa [effPopBack] using hi
    rw [contents_get, contents_get]
    have hsize := r.size_le
    have hne := r.slot_ne hlast.ne (by omega : i < n) (by omega : r.size - 1 < n)
    exact (Function.update_of_ne hne _ _).symm

lemma contents_effPopFront (h : 0 < r.size) :
    (r.effPopFront h).contents = (r.popFront h).1.contents := by
  apply List.ext_getElem
  · simp [effPopFront, popFront]
  · intro i hi hi'
    have hlt : i < r.size - 1 := by simpa [effPopFront] using hi
    rw [contents_get, contents_get]
    change r.ring (r.slot ((r.begin + 1) % n + i)) =
      Function.update r.ring ⟨r.begin, r.begin_lt⟩ default (r.slot ((r.begin + 1) % n + i))
    have hslot : r.slot ((r.begin + 1) % n + i) = r.slot (r.begin + (i + 1)) := by
      rw [slot_eq_iff, Nat.mod_add_mod, Nat.add_assoc, Nat.add_comm 1 i]
    have hsize := r.size_le
    have hne := r.slot_ne (Nat.succ_ne_zero i) (by omega) r.pos
    rw [Nat.add_zero, slot_begin] at hne
    rw [hslot, Function.update_of_ne hne]

end Contents

end Ring

namespace Deque

variable {α : Type}

def step (capacity : ℕ) (xs : List α) : DequeOp α → Option (List α × DequeAnswer α)
  | .pushBack item => if xs.length < capacity then some (xs ++ [item], .done) else none
  | .pushFront item => if xs.length < capacity then some (item :: xs, .done) else none
  | .popBack => xs.getLast?.map fun x => (xs.dropLast, .item x)
  | .popFront => xs.head?.map fun x => (xs.tail, .item x)
  | .effPopBack => xs.getLast?.map fun _ => (xs.dropLast, .done)
  | .effPopFront => xs.head?.map fun _ => (xs.tail, .done)
  | .peekBack => xs.getLast?.map fun x => (xs, .item x)
  | .peekFront => xs.head?.map fun x => (xs, .item x)
  | .get index => xs[index]?.map fun x => (xs, .item x)
  | .clear => some ([], .done)
  | .effClear => some ([], .done)
  | .size => some (xs, .number xs.length)
  | .empty => some (xs, .flag xs.isEmpty)
  | .full => some (xs, .flag (decide (capacity ≤ xs.length)))

end Deque

namespace Ring

open Machine

variable {α : Type} {n : ℕ}

lemma contents_eq_nil {r : Ring α n} (h : ¬ 0 < r.size) : r.contents = [] := by
  rw [← List.length_eq_zero_iff, contents_length]
  omega

variable [Inhabited α]

lemma step_simulates : Simulates (step (α := α) (n := n)) (Deque.step n) contents := by
  intro r op
  have hback : ∀ h : 0 < r.size, r.contents.getLast? = some (r.popBack h).2 ∧
      r.contents.dropLast = (r.popBack h).1.contents := by
    intro h
    rw [r.contents_popBack h]
    exact ⟨List.getLast?_concat, List.dropLast_concat⟩
  have hfront : ∀ h : 0 < r.size, r.contents.head? = some (r.popFront h).2 ∧
      r.contents.tail = (r.popFront h).1.contents := by
    intro h
    rw [r.contents_popFront h]
    exact ⟨rfl, rfl⟩
  cases op with
  | pushBack item =>
    rw [step, Deque.step, contents_length]
    split
    · rename_i h
      rw [← r.contents_pushBack item h]
      rfl
    · rfl
  | pushFront item =>
    rw [step, Deque.step, contents_length]
    split
    · rename_i h
      rw [← r.contents_pushFront item h]
      rfl
    · rfl
  | popBack =>
    rw [step, Deque.step]
    split
    · rename_i h
      rw [(hback h).1, (hback h).2]
      rfl
    · rename_i h
      rw [contents_eq_nil h]
      rfl
  | popFront =>
    rw [step, Deque.step]
    split
    · rename_i h
      rw [(hfront h).1, (hfront h).2]
      rfl
    · rename_i h
      rw [contents_eq_nil h]
      rfl
  | effPopBack =>
    rw [step, Deque.step]
    split
    · rename_i h
      rw [(hback h).1, (hback h).2, ← r.contents_effPopBack h]
      rfl
    · rename_i h
      rw [contents_eq_nil h]
      rfl
  | effPopFront =>
    rw [step, Deque.step]
    split
    · rename_i h
      rw [(hfront h).1, (hfront h).2, ← r.contents_effPopFront h]
      rfl
    · rename_i h
      rw [contents_eq_nil h]
      rfl
  | peekBack =>
    rw [step, Deque.step]
    split
    · rename_i h
      rw [(hback h).1, peekBack, Nat.add_sub_assoc h]
      rfl
    · rename_i h
      rw [contents_eq_nil h]
      rfl
  | peekFront =>
    rw [step, Deque.step]
    split
    · rename_i h
      rw [(hfront h).1]
      rfl
    · rename_i h
      rw [contents_eq_nil h]
      rfl
  | get index =>
    rw [step, Deque.step]
    split
    · rename_i h
      rw [← r.contents_length] at h
      rw [List.getElem?_eq_getElem h, contents_get]
      rfl
    · rename_i h
      rw [List.getElem?_eq_none (by rw [contents_length]; omega)]
      rfl
  | clear | effClear => rfl
  | size => rw [step, Deque.step, contents_length]; rfl
  | empty =>
    have he : r.empty = r.contents.isEmpty := by
      rw [empty, ← r.contents_length]
      cases r.contents <;> rfl
    rw [step, he]
    rfl
  | full => rw [step, Deque.step, contents_length]; rfl

/-- The ring answers every sequence of operations as a deque of its capacity does, and fails an
assertion exactly if the deque has no room or no item. -/
theorem refines_deque (h : 0 < n) (ops : List (DequeOp α)) :
    (run step (init h : Ring α n) ops).map (Prod.map contents id) = run (Deque.step n) [] ops :=
  step_simulates.run (init h) ops

theorem refines_deque_of_two :
    (run step (init (by decide) : Ring ℕ 2)
        [.pushBack 5, .pushBack 6, .popFront, .pushBack 7, .get 1, .full]).map
        (Prod.map contents id) =
      run (Deque.step 2) [] [.pushBack 5, .pushBack 6, .popFront, .pushBack 7, .get 1, .full] :=
  refines_deque (by decide) _

end Ring

end Taggy
