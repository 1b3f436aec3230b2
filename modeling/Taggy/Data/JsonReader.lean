import Taggy.Data.JsonObject

/-! Reading flat JSON objects back from their text, with the number tokens as they stand. -/

namespace Taggy.Json

inductive NumberState where
  | start
  | minus
  | zero
  | integer
  | point
  | fraction
  | exponent
  | exponentSign
  | exponentDigits
  | failed
  deriving DecidableEq

namespace NumberState

def next (s : NumberState) (c : Char) : NumberState :=
  match s with
  | start =>
    if c = '-' then minus else if c = '0' then zero else if c.isDigit then integer else failed
  | minus => if c = '0' then zero else if c.isDigit then integer else failed
  | zero => if c = '.' then point else if c = 'e' ∨ c = 'E' then exponent else failed
  | integer =>
    if c.isDigit then integer else if c = '.' then point
    else if c = 'e' ∨ c = 'E' then exponent else failed
  | point => if c.isDigit then fraction else failed
  | fraction =>
    if c.isDigit then fraction else if c = 'e' ∨ c = 'E' then exponent else failed
  | exponent =>
    if c = '+' ∨ c = '-' then exponentSign else if c.isDigit then exponentDigits else failed
  | exponentSign => if c.isDigit then exponentDigits else failed
  | exponentDigits => if c.isDigit then exponentDigits else failed
  | failed => failed

def accepts : NumberState → Bool
  | zero | integer | fraction | exponentDigits => true
  | _ => false

lemma next_comma (s : NumberState) : s.next ',' = failed := by
  cases s <;> decide

lemma foldl_failed (cs : List Char) : cs.foldl next failed = failed := by
  induction cs with
  | nil => rfl
  | cons c cs ih => exact ih

lemma comma_not_mem {s : NumberState} {cs : List Char} (h : (cs.foldl next s).accepts = true) :
    ',' ∉ cs := by
  induction cs generalizing s with
  | nil => exact List.not_mem_nil
  | cons c cs ih =>
    rw [List.foldl_cons] at h
    rw [List.mem_cons, not_or]
    refine ⟨?_, ih h⟩
    rintro rfl
    rw [next_comma, foldl_failed] at h
    exact Bool.false_ne_true h

end NumberState

def isNumber (cs : List Char) : Bool := (cs.foldl NumberState.next .start).accepts

inductive Token where
  | null
  | boolean (value : Bool)
  | number (text : List Char)
  deriving DecidableEq

def Token.read? (cs : List Char) : Option Token :=
  if cs = ['n', 'u', 'l', 'l'] then some .null
  else if cs = ['t', 'r', 'u', 'e'] then some (.boolean true)
  else if cs = ['f', 'a', 'l', 's', 'e'] then some (.boolean false)
  else if isNumber cs then some (.number cs)
  else none

-- A comma would have to be told from the one between two members.
def isPlain (c : Char) : Bool := c ≠ '"' ∧ c ≠ '\\' ∧ c ≠ ',' ∧ ' ' ≤ c

def readMember : List Char → Option (String × Token)
  | '"' :: rest =>
    match rest.dropWhile isPlain with
    | '"' :: ':' :: value =>
      (Token.read? value).map fun token => (String.ofList (rest.takeWhile isPlain), token)
    | _ => none
  | _ => none

def readMembers : List (List Char) → Option (List (String × Token))
  | [] => some []
  | cs :: rest => do
    let m ← readMember cs
    let ms ← readMembers rest
    return m :: ms

def readObject (text : String) : Option (List (String × Token)) :=
  match text.toList with
  | '\x7b' :: rest =>
    if rest.getLast? = some '\x7d' then
      if rest.dropLast = [] then some [] else readMembers (rest.dropLast.splitOn ',')
    else none
  | _ => none

lemma Token.comma_not_mem {cs : List Char} {token : Token} (h : Token.read? cs = some token) :
    ',' ∉ cs := by
  rw [Token.read?] at h
  split at h
  · rename_i hc
    simp [hc]
  split at h
  · rename_i hc
    simp [hc]
  split at h
  · rename_i hc
    simp [hc]
  split at h
  · exact NumberState.comma_not_mem ‹_›
  · cases h

lemma Token.read?_number {cs : List Char} (h : isNumber cs = true) :
    Token.read? cs = some (.number cs) := by
  have hne : ∀ word, isNumber word = false → cs ≠ word := by
    rintro word hw rfl
    rw [h] at hw
    exact Bool.false_ne_true hw.symm
  rw [Token.read?, if_neg (hne _ (by decide)), if_neg (hne _ (by decide)),
    if_neg (hne _ (by decide)), if_pos h]

variable {β : Type} (dumpFloat : β → String)

def Reads (m : String × Scalar β) (token : Token) : Prop :=
  m.1.toList.all isPlain = true ∧ Token.read? (m.2.dump dumpFloat).toList = some token

variable {dumpFloat}

lemma dumpMember_toList (m : String × Scalar β) :
    (dumpMember dumpFloat m).toList =
      '"' :: (m.1.toList ++ '"' :: ':' :: (m.2.dump dumpFloat).toList) := by
  simp [dumpMember]

lemma Reads.comma_not_mem {m : String × Scalar β} {token : Token} (h : Reads dumpFloat m token) :
    ',' ∉ (dumpMember dumpFloat m).toList := by
  have hk : ',' ∉ m.1.toList := fun hm => by
    simpa [isPlain] using List.all_eq_true.mp h.1 ',' hm
  rw [dumpMember_toList]
  simp [hk, Token.comma_not_mem h.2]

lemma Reads.readMember {m : String × Scalar β} {token : Token} (h : Reads dumpFloat m token) :
    readMember (dumpMember dumpFloat m).toList = some (m.1, token) := by
  have hq : ¬ isPlain '"' = true := by decide
  have hp : ∀ c ∈ m.1.toList, isPlain c = true := List.all_eq_true.mp h.1
  rw [dumpMember_toList, Json.readMember, List.dropWhile_append_of_pos hp,
    List.dropWhile_cons_of_neg hq, List.takeWhile_append_of_pos hp,
    List.takeWhile_cons_of_neg hq]
  simp [h.2]

lemma readMembers_dump {o : Object β} {tokens : List Token}
    (h : List.Forall₂ (Reads dumpFloat) o tokens) :
    readMembers ((o.map (dumpMember dumpFloat)).map String.toList) =
      some ((o.map Prod.fst).zip tokens) := by
  induction h with
  | nil => rfl
  | cons hm _ ih =>
    simp only [List.map_cons, readMembers, hm.readMember, ih]
    rfl

lemma dump_comma_not_mem {o : Object β} {tokens : List Token}
    (h : List.Forall₂ (Reads dumpFloat) o tokens) :
    ∀ cs ∈ (o.map (dumpMember dumpFloat)).map String.toList, ',' ∉ cs := by
  induction h with
  | nil => simp
  | cons hm _ ih => exact List.forall_mem_cons.mpr ⟨hm.comma_not_mem, ih⟩

theorem readObject_dump {o : Object β} {tokens : List Token}
    (h : List.Forall₂ (Reads dumpFloat) o tokens) :
    readObject (o.dump dumpFloat) = some ((o.map Prod.fst).zip tokens) := by
  have htext : (o.dump dumpFloat).toList =
      '\x7b' :: ([','].intercalate ((o.map (dumpMember dumpFloat)).map String.toList) ++
        ['\x7d']) := by
    simp [Object.dump]
  rw [readObject, htext]
  by_cases ho : o = []
  · subst ho
    cases h
    rfl
  have hne : (o.map (dumpMember dumpFloat)).map String.toList ≠ [] := by simpa using ho
  have hsplit := List.splitOn_intercalate ',' (dump_comma_not_mem h) hne
  have hbody : [','].intercalate ((o.map (dumpMember dumpFloat)).map String.toList) ≠ [] := by
    intro hn
    rw [hn] at hsplit
    cases h with
    | nil => exact hne rfl
    | cons hm _ => simp [dumpMember_toList] at hsplit
  simp only [List.getLast?_concat, if_true, List.dropLast_concat, if_neg hbody, hsplit,
    readMembers_dump h]

end Taggy.Json
