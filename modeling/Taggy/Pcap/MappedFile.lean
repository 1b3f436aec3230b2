import Taggy.History.Simulation

/-! A file that is read through one mapped part of it at a time, and the file it stands for. -/

namespace Taggy

def chunkSize : ℕ := 64 * 1024 * 1024

lemma chunkSize_pos : 0 < chunkSize := by norm_num [chunkSize]

variable {file : List UInt8}

structure Mapping (file : List UInt8) where
  offset : ℕ
  aligned : chunkSize ∣ offset
  offset_lt : offset < file.length

namespace Mapping

def size (m : Mapping file) : ℕ := min chunkSize (file.length - m.offset)

def stop (m : Mapping file) : ℕ := m.offset + m.size

def holds (m : Mapping file) (pos : ℕ) : Bool := decide (m.offset ≤ pos ∧ pos < m.stop)

-- What is not mapped cannot be read.
def peek (m : Mapping file) (pos n : ℕ) : Option (List UInt8) :=
  if m.offset ≤ pos ∧ pos + n ≤ m.stop then
    some ((((file.drop m.offset).take m.size).drop (pos - m.offset)).take n)
  else none

lemma peek_eq {m : Mapping file} {pos n : ℕ} (hpos : m.offset ≤ pos) (hn : pos + n ≤ m.stop) :
    m.peek pos n = some ((file.drop pos).take n) := by
  rw [stop] at hn
  have hmin : min n (m.size - (pos - m.offset)) = n := by omega
  have hsum : m.offset + (pos - m.offset) = pos := by omega
  rw [peek, if_pos ⟨hpos, by rw [stop]; omega⟩, List.drop_take, List.drop_drop, hsum,
    List.take_take, hmin]

end Mapping

section Windows

def mapChunk (cur : Option (Mapping file)) (offset : ℕ) : Option (Mapping file) :=
  if h : offset < file.length then
    some ⟨offset / chunkSize * chunkSize, Nat.dvd_mul_left _ _,
      (Nat.div_mul_le_self _ _).trans_lt h⟩
  else cur

def checkAndMapChunk (cur : Option (Mapping file)) (pos : ℕ) : Option (Mapping file) :=
  match cur with
  | some m => if m.holds pos then some m else mapChunk cur pos
  | none => mapChunk cur pos

def ensureMapped (cur : Option (Mapping file)) (fpos : ℕ) : Option (Mapping file) :=
  match cur with
  | some m => if m.holds fpos then some m else mapChunk cur (fpos / chunkSize * chunkSize)
  | none => mapChunk cur (fpos / chunkSize * chunkSize)

-- A value that lies across the end of the mapped part.
def readAcrossOneChunks (cur : Option (Mapping file)) (length pos : ℕ) :
    Option (Option (Mapping file) × List UInt8) :=
  if chunkSize < length then none
  else do
    let m ← checkAndMapChunk cur pos
    if m.holds pos then
      let remainingInCurrent := m.stop - pos
      if length ≤ remainingInCurrent then
        let bytes ← m.peek pos length
        return (some m, bytes)
      else
        let first ← m.peek pos remainingInCurrent
        let nextChunk := pos / chunkSize + 1
        if file.length ≤ nextChunk * chunkSize then none
        else
          let next ← mapChunk (some m) (nextChunk * chunkSize)
          if next.holds (nextChunk * chunkSize) ∧ length - remainingInCurrent ≤ next.size then
            let second ← next.peek next.offset (length - remainingInCurrent)
            return (some next, first ++ second)
          else none
    else none

def copyLoop (cur : Option (Mapping file)) (pos remaining : ℕ) :
    Option (Option (Mapping file) × List UInt8) :=
  if remaining = 0 then some (cur, [])
  else
    match checkAndMapChunk cur pos with
    | none => none
    | some m =>
      let toRead := min remaining (m.size - (pos - m.offset))
      if 0 < toRead then do
        let bytes ← m.peek pos toRead
        let (last, rest) ← copyLoop (some m) (pos + toRead) (remaining - toRead)
        return (last, bytes ++ rest)
      else none
termination_by remaining

lemma Mapping.stop_eq {m : Mapping file} {pos : ℕ} (h : m.holds pos = true) :
    m.stop = min ((pos / chunkSize + 1) * chunkSize) file.length := by
  obtain ⟨q, hq⟩ := m.aligned
  have hlt := m.offset_lt
  rw [Mapping.holds, decide_eq_true_iff, Mapping.stop, Mapping.size] at h
  rw [Mapping.stop, Mapping.size]
  have hdiv : pos / chunkSize = q := by
    apply Nat.div_eq_of_lt_le
    · rw [Nat.mul_comm, ← hq]
      exact h.1
    · rw [Nat.succ_mul, Nat.mul_comm q, ← hq]
      omega
  rw [hdiv, Nat.add_mul, Nat.one_mul, Nat.mul_comm q, ← hq]
  omega

lemma mapChunk_eq (cur : Option (Mapping file)) {offset : ℕ} (h : offset < file.length) :
    ∃ m, mapChunk cur offset = some m ∧ m.offset = offset / chunkSize * chunkSize ∧
      m.holds offset = true := by
  refine ⟨_, dif_pos h, rfl, ?_⟩
  have hle := Nat.div_mul_le_self offset chunkSize
  have hlt := Nat.lt_div_mul_add (a := offset) chunkSize_pos
  rw [Mapping.holds, decide_eq_true_iff, Mapping.stop, Mapping.size]
  dsimp only
  omega

lemma checkAndMapChunk_eq (cur : Option (Mapping file)) {pos : ℕ} (h : pos < file.length) :
    ∃ m, checkAndMapChunk cur pos = some m ∧ m.holds pos = true := by
  obtain ⟨m, hm, -, hholds⟩ := mapChunk_eq cur h
  cases cur with
  | none => exact ⟨m, hm, hholds⟩
  | some old =>
    rw [checkAndMapChunk]
    split
    · rename_i hold
      exact ⟨old, rfl, hold⟩
    · exact ⟨m, hm, hholds⟩

lemma checkAndMapChunk_of_holds {m : Mapping file} {pos : ℕ} (h : m.holds pos = true) :
    checkAndMapChunk (some m) pos = some m := if_pos h

lemma take_append_drop_take (bs : List UInt8) (pos k n : ℕ) (h : k ≤ n) :
    (bs.drop pos).take k ++ (bs.drop (pos + k)).take (n - k) = (bs.drop pos).take n := by
  have hn : n = k + (n - k) := by omega
  rw [← List.drop_drop]
  conv_rhs => rw [hn, List.take_add]

lemma readAcrossOneChunks_eq {m : Mapping file} {size pos : ℕ} (hsize : size ≤ 24)
    (hholds : m.holds pos = true) (hstop : m.stop < pos + size) (hend : pos + size ≤ file.length) :
    ∃ next, readAcrossOneChunks (some m) size pos = some (next, (file.drop pos).take size) := by
  have hstop' := Mapping.stop_eq hholds
  have hchunk : 24 ≤ chunkSize := by norm_num [chunkSize]
  have hpos : m.offset ≤ pos ∧ pos < m.stop := by simpa [Mapping.holds] using hholds
  have hnext : (pos / chunkSize + 1) * chunkSize = m.stop := by omega
  have hlt : m.stop < file.length := by omega
  obtain ⟨next, hmap, hoffset, hnextHolds⟩ := mapChunk_eq (some m) hlt
  have hdiv : m.stop / chunkSize * chunkSize = m.stop := by
    rw [← hnext, Nat.mul_div_cancel _ chunkSize_pos]
  rw [hdiv] at hoffset
  have hnextSize : next.size = min chunkSize (file.length - m.stop) := by
    rw [Mapping.size, hoffset]
  have hfirst := Mapping.peek_eq (n := m.stop - pos) hpos.1 (by omega)
  have hsecond : next.peek next.offset (size - (m.stop - pos)) =
      some ((file.drop m.stop).take (size - (m.stop - pos))) := by
    have hnextStop : next.stop = next.offset + next.size := rfl
    rw [Mapping.peek_eq le_rfl (by omega), hoffset]
  have hjoin := take_append_drop_take file pos (m.stop - pos) size (by omega)
  rw [Nat.add_sub_cancel' hpos.2.le] at hjoin
  refine ⟨some next, ?_⟩
  simp only [readAcrossOneChunks, checkAndMapChunk_of_holds hholds, Option.bind_eq_bind,
    Option.bind_some, hholds, if_true, hfirst, hnext, hmap, hsecond]
  rw [if_neg (by omega), if_neg (by omega), if_neg (by omega), if_pos ⟨hnextHolds, by omega⟩, hjoin]
  rfl

lemma copyLoop_eq (cur : Option (Mapping file)) {pos remaining : ℕ}
    (h : pos + remaining ≤ file.length) :
    ∃ last, copyLoop cur pos remaining = some (last, (file.drop pos).take remaining) := by
  induction remaining using Nat.strongRecOn generalizing cur pos with
  | ind remaining ih =>
    rw [copyLoop]
    split
    · rename_i hzero
      exact ⟨cur, by rw [hzero, List.take_zero]⟩
    · rename_i hne
      obtain ⟨m, hm, hholds⟩ := checkAndMapChunk_eq cur (by omega : pos < file.length)
      have hpos : m.offset ≤ pos ∧ pos < m.stop := by simpa [Mapping.holds] using hholds
      have hstop : m.stop = m.offset + m.size := rfl
      rw [hm]
      dsimp only
      generalize hread : min remaining (m.size - (pos - m.offset)) = toRead
      rw [if_pos (by omega)]
      obtain ⟨last, hrest⟩ := ih (remaining - toRead) (by omega) (some m)
        (by omega : pos + toRead + (remaining - toRead) ≤ file.length)
      refine ⟨last, ?_⟩
      have hjoin := take_append_drop_take file pos toRead remaining (by omega)
      simp only [Mapping.peek_eq hpos.1 (by omega : pos + toRead ≤ m.stop), hrest,
        Option.bind_eq_bind, Option.bind_some, hjoin]
      rfl

end Windows

/-- An opened file, how much of it is mapped, and how far it is read. -/
structure MappedFile (file : List UInt8) where
  mapping : Option (Mapping file)
  fpos : ℕ
  fpos_le : fpos ≤ file.length

inductive FileOp where
  | eof
  | fpos
  | seek (fpos : ℕ)
  | read (size : ℕ) (h : 0 < size ∧ size ≤ 24)
  | readInto (length : ℕ)
  | move (length : ℕ)

inductive FileAnswer where
  | done
  | flag (value : Bool)
  | number (value : ℕ)
  | bytes (value : Option (List UInt8))
  deriving DecidableEq

namespace MappedFile

def openFile (file : List UInt8) : MappedFile file where
  mapping := mapChunk none 0
  fpos := 0
  fpos_le := Nat.zero_le _

def eof (s : MappedFile file) : Bool := decide (file.length ≤ s.fpos)

def seek (s : MappedFile file) (fpos : ℕ) : MappedFile file :=
  if h : fpos ≤ file.length then ⟨ensureMapped s.mapping fpos, fpos, h⟩ else s

-- A step that fails is a read outside of what is mapped, or one that never ends.
def read (s : MappedFile file) (size : ℕ) : Option (MappedFile file × Option (List UInt8)) :=
  if h : s.fpos + size ≤ file.length then
    match checkAndMapChunk s.mapping s.fpos with
    | none => none
    | some m =>
      if m.stop < s.fpos + size then
        (readAcrossOneChunks (some m) size s.fpos).map fun r =>
          (⟨r.1, s.fpos + size, h⟩, some r.2)
      else
        (m.peek s.fpos size).map fun bytes => (⟨some m, s.fpos + size, h⟩, some bytes)
  else some (s, none)

def readInto (s : MappedFile file) (length : ℕ) :
    Option (MappedFile file × Option (List UInt8)) :=
  if length = 0 then some (s, some [])
  else if h : s.fpos + length ≤ file.length then
    (copyLoop s.mapping s.fpos length).map fun r => (⟨r.1, s.fpos + length, h⟩, some r.2)
  else some (s, none)

def move (s : MappedFile file) (length : ℕ) : MappedFile file × Bool :=
  if h : s.fpos + length ≤ file.length then
    (⟨checkAndMapChunk s.mapping (s.fpos + length), s.fpos + length, h⟩, true)
  else (s, false)

def step (s : MappedFile file) : FileOp → Option (MappedFile file × FileAnswer)
  | .eof => some (s, .flag s.eof)
  | .fpos => some (s, .number s.fpos)
  | .seek fpos => some (s.seek fpos, .done)
  | .read size _ => (s.read size).map (Prod.map id .bytes)
  | .readInto length => (s.readInto length).map (Prod.map id .bytes)
  | .move length => some ((s.move length).1, .flag (s.move length).2)

end MappedFile

structure PlainFile (file : List UInt8) where
  fpos : ℕ
  fpos_le : fpos ≤ file.length

namespace PlainFile

def take (s : PlainFile file) (n : ℕ) : PlainFile file × Option (List UInt8) :=
  if h : s.fpos + n ≤ file.length then (⟨s.fpos + n, h⟩, some ((file.drop s.fpos).take n))
  else (s, none)

lemma take_of_le {s : PlainFile file} {n : ℕ} (h : s.fpos + n ≤ file.length) :
    s.take n = (⟨s.fpos + n, h⟩, some ((file.drop s.fpos).take n)) := dif_pos h

lemma take_of_not_le {s : PlainFile file} {n : ℕ} (h : ¬ s.fpos + n ≤ file.length) :
    s.take n = (s, none) := dif_neg h

def step (s : PlainFile file) : FileOp → Option (PlainFile file × FileAnswer)
  | .eof => some (s, .flag (decide (file.length ≤ s.fpos)))
  | .fpos => some (s, .number s.fpos)
  | .seek fpos => some (if h : fpos ≤ file.length then ⟨fpos, h⟩ else s, .done)
  | .read size _ => some (Prod.map id .bytes (s.take size))
  | .readInto length => some (Prod.map id .bytes (s.take length))
  | .move length => some (Prod.map id (fun r => .flag r.isSome) (s.take length))

end PlainFile

namespace MappedFile

open Machine

def view (s : MappedFile file) : PlainFile file := ⟨s.fpos, s.fpos_le⟩

lemma read_view (s : MappedFile file) {size : ℕ} (h : 0 < size ∧ size ≤ 24) :
    (s.read size).map (Prod.map view id) = some (s.view.take size) := by
  rw [read]
  by_cases hend : s.fpos + size ≤ file.length
  · obtain ⟨m, hm, hholds⟩ := checkAndMapChunk_eq s.mapping (by omega : s.fpos < file.length)
    have hpos : m.offset ≤ s.fpos ∧ s.fpos < m.stop := by simpa [Mapping.holds] using hholds
    rw [dif_pos hend, @PlainFile.take_of_le _ s.view _ hend, hm]
    dsimp only
    split
    · rename_i hstop
      obtain ⟨next, hnext⟩ := readAcrossOneChunks_eq h.2 hholds hstop hend
      rw [hnext]
      rfl
    · rename_i hstop
      rw [Mapping.peek_eq hpos.1 (by omega)]
      rfl
  · rw [dif_neg hend, @PlainFile.take_of_not_le _ s.view _ hend]
    rfl

lemma readInto_view (s : MappedFile file) (length : ℕ) :
    (s.readInto length).map (Prod.map view id) = some (s.view.take length) := by
  rw [readInto]
  by_cases hzero : length = 0
  · subst hzero
    rw [if_pos rfl, @PlainFile.take_of_le _ s.view 0 s.fpos_le]
    rfl
  · rw [if_neg hzero]
    by_cases hend : s.fpos + length ≤ file.length
    · obtain ⟨last, hlast⟩ := copyLoop_eq s.mapping hend
      rw [dif_pos hend, @PlainFile.take_of_le _ s.view _ hend, hlast]
      rfl
    · rw [dif_neg hend, @PlainFile.take_of_not_le _ s.view _ hend]
      rfl

lemma move_view (s : MappedFile file) (length : ℕ) :
    Prod.map view id (s.move length) = Prod.map id (fun r => r.isSome) (s.view.take length) := by
  rw [move]
  by_cases hend : s.fpos + length ≤ file.length
  · rw [dif_pos hend, @PlainFile.take_of_le _ s.view _ hend]
    rfl
  · rw [dif_neg hend, @PlainFile.take_of_not_le _ s.view _ hend]
    rfl

lemma read_eq (s : MappedFile file) {size : ℕ} (h : 0 < size ∧ size ≤ 24) :
    ∃ q, s.read size = some (q, (s.view.take size).2) ∧ q.view = (s.view.take size).1 := by
  obtain ⟨⟨q, r⟩, hread, hview⟩ := Option.map_eq_some_iff.mp (read_view s h)
  rw [← hview]
  exact ⟨q, hread, rfl⟩

lemma readInto_eq (s : MappedFile file) (length : ℕ) :
    ∃ q, s.readInto length = some (q, (s.view.take length).2) ∧
      q.view = (s.view.take length).1 := by
  obtain ⟨⟨q, r⟩, hread, hview⟩ := Option.map_eq_some_iff.mp (readInto_view s length)
  rw [← hview]
  exact ⟨q, hread, rfl⟩

lemma seek_view (s : MappedFile file) (fpos : ℕ) :
    (s.seek fpos).view = if h : fpos ≤ file.length then ⟨fpos, h⟩ else s.view := by
  rw [seek]
  split <;> rfl

lemma step_simulates : Simulates (@step file) PlainFile.step view := by
  intro s op
  cases op with
  | eof => rfl
  | fpos => rfl
  | seek fpos =>
    rw [step, PlainFile.step, ← seek_view]
    rfl
  | read size h =>
    rw [step, PlainFile.step, Option.map_map]
    have hview := congrArg (Option.map (Prod.map id FileAnswer.bytes)) (read_view s h)
    rw [Option.map_map] at hview
    exact hview
  | readInto length =>
    rw [step, PlainFile.step, Option.map_map]
    have hview := congrArg (Option.map (Prod.map id FileAnswer.bytes)) (readInto_view s length)
    rw [Option.map_map] at hview
    exact hview
  | move length =>
    exact congrArg (fun r => some (Prod.map id FileAnswer.flag r)) (move_view s length)

end MappedFile

end Taggy
