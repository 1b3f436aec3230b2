import Taggy.Ptc.PtcClient

/-! What a query takes from the connection, however the bytes come in pieces. -/

namespace Taggy

section Receiving

lemma take_count_ne_nil {incoming : List UInt8} (more : ℕ) {asked : ℕ} (ha : 0 < asked)
    (hi : 0 < incoming.length) : incoming.take (Reception.count more asked) ≠ [] := by
  intro h
  rw [List.take_eq_nil_iff, Reception.count] at h
  rcases h with h | h
  · omega
  · rw [h] at hi
    cases hi

lemma take_append_drop_length (bs : List UInt8) (n : ℕ) :
    bs.take n ++ bs.drop (bs.take n).length = bs := by
  rw [List.length_take]
  rcases Nat.le_total n bs.length with hle | hge
  · rw [min_eq_left hle, List.take_append_drop]
  · rw [min_eq_right hge, List.take_of_length_le hge, List.drop_length, List.append_nil]

lemma receiveLoop_takes (incoming buf : List UInt8) (nLeft : ℕ) (rs : List Reception) :
    ∃ got, (receiveLoop incoming buf nLeft rs).buf = buf ++ got ∧
      incoming = got ++ (receiveLoop incoming buf nLeft rs).connection.incoming ∧
      got.length + (receiveLoop incoming buf nLeft rs).nLeft = nLeft := by
  induction rs generalizing incoming buf nLeft with
  | nil => cases nLeft <;> exact ⟨[], by simp [receiveLoop]⟩
  | cons r rs ih =>
    cases nLeft with
    | zero => exact ⟨[], by simp [receiveLoop]⟩
    | succ nLeft =>
      cases r with
      | timedOut => exact ⟨[], by simp [receiveLoop]⟩
      | closed => exact ⟨[], by simp [receiveLoop]⟩
      | bytes more =>
        rw [receiveLoop]
        have hsplit := take_append_drop_length incoming (Reception.count more (nLeft + 1))
        have hlen : (incoming.take (Reception.count more (nLeft + 1))).length ≤ nLeft + 1 := by
          rw [List.length_take, Reception.count]
          omega
        generalize incoming.take (Reception.count more (nLeft + 1)) = chunk at hsplit hlen
        split
        · exact ⟨[], by simp⟩
        · obtain ⟨got, hbuf, hincoming, hleft⟩ :=
            ih (incoming.drop chunk.length) (buf ++ chunk) (nLeft + 1 - chunk.length)
          refine ⟨chunk ++ got, ?_, ?_, ?_⟩
          · rw [hbuf, List.append_assoc]
          · rw [List.append_assoc, ← hincoming, hsplit]
          · rw [List.length_append]
            omega

def Delivers (rs : List Reception) : Prop := ∀ r ∈ rs, ∃ more, r = .bytes more

lemma receiveLoop_completes {incoming buf : List UInt8} {nLeft : ℕ} {rs : List Reception}
    (hrs : Delivers rs) (hi : nLeft ≤ incoming.length) (hn : nLeft ≤ rs.length) :
    (receiveLoop incoming buf nLeft rs).nLeft = 0 ∧
      (receiveLoop incoming buf nLeft rs).connection.opened = true ∧
      Delivers (receiveLoop incoming buf nLeft rs).connection.receptions ∧
      rs.length ≤ (receiveLoop incoming buf nLeft rs).connection.receptions.length + nLeft := by
  induction rs generalizing incoming buf nLeft with
  | nil =>
    obtain rfl : nLeft = 0 := Nat.le_zero.mp hn
    exact ⟨rfl, rfl, hrs, le_rfl⟩
  | cons r rs ih =>
    cases nLeft with
    | zero => exact ⟨rfl, rfl, hrs, le_rfl⟩
    | succ nLeft =>
      obtain ⟨more, rfl⟩ := hrs r List.mem_cons_self
      rw [List.length_cons] at hn
      have hne := take_count_ne_nil more (Nat.succ_pos nLeft) (by omega : 0 < incoming.length)
      have hlen : (incoming.take (Reception.count more (nLeft + 1))).length =
          min (more + 1) (nLeft + 1) := by
        rw [List.length_take, Reception.count]
        omega
      rw [receiveLoop]
      generalize incoming.take (Reception.count more (nLeft + 1)) = chunk at hne hlen
      rw [if_neg hne]
      have hdrop : nLeft + 1 - chunk.length ≤ (incoming.drop chunk.length).length := by
        rw [List.length_drop]
        omega
      obtain ⟨hdone, hopened, hrest, hleft⟩ := @ih (incoming.drop chunk.length) (buf ++ chunk)
        (nLeft + 1 - chunk.length) (fun r hr => hrs r (List.mem_cons_of_mem _ hr)) hdrop (by omega)
      refine ⟨hdone, hopened, hrest, ?_⟩
      rw [List.length_cons]
      omega

lemma receiveLoop_exact {wanted : List UInt8} {rs : List Reception} (rest buf : List UInt8)
    (hrs : Delivers rs) (hn : wanted.length ≤ rs.length) :
    ∃ receptions,
      receiveLoop (wanted ++ rest) buf wanted.length rs =
        ⟨⟨rest, receptions, true⟩, buf ++ wanted, 0⟩ ∧
      Delivers receptions ∧ rs.length ≤ receptions.length + wanted.length := by
  have hi : wanted.length ≤ (wanted ++ rest).length := by
    rw [List.length_append]
    omega
  obtain ⟨hdone, hopened, hdelivers, hcount⟩ := @receiveLoop_completes _ buf _ _ hrs hi hn
  obtain ⟨got, hbuf, hincoming, hleft⟩ := receiveLoop_takes (wanted ++ rest) buf wanted.length rs
  refine ⟨_, ?_, hdelivers, hcount⟩
  generalize receiveLoop (wanted ++ rest) buf wanted.length rs = out at *
  obtain ⟨⟨incoming, receptions, opened⟩, collected, nLeft⟩ := out
  dsimp only at *
  obtain ⟨rfl, rfl⟩ := List.append_inj hincoming (by omega)
  rw [hbuf, hdone, hopened]

lemma opened_of_received {incoming buf : List UInt8} {nLeft : ℕ} {rs : List Reception}
    (h : (receiveLoop incoming buf nLeft rs).nLeft = 0) :
    (receiveLoop incoming buf nLeft rs).connection.opened = true := by
  induction rs generalizing incoming buf nLeft with
  | nil => cases nLeft <;> rfl
  | cons r rs ih =>
    cases nLeft with
    | zero => rfl
    | succ nLeft =>
      cases r with
      | timedOut => rfl
      | closed => cases h
      | bytes more =>
        rw [receiveLoop] at h ⊢
        split
        · rfl
        · rename_i hne
          rw [if_neg hne] at h
          exact ih h

end Receiving

namespace PtcVersion

variable (v : PtcVersion)

def NoIdentifier (bs : List UInt8) : Prop := v.findIdentifier bs = none

variable {v}

lemma identifier_ne : v.identifier0 ≠ v.identifier1 := by
  cases v <;> decide

lemma findIdentifier_eq_some {bs : List UInt8} {i : ℕ} (h : v.findIdentifier bs = some i) :
    ∃ post, bs.drop i = v.identifier0 :: v.identifier1 :: post := by
  induction bs generalizing i with
  | nil => cases h
  | cons a bs ih =>
    cases bs with
    | nil => cases h
    | cons b bs =>
      rw [findIdentifier] at h
      split at h
      · rename_i hab
        obtain rfl := Option.some.inj h
        exact ⟨bs, by rw [List.drop_zero, hab.1, hab.2]⟩
      · rw [Option.map_eq_some_iff] at h
        obtain ⟨j, hj, rfl⟩ := h
        obtain ⟨post, hpost⟩ := ih hj
        exact ⟨post, by rw [List.drop_succ_cons, hpost]⟩

lemma findIdentifier_append {noise : List UInt8} (post : List UInt8) (h : v.NoIdentifier noise) :
    v.findIdentifier (noise ++ v.identifier0 :: v.identifier1 :: post) = some noise.length := by
  induction noise with
  | nil => rw [List.nil_append, findIdentifier, if_pos ⟨rfl, rfl⟩, List.length_nil]
  | cons a noise ih =>
    cases noise with
    | nil =>
      have hne : ¬ (a = v.identifier0 ∧ v.identifier0 = v.identifier1) :=
        fun hab => identifier_ne hab.2
      rw [List.singleton_append, findIdentifier, if_neg hne, findIdentifier, if_pos ⟨rfl, rfl⟩]
      rfl
    | cons b noise =>
      rw [NoIdentifier, findIdentifier] at h
      split at h
      · cases h
      · rename_i hab
        rw [Option.map_eq_none_iff] at h
        rw [List.cons_append, List.cons_append, findIdentifier, if_neg hab, ← List.cons_append,
          ih h]
        rfl

lemma NoIdentifier.of_append {bs cs : List UInt8} (h : v.NoIdentifier (bs ++ cs)) :
    v.NoIdentifier bs ∧ v.NoIdentifier cs := by
  induction bs with
  | nil => exact ⟨rfl, h⟩
  | cons a bs ih =>
    cases bs with
    | nil =>
      refine ⟨rfl, ?_⟩
      cases cs with
      | nil => rfl
      | cons c cs =>
        rw [NoIdentifier, List.singleton_append, findIdentifier] at h
        split at h
        · cases h
        · exact Option.map_eq_none_iff.mp h
    | cons b bs =>
      rw [NoIdentifier, List.cons_append, List.cons_append, findIdentifier] at h
      split at h
      · cases h
      · rename_i hab
        obtain ⟨hbs, hcs⟩ := ih (Option.map_eq_none_iff.mp h)
        refine ⟨?_, hcs⟩
        rw [NoIdentifier, findIdentifier, if_neg hab, hbs, Option.map_none]

lemma NoIdentifier.concat {bs : List UInt8} (h : v.NoIdentifier bs) :
    v.NoIdentifier (bs ++ [v.identifier0]) := by
  induction bs with
  | nil => rfl
  | cons a bs ih =>
    cases bs with
    | nil =>
      have hne : ¬ (a = v.identifier0 ∧ v.identifier0 = v.identifier1) :=
        fun hab => identifier_ne hab.2
      rw [NoIdentifier, List.singleton_append, findIdentifier, if_neg hne]
      rfl
    | cons b bs =>
      rw [NoIdentifier, findIdentifier] at h
      split at h
      · cases h
      · rename_i hab
        rw [NoIdentifier, List.cons_append, List.cons_append, findIdentifier, if_neg hab,
          ← List.cons_append, ih (Option.map_eq_none_iff.mp h), Option.map_none]

/-- Whether a receive of the search ends after this many bytes. -/
def Splits (v : PtcVersion) : List Reception → ℕ → Bool
  | .bytes more :: rs, k =>
    let n := Reception.count more v.headerSize
    k == n || (decide (n < k) && Splits v rs (k - n))
  | _, _ => false

lemma headerLoop_takes (incoming : List UInt8) (rs : List Reception) :
    ∃ noise, incoming = noise ++ (v.headerLoop incoming rs).buf ++
        (v.headerLoop incoming rs).connection.incoming ∧
      ((v.headerLoop incoming rs).nLeft = 0 →
        (v.headerLoop incoming rs).buf.length = v.headerSize ∧
          ∃ post, (v.headerLoop incoming rs).buf = v.identifier0 :: v.identifier1 :: post) := by
  have hsize : v.headerSize ≠ 0 := by cases v <;> decide
  induction rs generalizing incoming with
  | nil => exact ⟨[], rfl, fun h => (hsize h).elim⟩
  | cons r rs ih =>
    cases r with
    | timedOut => exact ⟨[], rfl, fun h => (hsize h).elim⟩
    | closed => exact ⟨[], rfl, fun h => (hsize h).elim⟩
    | bytes more =>
      rw [headerLoop]
      have hsplit := take_append_drop_length incoming (Reception.count more v.headerSize)
      have hlen : (incoming.take (Reception.count more v.headerSize)).length ≤ v.headerSize := by
        rw [List.length_take, Reception.count]
        omega
      generalize incoming.take (Reception.count more v.headerSize) = chunk at hsplit hlen
      split
      · exact ⟨[], rfl, fun h => (hsize h).elim⟩
      · cases hfind : v.findIdentifier chunk with
        | none =>
          obtain ⟨noise, hincoming, hbuf⟩ := ih (incoming.drop chunk.length)
          refine ⟨chunk ++ noise, ?_, hbuf⟩
          rw [List.append_assoc, List.append_assoc, ← List.append_assoc noise, ← hincoming, hsplit]
        | some i =>
          obtain ⟨post, hpost⟩ := findIdentifier_eq_some hfind
          obtain ⟨got, hbuf, hincoming, hleft⟩ := receiveLoop_takes (incoming.drop chunk.length)
            (chunk.drop i) (v.headerSize - (chunk.length - i)) rs
          refine ⟨chunk.take i, ?_, fun h => ⟨?_, post ++ got, ?_⟩⟩
          · dsimp only
            rw [hbuf, List.append_assoc, List.append_assoc, ← hincoming, ← List.append_assoc,
              List.take_append_drop, hsplit]
          · dsimp only at h ⊢
            rw [hbuf, List.length_append, List.length_drop]
            omega
          · dsimp only
            rw [hbuf, hpost]
            rfl

lemma NoIdentifier.take {bs : List UInt8} (h : v.NoIdentifier bs) (n : ℕ) :
    v.NoIdentifier (bs.take n) := by
  rw [← List.take_append_drop n bs] at h
  exact h.of_append.1

lemma NoIdentifier.drop {bs : List UInt8} (h : v.NoIdentifier bs) (n : ℕ) :
    v.NoIdentifier (bs.drop n) := by
  rw [← List.take_append_drop n bs] at h
  exact h.of_append.2

lemma headerLoop_finds {noise post rest : List UInt8} {rs : List Reception}
    (hnoise : v.NoIdentifier noise)
    (hsize : (v.identifier0 :: v.identifier1 :: post).length = v.headerSize)
    (hrs : Delivers rs) (hn : noise.length + v.headerSize ≤ rs.length)
    (hsplits : v.Splits rs (noise.length + 1) = false) :
    ∃ receptions,
      v.headerLoop (noise ++ (v.identifier0 :: v.identifier1 :: post) ++ rest) rs =
        ⟨⟨rest, receptions, true⟩, v.identifier0 :: v.identifier1 :: post, 0⟩ ∧
      Delivers receptions ∧
      rs.length ≤ receptions.length + noise.length + v.headerSize := by
  induction rs generalizing noise with
  | nil =>
    rw [← hsize] at hn
    simp at hn
  | cons r rs ih =>
    obtain ⟨more, rfl⟩ := hrs r List.mem_cons_self
    have hrest : Delivers rs := fun r hr => hrs r (List.mem_cons_of_mem _ hr)
    rw [List.length_cons] at hn
    rw [Splits, Bool.or_eq_false_iff] at hsplits
    obtain ⟨hat, hafter⟩ := hsplits
    have hpos : 0 < Reception.count more v.headerSize := by
      rw [Reception.count, ← hsize, List.length_cons]
      omega
    have hle : Reception.count more v.headerSize ≤ v.headerSize := Nat.min_le_right _ _
    rw [headerLoop]
    generalize Reception.count more v.headerSize = n at hat hafter hpos hle
    rw [List.append_assoc]
    have htotal : v.headerSize ≤
        (noise ++ ((v.identifier0 :: v.identifier1 :: post) ++ rest)).length := by
      rw [List.length_append, List.length_append, hsize]
      omega
    rcases Nat.lt_trichotomy n (noise.length + 1) with hlt | heq | hgt
    · have hchunk : (noise ++ ((v.identifier0 :: v.identifier1 :: post) ++ rest)).take n =
          noise.take n := List.take_append_of_le_length (by omega)
      have hlen : (noise.take n).length = n := List.length_take_of_le (by omega)
      have hne : noise.take n ≠ [] := by
        intro h
        rw [h] at hlen
        exact hpos.ne hlen
      have hdrop : (noise ++ ((v.identifier0 :: v.identifier1 :: post) ++ rest)).drop n =
          noise.drop n ++ (v.identifier0 :: v.identifier1 :: post) ++ rest := by
        rw [List.drop_append_of_le_length (by omega), List.append_assoc]
      have hk : (noise.drop n).length + 1 = noise.length + 1 - n := by
        rw [List.length_drop]
        omega
      rw [decide_eq_true (by omega : n < noise.length + 1), Bool.true_and, ← hk] at hafter
      obtain ⟨receptions, hrun, hdelivers, hcount⟩ :=
        ih (hnoise.drop n) hrest (by rw [List.length_drop]; omega) hafter
      refine ⟨receptions, ?_, hdelivers, ?_⟩
      · rw [hchunk, if_neg hne, hnoise.take n, hlen, hdrop]
        exact hrun
      · rw [List.length_drop] at hcount
        rw [List.length_cons]
        omega
    · rw [heq] at hat
      simp at hat
    · rw [List.length_cons, List.length_cons] at hsize
      obtain ⟨m, rfl⟩ : ∃ m, n = noise.length + (m + 2) := ⟨n - noise.length - 2, by omega⟩
      have hchunk : (noise ++ ((v.identifier0 :: v.identifier1 :: post) ++ rest)).take
          (noise.length + (m + 2)) = noise ++ v.identifier0 :: v.identifier1 :: post.take m := by
        rw [List.take_length_add_append, List.cons_append, List.cons_append, List.take_succ_cons,
          List.take_succ_cons, List.take_append_of_le_length (by omega)]
      have hlen : (noise ++ v.identifier0 :: v.identifier1 :: post.take m).length =
          noise.length + (m + 2) := by
        rw [List.length_append, List.length_cons, List.length_cons,
          List.length_take_of_le (by omega)]
      have hdrop : (noise ++ ((v.identifier0 :: v.identifier1 :: post) ++ rest)).drop
          (noise.length + (m + 2)) = post.drop m ++ rest := by
        rw [List.drop_length_add_append, List.cons_append, List.cons_append, List.drop_succ_cons,
          List.drop_succ_cons, List.drop_append_of_le_length (by omega)]
      have hleft :
          v.headerSize - (noise.length + (m + 2) - noise.length) = (post.drop m).length := by
        rw [List.length_drop]
        omega
      obtain ⟨receptions, hrun, hdelivers, hcount⟩ := receiveLoop_exact rest
        (v.identifier0 :: v.identifier1 :: post.take m) hrest
        (by rw [List.length_drop]; omega : (post.drop m).length ≤ rs.length)
      refine ⟨receptions, ?_, hdelivers, ?_⟩
      · rw [hchunk, if_neg (by simp), findIdentifier_append _ hnoise, hlen, hdrop]
        dsimp only
        rw [List.drop_left, hleft, hrun, List.cons_append, List.cons_append, List.take_append_drop]
      · rw [List.length_drop] at hcount
        rw [List.length_cons]
        omega

lemma headerLoop_of_noIdentifier {incoming : List UInt8} (h : v.NoIdentifier incoming)
    (rs : List Reception) : (v.headerLoop incoming rs).nLeft = v.headerSize := by
  induction rs generalizing incoming with
  | nil => rfl
  | cons r rs ih =>
    cases r with
    | timedOut => rfl
    | closed => rfl
    | bytes more =>
      rw [headerLoop]
      split
      · rfl
      · rw [h.take _]
        exact ih (h.drop _)

lemma headerLoop_misses {noise tail : List UInt8} {rs : List Reception}
    (hnoise : v.NoIdentifier noise) (htail : v.NoIdentifier tail)
    (hsplits : v.Splits rs (noise.length + 1) = true) :
    (v.headerLoop (noise ++ v.identifier0 :: tail) rs).nLeft = v.headerSize := by
  induction rs generalizing noise with
  | nil => rfl
  | cons r rs ih =>
    cases r with
    | timedOut => rfl
    | closed => rfl
    | bytes more =>
      rw [Splits, Bool.or_eq_true] at hsplits
      rw [headerLoop]
      generalize Reception.count more v.headerSize = n at hsplits
      split
      · rfl
      · rcases hsplits with hat | hafter
        · have hn : n = noise.length + 1 := (beq_iff_eq.mp hat).symm
          have hchunk : (noise ++ v.identifier0 :: tail).take n = noise ++ [v.identifier0] := by
            rw [hn, List.take_length_add_append, List.take_succ_cons, List.take_zero]
          have hlen : (noise ++ [v.identifier0]).length = noise.length + 1 := by simp
          rw [hchunk, hnoise.concat, hlen, List.drop_length_add_append, List.drop_succ_cons,
            List.drop_zero]
          exact headerLoop_of_noIdentifier htail rs
        · rw [Bool.and_eq_true, decide_eq_true_iff] at hafter
          obtain ⟨hlt, hafter⟩ := hafter
          have hchunk : (noise ++ v.identifier0 :: tail).take n = noise.take n :=
            List.take_append_of_le_length (by omega)
          have hlen : (noise.take n).length = n := List.length_take_of_le (by omega)
          have hk : (noise.drop n).length + 1 = noise.length + 1 - n := by
            rw [List.length_drop]
            omega
          rw [← hk] at hafter
          rw [hchunk, hnoise.take n, hlen, List.drop_append_of_le_length (by omega)]
          exact ih (hnoise.drop n) hafter

lemma opened_of_found {incoming : List UInt8} {rs : List Reception}
    (h : (v.headerLoop incoming rs).nLeft = 0) :
    (v.headerLoop incoming rs).connection.opened = true := by
  induction rs generalizing incoming with
  | nil => rfl
  | cons r rs ih =>
    cases r with
    | timedOut => rfl
    | closed => cases v <;> cases h
    | bytes more =>
      rw [headerLoop] at h ⊢
      split
      · rfl
      · rename_i hne
        rw [if_neg hne] at h
        split
        · rename_i hfind
          rw [hfind] at h
          exact ih h
        · rename_i i hfind
          rw [hfind] at h
          exact opened_of_received h

lemma header_bytes (h : PtcHeader v) : v.header h.bytes = h := by
  apply PtcHeader.ext
  change (h.bytes ++ List.replicate v.headerSize 0).take v.headerSize = h.bytes
  rw [← h.length_bytes, List.take_left]

end PtcVersion

namespace PtcHeader

variable {v : PtcVersion} {cmd returnCode : UInt8} {payloadLen : ℕ}

lemma make_bytes (v : PtcVersion) (cmd returnCode : UInt8) (payloadLen : ℕ) :
    ∃ post, (make v cmd returnCode payloadLen).bytes = v.identifier0 :: v.identifier1 :: post := by
  cases v <;> exact ⟨_, rfl⟩

lemma make_isValidReturnCode :
    (make v cmd returnCode payloadLen).isValidReturnCode = (returnCode == 0) := by
  cases v <;> exact Bool.true_and _

lemma make_returnCode : (make v cmd returnCode payloadLen).returnCode = returnCode := by
  cases v <;> rfl

lemma make_cmd : (make v cmd returnCode payloadLen).cmd = cmd := by
  cases v <;> rfl

lemma make_payloadLen (h : payloadLen < 2 ^ 32) :
    (make v cmd returnCode payloadLen).payloadLen = payloadLen := by
  have hbytes : (make v cmd returnCode payloadLen).bytes.drop (v.headerSize - 4) =
      Struct.bigEndian 4 payloadLen := by
    cases v <;> rfl
  rw [PtcHeader.payloadLen, hbytes, Struct.ofBigEndian_bigEndian (by omega)]

end PtcHeader

structure Reply where
  cmd : UInt8
  returnCode : UInt8
  payload : List UInt8

namespace Reply

variable (r : Reply) (v : PtcVersion)

def header : PtcHeader v := PtcHeader.make v r.cmd r.returnCode r.payload.length

def bytes : List UInt8 := (r.header v).bytes ++ r.payload

end Reply

namespace PtcClient

lemma payloadLen_eq {v : PtcVersion} {h : PtcHeader v} (hlt : h.payloadLen < 2 ^ 31) :
    payloadLen h = h.payloadLen := by
  rw [payloadLen, BitVec.toInt_eq_toNat_of_lt, BitVec.toNat_ofNat, Nat.mod_eq_of_lt (by omega)]
  rw [BitVec.toNat_ofNat, Nat.mod_eq_of_lt (by omega)]
  omega

/-- The network carries the command whole, and all of a reply in any pieces. -/
structure Brings (v : PtcVersion) (payload stale : List UInt8) (r : Reply) (later : List UInt8)
    (e : Exchange) : Prop where
  sending : e.sending = .whole
  command : payload.length + v.headerSize < 65536
  arrived : e.arrived = r.bytes v ++ later
  reply : r.payload.length < 2 ^ 31
  silent : v.NoIdentifier stale
  delivers : Delivers e.receptions
  enough : stale.length + (r.bytes v).length ≤ e.receptions.length

/-- No piece ends between the two bytes of the identifier. -/
structure Carries (v : PtcVersion) (payload stale : List UInt8) (r : Reply) (later : List UInt8)
    (e : Exchange) : Prop extends Brings v payload stale r later e where
  splits : v.Splits e.receptions (stale.length + 1) = false

lemma length_encode (v : PtcVersion) (payload : List UInt8) (cmd : UInt8) :
    (ptcStreamEncode v payload cmd).length = v.headerSize + payload.length := by
  rw [ptcStreamEncode, List.length_append, PtcHeader.length_bytes]

lemma queryCommand_carried {c : PtcClient} {payload later : List UInt8} {r : Reply} {e : Exchange}
    (hopened : c.opened = true)
    (h : Carries c.version payload (c.incoming.drop e.flushed) r later e) (out : List UInt8)
    (isHaveHeader : Bool) :
    c.queryCommand payload out r.cmd isHaveHeader e =
      if r.returnCode = 0 then
        ({ c with incoming := later },
          ⟨0, if r.payload = [] then if isHaveHeader then (r.header c.version).bytes else out
            else (if isHaveHeader then (r.header c.version).bytes else []) ++ r.payload,
            ptcStreamEncode c.version payload r.cmd⟩)
      else
        ({ c with incoming := r.payload ++ later, retCode := r.returnCode.toNat },
          ⟨-1, if isHaveHeader then (r.header c.version).bytes else out,
            ptcStreamEncode c.version payload r.cmd⟩) := by
  obtain ⟨post, hpost⟩ := PtcHeader.make_bytes c.version r.cmd r.returnCode r.payload.length
  have hheader : (r.header c.version).bytes =
      c.version.identifier0 :: c.version.identifier1 :: post := hpost
  have hsize := (r.header c.version).length_bytes
  have hlength := length_encode c.version payload r.cmd
  have hcommand := h.command
  have henough := h.enough
  rw [Reply.bytes, List.length_append, hsize] at henough
  rw [hheader] at hsize
  have hmod : (ptcStreamEncode c.version payload r.cmd).length % 65536 =
      (ptcStreamEncode c.version payload r.cmd).length := Nat.mod_eq_of_lt (by omega)
  obtain ⟨receptions, hfinds, hdelivers, hcount⟩ := @PtcVersion.headerLoop_finds c.version
    (c.incoming.drop e.flushed) post (r.payload ++ later) e.receptions h.silent hsize h.delivers
    (by omega) h.splits
  have hstream : c.incoming.drop e.flushed ++ e.arrived = c.incoming.drop e.flushed ++
      (c.version.identifier0 :: c.version.identifier1 :: post) ++ (r.payload ++ later) := by
    rw [h.arrived, Reply.bytes, hheader, List.append_assoc, List.append_assoc]
  have hloop : c.version.header (c.version.identifier0 :: c.version.identifier1 :: post) =
      r.header c.version := by
    rw [← hheader, PtcVersion.header_bytes]
  have hvalid : (r.header c.version).isValidReturnCode = (r.returnCode == 0) :=
    PtcHeader.make_isValidReturnCode
  have hcmd : (r.header c.version).cmd = r.cmd := PtcHeader.make_cmd
  rw [queryCommand, if_neg (by rw [hopened]; decide)]
  dsimp only
  rw [hmod, List.take_length, if_neg (by simp [h.sending]), hstream, hfinds]
  dsimp only
  rw [if_neg (by decide), hloop, hvalid, hcmd]
  split
  · rename_i hrefused
    have hne : r.returnCode ≠ 0 := by simpa using hrefused
    have hcode : (r.header c.version).returnCode = r.returnCode := PtcHeader.make_returnCode
    rw [if_neg hne, hcode, hopened]
  · rename_i haccepted
    have heq : r.returnCode = 0 := by simpa using haccepted
    have hreply := h.reply
    have hlen : (r.header c.version).payloadLen = r.payload.length :=
      PtcHeader.make_payloadLen (by omega)
    have hpayload : payloadLen (r.header c.version) = r.payload.length := by
      rw [payloadLen_eq (by omega), hlen]
    rw [if_pos heq, receivePayload]
    dsimp only
    rw [hpayload]
    split
    · rename_i hpos
      obtain ⟨left, hbody, -, -⟩ := receiveLoop_exact later [] hdelivers
        (by omega : r.payload.length ≤ receptions.length)
      have hne : r.payload ≠ [] := by
        intro hnil
        rw [hnil] at hpos
        exact absurd hpos (by decide)
      rw [Int.toNat_natCast, hbody]
      dsimp only
      rw [if_neg (by decide), if_neg hne, List.nil_append, hopened]
    · rename_i hzero
      have hnil : r.payload = [] := by
        apply List.eq_nil_of_length_eq_zero
        omega
      rw [if_pos hnil, hnil, hopened, List.nil_append]

lemma queryCommand_version (c : PtcClient) (payload out : List UInt8) (cmd : UInt8)
    (isHaveHeader : Bool) (e : Exchange) :
    (c.queryCommand payload out cmd isHaveHeader e).1.version = c.version := by
  simp only [queryCommand, receivePayload]
  split_ifs <;> rfl

lemma queryCommand_opened {c : PtcClient} {payload out : List UInt8} {cmd : UInt8}
    {isHaveHeader : Bool} {e : Exchange} (hopened : c.opened = true)
    (h : (c.queryCommand payload out cmd isHaveHeader e).2.ret = 0) :
    (c.queryCommand payload out cmd isHaveHeader e).1.opened = true := by
  rw [queryCommand, if_neg (by rw [hopened]; decide)] at h ⊢
  dsimp only at h ⊢
  split
  · rename_i hsent
    rw [if_pos hsent] at h
    simp at h
  · rename_i hsent
    rw [if_neg hsent] at h
    split
    · rename_i hleft
      rw [if_pos hleft] at h
      simp at h
    · rename_i hleft
      rw [if_neg hleft] at h
      split
      · rename_i hinvalid
        rw [if_pos hinvalid] at h
        simp at h
      · rename_i hvalid
        rw [if_neg hvalid] at h
        rw [receivePayload] at h ⊢
        dsimp only at h ⊢
        split
        · rename_i hpos
          rw [if_pos hpos] at h
          split
          · rename_i hmissing
            rw [if_pos hmissing] at h
            simp at h
          · rename_i hcomplete
            exact opened_of_received (Nat.eq_zero_of_not_pos hcomplete)
        · exact PtcVersion.opened_of_found (Nat.eq_zero_of_not_pos hleft)

lemma queryCommand_sent {c : PtcClient} {payload : List UInt8} (out : List UInt8) (cmd : UInt8)
    (isHaveHeader : Bool) (e : Exchange) (hopened : c.opened = true)
    (hlen : payload.length + c.version.headerSize < 65536) :
    (c.queryCommand payload out cmd isHaveHeader e).2.sent =
      ptcStreamEncode c.version payload cmd := by
  have hencode := length_encode c.version payload cmd
  have hmod : (ptcStreamEncode c.version payload cmd).length % 65536 =
      (ptcStreamEncode c.version payload cmd).length := Nat.mod_eq_of_lt (by omega)
  have hsent : (ptcStreamEncode c.version payload cmd).take
      ((ptcStreamEncode c.version payload cmd).length % 65536) =
      ptcStreamEncode c.version payload cmd := by
    rw [hmod, List.take_length]
  simp only [queryCommand, receivePayload, hsent, hopened, Bool.true_eq_false, if_false]
  split_ifs <;> rfl

end PtcClient

end Taggy
