import Taggy.Control.ControlHistory

/-! What one request inherits from the commands before it: the shared request keeps the
parameter of the latest velocity. -/

namespace Taggy.Go2ControlNode

section Forwarded

variable {α : Type}

def forwarded (h : List (ℤ × Msg α)) : List (Twist α) :=
  Transducer.collect (fun pre i => if Stopped pre then [] else i.2.twist?.toList) h

@[simp] lemma forwarded_nil : forwarded ([] : List (ℤ × Msg α)) = [] := rfl

lemma forwarded_concat (h : List (ℤ × Msg α)) (i : ℤ × Msg α) :
    forwarded (h ++ [i]) = forwarded h ++ if Stopped h then [] else i.2.twist?.toList :=
  Transducer.collect_concat _ h i

def api? : Msg α → Option ℤ
  | .cmdVel _ => some SportAPI.move
  | .emergencyStop data => if data then some SportAPI.damp else none
  | .cmdPosture command => (postureAction command).map Prod.fst

lemma api?_eq_move {msg : Msg α} : api? msg = some SportAPI.move ↔ msg.twist?.isSome := by
  cases msg with
  | cmdVel twist => simp [api?, Msg.twist?]
  | emergencyStop data =>
    refine iff_of_false (fun he => ?_) Bool.false_ne_true
    cases data with
    | false => simp [api?] at he
    | true => exact absurd (Option.some_inj.mp he) (by decide)
  | cmdPosture command =>
    refine iff_of_false ?_ Bool.false_ne_true
    cases postureKind command with
    | release apiId _ hp ha | ungated apiId _ _ hp ha =>
      rw [api?, ha]
      rintro ⟨⟩
      exact move_not_posture hp
    | unknown _ _ ha => simp [api?, ha]

end Forwarded

def command (apiId now : ℤ) (parameter : String) : Request where
  header := { identity := { id := now, apiId := apiId } }
  parameter := parameter

variable {α β : Type} [Zero α] [Zero β] (fs : FloatSemantics α β)

def parameterAfter (h : List (ℤ × Msg α)) : String :=
  ((forwarded h).getLast?.map (moveParameter fs)).getD ""

lemma step_request (n : Go2ControlNode) (i : ℤ × Msg α) :
    (step fs n i).1.request.parameter =
        (if n.estopActive then n.request.parameter
          else (i.2.twist?.map (moveParameter fs)).getD n.request.parameter) ∧
      (step fs n i).1.request.binary = n.request.binary ∧
      (step fs n i).1.request.header.lease = n.request.header.lease ∧
      (step fs n i).1.request.header.policy = n.request.header.policy := by
  obtain ⟨now, msg⟩ := i
  cases msg with
  | cmdVel twist =>
    have hs : step fs n (now, .cmdVel twist) = _ := cmdVelCallback_eq fs now twist n
    rw [hs]
    cases n.estopActive <;> exact ⟨rfl, rfl, rfl, rfl⟩
  | emergencyStop data =>
    have hs : step fs n (now, .emergencyStop data) = _ := estopCallback_eq now data n
    rw [hs]
    cases n.estopActive <;> cases data <;> exact ⟨rfl, rfl, rfl, rfl⟩
  | cmdPosture command =>
    have hs : step fs n (now, .cmdPosture command) = _ := postureCallback_eq now command n
    rw [hs]
    cases n.estopActive <;> cases postureAction command <;> exact ⟨rfl, rfl, rfl, rfl⟩

lemma request_after (h : List (ℤ × Msg α)) :
    (after fs h).request.parameter = parameterAfter fs h ∧ (after fs h).request.binary = [] ∧
      (after fs h).request.header.lease = {} ∧ (after fs h).request.header.policy = {} := by
  induction h using List.reverseRecOn with
  | nil => exact ⟨rfl, rfl, rfl, rfl⟩
  | append_singleton h i ih =>
    obtain ⟨hp, hb, hl, hq⟩ := ih
    obtain ⟨hp', hb', hl', hq'⟩ := step_request fs (after fs h) i
    rw [after_concat]
    refine ⟨?_, hb'.trans hb, hl'.trans hl, hq'.trans hq⟩
    rw [hp', hp, estopActive_eq, parameterAfter, parameterAfter, forwarded_concat]
    by_cases hs : Stopped h
    · simp [hs]
    · cases i.2.twist? <;> simp [hs]

lemma stamp_after (h : List (ℤ × Msg α)) (apiId now : ℤ) (parameter : String) :
    stamp apiId now { (after fs h).request with parameter := parameter } =
      command apiId now parameter := by
  obtain ⟨-, hb, hl, hq⟩ := request_after fs h
  generalize (after fs h).request = req at hb hl hq
  obtain ⟨⟨identity, lease, policy⟩, old, binary⟩ := req
  obtain rfl : binary = [] := hb
  obtain rfl : lease = {} := hl
  obtain rfl : policy = {} := hq
  rfl

theorem published_command {h : List (ℤ × Msg α)} {now : ℤ} {msg : Msg α} {req : Request}
    (hm : req ∈ publishes fs h (now, msg)) :
    ∃ apiId, api? msg = some apiId ∧
      req = command apiId now
        ((msg.twist?.map (moveParameter fs)).getD (parameterAfter fs h)) := by
  have hstamp : ∀ apiId, stamp apiId now (after fs h).request =
      command apiId now (parameterAfter fs h) := by
    intro apiId
    rw [← (request_after fs h).1]
    exact stamp_after fs h apiId now _
  cases msg with
  | cmdVel twist =>
    rw [publishes_cmdVel] at hm
    split at hm
    · exact (List.not_mem_nil hm).elim
    · exact ⟨_, rfl, (List.mem_singleton.mp hm).trans (stamp_after fs h _ now _)⟩
  | emergencyStop data =>
    rw [publishes_emergencyStop] at hm
    split at hm
    · rename_i hd
      exact ⟨SportAPI.damp, if_pos hd.1, (List.mem_singleton.mp hm).trans (hstamp _)⟩
    · exact (List.not_mem_nil hm).elim
  | cmdPosture posture =>
    rw [publishes_cmdPosture] at hm
    cases ha : postureAction posture with
    | none =>
      rw [ha] at hm
      exact (List.not_mem_nil hm).elim
    | some action =>
      rw [ha] at hm
      exact ⟨action.1, by rw [api?, ha]; rfl, (List.mem_singleton.mp hm).trans (hstamp _)⟩

def isMove (req : Request) : Bool := req.apiId == SportAPI.move

theorem moves_published (h : List (ℤ × Msg α)) :
    ((published fs h).filter isMove).map Request.parameter =
      (forwarded h).map (moveParameter fs) := by
  induction h using List.reverseRecOn with
  | nil => rfl
  | append_singleton h i ih =>
    rw [published_concat, forwarded_concat, List.filter_append, List.map_append, List.map_append,
      ih]
    congr 1
    obtain ⟨now, msg⟩ := i
    cases hw : msg.twist? with
    | some twist =>
      cases msg with
      | cmdVel _ =>
        obtain rfl := Option.some_inj.mp hw
        rw [publishes_cmdVel]
        split <;> rfl
      | emergencyStop | cmdPosture => simp [Msg.twist?] at hw
    | none =>
      have hn : (publishes fs h (now, msg)).filter isMove = [] := by
        refine List.filter_eq_nil_iff.mpr fun req hm => ?_
        obtain ⟨apiId, ha, rfl⟩ := published_command fs hm
        intro hmove
        obtain rfl : apiId = SportAPI.move := beq_iff_eq.mp hmove
        rw [api?_eq_move, hw] at ha
        exact Bool.false_ne_true ha
      rw [hn]
      split <;> rfl

def SameCommand (r₁ r₂ : Request) : Prop :=
  { r₁ with header.identity.id := r₂.header.identity.id } = r₂

instance (r₁ r₂ : Request) : Decidable (SameCommand r₁ r₂) := inferInstanceAs (Decidable (_ = _))

lemma sameCommand_command {api₁ api₂ now₁ now₂ : ℤ} {p₁ p₂ : String} :
    SameCommand (command api₁ now₁ p₁) (command api₂ now₂ p₂) ↔ api₁ = api₂ ∧ p₁ = p₂ := by
  simp [SameCommand, command]

/-- No request but a velocity has the parameter of an earlier velocity. -/
def Clean (h : List (ℤ × Msg α)) (req : Request) : Prop :=
  req.apiId ≠ SportAPI.move → ∀ earlier ∈ published fs h,
    earlier.apiId = SportAPI.move → req.parameter ≠ earlier.parameter

/-- What the two histories publish for the message is the same command, and is clean. -/
def Independent (h₁ h₂ : List (ℤ × Msg α)) (now₁ now₂ : ℤ) (msg : Msg α) : Prop :=
  ∀ r₁ ∈ publishes fs h₁ (now₁, msg), ∀ r₂ ∈ publishes fs h₂ (now₂, msg),
    SameCommand r₁ r₂ ∧ Clean fs h₁ r₁ ∧ Clean fs h₂ r₂

variable {fs} {h h₁ h₂ : List (ℤ × Msg α)} {now now₁ now₂ : ℤ} {msg : Msg α} {req : Request}

lemma clean_of_twist (hm : req ∈ publishes fs h (now, msg)) (hw : msg.twist?.isSome) :
    Clean fs h req := by
  obtain ⟨apiId, ha, rfl⟩ := published_command fs hm
  rw [api?_eq_move.mpr hw, Option.some_inj] at ha
  exact fun hne => (hne ha.symm).elim

lemma clean_iff (hm : req ∈ publishes fs h (now, msg)) (hw : msg.twist? = none) :
    Clean fs h req ↔ forwarded h = [] := by
  obtain ⟨apiId, ha, rfl⟩ := published_command fs hm
  have hapi : (command apiId now ((msg.twist?.map (moveParameter fs)).getD
      (parameterAfter fs h))).apiId ≠ SportAPI.move := by
    rintro rfl
    rw [api?_eq_move, hw] at ha
    exact Bool.false_ne_true ha
  have hmem : ∀ p, p ∈ (forwarded h).map (moveParameter fs) ↔
      ∃ earlier ∈ published fs h, earlier.apiId = SportAPI.move ∧ earlier.parameter = p := by
    intro p
    rw [← moves_published]
    simp [isMove, and_assoc]
  constructor
  · intro hc
    by_contra hne
    obtain ⟨earlier, he, hmove, hp⟩ := (hmem (parameterAfter fs h)).mp (by
      rw [parameterAfter, List.getLast?_eq_some_getLast hne]
      exact List.mem_map_of_mem (List.getLast_mem hne))
    refine hc hapi earlier he hmove ?_
    rw [hw]
    exact hp.symm
  · intro hf _ earlier he hmove _
    have hp := (hmem earlier.parameter).mpr ⟨earlier, he, hmove, rfl⟩
    rw [hf] at hp
    exact List.not_mem_nil hp

theorem sameCommand_iff {r₁ r₂ : Request} (h₁' : r₁ ∈ publishes fs h₁ (now₁, msg))
    (h₂' : r₂ ∈ publishes fs h₂ (now₂, msg)) :
    SameCommand r₁ r₂ ↔ msg.twist?.isSome ∨ parameterAfter fs h₁ = parameterAfter fs h₂ := by
  obtain ⟨api₁, ha₁, rfl⟩ := published_command fs h₁'
  obtain ⟨api₂, ha₂, rfl⟩ := published_command fs h₂'
  rw [sameCommand_command, Option.some_inj.mp (ha₁.symm.trans ha₂)]
  cases msg.twist? <;> simp

variable (fs h₁ h₂ now₁ now₂ msg) in
theorem independent_iff (hp₁ : publishes fs h₁ (now₁, msg) ≠ [])
    (hp₂ : publishes fs h₂ (now₂, msg) ≠ []) :
    Independent fs h₁ h₂ now₁ now₂ msg ↔
      msg.twist?.isSome ∨ (forwarded h₁ = [] ∧ forwarded h₂ = []) := by
  obtain ⟨r₁, hr₁⟩ := List.exists_mem_of_ne_nil _ hp₁
  obtain ⟨r₂, hr₂⟩ := List.exists_mem_of_ne_nil _ hp₂
  by_cases hw : msg.twist?.isSome
  · refine iff_of_true (fun r₁ hr₁ r₂ hr₂ => ?_) (Or.inl hw)
    exact ⟨(sameCommand_iff hr₁ hr₂).mpr (Or.inl hw), clean_of_twist hr₁ hw, clean_of_twist hr₂ hw⟩
  have hn : msg.twist? = none := by simpa using hw
  constructor
  · intro hi
    obtain ⟨-, hc₁, hc₂⟩ := hi r₁ hr₁ r₂ hr₂
    exact Or.inr ⟨(clean_iff hr₁ hn).mp hc₁, (clean_iff hr₂ hn).mp hc₂⟩
  · rintro (hs | ⟨hf₁, hf₂⟩) r₁ hr₁ r₂ hr₂
    · exact (hw hs).elim
    · refine ⟨(sameCommand_iff hr₁ hr₂).mpr (Or.inr ?_), (clean_iff hr₁ hn).mpr hf₁,
        (clean_iff hr₂ hn).mpr hf₂⟩
      rw [parameterAfter, parameterAfter, hf₁, hf₂]

theorem stand_up_independent :
    Independent FloatSemantics.exact [] [(0, .emergencyStop true)] 1 2 (.cmdPosture "up") ↔
      (Msg.cmdPosture "up" : Msg ℚ).twist?.isSome ∨
        (forwarded ([] : List (ℤ × Msg ℚ)) = [] ∧
          forwarded [((0 : ℤ), (.emergencyStop true : Msg ℚ))] = []) :=
  independent_iff FloatSemantics.exact [] [(0, .emergencyStop true)] 1 2 (.cmdPosture "up")
    (by decide +kernel) (by decide +kernel)

theorem damp_carries_velocity :
    ¬ Independent FloatSemantics.exact [] [(0, .cmdVel ⟨⟨1 / 2, 0, 0⟩, 0⟩)] 1 1
      (.emergencyStop true) := by
  intro h
  obtain ⟨hs, -⟩ := h _ (List.mem_singleton_self _) _ (List.mem_singleton_self _)
  revert hs
  decide +kernel

end Taggy.Go2ControlNode
