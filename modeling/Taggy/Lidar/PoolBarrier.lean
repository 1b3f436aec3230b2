import Taggy.Lidar.PoolTurns

/-! The loop waits until the points of all packets of a frame are computed, and no longer. -/

namespace Taggy.ComputePool

variable {P : Type} {c : PoolConfig P} {frame : Frame} {done : List ℕ} {s s' : ComputePool P}

section Loop

/-- From now on these parameters are in force, too. -/
def Frame.extend (param : ComputeParam) (frame : Frame) : Frame :=
  frame.map fun f => (f.1, f.2 ++ [param])

lemma Frame.extend_getElem {param : ComputeParam} {i : ℕ} {f : PacketRow × List ComputeParam}
    (hf : (Frame.extend param frame)[i]? = some f) :
    ∃ f', frame[i]? = some f' ∧ f = (f'.1, f'.2 ++ [param]) := by
  rw [Frame.extend, List.getElem?_map, Option.map_eq_some_iff] at hf
  obtain ⟨f', hf', rfl⟩ := hf
  exact ⟨f', hf', rfl⟩

lemma Works.decodes (hw : Works c frame done s) (param : ComputeParam) :
    Works c (Frame.extend param frame) done { s with param := param } := by
  have hlength : (Frame.extend param frame).length = frame.length := List.length_map _
  refine ⟨hw.packetIndex.trans hlength.symm, ?_, hlength ▸ hw.once, hw.counted, ?_, ?_,
    hlength ▸ hw.short, hw.idle⟩
  · intro i f hf
    obtain ⟨f', hf', rfl⟩ := Frame.extend_getElem hf
    exact ⟨(hw.stored i f' hf').1, List.mem_append_right _ List.mem_cons_self⟩
  · intro h w hh f hf
    obtain ⟨f', hf', rfl⟩ := Frame.extend_getElem hf
    obtain ⟨hchannel, pts, hcomputes, hrest⟩ := hw.begun h w hh f' hf'
    exact ⟨hchannel, pts, hcomputes.mono (List.subset_append_left _ _), hrest⟩
  · intro i hi f hf
    obtain ⟨f', hf', rfl⟩ := Frame.extend_getElem hf
    obtain ⟨pts, ⟨mode, hcomputes⟩, hfilled⟩ := hw.computed i hi f' hf'
    exact ⟨pts, ⟨mode, hcomputes.mono (List.subset_append_left _ _)⟩, hfilled⟩

lemma Works.store (hw : Works c frame done s) (hshort : frame.length < c.maxPacketPerFrame)
    (row : PacketRow) :
    Works c (frame ++ [(row, [s.param])]) done { s with
      rawData := Function.update s.rawData s.packetIndex row
      decodedPacketsBuffer := s.decodedPacketsBuffer ++ [s.packetIndex]
      packetIndex := s.packetIndex + 1 } := by
  have hlength : (frame ++ [(row, [s.param])]).length = frame.length + 1 := List.length_append
  have hin : inflight c { s with
      rawData := Function.update s.rawData s.packetIndex row
      decodedPacketsBuffer := s.decodedPacketsBuffer ++ [s.packetIndex]
      packetIndex := s.packetIndex + 1 } = frame.length ::ₘ inflight c s := by
    rw [inflight, inflight, Weight.total, Weight.total, ← hw.packetIndex]
    dsimp only
    rw [List.map_append, List.sum_append, List.map_singleton, List.sum_singleton,
      ← Multiset.singleton_add]
    change _ + {s.packetIndex} + _ + _ + _ = _
    abel
  have hold {i : ℕ} (hi : i < frame.length) : (frame ++ [(row, [s.param])])[i]? = frame[i]? :=
    List.getElem?_append_left hi
  refine ⟨?_, ?_, ?_, hw.counted, ?_, ?_, hlength ▸ hshort, hw.idle⟩
  · rw [hlength, ← hw.packetIndex]
  · intro i f hf
    rcases Nat.lt_or_ge i frame.length with hi | hi
    · rw [hold hi] at hf
      have hne : i ≠ s.packetIndex := hw.packetIndex ▸ hi.ne
      exact ⟨(Function.update_of_ne hne _ _).trans (hw.stored i f hf).1, (hw.stored i f hf).2⟩
    · have hlt := (List.getElem?_eq_some_iff.mp hf).1
      obtain rfl : i = frame.length := by omega
      rw [List.getElem?_concat_length] at hf
      obtain rfl := Option.some.inj hf
      refine ⟨?_, List.mem_cons_self⟩
      dsimp only
      rw [hw.packetIndex, Function.update_self]
  · rw [hin, Multiset.add_cons, hw.once, hlength, Multiset.range_succ]
  · intro h w hh f hf
    rw [hold (hw.in_frame hh)] at hf
    exact hw.begun h w hh f hf
  · intro i hi f hf
    have hlt : i < frame.length := by
      rw [← Multiset.mem_range, ← hw.once]
      exact Multiset.mem_add.mpr (Or.inl hi)
    rw [hold hlt] at hf
    exact hw.computed i hi f hf

/-- Every packet of the frame has been computed once, and the points of the frame are those of its
packets in their order. They are sent if they are enough. Which parameters a thread has found at
each of its readings does not matter as long as they stand. -/
structure RoundOf (c : PoolConfig P) (frame : Frame) (r : PoolRound P) : Prop where
  once : r.computed.Perm (List.range frame.length)
  points : ∃ rows, List.Forall₂ (fun f pts => Points c f.1 f.2 pts) frame rows ∧
    r.points = rows.flatten
  sent : r.sent = decide (r.points.length > kMinPointsOfOneFrame)
  steady : ∀ p, (∀ f ∈ frame, Steady f.2 p) → r.points = frame.flatMap fun f => rowPoints c p f.1

lemma rows_steady {rows : List (List P)} {p : ComputeParam}
    (hrows : List.Forall₂ (fun f pts => Points c f.1 f.2 pts) frame rows)
    (hs : ∀ f ∈ frame, Steady f.2 p) :
    rows.flatten = frame.flatMap fun f => rowPoints c p f.1 := by
  induction hrows with
  | nil => rfl
  | cons hpts _ ih =>
    obtain ⟨hfirst, hothers⟩ := List.forall_mem_cons.mp hs
    rw [List.flatten_cons, List.flatMap_cons, hpts.steady hfirst, ih hothers]

lemma Works.complete (hw : Works c frame done s) (hcomplete : s.computeXyziComplete = true) :
    inflight c s = 0 ∧ done.Perm (List.range frame.length) := by
  have hcard := congrArg Multiset.card hw.once
  rw [Multiset.card_add, Multiset.card_range, Multiset.coe_card, ← hw.counted,
    of_decide_eq_true hcomplete, hw.packetIndex] at hcard
  have hzero : inflight c s = 0 := Multiset.card_eq_zero.mp (by omega)
  have honce := hw.once
  rw [hzero, add_zero] at honce
  exact ⟨hzero, Multiset.coe_eq_coe.mp honce⟩

lemma Works.rows (hw : Works c frame done s) (hcomplete : s.computeXyziComplete = true) :
    ∃ rows : List (List P), List.Forall₂ (fun f pts => Points c f.1 f.2 pts) frame rows ∧
      ∀ i pts, rows[i]? = some pts → Filled c.perPointsNum s.validPoints s.points i pts := by
  have hall : ∀ i : Fin frame.length, Computed c frame[i] s i := by
    intro i
    apply hw.computed i _ _ (List.getElem?_eq_getElem i.isLt)
    exact (hw.complete hcomplete).2.mem_iff.mpr (List.mem_range.mpr i.isLt)
  choose row hpoints hfilled using hall
  refine ⟨List.ofFn row, ?_, ?_⟩
  · rw [List.forall₂_iff_get]
    refine ⟨List.length_ofFn.symm, fun i hi hi' => ?_⟩
    rw [List.get_ofFn]
    exact hpoints ⟨i, hi⟩
  · intro i pts hpts
    rw [List.getElem?_ofFn] at hpts
    split at hpts
    · rename_i hi
      obtain rfl := Option.some.inj hpts
      exact hfilled ⟨i, hi⟩
    · cases hpts

lemma Works.close (hw : Works c frame done s) (hcomplete : s.computeXyziComplete = true) :
    Works c [] [] (s.closeFrame c).1 ∧
      ∃ points sent, (s.closeFrame c).2 = .closed points sent ∧
        RoundOf c frame ⟨done, points, sent⟩ := by
  obtain ⟨hzero, hperm⟩ := hw.complete hcomplete
  obtain ⟨rows, hrows, hfilled⟩ := hw.rows hcomplete
  have hspec := gatherPoints_spec (fun pts hpts => ?_) hfilled le_rfl
  · rw [List.take_length, ← hrows.length_eq, ← hw.packetIndex] at hspec
    refine ⟨⟨rfl, ?_, ?_, rfl, ?_, ?_, Nat.zero_le _, hw.idle⟩, _, _, rfl, hperm,
      ⟨rows, hrows, hspec.2.1⟩, ?_, fun p hs => ?_⟩
    · intro i f hf
      rw [List.getElem?_nil] at hf
      cases hf
    · change ↑([] : List ℕ) + inflight c s = _
      rw [hzero]
      rfl
    · intro h w hh f hf
      rw [List.getElem?_nil] at hf
      cases hf
    · exact fun i hi => (List.not_mem_nil hi).elim
    · rw [List.length_map, List.length_range]
    · exact hspec.2.1.trans (rows_steady hrows hs)
  · obtain ⟨i, hi, rfl⟩ := List.getElem_of_mem hpts
    obtain ⟨hlength, hget⟩ := List.forall₂_iff_get.mp hrows
    exact (hget i (hlength ▸ hi) hi).length_le

end Loop

section Run

/-- What the loop has put together of a frame. -/
structure Gathered where
  param : ComputeParam
  frame : Frame

/-- The frames that the loop closes, as its own steps give them. -/
def cut (g : Gathered) : PoolEvent → Gathered × List Frame
  | .decodes param => (⟨param, Frame.extend param g.frame⟩, [])
  | .store row => (⟨g.param, g.frame ++ [(row, [g.param])]⟩, [])
  | .scanComplete => (⟨g.param, []⟩, [g.frame])
  | _ => (g, [])

def pending (frame : Frame) (s : ComputePool P) : List Frame := if s.waiting then [frame] else []

def gathered (frame : Frame) (s : ComputePool P) : Gathered :=
  ⟨s.param, if s.waiting then [] else frame⟩

/-- What is put out, and what waits for it, is what waited before and what has been closed. -/
structure Conserves (c : PoolConfig P) (frame : Frame) (done : List ℕ) (s : ComputePool P)
    (cuts : Gathered × List Frame) (outputs : List (PoolOutput P)) (frame' : Frame)
    (s' : ComputePool P) : Prop where
  works : Works c frame' (Transducer.after round done outputs) s'
  gathered : cuts.1 = gathered frame' s'
  rounds : ∃ closed, pending frame s ++ cuts.2 = closed ++ pending frame' s' ∧
    List.Forall₂ (RoundOf c) closed (Transducer.outputs round done outputs)

lemma Turn.conserves {o : List (PoolOutput P)} (ht : Turn c frame done s s' o) :
    Conserves c frame done s (ComputePool.gathered frame s, []) o frame s' := by
  obtain ⟨hworks, hquiet, hparam, hwaiting, -⟩ := ht
  refine ⟨hworks, ?_, [], ?_, ?_⟩
  · rw [ComputePool.gathered, ComputePool.gathered, hparam, hwaiting]
  · rw [pending, pending, hwaiting, List.append_nil]
    rfl
  · rw [hquiet]
    exact .nil

lemma step_conserves {e : PoolEvent} {o : List (PoolOutput P)}
    (hc : c.maxPacketPerFrame ≤ c.handleBufferSize) (hw : Works c frame done s)
    (hne : e ≠ .failedToStart) (he : s.step c e = some (s', o)) :
    ∃ frame', Conserves c frame done s (cut (gathered frame s) e) o frame' s' := by
  cases e with
  | decodes param =>
    rw [step] at he
    split at he
    · rename_i hwaiting
      obtain ⟨rfl, rfl⟩ := Prod.mk.inj (Option.some.inj he)
      refine ⟨_, hw.decodes param, ?_, [], ?_, .nil⟩
      · rw [gathered, gathered, hwaiting]
        rfl
      · rw [pending, pending, hwaiting]
        rfl
    · cases he
  | store row =>
    rw [step] at he
    split at he
    · rename_i hguard
      obtain ⟨hwaiting, hshort, -⟩ := hguard
      obtain ⟨rfl, rfl⟩ := Prod.mk.inj (Option.some.inj he)
      refine ⟨_, hw.store (hw.packetIndex ▸ hshort) row, ?_, [], ?_, .nil⟩
      · rw [gathered, gathered, hwaiting]
        rfl
      · rw [pending, pending, hwaiting]
        rfl
    · cases he
  | scanComplete =>
    rw [step] at he
    split at he
    · rename_i hguard
      obtain ⟨rfl, rfl⟩ := Prod.mk.inj (Option.some.inj he)
      refine ⟨frame, hw.move ⟨rfl, rfl, rfl, rfl, rfl, rfl⟩ rfl hw.idle fun h w hh => ?_, rfl, [],
        ?_, .nil⟩
      · cases h <;> exact Or.inl hh
      · rw [pending, pending, gathered, hguard.1]
        rfl
    · cases he
  | poll =>
    rw [step] at he
    split at he
    · rename_i hwaiting
      split at he
      · rename_i hcomplete
        obtain ⟨rfl, rfl⟩ := Prod.mk.inj (Option.some.inj he)
        obtain ⟨hworks, points, sent, hclosed, hround⟩ := hw.close hcomplete
        rw [hclosed]
        refine ⟨[], hworks, ?_, [frame], ?_, .cons hround .nil⟩
        · rw [gathered, hwaiting]
          rfl
        · rw [pending, hwaiting]
          rfl
      · obtain ⟨rfl, rfl⟩ := Prod.mk.inj (Option.some.inj he)
        exact ⟨frame, hw, rfl, [], List.append_nil _, .nil⟩
    · cases he
  | failedToStart => exact (hne rfl).elim
  | parserTakes => exact ⟨frame, (turn hc hw .parserTakes he).conserves⟩
  | parserHandsOn => exact ⟨frame, (turn hc hw .parserHandsOn he).conserves⟩
  | parserComputes => exact ⟨frame, (turn hc hw .parserComputes he).conserves⟩
  | handleTakes thread => exact ⟨frame, (turn hc hw (.handleTakes thread) he).conserves⟩
  | handleComputes thread => exact ⟨frame, (turn hc hw (.handleComputes thread) he).conserves⟩

lemma run_conserves {es : List PoolEvent} {os : List (List (PoolOutput P))}
    (hc : c.maxPacketPerFrame ≤ c.handleBufferSize) (hw : Works c frame done s)
    (hno : .failedToStart ∉ es) (hrun : Machine.run (step c) s es = some (s', os)) :
    ∃ frame', Conserves c frame done s (Transducer.run cut (gathered frame s) es) os.flatten
      frame' s' := by
  induction es generalizing s os frame done with
  | nil =>
    obtain ⟨rfl, rfl⟩ := Prod.mk.inj (Option.some.inj hrun)
    exact ⟨frame, hw, rfl, [], List.append_nil _, .nil⟩
  | cons e es ih =>
    rw [List.mem_cons, not_or] at hno
    obtain ⟨next, o, os', hstep, hrest, rfl⟩ := Machine.run_cons hrun
    obtain ⟨frame', hworks, hopen, closed, hclosed, hrounds⟩ :=
      step_conserves hc hw (Ne.symm hno.1) hstep
    obtain ⟨frame'', hworks', hopen', closed', hclosed', hrounds'⟩ := ih hworks hno.2 hrest
    rw [← hopen] at hclosed' hopen'
    rw [List.flatten_cons]
    refine ⟨frame'', ?_, hopen', closed ++ closed', ?_, ?_⟩
    · rw [Transducer.after, Transducer.run_append]
      exact hworks'
    · rw [Transducer.run]
      dsimp only
      rw [← List.append_assoc, hclosed, List.append_assoc, hclosed', List.append_assoc]
    · rw [Transducer.outputs, Transducer.run_append]
      exact List.rel_append hrounds hrounds'

def start (param : ComputeParam) (points : ℕ → P) : ComputePool P :=
  { param := param, points := points }

lemma start_works (c : PoolConfig P) (param : ComputeParam) (points : ℕ → P) :
    Works c [] [] (start param points) := by
  refine ⟨rfl, fun i f hf => ?_, ?_, rfl, fun h w hh => ?_, fun i hi => (List.not_mem_nil hi).elim,
    Nat.zero_le _, fun _ _ => ⟨rfl, rfl⟩⟩
  · rw [List.getElem?_nil] at hf
    cases hf
  · change 0 + index.total c (start param points) = 0
    simp [Weight.total, start]
  · cases h <;> cases hh

/-- The frames are put out in the order in which they were closed, and at most the last of them has
not been yet. -/
structure Publishes (c : PoolConfig P) (frames : List Frame) (s : ComputePool P)
    (rounds : List (PoolRound P)) : Prop where
  each : List.Forall₂ (RoundOf c) (frames.take rounds.length) rounds
  behind : rounds.length + (if s.waiting then 1 else 0) = frames.length

lemma inflight_stuck (hstuck : ∀ e, PoolEvent.ofThread e → s.step c e = none) :
    inflight c s = 0 := by
  have hparser : s.parserThread = none := by
    cases hp : s.parserThread with
    | none => rfl
    | some w =>
      by_cases hthreads : c.handleThreadCount < 2
      · have he := hstuck _ .parserComputes
        rw [step, if_pos hthreads, hp] at he
        cases he
      · have he := hstuck _ .parserHandsOn
        rw [step, if_neg hthreads, hp] at he
        cases he
  have hdecoded : s.decodedPacketsBuffer = [] := by
    cases hb : s.decodedPacketsBuffer with
    | nil => rfl
    | cons i rest =>
      have he := hstuck _ .parserTakes
      rw [step, hparser, hb] at he
      cases he
  have hhand : ∀ thread, s.handleThread thread = none := by
    intro thread
    cases hh : s.handleThread thread with
    | none => rfl
    | some w =>
      have he := hstuck _ (.handleComputes thread)
      rw [step, hh] at he
      cases he
  have hbuffer : ∀ thread, s.handleThreadPacketBuffer thread = [] := by
    intro thread
    cases hb : s.handleThreadPacketBuffer thread with
    | nil => rfl
    | cons i rest =>
      have he := hstuck _ (.handleTakes thread)
      rw [step, hhand, hb] at he
      cases he
  simp [inflight, Weight.total, hparser, hdecoded, hhand, hbuffer]

lemma run_turns {ts : List PoolEvent} {os : List (List (PoolOutput P))}
    (hc : c.maxPacketPerFrame ≤ c.handleBufferSize) (hw : Works c frame done s)
    (hts : ∀ e ∈ ts, PoolEvent.ofThread e)
    (hrun : Machine.run (step c) s ts = some (s', os)) :
    ∃ done', Works c frame done' s' ∧ ts.length + work c s' ≤ work c s := by
  induction ts generalizing s os done with
  | nil =>
    obtain ⟨rfl, rfl⟩ := Prod.mk.inj (Option.some.inj hrun)
    exact ⟨done, hw, (Nat.zero_add _).le⟩
  | cons e ts ih =>
    obtain ⟨next, o, os', hstep, hrest, rfl⟩ := Machine.run_cons hrun
    obtain ⟨hworks, -, -, -, hless⟩ := turn hc hw (hts e List.mem_cons_self) hstep
    obtain ⟨done', hworks', hless'⟩ :=
      ih hworks (fun e' he' => hts e' (List.mem_cons_of_mem _ he')) hrest
    refine ⟨done', hworks', ?_⟩
    rw [List.length_cons]
    omega

/-- The threads cannot go on for ever, and when they have to stop the loop does not have to wait:
it closes the frame the next time it looks. -/
structure Opens (c : PoolConfig P) (s s' : ComputePool P) (turns : ℕ) : Prop where
  bounded : turns ≤ (2 * c.perPointsNum + 5) * s.packetIndex
  opens : (∀ e, PoolEvent.ofThread e → s'.step c e = none) → s'.waiting = true →
    ∃ next points, s'.step c .poll =
        some (next, [.closed points (decide (points.length > kMinPointsOfOneFrame))]) ∧
      next.waiting = false ∧ next.packetIndex = 0

def twoThreads : PoolConfig ℤ where
  handleThreadCount := 2
  handleBufferSize := 8
  maxPacketPerFrame := 4
  blockNum := 1
  laserNum := 2
  point forward _ row channel :=
    row.rawData[channel]?.map fun b => if forward then (b.toNat : ℤ) else -b.toNat

/-- The second packet is computed before the first, and the direction changes between them. -/
def overtaking : List PoolEvent :=
  [.store ⟨[1, 2], 0⟩, .store ⟨[3], 0⟩, .parserTakes, .parserHandsOn, .parserTakes, .parserHandsOn,
    .handleTakes 1, .handleComputes 1, .handleComputes 1, .handleComputes 1, .handleComputes 1,
    .decodes ⟨-1, 0⟩, .scanComplete, .poll, .handleTakes 0]

def overtaken : List PoolEvent := List.replicate 4 (.handleComputes 0)

def overflowing : List PoolEvent :=
  [.store ⟨[1], 0⟩, .store ⟨[2], 0⟩, .parserTakes, .parserHandsOn, .handleTakes 0, .failedToStart,
    .store ⟨[3], 0⟩, .scanComplete, .parserTakes, .parserHandsOn, .handleTakes 1,
    .handleComputes 1, .handleComputes 1, .handleComputes 1, .handleComputes 1]

-- A thread that still has a packet when a frame overflows counts it for the next frame, and the
-- loop waits for ever.
example : (Machine.run (step { twoThreads with maxPacketPerFrame := 2 }) (start {} fun _ => 0)
    (overflowing ++ overtaken ++ [.poll])).map
      (fun r => (r.1.computePacketNum, r.1.packetIndex)) = some (2, 1) := by
  decide +kernel

end Run

end Taggy.ComputePool
