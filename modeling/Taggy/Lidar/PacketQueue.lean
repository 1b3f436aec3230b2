import Taggy.Lidar.FrameAssembly
import Taggy.Lidar.Ring

/-! The threads that receive packets, and the ring through which they pass them to the loop. -/

namespace Taggy

inductive Received where
  | failed
  | timeout
  | datagram (bytes : List UInt8) (ip port : ℕ)

namespace Received

def read (bytes : List UInt8) : List UInt8 := bytes.take kBufSize

def len : Received → ℤ
  | .failed => -1
  | .timeout => 0
  | .datagram bytes _ _ => (read bytes).length

-- Each packet is a new one, whose buffer is filled with zeros.
def packet : Received → UdpPacket
  | .failed => { buffer := List.replicate kBufSize 0, packetLen := 0, ip := 0, port := 0 }
  | .timeout =>
    { buffer := List.replicate kBufSize 0, packetLen := 0, ip := 0, port := 0, isTimeout := true }
  | .datagram bytes ip port => {
    buffer := read bytes ++ List.replicate (kBufSize - (read bytes).length) 0
    packetLen := 0
    ip := ip
    port := port }

end Received

def UdpPacket.isFaultMessage (p : UdpPacket) : Bool :=
  (p.byte 0 = 0xCD ∧ p.byte 1 = 0xDC) ∨ (p.byte 21 = 0xCD ∧ p.byte 22 = 0xDC)

/-- The turn of the thread for the packets of the lidar, up to what it puts into the ring. -/
def receiveUdpThread (isTimeout : Bool) (r : Received) : Bool × Option UdpPacket :=
  let p := r.packet
  if r.len = -1 then (isTimeout, none)
  else if r.len = 0 then
    if isTimeout = false then
      (true, some { p with packetLen := 1180, buffer := (p.buffer.set 0 0).set 1 0 })
    else (isTimeout, none)
  else if r.len = 99 then (isTimeout, some { p with packetLen := r.len.toNat })
  else if r.len = 512 then (isTimeout, none)
  else
    (if p.isFaultMessage then isTimeout else false, some { p with packetLen := r.len.toNat })

def receiveUdpThreadFaultMessage (r : Received) : Option UdpPacket :=
  let p := r.packet
  if r.len ≤ 0 then none
  else if r.len ≠ 99 ∧ p.isFaultMessage = false then none
  else some { p with packetLen := r.len.toNat }

instance : Inhabited UdpPacket := ⟨{ buffer := [], packetLen := 0, ip := 0, port := 0 }⟩

structure Driver (n : ℕ) where
  originPacketsBuffer : Ring UdpPacket n
  isTimeout : Bool
  sdk : HesaiLidarSdk

inductive DriverEvent where
  | received (r : Received)
  | receivedFaultMessage (r : Received)
  | turn (now later : ℕ) (allInitFinish : Bool)

namespace Driver

variable {n : ℕ} (validPoints : List UInt8 → ℕ)

-- A step that fails is one that a thread has to wait for.
def emplaceBack (s : Driver n) : Option UdpPacket → Option (Driver n)
  | none => some s
  | some p =>
    if h : s.originPacketsBuffer.size < n then
      some { s with originPacketsBuffer := s.originPacketsBuffer.pushBack p h }
    else none

def step (s : Driver n) : DriverEvent → Option (Driver n × List RunOutput)
  | .received r =>
    if r.len ≠ -1 ∧ s.originPacketsBuffer.size = n then none
    else
      let (isTimeout, p) := receiveUdpThread s.isTimeout r
      ({ s with isTimeout := isTimeout }.emplaceBack p).map (·, [])
  | .receivedFaultMessage r => (s.emplaceBack (receiveUdpThreadFaultMessage r)).map (·, [])
  | .turn now later allInitFinish =>
    if h : 0 < s.originPacketsBuffer.size then
      let p := s.originPacketsBuffer.peekFront h
      let (sdk, outputs) := s.sdk.run validPoints ⟨p, now, later, allInitFinish⟩
      some ({ s with
        originPacketsBuffer := s.originPacketsBuffer.effPopFront h
        sdk := sdk }, outputs)
    else some (s, [])

def start (hn : 0 < n) (c : HesaiLidarSdk.Settings) (frameStartAzimuth : ℤ) : Driver n where
  originPacketsBuffer := Ring.init hn
  isTimeout := false
  sdk := HesaiLidarSdk.start c frameStartAzimuth

/-- What a thread hands over in one turn, and whether it has reported that no data come. -/
def handOver (isTimeout : Bool) : DriverEvent → Bool × Option UdpPacket
  | .received r => receiveUdpThread isTimeout r
  | .receivedFaultMessage r => (isTimeout, receiveUdpThreadFaultMessage r)
  | .turn _ _ _ => (isTimeout, none)

def handedOver (isTimeout : Bool) : List DriverEvent → List UdpPacket
  | [] => []
  | e :: es => (handOver isTimeout e).2.toList ++ handedOver (handOver isTimeout e).1 es

/-- The loop has taken the packets of these arrivals from the ring, and the others are in it. -/
structure Passes (s : Driver n) (handed : List UdpPacket) (s' : Driver n)
    (outputs : List RunOutput) (h : List Arrival) : Prop where
  packets : s.originPacketsBuffer.contents ++ handed =
    h.map Arrival.packet ++ s'.originPacketsBuffer.contents
  sdk : s'.sdk = Transducer.after (HesaiLidarSdk.run validPoints) s.sdk h
  outputs : outputs = Transducer.outputs (HesaiLidarSdk.run validPoints) s.sdk h

variable {validPoints} {s s' : Driver n}

lemma emplaceBack_eq {p : Option UdpPacket} (he : s.emplaceBack p = some s') :
    s'.originPacketsBuffer.contents = s.originPacketsBuffer.contents ++ p.toList ∧
      s'.isTimeout = s.isTimeout ∧ s'.sdk = s.sdk := by
  cases p with
  | none =>
    obtain rfl : s = s' := Option.some.inj he
    exact ⟨(List.append_nil _).symm, rfl, rfl⟩
  | some p =>
    rw [emplaceBack] at he
    split at he
    · rename_i h
      obtain rfl := Option.some.inj he
      exact ⟨Ring.contents_pushBack _ p h, rfl, rfl⟩
    · cases he

lemma Passes.refl (s : Driver n) : Passes validPoints s [] s [] [] :=
  ⟨List.append_nil _, rfl, rfl⟩

lemma Passes.trans {middle last : Driver n} {handed handed' : List UdpPacket}
    {os os' : List RunOutput} {h h' : List Arrival}
    (hp : Passes validPoints s handed middle os h)
    (hp' : Passes validPoints middle handed' last os' h') :
    Passes validPoints s (handed ++ handed') last (os ++ os') (h ++ h') := by
  refine ⟨?_, ?_, ?_⟩
  · rw [← List.append_assoc, hp.packets, List.append_assoc, hp'.packets, List.map_append,
      List.append_assoc]
  · rw [hp'.sdk, hp.sdk, Transducer.after, Transducer.after, Transducer.after,
      Transducer.run_append]
  · rw [hp'.outputs, hp.outputs, hp.sdk, Transducer.outputs, Transducer.outputs,
      Transducer.outputs, Transducer.run_append]
    rfl

lemma step_passes {e : DriverEvent} {o : List RunOutput}
    (he : s.step validPoints e = some (s', o)) :
    ∃ h, Passes validPoints s (handOver s.isTimeout e).2.toList s' o h ∧
      s'.isTimeout = (handOver s.isTimeout e).1 ∧
      ∀ i ∈ h, e = .turn i.now i.later i.allInitFinish := by
  cases e with
  | received r =>
    rw [step] at he
    split at he
    · cases he
    obtain ⟨s'', hs, heq⟩ := Option.map_eq_some_iff.mp he
    obtain ⟨rfl, rfl⟩ := Prod.mk.inj heq
    obtain ⟨hcontents, htimeout, hsdk⟩ := emplaceBack_eq hs
    exact ⟨[], ⟨hcontents.symm, hsdk, rfl⟩, htimeout, fun i hi => (List.not_mem_nil hi).elim⟩
  | receivedFaultMessage r =>
    obtain ⟨s'', hs, heq⟩ := Option.map_eq_some_iff.mp he
    obtain ⟨rfl, rfl⟩ := Prod.mk.inj heq
    obtain ⟨hcontents, htimeout, hsdk⟩ := emplaceBack_eq hs
    exact ⟨[], ⟨hcontents.symm, hsdk, rfl⟩, htimeout, fun i hi => (List.not_mem_nil hi).elim⟩
  | turn now later allInitFinish =>
    rw [step] at he
    split at he
    · rename_i hsize
      obtain ⟨rfl, rfl⟩ := Prod.mk.inj (Option.some.inj he)
      refine ⟨[⟨s.originPacketsBuffer.peekFront hsize, now, later, allInitFinish⟩],
        ⟨?_, rfl, ?_⟩, rfl, fun i hi => ?_⟩
      · exact (List.append_nil _).trans ((Ring.contents_popFront _ hsize).trans
          (congrArg (_ :: ·) (Ring.contents_effPopFront _ hsize).symm))
      · exact (List.append_nil _).symm
      · obtain rfl := List.mem_singleton.mp hi
        rfl
    · obtain ⟨rfl, rfl⟩ := Prod.mk.inj (Option.some.inj he)
      exact ⟨[], Passes.refl s, rfl, fun i hi => (List.not_mem_nil hi).elim⟩

lemma run_passes {es : List DriverEvent} {os : List (List RunOutput)}
    (hrun : Machine.run (step validPoints) s es = some (s', os)) :
    ∃ h, Passes validPoints s (handedOver s.isTimeout es) s' os.flatten h ∧
      ∀ i ∈ h, .turn i.now i.later i.allInitFinish ∈ es := by
  induction es generalizing s os with
  | nil =>
    obtain ⟨rfl, rfl⟩ := Prod.mk.inj (Option.some.inj hrun)
    exact ⟨[], Passes.refl s, fun i hi => (List.not_mem_nil hi).elim⟩
  | cons e es ih =>
    obtain ⟨next, o, os', hstep, hrest, rfl⟩ := Machine.run_cons hrun
    obtain ⟨h, hp, htimeout, hturn⟩ := step_passes hstep
    obtain ⟨h', hp', hturns⟩ := ih hrest
    rw [htimeout] at hp'
    refine ⟨h ++ h', ?_, fun i hi => ?_⟩
    · exact hp.trans hp'
    · rcases List.mem_append.mp hi with hi | hi
      · exact hturn i hi ▸ List.mem_cons_self
      · exact List.mem_cons_of_mem _ (hturns i hi)

lemma receiveUdpThread_header (isTimeout : Bool) (r : Received) {p : UdpPacket}
    (hp : (receiveUdpThread isTimeout r).2 = some p) (hx : p.isXt = true) :
    p.isTimeout = false := by
  cases r with
  | failed => cases hp
  | timeout =>
    cases isTimeout with
    | true => cases hp
    | false =>
      obtain rfl := Option.some.inj hp
      exact (Bool.false_ne_true hx).elim
  | datagram bytes ip port =>
    rw [receiveUdpThread] at hp
    split_ifs at hp <;> cases hp <;> rfl

lemma receiveUdpThreadFaultMessage_header (r : Received) {p : UdpPacket}
    (hp : receiveUdpThreadFaultMessage r = some p) : p.isTimeout = false := by
  cases r with
  | failed => cases hp
  | timeout => cases hp
  | datagram bytes ip port =>
    rw [receiveUdpThreadFaultMessage] at hp
    split_ifs at hp
    cases hp
    rfl

lemma handedOver_header (isTimeout : Bool) (es : List DriverEvent) :
    ∀ p ∈ handedOver isTimeout es, p.isXt = true → p.isTimeout = false := by
  induction es generalizing isTimeout with
  | nil => exact fun p hp => (List.not_mem_nil hp).elim
  | cons e es ih =>
    intro p hp hx
    rcases List.mem_append.mp hp with hp | hp
    · rw [Option.mem_toList] at hp
      cases e with
      | received r => exact receiveUdpThread_header isTimeout r hp hx
      | receivedFaultMessage r => exact receiveUdpThreadFaultMessage_header r hp
      | turn now later allInitFinish => cases hp
    · exact ih _ p hp hx

lemma run_waiting {s : HesaiLidarSdk} {h : List Arrival}
    (hwait : ∀ i ∈ h, i.allInitFinish = false) :
    Transducer.after (HesaiLidarSdk.run validPoints) s h = s := by
  induction h using List.reverseRecOn with
  | nil => rfl
  | append_singleton h i ih =>
    rw [Transducer.after_concat, ih fun j hj => hwait j (List.mem_append_left _ hj),
      HesaiLidarSdk.run]
    by_cases hfault : i.packet.isFault = true
    · rw [if_pos hfault]
    · rw [if_neg hfault, if_pos (hwait i (List.mem_append_right _ List.mem_cons_self))]

def own (c : HesaiLidarSdk.Settings) (p : UdpPacket) : Bool :=
  HesaiLidarSdk.Accepts c { packet := p, now := 0, later := 0 }

lemma accepted_packets (c : HesaiLidarSdk.Settings) {h : List Arrival}
    (hready : ∀ i ∈ h, i.allInitFinish = true) :
    (HesaiLidarSdk.accepted c h).map Arrival.packet = (h.map Arrival.packet).filter (own c) := by
  rw [HesaiLidarSdk.accepted, List.filter_map]
  congr 1
  apply List.filter_congr
  intro i hi
  change decide (HesaiLidarSdk.Accepts c i) = decide (HesaiLidarSdk.Accepts c _)
  rw [decide_eq_decide]
  exact ⟨fun ha => ⟨ha.notFault, rfl, ha.address, ha.isXt⟩,
    fun ha => ⟨ha.notFault, hready i hi, ha.address, ha.isXt⟩⟩

/-- Every packet of the lidar that was handed over is in one frame, in the frame that is gathered
or still in the ring, in the order in which the threads put them there. The frames that got full
have been thrown away. -/
structure Keeps (x : XtStream) (c : HesaiLidarSdk.Settings) (handed : List UdpPacket)
    (s : Driver n) (outputs : List RunOutput) : Prop where
  once : outputs.flatMap RunOutput.packets ++ s.sdk.udpPacketFrame ++
    s.originPacketsBuffer.contents.filter (own c) = handed.filter (own c)
  frame : ∀ packets rows sent, .frame packets rows sent ∈ outputs →
    packets.length < c.maxPacketPerFrame ∧ rows = packets.map x.row
  thrown : ∀ packets, .failedToStart packets ∈ outputs → packets.length = c.maxPacketPerFrame

theorem keeps_packets {x : XtStream} {c : HesaiLidarSdk.Settings}
    (hfits : HesaiLidarSdk.Fits x c) (hn : 0 < n) (frameStartAzimuth : ℤ)
    {before es : List DriverEvent} {os os' : List (List RunOutput)}
    (hbefore : Machine.run (step validPoints) (start hn c frameStartAzimuth) before = some (s, os))
    (hwait : ∀ now later f, .turn now later f ∈ before → f = false)
    (hrun : Machine.run (step validPoints) s es = some (s', os'))
    (hready : ∀ now later f, .turn now later f ∈ es → f = true)
    (hx : ∀ p ∈ s.originPacketsBuffer.contents ++ handedOver s.isTimeout es,
      own c p → x.Sends p) :
    Keeps x c (s.originPacketsBuffer.contents ++ handedOver s.isTimeout es) s' os'.flatten := by
  obtain ⟨h₀, ⟨hpackets₀, hsdk₀, -⟩, hturns₀⟩ := run_passes hbefore
  obtain ⟨h, ⟨hpackets, hsdk, hout⟩, hturns⟩ := run_passes hrun
  rw [hsdk₀, run_waiting fun i hi => hwait _ _ _ (hturns₀ i hi)] at hsdk hout
  have hinit : ∀ i ∈ h, i.allInitFinish = true := fun i hi => hready _ _ _ (hturns i hi)
  have hpopped : ∀ i ∈ h,
      i.packet ∈ s.originPacketsBuffer.contents ++ handedOver s.isTimeout es := by
    intro i hi
    rw [hpackets]
    exact List.mem_append_left _ (List.mem_map_of_mem hi)
  have htimeouts : HesaiLidarSdk.NoTimeouts h := by
    intro i hi
    rcases List.mem_append.mp (hpopped i hi) with hp | hp
    · apply handedOver_header false before
      rw [show handedOver false before = _ from hpackets₀]
      exact List.mem_append_right _ hp
    · exact handedOver_header _ es _ hp
  have hsends : ∀ i ∈ HesaiLidarSdk.accepted c h, x.Sends i.packet := by
    intro i hi
    obtain ⟨hmem, ha⟩ := List.mem_filter.mp hi
    obtain ⟨hf, -, had, hxt⟩ := of_decide_eq_true ha
    exact hx _ (hpopped i hmem) (decide_eq_true ⟨hf, rfl, had, hxt⟩)
  have honce := HesaiLidarSdk.run_once validPoints hfits frameStartAzimuth h hsends htimeouts
  rw [accepted_packets c hinit] at honce
  rw [hout]
  refine ⟨?_, fun packets rows sent hf => ?_, fun packets hf => ?_⟩
  · rw [hsdk, hpackets, List.filter_append, ← honce]
    rfl
  · obtain ⟨hlen, hrows, -⟩ :=
      HesaiLidarSdk.run_frame validPoints hfits frameStartAzimuth h hsends htimeouts hf
    exact ⟨hlen, hrows⟩
  · exact HesaiLidarSdk.run_overflow validPoints hfits frameStartAzimuth h hsends htimeouts hf

/-- A packet at the given angle and a fault message, each handed over while no data come. -/
def handed (azimuth : ℕ) : List DriverEvent :=
  [.received (.datagram (HesaiLidarSdk.turned azimuth).packet.buffer 0 0), .received .timeout,
    .receivedFaultMessage (.datagram (List.replicate 99 0) 0 0)]

def turns (allInitFinish : Bool) : List DriverEvent :=
  List.replicate 3 (.turn 0 0 allInitFinish)

def waiting : List DriverEvent := handed 35900 ++ turns false ++ handed 35960

def working : List DriverEvent :=
  [35980, 10, 30].flatMap fun azimuth => handed azimuth ++ turns true

theorem keeps_packets_after_waiting :
    ∃ s os s' os', Machine.run (step fun _ => 1)
        (start (by decide : 0 < 16) ⟨0, 0, 8, 8, true⟩ 0) waiting = some (s, os) ∧
      Machine.run (step fun _ => 1) s working = some (s', os') ∧
      Keeps ⟨1, 1, 4, 14⟩ ⟨0, 0, 8, 8, true⟩
        (s.originPacketsBuffer.contents ++ handedOver s.isTimeout working) s' os'.flatten := by
  have hsome : (Machine.run (step fun _ => 1)
      (start (by decide : 0 < 16) ⟨0, 0, 8, 8, true⟩ 0) waiting).isSome := by
    decide +kernel
  have hall : (Machine.run (step fun _ => 1)
      (start (by decide : 0 < 16) ⟨0, 0, 8, 8, true⟩ 0) waiting).all (fun r =>
        (Machine.run (step fun _ => 1) r.1 working).isSome &&
          decide (∀ p ∈ r.1.originPacketsBuffer.contents ++ handedOver r.1.isTimeout working,
            own ⟨0, 0, 8, 8, true⟩ p → XtStream.Sends ⟨1, 1, 4, 14⟩ p)) := by
    decide +kernel
  obtain ⟨⟨s, os⟩, hbefore⟩ := Option.isSome_iff_exists.mp hsome
  rw [hbefore, Option.all_some, Bool.and_eq_true] at hall
  obtain ⟨⟨s', os'⟩, hrun⟩ := Option.isSome_iff_exists.mp hall.1
  refine ⟨s, os, s', os', hbefore, hrun, keeps_packets ⟨by decide, by decide, by decide⟩ _ _
    hbefore ?_ hrun ?_ (of_decide_eq_true hall.2)⟩
  · intro now later f hf
    simp [waiting, handed, turns] at hf
    exact hf.2.2
  · intro now later f hf
    simp [working, handed, turns] at hf
    exact hf.2.2

end Driver

end Taggy
