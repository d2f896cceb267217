import RojalMQTT.DeliveryLaws
import RojalMQTT.DecoderLaws

/-! The packets that a server sends, and what the client makes of them. -/

namespace RojalMQTT

open Library

/-- The packets of a server, laid out as MQTT 3.1.1 has them. -/
inductive ServerPacket
  | connack (sessionPresent : Bool) (code : UInt8)
  | publish (p : PublishPacket)
  | suback (identifier : UInt16) (code : UInt8)
  | pingresp
  | other (first : UInt8) (body : List UInt8)

inductive Notice
  | connected (status : MQTTErrorCodes)
  | subscribed (status : MQTTErrorCodes)
  | message (topic payload : List UInt8)

def Event.notice (input : Mem) : Event → Option Notice
  | .connectedCb status => some (.connected status)
  | .subscribeCb _ (some dataPtr) dataLen (some topicPtr) topicLen =>
    some (.message (slice input topicPtr topicLen) (slice input dataPtr dataLen))
  | .subscribeCb status _ _ _ _ => some (.subscribed status)
  | .out _ _ | .parsed _ => none

namespace ServerPacket

def firstByte : ServerPacket → UInt8
  | .connack _ _ => 0x20
  | .publish p => (FlagsAndType.mk p.retain p.dup p.qos .publish).toStandardByte
  | .suback _ _ => 0x90
  | .pingresp => 0xD0
  | .other first _ => first

def body : ServerPacket → List UInt8
  | .connack sessionPresent code => [if sessionPresent then 1 else 0, code]
  | .publish p => p.body
  | .suback identifier code => be16 identifier.toNat ++ [code]
  | .pingresp => []
  | .other _ body => body

/-- A PUBLISH has QoS 0 and no DUP, where the client reads the flags that MQTT has. -/
def WellFormed : ServerPacket → Prop
  | .publish p => (p.dup = false ∧ p.qos = .qos0) ∧ p.topic.length < 65536 ∧
    p.body.length < 268435456
  | .other first body => MQTTMessageType.ofBits (first.toNat / 16) ∉
    [.connack, .publish, .suback, .pingresp] ∧ body.length < 268435456
  | .connack _ _ | .suback _ _ | .pingresp => True

theorem WellFormed.fits {p : ServerPacket} (h : p.WellFormed) : p.body.length < 268435456 := by
  cases p with
  | publish p => exact h.2.2
  | other first body => exact h.2
  | connack sessionPresent code => exact Nat.lt_of_le_of_lt (Nat.le_refl 2) (by decide)
  | suback identifier code => exact Nat.lt_of_le_of_lt (Nat.le_refl 3) (by decide)
  | pingresp => exact Nat.two_pow_pos 28

def Reaches (p : PublishPacket) : Prop := 0 < p.topic.length ∧ 0 < p.message.length

instance : Decidable (Reaches p) := inferInstanceAs (Decidable (_ ∧ _))

/-- What the application is told.  A SUBACK that grants is told as an error. -/
def notice : ServerPacket → Option Notice
  | .connack _ code => some (.connected code.toNat)
  | .publish p =>
    if Reaches p then some (.message p.topic p.message) else some (.subscribed .invalidArgument)
  | .suback _ code => some (.subscribed (if code = 0x80 then .successfull else .publishDecodeError))
  | .pingresp | .other _ _ => none

def taken : ServerPacket → Bool
  | .connack _ _ | .suback _ _ | .pingresp => true
  | .publish p => Reaches p
  | .other _ _ => false

def after (state : MQTTState) : ServerPacket → MQTTState
  | .connack _ code => if code = 0 then .connected else .disconnected
  | .publish _ | .suback _ _ | .pingresp | .other _ _ => state

end ServerPacket

abbrev Served := { p : ServerPacket // p.WellFormed }

def Served.frame (p : Served) : Frame :=
  .ofBody p.1.firstByte p.1.body p.2.fits

section Reaction

variable {s : MQTTSharedData} {input : Mem}

structure Reacts (s : MQTTSharedData) (input : Mem) (p : ServerPacket) : Prop where
  ret : (reaction s input).ret = p.taken
  told : (reaction s input).callbacks.filterMap (Event.notice input) = p.notice.toList
  state : (reaction s input).state = p.after s.state

theorem scan_of_wire {first : UInt8} {body : List UInt8} (fits : body.length < 268435456)
    (spells : Spells input 0 (first :: (Base128.digits body.length ++ body))) :
    ∃ next, Base128.scan input 1 4 = some (body.length, next) ∧ input 0 = first ∧
      Spells input next body ∧ next = (Base128.digits body.length).length + 1 := by
  obtain ⟨here, behind⟩ := (spells_cons _ _ _ _).mp spells
  obtain ⟨length, behind⟩ := (spells_append _ _ _ _).mp behind
  rw [Nat.zero_add, Nat.add_comm 1] at behind
  refine ⟨_, ?_, here, behind, rfl⟩
  rw [Base128.scan_of_spells length (length_digits_le_four fits), Nat.zero_add, Nat.add_comm]

theorem decodePublish_of_empty {p : PublishPacket} (short : p.topic.length < 65536) {next : Nat}
    (spells : Spells input next p.body) (empty : ¬ ServerPacket.Reaches p) :
    decodePublish input next p.body.length p.qos = none := by
  have size := p.length_body
  have identifier : p.identifierBytes.length = identifierSize p.qos := p.length_identifierBytes
  rw [identifier] at size
  simp only [PublishPacket.body, field, spells_append] at spells
  rw [decodePublish_eq, word_of_spells spells.1.1 short, if_neg]
  intro accepted
  exact empty ⟨accepted.1, by omega⟩

theorem publish_reacts {p : PublishPacket} (valid : p.qos ≠ .qosInvalid) (short : p.topic.length < 65536)
    (fits : p.body.length < 268435456) (spells : Spells input 0 p.wire) (set : s.subscribeCbFptr ≠ none) :
    Reacts s input (.publish p) := by
  by_cases reaches : ServerPacket.Reaches p
  · obtain ⟨t, m, parsed, topicAt, messageAt⟩ := p.parsed valid reaches.1 short reaches.2 fits spells 0 set
    obtain ⟨r, same, ret, events, shared⟩ := shows_reaction s input 0
    cases parsed.symm.trans same
    refine ⟨?_, ?_, ?_⟩
    · rw [ServerPacket.taken, decide_eq_true reaches]
      exact ret.mp rfl
    · rw [← events, ServerPacket.notice, if_pos reaches]
      simp only [List.filterMap_cons, List.filterMap_nil, Event.notice, topicAt.slice_eq,
        messageAt.slice_eq]
      rfl
    · exact congrArg MQTTSharedData.state (Option.some.inj shared).symm
  · obtain ⟨next, scanned, first, behind, -⟩ := scan_of_wire fits spells
    have flags : FlagsAndType.ofByte (input 0) = ⟨p.retain, p.dup, p.qos, .publish⟩ := by
      rw [first, FlagsAndType.ofByte_toByte]
    have refused := decodePublish_of_empty short behind reaches
    have parses : Parses (.ofByte (input 0)) := by
      rw [flags]
      exact ⟨valid, by simp⟩
    have reacts : reaction s input = ⟨false,
        callback s.subscribeCbFptr (.subscribeCb .invalidArgument none 0 none 0), s.state⟩ := by
      simp only [reaction_of_parses scanned parses, reactionTo, flags, refused]
    rw [callback_of_set set] at reacts
    refine ⟨?_, ?_, ?_⟩
    · rw [reacts, ServerPacket.taken, decide_eq_false reaches]
    · rw [reacts, ServerPacket.notice, if_neg reaches]
      rfl
    · rw [reacts]
      rfl

theorem Served.reacts (p : Served) (spells : Spells input 0 p.frame.bytes)
    (connectedCb : s.connectedCbFptr ≠ none) (subscribeCb : s.subscribeCbFptr ≠ none) :
    Reacts s input p.1 := by
  obtain ⟨p, wellFormed⟩ := p
  have fits := wellFormed.fits
  obtain ⟨next, scanned, first, behind, after⟩ := scan_of_wire fits spells
  have reacts {f : FlagsAndType} (flags : FlagsAndType.ofByte p.firstByte = f) (parses : Parses f) :
      FlagsAndType.ofByte (input 0) = f ∧
        reaction s input = reactionTo s input p.body.length next := by
    have here : FlagsAndType.ofByte (input 0) = f := by rw [first, flags]
    exact ⟨here, reaction_of_parses scanned (by rwa [here])⟩
  cases p with
  | publish p =>
    obtain ⟨plain, short, fits⟩ := wellFormed
    refine publish_reacts (by simp [plain.2]) short fits ?_ subscribeCb
    have byte := FlagsAndType.Plain.toStandardByte (f := ⟨p.retain, p.dup, p.qos, .publish⟩) plain
    rw [Served.frame, Frame.ofBody, ServerPacket.firstByte, byte] at spells
    exact spells
  | connack sessionPresent code =>
    obtain ⟨-, second, -⟩ := behind
    have byte : FlagsAndType.ofByte 0x20 = ⟨false, false, .qos0, .connack⟩ := by decide
    obtain ⟨flags, reacts⟩ := reacts byte (by decide)
    simp only [reactionTo, flags, second, callback_of_set connectedCb] at reacts
    exact ⟨by rw [reacts]; rfl, by rw [reacts]; rfl, by rw [reacts]; rfl⟩
  | suback identifier code =>
    have third : input 4 = code := by
      obtain ⟨-, third⟩ := (spells_append _ _ _ _).mp behind
      have three : (ServerPacket.suback identifier code).body.length = 3 := rfl
      rw [after, three, Base128.digits_of_lt (by decide)] at third
      exact third.1
    have byte : FlagsAndType.ofByte 0x90 = ⟨false, false, .qos0, .suback⟩ := by decide
    obtain ⟨flags, reacts⟩ := reacts byte (by decide)
    simp only [reactionTo, flags, third, callback_of_set subscribeCb] at reacts
    refine ⟨?_, by rw [reacts]; rfl, by rw [reacts]; rfl⟩
    rw [reacts]
    exact decide_eq_true (.inl subscribeCb)
  | pingresp =>
    have byte : FlagsAndType.ofByte 0xD0 = ⟨false, false, .qos0, .pingresp⟩ := by decide
    obtain ⟨flags, reacts⟩ := reacts byte (by decide)
    simp only [reactionTo, flags] at reacts
    exact ⟨by rw [reacts]; rfl, by rw [reacts]; rfl, by rw [reacts]; rfl⟩
  | other first' body =>
    have reacts : reaction s input = .none s := reaction_of_ignored (by
      rw [first]
      exact fun parses => wellFormed.1 parses.2)
    exact ⟨by rw [reacts]; rfl, by rw [reacts]; rfl, by rw [reacts]; rfl⟩

end Reaction

def notices : ApiCall → Answer → List Notice
  | .receive (some input) _, a => a.events.filterMap (Event.notice input)
  | _, _ => []

section Runs

variable {s : MQTTSharedData}

theorem Served.received (p : Served) (env : Env) {call : ApiCall} (hands : call.HandsOver p.frame.bytes)
    (connectedCb : s.connectedCbFptr ≠ none) (subscribeCb : s.subscribeCbFptr ≠ none) :
    ∃ a s', api (some s) (env, call) = .ok (a, some s') ∧ a.ret = p.1.taken ∧
      notices call a = p.1.notice.toList ∧ s'.state = p.1.after s.state ∧
      s'.connectedCbFptr = s.connectedCbFptr ∧ s'.subscribeCbFptr = s.subscribeCbFptr := by
  obtain ⟨input, spells, rfl⟩ := hands
  have reacts := p.reacts spells connectedCb subscribeCb
  exact ⟨_, _, mqttReceive_eq env input _ s, reacts.ret, reacts.told, reacts.state, rfl, rfl⟩

theorem received_all {packets : List Served} {calls : List (Env × ApiCall)}
    (hands : List.Forall₂ (fun p c => c.2.HandsOver (Served.frame p).bytes) packets calls)
    (connectedCb : s.connectedCbFptr ≠ none) (subscribeCb : s.subscribeCbFptr ≠ none) :
    ∃ answers s', Machine.Runs api (some s) calls answers (some s') ∧
      answers.map (·.ret) = packets.map (·.1.taken) ∧
      (calls.zip answers).flatMap (fun c => notices c.1.2 c.2) = packets.filterMap (·.1.notice) ∧
      s'.state = packets.foldl (fun state p => p.1.after state) s.state := by
  induction hands generalizing s with
  | nil => exact ⟨[], s, .nil, rfl, rfl, rfl⟩
  | @cons p c packets calls first rest ih =>
    obtain ⟨a, s₁, one, ret, told, state, connected, subscribe⟩ :=
      p.received c.1 first connectedCb subscribeCb
    obtain ⟨answers, s', run, rets, later, last⟩ := ih (s := s₁) (by rwa [connected]) (by rwa [subscribe])
    refine ⟨a :: answers, s', .cons one run, ?_, ?_, ?_⟩
    · rw [List.map_cons, List.map_cons, ret, rets]
    · rw [List.zip_cons_cons, List.flatMap_cons, later, List.filterMap_cons]
      simp only [told]
      cases p.1.notice <;> rfl
    · rw [last, List.foldl_cons, state]

end Runs

/-- What a server sends is told to the application of a client that receives in step with the
packets: one notice for each packet that has one, in order and with its content.  The state is
what the last CONNACK says. -/
theorem served_told {packets : List Served} {thread : Receiver} {sizes : Nat → Nat}
    (inStep : InStep thread.readsMore sizes 0 (packets.map Served.frame)) {receives : List (Env × ApiCall)}
    (handed : List.Forall₂ (fun data c => ApiCall.HandsOver (Prod.snd c) data)
      (receiveLoop thread sizes 0 (Frame.stream (packets.map Served.frame))) receives)
    {s : MQTTSharedData} (connectedCb : s.connectedCbFptr ≠ none)
    (subscribeCb : s.subscribeCbFptr ≠ none) :
    ∃ answers s', Machine.Runs api (some s) receives answers (some s') ∧
      answers.map (·.ret) = packets.map (·.1.taken) ∧
      (receives.zip answers).flatMap (fun c => notices c.1.2 c.2) = packets.filterMap (·.1.notice) ∧
      s'.state = packets.foldl (fun state p => p.1.after state) s.state := by
  rw [(receiveLoop_iff thread sizes 0 _).mpr inStep, List.map_map, List.forall₂_map_left_iff] at handed
  exact received_all handed connectedCb subscribeCb

def Served.sample : List Served :=
  [⟨.connack false 0, trivial⟩, ⟨.suback 1 0, trivial⟩]

theorem served_told_sample : ∃ receives answers s',
    Machine.Runs api (some { MQTTSharedData.sample with connectedCbFptr := some 1, subscribeCbFptr := some 2 })
      receives answers (some s') ∧ answers.map (·.ret) = [true, true] ∧
    (receives.zip answers).flatMap (fun c => notices c.1.2 c.2) =
      [.connected 0, .subscribed .publishDecodeError] ∧ s'.state = .connected := by
  have inStep : InStep Receiver.socketReceiveThread.readsMore (fun pos => if pos = 0 then 4 else 5) 0
      (Served.sample.map Served.frame) := by
    refine ⟨?_, ?_, trivial⟩ <;>
    exact ⟨by decide +kernel, by decide +kernel, by decide +kernel, by decide +kernel⟩
  have handed := (receiveLoop_iff .socketReceiveThread _ 0 _).mpr inStep
  have spells (p : Served) : ApiCall.HandsOver
      (Prod.snd (Env.prompt, .receive (some (ofList p.frame.bytes 0)) p.frame.bytes.length)) p.frame.bytes :=
    ⟨_, spells_ofList _ _, rfl⟩
  refine ⟨Served.sample.map fun p => (.prompt, .receive (some (ofList p.frame.bytes 0)) p.frame.bytes.length),
    served_told inStep ?_ (Option.some_ne_none 1) (Option.some_ne_none 2)⟩
  rw [handed]
  exact .cons (spells _) (.cons (spells _) .nil)

end RojalMQTT
