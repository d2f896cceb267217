import Mathlib.Data.List.ReduceOption
import RojalMQTT.IdentifierLaws
import RojalMQTT.ConnectFormatLaws
import RojalMQTT.ClientPacket

/-! What a run of the API transmits, and what is read back from it. -/

namespace RojalMQTT

open Library

theorem ClientPacket.packetType_wire (p : ClientPacket) :
    packetType p.wire = some p.flags.messageType := by
  have type : (FlagsAndType.ofStandardByte p.flags.toStandardByte).messageType =
      p.flags.messageType := by rw [FlagsAndType.ofStandardByte_toStandardByte]
  exact congrArg some type

def MQTTPublish.packet (p : MQTTPublish) (topic message : Mem) (identifier : UInt16) :
    PublishPacket where
  retain := p.flags.retain
  dup := p.flags.dup
  qos := p.flags.qos
  topic := slice topic 0 p.topicLength.toNat
  identifier := if 0 < p.flags.qos.toBits then identifier else 0
  message := slice message 0 p.messageBufferSize.toNat

def MQTTSubscribe.packet (p : MQTTSubscribe) (topic : Mem) (identifier : UInt16) :
    SubscribePacket where
  identifier
  filter := slice topic 0 p.topicLength.toNat
  qos := p.qos

inductive MQTTAction.AsksFor : MQTTAction → ClientPacket → Prop
  | connect (id : c.clientId = some clientId) :
    AsksFor (.connect (some (some c))) (.connect (connectPacket c clientId))
  | publish (onTopic : p.topicPtr = some topic) (carried : p.messageBufferPtr = some message) :
    AsksFor (.publish (some (some p))) (.publish (p.packet topic message identifier))
  | subscribe (onTopic : p.topicPtr = some topic) :
    AsksFor (.subscribe (some (some p))) (.subscribe (p.packet topic identifier))
  | keepalive (elapsed : UInt32) : AsksFor (.keepalive (some elapsed)) .pingreq
  | disconnect : AsksFor .disconnect .disconnect

/-- The encoder spells the packet of the action as MQTT has it: a CONNECT with a 16-bit
size, a PUBLISH with a 28-bit one, of QoS 0 and without flags, and a SUBSCRIBE of QoS 0. -/
def MQTTAction.Plain : MQTTAction → Prop
  | .connect (some (some c)) => connectSize c ≤ 65535
  | .publish (some (some p)) => p.flags.Plain ∧ p.flags.retain = false ∧
    publishBodySize .qos0 p.topicLength p.messageBufferSize < 268435456
  | .subscribe (some (some p)) => p.qos = .qos0
  | _ => True

instance : DecidablePred MQTTAction.Plain
  | .connect (some (some c)) => inferInstanceAs (Decidable (connectSize c ≤ 65535))
  | .publish (some (some _)) => inferInstanceAs (Decidable (_ ∧ _ ∧ _))
  | .subscribe (some (some p)) => inferInstanceAs (Decidable (p.qos = .qos0))
  | .disconnect | .connect none | .connect (some none) | .publish none | .publish (some none)
  | .subscribe none | .subscribe (some none) | .keepalive _ | .init _ | .parseInputStream _
  | .other => .isTrue trivial

structure MQTTAction.Carried (action : MQTTAction) (data : List UInt8) (packet : ClientPacket) :
    Prop where
  asked : action.AsksFor packet
  wire : data = packet.wire
  wellFormed : packet.WellFormed
  fits : packet.body.length < 268435456

theorem MQTTAction.Carried.length (h : MQTTAction.Carried action data packet) :
    0 < data.length ∧ data.length < 2 ^ 31 := by
  have digits := length_digits_le_four h.fits
  have fits := h.fits
  rw [h.wire, ClientPacket.length_wire]
  omega

theorem FormsConnect.carried {connectPtr : Ptr MQTTConnect} (h : FormsConnect env s connectPtr data)
    (plain : (MQTTAction.connect (some connectPtr)).Plain) :
    ∃ packet, (MQTTAction.connect (some connectPtr)).Carried data packet := by
  obtain ⟨buffer, c, p, st, -, rfl, fill, rfl⟩ := h
  obtain ⟨_, filled, -⟩ := parametersFilled_of_formed fill
  obtain ⟨clientId, id⟩ := Option.ne_none_iff_exists'.mp filled.clientId
  have short := short_of_connectSize plain
  have fits : (connectPacket c clientId).wire.length ≤ 65535 := by
    rw [← connectBytes_eq_wire id short, length_connectBytes_eq short]
    exact plain
  refine ⟨_, .connect id, mqttConnectFill_wire id short fits fill, ?_, ?_⟩
  · intro l mem
    rw [fields_connectPacket id] at mem
    obtain ⟨s, hs, rfl⟩ := List.mem_map.mp mem
    exact short s hs
  · rw [ConnectPacket.wire, List.length_append] at fits
    exact Nat.lt_of_le_of_lt (Nat.le_trans (Nat.le_add_left _ _) fits) (by decide)

theorem MQTTPublish.wire_packet {p : MQTTPublish} (plain : p.flags.Plain)
    (unretained : p.flags.retain = false) (topic message : Mem) (identifier : UInt16) :
    (ClientPacket.publish (p.packet topic message identifier)).wire = (publishPacket p.flags.retain
      p.flags.qos false topic p.topicLength identifier message p.messageBufferSize).wire := by
  have body : (p.packet topic message identifier).body = (publishPacket p.flags.retain p.flags.qos
      false topic p.topicLength identifier message p.messageBufferSize).body := by
    simp only [PublishPacket.body, PublishPacket.identifierBytes, packet, publishPacket, plain.2]
    rfl
  have first : (ClientPacket.publish (p.packet topic message identifier)).flags =
      ⟨p.flags.retain, p.flags.dup, p.flags.qos, .publish⟩ := rfl
  have agree :=
    FlagsAndType.Plain.toStandardByte (f := ⟨p.flags.retain, p.flags.dup, p.flags.qos, .publish⟩) plain
  rw [ClientPacket.wire, first, agree, ClientPacket.body, body, unretained, plain.1]
  rfl

theorem publishData_eq_wire {retain dup : Bool} {qos : MQTTQoSLevel} {topicSize : UInt16}
    {messageSize : UInt32} (topic message : Mem) (identifier : UInt16)
    (fits : publishBodySize qos topicSize messageSize < 268435456) :
    publishData retain qos dup topic topicSize identifier message messageSize =
      (publishPacket retain qos dup topic topicSize identifier message messageSize).wire := by
  have small : publishBodySize qos topicSize messageSize < 2 ^ 32 := by omega
  have length := @length_publishBytes_of_lt retain dup qos topicSize identifier messageSize topic message
    small
  have digits := length_digits_le_four fits
  rw [publishSize] at length
  rw [publishData, u32_of_lt (by omega), List.take_length, publishBytes_eq_wire topic message small]

theorem FormsPublish.carried (h : FormsPublish s p data)
    (plain : (MQTTAction.publish (some (some p))).Plain) :
    ∃ packet, (MQTTAction.publish (some (some p))).Carried data packet := by
  obtain ⟨-, -, topic, message, onTopic, carried, accepted, rfl⟩ := h
  generalize s.mqttPacketCntr.toUInt16 = identifier
  have wellFormed : (p.packet topic message identifier).WellFormed := by
    refine ⟨accepted.header.1, ?_, fun zero => ?_⟩
    · rw [MQTTPublish.packet, length_slice]
      exact p.topicLength.toNat_lt
    · replace zero : p.flags.qos = .qos0 := zero
      rw [MQTTPublish.packet, zero]
      rfl
  obtain ⟨plain, unretained, fits⟩ := plain
  have length : (p.packet topic message identifier).body.length =
      publishBodySize .qos0 p.topicLength p.messageBufferSize := by
    rw [PublishPacket.length_body, PublishPacket.length_identifierBytes]
    simp only [MQTTPublish.packet, length_slice, plain.2]
    rfl
  refine ⟨.publish (p.packet topic message identifier), .publish onTopic carried, ?_,
    wellFormed, ?_⟩
  · rw [MQTTPublish.wire_packet plain unretained]
    exact publishData_eq_wire topic message identifier (by rwa [plain.2])
  · rw [ClientPacket.body, length]
    exact fits

theorem FormsSubscribe.carried (h : FormsSubscribe s p data)
    (plain : (MQTTAction.subscribe (some (some p))).Plain) :
    ∃ packet, (MQTTAction.subscribe (some (some p))).Carried data packet := by
  obtain ⟨-, -, topic, onTopic, -, rfl⟩ := h
  generalize s.mqttPacketCntr.toUInt16 = identifier
  have short := p.topicLength.toNat_lt
  have plain : p.qos = .qos0 := plain
  have length : (p.packet topic identifier).body.length = subscribeRemaining p.qos p.topicLength := by
    rw [plain, subscribeRemaining, identifierSize, SubscribePacket.body]
    simp only [MQTTSubscribe.packet, List.length_append, length_field, length_slice, length_be16,
      List.length_cons, List.length_nil, MQTTQoSLevel.toBits, Nat.lt_irrefl, if_false]
    omega
  refine ⟨.subscribe (p.packet topic identifier), .subscribe onTopic, ?_, ?_, ?_⟩
  · rw [subscribeBytes, ← length]
    rfl
  · change (slice topic 0 p.topicLength.toNat).length < 65536
    rwa [length_slice]
  · have small := identifierSize_le p.qos
    rw [ClientPacket.body, length, subscribeRemaining]
    omega

theorem carried_pingreq (elapsed : UInt32) :
    (MQTTAction.keepalive (some elapsed)).Carried pingreqPacket .pingreq :=
  ⟨.keepalive elapsed, (List.append_nil _).symm, trivial, by decide⟩

theorem carried_disconnect : MQTTAction.disconnect.Carried disconnectPacket .disconnect :=
  ⟨.disconnect, (List.append_nil _).symm, trivial, by decide⟩

def MQTTAction.isRequest : MQTTAction → Bool
  | .disconnect | .connect _ | .publish _ | .subscribe _ => true
  | _ => false

inductive HandsOut (env : Env) (action : MQTTAction) (o : Outcome) : Prop
  | nothing (quiet : ∀ data ret, .out data ret ∉ o.events)
    (fails : action.isRequest = true → o.status ≠ .successfull)
  | packet (carried : action.Carried data packet) (received : Received env.meanwhile events)
    (happened : o.events = .out data (env.ret data) :: events)
    (taken : o.status = .successfull ↔ env.ret data = data.length)

theorem handsOut_nothing {env : Env} {action : MQTTAction} (events : o.events = [])
    (fails : action.isRequest = true → o.status ≠ .successfull) : HandsOut env action o :=
  .nothing (fun data ret mem => by simp [events] at mem) fails

theorem Sends.handsOut {action : MQTTAction} (h : Sends env s data sentOk o s')
    (carried : action.Carried data packet) : HandsOut env action o := by
  obtain ⟨events, received, happened⟩ := h.events_eq
  have taken := h.status_iff
  rw [int32_of_lt carried.length.2] at taken
  exact .packet carried received happened taken

theorem Encoded.handsOut {action : MQTTAction} (h : Encoded env s forms sentOk o g')
    (carried : ∀ data, forms data → ∃ packet, action.Carried data packet) :
    HandsOut env action o := by
  obtain ⟨buffer, -, ⟨-, rfl, -⟩ | ⟨data, s', formed, -, sends⟩⟩ := h
  · exact handsOut_nothing rfl fun _ => by decide
  · obtain ⟨packet, carried⟩ := carried data formed
    exact sends.handsOut carried

theorem connect_handsOut {env : Env} {connectPtr : Ptr MQTTConnect} (idle : s.state = .disconnected)
    (h : actionConnect env (some connectPtr) (some s) = .ok (o, g'))
    (plain : (MQTTAction.connect (some connectPtr)).Plain) :
    HandsOut env (.connect (some connectPtr)) o := by
  obtain ⟨buffer, -, ⟨_, rfl, _⟩ | ⟨data, events, forms, _, received, -, happened, result⟩⟩ :=
    actionConnect_spec idle h
  · exact handsOut_nothing rfl fun _ => by decide
  · obtain ⟨packet, carried⟩ := forms.carried plain
    refine .packet carried received happened ?_
    rcases result with ⟨short, fail, _⟩ | ⟨c, _, all, ok, _⟩
    · rw [fail]
      exact iff_of_false (by decide) short
    · exact iff_of_true ok all

theorem mqtt_handsOut {action : MQTTAction} (h : mqtt (some s) (env, action) = .ok (o, g'))
    (plain : action.Plain) : HandsOut env action o := by
  cases action with
  | init actionPtr =>
    rcases actionPtr with _ | _ | p <;> cases h <;> exact handsOut_nothing rfl fun request => by cases request
  | disconnect =>
    rcases actionDisconnect_cases h with ⟨_, fail, events, _⟩ | ⟨_, _, s', _, sends⟩
    · exact handsOut_nothing events fun _ => fail
    · exact sends.handsOut carried_disconnect
  | connect actionPtr =>
    cases actionPtr with
    | none =>
      cases h
      exact handsOut_nothing rfl fun _ => by decide
    | some connectPtr =>
      by_cases idle : s.state = .disconnected
      · exact connect_handsOut idle h plain
      · rw [mqtt_connect, actionConnect, if_neg idle] at h
        cases h
        exact handsOut_nothing rfl fun _ => by decide
  | publish actionPtr =>
    rcases actionPublish_spec h with ⟨_, rfl, _⟩ | ⟨_, p, rfl, encoded⟩
    · exact handsOut_nothing rfl fun _ => by decide
    · exact encoded.handsOut fun data forms => forms.carried plain
  | subscribe actionPtr =>
    rcases actionSubscribe_spec h with ⟨_, rfl, _⟩ | ⟨_, p, rfl, encoded⟩
    · exact handsOut_nothing rfl fun _ => by decide
    · exact encoded.handsOut fun data forms => forms.carried plain
  | keepalive actionPtr =>
    rcases actionKeepalive_cases h with ⟨events, _, _⟩ | ⟨elapsed, _, rfl, _, _, _, result⟩
    · exact handsOut_nothing events fun request => absurd request Bool.false_ne_true
    · rcases result with ⟨events, _, _⟩ | ⟨_, _, s', _, sends⟩
      · exact handsOut_nothing events fun request => absurd request Bool.false_ne_true
      · exact sends.handsOut (carried_pingreq elapsed)
  | parseInputStream actionPtr =>
    obtain ⟨p, _, received, _⟩ := actionParseInputStream_cases h
    exact .nothing received.not_out fun request => absurd request Bool.false_ne_true
  | other =>
    cases h
    exact handsOut_nothing rfl fun request => absurd request Bool.false_ne_true

theorem mqtt_none_handsOut {action : MQTTAction} (h : mqtt none (env, action) = .ok (o, g')) :
    HandsOut env action o := by
  refine .nothing (fun data ret => mqtt_none_silent h) fun request => ?_
  cases action with
  | disconnect | connect | publish | subscribe =>
    cases h
    decide
  | _ => cases request

theorem api_ret {call : ApiCall} {action : MQTTAction} (h : api g (env, call) = .ok (a, g'))
    (asks : call.asks env = some action) (request : action.isRequest = true)
    (run : mqtt (call.finds env g) (env, action) = .ok (o, g₁)) :
    a.ret = true ↔ o.status = .successfull := by
  have wrapped {g g₁ : Ptr MQTTSharedData} (run : mqtt g (env, action) = .ok (o, g₁))
      (h : (mqtt g (env, action) >>= fun r =>
        .ok (Answer.mk (r.1.status = .successfull) r.1.events, r.2)) = .ok (a, g')) :
      a.ret = true ↔ o.status = .successfull := by
    rw [run] at h
    cases h
    exact decide_eq_true_iff
  cases call with
  | action action' =>
    cases asks
    exact wrapped run h
  | disconnect =>
    cases asks
    exact wrapped run h
  | connect args =>
    obtain ⟨⟨c, shared⟩, checked, same⟩ := Option.map_eq_some_iff.mp asks
    obtain rfl := same
    obtain ⟨o', s', connect, rfl, rfl⟩ := connectCall_run h checked
    rw [ApiCall.finds, checked] at run
    obtain ⟨rfl, rfl⟩ := Prod.mk.inj (Except.ok.inj (connect.symm.trans run))
    obtain ⟨buffer, -, ⟨_, rfl, left⟩ | ⟨_, _, _, _, _, _, _, ⟨_, fail, left⟩ | ⟨_, _, _, ok, left⟩⟩⟩ :=
      actionConnect_spec rfl connect
    · obtain rfl := Option.some.inj left
      simp [MQTTErrorCodes.invalidArgument]
    · obtain rfl := Option.some.inj left
      simp [fail, MQTTErrorCodes.serverUnavailabe]
    · obtain rfl := Option.some.inj left
      simp [ok, MQTTSharedData.connected]
  | publish topic topicSize msg msgSize =>
    obtain ⟨valid, same⟩ := Option.ite_none_right_eq_some.mp asks
    cases same
    simp only [api, mqttPublish, mqttPublishBuf, if_pos valid] at h
    exact wrapped run h
  | publishBuf topic topicSize msg msgSize buffer bufferSize =>
    obtain ⟨valid, same⟩ := Option.ite_none_right_eq_some.mp asks
    cases same
    simp only [api, mqttPublishBuf, if_pos valid] at h
    exact wrapped run h
  | subscribe topic topicSize timeoutInSec =>
    obtain ⟨valid, same⟩ := Option.ite_none_right_eq_some.mp asks
    cases same
    cases g with
    | none =>
      cases run
      cases h
      decide
    | some s =>
      rcases subscribeCall_cases h with ⟨invalid, _⟩ | ⟨_, _, o', s₁, run', rfl, rfl⟩
      · rcases invalid with none | zero
        · exact absurd none valid.1
        · omega
      · obtain ⟨rfl, rfl⟩ := Prod.mk.inj (Except.ok.inj (run'.symm.trans run))
        exact decide_eq_true_iff
  | keepalive durationInMs =>
    cases asks
    cases request
  | receive data amount =>
    obtain ⟨data, rfl, rfl⟩ := Option.map_eq_some_iff.mp asks
    cases request

def Event.transmitted : Event → List UInt8
  | .out data ret => data.take ret.toNat
  | _ => []

def Answer.transmitted (a : Answer) : List UInt8 := a.events.flatMap Event.transmitted

/-- `out_fptr` takes data whole or not at all, if an `int` can count it. -/
def Env.WholeSends (env : Env) : Prop :=
  ∀ data, data.length < 2 ^ 31 → env.ret data ≤ 0 ∨ env.ret data = data.length

theorem transmitted_of_quiet {events : List Event} (quiet : ∀ data ret, .out data ret ∉ events) :
    events.flatMap Event.transmitted = [] := by
  rw [List.flatMap_eq_nil_iff]
  rintro (⟨data, ret⟩ | _ | _ | _) mem
  · exact absurd mem (quiet data ret)
  · rfl
  · rfl
  · rfl

structure Spelled (bytes : List UInt8) (sent : List ClientPacket) : Prop where
  bytes : bytes = sent.flatMap ClientPacket.wire
  found : ∀ p ∈ sent, ClientPacket.reader.Finds ClientPacket.wire p

theorem Spelled.append {bytes bytes' : List UInt8} (h : Spelled bytes sent)
    (h' : Spelled bytes' sent') : Spelled (bytes ++ bytes') (sent ++ sent') := by
  refine ⟨by rw [h.bytes, h'.bytes, List.flatMap_append], fun p mem => ?_⟩
  rcases List.mem_append.mp mem with mem | mem
  · exact h.found p mem
  · exact h'.found p mem

theorem spelled_of_carried {packet : ClientPacket}
    (carried : MQTTAction.Carried action data packet) : Spelled data [packet] := by
  refine ⟨by rw [carried.wire, List.flatMap_singleton], fun p mem => ?_⟩
  obtain rfl := List.mem_singleton.mp mem
  exact ClientPacket.finds carried.wellFormed carried.fits

theorem HandsOut.spelled {env : Env} {action : MQTTAction} (h : HandsOut env action o)
    (whole : env.WholeSends) : ∃ sent : Option ClientPacket,
      Spelled (o.events.flatMap Event.transmitted) sent.toList ∧
        (∀ p ∈ sent, action.AsksFor p) ∧
        (action.isRequest = true → (o.status = .successfull ↔ sent.isSome = true)) := by
  cases h with
  | nothing quiet fails =>
    refine ⟨none, ⟨transmitted_of_quiet quiet, by simp⟩, by simp, fun request => ?_⟩
    exact iff_of_false (fails request) (by simp)
  | @packet data packet events carried received happened taken =>
    have rest := transmitted_of_quiet received.not_out
    rw [happened, List.flatMap_cons, rest, List.append_nil, Event.transmitted]
    have length := carried.length
    rcases whole data length.2 with none | all
    · refine ⟨.none, ⟨?_, by simp⟩, by simp, fun _ => iff_of_false (fun ok => ?_) (by simp)⟩
      · rw [Int.toNat_of_nonpos none]
        rfl
      · have := taken.mp ok
        omega
    · rw [all, Int.toNat_natCast, List.take_length]
      exact ⟨some packet, spelled_of_carried carried, by simp [carried.asked],
        fun _ => iff_of_true (taken.mpr all) rfl⟩

theorem HandsOut.sent {env : Env} {action : MQTTAction} (h : HandsOut env action o)
    (request : action.isRequest = true) (ok : o.status = .successfull) :
    ∃ packet, action.AsksFor packet ∧ Spelled (o.events.flatMap Event.transmitted) [packet] := by
  cases h with
  | nothing quiet fails => exact absurd ok (fails request)
  | @packet data packet events carried received happened taken =>
    have rest := transmitted_of_quiet received.not_out
    rw [happened, List.flatMap_cons, rest, List.append_nil, Event.transmitted, taken.mp ok,
      Int.toNat_natCast, List.take_length]
    exact ⟨packet, carried.asked, spelled_of_carried carried⟩

theorem api_handsOut {env : Env} {call : ApiCall} (h : api g (env, call) = .ok (a, g'))
    (plain : ∀ action ∈ call.asks env, action.Plain) :
    (call.asks env = none ∧ a.events = []) ∨ ∃ action o, call.asks env = some action ∧
      HandsOut env action o ∧ a.events = o.events ∧
      (action.isRequest = true → (a.ret = true ↔ o.status = .successfull)) := by
  rcases api_acts h with ⟨asks, events, -⟩ | ⟨action, asks, o, g₁, run, events, -⟩
  · exact .inl ⟨asks, events⟩
  · refine .inr ⟨action, o, asks, ?_, events, fun request => api_ret h asks request run⟩
    have plain := plain action asks
    generalize call.finds env g = found at run
    cases found with
    | none => exact mqtt_none_handsOut run
    | some s => exact mqtt_handsOut run plain

section Handed

def Event.handed : Event → List UInt8
  | .out data _ => data
  | _ => []

def Event.isOut : Event → Bool
  | .out _ _ => true
  | _ => false

structure Handed (events : List Event) (packets : List ClientPacket) : Prop where
  data : (events.filter Event.isOut).map Event.handed = packets.map ClientPacket.wire
  found : ∀ p ∈ packets, ClientPacket.reader.Finds ClientPacket.wire p

theorem filter_isOut_of_quiet {events : List Event} (quiet : ∀ data ret, .out data ret ∉ events) :
    events.filter Event.isOut = [] := by
  rw [List.filter_eq_nil_iff]
  rintro (⟨data, ret⟩ | _ | _ | _) mem
  · exact absurd mem (quiet data ret)
  · exact Bool.false_ne_true
  · exact Bool.false_ne_true
  · exact Bool.false_ne_true

theorem Handed.of_quiet {events : List Event} (quiet : ∀ data ret, .out data ret ∉ events) :
    Handed events [] :=
  ⟨by rw [filter_isOut_of_quiet quiet]; rfl, by simp⟩

theorem Handed.quiet {events : List Event} (h : Handed events []) (data : List UInt8) (ret : Int) :
    .out data ret ∉ events := by
  intro mem
  have none := List.map_eq_nil_iff.mp h.data
  exact List.filter_eq_nil_iff.mp none _ mem rfl

theorem Handed.append {events events' : List Event} (h : Handed events packets)
    (h' : Handed events' packets') : Handed (events ++ events') (packets ++ packets') := by
  refine ⟨?_, fun p mem => ?_⟩
  · rw [List.filter_append, List.map_append, List.map_append, h.data, h'.data]
  · rcases List.mem_append.mp mem with mem | mem
    · exact h.found p mem
    · exact h'.found p mem

theorem Handed.readAll {events : List Event} (h : Handed events packets) :
    ClientPacket.reader.readAll (events.flatMap Event.handed) = some packets := by
  have bytes : events.flatMap Event.handed = packets.flatMap ClientPacket.wire := by
    rw [List.flatMap_def (l := packets), ← h.data, ← List.flatMap_def]
    clear h
    induction events with
    | nil => rfl
    | cons e events ih =>
      cases e with
      | out data ret =>
        rw [List.flatMap_cons, List.filter_cons_of_pos rfl, List.flatMap_cons, ih]
      | _ => exact ih
  rw [bytes, Reader.readAll_flatMap h.found]

def Asked (call : Env × ApiCall) (packet : ClientPacket) : Prop :=
  ∃ action, call.2.asks call.1 = some action ∧ action.AsksFor packet

theorem api_hands {call : Env × ApiCall} (h : api g call = .ok (a, g'))
    (plain : ∀ action ∈ call.2.asks call.1, action.Plain) :
    ∃ handed : Option ClientPacket, (∀ packet ∈ handed, Asked call packet) ∧
      Handed a.events handed.toList := by
  rcases api_handsOut h plain with ⟨-, silent⟩ | ⟨action, o, asks, handsOut, happened, -⟩
  · rw [silent]
    exact ⟨none, by simp, .of_quiet (by simp)⟩
  · rw [happened]
    cases handsOut with
    | nothing quiet fails => exact ⟨none, by simp, .of_quiet quiet⟩
    | @packet data packet events carried received eq taken =>
      refine ⟨some packet, fun p mem => ?_, ?_, (spelled_of_carried carried).found⟩
      · obtain rfl := Option.mem_some.mp mem
        exact ⟨action, asks, carried.asked⟩
      · rw [eq, List.filter_cons_of_pos rfl, filter_isOut_of_quiet received.not_out, List.map_singleton,
          Event.handed, carried.wire]
        rfl

theorem run_hands {P : ClientPacket → Prop} {calls : List (Env × ApiCall)} {answers : List Answer}
    (run : Machine.Runs api g calls answers g')
    (each : ∀ call ∈ calls, ∀ g a g', api g call = .ok (a, g') →
      ∃ packets, Handed a.events packets ∧ ∀ p ∈ packets, P p) :
    ∃ packets, Handed (answers.flatMap (·.events)) packets ∧ ∀ p ∈ packets, P p := by
  induction run with
  | nil => exact ⟨[], .of_quiet (by simp), by simp⟩
  | cons one rest ih =>
    obtain ⟨packets, here, first⟩ := each _ List.mem_cons_self _ _ _ one
    obtain ⟨later, there, all⟩ := ih fun call mem => each call (List.mem_cons_of_mem _ mem)
    refine ⟨packets ++ later, ?_, fun p mem => ?_⟩
    · rw [List.flatMap_cons]
      exact here.append there
    · rcases List.mem_append.mp mem with mem | mem
      · exact first p mem
      · exact all p mem

def PublishPacket.plain (topic message : List UInt8) : PublishPacket where
  retain := false
  dup := false
  qos := .qos0
  topic
  identifier := 0
  message

section Plain

variable {env : Env} {topic msg : Mem} {topicSize msgSize : Nat} {buffer : Ptr Mem} {bufferSize : UInt32}
  {onTopic message : List UInt8}

theorem packet_publishParameters (identifier : UInt16) (spelled : Spells topic 0 onTopic)
    (carried : Spells msg 0 message) (hasTopic : (UInt16.ofNat topicSize).toNat = onTopic.length)
    (hasMessage : (UInt32.ofNat msgSize).toNat = message.length) :
    (publishParameters env (some topic) topicSize (some msg) msgSize buffer bufferSize).packet topic msg
      identifier = .plain onTopic message := by
  simp only [MQTTPublish.packet, publishParameters, PublishPacket.plain, hasTopic, hasMessage,
    spelled.slice_eq, carried.slice_eq]
  rfl

theorem asked_publishBuf (spelled : Spells topic 0 onTopic) (carried : Spells msg 0 message)
    (hasTopic : (UInt16.ofNat topicSize).toNat = onTopic.length)
    (hasMessage : (UInt32.ofNat msgSize).toNat = message.length)
    (asked : Asked (env, .publishBuf (some topic) topicSize (some msg) msgSize buffer bufferSize) packet) :
    packet = .publish (.plain onTopic message) := by
  obtain ⟨action, asks, asked⟩ := asked
  obtain rfl := Option.some.inj asks
  obtain ⟨found, found'⟩ | ⟨found, found'⟩ := asked
  cases found
  cases found'
  rw [packet_publishParameters _ spelled carried hasTopic hasMessage]

end Plain

end Handed

end RojalMQTT
