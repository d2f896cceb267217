import RojalMQTT.ActionsLaws
import RojalMQTT.PublishLaws

/-! The packets that ACTION_PUBLISH and ACTION_SUBSCRIBE form, and with which shared
data they form one. -/

namespace RojalMQTT

open Library

def transmitBuffer (s : MQTTSharedData) (p : MQTTPublish) : Ptr Mem :=
  if p.outputBufferPtr ≠ none ∧ 0 < p.outputBufferSize.toNat then p.outputBufferPtr else s.buffer

def transmitSize (s : MQTTSharedData) (p : MQTTPublish) : UInt32 :=
  if p.outputBufferPtr ≠ none ∧ 0 < p.outputBufferSize.toNat then p.outputBufferSize
  else UInt32.ofNat s.bufferSize

/-- The data that an accepted call of `encode_publish` hands out: the packet, cut to
its length in 32 bits. -/
def publishData (retain : Bool) (qos : MQTTQoSLevel) (dup : Bool) (topic : Mem)
    (topicSize packetIdentifier : UInt16) (message : Mem) (messageSize : UInt32) : List UInt8 :=
  let packet := publishBytes retain qos dup topic topicSize packetIdentifier message messageSize
  packet.take (u32 packet.length)

def FormsPublish (s : MQTTSharedData) (p : MQTTPublish) (data : List UInt8) : Prop :=
  s.outFptr ≠ none ∧ transmitBuffer s p ≠ none ∧ ∃ topic message, p.topicPtr = some topic ∧
    p.messageBufferPtr = some message ∧
    PublishAccepted (transmitSize s p) p.flags.qos p.topicPtr p.topicLength p.messageBufferPtr
      p.messageBufferSize ∧
    data = publishData p.flags.retain p.flags.qos false topic p.topicLength
      s.mqttPacketCntr.toUInt16 message p.messageBufferSize

def FormsSubscribe (s : MQTTSharedData) (p : MQTTSubscribe) (data : List UInt8) : Prop :=
  s.outFptr ≠ none ∧ s.buffer ≠ none ∧ ∃ topic, p.topicPtr = some topic ∧
    SubscribeAccepted (UInt32.ofNat s.bufferSize) p.qos p.topicPtr p.topicLength ∧
    data = subscribeBytes p.qos topic p.topicLength s.mqttPacketCntr.toUInt16

def Sent.Hands (sent : Sent) (ret : List UInt8 → Int) (forms : List UInt8 → Prop) : Prop :=
  ((∀ data, ¬ forms data) ∧ sent.ret = false ∧ sent.calls = []) ∨
    ∃ data, forms data ∧ sent.ret = decide (ret data = int32 data.length) ∧ sent.calls = [data]

theorem publishData_eq {retain dup : Bool} {qos : MQTTQoSLevel} {topicSize : UInt16}
    {messageSize : UInt32} (topic message : Mem) (packetIdentifier : UInt16)
    (h : EncodesHeader qos .publish (publishRemaining qos topicSize messageSize)) :
    publishData retain qos dup topic topicSize packetIdentifier message messageSize =
      fixedHeaderBytes retain qos dup .publish (publishRemaining qos topicSize messageSize) ++
        (field (slice topic 0 topicSize.toNat) ++
          ((if 0 < qos.toBits then be16 packetIdentifier.toNat else []) ++
            slice message 0 messageSize.toNat)).take
          (publishRemaining qos topicSize messageSize) := by
  have digits := length_digits_le_five h.2.2
  have max : mqttMaxMessageSize = 2147483647 := rfl
  have limit := h.2.2
  have size : u32 (publishBytes retain qos dup topic topicSize packetIdentifier message
      messageSize).length = (fixedHeaderBytes retain qos dup .publish
        (publishRemaining qos topicSize messageSize)).length +
          publishRemaining qos topicSize messageSize := by
    rw [length_publishBytes, publishHeaderSize, length_fixedHeaderBytes]
    rw [publishRemaining, u32] at limit digits ⊢
    rw [u32]
    omega
  rw [publishData, size, publishBytes, List.take_append, List.take_of_length_le (by omega),
    Nat.add_sub_cancel_left]

def FlagsSurvive (retain : Bool) (qos : MQTTQoSLevel) (dup : Bool) (data : List UInt8) : Prop :=
  ∀ input, Spells input 0 data →
    (decodeFixedHeader input).messageType = .publish ∧ (decodeFixedHeader input).retain = retain ∧
      (decodeFixedHeader input).dup = dup ∧ (decodeFixedHeader input).qos = qos

theorem flagsSurvive_publishData_iff {retain dup : Bool} {qos : MQTTQoSLevel} {topicSize : UInt16}
    {messageSize : UInt32} (topic message : Mem) (packetIdentifier : UInt16)
    (h : EncodesHeader qos .publish (publishRemaining qos topicSize messageSize)) :
    FlagsSurvive retain qos dup
        (publishData retain qos dup topic topicSize packetIdentifier message messageSize) ↔
      retain = dup ∧ publishRemaining qos topicSize messageSize < 268435456 := by
  rw [publishData_eq topic message packetIdentifier h]
  by_cases small : publishRemaining qos topicSize messageSize < 268435456
  · have decoded {input : Mem} (spells : Spells input 0 (fixedHeaderBytes retain qos dup .publish
        (publishRemaining qos topicSize messageSize))) :=
      decodeFixedHeader_of_spells spells h.1 nofun small
    simp only [small, and_true]
    constructor
    · intro survive
      have found := survive _ (spells_ofList _ 0)
      rw [decoded ((spells_append _ _ _ _).mp (spells_ofList _ 0)).1] at found
      exact found.2.2.1
    · rintro rfl input spells
      rw [decoded ((spells_append _ _ _ _).mp spells).1]
      exact ⟨rfl, rfl, rfl, rfl⟩
  · refine iff_of_false (fun survive => ?_) (fun both => small both.2)
    have spells := ((spells_append _ _ _ _).mp (spells_ofList (fixedHeaderBytes retain qos dup
      .publish (publishRemaining qos topicSize messageSize) ++ (field (slice topic 0 topicSize.toNat)
        ++ ((if 0 < qos.toBits then be16 packetIdentifier.toNat else []) ++
          slice message 0 messageSize.toNat)).take (publishRemaining qos topicSize messageSize)) 0)).1
    have five : 3 + 1 < (Base128.digits (publishRemaining qos topicSize messageSize)).length := by
      rw [← Nat.not_le, Base128.length_digits_le_iff]
      omega
    have unread := Base128.scan_of_spells_long ((spells_cons _ _ _ _).mp spells).2 five
    have found := (survive _ (spells_ofList _ 0)).1
    rw [decodeFixedHeader_unread unread] at found
    cases found

theorem handOut_output {outFptr : Ptr (List UInt8 → Int)} {output : Buffer UInt8} {size : Nat}
    (h : handOut outFptr output size = .ok sent) : sent.output ≠ none := by
  cases outFptr with
  | none => cases h
  | some ret =>
    cases h
    exact Option.some_ne_none _

theorem encodePublish_output {outFptr : Ptr (List UInt8 → Int)} {output : Ptr (Buffer UInt8)}
    {outputSize : UInt32} {retain dup : Bool} {qos : MQTTQoSLevel} {topic message : Ptr Mem}
    {topicSize packetIdentifier : UInt16} {messageSize : UInt32}
    (h : encodePublish outFptr output outputSize retain qos dup topic topicSize packetIdentifier
      message messageSize = .ok sent) : sent.output = none ↔ output = none := by
  simp only [encodePublish, publishRemaining_eq] at h
  split at h
  · have kept : sent.output ≠ none := by
      split at h
      · split at h
        · exact handOut_output h
        · cases h
          exact Option.some_ne_none _
      · cases h
        exact Option.some_ne_none _
    simp [kept]
  · cases h
    rfl

theorem encodeSubscribe_output {outFptr : Ptr (List UInt8 → Int)} {output : Ptr (Buffer UInt8)}
    {outputSize : UInt32} {topicQos : MQTTQoSLevel} {topic : Ptr Mem}
    {topicSize packetIdentifier : UInt16}
    (h : encodeSubscribe outFptr output outputSize topicQos topic topicSize packetIdentifier =
      .ok sent) : sent.output = none ↔ output = none := by
  simp only [encodeSubscribe, subscribeRemaining_eq] at h
  split at h
  · have kept : sent.output ≠ none := by
      split at h
      · split at h
        · exact handOut_output h
        · cases h
          exact Option.some_ne_none _
      · cases h
        exact Option.some_ne_none _
    simp [kept]
  · cases h
    rfl

theorem Sent.Handed.silent {sent : Sent} (h : sent.Handed none) :
    sent.ret = false ∧ sent.calls = [] := by
  rcases h with silent | ⟨_, _, none, _⟩
  · exact silent
  · cases none

theorem encodePublish_hands {env : Env} {s : MQTTSharedData} {p : MQTTPublish}
    (h : encodePublish (s.outCall env) ((transmitBuffer s p).map .fresh) (transmitSize s p)
      p.flags.retain p.flags.qos false p.topicPtr p.topicLength s.mqttPacketCntr.toUInt16
      p.messageBufferPtr p.messageBufferSize = .ok sent) :
    sent.Hands env.ret (FormsPublish s p) := by
  cases out : s.outFptr with
  | none =>
    rw [MQTTSharedData.outCall, out] at h
    exact .inl ⟨fun _ forms => forms.1 out, (encodePublish_handed h).silent⟩
  | some f =>
    rw [MQTTSharedData.outCall, out, Option.map_some] at h
    cases buffer : transmitBuffer s p with
    | none =>
      rw [buffer] at h
      cases h
      exact .inl ⟨fun _ forms => forms.2.1 buffer, rfl, rfl⟩
    | some mem =>
      rw [buffer, Option.map_some] at h
      by_cases accepted : PublishAccepted (transmitSize s p) p.flags.qos p.topicPtr p.topicLength
          p.messageBufferPtr p.messageBufferSize
      · obtain ⟨topic, onTopic⟩ := Option.ne_none_iff_exists'.mp accepted.topic
        obtain ⟨message, carried⟩ := Option.ne_none_iff_exists'.mp accepted.message
        have packet := accepted
        rw [onTopic, carried] at h packet
        rw [encodePublish_of_accepted packet, handOut, Buffer.read_copy (u32_le _)] at h
        cases h
        refine .inr ⟨_, ⟨by simp [out], by simp [buffer], topic, message, onTopic, carried, accepted,
          rfl⟩, ?_, rfl⟩
        rw [publishData, List.length_take, Nat.min_eq_left (u32_le _)]
      · obtain ⟨output, refused, -⟩ := encodePublish_of_refused (some env.ret) (.fresh mem) p.flags.retain
          false s.mqttPacketCntr.toUInt16 accepted
        rw [refused] at h
        cases h
        refine .inl ⟨?_, rfl, rfl⟩
        rintro _ ⟨_, _, _, _, _, _, accepts, _⟩
        exact accepted accepts

theorem encodeSubscribe_hands {env : Env} {s : MQTTSharedData} {p : MQTTSubscribe}
    (h : encodeSubscribe (s.outCall env) (s.buffer.map .fresh) (UInt32.ofNat s.bufferSize) p.qos
      p.topicPtr p.topicLength s.mqttPacketCntr.toUInt16 = .ok sent) :
    sent.Hands env.ret (FormsSubscribe s p) := by
  cases out : s.outFptr with
  | none =>
    rw [MQTTSharedData.outCall, out] at h
    exact .inl ⟨fun _ forms => forms.1 out, (encodeSubscribe_handed h).silent⟩
  | some f =>
    rw [MQTTSharedData.outCall, out, Option.map_some] at h
    cases buffer : s.buffer with
    | none =>
      rw [buffer] at h
      cases h
      exact .inl ⟨fun _ forms => forms.2.1 buffer, rfl, rfl⟩
    | some mem =>
      rw [buffer, Option.map_some] at h
      by_cases accepted : SubscribeAccepted (UInt32.ofNat s.bufferSize) p.qos p.topicPtr p.topicLength
      · obtain ⟨topic, onTopic⟩ := Option.ne_none_iff_exists'.mp accepted.topic
        have packet := accepted
        rw [onTopic] at h packet
        rw [encodeSubscribe_of_accepted packet, handOut_copy] at h
        cases h
        exact .inr ⟨_, ⟨by simp [out], by simp [buffer], topic, onTopic, accepted, rfl⟩, rfl, rfl⟩
      · obtain ⟨output, refused⟩ := encodeSubscribe_of_refused env.ret (.fresh mem)
          s.mqttPacketCntr.toUInt16 accepted
        rw [refused] at h
        cases h
        refine .inl ⟨?_, rfl, rfl⟩
        rintro _ ⟨_, _, _, _, accepts, _⟩
        exact accepted accepts

def Encoded (env : Env) (s : MQTTSharedData) (forms : List UInt8 → Prop)
    (sentOk : MQTTSharedData → MQTTSharedData) (o : Outcome) (g' : Ptr MQTTSharedData) : Prop :=
  ∃ buffer, (buffer = none ↔ s.buffer = none) ∧
    (((∀ data, ¬ forms data) ∧ o = ⟨.invalidArgument, []⟩ ∧
        g' = some (s.encoded (s.mqttPacketCntr + 1) buffer)) ∨
      ∃ data s', forms data ∧ g' = some s' ∧
        Sends env (s.encoded (s.mqttPacketCntr + 1) buffer) data sentOk o s')

theorem encoded_of_hands {env : Env} {sent : Sent} {s : MQTTSharedData} {forms : List UInt8 → Prop}
    {sentOk : MQTTSharedData → MQTTSharedData} {buffer : Ptr Mem}
    (hands : sent.Hands env.ret forms) (kept : buffer = none ↔ s.buffer = none)
    (h : afterEncoder env sent (s.encoded (s.mqttPacketCntr + 1) buffer) sentOk = .ok (o, g')) :
    Encoded env s forms (fun s => sentOk s.restartTimer) o g' := by
  refine ⟨buffer, kept, ?_⟩
  rcases hands with ⟨nothing, ret, calls⟩ | ⟨data, forms, accepted, calls⟩
  · simp only [afterEncoder, calls, callOut, ok_bind, ret] at h
    cases h
    exact .inl ⟨nothing, rfl, rfl⟩
  · obtain ⟨events, run, received⟩ := callOut_singleton env data
      (s.encoded (s.mqttPacketCntr + 1) buffer)
    right
    simp only [afterEncoder, calls, run, ok_bind, accepted, decide_eq_true_eq] at h
    split at h
    · cases h
      exact ⟨data, _, forms, rfl, .accepted received ‹_›⟩
    · cases h
      exact ⟨data, _, forms, rfl, .refused received ‹_› (by decide)⟩

theorem actionPublish_spec {env : Env} {actionPtr : Ptr (Ptr MQTTPublish)} {s : MQTTSharedData}
    (h : actionPublish env actionPtr (some s) = .ok (o, g')) :
    ((s.state ≠ .connected ∨ actionPtr = none) ∧ o = ⟨.invalidArgument, []⟩ ∧ g' = some s) ∨
      (s.state = .connected ∧ ∃ p, actionPtr = some (some p) ∧
        Encoded env s (FormsPublish s p) MQTTSharedData.restartTimer o g') := by
  cases actionPtr with
  | none =>
    cases h
    exact .inl ⟨.inr rfl, rfl, rfl⟩
  | some publishPtr =>
    simp only [actionPublish] at h
    split at h
    case isFalse idle =>
      cases h
      exact .inl ⟨.inl idle, rfl, rfl⟩
    case isTrue connected =>
      cases publishPtr with
      | none => cases h
      | some p =>
        rw [Ptr.deref_some, ok_bind] at h
        obtain ⟨sent, encoding, h⟩ := bind_eq_ok h
        refine .inr ⟨connected, p, rfl, encoded_of_hands (encodePublish_hands encoding) ?_ h⟩
        have kept := encodePublish_output encoding
        rw [Option.map_eq_none_iff] at kept
        split
        · rfl
        · rw [Option.map_eq_none_iff, kept, if_neg ‹_›]

theorem actionSubscribe_spec {env : Env} {actionPtr : Ptr (Ptr MQTTSubscribe)} {s : MQTTSharedData}
    (h : actionSubscribe env actionPtr (some s) = .ok (o, g')) :
    ((s.state ≠ .connected ∨ actionPtr = none) ∧ o = ⟨.invalidArgument, []⟩ ∧ g' = some s) ∨
      (s.state = .connected ∧ ∃ p, actionPtr = some (some p) ∧
        Encoded env s (FormsSubscribe s p)
          (fun s => { s.restartTimer with subscribeStatus := true }) o g') := by
  cases actionPtr with
  | none =>
    cases h
    exact .inl ⟨.inr rfl, rfl, rfl⟩
  | some subscribePtr =>
    simp only [actionSubscribe] at h
    split at h
    case isFalse idle =>
      cases h
      exact .inl ⟨.inl idle, rfl, rfl⟩
    case isTrue connected =>
      cases subscribePtr with
      | none => cases h
      | some p =>
        rw [Ptr.deref_some, ok_bind] at h
        obtain ⟨sent, encoding, h⟩ := bind_eq_ok h
        refine .inr ⟨connected, p, rfl, encoded_of_hands (encodeSubscribe_hands encoding) ?_ h⟩
        rw [Option.map_eq_none_iff, encodeSubscribe_output encoding, Option.map_eq_none_iff]

def EncoderStep (env : Env) (s : MQTTSharedData) (sentOk : MQTTSharedData → MQTTSharedData)
    (o : Outcome) (g' : Ptr MQTTSharedData) : Prop :=
  ∃ cntr buffer, (o = ⟨.invalidArgument, []⟩ ∧ g' = some (s.encoded cntr buffer)) ∨
    (s.state = .connected ∧ ∃ data s', g' = some s' ∧
      Sends env (s.encoded cntr buffer) data sentOk o s')

theorem Encoded.encoderStep (connected : s.state = .connected)
    (h : Encoded env s forms sentOk o g') : EncoderStep env s sentOk o g' := by
  obtain ⟨buffer, -, ⟨-, silent⟩ | ⟨data, s', -, sent⟩⟩ := h
  · exact ⟨_, buffer, .inl silent⟩
  · exact ⟨_, buffer, .inr ⟨connected, data, s', sent⟩⟩

theorem actionPublish_cases {env : Env} {actionPtr : Ptr (Ptr MQTTPublish)} {s : MQTTSharedData}
    (h : actionPublish env actionPtr (some s) = .ok (o, g')) :
    EncoderStep env s MQTTSharedData.restartTimer o g' := by
  rcases actionPublish_spec h with ⟨-, rfl, rfl⟩ | ⟨connected, p, -, encoded⟩
  · exact ⟨_, _, .inl ⟨rfl, congrArg some (encoded_self s).symm⟩⟩
  · exact encoded.encoderStep connected

theorem actionSubscribe_cases {env : Env} {actionPtr : Ptr (Ptr MQTTSubscribe)}
    {s : MQTTSharedData} (h : actionSubscribe env actionPtr (some s) = .ok (o, g')) :
    EncoderStep env s (fun s => { s.restartTimer with subscribeStatus := true }) o g' := by
  rcases actionSubscribe_spec h with ⟨-, rfl, rfl⟩ | ⟨connected, p, -, encoded⟩
  · exact ⟨_, _, .inl ⟨rfl, congrArg some (encoded_self s).symm⟩⟩
  · exact encoded.encoderStep connected

theorem encodePublish_ok (ret : List UInt8 → Int) (output : Ptr (Buffer UInt8)) (outputSize : UInt32)
    (retain : Bool) (qos : MQTTQoSLevel) (dup : Bool) (topic : Ptr Mem)
    (topicSize packetIdentifier : UInt16) (message : Ptr Mem) (messageSize : UInt32) :
    ∃ sent, encodePublish (some ret) output outputSize retain qos dup topic topicSize
      packetIdentifier message messageSize = .ok sent := by
  cases output with
  | none => exact ⟨_, rfl⟩
  | some output =>
    by_cases accepted : PublishAccepted outputSize qos topic topicSize message messageSize
    · obtain ⟨t, rfl⟩ := Option.ne_none_iff_exists'.mp accepted.topic
      obtain ⟨m, rfl⟩ := Option.ne_none_iff_exists'.mp accepted.message
      exact ⟨_, encodePublish_of_accepted accepted⟩
    · obtain ⟨output', refused, -⟩ := encodePublish_of_refused (some ret) output retain dup
        packetIdentifier accepted
      exact ⟨_, refused⟩

theorem afterEncoder_ok (env : Env) (sent : Sent) (s : MQTTSharedData)
    (sentOk : MQTTSharedData → MQTTSharedData) :
    ∃ o g', afterEncoder env sent s sentOk = .ok (o, g') := by
  obtain ⟨events, inputs, run⟩ := callOut_some env sent.calls s
  simp only [afterEncoder, run, ok_bind]
  split
  · exact ⟨_, _, rfl⟩
  · exact ⟨_, _, rfl⟩

theorem actionPublish_ok (env : Env) {s : MQTTSharedData} (p : MQTTPublish) (out : s.outFptr ≠ none) :
    ∃ o g', actionPublish env (some (some p)) (some s) = .ok (o, g') := by
  obtain ⟨f, out⟩ := Option.ne_none_iff_exists'.mp out
  have call : s.outCall env = some env.ret := by rw [MQTTSharedData.outCall, out, Option.map_some]
  simp only [actionPublish]
  split
  · obtain ⟨sent, run⟩ := encodePublish_ok env.ret ((transmitBuffer s p).map .fresh)
      (transmitSize s p) p.flags.retain p.flags.qos false p.topicPtr p.topicLength
      s.mqttPacketCntr.toUInt16 p.messageBufferPtr p.messageBufferSize
    rw [← call] at run
    simp only [transmitBuffer, transmitSize] at run
    rw [Ptr.deref_some, ok_bind, run, ok_bind]
    exact afterEncoder_ok _ _ _ _
  · exact ⟨_, _, rfl⟩

def PublishFlagsSent (env : Env) (s : MQTTSharedData) (p : MQTTPublish) : Prop :=
  ∀ o g', mqtt (some s) (env, .publish (some (some p))) = .ok (o, g') →
    ∀ data ret, .out data ret ∈ o.events → ∃ first, data.head? = some first ∧
      (FlagsAndType.ofByte first).retain = p.flags.retain ∧ (FlagsAndType.ofByte first).dup = false

theorem FormsPublish.header (h : FormsPublish s p data) : ∃ rest,
    data = fixedHeaderBytes p.flags.retain p.flags.qos false .publish
      (publishRemaining p.flags.qos p.topicLength p.messageBufferSize) ++ rest := by
  obtain ⟨-, -, topic, message, -, -, accepted, rfl⟩ := h
  exact ⟨_, publishData_eq topic message _ accepted.header⟩

theorem publishFlagsSent_iff (env : Env) (s : MQTTSharedData) (p : MQTTPublish) :
    PublishFlagsSent env s p ↔
      (s.state = .connected → (∃ data, FormsPublish s p data) → p.flags.retain = false) := by
  constructor
  · rintro flags connected ⟨data, forms⟩
    obtain ⟨o, g', run⟩ := actionPublish_ok env p forms.1
    rcases actionPublish_spec run with ⟨idle | none, -, -⟩ | ⟨-, p', same, buffer, -, encoded⟩
    · exact absurd connected idle
    · cases none
    · cases same
      rcases encoded with ⟨nothing, -, -⟩ | ⟨data', s', forms', -, sends⟩
      · exact absurd forms (nothing data)
      · obtain ⟨events, -, happened⟩ := sends.events_eq
        obtain ⟨first, head, retain, -⟩ := flags o g' run data' (env.ret data') (by simp [happened])
        obtain ⟨rest, rfl⟩ := forms'.header
        cases head
        rw [FlagsAndType.ofByte_toByte] at retain
        exact retain.symm
  · intro clear o g' run data ret handed
    have run : actionPublish env (some (some p)) (some s) = .ok (o, g') := run
    rcases actionPublish_spec run with ⟨-, rfl, -⟩ | ⟨connected, p', same, buffer, -, encoded⟩
    · cases handed
    · cases same
      rcases encoded with ⟨-, rfl, -⟩ | ⟨data', s', forms, -, sends⟩
      · cases handed
      · obtain ⟨events, received, happened⟩ := sends.events_eq
        rw [happened, List.mem_cons] at handed
        rcases handed with same | mem
        · cases same
          obtain ⟨rest, rfl⟩ := forms.header
          have unset := clear connected ⟨_, forms⟩
          refine ⟨_, rfl, ?_, ?_⟩
          · rw [FlagsAndType.ofByte_toByte, unset]
          · rw [FlagsAndType.ofByte_toByte, unset]
        · exact absurd mem (received.not_out data ret)

section Flags

variable (ret : List UInt8 → Int) (output : Ptr (Buffer UInt8)) (outputSize : UInt32) (retain : Bool)
  (qos : MQTTQoSLevel) (dup : Bool) (topic : Ptr Mem) (topicSize packetIdentifier : UInt16)
  (message : Ptr Mem) (messageSize : UInt32)

theorem encodePublish_flags_iff :
    (∀ sent data, encodePublish (some ret) output outputSize retain qos dup topic topicSize
        packetIdentifier message messageSize = .ok sent → data ∈ sent.calls →
      FlagsSurvive retain qos dup data) ↔
    (output ≠ none → PublishAccepted outputSize qos topic topicSize message messageSize →
      retain = dup ∧ publishRemaining qos topicSize messageSize < 268435456) := by
  cases output with
  | none =>
    refine iff_of_true ?_ fun some => absurd rfl some
    rintro sent data run handed
    cases run
    cases handed
  | some output =>
    by_cases accepted : PublishAccepted outputSize qos topic topicSize message messageSize
    · obtain ⟨t, rfl⟩ := Option.ne_none_iff_exists'.mp accepted.topic
      obtain ⟨m, rfl⟩ := Option.ne_none_iff_exists'.mp accepted.message
      rw [encodePublish_of_accepted accepted, handOut, Buffer.read_copy (u32_le _),
        ← flagsSurvive_publishData_iff t m packetIdentifier accepted.header]
      constructor
      · intro survive _ _
        exact survive _ _ rfl (List.mem_singleton.mpr rfl)
      · rintro survive sent data run handed
        cases run
        obtain rfl := List.mem_singleton.mp handed
        exact survive (Option.some_ne_none _) accepted
    · obtain ⟨output', refused, -⟩ := encodePublish_of_refused (some ret) output retain dup
        packetIdentifier accepted
      refine iff_of_true ?_ fun _ accepts => absurd accepts accepted
      rintro sent data run handed
      rw [refused] at run
      cases run
      cases handed

/-- The flags of a PUBLISH survive exactly where they are the same, as they trade
places, and the Remaining Length is one that the decoder reads; those of an
ACTION_PUBLISH exactly where RETAIN is not asked for. -/
theorem publish_flags_iff (env : Env) (s : MQTTSharedData) (p : MQTTPublish) :
    ((∀ sent data, encodePublish (some ret) output outputSize retain qos dup topic topicSize
        packetIdentifier message messageSize = .ok sent → data ∈ sent.calls →
      FlagsSurvive retain qos dup data) ↔
      (output ≠ none → PublishAccepted outputSize qos topic topicSize message messageSize →
        retain = dup ∧ publishRemaining qos topicSize messageSize < 268435456)) ∧
    (PublishFlagsSent env s p ↔
      (s.state = .connected → (∃ data, FormsPublish s p data) → p.flags.retain = false)) :=
  ⟨encodePublish_flags_iff ret output outputSize retain qos dup topic topicSize packetIdentifier
    message messageSize, publishFlagsSent_iff env s p⟩

end Flags

theorem publish_flags_swapped : ¬ ∀ sent data,
    encodePublish (some fun _ => 0) (some (.fresh fun _ => 0)) 64 true .qos0 false
        (some (ofList [0x61, 0x62, 0x63] 0)) 3 0 (some (ofList [1] 0)) 1 = .ok sent →
      data ∈ sent.calls → FlagsSurvive true .qos0 false data := by
  intro survive
  obtain ⟨sent, run, swapped⟩ := exists_of_any
    (x := encodePublish (some fun _ => 0) (some (.fresh fun _ => 0)) 64 true .qos0 false
      (some (ofList [0x61, 0x62, 0x63] 0)) 3 0 (some (ofList [1] 0)) 1)
    (p := fun sent => sent.calls.any fun data =>
      (decodeFixedHeader (ofList data 0)).retain = false) (by decide +kernel)
  obtain ⟨data, handed, clear⟩ := List.any_eq_true.mp swapped
  obtain ⟨-, retain, -, -⟩ := survive sent data run handed _ (spells_ofList data 0)
  rw [of_decide_eq_true clear] at retain
  cases retain

end RojalMQTT
