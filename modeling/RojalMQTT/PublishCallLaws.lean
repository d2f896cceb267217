import RojalMQTT.ApiLaws
import RojalMQTT.EncoderLaws

/-! What `mqtt_publish` and `mqtt_publish_buf` put on the wire. -/

namespace RojalMQTT

open Library

structure IsPublish (topic message data : List UInt8) : Prop where
  first : data.head? = some 0x30
  body : ∃ n next, Base128.scan (ofList data 0) 1 4 = some (n, next) ∧ data.length = next + n ∧
    takeField (data.drop next) = some (topic, message)

theorem isPublish_layout {topic message : List UInt8} (short : topic.length < 65536)
    (fits : 2 + topic.length + message.length < 268435456) :
    IsPublish topic message (fixedHeaderBytes false .qos0 false .publish
      (2 + topic.length + message.length) ++ (field topic ++ message)) := by
  have header := ((spells_append _ _ _ _).mp (spells_ofList (fixedHeaderBytes false .qos0 false
    .publish (2 + topic.length + message.length) ++ (field topic ++ message)) (0 : UInt8))).1
  refine ⟨rfl, _, _, Base128.scan_of_spells ((spells_cons _ _ _ _).mp header).2
    (length_digits_le_four fits), ?_, ?_⟩
  · rw [List.length_append, length_fixedHeaderBytes, List.length_append, length_field]
    omega
  · rw [Nat.add_comm, ← length_fixedHeaderBytes false .qos0 false .publish, List.drop_left,
      takeField_field message short]

theorem IsPublish.sizes {topic message data : List UInt8} (h : IsPublish topic message data) :
    topic.length < 65536 ∧ 2 + topic.length + message.length < 268435456 := by
  obtain ⟨-, n, next, scanned, length, taken⟩ := h
  obtain ⟨split, short⟩ := field_of_takeField taken
  have limit := Base128.scan_lt scanned
  have rest := congrArg List.length split
  rw [List.length_drop, List.length_append, length_field] at rest
  exact ⟨short, by omega⟩

inductive ApiCall.Publishes (topic : Mem) (topicSize : Nat) (msg : Mem) (msgSize : Nat) :
    ApiCall → Prop
  | shared : Publishes topic topicSize msg msgSize (.publish (some topic) topicSize (some msg) msgSize)
  | special (outputBuffer : Ptr Mem) (outputBufferSize : UInt32) :
    Publishes topic topicSize msg msgSize
      (.publishBuf (some topic) topicSize (some msg) msgSize outputBuffer outputBufferSize)

section Calls

variable {env : Env} {topic msg : Mem} {topicSize msgSize : Nat} {g : Ptr MQTTSharedData}

theorem sends_of_publish {outputBuffer : Ptr Mem} {outputBufferSize : UInt32}
    (h : mqttPublishBuf env (some topic) topicSize (some msg) msgSize outputBuffer outputBufferSize g =
      .ok (a, g')) (sent : a.ret = true) : ∃ packetIdentifier events,
      EncodesHeader .qos0 .publish
        (publishRemaining .qos0 (UInt16.ofNat topicSize) (UInt32.ofNat msgSize)) ∧
      a.events = .out (publishData false .qos0 false topic (UInt16.ofNat topicSize) packetIdentifier
        msg (UInt32.ofNat msgSize)) (env.ret (publishData false .qos0 false topic
          (UInt16.ofNat topicSize) packetIdentifier msg (UInt32.ofNat msgSize))) :: events := by
  rw [mqttPublishBuf, if_pos ⟨Option.some_ne_none _, Option.some_ne_none _⟩] at h
  obtain ⟨⟨o, g₁⟩, run, h⟩ := bind_eq_ok h
  cases h
  have sent : o.status = .successfull := of_decide_eq_true sent
  cases g with
  | none =>
    cases run
    exact absurd sent (by decide)
  | some s =>
    have run : actionPublish env (some (some (publishParameters env (some topic) topicSize (some msg)
      msgSize outputBuffer outputBufferSize))) (some s) = .ok (o, g') := run
    rcases actionPublish_spec run with ⟨-, rfl, -⟩ | ⟨-, p, same, buffer, -, encoded⟩
    · exact absurd sent (by decide)
    · cases same
      rcases encoded with ⟨-, rfl, -⟩ | ⟨data, s', forms, -, sends⟩
      · exact absurd sent (by decide)
      · obtain ⟨events, -, happened⟩ := sends.events_eq
        obtain ⟨-, -, t, m, onTopic, carried, accepted, rfl⟩ := forms
        cases onTopic
        cases carried
        exact ⟨_, events, accepted.header, happened⟩

def PublishedExactly (topic : Mem) (topicSize : Nat) (msg : Mem) (msgSize : Nat) (a : Answer) : Prop :=
  ∃ data ret events, a.events = .out data ret :: events ∧
    IsPublish (slice topic 0 topicSize) (slice msg 0 msgSize) data

theorem PublishedExactly.sizes (h : PublishedExactly topic topicSize msg msgSize a) :
    topicSize < 65536 ∧ 2 + topicSize + msgSize < 268435456 := by
  obtain ⟨data, ret, events, -, isPublish⟩ := h
  have sizes := isPublish.sizes
  rwa [length_slice, length_slice] at sizes

theorem publishData_exact (topic msg : Mem) (packetIdentifier : UInt16) (short : topicSize < 65536)
    (fits : 2 + topicSize + msgSize < 268435456)
    (encodes : EncodesHeader .qos0 .publish
      (publishRemaining .qos0 (UInt16.ofNat topicSize) (UInt32.ofNat msgSize))) :
    IsPublish (slice topic 0 topicSize) (slice msg 0 msgSize)
      (publishData false .qos0 false topic (UInt16.ofNat topicSize) packetIdentifier msg
        (UInt32.ofNat msgSize)) := by
  have topicLength : (UInt16.ofNat topicSize).toNat = topicSize := by
    rw [UInt16.toNat_ofNat']
    omega
  have msgLength : (UInt32.ofNat msgSize).toNat = msgSize := by
    rw [UInt32.toNat_ofNat']
    omega
  have remaining : publishRemaining .qos0 (UInt16.ofNat topicSize) (UInt32.ofNat msgSize) =
      2 + topicSize + msgSize := by
    rw [publishRemaining, topicLength, msgLength, identifierSize, u32]
    simp only [MQTTQoSLevel.toBits, Nat.lt_irrefl, if_false]
    omega
  have layout : IsPublish (slice topic 0 topicSize) (slice msg 0 msgSize) _ :=
    isPublish_layout (by rwa [length_slice]) (by rwa [length_slice, length_slice])
  rw [publishData_eq topic msg packetIdentifier encodes, remaining, topicLength, msgLength,
    if_neg (show ¬ 0 < MQTTQoSLevel.qos0.toBits by decide), List.nil_append, List.take_of_length_le]
  · rwa [length_slice, length_slice] at layout
  · rw [List.length_append, length_field, length_slice, length_slice]

/-- A publishing call that returns true has published exactly what it was given, if the
topic's length fits 16 bits and the Remaining Length 28. -/
theorem publishedExactly_iff {call : ApiCall} (publishes : call.Publishes topic topicSize msg msgSize)
    (h : api g (env, call) = .ok (a, g')) (sent : a.ret = true) :
    PublishedExactly topic topicSize msg msgSize a ↔
      topicSize < 65536 ∧ 2 + topicSize + msgSize < 268435456 := by
  refine ⟨PublishedExactly.sizes, fun ⟨short, fits⟩ => ?_⟩
  have published {buffer : Ptr Mem} {size : UInt32} (h : mqttPublishBuf env (some topic) topicSize
      (some msg) msgSize buffer size g = .ok (a, g')) :
      PublishedExactly topic topicSize msg msgSize a := by
    obtain ⟨packetIdentifier, events, encodes, happened⟩ := sends_of_publish h sent
    exact ⟨_, _, events, happened, publishData_exact topic msg packetIdentifier short fits encodes⟩
  cases publishes with
  | shared => exact published h
  | special buffer size => exact published h

end Calls

theorem publishedExactly_sample : ∃ a g',
    api (some { MQTTSharedData.sample with state := .connected })
        (.prompt, .publish (some (ofList [0x61, 0x2F, 0x62] 0)) 3 (some (ofList [0x68, 0x69] 0)) 2) =
      .ok (a, g') ∧ PublishedExactly (ofList [0x61, 0x2F, 0x62] 0) 3 (ofList [0x68, 0x69] 0) 2 a := by
  obtain ⟨⟨a, g'⟩, run, sent⟩ := exists_of_any
    (x := api (some { MQTTSharedData.sample with state := .connected })
      (.prompt, .publish (some (ofList [0x61, 0x2F, 0x62] 0)) 3 (some (ofList [0x68, 0x69] 0)) 2))
    (p := fun r => r.1.ret) (by decide +kernel)
  exact ⟨a, g', run, (publishedExactly_iff .shared run sent).mpr (by decide)⟩

theorem publish_cuts : ¬ ∀ a g',
    api (some { MQTTSharedData.sample with state := .connected, bufferSize := 70000 })
        (.prompt, .publish (some fun _ => 0x61) 65539 (some fun _ => 0x62) 1) = .ok (a, g') →
      a.ret = true → PublishedExactly (fun _ => 0x61) 65539 (fun _ => 0x62) 1 a := by
  intro exact
  obtain ⟨⟨a, g'⟩, run, sent⟩ := exists_of_any
    (x := api (some { MQTTSharedData.sample with state := .connected, bufferSize := 70000 })
      (.prompt, .publish (some fun _ => 0x61) 65539 (some fun _ => 0x62) 1))
    (p := fun r => r.1.ret) (by decide +kernel)
  exact absurd (exact a g' run sent).sizes.1 (by decide)

end RojalMQTT
