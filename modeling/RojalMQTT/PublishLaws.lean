import RojalMQTT.InputStream
import RojalMQTT.Library.Machine

/-! What `encode_publish` writes, and what the parser makes of it. -/

namespace RojalMQTT

open Library

theorem word_of_spells {input : Mem} {i n : Nat} (h : Spells input i (be16 n)) (short : n < 65536) :
    word input i = n := by
  obtain ⟨hi, lo, -⟩ := h
  rw [word, hi, lo, be16_value short]

theorem PublishPacket.parsed {p : PublishPacket} (valid : p.qos ≠ .qosInvalid)
    (topic : 0 < p.topic.length) (short : p.topic.length < 65536) (message : 0 < p.message.length)
    (fits : p.body.length < 268435456) {input : Mem} (h : Spells input 0 p.wire) (n : Nat)
    {s : MQTTSharedData} (set : s.subscribeCbFptr ≠ none) :
    ∃ t m, mqttParseInputStream (some input) n (some s) = .ok
        { status := .successfull, messageSize := p.body.length,
          events := [.subscribeCb .successfull (some m) p.message.length (some t) p.topic.length],
          shared := some s } ∧
      Spells input t p.topic ∧ Spells input m p.message := by
  obtain ⟨cb, set⟩ := Option.ne_none_iff_exists'.mp set
  obtain ⟨header, body⟩ := (spells_append _ _ _ _).mp h
  have decoded := decodeFixedHeader_of_spells header valid nofun fits
  rw [Nat.zero_add] at body
  generalize (fixedHeaderBytes p.dup p.qos p.retain .publish p.body.length).length = next
    at body decoded
  simp only [PublishPacket.body, field, spells_append, length_be16] at body
  obtain ⟨⟨length, topicAt⟩, -, messageAt⟩ := body
  have identifier : p.identifierBytes.length = identifierSize p.qos := p.length_identifierBytes
  have size := p.length_body
  rw [identifier] at size messageAt
  have accepted : 0 < p.topic.length ∧
      2 + p.topic.length + identifierSize p.qos < p.body.length := ⟨topic, by omega⟩
  have left : p.body.length - (2 + p.topic.length + identifierSize p.qos) = p.message.length := by
    omega
  refine ⟨next + 2, next + (2 + p.topic.length + identifierSize p.qos), ?_, topicAt, ?_⟩
  · simp only [mqttParseInputStream, decoded, parsePublish, decodePublish_eq,
      word_of_spells length short, if_pos accepted, left, callback, set, Option.elim_some]
  · rwa [List.length_append, length_be16, Nat.add_assoc] at messageAt

/-- The packet that a call of `encode_publish` describes.  Its two flags trade
places on the way to `encode_fixed_header`. -/
def publishPacket (retain : Bool) (qos : MQTTQoSLevel) (dup : Bool) (topic : Mem)
    (topicSize packetIdentifier : UInt16) (message : Mem) (messageSize : UInt32) : PublishPacket where
  retain := dup
  dup := retain
  qos
  topic := slice topic 0 topicSize.toNat
  identifier := packetIdentifier
  message := slice message 0 messageSize.toNat

def publishBodySize (qos : MQTTQoSLevel) (topicSize : UInt16) (messageSize : UInt32) : Nat :=
  2 + topicSize.toNat + identifierSize qos + messageSize.toNat

def publishSize (qos : MQTTQoSLevel) (topicSize : UInt16) (messageSize : UInt32) : Nat :=
  (Base128.digits (publishBodySize qos topicSize messageSize)).length + 1 +
    publishBodySize qos topicSize messageSize

section Encoder

variable {outputSize : UInt32} {retain dup : Bool} {qos : MQTTQoSLevel}
  {topicSize packetIdentifier : UInt16} {messageSize : UInt32}

theorem publishRemaining_of_lt (h : publishBodySize qos topicSize messageSize < 2 ^ 32) :
    publishRemaining qos topicSize messageSize = publishBodySize qos topicSize messageSize := by
  rw [publishBodySize] at h ⊢
  rw [publishRemaining, u32_of_lt (by omega)]
  omega

theorem length_body_publishPacket (topic message : Mem) :
    (publishPacket retain qos dup topic topicSize packetIdentifier message messageSize).body.length =
      publishBodySize qos topicSize messageSize := by
  rw [PublishPacket.length_body, PublishPacket.length_identifierBytes]
  simp only [publishPacket, length_slice]
  rfl

theorem publishBytes_eq_wire (topic message : Mem)
    (h : publishBodySize qos topicSize messageSize < 2 ^ 32) :
    publishBytes retain qos dup topic topicSize packetIdentifier message messageSize =
      (publishPacket retain qos dup topic topicSize packetIdentifier message messageSize).wire := by
  rw [PublishPacket.wire, length_body_publishPacket, publishBytes, publishRemaining_of_lt h]
  rfl

theorem length_publishBytes_of_lt (topic message : Mem)
    (h : publishBodySize qos topicSize messageSize < 2 ^ 32) :
    (publishBytes retain qos dup topic topicSize packetIdentifier message messageSize).length =
      publishSize qos topicSize messageSize := by
  rw [length_publishBytes, publishHeaderSize, publishRemaining_of_lt h, publishSize, publishBodySize]
  omega

theorem publishAccepted_of_fits {topic message : Mem} (valid : qos ≠ .qosInvalid)
    (hasTopic : 0 < topicSize.toNat) (hasMessage : 0 < messageSize.toNat)
    (fits : publishSize qos topicSize messageSize ≤ outputSize.toNat)
    (limit : publishBodySize qos topicSize messageSize < mqttMaxMessageSize) :
    PublishAccepted outputSize qos (some topic) topicSize (some message) messageSize := by
  have digits := Base128.length_digits_pos (publishBodySize qos topicSize messageSize)
  have max : mqttMaxMessageSize < 2 ^ 32 := by decide
  have remaining := publishRemaining_of_lt (Nat.lt_trans limit max)
  have five : sizeofFixedHeader = 5 := rfl
  rw [publishSize] at fits
  have body : 2 + topicSize.toNat + messageSize.toNat ≤ publishBodySize qos topicSize messageSize := by
    rw [publishBodySize]
    omega
  refine ⟨nofun, nofun, by omega, ⟨valid, nofun, by rwa [remaining]⟩, ?_⟩
  rw [publishHeaderSize, remaining]
  omega

theorem publish_loopback (ret : List UInt8 → Int) (output : Buffer UInt8) (topic message : Mem)
    (packetIdentifier : UInt16) (retain dup : Bool) (valid : qos ≠ .qosInvalid)
    (hasTopic : 0 < topicSize.toNat) (hasMessage : 0 < messageSize.toNat)
    (fits : publishSize qos topicSize messageSize ≤ outputSize.toNat)
    (limit : publishBodySize qos topicSize messageSize ≤ 268435455) :
    ∃ data output', encodePublish (some ret) (some output) outputSize retain qos dup (some topic)
        topicSize packetIdentifier (some message) messageSize =
          .ok { ret := ret data = int32 data.length, calls := [data], output := some output' } ∧
      ∀ input, Spells input 0 data → ∀ (s : MQTTSharedData) (n : Nat), s.subscribeCbFptr ≠ none →
        ∃ t m, mqttParseInputStream (some input) n (some s) = .ok
            { status := .successfull, messageSize := publishBodySize qos topicSize messageSize,
              events := [.subscribeCb .successfull (some m) messageSize.toNat
                (some t) topicSize.toNat],
              shared := some s } ∧
          slice input t topicSize.toNat = slice topic 0 topicSize.toNat ∧
          slice input m messageSize.toNat = slice message 0 messageSize.toNat := by
  have max : mqttMaxMessageSize = 2147483647 := rfl
  have small : publishBodySize qos topicSize messageSize < 2 ^ 32 := by omega
  have accepted : PublishAccepted outputSize qos (some topic) topicSize (some message) messageSize :=
    publishAccepted_of_fits valid hasTopic hasMessage fits (by omega)
  generalize sent : publishBytes retain qos dup topic topicSize packetIdentifier message
    messageSize = data
  have length : data.length = publishSize qos topicSize messageSize := by
    rw [← sent, length_publishBytes_of_lt topic message small]
  have size := outputSize.toNat_lt
  refine ⟨data, output.copy 0 data, ?_, ?_⟩
  · rw [encodePublish_of_accepted accepted, sent, u32_of_lt (by omega), handOut_copy]
  · intro input spells s n set
    generalize packet : publishPacket retain qos dup topic topicSize packetIdentifier message
      messageSize = p
    have body : p.body.length = publishBodySize qos topicSize messageSize := by
      rw [← packet, length_body_publishPacket]
    have onTopic : p.topic = slice topic 0 topicSize.toNat := by rw [← packet, publishPacket]
    have carried : p.message = slice message 0 messageSize.toNat := by rw [← packet, publishPacket]
    have sameQos : p.qos = qos := by rw [← packet, publishPacket]
    have topicLength : p.topic.length = topicSize.toNat := by rw [onTopic, length_slice]
    have messageLength : p.message.length = messageSize.toNat := by rw [carried, length_slice]
    rw [← sent, publishBytes_eq_wire topic message small, packet] at spells
    obtain ⟨t, m, parsed, topicAt, messageAt⟩ := p.parsed (by rwa [sameQos]) (by rwa [topicLength])
      (by rw [topicLength]; exact topicSize.toNat_lt) (by rwa [messageLength]) (by omega) spells n set
    refine ⟨t, m, ?_, ?_, ?_⟩
    · rw [parsed, body, topicLength, messageLength]
    · rw [← onTopic, ← topicLength, topicAt.slice_eq]
    · rw [← carried, ← messageLength, messageAt.slice_eq]

theorem publish_loopback_sample : ∃ data output',
    encodePublish (some fun data => data.length) (some (.fresh fun _ => 0)) 64 true .qos1 false
        (some (ofList [0x61, 0x2F, 0x62] 0)) 3 7 (some (ofList [0x68, 0x69] 0)) 2 =
      .ok { ret := ((data.length : Nat) : Int) = int32 data.length, calls := [data],
            output := some output' } ∧
      ∃ t m, mqttParseInputStream (some (ofList data 0)) data.length
          (some { MQTTSharedData.sample with subscribeCbFptr := some 1 }) = .ok
            { status := .successfull, messageSize := 9,
              events := [.subscribeCb .successfull (some m) 2 (some t) 3],
              shared := some { MQTTSharedData.sample with subscribeCbFptr := some 1 } } ∧
        slice (ofList data 0) t 3 = [0x61, 0x2F, 0x62] ∧ slice (ofList data 0) m 2 = [0x68, 0x69] := by
  obtain ⟨data, output', sent, parsed⟩ := @publish_loopback 64 .qos1 3 2 (fun data => data.length)
    (.fresh fun _ => 0) (ofList [0x61, 0x2F, 0x62] 0) (ofList [0x68, 0x69] 0) 7 true false nofun
    (by decide) (by decide) (by decide +kernel) (by decide +kernel)
  exact ⟨data, output', sent, parsed _ (spells_ofList data 0) _ _ nofun⟩

structure PublishStaysInside (outputSize : UInt32) (required : Nat) (sent : Sent) : Prop where
  inside : ∀ output ∈ sent.output, output.extent ≤ outputSize.toNat
  refused : outputSize.toNat < required → sent.ret = false ∧ sent.calls = []

theorem publishStaysInside_handed_iff {mem : Mem} {sent : Sent} {l : List UInt8} {required : Nat}
    (written : sent.output = some ((Buffer.fresh mem).copy 0 l)) (handed : sent.calls ≠ [])
    (size : required ≤ outputSize.toNat → l.length = required) :
    PublishStaysInside outputSize required sent ↔ required ≤ outputSize.toNat := by
  constructor
  · intro stays
    exact Nat.not_lt.mp fun more => handed (stays.refused more).2
  · intro fits
    refine ⟨fun output same => ?_, fun more => absurd fits (Nat.not_le.mpr more)⟩
    obtain rfl := Option.some.inj (written.symm.trans same)
    rwa [Buffer.extent_fresh_copy, size fits]

theorem publishStaysInside_of_accepted (ret : List UInt8 → Int) (mem : Mem) (retain dup : Bool)
    (packetIdentifier : UInt16) {topic message : Mem}
    (accepted : PublishAccepted outputSize qos (some topic) topicSize (some message) messageSize) :
    ∃ sent, encodePublish (some ret) (some (.fresh mem)) outputSize retain qos dup (some topic)
        topicSize packetIdentifier (some message) messageSize = .ok sent ∧
      (PublishStaysInside outputSize (publishSize qos topicSize messageSize) sent ↔
        publishSize qos topicSize messageSize ≤ outputSize.toNat) := by
  rw [encodePublish_of_accepted accepted, handOut]
  refine ⟨_, rfl, publishStaysInside_handed_iff rfl (List.cons_ne_nil _ _) fun fits => ?_⟩
  have small : publishBodySize qos topicSize messageSize < 2 ^ 32 := by
    have := outputSize.toNat_lt
    rw [publishSize] at fits
    omega
  exact length_publishBytes_of_lt topic message small

/-- `encode_publish` stays inside its output buffer exactly if it refuses the call
or the packet fits. -/
theorem publishStaysInside_iff (ret : List UInt8 → Int) (output : Ptr Mem) (outputSize : UInt32)
    (retain : Bool) (qos : MQTTQoSLevel) (dup : Bool) (topic : Ptr Mem)
    (topicSize packetIdentifier : UInt16) (message : Ptr Mem) (messageSize : UInt32) :
    (∃ sent, encodePublish (some ret) (output.map .fresh) outputSize retain qos dup topic topicSize
        packetIdentifier message messageSize = .ok sent ∧
      PublishStaysInside outputSize (publishSize qos topicSize messageSize) sent) ↔
    (output ≠ none → PublishAccepted outputSize qos topic topicSize message messageSize →
      publishSize qos topicSize messageSize ≤ outputSize.toNat) := by
  cases output with
  | none =>
    refine iff_of_true ⟨_, rfl, ⟨nofun, fun _ => ⟨rfl, rfl⟩⟩⟩ fun some => absurd rfl some
  | some mem =>
    rw [Option.map_some]
    by_cases accepted : PublishAccepted outputSize qos topic topicSize message messageSize
    · obtain ⟨t, rfl⟩ := Option.ne_none_iff_exists'.mp accepted.topic
      obtain ⟨m, rfl⟩ := Option.ne_none_iff_exists'.mp accepted.message
      obtain ⟨sent, run, stays⟩ := publishStaysInside_of_accepted ret mem retain dup
        packetIdentifier accepted
      simp only [run, Except.ok.injEq, exists_eq_left', stays, ne_eq, reduceCtorEq, not_false_eq_true,
        accepted, true_imp_iff]
    · obtain ⟨output, run, extent⟩ := encodePublish_of_refused (some ret) (.fresh mem) retain dup
        packetIdentifier accepted
      refine iff_of_true ⟨_, run, ⟨fun b same => ?_, fun _ => ⟨rfl, rfl⟩⟩⟩ fun _ h => absurd h accepted
      obtain rfl := Option.some.inj same
      rw [Buffer.fresh_extent] at extent
      omega

end Encoder

theorem publish_overruns : ¬ ∃ sent,
    encodePublish (some fun _ => 0) ((some fun _ => 0).map .fresh) 6 false .qos0 false
        (some (ofList [0x61, 0x62, 0x63] 0)) 3 0 (some (ofList [1, 2, 3, 4] 0)) 4 = .ok sent ∧
      PublishStaysInside 6 (publishSize .qos0 3 4) sent := by
  rintro ⟨sent, run, stays⟩
  obtain ⟨sent', run', calls⟩ := exists_of_any
    (x := encodePublish (some fun _ => 0) ((some fun _ => 0).map .fresh) 6 false .qos0 false
      (some (ofList [0x61, 0x62, 0x63] 0)) 3 0 (some (ofList [1, 2, 3, 4] 0)) 4)
    (p := fun sent => sent.calls ≠ []) (by decide +kernel)
  obtain rfl := Except.ok.inj (run.symm.trans run')
  exact of_decide_eq_true calls (stays.refused (by decide +kernel)).2

end RojalMQTT
