import RojalMQTT.Publish

/-! SUBSCRIBE and SUBACK: `encode_subscribe` and `decode_variable_header_suback`. -/

namespace RojalMQTT

open Library

def encodeSubscribe (outFptr : Ptr (List UInt8 → Int)) (output : Ptr (Buffer UInt8))
    (outputSize : UInt32) (topicQos : MQTTQoSLevel) (topic : Ptr Mem)
    (topicSize packetIdentifier : UInt16) : Except Fault Sent :=
  match outFptr, output, topic with
  | some _, some output, some topic =>
    if topicSize.toNat < outputSize.toNat then
      let sizeOfMsg := topicSize.toNat + 1 + 2 + 2
      let sizeOfMsg := if 0 < topicQos.toBits then sizeOfMsg + 2 else sizeOfMsg
      let (sizeOfMsg, output) := encodeFixedHeader output true .qos0 false .subscribe sizeOfMsg
      if 0 < sizeOfMsg ∧ sizeOfMsg < outputSize.toNat then
        let output := output.copy sizeOfMsg (be16 packetIdentifier.toNat)
        let sizeOfMsg := sizeOfMsg + 2
        let output := output.copy sizeOfMsg (be16 topicSize.toNat)
        let sizeOfMsg := sizeOfMsg + 2
        let output := output.copy sizeOfMsg (slice topic 0 topicSize.toNat)
        let sizeOfMsg := sizeOfMsg + topicSize.toNat
        let output := output.copy sizeOfMsg [UInt8.ofNat topicQos.toBits]
        let sizeOfMsg := sizeOfMsg + 1
        handOut outFptr output sizeOfMsg
      else .ok { ret := false, calls := [], output := some output }
    else .ok { ret := false, calls := [], output := some output }
  | _, _, _ => .ok { ret := false, calls := [], output }

/-- `*a_subscribe_state_ptr`: the truth value of the test against 0x80. -/
def decodeVariableHeaderSuback (input : Mem) : MQTTErrorCodes :=
  if input 4 = 0x80 then 1 else 0

def subscribeRemaining (topicQos : MQTTQoSLevel) (topicSize : UInt16) : Nat :=
  topicSize.toNat + 5 + identifierSize topicQos

def subscribeBytes (topicQos : MQTTQoSLevel) (topic : Mem) (topicSize packetIdentifier : UInt16) :
    List UInt8 :=
  fixedHeaderBytes true .qos0 false .subscribe (subscribeRemaining topicQos topicSize) ++
    (be16 packetIdentifier.toNat ++
      (field (slice topic 0 topicSize.toNat) ++ [UInt8.ofNat topicQos.toBits]))

structure SubscribeAccepted (outputSize : UInt32) (topicQos : MQTTQoSLevel) (topic : Ptr Mem)
    (topicSize : UInt16) : Prop where
  topic : topic ≠ none
  room : topicSize.toNat < outputSize.toNat
  headerFits : (Base128.digits (subscribeRemaining topicQos topicSize)).length + 1 < outputSize.toNat

section Encoder

variable {ret : List UInt8 → Int} {output : Buffer UInt8} {outputSize : UInt32}
  {topicQos : MQTTQoSLevel} {topicSize packetIdentifier : UInt16}

theorem subscribeRemaining_encodes : EncodesHeader .qos0 .subscribe
    (subscribeRemaining topicQos topicSize) := by
  have := topicSize.toNat_lt
  have := identifierSize_le topicQos
  refine ⟨by simp, by simp, ?_⟩
  simp only [subscribeRemaining, mqttMaxMessageSize]
  omega

theorem subscribeRemaining_eq : (if 0 < topicQos.toBits then topicSize.toNat + 1 + 2 + 2 + 2
    else topicSize.toNat + 1 + 2 + 2) = subscribeRemaining topicQos topicSize := by
  simp only [subscribeRemaining, identifierSize]
  split <;> omega

theorem encodeSubscribe_of_accepted {topic : Mem}
    (h : SubscribeAccepted outputSize topicQos (some topic) topicSize) :
    encodeSubscribe (some ret) (some output) outputSize topicQos (some topic) topicSize
        packetIdentifier =
      handOut (some ret)
        (output.copy 0 (subscribeBytes topicQos topic topicSize packetIdentifier))
        (subscribeBytes topicQos topic topicSize packetIdentifier).length := by
  have pass : 0 < (fixedHeaderBytes true .qos0 false .subscribe
        (subscribeRemaining topicQos topicSize)).length ∧
      (fixedHeaderBytes true .qos0 false .subscribe
        (subscribeRemaining topicQos topicSize)).length < outputSize.toNat :=
    ⟨by simp [length_fixedHeaderBytes], h.headerFits⟩
  simp only [encodeSubscribe, if_pos h.room, subscribeRemaining_eq,
    encodeFixedHeader_of_encodes subscribeRemaining_encodes, if_pos pass]
  rw [Buffer.copy_behind, Buffer.copy_behind, Buffer.copy_behind, Buffer.copy_behind]
  · simp only [subscribeBytes, field, length_slice, List.append_assoc]
    congr 2
    simp [length_fixedHeaderBytes]
    omega
  all_goals simp

theorem encodeSubscribe_of_refused (ret : List UInt8 → Int) (output : Buffer UInt8)
    (packetIdentifier : UInt16) {topic : Ptr Mem}
    (h : ¬ SubscribeAccepted outputSize topicQos topic topicSize) :
    ∃ output', encodeSubscribe (some ret) (some output) outputSize topicQos topic topicSize
      packetIdentifier = .ok ⟨false, [], some output'⟩ := by
  cases topic with
  | none => exact ⟨output, rfl⟩
  | some topic =>
    by_cases room : topicSize.toNat < outputSize.toNat
    · have stop : ¬ (0 < (fixedHeaderBytes true .qos0 false .subscribe
            (subscribeRemaining topicQos topicSize)).length ∧
          (fixedHeaderBytes true .qos0 false .subscribe
            (subscribeRemaining topicQos topicSize)).length < outputSize.toNat) :=
        fun pass => h ⟨by simp, room, pass.2⟩
      simp only [encodeSubscribe, if_pos room, subscribeRemaining_eq,
        encodeFixedHeader_of_encodes subscribeRemaining_encodes, if_neg stop]
      exact ⟨_, rfl⟩
    · exact ⟨output, by simp only [encodeSubscribe, if_neg room]⟩

end Encoder

end RojalMQTT
