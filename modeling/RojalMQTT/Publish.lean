import RojalMQTT.FixedHeader

/-! PUBLISH: `encode_publish` and `decode_publish`. -/

namespace RojalMQTT

open Library

structure Sent where
  ret : Bool
  calls : List (List UInt8)
  output : Ptr (Buffer UInt8)

def handOut (outFptr : Ptr (List UInt8 → Int)) (output : Buffer UInt8) (size : Nat) :
    Except Fault Sent :=
  let data := output.read 0 size
  match outFptr with
  | none => .error .nullDereference
  | some ret => .ok { ret := ret data = int32 size, calls := [data], output := some output }

def encodePublish (outFptr : Ptr (List UInt8 → Int)) (output : Ptr (Buffer UInt8))
    (outputSize : UInt32) (retain : Bool) (qos : MQTTQoSLevel) (dup : Bool) (topic : Ptr Mem)
    (topicSize packetIdentifier : UInt16) (message : Ptr Mem) (messageSize : UInt32) :
    Except Fault Sent :=
  match output, topic, message with
  | some output, some topic, some message =>
    if sizeofFixedHeader < outputSize.toNat then
      let sizeOfMsg := u32 (messageSize.toNat + topicSize.toNat + 2)
      let sizeOfMsg := if 0 < qos.toBits then u32 (sizeOfMsg + 2) else sizeOfMsg
      -- the flags go in as the source passes them: retain for dup and dup for retain
      let (sizeOfMsg, output) := encodeFixedHeader output retain qos dup .publish sizeOfMsg
      if 0 < sizeOfMsg ∧ sizeOfMsg < outputSize.toNat then
        let output := output.copy sizeOfMsg (be16 topicSize.toNat)
        let sizeOfMsg := sizeOfMsg + 2
        let output := output.copy sizeOfMsg (slice topic 0 topicSize.toNat)
        let sizeOfMsg := sizeOfMsg + topicSize.toNat
        let output := if 0 < qos.toBits then output.copy sizeOfMsg (be16 packetIdentifier.toNat)
          else output
        let sizeOfMsg := if 0 < qos.toBits then sizeOfMsg + 2 else sizeOfMsg
        let output := output.copy sizeOfMsg (slice message 0 messageSize.toNat)
        let sizeOfMsg := u32 (sizeOfMsg + messageSize.toNat)
        handOut outFptr output sizeOfMsg
      else .ok { ret := false, calls := [], output := some output }
    else .ok { ret := false, calls := [], output := some output }
  | _, _, _ => .ok { ret := false, calls := [], output }

def word (input : Mem) (p : Nat) : Nat := (input p).toNat * 256 + (input (p + 1)).toNat

theorem word_lt (input : Mem) (p : Nat) : word input p < 65536 := by
  have := (input p).toNat_lt
  have := (input (p + 1)).toNat_lt
  simp only [word]
  omega

structure PublishHeader where
  next : Nat
  topicOut : Nat
  topicLengthOut : Nat

def decodeVariableHeaderPublish (input : Mem) (p : Nat) (qos : MQTTQoSLevel) : PublishHeader :=
  let topicLengthOut := word input p
  -- the index stands one past the first byte of the topic here
  let index := 3 + topicLengthOut
  let index := if 0 < qos.toBits then index + 2 else index
  { next := p + (index - 1), topicOut := p + 2, topicLengthOut }

structure DecodedPublish where
  topicOut : Nat
  topicLengthOut : Nat
  outMessage : Nat
  outMessageSize : Nat
  deriving DecidableEq

def decodePublish (input : Mem) (messageIn sizeOfMsg : Nat) (qos : MQTTQoSLevel) :
    Option DecodedPublish :=
  let header := decodeVariableHeaderPublish input messageIn qos
  if 0 < header.topicLengthOut then
    let headerSize := u32 (header.next - messageIn)
    if headerSize < sizeOfMsg then
      some { topicOut := header.topicOut, topicLengthOut := header.topicLengthOut,
             outMessage := header.next, outMessageSize := sizeOfMsg - headerSize }
    else none
  else none

theorem handOut_copy (ret : List UInt8 → Int) (output : Buffer UInt8) (data : List UInt8) :
    handOut (some ret) (output.copy 0 data) data.length =
      .ok ⟨ret data = int32 data.length, [data], some (output.copy 0 data)⟩ := by
  rw [handOut, Buffer.read_eq_of_spells (output.spells_copy 0 data)]

def identifierSize (qos : MQTTQoSLevel) : Nat := if 0 < qos.toBits then 2 else 0

theorem identifierSize_le (qos : MQTTQoSLevel) : identifierSize qos ≤ 2 := by
  simp only [identifierSize]
  split <;> omega

theorem decodePublish_eq (input : Mem) (p n : Nat) (qos : MQTTQoSLevel) :
    decodePublish input p n qos =
      if 0 < word input p ∧ 2 + word input p + identifierSize qos < n then
        some { topicOut := p + 2, topicLengthOut := word input p,
               outMessage := p + (2 + word input p + identifierSize qos),
               outMessageSize := n - (2 + word input p + identifierSize qos) }
      else none := by
  have ht := word_lt input p
  have hi := identifierSize_le qos
  have next : (decodeVariableHeaderPublish input p qos).next =
      p + (2 + word input p + identifierSize qos) := by
    simp only [decodeVariableHeaderPublish, identifierSize]
    split <;> omega
  have size : u32 (2 + word input p + identifierSize qos) =
      2 + word input p + identifierSize qos := u32_of_lt (by omega)
  have length : (decodeVariableHeaderPublish input p qos).topicLengthOut = word input p := rfl
  have topic : (decodeVariableHeaderPublish input p qos).topicOut = p + 2 := rfl
  simp only [decodePublish, next, Nat.add_sub_cancel_left, size, length, topic]
  by_cases h0 : 0 < word input p <;> simp [h0]

def publishRemaining (qos : MQTTQoSLevel) (topicSize : UInt16) (messageSize : UInt32) : Nat :=
  u32 (messageSize.toNat + topicSize.toNat + 2 + identifierSize qos)

def publishHeaderSize (qos : MQTTQoSLevel) (topicSize : UInt16) (messageSize : UInt32) : Nat :=
  (Base128.digits (publishRemaining qos topicSize messageSize)).length + 1

structure PublishAccepted (outputSize : UInt32) (qos : MQTTQoSLevel) (topic : Ptr Mem)
    (topicSize : UInt16) (message : Ptr Mem) (messageSize : UInt32) : Prop where
  topic : topic ≠ none
  message : message ≠ none
  room : sizeofFixedHeader < outputSize.toNat
  header : EncodesHeader qos .publish (publishRemaining qos topicSize messageSize)
  headerFits : publishHeaderSize qos topicSize messageSize < outputSize.toNat

def publishBytes (retain : Bool) (qos : MQTTQoSLevel) (dup : Bool) (topic : Mem)
    (topicSize packetIdentifier : UInt16) (message : Mem) (messageSize : UInt32) : List UInt8 :=
  fixedHeaderBytes retain qos dup .publish (publishRemaining qos topicSize messageSize) ++
    (field (slice topic 0 topicSize.toNat) ++
      ((if 0 < qos.toBits then be16 packetIdentifier.toNat else []) ++
        slice message 0 messageSize.toNat))

section Encoder

variable {outFptr : Ptr (List UInt8 → Int)} {output : Buffer UInt8} {outputSize : UInt32} {retain dup : Bool}
  {qos : MQTTQoSLevel} {topicSize packetIdentifier : UInt16} {messageSize : UInt32}

theorem length_publishBytes (topic message : Mem) :
    (publishBytes retain qos dup topic topicSize packetIdentifier message messageSize).length =
      publishHeaderSize qos topicSize messageSize + 2 + topicSize.toNat + identifierSize qos +
        messageSize.toNat := by
  simp only [publishBytes, List.length_append, length_fixedHeaderBytes, length_field, length_slice,
    publishHeaderSize, identifierSize]
  split <;> simp <;> omega

theorem publishRemaining_eq : (if 0 < qos.toBits then
      u32 (u32 (messageSize.toNat + topicSize.toNat + 2) + 2)
    else u32 (messageSize.toNat + topicSize.toNat + 2)) =
      publishRemaining qos topicSize messageSize := by
  simp only [publishRemaining, identifierSize, u32]
  split <;> omega

theorem encodePublish_of_accepted {topic message : Mem}
    (h : PublishAccepted outputSize qos (some topic) topicSize (some message) messageSize) :
    encodePublish outFptr (some output) outputSize retain qos dup (some topic) topicSize
        packetIdentifier (some message) messageSize =
      handOut outFptr
        (output.copy 0
          (publishBytes retain qos dup topic topicSize packetIdentifier message messageSize))
        (u32 (publishBytes retain qos dup topic topicSize packetIdentifier message
          messageSize).length) := by
  have pass : 0 < (fixedHeaderBytes retain qos dup .publish
        (publishRemaining qos topicSize messageSize)).length ∧
      (fixedHeaderBytes retain qos dup .publish
        (publishRemaining qos topicSize messageSize)).length < outputSize.toNat :=
    ⟨by simp [length_fixedHeaderBytes], h.headerFits⟩
  simp only [encodePublish, if_pos h.room, publishRemaining_eq,
    encodeFixedHeader_of_encodes h.header, if_pos pass]
  by_cases hq : 0 < qos.toBits
  · simp only [hq, if_true]
    rw [Buffer.copy_behind, Buffer.copy_behind, Buffer.copy_behind, Buffer.copy_behind]
    · simp only [publishBytes, hq, if_true, field, length_slice, List.append_assoc]
      congr 2
      simp
      omega
    all_goals simp
  · simp only [hq, if_false]
    rw [Buffer.copy_behind, Buffer.copy_behind, Buffer.copy_behind]
    · simp only [publishBytes, hq, if_false, field, length_slice, List.append_assoc, List.nil_append]
      congr 2
      simp
      omega
    all_goals simp

/-- A call that does not get past the checks hands nothing out, and stays inside
any buffer that the size it was given describes. -/
theorem encodePublish_of_refused (outFptr : Ptr (List UInt8 → Int)) (output : Buffer UInt8)
    (retain dup : Bool) (packetIdentifier : UInt16) {topic message : Ptr Mem}
    (h : ¬ PublishAccepted outputSize qos topic topicSize message messageSize) :
    ∃ output', encodePublish outFptr (some output) outputSize retain qos dup topic topicSize
        packetIdentifier message messageSize = .ok ⟨false, [], some output'⟩ ∧
      output'.extent ≤ max output.extent outputSize.toNat := by
  cases topic with
  | none => exact ⟨output, rfl, Nat.le_max_left _ _⟩
  | some topic =>
    cases message with
    | none => exact ⟨output, rfl, Nat.le_max_left _ _⟩
    | some message =>
      by_cases room : sizeofFixedHeader < outputSize.toNat
      · have five : 5 < outputSize.toNat := room
        simp only [encodePublish, if_pos room, publishRemaining_eq]
        by_cases header : EncodesHeader qos .publish (publishRemaining qos topicSize messageSize)
        · have long : ¬ publishHeaderSize qos topicSize messageSize < outputSize.toNat :=
            fun fits => h ⟨by simp, by simp, room, header, fits⟩
          have digits := length_digits_le_five header.2.2
          have stop : ¬ (0 < (fixedHeaderBytes retain qos dup .publish
                (publishRemaining qos topicSize messageSize)).length ∧
              (fixedHeaderBytes retain qos dup .publish
                (publishRemaining qos topicSize messageSize)).length < outputSize.toNat) :=
            fun pass => long pass.2
          simp only [encodeFixedHeader_of_encodes header, if_neg stop]
          refine ⟨_, rfl, ?_⟩
          rw [Buffer.extent_copy_le, length_fixedHeaderBytes]
          exact ⟨Nat.le_max_left _ _, .inr (by omega)⟩
        · obtain ⟨zero, extent⟩ := encodeFixedHeader_of_not_encodes output retain dup header
          simp only [zero, Nat.lt_irrefl, false_and, if_false]
          exact ⟨_, rfl, by omega⟩
      · exact ⟨output, by simp only [encodePublish, if_neg room], Nat.le_max_left _ _⟩

end Encoder

end RojalMQTT
