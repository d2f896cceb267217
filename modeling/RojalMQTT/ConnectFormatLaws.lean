import Mathlib.Data.List.Flatten
import RojalMQTT.ConnectLaws

/-! Which CONNECT `mqtt_connect_fill` forms: for which sizes it forms one, which flags
it sets, and whether `mqtt_connect_` hands out all of it. -/

namespace RojalMQTT

open Library

def connectBodySize (c : MQTTConnect) : Nat :=
  sizeofVariableHeaderConnect + ((payloadStrings c).map fun s => 2 + s.strlen).sum

section Room

variable {mem temporary : Mem} {maxBufferSize outputSize : Nat} {c : MQTTConnect}

/-- What is taken off the space for a packet: the length of every string twice. -/
def connectCharge (c : MQTTConnect) : Nat :=
  connectBodySize c + ((payloadStrings c).map (·.strlen)).sum

theorem storedLength_of_short {s : CString} (h : s.strlen < 65536) : s.storedLength = s.strlen :=
  u16_of_lt h

theorem stringsSize_of_short {ss : List CString} (short : ∀ s ∈ ss, s.strlen < 65536) :
    stringsSize ss = (ss.map fun s => 2 + s.strlen).sum := by
  rw [stringsSize, List.map_congr_left fun s hs => by rw [storedLength_of_short (short s hs)]]

theorem stringsLength_of_short {ss : List CString} (short : ∀ s ∈ ss, s.strlen < 65536) :
    stringsLength ss = (ss.map (·.strlen)).sum := by
  rw [stringsLength, List.map_congr_left fun s hs => storedLength_of_short (short s hs)]

theorem payloadStrings_nonempty {clientId : CString} (id : c.clientId = some clientId)
    (nonempty : 0 < clientId.strlen) : ∀ s ∈ payloadStrings c, 0 < s.strlen := by
  have optional (s : CString) : ∀ t ∈ optionalStrings s, 0 < t.strlen := by
    intro t ht
    rw [optionalStrings] at ht
    split at ht
    · obtain rfl := List.mem_singleton.mp ht
      assumption
    · cases ht
  intro s hs
  simp only [payloadStrings, id, Option.elim_some, List.mem_cons, List.mem_append] at hs
  rcases hs with rfl | hs | hs | hs
  · exact nonempty
  · rw [willStrings] at hs
    split at hs
    · simp only [List.mem_cons, List.not_mem_nil, or_false] at hs
      rcases hs with rfl | rfl
      · exact And.left ‹_›
      · exact And.right ‹_›
    · cases hs
  · exact optional c.username s hs
  · exact optional c.password s hs

theorem fillHeaders_room {keepalive : UInt16} {payloadPtr : Nat} {st st' : FillState}
    (valid : st.connectFlags.lastWillQos ≠ .qosInvalid) (high : st.spaceRemaining < 2 ^ 31)
    (small : payloadPtr - payloadStart < 2 ^ 31)
    (h : mqttConnectFillHeaders keepalive temporary payloadPtr st = .ok (some p, st')) :
    ((sizeofVariableHeaderConnect + (payloadPtr - payloadStart) : Nat) : Int) ≤
      st.spaceRemaining := by
  simp only [mqttConnectFillHeaders, encodeVariableHeaderConnect, if_neg valid] at h
  have ten : sizeofVariableHeaderConnect = 10 := rfl
  cases left : int32Sub st.spaceRemaining (10 : Nat) with
  | error e =>
    rw [left] at h
    cases h
  | ok r =>
    have sub : r = st.spaceRemaining - 10 := eq_of_int32Sub left
    simp only [left] at h
    split at h
    · cases h
    · split at h
      · cases h
      · rename_i nonneg behind
        simp only [int32] at behind
        split at behind <;> omega

theorem mqttConnectFill_room
    (h : mqttConnectFill (.fresh mem) maxBufferSize c outputSize temporary = .ok (some p, st)) :
    ConnectRoom c maxBufferSize := by
  obtain ⟨st₁, parameters, headers⟩ := parametersFilled_of_formed h
  have small := stringsSize_payload_le c
  have high := int32_lt maxBufferSize
  have left : st₁.spaceRemaining = int32 maxBufferSize - stringsLength (payloadStrings c) :=
    parameters.space
  have room := fillHeaders_room parameters.valid (by omega) (by omega) headers
  rw [Nat.add_sub_cancel_left, left] at room
  rw [ConnectRoom]
  omega

theorem connectRoom_iff (short : ∀ s ∈ payloadStrings c, s.strlen < 65536)
    (limit : maxBufferSize < 2 ^ 31) :
    ConnectRoom c maxBufferSize ↔ connectCharge c ≤ maxBufferSize := by
  rw [ConnectRoom, stringsLength_of_short short, stringsSize_of_short short, int32_of_lt limit,
    connectCharge, connectBodySize]
  omega

theorem status_parseAck (messageIn : Ptr Mem) :
    mqttConnectParseAck messageIn ≠ .invalidArgument := by
  have unsigned (n : Nat) : (n : Int) ≠ MQTTErrorCodes.invalidArgument := by
    simp only [MQTTErrorCodes.invalidArgument]
    omega
  cases messageIn with
  | none => decide
  | some input =>
    simp only [mqttConnectParseAck]
    split
    · exact unsigned _
    · decide

theorem mqttConnect_formed {inFptr : Ptr (Int × Mem)} {ret : List UInt8 → Int} {wait : Bool}
    (formed : mqttConnectFill (.fresh mem) maxBufferSize c 0 temporary = .ok (some p, st))
    (h : mqttConnect_ (some mem) maxBufferSize inFptr (some ret) (some c) wait temporary =
      .ok sent) : sent.status ≠ .invalidArgument ∧
        sent.calls = [st.buffer.read p st.outputSize] := by
  have taken : MQTTErrorCodes.successfull ≠ .invalidArgument := by decide
  have unavailable : MQTTErrorCodes.serverUnavailabe ≠ .invalidArgument := by decide
  simp only [mqttConnect_, formed] at h
  split at h
  · split at h
    case h_1 rcv response =>
      split at h
      · cases h
        exact ⟨status_parseAck (some response), rfl⟩
      · cases h
        exact ⟨unavailable, rfl⟩
    case h_2 =>
      cases h
      exact ⟨taken, rfl⟩
  · cases h
    exact ⟨unavailable, rfl⟩

def FormsWhatFits (mem temporary : Mem) (maxBufferSize outputSize : Nat) (c : MQTTConnect) : Prop :=
  sizeofFixedHeader + connectBodySize c ≤ maxBufferSize →
    (∃ p st, mqttConnectFill (.fresh mem) maxBufferSize c outputSize temporary =
      .ok (some p, st)) ∧
    ∀ inFptr ret wait sent, mqttConnect_ (some mem) maxBufferSize inFptr (some ret) (some c) wait
      temporary = .ok sent → sent.status ≠ .invalidArgument

theorem formed_iff {clientId : CString} (mem temporary : Mem) (outputSize : Nat)
    (id : c.clientId = some clientId) (nonempty : 0 < clientId.strlen)
    (short : ∀ s ∈ payloadStrings c, s.strlen < 65536) (limit : maxBufferSize < 2 ^ 31) :
    (∃ p st, mqttConnectFill (.fresh mem) maxBufferSize c outputSize temporary =
      .ok (some p, st)) ↔ connectCharge c ≤ maxBufferSize := by
  rw [← connectRoom_iff short limit]
  constructor
  · rintro ⟨p, st, formed⟩
    exact mqttConnectFill_room formed
  · intro room
    have complete : ConnectComplete c := by
      refine ⟨by simp [id], fun s hs => ?_⟩
      rw [storedLength_of_short (short s hs)]
      exact Nat.ne_of_gt (payloadStrings_nonempty id nonempty s hs)
    obtain ⟨q, st, filled, formed⟩ := mqttConnectFill_of_room mem temporary outputSize room
    obtain ⟨p, rfl⟩ := Option.ne_none_iff_exists'.mp (formed.mpr complete)
    exact ⟨p, st, filled⟩

/-- A CONNECT that fits is formed exactly if there is room for its strings once more. -/
theorem formsWhatFits_iff {clientId : CString} (mem temporary : Mem) (outputSize : Nat)
    (id : c.clientId = some clientId) (nonempty : 0 < clientId.strlen)
    (short : ∀ s ∈ payloadStrings c, s.strlen < 65536) (limit : maxBufferSize < 2 ^ 31) :
    FormsWhatFits mem temporary maxBufferSize outputSize c ↔
      (sizeofFixedHeader + connectBodySize c ≤ maxBufferSize → connectCharge c ≤ maxBufferSize) := by
  have formed := fun n => formed_iff mem temporary n id nonempty short limit
  rw [FormsWhatFits]
  refine imp_congr_right fun _ => ?_
  rw [formed outputSize]
  refine and_iff_left_of_imp fun room inFptr ret wait sent run => ?_
  obtain ⟨p, st, filled⟩ := (formed 0).mpr room
  exact (mqttConnect_formed filled run).1

theorem clientId_sample (keepalive : UInt16) :
    (MQTTConnect.sample keepalive).clientId = some .abc := rfl

theorem formsWhatFits_sample : FormsWhatFits (fun _ => 0) (fun _ => 0) 20 0 (.sample 60) ↔
    (sizeofFixedHeader + connectBodySize (.sample 60) ≤ 20 → connectCharge (.sample 60) ≤ 20) :=
  formsWhatFits_iff (fun _ => 0) (fun _ => 0) 0 (clientId_sample 60) (by decide) (by decide)
    (by decide)

theorem connect_refusesWhatFits : ¬ FormsWhatFits (fun _ => 0) (fun _ => 0) 25 0
    { MQTTConnect.sample 60 with username := .abc } := by
  intro forms
  obtain ⟨⟨p, st, filled⟩, -⟩ := forms (by decide)
  obtain ⟨⟨q, st'⟩, refused, none⟩ := exists_of_any
    (x := mqttConnectFill (.fresh fun _ => 0) 25 { MQTTConnect.sample 60 with username := .abc } 0
      fun _ => 0)
    (p := fun r => r.1 = none) (by decide +kernel)
  rw [filled] at refused
  cases refused
  cases of_decide_eq_true none

end Room

section Flags

variable {mem temporary : Mem} {maxBufferSize outputSize : Nat} {c : MQTTConnect}

structure FlagsAllowed (b : UInt8) : Prop where
  reserved : b.toNat % 2 = 0
  will : (ConnectFlags.ofByte b).lastWill = false →
    (ConnectFlags.ofByte b).lastWillQos = .qos0 ∧ (ConnectFlags.ofByte b).permanentWill = false
  password : (ConnectFlags.ofByte b).username = false → (ConnectFlags.ofByte b).password = false

def connectFlagsAt (m : Mem) (p : Nat) : Option UInt8 :=
  (Base128.scan m (p + 1) 4).map fun r => m (r.2 + ConnectPacket.protocolName.length)

theorem flagsAllowed_toByte_iff (flags : ConnectFlags) : FlagsAllowed flags.toByte ↔
    (flags.lastWill = false → flags.lastWillQos = .qos0 ∧ flags.permanentWill = false) ∧
      (flags.username = false → flags.password = false) := by
  constructor
  · rintro ⟨-, will, password⟩
    rw [ConnectFlags.ofByte_toByte] at will password
    exact ⟨will, password⟩
  · rintro ⟨will, password⟩
    refine ⟨flags.toByte_reserved, ?_, ?_⟩
    · rwa [ConnectFlags.ofByte_toByte]
    · rwa [ConnectFlags.ofByte_toByte]

theorem connectFlagsAt_of_spells {m : Mem} {p : Nat} (h : Spells m p (connectBytes c)) :
    connectFlagsAt m p = some (presentFlags c c.connectFlags).toByte := by
  have short := stringsSize_payload_le c
  simp only [connectBytes, ConnectPacket.variableHeader, fixedHeaderBytes, spells_append,
    spells_cons, List.length_cons] at h
  obtain ⟨⟨-, digits⟩, ⟨-, flags, -⟩, -⟩ := h
  rw [connectFlagsAt, Base128.scan_of_spells digits (length_digits_le_four (by omega)),
    Option.map_some, ← flags]
  congr 2
  omega

theorem connectFlags_iff
    (h : mqttConnectFill (.fresh mem) maxBufferSize c outputSize temporary = .ok (some p, st)) :
    (∃ b, connectFlagsAt st.buffer.cells p = some b ∧ FlagsAllowed b) ↔
      (c.lastWillTopic.strlen = 0 ∨ c.lastWillMessage.strlen = 0 →
          c.connectFlags.permanentWill = false) ∧
        (c.username.strlen = 0 → c.password.strlen = 0) := by
  rw [connectFlagsAt_of_spells (mqttConnectFill_spells h).1]
  simp only [Option.some.injEq, exists_eq_left', flagsAllowed_toByte_iff, presentFlags,
    decide_eq_false_iff_not, true_and, Nat.not_lt, Nat.le_zero]
  refine and_congr_left fun _ => imp_congr_left ?_
  omega

theorem connectFlags_sample : ∃ p st,
    mqttConnectFill (.fresh fun _ => 0) 64 { MQTTConnect.sample 60 with username := .abc } 0
        (fun _ => 0) = .ok (some p, st) ∧
      ∃ b, connectFlagsAt st.buffer.cells p = some b ∧ FlagsAllowed b := by
  obtain ⟨⟨_ | p, st⟩, fill, some⟩ := exists_of_any (x := mqttConnectFill (.fresh fun _ => 0) 64
    { MQTTConnect.sample 60 with username := .abc } 0 fun _ => 0) (p := fun r => r.1.isSome)
    (by decide +kernel)
  · cases some
  · exact ⟨p, st, fill, (connectFlags_iff fill).mpr (by decide)⟩

def MQTTConnect.retained : MQTTConnect :=
  { MQTTConnect.sample 60 with connectFlags := { ConnectFlags.ofByte 0 with permanentWill := true } }

theorem connect_retainsNoWill : ¬ ∀ p st,
    mqttConnectFill (.fresh fun _ => 0) 64 .retained 0 (fun _ => 0) = .ok (some p, st) →
      ∃ b, connectFlagsAt st.buffer.cells p = some b ∧ FlagsAllowed b := by
  intro allowed
  obtain ⟨⟨_ | p, st⟩, fill, some⟩ := exists_of_any
    (x := mqttConnectFill (.fresh fun _ => 0) 64 .retained 0 fun _ => 0)
    (p := fun r => r.1.any fun p => connectFlagsAt r.2.buffer.cells p = some 0x20)
    (by decide +kernel)
  · cases some
  · obtain ⟨b, found, valid⟩ := allowed p st fill
    rw [of_decide_eq_true some] at found
    cases found
    exact absurd (valid.will (by decide)).2 (by decide)

end Flags

section Uncut

variable {c : MQTTConnect} {p : ConnectPacket}

structure Carries (c : MQTTConnect) (p : ConnectPacket) : Prop where
  clientId : ∀ s, c.clientId = some s → p.clientId = s.bytes
  lastWillTopic : 0 < c.lastWillTopic.strlen → p.will.map Prod.fst = some c.lastWillTopic.bytes
  lastWillMessage : 0 < c.lastWillMessage.strlen →
    p.will.map Prod.snd = some c.lastWillMessage.bytes
  username : 0 < c.username.strlen → p.username = some c.username.bytes
  password : 0 < c.password.strlen → p.password = some c.password.bytes

def HandedUncut (c : MQTTConnect) (data : List UInt8) : Prop :=
  (∃ n next, Base128.scan (ofList data 0) 1 4 = some (n, next) ∧ data.length = next + n) ∧
    ∃ p, ConnectPacket.decode data = some p ∧ Carries c p

def connectSize (c : MQTTConnect) : Nat :=
  (Base128.digits (connectBodySize c)).length + 1 + connectBodySize c

theorem Carries.sublist (h : Carries c p) {clientId : CString} (id : c.clientId = some clientId) :
    ((payloadStrings c).map (·.bytes)).Sublist p.fields := by
  have optional {s : CString} {o : Option (List UInt8)} (there : 0 < s.strlen → o = some s.bytes) :
      ((optionalStrings s).map (·.bytes)).Sublist o.toList := by
    rw [optionalStrings]
    split
    · rw [there ‹_›]
      exact List.Sublist.refl _
    · exact List.nil_sublist _
  have will : ((willStrings c).map (·.bytes)).Sublist (p.will.elim [] fun w => [w.1, w.2]) := by
    rw [willStrings]
    split
    case isTrue both =>
      have topic := h.lastWillTopic both.1
      have message := h.lastWillMessage both.2
      obtain ⟨w, there, first⟩ := Option.map_eq_some_iff.mp topic
      rw [there, Option.map_some, Option.some.injEq] at message
      rw [there, Option.elim_some, first, message]
      exact List.Sublist.refl _
    case isFalse => exact List.nil_sublist _
  simp only [payloadStrings, id, Option.elim_some, List.map_cons, List.map_append,
    ConnectPacket.fields, h.clientId clientId id]
  exact (will.append ((optional h.username).append (optional h.password))).cons_cons _

theorem carries_connectPacket {clientId : CString} (id : c.clientId = some clientId)
    (paired : 0 < c.lastWillTopic.strlen ↔ 0 < c.lastWillMessage.strlen) :
    Carries c (connectPacket c clientId) := by
  refine ⟨fun s same => ?_, fun topic => ?_, fun message => ?_, fun username => ?_,
    fun password => ?_⟩
  · cases id.symm.trans same
    rfl
  · simp only [connectPacket, if_pos (And.intro topic (paired.mp topic))]
    rfl
  · simp only [connectPacket, if_pos (And.intro (paired.mpr message) message)]
    rfl
  · simp only [connectPacket, if_pos username]
  · simp only [connectPacket, if_pos password]

theorem paired_of_carries {clientId : CString} (h : Carries c (connectPacket c clientId)) :
    0 < c.lastWillTopic.strlen ↔ 0 < c.lastWillMessage.strlen := by
  by_cases both : 0 < c.lastWillTopic.strlen ∧ 0 < c.lastWillMessage.strlen
  · exact iff_of_true both.1 both.2
  · have none : (connectPacket c clientId).will = none := if_neg both
    constructor
    · intro topic
      cases none ▸ h.lastWillTopic topic
    · intro message
      cases none ▸ h.lastWillMessage message

theorem connectBodySize_eq (short : ∀ s ∈ payloadStrings c, s.strlen < 65536) :
    connectBodySize c = stringsSize (payloadStrings c) + 10 := by
  rw [connectBodySize, stringsSize_of_short short, Nat.add_comm]
  rfl

theorem length_connectBytes_eq (short : ∀ s ∈ payloadStrings c, s.strlen < 65536) :
    (connectBytes c).length = connectSize c := by
  rw [length_connectBytes, ← connectBodySize_eq short]
  rfl

theorem short_of_connectSize (h : connectSize c ≤ 65535) :
    ∀ s ∈ payloadStrings c, s.strlen < 65536 := by
  intro s hs
  obtain ⟨before, behind, split⟩ := List.append_of_mem hs
  rw [connectSize, connectBodySize, split, List.map_append, List.map_cons, List.sum_append,
    List.sum_cons] at h
  omega

theorem connectSize_of_uncut {clientId : CString} (id : c.clientId = some clientId)
    {data : List UInt8} (cut : data = (connectBytes c).take (u16 (connectBytes c).length))
    (h : HandedUncut c data) : connectSize c ≤ 65535 := by
  obtain ⟨-, p, decoded, carries⟩ := h
  obtain ⟨fieldsShort, longer⟩ := ConnectPacket.body_of_decode decoded
  have sub := carries.sublist id
  have short : ∀ s ∈ payloadStrings c, s.strlen < 65536 := fun s hs =>
    fieldsShort s.bytes (sub.subset (List.mem_map.mpr ⟨s, hs, rfl⟩))
  have size := length_connectBytes_eq short
  have carried : connectBodySize c ≤ p.body.length := by
    have payload := (sub.flatMap field).length_le
    have ten : (ConnectPacket.variableHeader p.flags p.keepalive.toNat).length = 10 := rfl
    have strings : (((payloadStrings c).map (·.bytes)).flatMap field).length =
        stringsSize (payloadStrings c) := by
      rw [stringsSize_of_short short, List.length_flatMap, List.map_map]
      simp only [Function.comp_def, length_field, CString.strlen]
    rw [connectBodySize_eq short, ConnectPacket.body, List.length_append, ten, ConnectPacket.payload]
    omega
  have small : (Base128.digits (connectBodySize c)).length ≤ 4 := by
    have := stringsSize_payload_le c
    rw [connectBodySize_eq short]
    exact length_digits_le_four (by omega)
  -- a cut takes away 65536 bytes at least, which is more than the fixed header
  have left : data.length = u16 (connectSize c) := by
    rw [cut, List.length_take, size]
    exact Nat.min_eq_left (Nat.mod_le _ _)
  rw [u16] at left
  rw [connectSize] at left ⊢
  omega

theorem handedUncut_of_connectSize {clientId : CString} (id : c.clientId = some clientId)
    (paired : 0 < c.lastWillTopic.strlen ↔ 0 < c.lastWillMessage.strlen)
    (fits : connectSize c ≤ 65535) :
    HandedUncut c ((connectBytes c).take (u16 (connectBytes c).length)) := by
  have short := short_of_connectSize fits
  have size := length_connectBytes_eq short
  rw [u16_of_lt (by omega), List.take_length]
  constructor
  · have spells := spells_ofList (connectBytes c) (0 : UInt8)
    have digits : Spells (ofList (connectBytes c) 0) 1 (Base128.digits (connectBodySize c)) := by
      rw [connectBodySize_eq short]
      exact ((spells_cons _ _ _ _).mp ((spells_append _ _ _ _).mp spells).1).2
    rw [connectSize] at fits
    refine ⟨_, _, Base128.scan_of_spells digits (length_digits_le_four (by omega)), ?_⟩
    rw [size, connectSize]
    omega
  · rw [← size, connectBytes_eq_wire id short] at fits
    rw [connectBytes_eq_wire id short]
    exact ⟨_, decode_connectPacket id short fits, carries_connectPacket id paired⟩

theorem formed_of_successfull {messageBuffer : Ptr Mem} {maxBufferSize : Nat}
    {inFptr : Ptr (Int × Mem)} {outFptr : Ptr (List UInt8 → Int)} {wait : Bool} {temporary : Mem}
    (h : mqttConnect_ messageBuffer maxBufferSize inFptr outFptr (some c) wait temporary = .ok sent)
    (ok : sent.status = .successfull) : ∃ mem q st,
      mqttConnectFill (.fresh mem) maxBufferSize c 0 temporary = .ok (some q, st) ∧
        sent.calls = [st.buffer.read q st.outputSize] := by
  have invalid : MQTTErrorCodes.invalidArgument ≠ .successfull := by decide
  cases outFptr with
  | none =>
    cases h
    exact absurd ok invalid
  | some ret =>
    cases messageBuffer with
    | none =>
      cases h
      exact absurd ok invalid
    | some mem =>
      cases formed : mqttConnectFill (.fresh mem) maxBufferSize c 0 temporary with
      | error e =>
        simp only [mqttConnect_, formed] at h
        cases h
      | ok r =>
        obtain ⟨_ | q, st⟩ := r
        · simp only [mqttConnect_, formed] at h
          cases h
          exact absurd ok invalid
        · exact ⟨mem, q, st, formed, (mqttConnect_formed formed h).2⟩

/-- A CONNECT goes out uncut exactly if its complete packet has a 16-bit size and its
will, if there is one, has both its topic and its message. -/
theorem connectUncut_iff {messageBuffer : Ptr Mem} {maxBufferSize : Nat} {inFptr : Ptr (Int × Mem)}
    {outFptr : Ptr (List UInt8 → Int)} {temporary : Mem}
    (h : mqttConnect_ messageBuffer maxBufferSize inFptr outFptr (some c) false temporary =
      .ok sent) (ok : sent.status = .successfull) :
    (∃ data, sent.calls = [data] ∧ HandedUncut c data) ↔ connectSize c ≤ 65535 ∧
      (0 < c.lastWillTopic.strlen ↔ 0 < c.lastWillMessage.strlen) := by
  obtain ⟨mem, q, st, formed, calls⟩ := formed_of_successfull h ok
  obtain ⟨_, parameters, -⟩ := parametersFilled_of_formed formed
  obtain ⟨clientId, id⟩ := Option.ne_none_iff_exists'.mp parameters.clientId
  have cut := mqttConnectFill_data formed
  simp only [calls, List.cons.injEq, and_true, exists_eq_left']
  constructor
  · intro uncut
    have fits := connectSize_of_uncut id cut uncut
    obtain ⟨-, p, decoded, carries⟩ := uncut
    have short := short_of_connectSize fits
    rw [← length_connectBytes_eq short] at fits
    rw [cut, u16_of_lt (by omega), List.take_length, connectBytes_eq_wire id short,
      decode_connectPacket id short (by rwa [← connectBytes_eq_wire id short])] at decoded
    obtain rfl := Option.some.inj decoded
    rw [length_connectBytes_eq short] at fits
    exact ⟨fits, paired_of_carries carries⟩
  · rintro ⟨fits, paired⟩
    rw [cut]
    exact handedUncut_of_connectSize id paired fits

theorem mqttConnect_taken {mem temporary : Mem} {maxBufferSize : Nat}
    (formed : mqttConnectFill (.fresh mem) maxBufferSize c 0 temporary = .ok (some q, st)) :
    mqttConnect_ (some mem) maxBufferSize none (some fun data => data.length) (some c) false
      temporary = .ok ⟨.successfull, [st.buffer.read q st.outputSize], some st.buffer.cells⟩ := by
  have all : ((st.buffer.read q st.outputSize).length : Int) = st.outputSize :=
    congrArg _ (length_slice _ _ _)
  simp only [mqttConnect_, formed, if_pos all]

theorem connectUncut_sample : ∃ sent,
    mqttConnect_ (some fun _ => 0) 64 none (some fun data => data.length) (some (.sample 60)) false
        (fun _ => 0) = .ok sent ∧ ∃ data, sent.calls = [data] ∧ HandedUncut (.sample 60) data := by
  have room : connectCharge (.sample 60) ≤ 64 := by decide
  obtain ⟨q, st, formed⟩ := (formed_iff (fun _ => 0) (fun _ => 0) 0 (clientId_sample 60) (by decide)
    (by decide) (by decide)).mpr room
  have run := mqttConnect_taken formed
  exact ⟨_, run, (connectUncut_iff run rfl).mpr ⟨by decide +kernel, by decide⟩⟩

def CString.long : CString where
  bytes := List.replicate 65520 0x61
  noNul zero := absurd (List.eq_of_mem_replicate zero) (by decide)

theorem strlen_long : CString.long.strlen = 65520 := List.length_replicate

def MQTTConnect.long : MQTTConnect := { MQTTConnect.sample 60 with clientId := some .long }

theorem payloadStrings_long : payloadStrings .long = [.long] := rfl

theorem connectBodySize_long : connectBodySize .long = 65532 := by
  rw [connectBodySize, payloadStrings_long, List.map_singleton, strlen_long]
  rfl

theorem connect_truncated : ¬ ∀ sent,
    mqttConnect_ (some fun _ => 0) 200000 none (some fun data => data.length) (some .long) false
        (fun _ => 0) = .ok sent → sent.status = .successfull →
      ∃ data, sent.calls = [data] ∧ HandedUncut .long data := by
  intro uncut
  have short : ∀ s ∈ payloadStrings .long, s.strlen < 65536 := by
    intro s hs
    rw [payloadStrings_long] at hs
    rw [List.mem_singleton.mp hs, strlen_long]
    decide
  have charge : connectCharge .long ≤ 200000 := by
    rw [connectCharge, connectBodySize_long, payloadStrings_long, List.map_singleton, strlen_long]
    decide
  have id : MQTTConnect.long.clientId = some .long := rfl
  have nonempty : 0 < CString.long.strlen := by
    rw [strlen_long]
    decide
  obtain ⟨q, st, formed⟩ := (formed_iff (fun _ => 0) (fun _ => 0) 0 id nonempty short
    (by decide)).mpr charge
  obtain ⟨data, calls, handed⟩ := uncut _ (mqttConnect_taken formed) rfl
  have cut := mqttConnectFill_data formed
  rw [List.singleton_inj.mp calls] at cut
  have fits := connectSize_of_uncut id cut handed
  rw [connectSize, connectBodySize_long] at fits
  exact absurd fits (by decide +kernel)

end Uncut

end RojalMQTT
