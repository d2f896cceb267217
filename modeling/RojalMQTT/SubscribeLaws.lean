import RojalMQTT.PublishLaws

/-! The SUBSCRIBE that `encode_subscribe` hands out, and what becomes of its SUBACK. -/

namespace RojalMQTT

open Library

structure IsSubscribe (identifier : UInt16) (filter : List UInt8) (qos : MQTTQoSLevel)
    (data : List UInt8) : Prop where
  first : data.head? = some 0x82
  body : ∃ next, next ≤ data.length ∧ getSize (ofList data 0) = (some next, data.length - next) ∧
    data.drop next = be16 identifier.toNat ++ (field filter ++ [UInt8.ofNat qos.toBits])

def subscribeSize (topicSize : UInt16) : Nat :=
  (Base128.digits (topicSize.toNat + 5)).length + 1 + (topicSize.toNat + 5)

section Encoder

variable {outputSize : UInt32} {topicQos : MQTTQoSLevel} {topicSize : UInt16}

theorem subscribeAccepted_of_fits (topic : Mem) (fits : subscribeSize topicSize ≤ outputSize.toNat) :
    SubscribeAccepted outputSize topicQos (some topic) topicSize := by
  have short := topicSize.toNat_lt
  have identifier := identifierSize_le topicQos
  have positive := Base128.length_digits_pos (topicSize.toNat + 5)
  have three : (Base128.digits (subscribeRemaining topicQos topicSize)).length ≤ 2 + 1 := by
    rw [Base128.length_digits_le_iff, subscribeRemaining]
    omega
  rw [subscribeSize] at fits
  exact ⟨Option.some_ne_none topic, by omega, by omega⟩

theorem length_subscribeBytes (topic : Mem) (packetIdentifier : UInt16) :
    (subscribeBytes topicQos topic topicSize packetIdentifier).length =
      (fixedHeaderBytes true .qos0 false .subscribe
        (subscribeRemaining topicQos topicSize)).length + (topicSize.toNat + 5) := by
  simp only [subscribeBytes, List.length_append, length_field, length_be16, length_slice,
    List.length_singleton]
  omega

theorem isSubscribe_subscribeBytes_iff (topic : Mem) (packetIdentifier : UInt16) :
    IsSubscribe packetIdentifier (slice topic 0 topicSize.toNat) topicQos
        (subscribeBytes topicQos topic topicSize packetIdentifier) ↔ topicQos = .qos0 := by
  have short := topicSize.toNat_lt
  have identifier := identifierSize_le topicQos
  have header : Spells (ofList (subscribeBytes topicQos topic topicSize packetIdentifier) 0) 0
      (fixedHeaderBytes true .qos0 false .subscribe (subscribeRemaining topicQos topicSize)) :=
    ((spells_append _ _ _ _).mp (spells_ofList _ 0)).1
  have size := getSize_of_spells header (by rw [subscribeRemaining]; omega)
  have length := @length_subscribeBytes topicQos topicSize topic packetIdentifier
  have announced : subscribeRemaining topicQos topicSize = topicSize.toNat + 5 ↔
      topicQos = .qos0 := by
    cases topicQos <;> simp [subscribeRemaining, identifierSize, MQTTQoSLevel.toBits]
  rw [← announced]
  constructor
  · rintro ⟨-, next, -, same, -⟩
    rw [size, Prod.mk.injEq, Option.some.injEq] at same
    omega
  · intro announced
    refine ⟨rfl, (fixedHeaderBytes true .qos0 false .subscribe
      (subscribeRemaining topicQos topicSize)).length, by omega, ?_, ?_⟩
    · rw [size, length, announced, Nat.add_sub_cancel_left]
    · rw [subscribeBytes, List.drop_left]

/-- In a buffer that can hold the packet `encode_subscribe` forms a SUBSCRIBE
exactly for QoS 0. -/
theorem subscribe_wellFramed_iff (ret : List UInt8 → Int) (output : Buffer UInt8) (topic : Mem)
    (packetIdentifier : UInt16) (fits : subscribeSize topicSize ≤ outputSize.toNat) :
    (∃ sent data, encodeSubscribe (some ret) (some output) outputSize topicQos (some topic) topicSize
        packetIdentifier = .ok sent ∧ sent.calls = [data] ∧
      IsSubscribe packetIdentifier (slice topic 0 topicSize.toNat) topicQos data) ↔
    topicQos = .qos0 := by
  rw [encodeSubscribe_of_accepted (subscribeAccepted_of_fits topic fits), handOut_copy,
    ← isSubscribe_subscribeBytes_iff topic packetIdentifier]
  constructor
  · rintro ⟨sent, data, run, calls, isSubscribe⟩
    cases run
    cases calls
    exact isSubscribe
  · intro isSubscribe
    exact ⟨_, _, rfl, rfl, isSubscribe⟩

theorem subscribe_wellFramed_sample :
    (∃ sent data, encodeSubscribe (some fun _ => 10) (some (.fresh fun _ => 0)) 10 .qos0
        (some (ofList [0x61, 0x2F, 0x62] 0)) 3 7 = .ok sent ∧ sent.calls = [data] ∧
      IsSubscribe 7 (slice (ofList [0x61, 0x2F, 0x62] 0) 0 3) .qos0 data) ↔
    MQTTQoSLevel.qos0 = .qos0 :=
  @subscribe_wellFramed_iff 10 .qos0 3 (fun _ => 10) (.fresh fun _ => 0)
    (ofList [0x61, 0x2F, 0x62] 0) 7 (by decide +kernel)

def subscribePacketSize (topicQos : MQTTQoSLevel) (topicSize : UInt16) : Nat :=
  (Base128.digits (subscribeRemaining topicQos topicSize)).length + 1 + 2 + 2 + topicSize.toNat + 1

def SubscribeStaysInside (outputSize : UInt32) (topicQos : MQTTQoSLevel) (topicSize : UInt16)
    (sent : Sent) : Prop :=
  PublishStaysInside outputSize (subscribePacketSize topicQos topicSize) sent

theorem encodeSubscribe_idle {outFptr : Ptr (List UInt8 → Int)} {output : Ptr (Buffer UInt8)}
    {topic : Ptr Mem} (packetIdentifier : UInt16)
    (h : outFptr ≠ none → output ≠ none → topic ≠ none → outputSize.toNat ≤ topicSize.toNat) :
    encodeSubscribe outFptr output outputSize topicQos topic topicSize packetIdentifier =
      .ok ⟨false, [], output⟩ := by
  cases outFptr with
  | none => rfl
  | some ret =>
    cases output with
    | none => rfl
    | some output =>
      cases topic with
      | none => rfl
      | some topic =>
        have full := h (Option.some_ne_none _) (Option.some_ne_none _) (Option.some_ne_none _)
        simp only [encodeSubscribe, if_neg (Nat.not_lt.mpr full)]

theorem encodeSubscribe_headerOnly (ret : List UInt8 → Int) (output : Buffer UInt8) (topic : Mem)
    (packetIdentifier : UInt16) (room : topicSize.toNat < outputSize.toNat)
    (short : outputSize.toNat ≤ (fixedHeaderBytes true .qos0 false .subscribe
      (subscribeRemaining topicQos topicSize)).length) :
    encodeSubscribe (some ret) (some output) outputSize topicQos (some topic) topicSize
        packetIdentifier =
      .ok ⟨false, [], some (output.copy 0 (fixedHeaderBytes true .qos0 false .subscribe
        (subscribeRemaining topicQos topicSize)))⟩ := by
  simp only [encodeSubscribe, if_pos room, subscribeRemaining_eq,
    encodeFixedHeader_of_encodes subscribeRemaining_encodes]
  rw [if_neg fun pass => absurd pass.2 (Nat.not_lt.mpr short)]

theorem length_subscribeHeader (topicQos : MQTTQoSLevel) (room : topicSize.toNat < outputSize.toNat) :
    (outputSize.toNat ≤ 2 ∧ (fixedHeaderBytes true .qos0 false .subscribe
        (subscribeRemaining topicQos topicSize)).length = 2) ∨
      (2 < outputSize.toNat ∧ (fixedHeaderBytes true .qos0 false .subscribe
        (subscribeRemaining topicQos topicSize)).length < outputSize.toNat) := by
  have short := topicSize.toNat_lt
  have identifier := identifierSize_le topicQos
  have positive := Base128.length_digits_pos (subscribeRemaining topicQos topicSize)
  have three : (Base128.digits (subscribeRemaining topicQos topicSize)).length ≤ 2 + 1 := by
    rw [Base128.length_digits_le_iff, subscribeRemaining]
    omega
  have one (small : topicSize.toNat < 4) :
      (Base128.digits (subscribeRemaining topicQos topicSize)).length ≤ 0 + 1 := by
    rw [Base128.length_digits_le_iff, subscribeRemaining]
    omega
  rw [length_fixedHeaderBytes]
  by_cases small : topicSize.toNat < 4
  · have := one small
    omega
  · omega

theorem subscribeStaysInside_of_room (topicQos : MQTTQoSLevel) (ret : List UInt8 → Int)
    (mem topic : Mem) (packetIdentifier : UInt16) (room : topicSize.toNat < outputSize.toNat) :
    ∃ sent, encodeSubscribe (some ret) (some (.fresh mem)) outputSize topicQos (some topic) topicSize
        packetIdentifier = .ok sent ∧
      (SubscribeStaysInside outputSize topicQos topicSize sent ↔
        outputSize.toNat = 2 ∨ subscribePacketSize topicQos topicSize ≤ outputSize.toNat) := by
  have size : subscribePacketSize topicQos topicSize =
      (subscribeBytes topicQos topic topicSize packetIdentifier).length := by
    rw [length_subscribeBytes, length_fixedHeaderBytes, subscribePacketSize]
    omega
  rcases length_subscribeHeader topicQos room with ⟨tiny, two⟩ | ⟨large, fits⟩
  · refine ⟨_, encodeSubscribe_headerOnly ret (.fresh mem) topic packetIdentifier room (by omega), ?_⟩
    have written := Buffer.extent_fresh_copy mem (fixedHeaderBytes true .qos0 false .subscribe
      (subscribeRemaining topicQos topicSize))
    rw [length_subscribeBytes] at size
    constructor
    · intro stays
      have := stays.inside _ rfl
      omega
    · intro _
      refine ⟨fun output same => ?_, fun _ => ⟨rfl, rfl⟩⟩
      obtain rfl := Option.some.inj same
      omega
  · have accepted : SubscribeAccepted outputSize topicQos (some topic) topicSize :=
      ⟨Option.some_ne_none _, room, fits⟩
    have more : outputSize.toNat ≠ 2 := Nat.ne_of_gt large
    rw [encodeSubscribe_of_accepted accepted, handOut, or_iff_right more]
    exact ⟨_, rfl, publishStaysInside_handed_iff rfl (List.cons_ne_nil _ _) fun _ => size.symm⟩

/-- `encode_subscribe` stays inside its output buffer exactly if it stops at its
arguments, the buffer has two bytes, which the fixed header fills, or the packet fits. -/
theorem subscribeStaysInside_iff (outFptr : Ptr (List UInt8 → Int)) (output : Ptr Mem)
    (outputSize : UInt32) (topicQos : MQTTQoSLevel) (topic : Ptr Mem)
    (topicSize packetIdentifier : UInt16) :
    (∃ sent, encodeSubscribe outFptr (output.map .fresh) outputSize topicQos topic topicSize
        packetIdentifier = .ok sent ∧ SubscribeStaysInside outputSize topicQos topicSize sent) ↔
    (outFptr ≠ none → output ≠ none → topic ≠ none → topicSize.toNat < outputSize.toNat →
      outputSize.toNat = 2 ∨ subscribePacketSize topicQos topicSize ≤ outputSize.toNat) := by
  by_cases tried : outFptr ≠ none ∧ output ≠ none ∧ topic ≠ none ∧ topicSize.toNat < outputSize.toNat
  · obtain ⟨out, buffer, name, room⟩ := tried
    obtain ⟨ret, rfl⟩ := Option.ne_none_iff_exists'.mp out
    obtain ⟨mem, rfl⟩ := Option.ne_none_iff_exists'.mp buffer
    obtain ⟨topic, rfl⟩ := Option.ne_none_iff_exists'.mp name
    obtain ⟨sent, run, stays⟩ := subscribeStaysInside_of_room topicQos ret mem topic
      packetIdentifier room
    rw [Option.map_some]
    simp only [run, Except.ok.injEq, exists_eq_left', stays]
    exact ⟨fun holds _ _ _ _ => holds, fun holds => holds out buffer name room⟩
  · refine iff_of_true ?_ fun out buffer name room => absurd ⟨out, buffer, name, room⟩ tried
    refine ⟨_, encodeSubscribe_idle packetIdentifier fun out buffer name => ?_, ?_⟩
    · rw [ne_eq, Option.map_eq_none_iff] at buffer
      exact Nat.not_lt.mp fun room => tried ⟨out, buffer, name, room⟩
    · refine ⟨fun written same => ?_, fun _ => ⟨rfl, rfl⟩⟩
      obtain ⟨mem, -, rfl⟩ := Option.map_eq_some_iff.mp same
      exact Nat.zero_le _

end Encoder

theorem subscribe_overruns : ¬ ∃ sent,
    encodeSubscribe (some fun _ => 0) ((some fun _ => 0).map .fresh) 64 .qos0
        (some fun _ => 0x61) 60 1 = .ok sent ∧ SubscribeStaysInside 64 .qos0 60 sent := by
  rintro ⟨sent, run, stays⟩
  obtain ⟨sent', run', calls⟩ := exists_of_any
    (x := encodeSubscribe (some fun _ => 0) ((some fun _ => 0).map .fresh) 64 .qos0
      (some fun _ => 0x61) 60 1)
    (p := fun sent => sent.calls ≠ []) (by decide +kernel)
  obtain rfl := Except.ok.inj (run.symm.trans run')
  exact of_decide_eq_true calls (stays.refused (by decide +kernel)).2

theorem subscribe_overstates : ¬ ∃ sent data,
    encodeSubscribe (some fun _ => 10) (some (.fresh fun _ => 0)) 64 .qos1
        (some (ofList [0x61, 0x62, 0x63] 0)) 3 1 = .ok sent ∧ sent.calls = [data] ∧
      IsSubscribe 1 (slice (ofList [0x61, 0x62, 0x63] 0) 0 3) .qos1 data := by
  rintro ⟨sent, data, run, calls, -, next, -, size, -⟩
  obtain ⟨sent', run', wrong⟩ := exists_of_any
    (x := encodeSubscribe (some fun _ => 10) (some (.fresh fun _ => 0)) 64 .qos1
      (some (ofList [0x61, 0x62, 0x63] 0)) 3 1)
    (p := fun sent => sent.calls.all fun data =>
      data.length = 10 ∧ getSize (ofList data 0) = (some 2, 10)) (by decide +kernel)
  obtain rfl := Except.ok.inj (run.symm.trans run')
  rw [calls, List.all_cons, Bool.and_eq_true, decide_eq_true_eq] at wrong
  obtain ⟨⟨length, announced⟩, -⟩ := wrong
  rw [announced, length] at size
  cases size

structure IsSuback (input : Mem) (next : Nat) (identifier : UInt16) (code : UInt8) : Prop where
  first : input 0 = 0x90
  size : getSize input = (some next, 3)
  body : Spells input next (be16 identifier.toNat ++ [code])
  known : code ∈ [0, 1, 2, 0x80]

def SubackUnderstood (input : Mem) (messageSize : Nat) (s : MQTTSharedData) (code : UInt8) : Prop :=
  ∃ r status dataPtr dataLen topicPtr topicLen,
    mqttParseInputStream (some input) messageSize (some s) = .ok r ∧
      r.events = [.subscribeCb status dataPtr dataLen topicPtr topicLen] ∧
      (status = .successfull ↔ code ≠ 0x80) ∧ (r.status = .successfull ↔ status = .successfull)

theorem mqttParseInputStream_suback {input : Mem} {next : Nat} {s : MQTTSharedData}
    (first : input 0 = 0x90) (size : getSize input = (some next, 3)) (messageSize : Nat)
    (set : s.subscribeCbFptr ≠ none) :
    mqttParseInputStream (some input) messageSize (some s) =
      .ok { status := .successfull, messageSize := 3
            events := [.subscribeCb (if input 4 = 0x80 then .successfull else .publishDecodeError)
              none 0 none 0]
            shared := some s } := by
  obtain ⟨cb, set⟩ := Option.ne_none_iff_exists'.mp set
  have header : decodeFixedHeader input =
      { next := some next, dup := false, qos := .qos0, retain := false, messageType := .suback,
        messageSize := 3 } := by
    simp only [decodeFixedHeader, size, first]
    rfl
  simp only [mqttParseInputStream, header, parseSuback, decodeVariableHeaderSuback,
    Option.bind_some, set]
  by_cases failure : input 4 = 0x80 <;> simp [failure]

theorem IsSuback.fifth {input : Mem} {next : Nat} {identifier : UInt16} {code : UInt8}
    (h : IsSuback input next identifier code) :
    (next = 2 ∧ input 4 = code) ∨ (next = 3 ∧ input 4 = UInt8.ofNat identifier.toNat) ∨
      (next = 4 ∧ input 4 = UInt8.ofNat (identifier.toNat / 256)) ∨
      (next = 5 ∧ (input 4).toNat < 128) := by
  have size := h.size
  obtain ⟨high, low, code, -⟩ := h.body
  rw [getSize_eq] at size
  cases scanned : Base128.scan input 1 4 with
  | none =>
    rw [scanned] at size
    cases size
  | some r =>
    obtain ⟨n, next'⟩ := r
    rw [scanned] at size
    cases size
    have := Base128.scan_end scanned
    obtain rfl | rfl | rfl | rfl : next = 2 ∨ next = 3 ∨ next = 4 ∨ next = 5 := by omega
    · exact .inl ⟨rfl, code⟩
    · exact .inr (.inl ⟨rfl, low⟩)
    · exact .inr (.inr (.inl ⟨rfl, high⟩))
    · exact .inr (.inr (.inr ⟨rfl, Base128.last_of_scan scanned⟩))

/-- A SUBACK is understood exactly if it grants the subscription and a byte of its
identifier stands where the return code is read, and reads 0x80. -/
theorem subackUnderstood_iff {input : Mem} {next : Nat} {identifier : UInt16} {code : UInt8}
    {s : MQTTSharedData} (h : IsSuback input next identifier code) (messageSize : Nat)
    (set : s.subscribeCbFptr ≠ none) :
    SubackUnderstood input messageSize s code ↔ code ≠ 0x80 ∧
      (next = 3 ∧ identifier.toNat % 256 = 0x80 ∨ next = 4 ∧ identifier.toNat / 256 = 0x80) := by
  have short := identifier.toNat_lt
  have told : SubackUnderstood input messageSize s code ↔ input 4 = 0x80 ∧ code ≠ 0x80 := by
    simp only [SubackUnderstood, mqttParseInputStream_suback h.first h.size messageSize set,
      Except.ok.injEq]
    by_cases eighty : input 4 = 0x80
    · simp [eighty]
    · simp [eighty, MQTTErrorCodes.publishDecodeError, MQTTErrorCodes.successfull]
  rw [told, and_comm]
  apply and_congr_right
  intro granted
  rw [← UInt8.toNat_inj]
  rcases h.fifth with ⟨rfl, fifth⟩ | ⟨rfl, fifth⟩ | ⟨rfl, fifth⟩ | ⟨rfl, fifth⟩
  · rw [fifth, UInt8.toNat_inj]
    simp [granted]
  · rw [fifth, UInt8.toNat_ofNat']
    simp
  · rw [fifth, UInt8.toNat_ofNat']
    simp
    omega
  · simp
    omega

theorem subackUnderstood_sample : SubackUnderstood (ofList [0x90, 0x83, 0, 0, 0x80, 1] 0) 6
    { MQTTSharedData.sample with subscribeCbFptr := some 1 } 1 := by
  have suback : IsSuback (ofList [0x90, 0x83, 0, 0, 0x80, 1] 0) 3 0x80 1 :=
    ⟨rfl, by decide +kernel, ⟨rfl, rfl, rfl, trivial⟩, by decide⟩
  exact (subackUnderstood_iff suback 6 (Option.some_ne_none 1)).mpr
    ⟨by decide, .inl ⟨rfl, by decide⟩⟩

theorem suback_misread : ¬ SubackUnderstood (ofList [0x90, 3, 0, 1, 0] 0) 5
    { MQTTSharedData.sample with subscribeCbFptr := some 1 } 0 := by
  rintro ⟨r, status, _, _, _, _, run, events, granted, -⟩
  have size : getSize (ofList [0x90, 3, 0, 1, 0] 0) = (some 2, 3) := by decide +kernel
  rw [mqttParseInputStream_suback rfl size 5 (Option.some_ne_none 1)] at run
  cases run
  cases events
  exact absurd (granted.mpr (by decide)) (by decide)

end RojalMQTT
