import RojalMQTT.ReceiveLaws

/-! What the parser accepts: the bodies of PUBLISH, the slices it delivers from them,
and the CONNACKs that open a connection. -/

namespace RojalMQTT

open Library

section Publish

variable {input : Mem} {p n : Nat} {qos : MQTTQoSLevel}

def BodyWellFormed (input : Mem) (p n : Nat) (qos : MQTTQoSLevel) : Prop :=
  1 ≤ word input p ∧ 2 + word input p + identifierSize qos ≤ n

instance : Decidable (BodyWellFormed input p n qos) := inferInstanceAs (Decidable (_ ∧ _))

/-- Exactly the well-formed bodies are accepted.  A message without payload is one,
and the subscribe callback is told of it. -/
structure AcceptsExactly (input : Mem) (p n : Nat) (qos : MQTTQoSLevel) : Prop where
  accepts : decodePublish input p n qos ≠ none ↔ BodyWellFormed input p n qos
  empty : 1 ≤ word input p → 2 + word input p + identifierSize qos = n →
    ∃ d, decodePublish input p n qos = some d ∧ d.outMessageSize = 0 ∧
      ∀ (s : MQTTSharedData) (size : Nat), s.subscribeCbFptr ≠ none →
        (decodeFixedHeader input).next = some p → (decodeFixedHeader input).qos = qos →
        (decodeFixedHeader input).messageType = .publish →
        (decodeFixedHeader input).messageSize = n →
          ∃ r, mqttParseInputStream (some input) size (some s) = .ok r ∧
            r.status = .successfull ∧ r.events = [.subscribeCb .successfull (some d.outMessage) 0
              (some d.topicOut) d.topicLengthOut]

theorem acceptsExactly_iff (input : Mem) (p n : Nat) (qos : MQTTQoSLevel) :
    AcceptsExactly input p n qos ↔
      ¬ (1 ≤ word input p ∧ 2 + word input p + identifierSize qos = n) := by
  have accepted : decodePublish input p n qos ≠ none ↔
      1 ≤ word input p ∧ 2 + word input p + identifierSize qos < n := by
    rw [decodePublish_eq]
    split
    · exact iff_of_true (Option.some_ne_none _) ‹_›
    · exact iff_of_false (fun some => some rfl) ‹_›
  constructor
  · rintro contract ⟨topic, whole⟩
    have := (accepted.mp (contract.accepts.mpr ⟨topic, by omega⟩)).2
    omega
  · intro more
    refine ⟨accepted.trans ?_, fun topic whole => absurd ⟨topic, whole⟩ more⟩
    rw [BodyWellFormed]
    omega

theorem emptyMessage_refused : ¬ AcceptsExactly (ofList [0x30, 3, 0, 1, 0x61] 0) 2 3 .qos0 := by
  intro contract
  have refused : decodePublish (ofList [0x30, 3, 0, 1, 0x61] 0) 2 3 .qos0 = none := by decide +kernel
  exact contract.accepts.mpr (by decide +kernel) refused

structure Delivered (input : Mem) (h n : Nat) (qos : MQTTQoSLevel)
    (message messageSize topic topicSize : Nat) : Prop where
  topicStart : topic = h + 2
  topicLength : topicSize = word input h
  topicNonempty : 1 ≤ topicSize
  messageStart : message = topic + topicSize + identifierSize qos
  messageNonempty : 1 ≤ messageSize
  messageEnd : message + messageSize = h + n
  inside : ∀ j, (topic ≤ j ∧ j < topic + topicSize) ∨ (message ≤ j ∧ j < message + messageSize) →
    h ≤ j ∧ j < h + n
  disjoint : ∀ j, topic ≤ j ∧ j < topic + topicSize → ¬ (message ≤ j ∧ j < message + messageSize)

theorem delivered_of_decodePublish {d : DecodedPublish} (h : decodePublish input p n qos = some d) :
    Delivered input p n qos d.outMessage d.outMessageSize d.topicOut d.topicLengthOut := by
  rw [decodePublish_eq] at h
  split at h
  case isFalse => cases h
  case isTrue room =>
    cases h
    have start : p + (2 + word input p + identifierSize qos) =
        p + 2 + word input p + identifierSize qos := by omega
    refine ⟨rfl, rfl, room.1, start, ?_, ?_, fun j slice => ?_, fun j topic message => ?_⟩
    all_goals
      simp only at *
      omega

/-- The slices that the subscribe callback is given partition the packet. -/
theorem delivered_partition {size : Nat} {g : Ptr MQTTSharedData} {r : Parsed} {h : Nat}
    {dup retain : Bool} {message topic : Ptr Nat} {messageSize topicSize : Nat}
    (run : mqttParseInputStream (some input) size g = .ok r)
    (header : decodeFixedHeader input =
      { next := some h, dup, qos, retain, messageType := .publish, messageSize := n })
    (told : .subscribeCb .successfull message messageSize topic topicSize ∈ r.events) :
    ∃ m t, message = some m ∧ topic = some t ∧
      Delivered input h n qos m messageSize t topicSize := by
  simp only [mqttParseInputStream, header, parsePublish] at run
  cases g with
  | none =>
    simp only at run
    cases run
  | some s =>
    cases decoded : decodePublish input h n qos with
    | none =>
      rw [decoded] at run
      cases run
      cases eq_of_mem_callback told
    | some d =>
      rw [decoded] at run
      cases run
      cases eq_of_mem_callback told
      exact ⟨_, _, rfl, rfl, delivered_of_decodePublish decoded⟩

theorem delivered_partition_sample : ∃ m t,
    Delivered (ofList [0x34, 7, 0, 1, 0x61, 0, 7, 0x68, 0x69] 0) 2 7 .qos1 m 2 t 1 := by
  have wire : (PublishPacket.mk false false .qos1 [0x61] 7 [0x68, 0x69]).wire =
      [0x34, 7, 0, 1, 0x61, 0, 7, 0x68, 0x69] := by decide +kernel
  have spells := spells_ofList [0x34, 7, 0, 1, 0x61, 0, 7, 0x68, 0x69] (0 : UInt8)
  rw [← wire] at spells
  obtain ⟨t, m, run, -, -⟩ := PublishPacket.parsed (by decide) (by decide) (by decide) (by decide)
    (by decide) spells 9 (s := { MQTTSharedData.sample with subscribeCbFptr := some 1 })
    (Option.some_ne_none 1)
  have header := decodeFixedHeader_of_spells ((spells_append _ _ _ _).mp spells).1 (by decide)
    (by decide) (by decide)
  have two : (fixedHeaderBytes false .qos1 false .publish 7).length = 2 := by decide +kernel
  obtain ⟨m', t', -, -, delivered⟩ := delivered_partition run header (List.mem_singleton.mpr rfl)
  rw [wire] at delivered
  have delivered : Delivered (ofList [0x34, 7, 0, 1, 0x61, 0, 7, 0x68, 0x69] 0)
    (fixedHeaderBytes false .qos1 false .publish 7).length 7 .qos1 m' 2 t' 1 := delivered
  rw [two] at delivered
  exact ⟨m', t', delivered⟩

end Publish

section Connack

/-- The input begins with a CONNACK that accepts the connection: two bytes behind the
fixed header, the acknowledge flags with their bits 7 to 1 clear, and a return code of 0. -/
def BeginsWithConnack (input : Mem) : Prop :=
  input 0 = 0x20 ∧ ∃ next, Base128.scan input 1 4 = some (2, next) ∧
    (input next).toNat / 2 = 0 ∧ input (next + 1) = 0

def OpensConnection (s : MQTTSharedData) (r : Parsed) : Prop :=
  (s.state = .disconnected ∧ ∃ s', r.shared = some s' ∧ s'.state = .connected) ∨
    .connectedCb .successfull ∈ r.events

def OpensByConnack (input : Mem) : Prop :=
  ∀ s size r, mqttParseInputStream (some input) size (some s) = .ok r → OpensConnection s r →
    BeginsWithConnack input

def LooksAccepted (input : Mem) (n next : Nat) : Prop :=
  Base128.scan input 1 4 = some (n, next) ∧ (FlagsAndType.ofByte (input 0)).messageType = .connack ∧
    (FlagsAndType.ofByte (input 0)).qos ≠ .qosInvalid ∧ input (next + 1) = 0

def Reaction.Opens (s : MQTTSharedData) (reaction : Reaction) : Prop :=
  (s.state = .disconnected ∧ reaction.state = .connected) ∨
    .connectedCb .successfull ∈ reaction.callbacks

theorem code_successfull (code : UInt8) :
    (code.toNat : Int) = MQTTErrorCodes.successfull ↔ code = 0 := by
  rw [← UInt8.toNat_inj, UInt8.toNat_zero]
  exact Int.natCast_eq_zero

theorem opens_reactionTo {s : MQTTSharedData} {input : Mem} {n next : Nat}
    (h : (reactionTo s input n next).Opens s) :
    (FlagsAndType.ofByte (input 0)).messageType = .connack ∧ input (next + 1) = 0 := by
  have idle (same : (reactionTo s input n next).state = s.state)
      (other : .connectedCb .successfull ∉ (reactionTo s input n next).callbacks) : False := by
    rcases h with ⟨disconnected, connected⟩ | told
    · rw [same, disconnected] at connected
      cases connected
    · exact other told
  cases messageType : (FlagsAndType.ofByte (input 0)).messageType with
  | connack =>
    refine ⟨rfl, ?_⟩
    simp only [Reaction.Opens, reactionTo, messageType] at h
    rcases h with ⟨-, connected⟩ | told
    · by_contra code
      rw [if_neg code] at connected
      cases connected
    · have code := eq_of_mem_callback told
      simp only [Event.connectedCb.injEq] at code
      exact (code_successfull _).mp code.symm
  | publish =>
    refine (idle ?_ fun told => ?_).elim
    all_goals simp only [reactionTo, messageType] at *
    · split <;> rfl
    · split at told <;> cases eq_of_mem_callback told
  | suback =>
    refine (idle ?_ fun told => ?_).elim
    all_goals simp only [reactionTo, messageType] at *
    cases eq_of_mem_callback told
  | _ =>
    refine (idle ?_ fun told => ?_).elim
    all_goals simp [reactionTo, messageType, Reaction.none] at *

theorem looksAccepted_of_opens {s : MQTTSharedData} {input : Mem} (h : (reaction s input).Opens s) :
    ∃ n next, LooksAccepted input n next := by
  rcases reaction_cases s input with same | ⟨n, next, scanned, parses, same⟩
  · rw [same] at h
    rcases h with ⟨idle, connected⟩ | told
    · rw [Reaction.none, idle] at connected
      cases connected
    · cases told
  · rw [same] at h
    obtain ⟨connack, code⟩ := opens_reactionTo h
    exact ⟨n, next, scanned, connack, parses.1, code⟩

theorem LooksAccepted.reaction {input : Mem} {n next : Nat} (h : LooksAccepted input n next)
    (s : MQTTSharedData) : (reaction s input).state = .connected := by
  obtain ⟨scanned, connack, valid, code⟩ := h
  have parses : Parses (.ofByte (input 0)) := ⟨valid, by simp [connack]⟩
  rw [reaction_of_parses scanned parses]
  simp only [reactionTo, connack, code, if_true]

theorem opensConnection_iff {s : MQTTSharedData} {input : Mem} {size : Nat} {r : Parsed}
    (run : mqttParseInputStream (some input) size (some s) = .ok r) :
    OpensConnection s r ↔ (reaction s input).Opens s := by
  obtain ⟨r', run', -, events, shared⟩ := shows_reaction s input size
  obtain rfl := Except.ok.inj (run.symm.trans run')
  simp [OpensConnection, Reaction.Opens, events, shared]

/-- The parser takes for an accepting CONNACK what has its type, QoS bits other than 3
and a 0 in the second byte behind a length that ends; it keeps to CONNACKs exactly if
all else in such an input is right. -/
theorem opensByConnack_iff (input : Mem) :
    OpensByConnack input ↔ ∀ n next, LooksAccepted input n next →
      input 0 = 0x20 ∧ n = 2 ∧ (input next).toNat / 2 = 0 := by
  constructor
  · intro contract n next looks
    obtain ⟨r, run, -⟩ := shows_reaction .sample input 0
    have opens : OpensConnection .sample r :=
      (opensConnection_iff run).mpr (.inl ⟨rfl, looks.reaction .sample⟩)
    obtain ⟨first, next', scanned, flags, -⟩ := contract _ _ _ run opens
    cases looks.1.symm.trans scanned
    exact ⟨first, rfl, flags⟩
  · intro right s size r run opens
    obtain ⟨n, next, looks⟩ := looksAccepted_of_opens ((opensConnection_iff run).mp opens)
    obtain ⟨first, rfl, flags⟩ := right n next looks
    exact ⟨first, next, looks.1, flags, looks.2.2.2⟩

theorem emptyConnack_opens : ¬ OpensByConnack (ofList [0x20, 0] 0) := by
  intro contract
  have looks : LooksAccepted (ofList [0x20, 0] 0) 0 2 :=
    ⟨by decide +kernel, by decide +kernel, by decide +kernel, by decide +kernel⟩
  obtain ⟨r, run, -⟩ := shows_reaction .sample (ofList [0x20, 0] 0) 0
  obtain ⟨-, next, scanned, -⟩ := contract _ _ _ run
    ((opensConnection_iff run).mpr (.inl ⟨rfl, looks.reaction .sample⟩))
  cases looks.1.symm.trans scanned

theorem mqttConnectParseAck_eq (input : Mem) :
    mqttConnectParseAck (some input) = (connackCode input).elim 192 fun code => (code.toNat : Int) := by
  simp only [mqttConnectParseAck, connackCode]
  cases next : (decodeFixedHeader input).next with
  | none => rfl
  | some next => cases (decodeFixedHeader input).messageType <;> rfl

theorem parsePublish_quiet {input : Mem} {next messageSize : Nat} {qos : MQTTQoSLevel}
    {g : Ptr MQTTSharedData} {r : Parsed} (run : parsePublish input next messageSize qos g = .ok r)
    (code : MQTTErrorCodes) : .connectedCb code ∉ r.events := by
  intro told
  simp only [parsePublish] at run
  split at run
  · cases run
  · cases run
    cases eq_of_mem_callback told
  · cases run
    cases eq_of_mem_callback told

theorem parseSuback_quiet (input : Mem) (messageSize : Nat) (g : Ptr MQTTSharedData)
    (code : MQTTErrorCodes) : .connectedCb code ∉ (parseSuback input messageSize g).events := by
  simp only [parseSuback]
  cases g.bind fun s => s.subscribeCbFptr with
  | none => simp
  | some _ =>
    simp only
    split <;> simp

theorem mem_connectedCb_iff {s : MQTTSharedData} {input : Mem} {size : Nat} {r : Parsed}
    {code : MQTTErrorCodes} (cb : s.connectedCbFptr ≠ none)
    (run : mqttParseInputStream (some input) size (some s) = .ok r) :
    .connectedCb code ∈ r.events ↔ ∃ c, connackCode input = some c ∧ code = (c.toNat : Int) := by
  simp only [mqttParseInputStream] at run
  simp only [connackCode]
  cases next : (decodeFixedHeader input).next with
  | none =>
    simp only [next] at run
    cases run
    simp
  | some next' =>
    cases messageType : (decodeFixedHeader input).messageType with
    | connack =>
      obtain ⟨f, cb⟩ := Option.ne_none_iff_exists'.mp cb
      simp only [next, messageType, parseConnack, decodeVariableHeaderConack, Option.map_some, cb,
        callback, Option.elim_some] at run
      cases run
      simp
    | publish =>
      simp only [next, messageType] at run
      exact iff_of_false (parsePublish_quiet run code) (by simp)
    | suback =>
      simp only [next, messageType] at run
      cases run
      exact iff_of_false (parseSuback_quiet _ _ _ code) (by simp)
    | _ =>
      simp only [next, messageType] at run
      cases run
      simp

structure AcksAgree (inputPtr : Ptr Mem) (r : Parsed) : Prop where
  accepted : mqttConnectParseAck inputPtr = .successfull ↔
    .connectedCb .successfull ∈ r.events ∧ ∃ s', r.shared = some s' ∧ s'.state = .connected
  told : ∀ code, .connectedCb code ∈ r.events → code = mqttConnectParseAck inputPtr ∧
    ∃ s', r.shared = some s' ∧
      (s'.state = .connected ↔ mqttConnectParseAck inputPtr = .successfull)

theorem acksAgree (inputPtr : Ptr Mem) (size : Nat) {s : MQTTSharedData}
    (cb : s.connectedCbFptr ≠ none) :
    ∃ r, mqttParseInputStream inputPtr size (some s) = .ok r ∧ AcksAgree inputPtr r := by
  cases inputPtr with
  | none =>
    refine ⟨_, rfl, iff_of_false (by decide) fun told => ?_, fun code told => ?_⟩
    · cases told.1
    · cases told
  | some input =>
    obtain ⟨r, run, shared, -⟩ := mqttParseInputStream_some input size s
    refine ⟨r, run, ?_, fun code told => ?_⟩
    · rw [mem_connectedCb_iff cb run, mqttConnectParseAck_eq, shared, stateAfter]
      cases connackCode input with
      | none => exact iff_of_false (by decide) (by simp)
      | some c =>
        simp only [Option.elim_some, code_successfull, Option.some.injEq, exists_eq_left',
          eq_comm (a := MQTTErrorCodes.successfull)]
        by_cases accepts : c = 0 <;> simp [accepts]
    · obtain ⟨c, found, rfl⟩ := (mem_connectedCb_iff cb run).mp told
      rw [mqttConnectParseAck_eq, shared, stateAfter, found]
      refine ⟨rfl, _, rfl, ?_⟩
      simp only [Option.elim_some, code_successfull]
      by_cases accepts : c = 0 <;> simp [accepts]

theorem acksAgree_sample : ∃ r,
    mqttParseInputStream (some (ofList [0x20, 2, 0, 3] 0)) 4
        (some { MQTTSharedData.sample with connectedCbFptr := some 1 }) = .ok r ∧
      AcksAgree (some (ofList [0x20, 2, 0, 3] 0)) r :=
  acksAgree _ 4 (Option.some_ne_none 1)

end Connack

section Pingresp

variable {s : MQTTSharedData} {input : Mem}

theorem callback_of_set {cbFptr : FunPtr} (set : cbFptr ≠ none) (event : Event) :
    callback cbFptr event = [event] := by
  obtain ⟨f, rfl⟩ := Option.ne_none_iff_exists'.mp set
  rfl

theorem mqttParsePingAck_iff (input : Mem) : mqttParsePingAck (some input) = .successfull ↔
    (decodeFixedHeader input).next ≠ none ∧ (decodeFixedHeader input).messageType = .pingresp := by
  rw [mqttParsePingAck]
  split
  case isTrue accepts => exact iff_of_true rfl accepts
  case isFalse refuses => exact iff_of_false (by decide) refuses

theorem invalid_unsuccessful : MQTTErrorCodes.invalidArgument ≠ .successfull := by
  decide

theorem parse_silent_iff {n : Nat} {r : Parsed} (connectedCb : s.connectedCbFptr ≠ none)
    (subscribeCb : s.subscribeCbFptr ≠ none)
    (run : mqttParseInputStream (some input) n (some s) = .ok r) :
    mqttParsePingAck (some input) = .successfull ↔ r.status = .successfull ∧ r.events = [] := by
  rw [mqttParsePingAck_iff]
  simp only [mqttParseInputStream] at run
  cases next : (decodeFixedHeader input).next with
  | none =>
    simp only [next] at run
    cases run
    exact iff_of_false (fun accepts => accepts.1 rfl) fun silent => invalid_unsuccessful silent.1
  | some next' =>
    cases messageType : (decodeFixedHeader input).messageType with
    | connack =>
      simp only [next, messageType, parseConnack, decodeVariableHeaderConack, Option.map_some,
        callback_of_set connectedCb] at run
      cases run
      simp
    | publish =>
      simp only [next, messageType, parsePublish] at run
      cases decoded : decodePublish input next' (decodeFixedHeader input).messageSize
          (decodeFixedHeader input).qos <;>
      · simp only [decoded, callback_of_set subscribeCb] at run
        cases run
        simp
    | suback =>
      simp only [next, messageType, parseSuback] at run
      obtain ⟨f, set⟩ := Option.ne_none_iff_exists'.mp subscribeCb
      simp only [Option.bind_some, set] at run
      split at run <;>
      · cases run
        simp
    | pingresp =>
      simp only [next, messageType] at run
      cases run
      simp
    | _ =>
      simp only [next, messageType] at run
      cases run
      exact iff_of_false (by simp) fun silent => invalid_unsuccessful silent.1

/-- Both ways to read a PINGRESP agree: what `mqtt_parse_ping_ack` accepts is what
`mqtt_receive` takes without a word to the application, and it only restarts the timer. -/
theorem pingAcksAgree (data : Mem) (amount : Nat) (env : Env) (connectedCb : s.connectedCbFptr ≠ none)
    (subscribeCb : s.subscribeCbFptr ≠ none) :
    ∃ a s', api (some s) (env, .receive (some data) amount) = .ok (a, some s') ∧
      (mqttParsePingAck (some data) = .successfull ↔
        a.ret = true ∧ ∀ e ∈ a.events, ¬ e.IsCallback) ∧
      (mqttParsePingAck (some data) = .successfull → s' = s.restartTimer) := by
  obtain ⟨r, run, shared, callbacks⟩ :=
    mqttParseInputStream_some data (UInt32.ofNat amount).toNat s
  have answered : api (some s) (env, .receive (some data) amount) =
      .ok (⟨r.status = .successfull, .parsed data :: r.events⟩,
        some { s with state := stateAfter s.state data }.restartTimer) := by
    simp only [api, mqttReceive, mqtt, actionParseInputStream, Ptr.deref_some, ok_bind, run, shared]
    rfl
  refine ⟨_, _, answered, ?_, fun accepted => ?_⟩
  · rw [parse_silent_iff connectedCb subscribeCb run, decide_eq_true_iff]
    refine and_congr_right fun _ => ⟨fun silent => ?_, fun silent => ?_⟩
    · rw [silent]
      simp [Event.IsCallback]
    · refine List.eq_nil_iff_forall_not_mem.mpr fun e mem => ?_
      exact silent e (List.mem_cons_of_mem _ mem) (callbacks e mem)
  · have pingresp := ((mqttParsePingAck_iff data).mp accepted).2
    have keeps : stateAfter s.state data = s.state := by
      rw [stateAfter, connackCode, pingresp]
      cases (decodeFixedHeader data).next <;> rfl
    rw [keeps]

theorem pingAcksAgree_sample : ∃ a s',
    api (some { MQTTSharedData.sample with connectedCbFptr := some 1, subscribeCbFptr := some 1 })
        (.prompt, .receive (some (ofList [0xD0, 0] 0)) 2) = .ok (a, some s') ∧
      a.ret = true := by
  obtain ⟨a, s', run, agree, -⟩ := pingAcksAgree (ofList [0xD0, 0] 0) 2 .prompt
    (s := { MQTTSharedData.sample with connectedCbFptr := some 1, subscribeCbFptr := some 1 })
    (Option.some_ne_none 1) (Option.some_ne_none 1)
  exact ⟨a, s', run, (agree.mp (by decide +kernel)).1⟩

end Pingresp

section Refused

variable {s : MQTTSharedData} {input : Mem}

def Reaction.Idle (s : MQTTSharedData) (reaction : Reaction) : Prop :=
  reaction.state = s.state ∧ (reaction.callbacks = [] ∨
    ∃ status, status ≠ .successfull ∧ reaction.callbacks = [.subscribeCb status .none 0 .none 0])

theorem idle_none (s : MQTTSharedData) : (Reaction.none s).Idle s := ⟨rfl, .inl rfl⟩

theorem idle_reactionTo {n next : Nat} (refused : (reactionTo s input n next).ret = false) :
    (reactionTo s input n next).Idle s := by
  cases messageType : (FlagsAndType.ofByte (input 0)).messageType with
  | connack =>
    simp only [reactionTo, messageType] at refused
    cases refused
  | publish =>
    simp only [reactionTo, messageType] at *
    cases decoded : decodePublish input next n (FlagsAndType.ofByte (input 0)).qos with
    | some p =>
      rw [decoded] at refused
      cases refused
    | none =>
      refine ⟨rfl, ?_⟩
      cases s.subscribeCbFptr with
      | none => exact .inl rfl
      | some _ => exact .inr ⟨.invalidArgument, by decide, rfl⟩
  | suback =>
    -- a SUBACK is only refused where nobody is told of it
    simp only [reactionTo, messageType, decide_eq_false_iff_not, not_or, not_not] at *
    rw [refused.1]
    exact ⟨rfl, .inl rfl⟩
  | pingresp =>
    simp only [reactionTo, messageType] at refused
    cases refused
  | _ =>
    simp only [reactionTo, messageType]
    exact idle_none s

theorem idle_reaction (refused : (reaction s input).ret = false) : (reaction s input).Idle s := by
  rcases reaction_cases s input with same | ⟨n, next, -, -, same⟩
  · rw [same]
    exact idle_none s
  · rw [same] at refused ⊢
    exact idle_reactionTo refused

structure LeftAlone (s : MQTTSharedData) (a : Answer) (g' : Ptr MQTTSharedData) : Prop where
  shared : ∃ t, g' = some { s with timeToNextPingInMs := t }
  unsent : ∀ data ret, .out data ret ∉ a.events
  connectedCb : ∀ code, .connectedCb code ∉ a.events
  subscribeCb : a.callbacks = [] ∨
    ∃ status, status ≠ .successfull ∧ a.callbacks = [.subscribeCb status none 0 none 0]

/-- Whatever `mqtt_receive` refuses leaves the session alone. -/
theorem refused_leftAlone (env : Env) (input : Mem) (amount : Nat) (s : MQTTSharedData) :
    ∃ a g', mqttReceive env (some input) amount (some s) = .ok (a, g') ∧
      (a.ret = false → LeftAlone s a g') := by
  refine ⟨_, _, mqttReceive_eq env input amount s, fun refused => ?_⟩
  obtain ⟨state, callbacks⟩ := idle_reaction refused
  refine ⟨⟨s.keepaliveInMs, ?_⟩, fun data ret sent => ?_, fun code told => ?_, ?_⟩
  · rw [state]
  · rcases List.mem_cons.mp sent with same | mem
    · cases same
    · exact callbacks_reaction s input _ mem
  · rcases List.mem_cons.mp told with same | mem
    · cases same
    · rcases callbacks with none | ⟨status, -, one⟩
      · rw [none] at mem
        cases mem
      · rw [one] at mem
        cases List.mem_singleton.mp mem
  · rcases callbacks with none | ⟨status, failed, one⟩
    · rw [none]
      exact .inl rfl
    · rw [one]
      exact .inr ⟨status, failed, rfl⟩

end Refused

end RojalMQTT
