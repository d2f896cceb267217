import RojalMQTT.ConnectionLaws

/-! The API before the client is initialised, when `g_shared_data` is NULL. -/

namespace RojalMQTT

open Library

def TrapsOnly (r : Except Fault α) : Prop := ∀ e, r = .error e → e = .signedOverflow

theorem trapsOnly_ok (a : α) : TrapsOnly (.ok a) := nofun

theorem trapsOnly_bind {x : Except Fault α} {f : α → Except Fault β} (h : TrapsOnly x)
    (next : ∀ a, x = .ok a → TrapsOnly (f a)) : TrapsOnly (x >>= f) := by
  cases x with
  | error e =>
    rintro _ ⟨⟩
    exact h e rfl
  | ok a => exact next a rfl

theorem int32Sub_traps (a b : Int) : TrapsOnly (int32Sub a b) := by
  intro e h
  rw [int32Sub] at h
  split at h <;> cases h
  rfl

theorem orNull_traps {r : Filled} {next : Nat → FillState → Filled} (h : TrapsOnly r)
    (rest : ∀ p st, TrapsOnly (next p st)) : TrapsOnly (r.orNull next) := by
  rcases r with e | ⟨_ | p, st⟩
  · rintro _ ⟨⟩
    exact h e rfl
  · exact trapsOnly_ok _
  · exact rest p st

theorem fillAParam_traps (s : Ptr CString) (isMandatory : Bool) (p : Nat) (st : FillState) :
    TrapsOnly (mqttConnectFillAParam s isMandatory p st) := by
  cases s with
  | none => exact trapsOnly_ok _
  | some s =>
    have traps := int32Sub_traps st.spaceRemaining (u16 s.strlen)
    simp only [mqttConnectFillAParam]
    split
    case h_1 e sub =>
      rintro _ ⟨⟩
      exact traps e sub
    case h_2 r sub =>
      split
      · exact trapsOnly_ok _
      · split
        · exact trapsOnly_ok _
        · split <;> exact trapsOnly_ok _

theorem fillOptional_traps (s : CString) (setFlag : Bool → ConnectFlags → ConnectFlags) (p : Nat)
    (st : FillState) : TrapsOnly (fillOptional s setFlag p st) := by
  simp only [fillOptional]
  split
  · exact fillAParam_traps _ _ _ _
  · exact trapsOnly_ok _

theorem fillLastWill_traps (c : MQTTConnect) (p : Nat) (st : FillState) :
    TrapsOnly (fillLastWill c p st) := by
  simp only [fillLastWill]
  split
  · exact orNull_traps (fillAParam_traps _ _ _ _) fun _ _ => fillAParam_traps _ _ _ _
  · exact trapsOnly_ok _

theorem fillHeaders_traps (keepalive : UInt16) (temporary : Mem) (payloadPtr : Nat)
    (st : FillState) : TrapsOnly (mqttConnectFillHeaders keepalive temporary payloadPtr st) := by
  obtain ⟨l, _, header⟩ := encodeVariableHeaderConnect_cases st.buffer sizeofFixedHeader
    st.connectFlags.cleanSession st.connectFlags.lastWill st.connectFlags.lastWillQos
    st.connectFlags.permanentWill st.connectFlags.password st.connectFlags.username keepalive
  have traps := int32Sub_traps st.spaceRemaining l.length
  simp only [mqttConnectFillHeaders, header]
  split
  case h_1 e sub =>
    rintro _ ⟨⟩
    exact traps e sub
  case h_2 r sub =>
    split
    · exact trapsOnly_ok _
    · split <;> exact trapsOnly_ok _

theorem mqttConnectFill_traps (messageBuffer : Buffer UInt8) (maxBufferSize : Nat) (c : MQTTConnect)
    (outputSize : Nat) (temporary : Mem) :
    TrapsOnly (mqttConnectFill messageBuffer maxBufferSize c outputSize temporary) := by
  refine orNull_traps ?_ fun _ _ => fillHeaders_traps _ _ _ _
  refine orNull_traps (fillAParam_traps _ _ _ _) fun _ _ => ?_
  refine orNull_traps (fillLastWill_traps _ _ _) fun _ _ => ?_
  exact orNull_traps (fillOptional_traps _ _ _ _) fun _ _ => fillOptional_traps _ _ _ _

theorem mqttConnect_traps (messageBuffer : Ptr Mem) (maxBufferSize : Nat)
    (outFptr : Ptr (List UInt8 → Int)) (connect : Ptr MQTTConnect) (temporary : Mem) :
    TrapsOnly (mqttConnect_ messageBuffer maxBufferSize none outFptr connect false temporary) := by
  simp only [mqttConnect_]
  split
  case h_1 ret buffer c =>
    have traps := mqttConnectFill_traps (.fresh buffer) maxBufferSize c 0 temporary
    split
    case h_1 e fill =>
      rintro _ ⟨⟩
      exact traps e fill
    case h_2 => exact trapsOnly_ok _
    case h_3 =>
      split
      · exact trapsOnly_ok _
      · exact trapsOnly_ok _
  case h_2 => exact trapsOnly_ok _

theorem actionConnect_traps (env : Env) (c : MQTTConnect) (s : MQTTSharedData) :
    TrapsOnly (actionConnect env (some (some c)) (some s)) := by
  simp only [actionConnect]
  split
  · refine trapsOnly_bind (mqttConnect_traps _ _ _ _ _) fun sent _ => ?_
    obtain ⟨events, inputs, run⟩ := callOut_some env sent.calls
      { s with buffer := sent.messageBuffer }
    rw [run, ok_bind, Ptr.deref_some, ok_bind]
    split <;> exact trapsOnly_ok _
  · exact trapsOnly_ok _

theorem waitFor_some (env : Env) (done : MQTTSharedData → Bool) (timeout n : Nat)
    (s : MQTTSharedData) :
    ∃ events inputs, waitFor env done timeout n (some s) = .ok (events, some (s.received inputs)) := by
  induction timeout generalizing n s with
  | zero => exact ⟨[], [], rfl⟩
  | succ timeout ih =>
    simp only [waitFor, Ptr.deref_some, ok_bind]
    split
    · exact ⟨[], [], rfl⟩
    · obtain ⟨received, first, -⟩ := receiveAll_some (env.asleep n) s
      obtain ⟨events, inputs, rest⟩ := ih (n + 1) (s.received (env.asleep n))
      rw [received_received] at rest
      exact ⟨_, _, by simp only [first, ok_bind, rest]; rfl⟩

theorem mqttConnect_traps_of_checked {env : Env} {args : ConnectArguments} {c : MQTTConnect}
    {shared : MQTTSharedData} (checked : args.checked env = some (c, shared)) (g : Ptr MQTTSharedData) :
    TrapsOnly (mqttConnect env args g) := by
  have init : mqtt (some shared) (env, .init (some (some shared))) =
    .ok (⟨.successfull, []⟩, some shared.initialised) := rfl
  have answers (events : List Event) (s : MQTTSharedData) : TrapsOnly (do
      let s ← Ptr.deref (some s)
      return ((⟨s.state = .connected, events⟩, some s) : Answer × Ptr MQTTSharedData)) :=
    trapsOnly_ok _
  simp only [mqttConnect, checked, openSession, init, ok_bind, if_true]
  cases connect : mqtt (some shared.initialised) (env, .connect (some (some c))) with
  | error e =>
    rintro _ ⟨⟩
    exact actionConnect_traps env c shared.initialised e connect
  | ok r =>
    obtain ⟨s, same⟩ := mqtt_some connect
    rw [ok_bind, same]
    split
    · obtain ⟨events, inputs, run⟩ := waitFor_some env (fun s => s.state = .connected)
        (sleeps args.timeoutInSec) 0 s
      rw [run]
      exact answers _ _
    · exact answers _ _

def SafeResult (result : Answered) : Prop :=
  result ≠ .error .nullDereference ∧ ∀ a, result = .ok (a, none) → a.ret = false

theorem safeResult_ok (ret : Bool) (events : List Event) :
    SafeResult (.ok (⟨ret, events⟩, none)) ↔ ret = false := by
  simp [SafeResult]

theorem not_safeResult : ¬ SafeResult (.error .nullDereference) := fun safe => safe.1 rfl

def SafeAtStart (g : Ptr MQTTSharedData) (call : Env × ApiCall) (result : Answered) : Prop :=
  match call.2 with
  | .action _ => True
  | _ => g = none → SafeResult result

def HarmlessInput (input : Mem) : Prop :=
  (decodeFixedHeader input).next = none ∨ match (decodeFixedHeader input).messageType with
    | .connack | .publish | .pingresp => False
    | .suback => input 4 = 0x80
    | _ => True

def GuardedCall (env : Env) : ApiCall → Prop
  | .keepalive _ => False
  | .connect a => a.checked env ≠ none
  | .receive (some data) _ => HarmlessInput data
  | _ => True

theorem connect_atStart (env : Env) (args : ConnectArguments) :
    SafeResult (mqttConnect env args none) ↔ args.checked env ≠ none := by
  cases checked : args.checked env with
  | none =>
    have faults : mqttConnect env args none = .error .nullDereference := by
      simp only [mqttConnect, checked, ok_bind]
      rfl
    simp [faults, not_safeResult]
  | some r =>
    refine iff_of_true ⟨fun null => ?_, fun a h => ?_⟩ (Option.some_ne_none _)
    · cases mqttConnect_traps_of_checked checked none _ null
    · rcases connectCall_cases h with ⟨none, _⟩ | ⟨_, _, s', _, same, _⟩
      · rw [checked] at none
        cases none
      · cases same

theorem receive_atStart (env : Env) (data : Mem) (amount : Nat) :
    SafeResult (mqttReceive env (some data) amount none) ↔ HarmlessInput data := by
  have ignored : SafeResult (.ok (⟨decide (MQTTErrorCodes.invalidArgument = .successfull),
      [.parsed data]⟩, none)) := (safeResult_ok _ _).mpr (by decide)
  simp only [mqttReceive, mqtt, actionParseInputStream, Ptr.deref_some, ok_bind, HarmlessInput,
    mqttParseInputStream]
  cases (decodeFixedHeader data).next with
  | none => exact iff_of_true ignored (.inl rfl)
  | some next =>
    cases (decodeFixedHeader data).messageType with
    | connack => exact iff_of_false not_safeResult (by simp)
    | publish => exact iff_of_false not_safeResult (by simp)
    | suback =>
      -- the status is the truth value of the test, and 0 is Successfull
      change SafeResult (.ok (⟨decide ((if data 4 = 0x80 then (1 : Int) else 0) = 0),
        [.parsed data]⟩, none)) ↔ _
      rw [safeResult_ok]
      by_cases failure : data 4 = 0x80 <;> simp [failure]
    | pingresp =>
      change SafeResult (.ok (⟨decide (MQTTErrorCodes.successfull = .successfull),
        [.parsed data]⟩, none)) ↔ _
      simp [safeResult_ok]
    | _ => exact iff_of_true ignored (.inr trivial)

theorem publish_atStart (env : Env) (topic msg outputBuffer : Ptr Mem) (topicSize msgSize : Nat)
    (outputBufferSize : UInt32) :
    SafeResult (mqttPublishBuf env topic topicSize msg msgSize outputBuffer outputBufferSize none) := by
  rw [mqttPublishBuf]
  split
  · exact (safeResult_ok (decide (MQTTErrorCodes.invalidArgument = .successfull)) []).mpr (by decide)
  · exact (safeResult_ok false []).mpr rfl

/-- A sequence of API calls is safe before the client is initialised exactly if every
call made until then is one of those that do not rely on it. -/
theorem safeAtStart_iff (calls : List (Env × ApiCall)) :
    Machine.Each api SafeAtStart none calls ↔
      Machine.Each api (fun g call _ => g = none → GuardedCall call.1 call.2) none calls := by
  refine Machine.each_iff ?_ none calls
  rintro g ⟨env, call⟩
  cases g with
  | some s => cases call <;> simp [SafeAtStart]
  | none =>
    have harmless {result : Answered} (safe : SafeResult result) :
        ((none : Ptr MQTTSharedData) = none → SafeResult result) ↔
          ((none : Ptr MQTTSharedData) = none → True) := iff_of_true (fun _ => safe) fun _ => trivial
    cases call with
    | action action => exact iff_of_true trivial fun _ => trivial
    | connect args => exact imp_congr Iff.rfl (connect_atStart env args)
    | disconnect =>
      exact harmless ((safeResult_ok (decide (MQTTErrorCodes.noConnection = .successfull)) []).mpr
        (by decide))
    | publish topic topicSize msg msgSize => exact harmless (publish_atStart _ _ _ _ _ _ _)
    | publishBuf topic topicSize msg msgSize buffer size =>
      exact harmless (publish_atStart _ _ _ _ _ _ _)
    | subscribe topic topicSize timeoutInSec =>
      exact harmless ((safeResult_ok false []).mpr rfl)
    | keepalive durationInMs =>
      exact imp_congr Iff.rfl (iff_of_false not_safeResult id)
    | receive data amount =>
      cases data with
      | none => exact harmless ((safeResult_ok false []).mpr rfl)
      | some data => exact imp_congr Iff.rfl (receive_atStart env data amount)

theorem keepalive_atStart : ¬ Machine.Each api SafeAtStart none [(.prompt, .keepalive 0)] :=
  fun run => not_safeResult (run.1 rfl)

end RojalMQTT
