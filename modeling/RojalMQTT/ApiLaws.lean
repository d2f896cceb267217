import RojalMQTT.SessionLaws

/-! What a call of the API comes down to: one action, or none. -/

namespace RojalMQTT

open Library

def publishParameters (env : Env) (topic : Ptr Mem) (topicSize : Nat) (msg : Ptr Mem) (msgSize : Nat)
    (outputBuffer : Ptr Mem) (outputBufferSize : UInt32) : MQTTPublish where
  flags := ⟨false, false, .qos0, .ofBits ((env.stack 0).toNat / 16)⟩
  topicPtr := topic
  topicLength := UInt16.ofNat topicSize
  messageBufferPtr := msg
  messageBufferSize := UInt32.ofNat msgSize
  outputBufferPtr := outputBuffer
  outputBufferSize := outputBufferSize

def ApiCall.asks (env : Env) : ApiCall → Option MQTTAction
  | .action a => some a
  | .connect a => (a.checked env).map fun r => .connect (some (some r.1))
  | .disconnect => some .disconnect
  | .publish topic topicSize msg msgSize =>
    if topic ≠ none ∧ msg ≠ none then
      some (.publish (some (some (publishParameters env topic topicSize msg msgSize none 0))))
    else none
  | .publishBuf topic topicSize msg msgSize outputBuffer outputBufferSize =>
    if topic ≠ none ∧ msg ≠ none then
      some (.publish (some (some
        (publishParameters env topic topicSize msg msgSize outputBuffer outputBufferSize))))
    else none
  | .subscribe topic topicSize _ =>
    if topic ≠ none ∧ 0 < topicSize.toNat then
      some (.subscribe (some (some { qos := .qos0, topicPtr := topic, topicLength := topicSize })))
    else none
  | .keepalive durationInMs => some (.keepalive (some durationInMs))
  | .receive data amount =>
    data.map fun data =>
      .parseInputStream (some (some { data := some data, sizeOfData := UInt32.ofNat amount }))

def ApiCall.finds (env : Env) (call : ApiCall) (g : Ptr MQTTSharedData) : Ptr MQTTSharedData :=
  match call with
  | .connect a => (a.checked env).map fun r => r.2.initialised
  | _ => g

def MQTTSharedData.settled (s : MQTTSharedData) : MQTTSharedData := { s with subscribeStatus := false }

def Acts (g : Ptr MQTTSharedData) (call : Env × ApiCall) (action : MQTTAction) (a : Answer)
    (g' : Ptr MQTTSharedData) : Prop :=
  ∃ o g₁, mqtt (call.2.finds call.1 g) (call.1, action) = .ok (o, g₁) ∧ a.events = o.events ∧
    (g' = g₁ ∨ g' = g₁.map MQTTSharedData.settled)

theorem waitFor_done {env : Env} {done : MQTTSharedData → Bool} {s : MQTTSharedData}
    (h : done s = true) (timeout n : Nat) : waitFor env done timeout n (some s) = .ok ([], some s) := by
  cases timeout with
  | zero => rfl
  | succ timeout => simp [waitFor, h, pure, Except.pure]

/-- Behind its checks `mqtt_connect` is ACTION_CONNECT on shared data that was just
initialised.  It does not wait: with a CONNECT sent it already is connected. -/
theorem connectCall_run {env : Env} {args : ConnectArguments} {c : MQTTConnect}
    {shared : MQTTSharedData} {g : Ptr MQTTSharedData} (h : mqttConnect env args g = .ok (a, g'))
    (checked : args.checked env = some (c, shared)) :
    ∃ o s', actionConnect env (some (some c)) (some shared.initialised) = .ok (o, some s') ∧
      a = ⟨s'.state = .connected, o.events⟩ ∧ g' = some s' := by
  have init : mqtt (some shared) (env, .init (some (some shared))) =
    .ok (⟨.successfull, []⟩, some shared.initialised) := rfl
  simp only [mqttConnect, checked, openSession, init, ok_bind, if_true, mqtt_connect] at h
  cases connect : actionConnect env (some (some c)) (some shared.initialised) with
  | error e =>
    rw [connect] at h
    cases h
  | ok r =>
    obtain ⟨o, g₁⟩ := r
    have ran : mqtt (some shared.initialised) (env, .connect (some (some c))) = .ok (o, g₁) := connect
    obtain ⟨s', rfl⟩ := mqtt_some ran
    rw [connect, ok_bind] at h
    refine ⟨o, s', rfl, ?_⟩
    split at h
    case isFalse fail =>
      cases h
      exact ⟨rfl, rfl⟩
    case isTrue ok =>
      replace ok : o.status = .successfull := ok
      have connected : s'.state = .connected := by
        obtain ⟨t, same, -⟩ := actionConnect_ok connect ok
        obtain rfl := Option.some.inj same
        rfl
      rw [waitFor_done (by simp [connected])] at h
      cases h
      exact ⟨by simp, rfl⟩

theorem connectCall_cases {env : Env} {args : ConnectArguments} {g : Ptr MQTTSharedData}
    (h : mqttConnect env args g = .ok (a, g')) :
    (args.checked env = none ∧ ∃ s, g = some s ∧ g' = some s ∧ a = ⟨s.state = .connected, []⟩) ∨
      ∃ c shared s', args.checked env = some (c, shared) ∧ g' = some s' ∧
        ((¬ SendsConnect env shared (some c) ∧ a.ret = false ∧ s'.state = .disconnected) ∨
          (SendsConnect env shared (some c) ∧ a.ret = true ∧ ∃ data events,
            FormsConnect env shared (some c) data ∧ Received env.meanwhile events ∧
            a.events = .out data (env.ret data) :: events)) := by
  cases checked : args.checked env with
  | none =>
    simp only [mqttConnect, checked, ok_bind] at h
    cases g with
    | none => cases h
    | some s =>
      cases h
      exact .inl ⟨rfl, s, rfl, rfl, rfl⟩
  | some r =>
    obtain ⟨c, shared⟩ := r
    obtain ⟨o, s', connect, rfl, rfl⟩ := connectCall_run h checked
    refine .inr ⟨c, shared, s', rfl, rfl, ?_⟩
    rcases actionConnect_cases connect with ⟨none, _⟩ | ⟨active, _⟩ | ⟨_, _, buffer, same, result⟩
    · cases none
    · exact absurd rfl active
    · obtain rfl := Option.some.inj same
      rcases result with ⟨not, _, left⟩ | ⟨data, events, forms, received, eq,
          ⟨not, _, left⟩ | ⟨c', _, sends, _, left⟩⟩
      · obtain rfl := Option.some.inj left
        exact .inl ⟨not, rfl, rfl⟩
      · obtain rfl := Option.some.inj left
        exact .inl ⟨not, rfl, rfl⟩
      · obtain rfl := Option.some.inj left
        exact .inr ⟨sends, rfl, data, events, forms, received, eq⟩

/-- `mqtt_subscribe` does not wait either: the flag it polls is set by the send. -/
theorem subscribeCall_cases {env : Env} {topic : Ptr Mem} {topicSize : UInt16}
    {timeoutInSec : UInt8} {s : MQTTSharedData}
    (h : mqttSubscribe env topic topicSize timeoutInSec (some s) = .ok (a, g')) :
    ((topic = none ∨ topicSize.toNat = 0) ∧ a = ⟨false, []⟩ ∧ g' = some s) ∨
      (topic ≠ none ∧ 0 < topicSize.toNat ∧ ∃ o s₁,
        mqtt (some s) (env, .subscribe (some (some ⟨.qos0, topic, topicSize⟩))) =
          .ok (o, some s₁) ∧
        a = ⟨o.status = .successfull, o.events⟩ ∧
        g' = some { s₁ with subscribeStatus := false }) := by
  rw [mqttSubscribe] at h
  split at h
  case isFalse invalid =>
    cases h
    refine .inl ⟨?_, rfl, rfl⟩
    by_cases none : topic = none
    · exact .inl none
    · exact .inr (by simpa [none] using invalid)
  case isTrue valid =>
    obtain ⟨_, topic', size⟩ := valid
    refine .inr ⟨topic', size, ?_⟩
    obtain ⟨⟨o, g₁⟩, run, h⟩ := bind_eq_ok h
    obtain ⟨s₁, rfl⟩ := mqtt_some run
    refine ⟨o, s₁, run, ?_⟩
    by_cases ok : o.status = .successfull
    · have set : s₁.subscribeStatus = true := by
        rw [mqtt_subscribe] at run
        obtain ⟨_, _, ⟨rfl, _⟩ | ⟨_, data, s', same, sends⟩⟩ := actionSubscribe_cases run
        · exact absurd ok (by decide)
        · obtain rfl := Option.some.inj same
          cases sends with
          | accepted received h => rfl
          | refused received h fail => exact absurd ok fail
      by_cases waits : 0 < timeoutInSec.toNat
      · simp only [ok, waits, and_self, if_true, awaitSubscribe] at h
        rw [waitFor_done set, ok_bind, Ptr.deref_some, ok_bind] at h
        simp only [set, if_true] at h
        cases h
        exact ⟨by simp [ok], rfl⟩
      · simp only [waits, and_false, if_false] at h
        cases h
        exact ⟨by simp, rfl⟩
    · simp only [ok, false_and, if_false] at h
      cases h
      exact ⟨by simp, rfl⟩

theorem acts_of_wrapped {env : Env} {call : ApiCall} {action : MQTTAction} {f : Outcome → Bool}
    (found : call.finds env g = g)
    (h : (mqtt g (env, action) >>= fun r => .ok (⟨f r.1, r.1.events⟩, r.2)) = .ok (a, g')) :
    Acts g (env, call) action a g' := by
  obtain ⟨⟨o, g₁⟩, run, h⟩ := bind_eq_ok h
  cases h
  exact ⟨o, g₁, by rwa [found], rfl, .inl rfl⟩

theorem connectCall_acts {env : Env} {args : ConnectArguments} {c : MQTTConnect}
    {shared : MQTTSharedData} (h : mqttConnect env args g = .ok (a, g'))
    (checked : args.checked env = some (c, shared)) :
    Acts g (env, .connect args) (.connect (some (some c))) a g' := by
  obtain ⟨o, s', connect, rfl, rfl⟩ := connectCall_run h checked
  have found : (ApiCall.connect args).finds env g = some shared.initialised := by
    rw [ApiCall.finds, checked]
    rfl
  exact ⟨o, some s', by rwa [found], rfl, .inl rfl⟩

theorem subscribeCall_acts {env : Env} {topic : Ptr Mem} {topicSize : UInt16}
    {timeoutInSec : UInt8} (h : mqttSubscribe env topic topicSize timeoutInSec g = .ok (a, g'))
    (valid : topic ≠ none ∧ 0 < topicSize.toNat) :
    Acts g (env, .subscribe topic topicSize timeoutInSec)
      (.subscribe (some (some { qos := .qos0, topicPtr := topic, topicLength := topicSize }))) a g' := by
  cases g with
  | none =>
    rw [mqttSubscribe, if_neg (by simp)] at h
    cases h
    exact ⟨_, none, rfl, rfl, .inl rfl⟩
  | some s =>
    rcases subscribeCall_cases h with ⟨invalid, _⟩ | ⟨_, _, o, s₁, run, rfl, rfl⟩
    · rcases invalid with none | zero
      · exact absurd none valid.1
      · omega
    · exact ⟨o, some s₁, run, rfl, .inr rfl⟩

theorem api_acts {env : Env} {call : ApiCall} (h : api g (env, call) = .ok (a, g')) :
    (call.asks env = none ∧ a.events = [] ∧ g' = g) ∨
      ∃ action, call.asks env = some action ∧ Acts g (env, call) action a g' := by
  have publishes {topic msg buffer : Ptr Mem} {topicSize msgSize : Nat} {bufferSize : UInt32}
      (h : mqttPublishBuf env topic topicSize msg msgSize buffer bufferSize g = .ok (a, g'))
      (found : call.finds env g = g) :
      (¬ (topic ≠ none ∧ msg ≠ none) ∧ a.events = [] ∧ g' = g) ∨
        ((topic ≠ none ∧ msg ≠ none) ∧ Acts g (env, call) (.publish (some (some
          (publishParameters env topic topicSize msg msgSize buffer bufferSize)))) a g') := by
    rw [mqttPublishBuf] at h
    split at h
    case isTrue valid => exact .inr ⟨valid, acts_of_wrapped (f := fun o => o.status = .successfull) found h⟩
    case isFalse invalid =>
      cases h
      exact .inl ⟨invalid, rfl, rfl⟩
  cases call with
  | action action => exact .inr ⟨_, rfl, acts_of_wrapped (f := fun o => o.status = .successfull) rfl h⟩
  | connect args =>
    cases checked : args.checked env with
    | none =>
      rcases connectCall_cases h with ⟨_, s, rfl, rfl, rfl⟩ | ⟨c, shared, _, some, _⟩
      · exact .inl ⟨by simp [ApiCall.asks, checked], rfl, rfl⟩
      · rw [checked] at some
        cases some
    | some r => exact .inr ⟨_, by simp [ApiCall.asks, checked], connectCall_acts h checked⟩
  | disconnect => exact .inr ⟨_, rfl, acts_of_wrapped (f := fun o => o.status = .successfull) rfl h⟩
  | publish topic topicSize msg msgSize =>
    rcases publishes h rfl with ⟨invalid, idle⟩ | ⟨valid, acts⟩
    · exact .inl ⟨if_neg invalid, idle⟩
    · exact .inr ⟨_, if_pos valid, acts⟩
  | publishBuf topic topicSize msg msgSize buffer bufferSize =>
    rcases publishes h rfl with ⟨invalid, idle⟩ | ⟨valid, acts⟩
    · exact .inl ⟨if_neg invalid, idle⟩
    · exact .inr ⟨_, if_pos valid, acts⟩
  | subscribe topic topicSize timeoutInSec =>
    by_cases valid : topic ≠ none ∧ 0 < topicSize.toNat
    · exact .inr ⟨_, if_pos valid, subscribeCall_acts h valid⟩
    · have invalid : ¬ (g ≠ none ∧ topic ≠ none ∧ 0 < topicSize.toNat) := fun all => valid all.2
      simp only [api, mqttSubscribe, if_neg invalid] at h
      cases h
      exact .inl ⟨if_neg valid, rfl, rfl⟩
  | keepalive durationInMs =>
    exact .inr ⟨_, rfl,
      acts_of_wrapped (f := fun o => o.status = .successfull ∨ o.status = .pingNotSend) rfl h⟩
  | receive data amount =>
    cases data with
    | none =>
      cases h
      exact .inl ⟨rfl, rfl, rfl⟩
    | some data => exact .inr ⟨_, rfl, acts_of_wrapped (f := fun o => o.status = .successfull) rfl h⟩

end RojalMQTT
