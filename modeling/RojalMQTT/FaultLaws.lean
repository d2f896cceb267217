import RojalMQTT.ScheduleLaws
import RojalMQTT.StartLaws

/-! What the client survives: every call of an API function, once it is initialised. -/

namespace RojalMQTT

open Library

structure Ready (s : MQTTSharedData) : Prop where
  out : s.outFptr ≠ none
  timed : Timed TimerBounded s

/-- An API function with arguments that it can take: a CONNECT is given a function to send
with and a buffer whose size fits an `int32_t`, and the times that are told fit one too. -/
def ApiCall.Fits : ApiCall → Prop
  | .action _ => False
  | .connect a => a.outWriteFptr ≠ none ∧ a.outputBufferSize < 2 ^ 31
  | .keepalive durationInMs => durationInMs.toNat < 2 ^ 31
  | _ => True

instance : DecidablePred ApiCall.Fits
  | .action _ => .isFalse id
  | .connect a => inferInstanceAs (Decidable (a.outWriteFptr ≠ none ∧ a.outputBufferSize < 2 ^ 31))
  | .keepalive durationInMs => inferInstanceAs (Decidable (durationInMs.toNat < 2 ^ 31))
  | .disconnect | .publish _ _ _ _ | .publishBuf _ _ _ _ _ _ | .subscribe _ _ _ | .receive _ _ =>
    .isTrue trivial

section Connect

variable {s : MQTTSharedData} {env : Env}

theorem space_of_filled {mem : Mem} {maxBufferSize outputSize : Nat} {c : MQTTConnect}
    {clientId : CString} {st : FillState} (id : c.clientId = some clientId) (small : maxBufferSize < 2 ^ 31)
    (h : mqttConnectFillParameters c (startFill (.fresh mem) maxBufferSize c outputSize) =
      .ok (some q, st)) : 0 ≤ st.spaceRemaining ∧ st.spaceRemaining < 2 ^ 31 := by
  have start : (startFill (.fresh mem) maxBufferSize c outputSize).spaceRemaining = maxBufferSize :=
    int32_of_lt small
  obtain ⟨done, rest, -, writable, -, ⟨-, -, space⟩ | ⟨_, _, _, none, _⟩⟩ := fillParameters_spec id h
  · have fits := writable.2
    rw [start] at space fits
    by_cases none : done = []
    · rw [none, stringsLength_nil] at space
      omega
    · have := fits none
      omega
  · cases none

theorem mqttConnectFill_total (mem : Mem) {maxBufferSize : Nat} (c : MQTTConnect) (outputSize : Nat)
    (temporary : Mem) (small : maxBufferSize < 2 ^ 31) :
    ∃ result, mqttConnectFill (.fresh mem) maxBufferSize c outputSize temporary = .ok result := by
  rw [mqttConnectFill]
  cases id : c.clientId with
  | none =>
    rw [fillParameters_none id]
    exact ⟨_, rfl⟩
  | some clientId =>
    have start : (startFill (.fresh mem) maxBufferSize c outputSize).spaceRemaining = maxBufferSize :=
      int32_of_lt small
    obtain ⟨⟨q, st⟩, params⟩ := fillParameters_total
      (s := startFill (.fresh mem) maxBufferSize c outputSize) id (by omega) (by omega)
    rw [params]
    cases q with
    | none => exact ⟨_, rfl⟩
    | some q =>
      obtain ⟨low, high⟩ := space_of_filled id small params
      exact fillHeaders_total c.keepalive temporary q st low high

theorem mqttConnect_total (messageBuffer : Ptr Mem) {maxBufferSize : Nat}
    (outFptr : Ptr (List UInt8 → Int)) (connect : Ptr MQTTConnect) (temporary : Mem)
    (small : maxBufferSize < 2 ^ 31) :
    ∃ sent, mqttConnect_ messageBuffer maxBufferSize none outFptr connect false temporary = .ok sent := by
  simp only [mqttConnect_]
  split
  case h_1 ret buffer c =>
    obtain ⟨⟨p, st⟩, fill⟩ := mqttConnectFill_total buffer c 0 temporary small
    rw [fill]
    cases p with
    | none => exact ⟨_, rfl⟩
    | some p =>
      simp only
      split <;> exact ⟨_, rfl⟩
  case h_2 => exact ⟨_, rfl⟩

theorem actionConnect_total (env : Env) (c : MQTTConnect) {s : MQTTSharedData}
    (small : s.bufferSize < 2 ^ 31) :
    ∃ o g', actionConnect env (some (some c)) (some s) = .ok (o, g') := by
  simp only [actionConnect]
  split
  · obtain ⟨sent, connect⟩ := mqttConnect_total s.buffer (s.outCall env) (some c) env.stack small
    obtain ⟨events, inputs, run⟩ := callOut_some env sent.calls { s with buffer := sent.messageBuffer }
    rw [connect, ok_bind, run, ok_bind, Ptr.deref_some, ok_bind]
    split <;> exact ⟨_, _, rfl⟩
  · exact ⟨_, _, rfl⟩

end Connect

section Encoders

variable {env : Env} {s : MQTTSharedData}

theorem handOut_total (ret : List UInt8 → Int) (output : Buffer UInt8) (size : Nat) :
    ∃ sent, handOut (some ret) output size = .ok sent := ⟨_, rfl⟩

theorem encodePublish_total (ret : List UInt8 → Int) (output : Ptr (Buffer UInt8)) (outputSize : UInt32)
    (retain dup : Bool) (qos : MQTTQoSLevel) (topic message : Ptr Mem)
    (topicSize packetIdentifier : UInt16) (messageSize : UInt32) :
    ∃ sent, encodePublish (some ret) output outputSize retain qos dup topic topicSize
      packetIdentifier message messageSize = .ok sent := by
  simp only [encodePublish, publishRemaining_eq]
  split
  · split
    · split
      · exact handOut_total ret _ _
      · exact ⟨_, rfl⟩
    · exact ⟨_, rfl⟩
  · exact ⟨_, rfl⟩

theorem encodeSubscribe_total (outFptr : Ptr (List UInt8 → Int)) (output : Ptr (Buffer UInt8))
    (outputSize : UInt32) (topicQos : MQTTQoSLevel) (topic : Ptr Mem)
    (topicSize packetIdentifier : UInt16) :
    ∃ sent, encodeSubscribe outFptr output outputSize topicQos topic topicSize packetIdentifier =
      .ok sent := by
  simp only [encodeSubscribe, subscribeRemaining_eq]
  split
  · split
    · split
      · exact handOut_total _ _ _
      · exact ⟨_, rfl⟩
    · exact ⟨_, rfl⟩
  · exact ⟨_, rfl⟩

theorem afterEncoder_total (sent : Sent) (sentOk : MQTTSharedData → MQTTSharedData) :
    ∃ o g', afterEncoder env sent s sentOk = .ok (o, g') := by
  obtain ⟨events, inputs, run⟩ := callOut_some env sent.calls s
  rw [afterEncoder, run, ok_bind]
  cases sent.ret with
  | true => exact ⟨_, _, rfl⟩
  | false => exact ⟨_, _, rfl⟩

theorem actionPublish_total (p : MQTTPublish) (out : s.outFptr ≠ none) :
    ∃ o g', actionPublish env (some (some p)) (some s) = .ok (o, g') := by
  obtain ⟨f, out⟩ := Option.ne_none_iff_exists'.mp out
  have call : s.outCall env = some env.ret := by rw [MQTTSharedData.outCall, out, Option.map_some]
  rw [actionPublish]
  split
  · rw [Ptr.deref_some, ok_bind, call]
    obtain ⟨sent, encoded⟩ := encodePublish_total env.ret ((transmitBuffer s p).map .fresh)
      (transmitSize s p) p.flags.retain false p.flags.qos p.topicPtr p.messageBufferPtr p.topicLength
      s.mqttPacketCntr.toUInt16 p.messageBufferSize
    rw [transmitBuffer, transmitSize] at encoded
    simp only [encoded, ok_bind]
    exact afterEncoder_total _ _
  · exact ⟨_, _, rfl⟩

theorem actionSubscribe_total (env : Env) (s : MQTTSharedData) (p : MQTTSubscribe) :
    ∃ o g', actionSubscribe env (some (some p)) (some s) = .ok (o, g') := by
  rw [actionSubscribe]
  split
  · obtain ⟨sent, encoded⟩ := encodeSubscribe_total (s.outCall env) (s.buffer.map .fresh)
      (UInt32.ofNat s.bufferSize) p.qos p.topicPtr p.topicLength s.mqttPacketCntr.toUInt16
    rw [Ptr.deref_some, ok_bind, encoded, ok_bind]
    exact afterEncoder_total _ _
  · exact ⟨_, _, rfl⟩

end Encoders

theorem actionDisconnect_total (env : Env) (s : MQTTSharedData) :
    ∃ o g', actionDisconnect env (some s) = .ok (o, g') := by
  simp only [actionDisconnect]
  split
  · obtain ⟨events, inputs, run⟩ := callOut_some env (mqttDisconnect_ (s.outCall env) env.stack).2 s
    rw [run]
    exact ⟨_, _, rfl⟩
  · exact ⟨_, _, rfl⟩

theorem actionKeepalive_total (env : Env) {elapsed : UInt32} {s : MQTTSharedData}
    (timed : Timed TimerBounded s) (small : elapsed.toNat < 2 ^ 31) :
    ∃ o g', actionKeepalive env (some elapsed) (some s) = .ok (o, g') := by
  by_cases connected : s.state = .connected
  · by_cases enabled : s.keepaliveInMs = int32Min
    · simp only [actionKeepalive, Ptr.deref_some, ok_bind, connected, enabled, if_true, ne_eq,
        not_true_eq_false, if_false]
      exact ⟨_, _, rfl⟩
    · obtain ⟨nonneg, below, bound⟩ := timed.resolve_left enabled
      obtain ⟨timer, same⟩ := Int.eq_ofNat_of_zero_le nonneg
      have bounded : timer < 2 ^ 31 := by omega
      have left := timeLeft_cast bounded small
      rw [← same] at left
      obtain ⟨o, s', run, -⟩ := actionKeepalive_ran env connected enabled left
      exact ⟨o, _, run⟩
  · simp only [actionKeepalive, Ptr.deref_some, ok_bind, connected, if_false]
    exact ⟨_, _, rfl⟩

def MQTTSharedData.setup (s : MQTTSharedData) : FunPtr × FunPtr × Nat × FunPtr :=
  (s.connectedCbFptr, s.subscribeCbFptr, s.bufferSize, s.outFptr)

def MQTTSharedData.settings (s : MQTTSharedData) : (FunPtr × FunPtr × Nat × FunPtr) × Int :=
  (s.setup, s.keepaliveInMs)

theorem EncoderStep.settings {sentOk : MQTTSharedData → MQTTSharedData} {env : Env}
    {s s' : MQTTSharedData} (h : EncoderStep env s sentOk o (some s'))
    (keep : ∀ s, (sentOk s).settings = s.settings) : s'.settings = s.settings := by
  obtain ⟨cntr, buffer, ⟨_, same⟩ | ⟨_, data, t, same, sends⟩⟩ := h
  · obtain rfl := Option.some.inj same
    rfl
  · obtain rfl := Option.some.inj same
    exact sends.field_eq keep

theorem mqtt_settings {env : Env} {action : MQTTAction} {s s' : MQTTSharedData}
    (h : mqtt (some s) (env, action) = .ok (o, some s')) (notInit : ∀ p, action ≠ .init (some p))
    (notConnect : ∀ p, action ≠ .connect p) : s'.settings = s.settings := by
  cases action with
  | init actionPtr =>
    cases actionPtr with
    | none =>
      cases h
      rfl
    | some p => exact absurd rfl (notInit p)
  | disconnect =>
    rcases actionDisconnect_cases h with ⟨_, _, _, same⟩ | ⟨_, _, t, same, sends⟩
    · obtain rfl := Option.some.inj same
      rfl
    · obtain rfl := Option.some.inj same
      exact sends.field_eq fun _ => rfl
  | connect actionPtr => exact absurd rfl (notConnect actionPtr)
  | publish actionPtr => exact (actionPublish_cases h).settings fun _ => rfl
  | subscribe actionPtr => exact (actionSubscribe_cases h).settings fun _ => rfl
  | keepalive actionPtr =>
    rcases actionKeepalive_cases h with ⟨_, same, _⟩ | ⟨elapsed, t, _, _, _, _, result⟩
    · obtain rfl := Option.some.inj same
      rfl
    · rcases result with ⟨_, same, _⟩ | ⟨_, _, s'', same, sends⟩
      · obtain rfl := Option.some.inj same
        rfl
      · obtain rfl := Option.some.inj same
        exact sends.field_eq (f := MQTTSharedData.settings) fun _ => rfl
  | parseInputStream actionPtr =>
    obtain ⟨p, _, _, same⟩ := actionParseInputStream_cases h
    obtain rfl := Option.some.inj same
    rfl
  | other =>
    cases h
    rfl

theorem mqtt_setup {env : Env} {action : MQTTAction} {s s' : MQTTSharedData}
    (h : mqtt (some s) (env, action) = .ok (o, some s')) (notInit : ∀ p, action ≠ .init (some p)) :
    s'.setup = s.setup := by
  by_cases connects : ∃ p, action = .connect p
  · obtain ⟨actionPtr, rfl⟩ := connects
    rcases actionConnect_cases h with ⟨_, _, same⟩ | ⟨_, _, same⟩ | ⟨_, connectPtr, buffer, _, result⟩
    · obtain rfl := Option.some.inj same
      rfl
    · obtain rfl := Option.some.inj same
      rfl
    · rcases result with ⟨_, _, same⟩ | ⟨data, events, _, _, _, ⟨_, _, same⟩ | ⟨c, _, _, _, same⟩⟩ <;>
      · obtain rfl := Option.some.inj same
        rfl
  · exact congrArg Prod.fst (mqtt_settings h notInit fun p same => connects ⟨p, same⟩)

theorem out_of_setup {s s' : MQTTSharedData} (same : s'.setup = s.setup) (out : s.outFptr ≠ none) :
    s'.outFptr ≠ none := by
  have kept : s'.outFptr = s.outFptr := congrArg (fun p => p.2.2.2) same
  rwa [kept]

section Calls

variable {env : Env} {s : MQTTSharedData} {call : ApiCall}

theorem parse_fault {data : Ptr Mem} {n : Nat} {e : Fault}
    (h : mqttParseInputStream data n none = .error e) : e = .nullDereference := by
  cases data with
  | none => cases h
  | some input =>
    simp only [mqttParseInputStream] at h
    cases next : (decodeFixedHeader input).next with
    | none =>
      rw [next] at h
      cases h
    | some next' =>
      cases messageType : (decodeFixedHeader input).messageType <;> simp only [next, messageType] at h
      case connack =>
        cases h
        rfl
      case publish =>
        cases h
        rfl
      all_goals cases h

theorem checked_setup {args : ConnectArguments} {c : MQTTConnect} {shared : MQTTSharedData}
    (checked : args.checked env = some (c, shared)) : shared.setup =
      (args.connectedFptr, args.subscribeFptr, args.outputBufferSize, args.outWriteFptr) := by
  simp only [ConnectArguments.checked, Option.bind_eq_bind, Option.bind_eq_some_iff] at checked
  obtain ⟨_, _, _, _, _, _, _, _, _, _, _, _, _, _, same⟩ := checked
  cases same
  rfl

theorem connectCall_total {args : ConnectArguments} {c : MQTTConnect} {shared : MQTTSharedData}
    (checked : args.checked env = some (c, shared)) (small : args.outputBufferSize < 2 ^ 31)
    (g : Ptr MQTTSharedData) : ∃ a s', mqttConnect env args g = .ok (a, some s') := by
  have size : shared.bufferSize = args.outputBufferSize :=
    congrArg (fun p => p.2.2.1) (checked_setup checked)
  have init : mqtt (some shared) (env, .init (some (some shared))) =
    .ok (⟨.successfull, []⟩, some shared.initialised) := rfl
  obtain ⟨o, g', connect⟩ := actionConnect_total env c (s := shared.initialised) (by
    change shared.bufferSize < 2 ^ 31
    rwa [size])
  have ran : mqtt (some shared.initialised) (env, .connect (some (some c))) = .ok (o, g') := connect
  obtain ⟨s', rfl⟩ := mqtt_some ran
  simp only [mqttConnect, checked, openSession, init, ok_bind, if_true, ran]
  split
  · obtain ⟨events, inputs, run⟩ := waitFor_some env (fun s => s.state = .connected)
      (sleeps args.timeoutInSec) 0 s'
    rw [run]
    exact ⟨_, _, rfl⟩
  · exact ⟨_, _, rfl⟩

theorem wrapped_total {action : MQTTAction} {f : Outcome → Bool}
    (h : ∃ o g', mqtt (some s) (env, action) = .ok (o, g')) :
    ∃ a s', (mqtt (some s) (env, action) >>= fun r =>
      .ok (Answer.mk (f r.1) r.1.events, r.2)) = .ok (a, some s') := by
  obtain ⟨o, g', run⟩ := h
  obtain ⟨s', rfl⟩ := mqtt_some run
  exact ⟨_, s', by rw [run]; rfl⟩

theorem publishCall_total (topic : Ptr Mem) (topicSize : Nat) (msg : Ptr Mem) (msgSize : Nat)
    (outputBuffer : Ptr Mem) (outputBufferSize : UInt32) (out : s.outFptr ≠ none) :
    ∃ a s', mqttPublishBuf env topic topicSize msg msgSize outputBuffer outputBufferSize (some s) =
      .ok (a, some s') := by
  rw [mqttPublishBuf]
  split
  · exact wrapped_total (f := fun o => o.status = .successfull) (actionPublish_total _ out)
  · exact ⟨_, s, rfl⟩

theorem subscribeCall_total (topic : Ptr Mem) (topicSize : UInt16) (timeoutInSec : UInt8) :
    ∃ a s', mqttSubscribe env topic topicSize timeoutInSec (some s) = .ok (a, some s') := by
  rw [mqttSubscribe]
  split
  · obtain ⟨o, g', subscribe⟩ := actionSubscribe_total env s ⟨.qos0, topic, topicSize⟩
    have run : mqtt (some s) (env, .subscribe (some (some ⟨.qos0, topic, topicSize⟩))) = .ok (o, g') :=
      subscribe
    obtain ⟨s₁, rfl⟩ := mqtt_some run
    simp only [run, ok_bind, awaitSubscribe]
    split
    · obtain ⟨events, inputs, waited⟩ := waitFor_some env (fun s => s.subscribeStatus)
        (sleeps timeoutInSec) 0 s₁
      rw [waited]
      exact ⟨_, _, rfl⟩
    · exact ⟨_, _, rfl⟩
  · exact ⟨_, s, rfl⟩

theorem api_total (env : Env) (ready : Ready s) (fits : call.Fits) :
    ∃ a s', api (some s) (env, call) = .ok (a, some s') := by
  cases call with
  | action action => exact absurd fits id
  | connect args =>
    cases checked : args.checked env with
    | none =>
      simp only [api, mqttConnect, checked, ok_bind]
      exact ⟨_, s, rfl⟩
    | some r => exact connectCall_total checked fits.2 (some s)
  | disconnect =>
    exact wrapped_total (f := fun o => o.status = .successfull) (actionDisconnect_total env s)
  | publish topic topicSize msg msgSize => exact publishCall_total _ _ _ _ none 0 ready.out
  | publishBuf topic topicSize msg msgSize outputBuffer outputBufferSize =>
    exact publishCall_total _ _ _ _ _ _ ready.out
  | subscribe topic topicSize timeoutInSec => exact subscribeCall_total _ _ _
  | keepalive durationInMs =>
    exact wrapped_total (f := fun o => o.status = .successfull ∨ o.status = .pingNotSend)
      (actionKeepalive_total env ready.timed fits)
  | receive data amount =>
    cases data with
    | none => exact ⟨_, s, rfl⟩
    | some data =>
      obtain ⟨o, run, -⟩ := actionParseInputStream_eq ⟨some data, UInt32.ofNat amount⟩ s
      exact wrapped_total (f := fun o => o.status = .successfull) ⟨o, _, run⟩

theorem fits_asks (fits : call.Fits) {action : MQTTAction} (asks : call.asks env = some action) :
    (∀ p, action ≠ .init p) ∧ ∀ elapsed, action = .keepalive (some elapsed) → elapsed.toNat < 2 ^ 31 := by
  cases call with
  | action action => exact absurd fits id
  | connect args =>
    obtain ⟨_, -, rfl⟩ := Option.map_eq_some_iff.mp asks
    exact ⟨nofun, nofun⟩
  | disconnect =>
    cases asks
    exact ⟨nofun, nofun⟩
  | keepalive durationInMs =>
    cases asks
    refine ⟨nofun, fun elapsed same => ?_⟩
    cases same
    exact fits
  | receive data amount =>
    obtain ⟨_, -, rfl⟩ := Option.map_eq_some_iff.mp asks
    exact ⟨nofun, nofun⟩
  | publish | publishBuf | subscribe =>
    obtain ⟨-, same⟩ := Option.ite_none_right_eq_some.mp asks
    cases same
    exact ⟨nofun, nofun⟩

theorem api_ready {g g' : Ptr MQTTSharedData} (ready : ∀ s ∈ g, Ready s) (fits : call.Fits)
    (h : api g (env, call) = .ok (a, g')) : ∀ s ∈ g', Ready s := by
  have timed := timerBounded_rule.of_api h (fun s hs => (ready s hs).timed) (by
    intro s hs action asks elapsed t same _ enabled left
    obtain ⟨timer, below, bound⟩ := (ready s hs).timed.resolve_left enabled
    have small := (fits_asks fits asks).2 elapsed same
    exact .inr ⟨timeLeft_nonneg left, Int.le_trans (timeLeft_le timer small left) below, bound⟩)
  intro s' hs'
  refine ⟨?_, timed s' hs'⟩
  obtain rfl := Option.mem_def.mp hs'
  rcases api_acts h with ⟨_, _, rfl⟩ | ⟨action, asks, o, g₁, run, _, left⟩
  · exact (ready s' rfl).out
  · obtain ⟨notInit, -⟩ := fits_asks fits asks
    obtain ⟨s₁, rfl, same⟩ : ∃ s₁, g₁ = some s₁ ∧ s'.outFptr = s₁.outFptr := by
      rcases left with rfl | left
      · exact ⟨s', rfl, rfl⟩
      · obtain ⟨s₁, rfl, rfl⟩ := Option.map_eq_some_iff.mp left.symm
        exact ⟨s₁, rfl, rfl⟩
    rw [same]
    cases found : call.finds env g with
    | none =>
      rw [found] at run
      rcases mqtt_none run with none | ⟨p, _, init, _⟩
      · cases none
      · exact absurd init (notInit p)
    | some s₀ =>
      rw [found] at run
      refine out_of_setup (mqtt_setup run fun p => notInit (some p)) ?_
      cases call with
      | connect args =>
        obtain ⟨⟨c, shared⟩, checked, rfl⟩ := Option.map_eq_some_iff.mp found
        have out : shared.outFptr = args.outWriteFptr :=
          congrArg (fun p => p.2.2.2) (checked_setup checked)
        change shared.outFptr ≠ none
        rw [out]
        exact fits.1
      | _ => exact (ready s₀ found).out

theorem api_fault {e : Fault} (fits : call.Fits) (h : api none (env, call) = .error e) :
    e = .nullDereference := by
  cases call with
  | action action => exact absurd fits id
  | connect args =>
    cases checked : args.checked env with
    | none =>
      simp only [api, mqttConnect, checked, ok_bind] at h
      cases h
      rfl
    | some r =>
      obtain ⟨a, s', run⟩ := connectCall_total checked fits.2 none
      rw [api, run] at h
      cases h
  | disconnect => cases h
  | publish topic topicSize msg msgSize =>
    simp only [api, mqttPublish, mqttPublishBuf] at h
    split at h <;> cases h
  | publishBuf topic topicSize msg msgSize outputBuffer outputBufferSize =>
    simp only [api, mqttPublishBuf] at h
    split at h <;> cases h
  | subscribe topic topicSize timeoutInSec => cases h
  | keepalive durationInMs =>
    cases h
    rfl
  | receive data amount =>
    cases data with
    | none => cases h
    | some data =>
      cases parsed : mqttParseInputStream (some data) (UInt32.ofNat amount).toNat none with
      | error e' =>
        simp only [api, mqttReceive, mqtt, actionParseInputStream, Ptr.deref_some, ok_bind, parsed] at h
        cases h
        exact parse_fault parsed
      | ok r =>
        simp only [api, mqttReceive, mqtt, actionParseInputStream, Ptr.deref_some, ok_bind, parsed] at h
        cases h

end Calls

/-- In every run of the API functions with arguments that fit, the only fault is a read
through the NULL pointer of a client that is not initialised. -/
theorem run_faults (calls : List (Env × ApiCall)) (fits : ∀ call ∈ calls, call.2.Fits) :
    Machine.Each api (fun g _ result => ∀ e, result = .error e → g = none ∧ e = .nullDereference)
      none calls := by
  refine .of_inv (I := fun g => ∀ s ∈ g, Ready s) ?_ (by simp)
  rintro g ⟨env, call⟩ mem ready
  have fits := fits _ mem
  refine ⟨fun e h => ?_, fun a g' => api_ready ready fits⟩
  cases g with
  | none => exact ⟨rfl, api_fault fits h⟩
  | some s =>
    obtain ⟨a, s', run⟩ := api_total env (ready s rfl) fits
    rw [run] at h
    cases h

theorem run_faults_sample : Machine.Each api
    (fun g _ result => ∀ e, result = .error e → g = none ∧ e = .nullDereference) none
    [(.prompt, .connect .sample), (.prompt, .receive (some (ofList [0x20, 2, 0, 0] 0)) 4),
      (.prompt, .keepalive 60000), (.prompt, .disconnect)] :=
  run_faults _ (by decide +kernel)

end RojalMQTT
