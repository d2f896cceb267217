import RojalMQTT.Actions
import RojalMQTT.ConnectLaws

/-! What an action can do: its events, and the shared data it leaves. -/

namespace RojalMQTT

open Library

inductive Received : List Mem → List Event → Prop
  | nil : Received [] []
  | cons {callbacks : List Event} (h : ∀ e ∈ callbacks, e.IsCallback)
      (rest : Received inputs events) :
      Received (input :: inputs) (.parsed input :: (callbacks ++ events))

def MQTTSharedData.received (s : MQTTSharedData) (inputs : List Mem) : MQTTSharedData :=
  { s with
    state := inputs.foldl stateAfter s.state
    timeToNextPingInMs := if inputs.isEmpty then s.timeToNextPingInMs else s.keepaliveInMs }

theorem received_received (s : MQTTSharedData) (inputs inputs' : List Mem) :
    (s.received inputs).received inputs' = s.received (inputs ++ inputs') := by
  cases inputs <;> cases inputs' <;> simp [MQTTSharedData.received]

theorem Received.foldl_eq {f : γ → Event → γ} (skip : ∀ h e, e.IsCallback → f h e = h)
    (r : Received inputs events) (h : γ) :
    events.foldl f h = inputs.foldl (fun h input => f h (.parsed input)) h := by
  induction r generalizing h with
  | nil => rfl
  | @cons inputs events input callbacks silent rest ih =>
    have quiet : callbacks.foldl f (f h (.parsed input)) = f h (.parsed input) := by
      clear ih rest
      generalize f h (.parsed input) = h'
      induction callbacks generalizing h' with
      | nil => rfl
      | cons e callbacks ih =>
        rw [List.foldl_cons, skip h' e (silent e (by simp))]
        exact ih (fun e he => silent e (by simp [he])) h'
    rw [List.foldl_cons, List.foldl_append, quiet, ih, List.foldl_cons]

theorem Received.not_out (r : Received inputs events) (data : List UInt8) (ret : Int) :
    .out data ret ∉ events := by
  induction r with
  | nil => simp
  | cons silent rest ih =>
    intro h
    simp only [List.mem_cons, reduceCtorEq, List.mem_append, false_or] at h
    rcases h with h | h
    · exact silent _ h
    · exact ih h

theorem Received.parsed_mem (r : Received inputs events) (input : Mem) :
    .parsed input ∈ events ↔ input ∈ inputs := by
  induction r with
  | nil => simp
  | @cons _ _ _ callbacks silent rest ih =>
    have quiet : Event.parsed input ∉ callbacks := fun h => silent _ h
    simp [quiet, ih]

def MQTTSharedData.restartTimer (s : MQTTSharedData) : MQTTSharedData :=
  { s with timeToNextPingInMs := s.keepaliveInMs }

theorem actionParseInputStream_some (input : Mem) (n : UInt32) (s : MQTTSharedData) :
    ∃ status callbacks, actionParseInputStream (some (some ⟨some input, n⟩)) (some s) =
      .ok (⟨status, .parsed input :: callbacks⟩, some (s.received [input])) ∧
      ∀ e ∈ callbacks, e.IsCallback := by
  obtain ⟨r, parsed, shared, silent⟩ := mqttParseInputStream_some input n.toNat s
  refine ⟨r.status, r.events, ?_, silent⟩
  simp [actionParseInputStream, parsed, shared]
  rfl

theorem actionParseInputStream_eq (p : MQTTInputStream) (s : MQTTSharedData) :
    ∃ o, actionParseInputStream (some (some p)) (some s) =
        .ok (o, some (s.received p.data.toList).restartTimer) ∧
      Received p.data.toList o.events := by
  rcases p with ⟨_ | input, n⟩
  · exact ⟨⟨.invalidArgument, []⟩, rfl, .nil⟩
  · obtain ⟨status, callbacks, run, silent⟩ := actionParseInputStream_some input n s
    exact ⟨_, run, by simpa using Received.cons  silent .nil⟩

theorem actionParseInputStream_cases {actionPtr : Ptr (Ptr MQTTInputStream)} {s : MQTTSharedData}
    (h : actionParseInputStream actionPtr (some s) = .ok (o, g')) :
    ∃ p, actionPtr = some (some p) ∧ Received p.data.toList o.events ∧
      g' = some (s.received p.data.toList).restartTimer := by
  rcases actionPtr with _ | _ | p
  · cases h
  · cases h
  · obtain ⟨o', run, received⟩ := actionParseInputStream_eq p s
    rw [run] at h
    cases h
    exact ⟨p, rfl, received, rfl⟩

theorem receiveAll_some (inputs : List Mem) (s : MQTTSharedData) :
    ∃ events, receiveAll inputs (some s) = .ok (events, some (s.received inputs)) ∧
      Received inputs events := by
  induction inputs generalizing s with
  | nil => exact ⟨[], rfl, .nil⟩
  | cons input inputs ih =>
    obtain ⟨status, callbacks, first, silent⟩ := actionParseInputStream_some input 0 s
    obtain ⟨events, rest, received⟩ := ih (s.received [input])
    rw [received_received] at rest
    exact ⟨_, by simp [receiveAll, first, rest], .cons silent received⟩

theorem callOut_singleton (env : Env) (data : List UInt8) (s : MQTTSharedData) :
    ∃ events, callOut env [data] (some s) =
        .ok (.out data (env.ret data) :: events, some (s.received env.meanwhile)) ∧
      Received env.meanwhile events := by
  obtain ⟨events, run, received⟩ := receiveAll_some env.meanwhile s
  exact ⟨events, by simp [callOut, run], received⟩

theorem callOut_some (env : Env) (calls : List (List UInt8)) (s : MQTTSharedData) :
    ∃ events inputs, callOut env calls (some s) = .ok (events, some (s.received inputs)) := by
  induction calls generalizing s with
  | nil => exact ⟨[], [], rfl⟩
  | cons data calls ih =>
    obtain ⟨received, first, -⟩ := receiveAll_some env.meanwhile s
    obtain ⟨events, inputs, rest⟩ := ih (s.received env.meanwhile)
    rw [received_received] at rest
    exact ⟨_, _, by simp only [callOut, first, ok_bind, rest]; rfl⟩

def Sent.Handed (sent : Sent) (outFptr : Ptr (List UInt8 → Int)) : Prop :=
  (sent.ret = false ∧ sent.calls = []) ∨
    ∃ ret data, outFptr = some ret ∧ sent.calls = [data] ∧
      sent.ret = decide (ret data = int32 data.length)

theorem handOut_handed {outFptr : Ptr (List UInt8 → Int)} {output : Buffer UInt8} {size : Nat}
    (h : handOut outFptr output size = .ok sent) : sent.Handed outFptr := by
  cases outFptr with
  | none => cases h
  | some ret =>
    cases h
    have length : (output.read 0 size).length = size := length_slice _ _ _
    exact .inr ⟨ret, output.read 0 size, rfl, rfl, by rw [length]⟩

theorem not_handed {output : Ptr (Buffer UInt8)} (outFptr : Ptr (List UInt8 → Int)) :
    Sent.Handed ⟨false, [], output⟩ outFptr := .inl ⟨rfl, rfl⟩

theorem encodePublish_handed {outFptr : Ptr (List UInt8 → Int)} {output : Ptr (Buffer UInt8)}
    {outputSize : UInt32} {retain dup : Bool} {qos : MQTTQoSLevel} {topic message : Ptr Mem}
    {topicSize packetIdentifier : UInt16} {messageSize : UInt32}
    (h : encodePublish outFptr output outputSize retain qos dup topic topicSize packetIdentifier
      message messageSize = .ok sent) : sent.Handed outFptr := by
  simp only [encodePublish, publishRemaining_eq] at h
  split at h
  · split at h
    · split at h
      · exact handOut_handed h
      · cases h
        exact not_handed outFptr
    · cases h
      exact not_handed outFptr
  · cases h
    exact not_handed outFptr

theorem encodeSubscribe_handed {outFptr : Ptr (List UInt8 → Int)} {output : Ptr (Buffer UInt8)}
    {outputSize : UInt32} {topicQos : MQTTQoSLevel} {topic : Ptr Mem}
    {topicSize packetIdentifier : UInt16}
    (h : encodeSubscribe outFptr output outputSize topicQos topic topicSize packetIdentifier =
      .ok sent) : sent.Handed outFptr := by
  simp only [encodeSubscribe, subscribeRemaining_eq] at h
  split at h
  · split at h
    · split at h
      · exact handOut_handed h
      · cases h
        exact not_handed _
    · cases h
      exact not_handed _
  · cases h
    exact not_handed outFptr

inductive Sends (env : Env) (s : MQTTSharedData) (data : List UInt8)
    (sentOk : MQTTSharedData → MQTTSharedData) : Outcome → MQTTSharedData → Prop
  | accepted (received : Received env.meanwhile events)
      (h : env.ret data = int32 data.length) :
      Sends env s data sentOk ⟨.successfull, .out data (env.ret data) :: events⟩
        (sentOk (s.received env.meanwhile))
  | refused (received : Received env.meanwhile events)
      (h : env.ret data ≠ int32 data.length) (fail : status ≠ .successfull) :
      Sends env s data sentOk ⟨status, .out data (env.ret data) :: events⟩
        (s.received env.meanwhile)

theorem Sends.status_iff (h : Sends env s data sentOk o s') :
    o.status = .successfull ↔ env.ret data = int32 data.length := by
  cases h with
  | accepted received h => simp [h]
  | refused received h fail => simp [h, fail]

theorem Sends.events_eq (h : Sends env s data sentOk o s') :
    ∃ events, Received env.meanwhile events ∧ o.events = .out data (env.ret data) :: events := by
  cases h with
  | accepted received h => exact ⟨_, received, rfl⟩
  | refused received h fail => exact ⟨_, received, rfl⟩

theorem Sends.field_eq {f : MQTTSharedData → α} (h : Sends env s data sentOk o s')
    (keep : ∀ s, f (sentOk s) = f s) : f s' = f (s.received env.meanwhile) := by
  cases h with
  | accepted received h => exact keep _
  | refused received h fail => rfl

def MQTTSharedData.encoded (s : MQTTSharedData) (cntr : UInt32) (buffer : Ptr Mem) :
    MQTTSharedData :=
  { s with mqttPacketCntr := cntr, buffer }

theorem encoded_self (s : MQTTSharedData) : s.encoded s.mqttPacketCntr s.buffer = s := rfl

theorem sendFixedHeader_some (ret : List UInt8 → Int) {messageType : MQTTMessageType}
    (h : messageType ≠ .maxcmd) (temporary : Mem) :
    sendFixedHeader (some ret) messageType temporary =
      (if ret (fixedHeaderBytes false .qos0 false messageType 0) = 2 then .successfull
        else .serverUnavailabe, [fixedHeaderBytes false .qos0 false messageType 0]) := by
  have two : (fixedHeaderBytes false .qos0 false messageType 0).length = 2 := by
    rw [length_fixedHeaderBytes, Base128.digits_of_lt (by decide)]
    rfl
  have data : ((Buffer.fresh temporary).copy 0 (fixedHeaderBytes false .qos0 false messageType 0)).read
      0 2 = fixedHeaderBytes false .qos0 false messageType 0 := by
    rw [← two]
    exact Buffer.read_eq_of_spells (Buffer.spells_copy _ _ _)
  simp only [sendFixedHeader]
  rw [encodeFixedHeader_of_encodes ⟨by simp, h, by decide⟩, two]
  simp only [data]
  rfl

theorem callOut_fixedHeader (env : Env) {s : MQTTSharedData} (messageType : MQTTMessageType)
    (h : messageType ≠ .maxcmd) (out : s.outFptr ≠ none) :
    ∃ status events, sendFixedHeader (s.outCall env) messageType env.stack =
        (status, [fixedHeaderBytes false .qos0 false messageType 0]) ∧
      (status = .successfull ↔ env.ret (fixedHeaderBytes false .qos0 false messageType 0) =
        int32 (fixedHeaderBytes false .qos0 false messageType 0).length) ∧
      callOut env [fixedHeaderBytes false .qos0 false messageType 0] (some s) =
        .ok (.out (fixedHeaderBytes false .qos0 false messageType 0)
          (env.ret (fixedHeaderBytes false .qos0 false messageType 0)) :: events,
          some (s.received env.meanwhile)) ∧ Received env.meanwhile events := by
  obtain ⟨f, out⟩ := Option.ne_none_iff_exists'.mp out
  obtain ⟨events, run, received⟩ :=
    callOut_singleton env (fixedHeaderBytes false .qos0 false messageType 0) s
  have two : int32 (fixedHeaderBytes false .qos0 false messageType 0).length = 2 := by
    rw [length_fixedHeaderBytes, Base128.digits_of_lt (by decide)]
    rfl
  have call : s.outCall env = some env.ret := by rw [MQTTSharedData.outCall, out, Option.map_some]
  have sent := sendFixedHeader_some env.ret h env.stack
  rw [← call] at sent
  refine ⟨_, events, sent, ?_, run, received⟩
  rw [two]
  split
  case isTrue all => exact ⟨fun _ => all, fun _ => rfl⟩
  case isFalse short => exact ⟨fun ok => absurd ok (by decide), fun all => absurd all short⟩

theorem actionDisconnect_cases {env : Env} {s : MQTTSharedData}
    (h : actionDisconnect env (some s) = .ok (o, g')) :
    ((s.state = .disconnected ∨ s.outFptr = none) ∧ o.status ≠ .successfull ∧ o.events = [] ∧
        g' = some s) ∨
      (s.state ≠ .disconnected ∧ s.outFptr ≠ none ∧ ∃ s', g' = some s' ∧
        Sends env s (fixedHeaderBytes false .qos0 false .disconnect 0) id o s') := by
  simp only [actionDisconnect] at h
  split at h
  · by_cases out : s.outFptr = none
    · simp [mqttDisconnect_, sendFixedHeader, MQTTSharedData.outCall, out, callOut] at h
      obtain ⟨rfl, rfl⟩ := h
      exact .inl ⟨.inr out, by decide, rfl, rfl⟩
    · obtain ⟨status, events, sent, accepted, run, received⟩ :=
        callOut_fixedHeader env .disconnect (by decide) out
      simp only [mqttDisconnect_, sent, run, ok_bind] at h
      cases h
      refine .inr ⟨‹_›, out, _, rfl, ?_⟩
      by_cases ok : status = .successfull
      · rw [ok]
        exact .accepted received (accepted.mp ok)
      · exact .refused received (fun all => ok (accepted.mpr all)) ok
  · cases h
    exact .inl ⟨.inl (not_not.mp ‹_›), by decide, rfl, rfl⟩

def pingreqPacket : List UInt8 := fixedHeaderBytes false .qos0 false .pingreq 0

theorem actionKeepalive_ran (env : Env) {elapsed : UInt32} {s : MQTTSharedData} {t : Int}
    (connected : s.state = .connected) (enabled : s.keepaliveInMs ≠ int32Min)
    (left : timeLeft s.timeToNextPingInMs (int32 elapsed.toNat) = .ok t) :
    ∃ o s', actionKeepalive env (some elapsed) (some s) = .ok (o, some s') ∧
      ((0 < t ∧ o = ⟨.pingNotSend, []⟩ ∧ s' = { s with timeToNextPingInMs := t }) ∨
        (t ≤ 0 ∧ s.outFptr = none ∧ o = ⟨.invalidArgument, []⟩ ∧
          s' = { s with timeToNextPingInMs := t }) ∨
        (t ≤ 0 ∧ s.outFptr ≠ none ∧ Sends env { s with timeToNextPingInMs := t } pingreqPacket
          MQTTSharedData.restartTimer o s')) := by
  simp only [actionKeepalive, Ptr.deref_some, ok_bind]
  rw [if_pos connected, if_pos enabled, left, ok_bind]
  by_cases early : 0 < t
  · rw [if_neg (by omega)]
    exact ⟨_, _, rfl, .inl ⟨early, rfl, rfl⟩⟩
  · have due : t ≤ 0 := by omega
    rw [if_pos due]
    by_cases out : s.outFptr = none
    · have sent : mqttPingReq (s.outCall env) env.stack = (.invalidArgument, []) := by
        rw [MQTTSharedData.outCall, out]
        rfl
      have call : { s with timeToNextPingInMs := t }.outCall env = s.outCall env := rfl
      simp only [call, sent, callOut, ok_bind, Ptr.deref_some]
      exact ⟨_, _, rfl, .inr (.inl ⟨due, out, rfl, rfl⟩)⟩
    · obtain ⟨status, events, sent, accepted, run, received⟩ := callOut_fixedHeader env
        (s := { s with timeToNextPingInMs := t }) .pingreq (by decide) out
      simp only [mqttPingReq, sent, run, ok_bind, Ptr.deref_some]
      by_cases ok : status = .successfull
      · rw [if_pos ok, ok]
        exact ⟨_, _, rfl, .inr (.inr ⟨due, out, .accepted received (accepted.mp ok)⟩)⟩
      · rw [if_neg ok]
        exact ⟨_, _, rfl, .inr (.inr ⟨due, out, .refused received
          (fun all => ok (accepted.mpr all)) ok⟩)⟩

theorem actionKeepalive_cases {env : Env} {actionPtr : Ptr UInt32} {s : MQTTSharedData}
    (h : actionKeepalive env actionPtr (some s) = .ok (o, g')) :
    (o.events = [] ∧ g' = some s ∧
        (actionPtr = none ∨ s.state ≠ .connected ∨ s.keepaliveInMs = int32Min)) ∨
      ∃ elapsed t, actionPtr = some elapsed ∧ s.state = .connected ∧ s.keepaliveInMs ≠ int32Min ∧
        timeLeft s.timeToNextPingInMs (int32 elapsed.toNat) = .ok t ∧
        ((o.events = [] ∧ g' = some { s with timeToNextPingInMs := t } ∧
            (0 < t ∧ o.status = .pingNotSend ∨ s.outFptr = none)) ∨
          (t ≤ 0 ∧ s.outFptr ≠ none ∧ ∃ s', g' = some s' ∧
            Sends env { s with timeToNextPingInMs := t }
              (fixedHeaderBytes false .qos0 false .pingreq 0)
              MQTTSharedData.restartTimer o s')) := by
  cases actionPtr with
  | none =>
    cases h
    exact .inl ⟨rfl, rfl, .inl rfl⟩
  | some elapsed =>
    by_cases connected : s.state = .connected
    · by_cases disabled : s.keepaliveInMs = int32Min
      · simp only [actionKeepalive, Ptr.deref_some, ok_bind, connected, disabled, ne_eq,
          not_true_eq_false, if_true, if_false] at h
        cases h
        exact .inl ⟨rfl, rfl, .inr (.inr disabled)⟩
      · cases left : timeLeft s.timeToNextPingInMs (int32 elapsed.toNat) with
        | error e =>
          simp only [actionKeepalive, Ptr.deref_some, ok_bind] at h
          rw [if_pos connected, if_pos disabled, left] at h
          cases h
        | ok t =>
          refine .inr ⟨elapsed, t, rfl, connected, disabled, left, ?_⟩
          obtain ⟨o', s', run, result⟩ := actionKeepalive_ran env connected disabled left
          rw [run] at h
          cases h
          rcases result with ⟨early, rfl, rfl⟩ | ⟨due, out, rfl, rfl⟩ | ⟨due, out, sends⟩
          · exact .inl ⟨rfl, rfl, .inl ⟨early, rfl⟩⟩
          · exact .inl ⟨rfl, rfl, .inr out⟩
          · exact .inr ⟨due, out, s', rfl, sends⟩
    · simp only [actionKeepalive, Ptr.deref_some, ok_bind, connected, if_false] at h
      cases h
      exact .inl ⟨rfl, rfl, .inr (.inl connected)⟩

def FormsConnect (env : Env) (s : MQTTSharedData) (connectPtr : Ptr MQTTConnect)
    (data : List UInt8) : Prop :=
  ∃ buffer c p st, s.buffer = some buffer ∧ connectPtr = some c ∧
    mqttConnectFill (.fresh buffer) s.bufferSize c 0 env.stack = .ok (some p, st) ∧
    data = st.buffer.read p st.outputSize

def SendsConnect (env : Env) (s : MQTTSharedData) (connectPtr : Ptr MQTTConnect) : Prop :=
  s.outFptr ≠ none ∧ ∃ data, FormsConnect env s connectPtr data ∧ env.ret data = data.length

theorem FormsConnect.unique (h : FormsConnect env s connectPtr data)
    (h' : FormsConnect env s connectPtr data') : data = data' := by
  obtain ⟨buffer, c, p, st, hb, hc, fill, rfl⟩ := h
  obtain ⟨buffer', c', p', st', hb', hc', fill', rfl⟩ := h'
  obtain rfl := Option.some.inj (hb.symm.trans hb')
  obtain rfl := Option.some.inj (hc.symm.trans hc')
  rw [fill] at fill'
  cases fill'
  rfl

theorem FormsConnect.head (h : FormsConnect env s connectPtr data) :
    data = [] ∨ data.head? = some 0x10 := by
  obtain ⟨buffer, c, p, st, -, -, fill, rfl⟩ := h
  rw [mqttConnectFill_data fill]
  cases u16 (connectBytes c).length with
  | zero => exact .inl rfl
  | succ n => exact .inr rfl

theorem sendsConnect_iff (forms : FormsConnect env s connectPtr data) (out : s.outFptr ≠ none) :
    SendsConnect env s connectPtr ↔ env.ret data = data.length := by
  constructor
  · rintro ⟨-, data', forms', all⟩
    rwa [forms.unique forms']
  · exact fun all => ⟨out, data, forms, all⟩

theorem mqttConnect_cases {env : Env} {s : MQTTSharedData} {connectPtr : Ptr MQTTConnect}
    (h : mqttConnect_ s.buffer s.bufferSize none (s.outCall env) connectPtr false env.stack =
      .ok sent) :
    (sent.messageBuffer = none ↔ s.buffer = none) ∧
      ((¬ SendsConnect env s connectPtr ∧ sent.status = .invalidArgument ∧ sent.calls = []) ∨
        (s.outFptr ≠ none ∧ ∃ data, FormsConnect env s connectPtr data ∧ sent.calls = [data] ∧
          sent.status = if env.ret data = data.length then .successfull else .serverUnavailabe)) := by
  cases out : s.outFptr with
  | none =>
    rw [MQTTSharedData.outCall, out] at h
    cases h
    exact ⟨Iff.rfl, .inl ⟨fun sends => sends.1 out, rfl, rfl⟩⟩
  | some f =>
    cases hb : s.buffer with
    | none =>
      rw [MQTTSharedData.outCall, out, hb] at h
      cases h
      refine ⟨Iff.rfl, .inl ⟨?_, rfl, rfl⟩⟩
      rintro ⟨_, _, ⟨_, _, _, _, some, _⟩, _⟩
      simp [hb] at some
    | some buffer =>
      cases connectPtr with
      | none =>
        rw [MQTTSharedData.outCall, out, hb] at h
        cases h
        refine ⟨Iff.rfl, .inl ⟨?_, rfl, rfl⟩⟩
        rintro ⟨_, _, ⟨_, _, _, _, _, some, _⟩, _⟩
        cases some
      | some c =>
        rw [MQTTSharedData.outCall, out, hb] at h
        simp only [Option.map_some, mqttConnect_] at h
        cases fill : mqttConnectFill (.fresh buffer) s.bufferSize c 0 env.stack with
        | error e =>
          rw [fill] at h
          cases h
        | ok r =>
          obtain ⟨msgPtr, st⟩ := r
          rw [fill] at h
          cases msgPtr with
          | none =>
            cases h
            refine ⟨by simp, .inl ⟨?_, rfl, rfl⟩⟩
            rintro ⟨_, _, ⟨buffer', c', p, st', hb', hc', fill', _⟩, _⟩
            obtain rfl := Option.some.inj (hb.symm.trans hb')
            cases hc'
            rw [fill] at fill'
            cases fill'
          | some p =>
            have forms : FormsConnect env s (some c) (st.buffer.read p st.outputSize) :=
              ⟨buffer, c, p, st, hb, rfl, fill, rfl⟩
            have size : (st.buffer.read p st.outputSize).length = st.outputSize :=
              length_slice _ _ _
            simp only at h
            split at h
            case isTrue all =>
              cases h
              exact ⟨by simp, .inr ⟨by simp, _, forms, rfl, (if_pos (by rwa [size])).symm⟩⟩
            case isFalse short =>
              cases h
              exact ⟨by simp, .inr ⟨by simp, _, forms, rfl, (if_neg (by rwa [size])).symm⟩⟩

def MQTTSharedData.connected (s : MQTTSharedData) (keepalive : UInt16) : MQTTSharedData :=
  { s with
    keepaliveInMs := connectedKeepalive keepalive, timeToNextPingInMs := 0, state := .connected }

/-- ACTION_CONNECT on a disconnected client: what is received while the CONNECT is
handed out comes before the state is written. -/
theorem actionConnect_spec {env : Env} {connectPtr : Ptr MQTTConnect} {s : MQTTSharedData}
    (idle : s.state = .disconnected)
    (h : actionConnect env (some connectPtr) (some s) = .ok (o, g')) :
    ∃ buffer, (buffer = none ↔ s.buffer = none) ∧
      ((¬ SendsConnect env s connectPtr ∧ o = ⟨.invalidArgument, []⟩ ∧
          g' = some { s with buffer := buffer, state := .disconnected }) ∨
        ∃ data events, FormsConnect env s connectPtr data ∧ s.outFptr ≠ none ∧
          Received env.meanwhile events ∧
          receiveAll env.meanwhile (some { s with buffer := buffer }) =
            .ok (events, some { s.received env.meanwhile with buffer := buffer }) ∧
          o.events = .out data (env.ret data) :: events ∧
          ((env.ret data ≠ data.length ∧ o.status = .serverUnavailabe ∧ g' = some
              { s.received env.meanwhile with buffer := buffer, state := .disconnected }) ∨
            ∃ c, connectPtr = some c ∧ env.ret data = data.length ∧ o.status = .successfull ∧
              g' = some ({ s.received env.meanwhile with buffer := buffer }.connected
                c.keepalive))) := by
  rw [actionConnect, if_pos idle] at h
  obtain ⟨sent, connect, h⟩ := bind_eq_ok h
  obtain ⟨kept, ⟨not, invalid, calls⟩ | ⟨out, data, forms, calls, status⟩⟩ := mqttConnect_cases connect
  · simp only [calls, callOut, ok_bind, Ptr.deref_some] at h
    rw [invalid, if_neg (by decide)] at h
    cases h
    exact ⟨sent.messageBuffer, kept, .inl ⟨not, rfl, rfl⟩⟩
  · obtain ⟨events, run, received⟩ :=
      receiveAll_some env.meanwhile { s with buffer := sent.messageBuffer }
    have call : callOut env [data] (some { s with buffer := sent.messageBuffer }) =
        .ok (.out data (env.ret data) :: events,
          some { s.received env.meanwhile with buffer := sent.messageBuffer }) := by
      simp [callOut, run]
      rfl
    simp only [calls, call, ok_bind, Ptr.deref_some] at h
    refine ⟨sent.messageBuffer, kept, .inr ⟨data, events, forms, out, received, run, ?_⟩⟩
    by_cases all : env.ret data = data.length
    · obtain ⟨c, rfl⟩ : ∃ c, connectPtr = some c := by
        obtain ⟨_, c, _, _, _, hc, _⟩ := forms
        exact ⟨c, hc⟩
      rw [status, if_pos all, if_pos rfl] at h
      cases h
      exact ⟨rfl, .inr ⟨c, rfl, all, rfl, rfl⟩⟩
    · rw [status, if_neg all, if_neg (by decide)] at h
      cases h
      exact ⟨rfl, .inl ⟨all, rfl, rfl⟩⟩

theorem actionConnect_cases {env : Env} {actionPtr : Ptr (Ptr MQTTConnect)} {s : MQTTSharedData}
    (h : actionConnect env actionPtr (some s) = .ok (o, g')) :
    (actionPtr = none ∧ o = ⟨.invalidArgument, []⟩ ∧ g' = some s) ∨
      (s.state ≠ .disconnected ∧ o = ⟨.allreadyConnected, []⟩ ∧ g' = some s) ∨
      (s.state = .disconnected ∧ ∃ connectPtr buffer, actionPtr = some connectPtr ∧
        ((¬ SendsConnect env s connectPtr ∧ o = ⟨.invalidArgument, []⟩ ∧
            g' = some { s with buffer := buffer, state := .disconnected }) ∨
          ∃ data events, FormsConnect env s connectPtr data ∧ Received env.meanwhile events ∧
            o.events = .out data (env.ret data) :: events ∧
            ((¬ SendsConnect env s connectPtr ∧ o.status = .serverUnavailabe ∧ g' = some
                { s.received env.meanwhile with buffer := buffer, state := .disconnected }) ∨
              ∃ c, connectPtr = some c ∧ SendsConnect env s connectPtr ∧
                o.status = .successfull ∧ g' = some ({ s.received env.meanwhile with
                  buffer := buffer }.connected c.keepalive)))) := by
  cases actionPtr with
  | none =>
    cases h
    exact .inl ⟨rfl, rfl, rfl⟩
  | some connectPtr =>
    right
    by_cases idle : s.state = .disconnected
    · obtain ⟨buffer, -, silent | ⟨data, events, forms, out, received, -, happened, result⟩⟩ :=
        actionConnect_spec idle h
      · exact .inr ⟨idle, connectPtr, buffer, rfl, .inl silent⟩
      · refine .inr ⟨idle, connectPtr, buffer, rfl, .inr ⟨data, events, forms, received, happened, ?_⟩⟩
        rwa [sendsConnect_iff forms out]
    · rw [actionConnect, if_neg idle] at h
      cases h
      exact .inl ⟨idle, rfl, rfl⟩

theorem actionConnect_ok {env : Env} {c : MQTTConnect} {g : Ptr MQTTSharedData}
    (h : actionConnect env (some (some c)) g = .ok (o, g')) (ok : o.status = .successfull) :
    ∃ s : MQTTSharedData, g' = some (s.connected c.keepalive) ∧ s.outFptr ≠ none := by
  cases g with
  | none =>
    cases h
    exact absurd ok (by decide)
  | some s =>
    rcases actionConnect_cases h with ⟨none, _⟩ | ⟨_, rfl, _⟩ | ⟨_, _, buffer, same, result⟩
    · cases none
    · exact absurd ok (by decide)
    · obtain rfl := Option.some.inj same
      rcases result with ⟨_, rfl, _⟩ | ⟨_, _, _, _, _, ⟨_, fail, _⟩ | ⟨c', hc, sends, _, left⟩⟩
      · exact absurd ok (by decide)
      · rw [fail] at ok
        exact absurd ok (by decide)
      · cases hc
        exact ⟨_, left, sends.1⟩

def Env.prompt : Env where
  ret data := int32 data.length
  meanwhile := []
  asleep _ := []
  stack _ := 0

end RojalMQTT
