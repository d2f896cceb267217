import RojalMQTT.CommandLine
import RojalMQTT.FaultLaws
import RojalMQTT.DeliveryLaws

/-! What the command line client does over its whole run. -/

namespace RojalMQTT

open Library

def Event.handedType : Event → Option (Option MQTTMessageType)
  | .out data _ => some (packetType data)
  | _ => none

def handedTypes (events : List Event) : List (Option MQTTMessageType) :=
  events.filterMap Event.handedType

@[simp] theorem handedTypes_nil : handedTypes [] = [] := rfl

@[simp] theorem handedTypes_append (events events' : List Event) :
    handedTypes (events ++ events') = handedTypes events ++ handedTypes events' :=
  List.filterMap_append

theorem Received.handedTypes (r : Received inputs events) : handedTypes events = [] := by
  rw [RojalMQTT.handedTypes, List.filterMap_eq_nil_iff]
  rintro (⟨data, ret⟩ | _ | _ | _) mem
  · exact absurd mem (r.not_out data ret)
  · rfl
  · rfl
  · rfl

theorem handedTypes_out {ret : Int} (r : Received inputs events) :
    handedTypes (.out data ret :: events) = [packetType data] := by
  have rest := r.handedTypes
  rw [handedTypes] at rest ⊢
  rw [List.filterMap_cons, Event.handedType, rest]

theorem Sends.handedTypes (h : Sends env s data sentOk o s') :
    handedTypes o.events = [packetType data] := by
  obtain ⟨events, received, happened⟩ := h.events_eq
  rw [happened, handedTypes_out received]

theorem Encoded.handedTypes {type : MQTTMessageType} (h : Encoded env s forms sentOk o g')
    (types : ∀ data, forms data → packetType data = some type) :
    handedTypes o.events = [] ∨ handedTypes o.events = [some type] := by
  obtain ⟨buffer, -, ⟨-, rfl, -⟩ | ⟨data, s', formed, -, sends⟩⟩ := h
  · exact .inl rfl
  · rw [sends.handedTypes, types data formed]
    exact .inr rfl

section Connect

variable {env : Env} {s : MQTTSharedData}

theorem stringsSize_eq (ss : List CString) : stringsSize ss = stringsLength ss + 2 * ss.length := by
  induction ss with
  | nil => rfl
  | cons s ss ih =>
    rw [stringsSize_cons, stringsLength_cons, ih, List.length_cons]
    omega

theorem FormsConnect.uncut {connectPtr : Ptr MQTTConnect} (h : FormsConnect env s connectPtr data)
    (small : s.bufferSize ≤ 65000) :
    ∃ c, connectPtr = some c ∧ data = connectBytes c ∧ data.length < 65536 := by
  obtain ⟨buffer, c, p, st, -, rfl, fill, rfl⟩ := h
  obtain ⟨q, st₁, params, -⟩ := Filled.orNull_eq_some fill
  obtain ⟨filled, -⟩ := parametersFilled_of_some params
  obtain ⟨clientId, id⟩ := Option.ne_none_iff_exists'.mp filled.clientId
  have start : (startFill (.fresh buffer) s.bufferSize c 0).spaceRemaining = s.bufferSize :=
    int32_of_lt (by omega)
  have length : (connectBytes c).length < 65536 := by
    have few := length_payloadStrings_le c
    have size := stringsSize_eq (payloadStrings c)
    have bound := stringsSize_payload_le c
    obtain ⟨done, rest, split, ⟨-, fits⟩, -, ⟨rfl, -⟩ | ⟨_, _, _, none, _⟩⟩ :=
      fillParameters_spec id params
    · rw [List.append_nil] at split
      have below := fits (split ▸ payloadStrings_ne_nil id)
      rw [← split, start] at below
      have digits := length_digits_le_four (n := stringsSize (payloadStrings c) + 10) (by omega)
      rw [length_connectBytes, length_fixedHeaderBytes]
      omega
    · cases none
  have cut : u16 (connectBytes c).length = (connectBytes c).length := u16_of_lt length
  have whole : st.buffer.read p st.outputSize = connectBytes c := by
    rw [mqttConnectFill_data fill, cut, List.take_length]
  exact ⟨c, rfl, whole, whole ▸ length⟩

theorem FormsConnect.packetType {connectPtr : Ptr MQTTConnect}
    (h : FormsConnect env s connectPtr data) (small : s.bufferSize ≤ 65000) :
    RojalMQTT.packetType data = some .connect := by
  obtain ⟨c, -, rfl, -⟩ := h.uncut small
  rw [connectBytes]
  exact packetType_header _ _ _ _ _ _

theorem connectCall_types {args : ConnectArguments} {c : MQTTConnect} {shared : MQTTSharedData}
    {g : Ptr MQTTSharedData} (h : mqttConnect env args g = .ok (a, g'))
    (checked : args.checked env = some (c, shared)) (small : args.outputBufferSize ≤ 65000) :
    (a.ret = false ∧ handedTypes a.events = []) ∨ handedTypes a.events = [some .connect] := by
  have size : shared.bufferSize = args.outputBufferSize :=
    congrArg (fun p => p.2.2.1) (checked_setup checked)
  obtain ⟨o, s', connect, rfl, rfl⟩ := connectCall_run h checked
  obtain ⟨buffer, -, ⟨-, rfl, left⟩ | ⟨data, events, forms, -, received, -, happened, -⟩⟩ :=
    actionConnect_spec rfl connect
  · obtain rfl := Option.some.inj left
    exact .inl ⟨rfl, rfl⟩
  · have type := forms.packetType (by
      change shared.bufferSize ≤ 65000
      rwa [size])
    simp only [happened, handedTypes_out received, type]
    exact .inr trivial

theorem connectCall_interval {args : ConnectArguments} {c : MQTTConnect} {shared : MQTTSharedData}
    {g : Ptr MQTTSharedData} (h : mqttConnect env args g = .ok (a, some s))
    (checked : args.checked env = some (c, shared)) (connected : a.ret = true) :
    s.keepaliveInMs = connectedKeepalive c.keepalive := by
  obtain ⟨o, s', connect, rfl, same⟩ := connectCall_run h checked
  obtain rfl := Option.some.inj same
  obtain ⟨buffer, -, ⟨-, rfl, left⟩ | ⟨_, _, _, _, _, _, _, ⟨_, _, left⟩ | ⟨c', eq, _, _, left⟩⟩⟩ :=
    actionConnect_spec rfl connect
  · obtain rfl := Option.some.inj left
    simp at connected
  · obtain rfl := Option.some.inj left
    simp at connected
  · obtain rfl := Option.some.inj left
    cases eq
    rfl

end Connect

section Requests

variable {env : Env} {s : MQTTSharedData}

theorem publishCall_types {topic msg buffer : Ptr Mem} {topicSize msgSize : Nat} {bufferSize : UInt32}
    (h : mqttPublishBuf env topic topicSize msg msgSize buffer bufferSize (some s) = .ok (a, g')) :
    handedTypes a.events = [] ∨ handedTypes a.events = [some .publish] := by
  rw [mqttPublishBuf] at h
  split at h
  case isTrue =>
    obtain ⟨⟨o, g₁⟩, run, h⟩ := bind_eq_ok h
    cases h
    have run : actionPublish env (some (some (publishParameters env topic topicSize msg msgSize
      buffer bufferSize))) (some s) = .ok (o, g') := run
    rcases actionPublish_spec run with ⟨-, rfl, -⟩ | ⟨_, p, -, encoded⟩
    · exact .inl rfl
    · exact encoded.handedTypes fun _ => FormsPublish.packetType
  case isFalse =>
    cases h
    exact .inl rfl

theorem subscribeCall_types {topic : Ptr Mem} {topicSize : UInt16} {timeoutInSec : UInt8}
    (h : mqttSubscribe env topic topicSize timeoutInSec (some s) = .ok (a, some s')) :
    ((a.ret = false ∧ handedTypes a.events = []) ∨ handedTypes a.events = [some .subscribe]) ∧
      s'.keepaliveInMs = s.keepaliveInMs := by
  rcases subscribeCall_cases h with ⟨-, rfl, same⟩ | ⟨-, -, o, s₁, run, rfl, same⟩
  · obtain rfl := Option.some.inj same
    exact ⟨.inl ⟨rfl, rfl⟩, rfl⟩
  · obtain rfl := Option.some.inj same
    rw [mqtt_subscribe] at run
    rcases actionSubscribe_spec run with ⟨-, rfl, same⟩ | ⟨-, p, -, buffer, -, result⟩
    · obtain rfl := Option.some.inj same
      exact ⟨.inl ⟨rfl, rfl⟩, rfl⟩
    · rcases result with ⟨-, rfl, same⟩ | ⟨data, t, forms, same, sends⟩
      · obtain rfl := Option.some.inj same
        exact ⟨.inl ⟨rfl, rfl⟩, rfl⟩
      · obtain rfl := Option.some.inj same
        refine ⟨.inr ?_, sends.field_eq (f := (·.keepaliveInMs)) fun _ => rfl⟩
        rw [sends.handedTypes, forms.packetType]

theorem disconnectCall_types (h : mqttDisconnect env (some s) = .ok (a, g')) :
    handedTypes a.events = [] ∨ handedTypes a.events = [some .disconnect] := by
  obtain ⟨⟨o, g₁⟩, run, h⟩ := bind_eq_ok h
  cases h
  have run : actionDisconnect env (some s) = .ok (o, g') := run
  rcases actionDisconnect_cases run with ⟨_, _, quiet, _⟩ | ⟨_, _, s', _, sends⟩
  · exact .inl (by simp [quiet])
  · have type := packetType_header false false .qos0 .disconnect 0 []
    rw [List.append_nil] at type
    rw [sends.handedTypes, type]
    exact .inr rfl

structure Pings (keepalive : UInt32) (s : MQTTSharedData) : Prop where
  ready : Ready s
  interval : s.keepaliveInMs = connectedKeepalive keepalive.toUInt16

theorem Pings.received {keepalive : UInt32} (h : Pings keepalive s) (inputs : List Mem) :
    Pings keepalive (s.received inputs) :=
  ⟨⟨h.ready.out, timerBounded_rule.received h.ready.timed inputs⟩, h.interval⟩

theorem keepaliveCall_pings {keepalive : UInt32} (h : Pings keepalive s) (env : Env)
    (fits : keepalive.toNat * 1000 < 2 ^ 31) :
    ∃ a s', mqttKeepalive env (keepalive * 1000) (some s) = .ok (a, some s') ∧ Pings keepalive s' ∧
      (handedTypes a.events = [] ∨
        (keepalive.toUInt16.toNat ≠ 0 ∧ handedTypes a.events = [some .pingreq])) ∧
      (a.ret = true → keepalive.toUInt16.toNat ≠ 0 → handedTypes a.events = [some .pingreq]) := by
  have whole : (keepalive * 1000).toNat = keepalive.toNat * 1000 := by
    have thousand : (1000 : UInt32).toNat = 1000 := rfl
    rw [UInt32.toNat_mul, thousand, Nat.mod_eq_of_lt (by omega)]
  have small : (keepalive * 1000).toNat < 2 ^ 31 := by rwa [whole]
  have low : keepalive.toUInt16.toNat ≤ keepalive.toNat := by
    rw [UInt32.toNat_toUInt16]
    exact Nat.mod_le _ _
  have fits : ApiCall.Fits (.keepalive (keepalive * 1000)) := small
  obtain ⟨a, s', run⟩ := api_total _ h.ready fits
  have ready := api_ready (by simpa using h.ready) fits run s' rfl
  refine ⟨a, s', run, ?_⟩
  obtain ⟨⟨o, g₁⟩, acts, same⟩ := bind_eq_ok run
  cases same
  have acts : actionKeepalive env (some (keepalive * 1000)) (some s) = .ok (o, some s') := acts
  by_cases connected : s.state = .connected
  · by_cases enabled : s.keepaliveInMs = int32Min
    · have disabled : keepalive.toUInt16.toNat = 0 := by
        rw [h.interval, connectedKeepalive] at enabled
        by_contra positive
        have least : int32Min = -2147483648 := rfl
        rw [if_pos positive, least] at enabled
        omega
      rcases actionKeepalive_cases acts with ⟨quiet, same, -⟩ | ⟨_, _, _, _, other, _⟩
      · obtain rfl := Option.some.inj same
        exact ⟨h, .inl (by simp [quiet]), fun _ positive => absurd disabled positive⟩
      · exact absurd enabled other
    · have positive : keepalive.toUInt16.toNat ≠ 0 := by
        intro zero
        rw [h.interval, connectedKeepalive, if_neg (by omega)] at enabled
        exact enabled rfl
      obtain ⟨-, below, -⟩ := h.ready.timed.resolve_left enabled
      rw [h.interval, connectedKeepalive, if_pos positive] at below
      have left : timeLeft s.timeToNextPingInMs (int32 (keepalive * 1000).toNat) = .ok 0 := by
        rw [int32_of_lt small, whole, timeLeft, if_neg (by omega)]
      obtain ⟨o', t, ran, result⟩ := actionKeepalive_ran env connected enabled left
      obtain ⟨rfl, same⟩ := Prod.mk.inj (Except.ok.inj (ran.symm.trans acts))
      obtain rfl := Option.some.inj same
      rcases result with ⟨late, _⟩ | ⟨_, none, _⟩ | ⟨_, _, sends⟩
      · exact absurd late (Int.lt_irrefl 0)
      · exact absurd none h.ready.out
      · have once : handedTypes o'.events = [some .pingreq] := by
          rw [sends.handedTypes, packetType_pingreqPacket]
        have interval := sends.field_eq (f := (·.keepaliveInMs)) fun _ => rfl
        exact ⟨⟨ready, interval.trans h.interval⟩, .inr ⟨positive, once⟩, fun _ _ => once⟩
  · have refused : actionKeepalive env (some (keepalive * 1000)) (some s) =
        .ok (⟨.invalidArgument, []⟩, some s) := by
      simp only [actionKeepalive, Ptr.deref_some, ok_bind, connected, if_false]
      rfl
    obtain ⟨rfl, same⟩ := Prod.mk.inj (Except.ok.inj (refused.symm.trans acts))
    obtain rfl := Option.some.inj same
    exact ⟨h, .inl rfl, fun returned => absurd returned (by decide)⟩

end Requests

namespace CommandLine

section Session

variable {s : MQTTSharedData} {w : World} {a : Arguments}

theorem Turn.run_api (turn : Turn) (call : ApiCall) (ready : Ready s) (fits : call.Fits) :
    ∃ answer answer' s', api (some (s.received turn.inputs)) (turn.env, call) = .ok (answer, some s') ∧
      turn.run (fun env g => api g (env, call)) (some s) = .ok (answer', some s') ∧
      answer'.ret = answer.ret ∧ handedTypes answer'.events = handedTypes answer.events ∧ Ready s' := by
  obtain ⟨events, received, quiet⟩ := receiveAll_some turn.inputs s
  have ready' : Ready (s.received turn.inputs) :=
    ⟨ready.out, timerBounded_rule.received ready.timed turn.inputs⟩
  obtain ⟨answer, s', run⟩ := api_total _ ready' fits
  refine ⟨answer, ⟨answer.ret, events ++ answer.events⟩, s', run, ?_, rfl, ?_,
    api_ready (by simpa using ready') fits run s' rfl⟩
  · simp only [Turn.run, received, ok_bind, run]
    rfl
  · rw [handedTypes_append, quiet.handedTypes, List.nil_append]

theorem subscribeLoop_pings {keepalive : UInt32} (fits : keepalive.toNat < 65536)
    (rounds : List Round) (h : Pings keepalive s) :
    ∃ events s' ended pings, subscribeLoop keepalive rounds (some s) = .ok (events, some s', ended) ∧
      Pings keepalive s' ∧ handedTypes events = List.replicate pings (some .pingreq) ∧
      pings ≤ rounds.length ∧ (keepalive.toNat = 0 → pings = 0) ∧
      (ended = false → 0 < keepalive.toNat → pings = rounds.length) := by
  have uncut : keepalive.toUInt16.toNat = keepalive.toNat := by
    rw [UInt32.toNat_toUInt16]
    exact Nat.mod_eq_of_lt fits
  induction rounds generalizing s with
  | nil => exact ⟨[], s, false, 0, rfl, h, rfl, Nat.le_refl 0, fun _ => rfl, fun _ _ => rfl⟩
  | cons round rounds ih =>
    obtain ⟨received, run, quiet⟩ := receiveAll_some round.inputs s
    have before := h.received round.inputs
    simp only [subscribeLoop, run, ok_bind]
    split
    case isTrue =>
      exact ⟨received, _, true, 0, rfl, before, quiet.handedTypes, Nat.zero_le _, fun _ => rfl, nofun⟩
    case isFalse =>
      split
      case isTrue positive =>
        have enabled : keepalive.toUInt16.toNat ≠ 0 := by omega
        obtain ⟨answer, s₁, call, after, once, always⟩ := keepaliveCall_pings before round.env (by omega)
        rw [call, ok_bind]
        split
        case isTrue returned =>
          obtain ⟨events, s', ended, pings, loop, left, types, atMost, -, all⟩ := ih after
          rw [loop]
          have one := always returned enabled
          refine ⟨_, s', ended, pings + 1, rfl, left, ?_, Nat.succ_le_succ atMost, by omega, ?_⟩
          · rw [handedTypes_append, handedTypes_append, quiet.handedTypes, one, types]
            rfl
          · exact fun goes _ => congrArg (· + 1) (all goes positive)
        case isFalse refused =>
          rcases once with none | ⟨-, one⟩
          · refine ⟨_, s₁, true, 0, rfl, after, ?_, Nat.zero_le _, fun _ => rfl, nofun⟩
            rw [handedTypes_append, quiet.handedTypes, none]
            rfl
          · refine ⟨_, s₁, true, 1, rfl, after, ?_, Nat.succ_le_succ (Nat.zero_le _), by omega, nofun⟩
            rw [handedTypes_append, quiet.handedTypes, one]
            rfl
      case isFalse zero =>
        obtain ⟨events, s', ended, pings, loop, left, types, atMost, none, -⟩ := ih before
        rw [loop]
        refine ⟨_, s', ended, pings, rfl, left, ?_, Nat.le_succ_of_le atMost, none, ?_⟩
        · rw [handedTypes_append, quiet.handedTypes, types]
          rfl
        · exact fun _ positive => absurd positive zero

def NoMemory (w : World) (a : Arguments) : Prop :=
  ∃ f, w.fopen a.filename = some f ∧ 0 < f.bytes.length ∧ f.buf = none

theorem publish_types (w : World) (a : Arguments) (ready : Ready s) :
    (publish w a (some s) = .error .nullDereference ∧ NoMemory w a) ∨
    ∃ answer s', publish w a (some s) = .ok (answer, some s') ∧ Ready s' ∧
      (handedTypes answer.events = [] ∨ handedTypes answer.events = [some .publish]) := by
  have requested (msg : Ptr Mem) (msgSize : Nat) (buffer : Ptr Mem) (bufferSize : UInt32) :
      ∃ answer s', w.request.run (fun env g => api g (env, .publishBuf (chars a.topic) a.topic.strlen
          msg msgSize buffer bufferSize)) (some s) = .ok (answer, some s') ∧ Ready s' ∧
        (handedTypes answer.events = [] ∨ handedTypes answer.events = [some .publish]) := by
    obtain ⟨answer, answer', s', call, run, -, types, ready'⟩ := w.request.run_api
      (.publishBuf (chars a.topic) a.topic.strlen msg msgSize buffer bufferSize) ready trivial
    refine ⟨answer', s', run, ready', ?_⟩
    rw [types]
    exact publishCall_types call
  have nothing : ∃ answer s', (.ok (⟨false, []⟩, some s) : Answered) = .ok (answer, some s') ∧
      Ready s' ∧ (handedTypes answer.events = [] ∨ handedTypes answer.events = [some .publish]) :=
    ⟨_, s, rfl, ready, .inl rfl⟩
  rw [publish]
  split
  case isTrue => exact .inr (requested _ _ none 0)
  case isFalse =>
    split
    case isFalse => exact .inr nothing
    case isTrue =>
      rw [publishFile]
      split
      case h_1 => exact .inr nothing
      case h_2 f opens =>
        dsimp only
        split
        case h_1 unallocated =>
          split
          case isTrue some => exact .inl ⟨rfl, f, opens, some, unallocated⟩
          case isFalse => exact .inr nothing
        case h_2 =>
          split
          case isTrue => exact .inr (requested _ _ _ _)
          case isFalse => exact .inr nothing

theorem rmcDisconnect_types (w : World) (ready : Ready s) :
    ∃ answer s', rmcDisconnect w (some s) = .ok (answer, some s') ∧
      (handedTypes answer.events = [] ∨ handedTypes answer.events = [some .disconnect]) := by
  obtain ⟨answer, answer', s', call, run, -, types, -⟩ := w.disconnect.run_api .disconnect ready
    trivial
  refine ⟨answer', s', run, ?_⟩
  rw [types]
  exact disconnectCall_types call

/-- What main hands out: a CONNECT, one request, with a keepalive PINGREQs behind a
SUBSCRIBE, and a DISCONNECT at the end.  While its loop goes on, it has pinged once a round. -/
inductive IsSession (a : Arguments) (rounds : Nat) : Bool → List (Option MQTTMessageType) → Prop
  | unconnected : IsSession a rounds true []
  | connected (last : types.Sublist [some .disconnect]) : IsSession a rounds true (some .connect :: types)
  | published (once : a.subscribes = false) (last : types.Sublist [some .disconnect]) :
    IsSession a rounds true (some .connect :: some .publish :: types)
  | subscribed (subscribes : a.subscribes = true) (pings : Nat) (atMost : pings ≤ rounds)
      (disabled : a.keepalive.toNat = 0 → pings = 0) (last : types.Sublist [some .disconnect]) :
    IsSession a rounds true
      (some .connect :: some .subscribe :: (List.replicate pings (some .pingreq) ++ types))
  | listening (subscribes : a.subscribes = true) (pings : Nat)
      (disabled : a.keepalive.toNat = 0 → pings = 0) (all : 0 < a.keepalive.toNat → pings = rounds) :
    IsSession a rounds false
      (some .connect :: some .subscribe :: List.replicate pings (some .pingreq))

/-- 16 bits hold the keepalive.  What `a_output_buffer` is to hold fits: the payload of the
CONNECT behind its headers, the SUBSCRIBE, the PUBLISH of a message, and that of a file
without memory for `mqttbuf`, which holds any below 256 MiB. -/
structure Arguments.Fits (w : World) (a : Arguments) : Prop where
  keepalive : a.keepalive.toNat < 65536
  connect : payloadStart + (2 + a.clientId.strlen) + (2 + a.lastWillTopic.strlen) +
    (2 + a.lastWillMessage.strlen) + (2 + a.username.strlen) + (2 + a.password.strlen) ≤
      outputBufferSize
  subscribe : a.subscribes = true → 8 + a.topic.strlen ≤ outputBufferSize
  publish : 0 < a.message.strlen → 5 + a.topic.strlen + a.message.strlen ≤ outputBufferSize
  topic : a.topic.strlen < 65536
  file : ∀ f, w.fopen a.filename = some f → 2 + a.topic.strlen + f.bytes.length < 268435456
  unbuffered : ∀ f, w.fopen a.filename = some f →
    w.malloc (mqttbufSize f.bytes.length a.topic.strlen).toNat = none →
      5 + a.topic.strlen + f.bytes.length ≤ outputBufferSize

theorem sublist_of_once {types : List (Option MQTTMessageType)}
    (once : types = [] ∨ types = [some .disconnect]) : types.Sublist [some .disconnect] := by
  rcases once with rfl | rfl
  · exact List.nil_sublist _
  · exact List.Sublist.refl _

theorem session_types (w : World) (h : Pings a.keepalive s) (fits : a.keepalive.toNat < 65536) :
    (session w a (some s) = .error .nullDereference ∧ NoMemory w a) ∨
    ∃ events g ended, session w a (some s) = .ok (events, g, ended) ∧
      IsSession a w.rounds.length ended (some .connect :: handedTypes events) := by
  -- the DISCONNECT behind a part that came to its end
  have ends {s' : MQTTSharedData} (events : List Event) (ready : Ready s') :
      ∃ answer s'', rmcDisconnect w (some s') = .ok (answer, some s'') ∧
        ∃ types, types.Sublist [some .disconnect] ∧
          handedTypes (events ++ answer.events) = handedTypes events ++ types := by
    obtain ⟨answer, s'', run, types⟩ := rmcDisconnect_types w ready
    exact ⟨answer, s'', run, _, sublist_of_once types, handedTypes_append _ _⟩
  rw [session, branch]
  cases subscribes : a.subscribes with
  | false =>
    simp only [Bool.false_eq_true, if_false]
    rcases publish_types w a h.ready with ⟨fault, memory⟩ | ⟨answer, s', run, ready, types⟩
    · rw [fault]
      exact .inl ⟨rfl, memory⟩
    obtain ⟨last, s'', disconnects, lastTypes, once, all⟩ := ends answer.events ready
    simp only [run, ok_bind, pure, Except.pure, if_true, disconnects]
    refine .inr ⟨_, _, _, rfl, ?_⟩
    rw [all]
    rcases types with none | one
    · rw [none, List.nil_append]
      exact .connected once
    · rw [one]
      exact .published subscribes once
  | true =>
    right
    obtain ⟨answer, answer', s₁, call, run, ret, types, ready⟩ := w.request.run_api
      (.subscribe (chars a.topic) (UInt16.ofNat a.topic.strlen) 10) h.ready trivial
    have run : w.request.run (fun env => mqttSubscribe env (chars a.topic)
      (UInt16.ofNat a.topic.strlen) 10) (some s) = .ok (answer', some s₁) := run
    obtain ⟨requested, interval⟩ := subscribeCall_types call
    simp only [if_true, subscribe, run, ok_bind]
    split
    case isFalse refused =>
      obtain ⟨last, s'', disconnects, lastTypes, once, all⟩ := ends answer'.events ready
      simp only [ok_bind, pure, Except.pure, if_true, disconnects]
      refine ⟨_, _, _, rfl, ?_⟩
      rw [all, types]
      rcases requested with ⟨-, none⟩ | one
      · rw [none, List.nil_append]
        exact .connected once
      · rw [one]
        exact .subscribed subscribes 0 (Nat.zero_le _) (fun _ => rfl) once
    case isTrue returned =>
      have one : handedTypes answer'.events = [some .subscribe] := by
        rw [types]
        refine requested.resolve_left fun refused => ?_
        rw [ret, refused.1] at returned
        cases returned
      obtain ⟨events, s', ended, pings, loop, left, pinged, atMost, disabled, all⟩ :=
        subscribeLoop_pings fits w.rounds ⟨ready, interval.trans h.interval⟩
      simp only [loop, ok_bind, pure, Except.pure]
      split
      case isTrue finished =>
        obtain ⟨last, s'', disconnects, lastTypes, once, split⟩ := ends (answer'.events ++ events) left.ready
        rw [disconnects]
        refine ⟨_, _, _, rfl, ?_⟩
        rw [split, handedTypes_append, one, pinged]
        exact .subscribed subscribes pings atMost disabled once
      case isFalse goes =>
        refine ⟨_, _, _, rfl, ?_⟩
        rw [handedTypes_append, one, pinged]
        exact .listening subscribes pings disabled (all (Bool.eq_false_iff.mpr goes))

end Session

theorem receiveAll_none (inputs : List Mem) :
    receiveAll inputs none = .error .nullDereference ∨
      ∃ events, receiveAll inputs none = .ok (events, none) ∧ handedTypes events = [] := by
  induction inputs with
  | nil => exact .inr ⟨[], rfl, rfl⟩
  | cons input inputs ih =>
    cases parsed : mqttParseInputStream (some input) (0 : UInt32).toNat none with
    | error e =>
      obtain rfl := parse_fault parsed
      left
      simp only [receiveAll, actionParseInputStream, Ptr.deref_some, ok_bind, parsed]
      rfl
    | ok r =>
      obtain ⟨o, run⟩ : ∃ o, actionParseInputStream (some (some ⟨some input, 0⟩)) none =
          .ok (o, r.shared.map fun s => { s with timeToNextPingInMs := s.keepaliveInMs }) := by
        simp only [actionParseInputStream, Ptr.deref_some, ok_bind, parsed]
        exact ⟨_, rfl⟩
      have asked : mqtt none (.prompt, .parseInputStream (some (some ⟨some input, 0⟩))) =
        .ok (o, r.shared.map fun s => { s with timeToNextPingInMs := s.keepaliveInMs }) := run
      have left : (r.shared.map fun s => { s with timeToNextPingInMs := s.keepaliveInMs }) = none :=
        (mqtt_none asked).resolve_right fun initialised => by
          obtain ⟨_, _, init, _⟩ := initialised
          cases init
      have quiet : handedTypes o.events = [] := by
        rw [handedTypes, List.filterMap_eq_nil_iff]
        rintro (⟨data, ret⟩ | _ | _ | _) mem
        · exact absurd mem (mqtt_none_silent asked)
        · rfl
        · rfl
        · rfl
      rw [left] at run
      simp only [receiveAll, run, ok_bind]
      rcases ih with fault | ⟨events, rest, none⟩
      · rw [fault]
        exact .inl rfl
      · rw [rest]
        exact .inr ⟨_, rfl, by rw [handedTypes_append, quiet, none]; rfl⟩

theorem checked_connect (a : Arguments) (env : Env) :
    ∃ c shared, a.connect.checked env = some (c, shared) ∧ c.keepalive = a.keepalive.toUInt16 :=
  ⟨_, _, rfl, rfl⟩

theorem main_cases (w : World) (a : Arguments) (fits : a.keepalive.toNat < 65536) :
    (main w a = .error .nullDereference ∧
      (receiveAll w.connect.inputs none = .error .nullDereference ∨ NoMemory w a)) ∨
    ∃ events g ended, main w a = .ok (events, g, ended) ∧
      IsSession a w.rounds.length ended (handedTypes events) := by
  have silent (g₀ : Ptr MQTTSharedData) : ∃ events g ended,
      (.ok ([], g₀, true) : Stretch) = .ok (events, g, ended) ∧
        IsSession a w.rounds.length ended (handedTypes events) := ⟨_, _, _, rfl, .unconnected⟩
  rw [main]
  split
  case isFalse => exact .inr (silent none)
  case isTrue =>
    rw [rmcConnect]
    split
    case isFalse => exact .inr (silent none)
    case isTrue =>
      rcases receiveAll_none w.connect.inputs with fault | ⟨received, run, quiet⟩
      · rw [Turn.run, fault]
        exact .inl ⟨rfl, .inl rfl⟩
      · obtain ⟨c, shared, checked, same⟩ := checked_connect a w.connect.env
        have size : a.connect.outputBufferSize = 1024 := rfl
        have args : ApiCall.Fits (.connect a.connect) := ⟨Option.some_ne_none 1, by omega⟩
        obtain ⟨answer, s, connects⟩ := connectCall_total checked args.2 none
        have ready := api_ready (g := none) (by simp) args connects s rfl
        have types := connectCall_types connects checked (by omega)
        simp only [Turn.run, run, ok_bind, connects, pure, Except.pure]
        split
        case isFalse refused =>
          refine .inr ⟨_, _, _, rfl, ?_⟩
          rw [handedTypes_append, quiet, List.nil_append]
          rcases types with ⟨-, none⟩ | one
          · rw [none]
            exact .unconnected
          · rw [one]
            exact .connected (List.nil_sublist _)
        case isTrue connected =>
          replace connected : answer.ret = true := connected
          have interval := connectCall_interval connects checked connected
          rw [same] at interval
          have one := types.resolve_left fun refused => by
            rw [connected] at refused
            cases refused.1
          rcases session_types w ⟨ready, interval⟩ fits with
              ⟨fault, memory⟩ | ⟨events, g, ended, goes, isSession⟩
          · rw [fault]
            exact .inl ⟨rfl, .inr memory⟩
          · simp only [goes, ok_bind]
            refine .inr ⟨_, _, _, rfl, ?_⟩
            rw [handedTypes_append, handedTypes_append, quiet, one]
            exact isSession

/-- In every run of main the packets that go out make up a session, and main faults only
where data comes in before `mqtt_connect`, in the receiving thread, or where there is no
memory for the file. -/
theorem main_session (w : World) (a : Arguments) (fits : a.Fits w) :
    (∀ e, main w a = .error e → e = .nullDereference ∧
      (receiveAll w.connect.inputs none = .error e ∨ NoMemory w a)) ∧
    ∀ events g ended, main w a = .ok (events, g, ended) →
      IsSession a w.rounds.length ended (handedTypes events) := by
  rcases main_cases w a fits.keepalive with ⟨fault, cause⟩ | ⟨events, g, ended, run, isSession⟩
  · rw [fault]
    refine ⟨fun e h => ?_, fun events g ended h => by cases h⟩
    cases h
    exact ⟨rfl, cause⟩
  · rw [run]
    refine ⟨fun e h => (by cases h), fun events' g' ended' h => ?_⟩
    cases h
    exact isSession

def Arguments.sample : Arguments where
  message := .empty
  topic := .abc
  clientId := .abc
  hostip := .abc
  lastWillMessage := .empty
  lastWillTopic := .empty
  username := .empty
  password := .empty
  keepalive := 60
  clean := true
  hostport := 1883
  filename := .empty
  receiveFile := false

def World.sample : World where
  socketInitialize _ _ := true
  connect := ⟨[], .prompt⟩
  request := ⟨[], .prompt⟩
  rounds := [⟨⟨[], .prompt⟩, false⟩, ⟨⟨[], .prompt⟩, true⟩]
  fopen _ := none
  malloc _ := none
  disconnect := ⟨[], .prompt⟩

theorem fits_sample : Arguments.Fits .sample .sample where
  keepalive := by decide
  connect := by decide
  subscribe _ := by decide
  publish := nofun
  topic := by decide
  file := nofun
  unbuffered := nofun

theorem main_session_sample : ∃ events g, main .sample .sample = .ok (events, g, true) ∧
    handedTypes events = [some .connect, some .subscribe, some .pingreq, some .disconnect] ∧
    IsSession .sample 2 true (handedTypes events) := by
  obtain ⟨⟨events, g, ended⟩, run, passes⟩ := exists_of_any (x := main .sample .sample)
    (p := fun r => r.2.2 = true ∧ handedTypes r.1 =
      [some .connect, some .subscribe, some .pingreq, some .disconnect]) (by decide +kernel)
  obtain ⟨rfl, types⟩ := of_decide_eq_true passes
  exact ⟨events, g, run, types, (main_session .sample .sample fits_sample).2 events g true run⟩

end CommandLine

end RojalMQTT
