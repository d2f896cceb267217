import RojalMQTT.StreamLaws

/-! The client as its boundary shows it: a session that is opened, used and closed. -/

namespace RojalMQTT

open Library

/-- Where a session stands, for somebody who sees only what happens at the boundary. -/
inductive Phase
  | unset
  | closed
  | opened
  deriving DecidableEq

namespace Phase

def ofState : MQTTState → Phase
  | .disconnected => .closed
  | .connected => .opened

def of (g : Ptr MQTTSharedData) : Phase := g.elim .unset fun s => ofState s.state

def hears : Phase → Mem → Phase
  | .unset, _ => .unset
  | phase, input => (connackCode input).elim phase fun code => if code = 0 then .opened else .closed

inductive Resets : Env × ApiCall → Prop
  | init (shared : MQTTSharedData) : Resets (env, .action (.init (some (some shared))))

/-- The call opens a session: `mqtt_connect` always, ACTION_CONNECT where none is open. -/
inductive Opens : Phase → Env × ApiCall → Prop
  | connect (checked : args.checked env = some r) : Opens phase (env, .connect args)
  | action (connectPtr : Ptr MQTTConnect) : Opens .closed (env, .action (.connect (some connectPtr)))

def Takes (env : Env) (data : List UInt8) : Prop := env.ret data = int32 data.length

instance : Decidable (Takes env data) := inferInstanceAs (Decidable (_ = _))

inductive Step : Phase → Env × ApiCall → Answer → Phase → Prop
  | resets (resetting : Resets c) : Step phase c ⟨true, []⟩ .closed
  /-- A whole CONNECT goes out.  Whatever comes in meanwhile, only `out_fptr` decides. -/
  | opens (opening : Opens phase (env, call)) (connect : IsConnect data)
      (heard : Received env.meanwhile events) (takes : Takes env data) :
      Step phase (env, call) ⟨true, .out data (env.ret data) :: events⟩ .opened
  | fails (opening : Opens phase (env, call)) (connect : IsConnect data)
      (heard : Received env.meanwhile events) (refuses : ¬ Takes env data) :
      Step phase (env, call) ⟨false, .out data (env.ret data) :: events⟩ .closed
  | unformed (opening : Opens phase c) : Step phase c ⟨false, []⟩ .closed
  | sends (other : ¬ Opens .opened (env, call)) (belongs : BelongsToSession data)
      (heard : Received env.meanwhile events) :
      Step .opened (env, call) ⟨Takes env data, .out data (env.ret data) :: events⟩
        (env.meanwhile.foldl hears .opened)
  | receives (asks : call.asks env = some (.parseInputStream (some (some p))))
      (heard : Received p.data.toList events) :
      Step phase (env, call) ⟨ret, events⟩ (p.data.toList.foldl hears phase)
  | idle (other : ¬ Opens phase c) (still : ¬ Resets c) (succeeds : ret = true → phase = .opened) :
      Step phase c ⟨ret, []⟩ phase

/-- A request that succeeds opens a session or finds one open. -/
theorem Step.request {c : Env × ApiCall} {action : MQTTAction} (h : Step phase c a phase')
    (asks : c.2.asks c.1 = some action) (request : action.isRequest = true) (ok : a.ret = true) :
    phase = .opened ∨ phase' = .opened ∧ a.events.any Event.sendsConnect = true := by
  cases h with
  | resets resetting =>
    cases resetting
    cases asks
    cases request
  | @opens _ env _ data events opening connect heard takes =>
    refine .inr ⟨rfl, ?_⟩
    have small := connect.length_lt
    have sends : (Event.out data (env.ret data)).sendsConnect = true :=
      decide_eq_true ⟨connect, by rw [takes, int32_of_lt (by omega)]⟩
    rw [List.any_cons, sends, Bool.true_or]
  | fails | unformed => cases ok
  | sends => exact .inl rfl
  | receives asks' =>
    cases asks.symm.trans asks'
    cases request
  | idle other still succeeds => exact .inl (succeeds ok)

theorem foldl_hears (inputs : List Mem) (state : MQTTState) :
    inputs.foldl hears (ofState state) = ofState (inputs.foldl stateAfter state) := by
  induction inputs generalizing state with
  | nil => rfl
  | cons input inputs ih =>
    have one : hears (ofState state) input = ofState (stateAfter state input) := by
      rw [stateAfter]
      cases state <;> simp only [hears, ofState] <;> cases connackCode input with
      | none => rfl
      | some code =>
        by_cases accepts : code = 0 <;> simp [accepts]
    rw [List.foldl_cons, List.foldl_cons, one, ih]

theorem foldl_hears_unset (inputs : List Mem) : inputs.foldl hears .unset = .unset := by
  induction inputs with
  | nil => rfl
  | cons input inputs ih => exact ih

theorem of_eq_opened {s : MQTTSharedData} (h : s.state = .connected) : of (some s) = .opened := by
  rw [of, Option.elim_some, h]
  rfl

end Phase

theorem FormsConnect.length_lt {env : Env} {s : MQTTSharedData} {connectPtr : Ptr MQTTConnect}
    (h : FormsConnect env s connectPtr data) : data.length < 65536 := by
  obtain ⟨buffer, c, p, st, -, -, fill, rfl⟩ := h
  rw [mqttConnectFill_data fill, List.length_take]
  exact Nat.lt_of_le_of_lt (Nat.min_le_left _ _) (Nat.mod_lt _ (by decide))

def AsksUncut (env : Env) (call : ApiCall) : Prop :=
  ∀ action ∈ call.asks env, ∀ c ∈ action.connectParameters, c.Uncut

instance (env : Env) (call : ApiCall) : Decidable (AsksUncut env call) :=
  inferInstanceAs (Decidable (∀ action ∈ call.asks env, ∀ c ∈ action.connectParameters, c.Uncut))

section Steps

variable {env : Env} {call : ApiCall}

theorem phase_connect {s : MQTTSharedData} {connectPtr : Ptr MQTTConnect} {phase : Phase}
    (idle : s.state = .disconnected) (opens : Phase.Opens phase (env, call))
    (uncut : ∀ c ∈ connectPtr, c.Uncut)
    (run : actionConnect env (some connectPtr) (some s) = .ok (o, g'))
    (events : a.events = o.events) (ret : a.ret = true ↔ o.status = .successfull) :
    Phase.Step phase (env, call) a (.of g') := by
  obtain ⟨told, happened⟩ := a
  dsimp only at events ret
  subst events
  obtain ⟨buffer, -, ⟨-, rfl, rfl⟩ | ⟨data, events, forms, -, received, -, eq, result⟩⟩ :=
    actionConnect_spec idle run
  · have fails : told = false := by
      rw [← Bool.not_eq_true, ret]
      decide
    rw [fails]
    exact .unformed opens
  · have length := forms.length_lt
    have connect : IsConnect data := by
      obtain ⟨_, c, _, _, _, rfl, _⟩ := id forms
      exact forms.isConnect_iff.mpr (uncut c rfl)
    rw [eq]
    rcases result with ⟨not, fail, rfl⟩ | ⟨c, rfl, all, ok, rfl⟩
    · have fails : told = false := by
        rw [← Bool.not_eq_true, ret, fail]
        decide
      rw [fails]
      refine .fails opens connect received fun takes => not ?_
      rw [takes, int32_of_lt (by omega)]
    · rw [ret.mpr ok]
      refine .opens opens connect received ?_
      rw [Phase.Takes, all, int32_of_lt (by omega)]

theorem Phase.Opens.asks {phase : Phase} (h : Phase.Opens phase (env, call)) :
    ∃ connectPtr, call.asks env = some (.connect (some connectPtr)) := by
  cases h with
  | connect checked => exact ⟨_, by rw [ApiCall.asks, checked]; rfl⟩
  | action connectPtr => exact ⟨connectPtr, rfl⟩

theorem Phase.Resets.asks (h : Phase.Resets (env, call)) :
    ∃ p, call.asks env = some (.init p) := by
  cases h with
  | init shared => exact ⟨_, rfl⟩

structure Ordinary (env : Env) (call : ApiCall) : Prop where
  connect : ∀ p, call.asks env ≠ some (.connect p)
  init : ∀ p, call.asks env ≠ some (.init p)

theorem Ordinary.notOpens {phase : Phase} (h : Ordinary env call) : ¬ Phase.Opens phase (env, call) := by
  intro opens
  obtain ⟨p, asks⟩ := opens.asks
  exact h.connect _ asks

theorem Ordinary.notResets (h : Ordinary env call) : ¬ Phase.Resets (env, call) := by
  intro resets
  obtain ⟨p, asks⟩ := resets.asks
  exact h.init p asks

theorem phase_idle {g g₁ : Ptr MQTTSharedData} (ordinary : Ordinary env call) (events : a.events = [])
    (same : Phase.of g₁ = Phase.of g) (succeeds : a.ret = true → Phase.of g = .opened) :
    Phase.Step (.of g) (env, call) a (.of g₁) := by
  obtain ⟨told, happened⟩ := a
  dsimp only at events
  subst events
  rw [same]
  exact .idle ordinary.notOpens ordinary.notResets succeeds

theorem phase_sends {s s' : MQTTSharedData} {sentOk : MQTTSharedData → MQTTSharedData}
    (ordinary : Ordinary env call) (connected : s.state = .connected) (sends : Sends env s data sentOk o s')
    (keep : ∀ s, (sentOk s).state = s.state) (belongs : BelongsToSession data)
    (happened : a.events = o.events) (reported : a.ret = true ↔ o.status = .successfull) :
    Phase.Step (.of (some s)) (env, call) a (.of (some s')) := by
  obtain ⟨told, events⟩ := a
  dsimp only at happened reported
  obtain ⟨inputs, received, eq⟩ := sends.events_eq
  have ret : told = decide (Phase.Takes env data) := by
    rw [Bool.eq_iff_iff, reported, sends.status_iff, decide_eq_true_iff]
    rfl
  have after : Phase.of (some s') = env.meanwhile.foldl Phase.hears .opened := by
    have state := sends.field_eq (f := (·.state)) keep
    rw [Phase.of, Option.elim_some, state, MQTTSharedData.received, connected]
    exact (Phase.foldl_hears env.meanwhile .connected).symm
  rw [Phase.of_eq_opened connected, after, happened, eq, ret]
  exact .sends ordinary.notOpens belongs received

theorem phase_encoder {s : MQTTSharedData} {sentOk : MQTTSharedData → MQTTSharedData}
    (ordinary : Ordinary env call) (step : EncoderStep env s sentOk o g')
    (keep : ∀ s, (sentOk s).state = s.state)
    (belongs : ∀ data ret, .out data ret ∈ o.events → BelongsToSession data)
    (happened : a.events = o.events) (reported : a.ret = true ↔ o.status = .successfull) :
    Phase.Step (.of (some s)) (env, call) a (.of g') := by
  obtain ⟨cntr, buffer, ⟨rfl, rfl⟩ | ⟨connected, data, s', rfl, sends⟩⟩ := step
  · refine phase_idle ordinary happened rfl fun ok => ?_
    exact absurd (reported.mp ok) (by decide)
  · obtain ⟨inputs, received, eq⟩ := sends.events_eq
    have belongs := belongs data (env.ret data) (by rw [eq]; exact List.mem_cons_self)
    exact phase_sends (s := s.encoded cntr buffer) ordinary connected sends keep belongs happened reported

theorem keepalive_closed {actionPtr : Ptr UInt32} {s : MQTTSharedData} (closed : s.state ≠ .connected)
    (h : actionKeepalive env actionPtr (some s) = .ok (o, g')) : o.status = .invalidArgument := by
  cases actionPtr with
  | none =>
    cases h
    rfl
  | some elapsed =>
    simp only [actionKeepalive, Ptr.deref_some, ok_bind, if_neg closed] at h
    cases h
    rfl

theorem keepalive_sent {actionPtr : Ptr UInt32} {s : MQTTSharedData} (sent : o.events ≠ [])
    (h : actionKeepalive env actionPtr (some s) = .ok (o, g')) : o.status ≠ .pingNotSend := by
  cases actionPtr with
  | none =>
    cases h
    exact absurd rfl sent
  | some elapsed =>
    simp only [actionKeepalive, Ptr.deref_some, ok_bind] at h
    split at h
    case isFalse =>
      cases h
      exact absurd rfl sent
    case isTrue =>
      split at h
      case isFalse =>
        cases h
        exact absurd rfl sent
      case isTrue =>
        obtain ⟨t, left, h⟩ := bind_eq_ok h
        split at h
        case isFalse =>
          cases h
          exact absurd rfl sent
        case isTrue =>
          obtain ⟨r, out, h⟩ := bind_eq_ok h
          obtain ⟨s', found, h⟩ := bind_eq_ok h
          have unsent : (mqttPingReq (s.outCall env) env.stack).1 ≠ .pingNotSend := by
            cases s.outCall env with
            | none =>
              change MQTTErrorCodes.invalidArgument ≠ .pingNotSend
              decide
            | some ret =>
              simp only [mqttPingReq, sendFixedHeader]
              split <;> decide
          split at h <;>
          · cases h
            exact unsent

structure Tells (action : MQTTAction) (o : Outcome) (a : Answer) : Prop where
  succeeds : o.status = .successfull → a.ret = true
  returned : a.ret = true → o.status = .successfull ∨ o.status = .pingNotSend
  request : action.isRequest = true → a.ret = true → o.status = .successfull

theorem Tells.reported {action : MQTTAction} (h : Tells action o a)
    (request : action.isRequest = true) : a.ret = true ↔ o.status = .successfull :=
  ⟨h.request request, h.succeeds⟩

theorem Tells.not_ret {action : MQTTAction} (h : Tells action o a) (fails : o.status ≠ .successfull)
    (sent : o.status ≠ .pingNotSend) : a.ret ≠ true :=
  fun told => (h.returned told).elim fails sent

/-- The calls that end up in an action report its status: `mqtt_keepalive` also takes a ping
that is not due for a success. -/
theorem api_reported {action : MQTTAction} (h : api g (env, call) = .ok (a, g'))
    (asks : call.asks env = some action)
    (run : mqtt (call.finds env g) (env, action) = .ok (o, g₁)) : Tells action o a := by
  by_cases request : action.isRequest = true
  · have reports := api_ret h asks request run
    exact ⟨reports.mpr, fun told => .inl (reports.mp told), fun _ => reports.mp⟩
  · cases call with
    | action action' =>
      cases asks
      obtain ⟨⟨o', g₂⟩, run', h⟩ := bind_eq_ok h
      obtain ⟨rfl, rfl⟩ := Prod.mk.inj (Except.ok.inj (run'.symm.trans run))
      cases h
      exact ⟨decide_eq_true, fun told => .inl (of_decide_eq_true told), fun _ => of_decide_eq_true⟩
    | keepalive durationInMs =>
      cases asks
      obtain ⟨⟨o', g₂⟩, run', h⟩ := bind_eq_ok h
      obtain ⟨rfl, rfl⟩ := Prod.mk.inj (Except.ok.inj (run'.symm.trans run))
      cases h
      exact ⟨fun ok => decide_eq_true (.inl ok), of_decide_eq_true, fun is => absurd is request⟩
    | receive data amount =>
      obtain ⟨data, rfl, rfl⟩ := Option.map_eq_some_iff.mp asks
      obtain ⟨⟨o', g₂⟩, run', h⟩ := bind_eq_ok h
      obtain ⟨rfl, rfl⟩ := Prod.mk.inj (Except.ok.inj (run'.symm.trans run))
      cases h
      exact ⟨decide_eq_true, fun told => .inl (of_decide_eq_true told), fun _ => of_decide_eq_true⟩
    | disconnect =>
      cases asks
      exact absurd rfl request
    | connect args =>
      obtain ⟨_, _, rfl⟩ := Option.map_eq_some_iff.mp asks
      exact absurd rfl request
    | publish | publishBuf | subscribe =>
      obtain ⟨-, same⟩ := Option.ite_none_right_eq_some.mp asks
      cases same
      exact absurd rfl request

theorem phase_keepalive {actionPtr : Ptr UInt32} {s : MQTTSharedData} (ordinary : Ordinary env call)
    (run : actionKeepalive env actionPtr (some s) = .ok (o, g')) (happened : a.events = o.events)
    (tells : Tells (.keepalive actionPtr) o a) :
    Phase.Step (.of (some s)) (env, call) a (.of g') := by
  rcases actionKeepalive_cases run with ⟨silent, rfl, _⟩ | ⟨elapsed, t, rfl, connected, _, _, result⟩
  · refine phase_idle ordinary (happened.trans silent) rfl fun told => ?_
    by_cases connected : s.state = .connected
    · exact Phase.of_eq_opened connected
    · have fails := keepalive_closed connected run
      exact absurd told (tells.not_ret (by rw [fails]; decide) (by rw [fails]; decide))
  · rcases result with ⟨silent, rfl, _⟩ | ⟨_, _, s', rfl, sends⟩
    · exact phase_idle ordinary (happened.trans silent) rfl fun _ => Phase.of_eq_opened connected
    · obtain ⟨inputs, _, eq⟩ := sends.events_eq
      have sent := keepalive_sent (by simp [eq]) run
      exact phase_sends (s := { s with timeToNextPingInMs := t }) ordinary connected sends
        (fun _ => rfl) (belongsToSession_header (.inl rfl)) happened
        ⟨fun told => (tells.returned told).resolve_right sent, tells.succeeds⟩

theorem phase_parse {actionPtr : Ptr (Ptr MQTTInputStream)}
    (asks : call.asks env = some (.parseInputStream actionPtr))
    (run : actionParseInputStream actionPtr g = .ok (o, g')) (happened : a.events = o.events) :
    Phase.Step (.of g) (env, call) a (.of g') := by
  obtain ⟨told, events⟩ := a
  dsimp only at happened
  subst happened
  cases g with
  | some s =>
    obtain ⟨p, rfl, heard, rfl⟩ := actionParseInputStream_cases run
    have after := Phase.foldl_hears p.data.toList s.state
    have step : Phase.Step (.of (some s)) (env, call) ⟨told, _⟩ _ := .receives asks heard
    rwa [Phase.of, Option.elim_some, after] at step
  | none =>
    rcases actionPtr with _ | _ | ⟨data, n⟩
    · cases run
    · cases run
    · rw [actionParseInputStream, Ptr.deref_some, ok_bind, Ptr.deref_some, ok_bind] at run
      obtain ⟨r, parsed, run⟩ := bind_eq_ok run
      obtain ⟨shared, events⟩ := mqttParseInputStream_uninitialised parsed
      rw [shared, events] at run
      cases run
      have heard : Received data.toList (data.elim [] (fun data => [.parsed data]) ++ []) := by
        cases data with
        | none => exact .nil
        | some input => exact Received.cons (by simp) .nil
      have step : Phase.Step (.of none) (env, call) ⟨told, _⟩ _ := .receives asks heard
      rwa [Phase.of, Option.elim_none, Phase.foldl_hears_unset] at step

theorem phase_ordinary {action : MQTTAction} (ordinary : Ordinary env call)
    (asks : call.asks env = some action) (run : mqtt g (env, action) = .ok (o, g'))
    (happened : a.events = o.events) (tells : Tells action o a) :
    Phase.Step (.of g) (env, call) a (.of g') := by
  have nothing (events : o.events = []) (same : g' = g) (fails : o.status ≠ .successfull)
      (sent : o.status ≠ .pingNotSend) : Phase.Step (.of g) (env, call) a (.of g') := by
    rw [same]
    exact phase_idle ordinary (happened.trans events) rfl fun told =>
      absurd told (tells.not_ret fails sent)
  cases action with
  | connect p => exact absurd asks (ordinary.connect p)
  | init p => exact absurd asks (ordinary.init p)
  | parseInputStream actionPtr => exact phase_parse asks run happened
  | other =>
    cases run
    exact nothing rfl rfl (by decide) (by decide)
  | keepalive actionPtr =>
    cases g with
    | some s => exact phase_keepalive ordinary run happened tells
    | none =>
      cases actionPtr with
      | none =>
        cases run
        exact nothing rfl rfl (by decide) (by decide)
      | some elapsed => cases run
  | disconnect =>
    cases g with
    | none =>
      cases run
      exact nothing rfl rfl (by decide) (by decide)
    | some s =>
      have reported := tells.reported rfl
      rcases actionDisconnect_cases run with ⟨_, fails, silent, rfl⟩ | ⟨open', _, s', rfl, sends⟩
      · refine phase_idle ordinary (happened.trans silent) rfl fun told => ?_
        exact absurd (reported.mp told) fails
      · have connected : s.state = .connected := by
          cases state : s.state with
          | disconnected => exact absurd state open'
          | connected => rfl
        exact phase_sends ordinary connected sends (fun _ => rfl) (belongsToSession_header (.inr rfl))
          happened reported
  | publish actionPtr =>
    cases g with
    | none =>
      cases run
      exact nothing rfl rfl (by decide) (by decide)
    | some s =>
      exact phase_encoder ordinary (actionPublish_cases run) (fun _ => rfl)
        (fun data ret => mqtt_belongsToSession run (by simp)) happened (tells.reported rfl)
  | subscribe actionPtr =>
    cases g with
    | none =>
      cases run
      exact nothing rfl rfl (by decide) (by decide)
    | some s =>
      exact phase_encoder ordinary (actionSubscribe_cases run) (fun _ => rfl)
        (fun data ret => mqtt_belongsToSession run (by simp)) happened (tells.reported rfl)

theorem ret_of_no_action (h : api g (env, call) = .ok (a, g')) (asks : call.asks env = none)
    (told : a.ret = true) : Phase.of g = .opened := by
  cases call with
  | action action => cases asks
  | disconnect => cases asks
  | keepalive durationInMs => cases asks
  | connect args =>
    rcases connectCall_cases h with ⟨_, s, rfl, rfl, rfl⟩ | ⟨c, shared, _, checked, _⟩
    · exact Phase.of_eq_opened (of_decide_eq_true told)
    · rw [ApiCall.asks, checked] at asks
      cases asks
  | publish | publishBuf =>
    rw [ApiCall.asks, ite_eq_right_iff] at asks
    simp only [api, mqttPublish, mqttPublishBuf] at h
    split at h
    case isTrue valid => cases asks valid
    case isFalse =>
      cases h
      cases told
  | subscribe topic topicSize timeoutInSec =>
    rw [ApiCall.asks, ite_eq_right_iff] at asks
    simp only [api, mqttSubscribe] at h
    split at h
    case isTrue valid => cases asks valid.2
    case isFalse =>
      cases h
      cases told
  | receive data amount =>
    cases data with
    | some data => cases asks
    | none =>
      cases h
      cases told

theorem Phase.Opens.closed {phase : Phase} {actionPtr : Ptr (Ptr MQTTConnect)}
    (h : Phase.Opens phase (env, .action (.connect actionPtr))) : phase = .closed ∧ actionPtr ≠ none := by
  cases h with
  | action connectPtr => exact ⟨rfl, Option.some_ne_none connectPtr⟩

theorem phase_connectAction {actionPtr : Ptr (Ptr MQTTConnect)}
    (uncut : AsksUncut env (.action (.connect actionPtr)))
    (run : actionConnect env actionPtr g = .ok (o, g')) (happened : a.events = o.events)
    (reported : a.ret = true ↔ o.status = .successfull) :
    Phase.Step (.of g) (env, .action (.connect actionPtr)) a (.of g') := by
  have refused (silent : o.events = []) (same : g' = g) (fails : o.status ≠ .successfull)
      (other : ¬ Phase.Opens (.of g) (env, .action (.connect actionPtr))) :
      Phase.Step (.of g) (env, .action (.connect actionPtr)) a (.of g') := by
    obtain ⟨told, events⟩ := a
    dsimp only at happened reported
    rw [happened, silent, same]
    refine .idle other (fun resets => ?_) fun ok => absurd (reported.mp ok) fails
    obtain ⟨p, asks⟩ := resets.asks
    cases asks
  cases g with
  | none =>
    cases run
    exact refused rfl rfl (by decide) fun opens => by cases opens.closed.1
  | some s =>
    cases actionPtr with
    | none =>
      cases run
      exact refused rfl rfl (by decide) fun opens => opens.closed.2 rfl
    | some connectPtr =>
      by_cases idle : s.state = .disconnected
      · have closed : Phase.of (some s) = .closed := by
          rw [Phase.of, Option.elim_some, idle]
          rfl
        rw [closed]
        exact phase_connect idle (.action connectPtr) (uncut _ rfl) run happened reported
      · rw [actionConnect, if_neg idle] at run
        cases run
        refine refused rfl rfl (by decide) fun opens => ?_
        have closed := opens.closed.1
        cases state : s.state with
        | disconnected => exact idle state
        | connected =>
          rw [Phase.of_eq_opened state] at closed
          cases closed

theorem api_phase (h : api g (env, call) = .ok (a, g')) (uncut : AsksUncut env call) :
    Phase.Step (.of g) (env, call) a (.of g') := by
  rcases api_acts h with ⟨asks, silent, rfl⟩ | ⟨action, asks, o, g₁, run, happened, left⟩
  · have ordinary : Ordinary env call := ⟨by simp [asks], by simp [asks]⟩
    exact phase_idle ordinary silent rfl (ret_of_no_action h asks)
  have same : Phase.of g' = Phase.of g₁ := by
    rcases left with rfl | rfl
    · rfl
    · cases g₁ <;> rfl
  have tells := api_reported h asks run
  rw [same]
  cases call with
  | connect args =>
    obtain ⟨⟨c, shared⟩, checked, rfl⟩ := Option.map_eq_some_iff.mp asks
    simp only [ApiCall.finds, checked, Option.map_some] at run
    exact phase_connect (s := shared.initialised) rfl (.connect checked) (uncut _ asks) run happened
      (tells.reported rfl)
  | action action' =>
    cases asks
    cases action with
    | connect actionPtr => exact phase_connectAction uncut run happened (tells.reported rfl)
    | init actionPtr =>
      rcases actionPtr with _ | _ | shared
      · cases run
        cases h
        refine .idle (fun opens => ?_) (fun resets => ?_) fun told => ?_
        · obtain ⟨_, asks⟩ := opens.asks
          cases asks
        · cases resets
        · cases told
      · cases run
      · cases h
        cases run
        exact .resets (.init shared)
    | _ =>
      exact phase_ordinary ⟨by simp [ApiCall.asks], by simp [ApiCall.asks]⟩ rfl run happened tells
  | _ =>
    exact phase_ordinary ⟨by simp [ApiCall.asks], by simp [ApiCall.asks]⟩ asks run happened tells

end Steps

/-- Refinement: every run of the client in which no size cuts a CONNECT, whatever is
received and sent, is a run of the session.  So what happens at the boundary tells where
the session stands. -/
theorem run_phases {calls : List (Env × ApiCall)} {answers : List Answer} {g g' : Ptr MQTTSharedData}
    (run : Machine.Runs api g calls answers g') (uncut : ∀ c ∈ calls, AsksUncut c.1 c.2) :
    Machine.Trace Phase.Step (.of g) calls answers (.of g') :=
  run.trace fun _ c mem _ _ step => api_phase step (uncut c mem)

theorem run_phases_sample : ∃ answers g', Machine.Runs api none
      [(.prompt, .connect .sample), (.prompt, .disconnect), (.prompt, .keepalive 0),
        (.prompt, .receive (some (ofList [0x20, 2, 0, 5] 0)) 4), (.prompt, .keepalive 0)] answers g' ∧
    answers.map (·.ret) = [true, true, true, true, false] ∧
    Machine.Trace Phase.Step .unset
      [(.prompt, .connect .sample), (.prompt, .disconnect), (.prompt, .keepalive 0),
        (.prompt, .receive (some (ofList [0x20, 2, 0, 5] 0)) 4), (.prompt, .keepalive 0)]
      answers .closed := by
  obtain ⟨⟨answers, g'⟩, run, told⟩ := exists_of_any (x := Machine.run api none
    [(.prompt, .connect .sample), (.prompt, .disconnect), (.prompt, .keepalive 0),
      (.prompt, .receive (some (ofList [0x20, 2, 0, 5] 0)) 4), (.prompt, .keepalive 0)])
    (p := fun r => r.1.map (·.ret) = [true, true, true, true, false] ∧ Phase.of r.2 = .closed)
    (by decide +kernel)
  obtain ⟨told, closed⟩ := of_decide_eq_true told
  have trace := run_phases (.of_run run) (by decide +kernel)
  rw [closed] at trace
  exact ⟨answers, g', .of_run run, told, trace⟩

end RojalMQTT
