import RojalMQTT.HandoverLaws
import RojalMQTT.DecoderLaws

/-! When the tasks stand still. -/

namespace RojalMQTT

open Library

namespace SeparateTasks

section Enabled

variable {env : Env} {call : ApiCall}

def Enabled (g : Ptr MQTTSharedData) : Prop :=
  ∀ s ∈ g, 0 ≤ s.keepaliveInMs ∧ s.keepaliveInMs ≤ 59500

theorem Enabled.ne {s : MQTTSharedData} (h : Enabled g) (shared : g = some s) :
    s.keepaliveInMs ≠ int32Min := by
  intro disabled
  have enabled := h s shared
  rw [disabled, int32Min] at enabled
  omega

theorem connectCall_enabled {args : ConnectArguments} {c : MQTTConnect} {shared : MQTTSharedData}
    (h : mqttConnect env args g = .ok (a, g')) (checked : args.checked env = some (c, shared))
    (keepalive : c.keepalive = 60) : Enabled g' := by
  obtain ⟨o, s', connect, rfl, rfl⟩ := connectCall_run h checked
  rintro _ ⟨⟩
  obtain ⟨buffer, -, ⟨-, rfl, left⟩ | ⟨_, _, _, _, _, _, _, ⟨_, _, left⟩ | ⟨c', same, _, _, left⟩⟩⟩ :=
    actionConnect_spec rfl connect
  · obtain rfl := Option.some.inj left
    change (0 : Int) ≤ 0 ∧ (0 : Int) ≤ 59500
    decide
  · obtain rfl := Option.some.inj left
    change (0 : Int) ≤ 0 ∧ (0 : Int) ≤ 59500
    decide
  · obtain rfl := Option.some.inj left
    obtain rfl := Option.some.inj same
    change 0 ≤ connectedKeepalive c.keepalive ∧ connectedKeepalive c.keepalive ≤ 59500
    rw [keepalive]
    decide

theorem checked_keepalive {args : ConnectArguments} {c : MQTTConnect} {shared : MQTTSharedData}
    (checked : args.checked env = some (c, shared)) : c.keepalive = args.keepaliveTimeout := by
  simp only [ConnectArguments.checked, Option.bind_eq_bind, Option.bind_eq_some_iff] at checked
  obtain ⟨_, _, _, _, _, _, _, _, _, _, _, _, _, _, same⟩ := checked
  cases same
  rfl

theorem asks_connect {p : Ptr (Ptr MQTTConnect)} (fits : call.Fits)
    (asks : call.asks env = some (.connect p)) : ∃ args, call = .connect args := by
  cases call with
  | action action => exact absurd fits id
  | connect args => exact ⟨args, rfl⟩
  | disconnect => cases asks
  | keepalive durationInMs => cases asks
  | receive data amount =>
    obtain ⟨_, -, same⟩ := Option.map_eq_some_iff.mp asks
    cases same
  | publish | publishBuf | subscribe =>
    obtain ⟨-, same⟩ := Option.ite_none_right_eq_some.mp asks
    cases same

theorem api_enabled (fits : call.Fits) (keepalive : KeepsAlive call)
    (h : api g (env, call) = .ok (a, g')) (enabled : Enabled g) : Enabled g' := by
  rcases api_acts h with ⟨_, _, rfl⟩ | ⟨action, asks, o, g₁, run, _, left⟩
  · exact enabled
  by_cases connects : ∃ args, call = .connect args
  · obtain ⟨args, rfl⟩ := connects
    obtain ⟨r, checked, rfl⟩ := Option.map_eq_some_iff.mp asks
    exact connectCall_enabled h checked ((checked_keepalive checked).trans keepalive)
  · have found : call.finds env g = g := by
      cases call with
      | connect args => exact absurd ⟨args, rfl⟩ connects
      | _ => rfl
    have notInit := (fits_asks fits asks).1
    have notConnect : ∀ p, action ≠ .connect p := by
      rintro p rfl
      exact connects (asks_connect fits asks)
    rw [found] at run
    have kept : Enabled g₁ := by
      cases g with
      | none =>
        rcases mqtt_none run with rfl | ⟨p, _, init, _⟩
        · exact enabled
        · exact absurd init (notInit p)
      | some s =>
        obtain ⟨s₁, rfl⟩ := mqtt_some run
        rintro _ ⟨⟩
        have same : s₁.keepaliveInMs = s.keepaliveInMs :=
          congrArg Prod.snd (mqtt_settings run (fun p => notInit (some p)) notConnect)
        rw [same]
        exact enabled s rfl
    rcases left with rfl | rfl
    · exact kept
    · intro s' hs'
      obtain ⟨s₁, rfl, rfl⟩ := Option.map_eq_some_iff.mp hs'
      exact kept s₁ rfl

end Enabled

section Moves

variable {d d' : Demo} {o : Oracle}

structure Runnable (d : Demo) : Prop where
  prepared : Prepared d
  enabled : Enabled d.shared

theorem Simulates.runnable {tasks : List Task} {happened : List Happening}
    {calls : List (Env × ApiCall)} {answers : List Answer}
    (h : Simulates tasks d happened d' calls answers) (before : Runnable d) :
    Runnable d' := by
  refine ⟨h.prepared before.prepared, ?_⟩
  obtain ⟨runs, made, -⟩ := h
  have enabled := before.enabled
  clear before
  generalize d.shared = g, d'.shared = g' at runs enabled
  induction runs with
  | nil => exact enabled
  | cons one rest ih =>
    obtain ⟨task, -, first⟩ := made _ List.mem_cons_self
    exact ih (fun c mem => made c (List.mem_cons_of_mem _ mem))
      (api_enabled first.fits first.keepalive one enabled)

theorem reachable_runnable (reachable : Machine.Reachable demo .start d) : Runnable d := by
  refine reachable.inv ⟨by simp [Prepared, Demo.start], by simp [Enabled, Demo.start]⟩ ?_
  intro d turn happened d' before step
  obtain ⟨calls, answers, simulates⟩ := demo_simulates step
  exact simulates.runnable before

theorem keepalive_quiet {s : MQTTSharedData} {env : Env} {elapsed : UInt32} (ready : Ready s)
    (enabled : s.keepaliveInMs ≠ int32Min) (small : elapsed.toNat < 2 ^ 31)
    (h : mqttKeepalive env elapsed (some s) = .ok (a, g')) (quiet : a.events = []) :
    (s.state ≠ .connected ∧ a.ret = false) ∨
      (s.state = .connected ∧ ∃ t, 0 < t ∧ t = s.timeToNextPingInMs - elapsed.toNat ∧
        g' = some { s with timeToNextPingInMs := t }) := by
  obtain ⟨⟨o, g₁⟩, run, h⟩ := bind_eq_ok h
  cases h
  have run : actionKeepalive env (some elapsed) (some s) = .ok (o, g') := run
  by_cases connected : s.state = .connected
  · refine .inr ⟨connected, ?_⟩
    rcases actionKeepalive_cases run with ⟨_, _, idle⟩ | ⟨_, t, same, _, _, left, result⟩
    · rcases idle with none | other | disabled
      · cases none
      · exact absurd connected other
      · exact absurd disabled enabled
    · cases same
      rcases result with ⟨_, rfl, ⟨pos, -⟩ | none⟩ | ⟨_, _, s', _, sends⟩
      · have left := timeLeft_eq left pos
        rw [int32_of_lt small] at left
        exact ⟨t, pos, left, rfl⟩
      · exact absurd none ready.out
      · obtain ⟨events, -, happened⟩ := sends.events_eq
        rw [happened] at quiet
        cases quiet
  · refine .inl ⟨connected, ?_⟩
    simp only [actionKeepalive, Ptr.deref_some, ok_bind, connected, if_false] at run
    cases run
    decide

/-- The connect task waits for the socket to become invalid, and all others wait for a
socket from it. -/
structure Stalled (d : Demo) : Prop where
  connect : d.connect = .online
  xSocket : d.xSocket ≠ none
  queue : d.xSocketPassingQueue = none
  receive : d.receive = .waiting
  alive : d.alive = .waiting
  publish : d.publish = .waiting

theorem Stalled.still (h : Stalled d) (turn : Task × Oracle) : demo d turn = .ok ([], d) := by
  obtain ⟨task, o⟩ := turn
  cases task with
  | connect => simp only [demo, prvConnectTask, h.connect, if_pos h.xSocket]
  | receive => simp only [demo, prvReceiveTask, h.receive, h.queue]
  | alive => simp only [demo, prvAliveTask, h.alive, h.queue]
  | publish => simp only [demo, prvPublishTask, h.publish, h.queue]

theorem receive_of_still (still : prvReceiveTask d .quiet = .ok ([], d)) :
    d.receive = .waiting ∧ d.xSocketPassingQueue = none := by
  rw [prvReceiveTask] at still
  split at still
  case h_1 waiting =>
    split at still
    case h_1 empty => exact ⟨waiting, empty⟩
    case h_2 => cases still
  case h_2 s looping =>
    split at still
    · have stays := congrArg (fun r => r.2.receive) (Except.ok.inj still)
      simp only [looping, reduceCtorEq] at stays
    · cases still
  case h_3 s reading =>
    have stays := congrArg (fun r => r.2.receive) (Except.ok.inj still)
    simp only [reading, reduceCtorEq] at stays

theorem alive_of_still (runnable : Runnable d) (still : prvAliveTask d .quiet = .ok ([], d)) :
    d.alive = .waiting := by
  cases at' : d.alive with
  | waiting => rfl
  | sleeping =>
    rw [prvAliveTask, at'] at still
    obtain ⟨⟨a, d₁⟩, run, still⟩ := bind_eq_ok still
    obtain ⟨call, -⟩ := call_spec run
    dsimp only at still
    split at still
    case isTrue goes =>
      obtain ⟨silent, rfl⟩ := Prod.mk.inj (Except.ok.inj still)
      have call : mqttKeepalive _ _ d₁.shared = .ok (a, d₁.shared) := call
      cases shared : d₁.shared with
      | none =>
        rw [shared] at call
        cases call
      | some s =>
        rw [shared] at call
        rcases keepalive_quiet (runnable.prepared s shared) (runnable.enabled.ne shared) (by decide) call
            (List.map_eq_nil_iff.mp silent) with ⟨_, fails⟩ | ⟨_, t, _, left, same⟩
        · rw [goes] at fails
          cases fails
        · have stays : s.timeToNextPingInMs = t := congrArg (·.timeToNextPingInMs) (Option.some.inj same)
          have positive : 0 < (gKeepAliveTime / 4 * 3).toNat := by decide
          omega
    case isFalse =>
      obtain ⟨silent, -⟩ := Prod.mk.inj (Except.ok.inj still)
      simp at silent

theorem publish_of_still (still : prvPublishTask d .quiet = .ok ([], d)) : d.publish = .waiting := by
  cases at' : d.publish with
  | waiting => rfl
  | sleeping =>
    rw [prvPublishTask, at'] at still
    obtain ⟨⟨a, d₁⟩, run, still⟩ := bind_eq_ok still
    obtain ⟨call, -⟩ := call_spec run
    dsimp only at still
    split at still
    case isTrue goes =>
      obtain ⟨silent, -⟩ := Prod.mk.inj (Except.ok.inj still)
      obtain ⟨_, events, -, happened⟩ := sends_of_publish call goes
      rw [happened] at silent
      cases silent
    case isFalse =>
      obtain ⟨silent, -⟩ := Prod.mk.inj (Except.ok.inj still)
      simp at silent

theorem connect_of_still (queue : d.xSocketPassingQueue = none)
    (still : prvConnectTask d .quiet = .ok ([], d)) : d.connect = .online ∧ d.xSocket ≠ none := by
  have moves {pc : ConnectPc} {d' : Demo} (at' : d.connect = pc) (away : d'.connect ≠ pc)
      (h : (.ok ([], d') : Stepped) = .ok ([], d)) : d.connect = .online ∧ d.xSocket ≠ none := by
    obtain ⟨-, rfl⟩ := Prod.mk.inj (Except.ok.inj h)
    exact absurd at' away
  rw [prvConnectTask] at still
  split at still
  case h_1 at' => exact moves at' (by simp) still
  case h_2 => cases still
  case h_3 at' => split at still <;> exact moves at' (by simp) still
  case h_4 at' =>
    rw [queue] at still
    cases still
  case h_5 =>
    obtain ⟨⟨a, d₁⟩, run, still⟩ := bind_eq_ok still
    cases still
  case h_6 at' =>
    obtain ⟨⟨a, d₁⟩, run, still⟩ := bind_eq_ok still
    have stays := congrArg (fun r => r.2.connect) (Except.ok.inj still)
    simp only [at', reduceCtorEq] at stays
  case h_7 at' =>
    split at still
    case isTrue valid => exact ⟨at', valid⟩
    case isFalse => exact moves at' (by simp) still
  case h_8 at' => exact moves at' (by simp) still
  case h_9 => cases still

end Moves

/-- The tasks stand still for good exactly where they are stalled: the socket is valid, but
nobody uses it. -/
theorem stalled_iff {d : Demo} (reachable : Machine.Reachable demo .start d) :
    (∀ turns, ∃ happened, Machine.Runs demo d turns happened d ∧ happened.flatten = []) ↔
      Stalled d := by
  constructor
  · intro still
    have stays (task : Task) : demo d (task, .quiet) = .ok ([], d) := by
      obtain ⟨happened, run, silent⟩ := still [(task, .quiet)]
      obtain _ | ⟨one, rest⟩ := run
      obtain _ | _ := rest
      rw [List.flatten_singleton] at silent
      rwa [silent] at one
    obtain ⟨receive, queue⟩ := receive_of_still (stays .receive)
    obtain ⟨connect, xSocket⟩ := connect_of_still queue (stays .connect)
    exact ⟨connect, xSocket, queue, receive,
      alive_of_still (reachable_runnable reachable) (stays .alive), publish_of_still (stays .publish)⟩
  · intro stalled turns
    induction turns with
    | nil => exact ⟨[], .nil, rfl⟩
    | cons turn turns ih =>
      obtain ⟨happened, run, silent⟩ := ih
      exact ⟨[] :: happened, .cons (stalled.still turn) run, silent⟩

def refusedTurns : List (Task × Oracle) :=
  [.receive, .receive, .publish, .alive, .receive].map fun task => (task, .connack 5)

theorem stalled_iff_sample : ∃ happened d,
    Machine.Runs demo .start (openingTurns ++ refusedTurns) happened d ∧ Stalled d ∧
    ((∀ turns, ∃ happened, Machine.Runs demo d turns happened d ∧ happened.flatten = []) ↔
      Stalled d) := by
  obtain ⟨⟨happened, d⟩, run, passes⟩ := exists_of_any
    (x := Machine.run demo .start (openingTurns ++ refusedTurns))
    (p := fun r => r.2.connect = .online ∧ r.2.xSocket ≠ none ∧ r.2.xSocketPassingQueue = none ∧
      r.2.receive = .waiting ∧ r.2.alive = .waiting ∧ r.2.publish = .waiting) (by decide +kernel)
  obtain ⟨connect, xSocket, queue, receive, alive, publish⟩ := of_decide_eq_true passes
  have run := Machine.Runs.of_run run
  exact ⟨happened, d, run, ⟨connect, xSocket, queue, receive, alive, publish⟩,
    stalled_iff (run.reachable .start)⟩

section Online

variable {d d' : Demo} {o : Oracle}

def Oracle.Reads (o : Oracle) : Prop := o.read ≠ .failed

structure Online (d : Demo) : Prop where
  connect : d.connect = .online
  xSocket : d.xSocket ≠ none

theorem call_xSocket {call : ApiCall} (h : d.call o call = .ok (a, d')) (valid : d.xSocket ≠ none)
    (kept : a.events.any isOut = false ∨ o.sendFails = false) : d'.xSocket = d.xSocket := by
  obtain ⟨⟨a', g⟩, run, h⟩ := bind_eq_ok h
  simp only at h
  split at h
  case isTrue lost =>
    cases h
    obtain ⟨out, fails⟩ := lost
    rcases kept with silent | sends
    · rw [silent] at out
      cases out
    · rcases fails with fails | invalid
      · rw [sends] at fails
        cases fails
      · exact absurd invalid valid
  case isFalse =>
    cases h
    rfl

theorem received_xSocket {data : Mem} {amount : Nat} (valid : d.xSocket ≠ none)
    (sends : o.sendFails = false) (h : d.received o data amount = .ok (happened, d')) :
    d'.xSocket = d.xSocket := by
  obtain ⟨⟨a, d₁⟩, parsed, h⟩ := bind_eq_ok h
  have first := call_xSocket parsed valid (.inr sends)
  simp only at h
  split at h
  · obtain ⟨⟨b, d₂⟩, subscribed, h⟩ := bind_eq_ok h
    cases h
    exact (call_xSocket subscribed (first ▸ valid) (.inr sends)).trans first
  · cases h
    exact first

theorem demo_xSocket {turn : Task × Oracle} (online : Online d) (sends : turn.2.sendFails = false)
    (reads : turn.2.Reads) (h : demo d turn = .ok (happened, d')) : d'.xSocket = d.xSocket := by
  obtain ⟨task, o⟩ := turn
  cases task with
  | connect =>
    simp only [demo, prvConnectTask, online.connect, if_pos online.xSocket] at h
    cases h
    rfl
  | receive =>
    simp only [demo, prvReceiveTask] at h
    split at h
    case h_1 | h_2 =>
      split at h <;>
      · cases h
        rfl
    case h_3 =>
      split at h
      case h_1 failed => exact absurd failed reads
      case h_2 =>
        cases h
        rfl
      case h_3 =>
        obtain ⟨⟨happened, d₁⟩, run, h⟩ := bind_eq_ok h
        have kept := received_xSocket online.xSocket sends run
        cases h
        exact kept
  | alive =>
    simp only [demo, prvAliveTask] at h
    split at h
    case h_1 =>
      split at h <;>
      · cases h
        rfl
    case h_2 =>
      obtain ⟨⟨a, d₁⟩, run, h⟩ := bind_eq_ok h
      have kept := call_xSocket run online.xSocket (.inr sends)
      simp only at h
      split at h <;>
      · cases h
        exact kept
  | publish =>
    simp only [demo, prvPublishTask] at h
    split at h
    case h_1 =>
      split at h <;>
      · cases h
        rfl
    case h_2 =>
      obtain ⟨⟨a, d₁⟩, run, h⟩ := bind_eq_ok h
      have kept := call_xSocket run online.xSocket (.inr sends)
      simp only at h
      split at h <;>
      · cases h
        exact kept

theorem demo_online {turn : Task × Oracle} (online : Online d)
    (h : demo d turn = .ok (happened, d')) : d'.connect = .online ∧ .opens ∉ happened ∧
      ∀ n, .created n ∉ happened := by
  obtain ⟨task, o⟩ := turn
  cases task with
  | connect =>
    simp only [demo, prvConnectTask, online.connect, if_pos online.xSocket] at h
    cases h
    exact ⟨online.connect, by simp, by simp⟩
  | receive =>
    have uses := prvReceiveTask_uses h
    exact ⟨uses.connect.trans online.connect, uses.opens, uses.created⟩
  | alive =>
    have uses := prvAliveTask_uses h
    exact ⟨uses.connect.trans online.connect, uses.opens, uses.created⟩
  | publish =>
    have uses := prvPublishTask_uses h
    exact ⟨uses.connect.trans online.connect, uses.opens, uses.created⟩

end Online

/-- However often a call of the client fails, the tasks do not connect again as long as no
send and no read of the socket reports an error. -/
theorem online_lasts {turns : List (Task × Oracle)} {happened : List (List Happening)} {d d' : Demo}
    (online : Online d) (sends : ∀ turn ∈ turns, turn.2.sendFails = false)
    (reads : ∀ turn ∈ turns, turn.2.Reads) (run : Machine.Runs demo d turns happened d') :
    Online d' ∧ d'.xSocket = d.xSocket ∧ .opens ∉ happened.flatten ∧
      ∀ n, .created n ∉ happened.flatten := by
  induction run with
  | nil => exact ⟨online, rfl, by simp, by simp⟩
  | cons one rest ih =>
    have valid := demo_xSocket online (sends _ List.mem_cons_self) (reads _ List.mem_cons_self) one
    obtain ⟨connect, opens, created⟩ := demo_online online one
    obtain ⟨last, same, laterOpens, laterCreated⟩ := ih ⟨connect, valid ▸ online.xSocket⟩
      (fun turn mem => sends turn (List.mem_cons_of_mem _ mem))
      fun turn mem => reads turn (List.mem_cons_of_mem _ mem)
    refine ⟨last, same.trans valid, ?_, fun n => ?_⟩
    · rw [List.flatten_cons, List.mem_append, not_or]
      exact ⟨opens, laterOpens⟩
    · rw [List.flatten_cons, List.mem_append, not_or]
      exact ⟨created n, laterCreated n⟩

theorem online_lasts_sample : ∃ d happened d', Online d ∧
    Machine.Runs demo d refusedTurns happened d' ∧ happened.flatten ≠ [] ∧ Online d' ∧
    .opens ∉ happened.flatten := by
  obtain ⟨⟨d, happened, d'⟩, runs, passes⟩ := exists_of_any
    (x := do
      let opened ← Machine.run demo .start openingTurns
      let refused ← Machine.run demo opened.2 refusedTurns
      return (opened.2, refused))
    (p := fun r => r.1.connect = .online ∧ r.1.xSocket ≠ none ∧ r.2.1.flatten.length ≠ 0)
    (by decide +kernel)
  obtain ⟨opened, -, runs⟩ := bind_eq_ok runs
  obtain ⟨refused, run, same⟩ := bind_eq_ok runs
  cases same
  obtain ⟨connect, xSocket, some⟩ := of_decide_eq_true passes
  have online : Online opened.2 := ⟨connect, xSocket⟩
  have lasts := online_lasts online (by decide) (by simp [refusedTurns, Oracle.Reads, Oracle.connack])
    (.of_run run)
  exact ⟨_, _, _, online, .of_run run, fun none => some (List.length_eq_zero_iff.mpr none), lasts.1,
    lasts.2.2.1⟩

section Refused

variable {s : MQTTSharedData} {env : Env}

theorem connackCode_of_told {data : Mem} {n : Nat} {r : Parsed} {code : MQTTErrorCodes}
    (run : mqttParseInputStream (some data) n (some s) = .ok r) (told : .connectedCb code ∈ r.events) :
    ∃ c, connackCode data = some c ∧ code = (c.toNat : Int) := by
  by_cases cb : s.connectedCbFptr = none
  · simp only [mqttParseInputStream] at run
    cases next : (decodeFixedHeader data).next with
    | none =>
      rw [next] at run
      cases run
      cases told
    | some next' =>
      cases messageType : (decodeFixedHeader data).messageType with
      | connack =>
        simp only [next, messageType, parseConnack, decodeVariableHeaderConack, Option.map_some, cb,
          callback, Option.elim_none] at run
        cases run
        cases told
      | publish =>
        simp only [next, messageType] at run
        exact absurd told (parsePublish_quiet run code)
      | suback =>
        simp only [next, messageType] at run
        cases run
        exact absurd told (parseSuback_quiet _ _ _ code)
      | _ =>
        simp only [next, messageType] at run
        cases run
        cases told
  · exact (mem_connectedCb_iff cb run).mp told

theorem receiveCall_refused {data : Mem} {amount : Nat} (idle : s.state = .disconnected)
    (refuses : connackCode data ≠ some 0)
    (h : api (some s) (env, .receive (some data) amount) = .ok (a, g')) :
    (∃ s', g' = some s' ∧ s'.state = .disconnected) ∧ (∀ data ret, .out data ret ∉ a.events) ∧
      a.events.any isAccepted = false := by
  obtain ⟨r, parsed, shared, callbacks⟩ :=
    mqttParseInputStream_some data (UInt32.ofNat amount).toNat s
  simp only [api, mqttReceive, mqtt, actionParseInputStream, Ptr.deref_some, ok_bind, parsed] at h
  cases h
  refine ⟨?_, ?_, ?_⟩
  · rw [shared]
    refine ⟨_, rfl, ?_⟩
    change stateAfter s.state data = .disconnected
    rw [stateAfter, idle]
    cases found : connackCode data with
    | none => rfl
    | some code =>
      have : code ≠ 0 := fun zero => refuses (by rw [found, zero])
      simp [this]
  · intro data' ret mem
    rcases List.mem_append.mp mem with parsed | told
    · simp at parsed
    · exact callbacks _ told
  · rw [List.any_eq_false]
    intro e mem
    rcases List.mem_append.mp mem with parsed | told
    · obtain rfl := List.mem_singleton.mp parsed
      simp [isAccepted]
    · cases e with
      | connectedCb status =>
        obtain ⟨c, found, rfl⟩ := connackCode_of_told parsed told
        have some : c ≠ 0 := fun zero => refuses (by rw [found, zero])
        have positive : c.toNat ≠ 0 := fun zero => some (UInt8.toNat_inj.mp zero)
        simpa [isAccepted, MQTTErrorCodes.successfull] using positive
      | _ => simp [isAccepted]

theorem keepaliveCall_refused {elapsed : UInt32} (idle : s.state = .disconnected)
    (h : api (some s) (env, .keepalive elapsed) = .ok (a, g')) :
    a = ⟨false, []⟩ ∧ g' = some s := by
  have refused : actionKeepalive env (some elapsed) (some s) =
      .ok (⟨.invalidArgument, []⟩, some s) := by
    simp only [actionKeepalive, Ptr.deref_some, ok_bind, idle, reduceCtorEq, if_false]
    rfl
  obtain ⟨⟨o, g₁⟩, run, h⟩ := bind_eq_ok h
  have run : actionKeepalive env (some elapsed) (some s) = .ok (o, g₁) := run
  rw [refused] at run
  cases run
  cases h
  exact ⟨rfl, rfl⟩

theorem publishCall_refused {topic msg : Ptr Mem} {topicSize msgSize : Nat}
    (idle : s.state = .disconnected)
    (h : api (some s) (env, .publish topic topicSize msg msgSize) = .ok (a, g')) :
    a = ⟨false, []⟩ ∧ g' = some s := by
  simp only [api, mqttPublish, mqttPublishBuf] at h
  split at h
  · obtain ⟨⟨o, g₁⟩, run, h⟩ := bind_eq_ok h
    simp only [mqtt, actionPublish, idle, reduceCtorEq, if_false] at run
    cases run
    cases h
    exact ⟨rfl, rfl⟩
  · cases h
    exact ⟨rfl, rfl⟩

end Refused

structure Refused (d : Demo) : Prop extends Online d where
  refused : ∃ s, d.shared = some s ∧ s.state = .disconnected

def Read.Refuses : Read → Prop
  | .packet data _ => connackCode data ≠ some 0
  | _ => True

theorem isOut_of_silent {events : List Event} (silent : ∀ data ret, .out data ret ∉ events) :
    events.any isOut = false := by
  rw [List.any_eq_false]
  rintro (⟨data, ret⟩ | _ | _ | _) mem
  · exact absurd mem (silent data ret)
  · simp [isOut]
  · simp [isOut]
  · simp [isOut]

section RefusedSteps

variable {d d' : Demo} {o : Oracle}

def StaysRefused (happened : List Happening) (d' : Demo) : Prop :=
  Refused d' ∧ ∀ data ret, .client (.out data ret) ∉ happened

theorem refused_connect (h : Refused d) (step : prvConnectTask d o = .ok (happened, d')) :
    StaysRefused happened d' := by
  simp only [prvConnectTask, h.connect, if_pos h.xSocket] at step
  cases step
  exact ⟨h, by simp⟩

theorem refused_receive (h : Refused d) (reads : o.Reads) (refuses : o.read.Refuses)
    (step : prvReceiveTask d o = .ok (happened, d')) : StaysRefused happened d' := by
  rw [prvReceiveTask] at step
  split at step
  case h_1 | h_2 =>
    split at step <;>
    · cases step
      exact ⟨⟨⟨h.connect, h.xSocket⟩, h.refused⟩, by simp⟩
  case h_3 =>
    split at step
    case h_1 failed => exact absurd failed reads
    case h_2 =>
      cases step
      exact ⟨⟨⟨h.connect, h.xSocket⟩, h.refused⟩, by simp⟩
    case h_3 data amount packet =>
      rw [packet] at refuses
      obtain ⟨⟨happened, d₁⟩, run, step⟩ := bind_eq_ok step
      cases step
      obtain ⟨⟨a, d₂⟩, parsed, run⟩ := bind_eq_ok run
      obtain ⟨s, shared, idle⟩ := h.refused
      obtain ⟨call, framed⟩ := call_spec parsed
      rw [shared] at call
      obtain ⟨left, silent, unaccepted⟩ := receiveCall_refused idle refuses call
      have valid := call_xSocket parsed h.xSocket (.inl (isOut_of_silent silent))
      simp only [unaccepted, Bool.false_eq_true, if_false] at run
      cases run
      refine ⟨⟨⟨framed.connect.trans h.connect, ?_⟩, left⟩, by simpa using silent⟩
      rw [valid]
      exact h.xSocket

theorem refused_alive (h : Refused d) (step : prvAliveTask d o = .ok (happened, d')) :
    StaysRefused happened d' := by
  rw [prvAliveTask] at step
  split at step
  case h_1 =>
    split at step <;>
    · cases step
      exact ⟨⟨⟨h.connect, h.xSocket⟩, h.refused⟩, by simp⟩
  case h_2 =>
    obtain ⟨⟨a, d₁⟩, run, step⟩ := bind_eq_ok step
    obtain ⟨s, shared, idle⟩ := h.refused
    obtain ⟨call, framed⟩ := call_spec run
    rw [shared] at call
    obtain ⟨rfl, left⟩ := keepaliveCall_refused idle call
    have valid := call_xSocket run h.xSocket (.inl rfl)
    cases step
    exact ⟨⟨⟨framed.connect.trans h.connect, valid ▸ h.xSocket⟩, s, left, idle⟩, by simp⟩

theorem refused_publish (h : Refused d) (step : prvPublishTask d o = .ok (happened, d')) :
    StaysRefused happened d' := by
  rw [prvPublishTask] at step
  split at step
  case h_1 =>
    split at step <;>
    · cases step
      exact ⟨⟨⟨h.connect, h.xSocket⟩, h.refused⟩, by simp⟩
  case h_2 =>
    obtain ⟨⟨a, d₁⟩, run, step⟩ := bind_eq_ok step
    obtain ⟨s, shared, idle⟩ := h.refused
    obtain ⟨call, framed⟩ := call_spec run
    rw [shared] at call
    obtain ⟨rfl, left⟩ := publishCall_refused idle call
    have valid := call_xSocket run h.xSocket (.inl rfl)
    cases step
    exact ⟨⟨⟨framed.connect.trans h.connect, valid ▸ h.xSocket⟩, s, left, idle⟩, by simp⟩

theorem refused_demo {turn : Task × Oracle} (h : Refused d) (reads : turn.2.Reads)
    (refuses : turn.2.read.Refuses) (step : demo d turn = .ok (happened, d')) :
    StaysRefused happened d' := by
  obtain ⟨task, o⟩ := turn
  cases task with
  | connect => exact refused_connect h step
  | receive => exact refused_receive h reads refuses step
  | alive => exact refused_alive h step
  | publish => exact refused_publish h step

end RefusedSteps

/-- A refused connection is final: unless a read fails or the server accepts after all,
nothing is sent any more and the tasks do not connect again. -/
theorem refusal_final {turns : List (Task × Oracle)} {happened : List (List Happening)}
    {d d' : Demo} (refused : Refused d) (reads : ∀ turn ∈ turns, turn.2.Reads)
    (refuses : ∀ turn ∈ turns, turn.2.read.Refuses) (run : Machine.Runs demo d turns happened d') :
    Refused d' ∧ ∀ data ret, .client (.out data ret) ∉ happened.flatten := by
  induction run with
  | nil => exact ⟨refused, by simp⟩
  | cons one rest ih =>
    obtain ⟨next, silent⟩ := refused_demo refused (reads _ List.mem_cons_self)
      (refuses _ List.mem_cons_self) one
    obtain ⟨last, later⟩ := ih next (fun turn mem => reads turn (List.mem_cons_of_mem _ mem))
      fun turn mem => refuses turn (List.mem_cons_of_mem _ mem)
    refine ⟨last, fun data ret => ?_⟩
    rw [List.flatten_cons, List.mem_append, not_or]
    exact ⟨silent data ret, later data ret⟩

theorem refusal_final_sample : ∃ d happened d', Refused d ∧
    Machine.Runs demo d refusedTurns happened d' ∧ Refused d' ∧
    ∀ data ret, .client (.out data ret) ∉ happened.flatten := by
  obtain ⟨⟨d, happened, d'⟩, runs, passes⟩ := exists_of_any
    (x := do
      let refused ← Machine.run demo .start (openingTurns ++ refusedTurns.take 2)
      let given ← Machine.run demo refused.2 refusedTurns
      return (refused.2, given))
    (p := fun r => r.1.connect = .online ∧ r.1.xSocket ≠ none ∧
      r.1.shared.map (·.state) = some .disconnected)
    (by decide +kernel)
  obtain ⟨opened, -, runs⟩ := bind_eq_ok runs
  obtain ⟨given, run, same⟩ := bind_eq_ok runs
  cases same
  obtain ⟨connect, xSocket, idle⟩ := of_decide_eq_true passes
  have refused : Refused opened.2 := ⟨⟨connect, xSocket⟩, Option.map_eq_some_iff.mp idle⟩
  have refuses : (Oracle.connack 5).read.Refuses := by
    change connackCode (ofList [0x20, 2, 0, 5] 0) ≠ some 0
    decide +kernel
  have final := refusal_final refused (by simp [refusedTurns, Oracle.Reads, Oracle.connack])
    (by simp [refusedTurns, refuses]) (.of_run run)
  exact ⟨_, _, _, refused, .of_run run, final.1, final.2⟩

end SeparateTasks

end RojalMQTT
