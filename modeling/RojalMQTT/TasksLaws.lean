import RojalMQTT.Tasks
import RojalMQTT.CommandLineLaws

/-! The four tasks in every interleaving. -/

namespace RojalMQTT

open Library

namespace SeparateTasks

def clientEvents (happened : List Happening) : List Event :=
  happened.filterMap fun
    | .client e => some e
    | _ => none

@[simp] theorem clientEvents_nil : clientEvents [] = [] := rfl

@[simp] theorem clientEvents_append (l l' : List Happening) :
    clientEvents (l ++ l') = clientEvents l ++ clientEvents l' := List.filterMap_append

@[simp] theorem clientEvents_client (events : List Event) :
    clientEvents (events.map .client) = events := by
  rw [clientEvents, List.filterMap_map]
  exact List.filterMap_some

structure Framed (d d' : Demo) : Prop where
  connect : d'.connect = d.connect
  receive : d'.receive = d.receive
  alive : d'.alive = d.alive
  publish : d'.publish = d.publish
  queue : d'.xSocketPassingQueue = d.xSocketPassingQueue
  sockets : d'.sockets = d.sockets
  xSocket : d'.xSocket = d.xSocket ∨ d'.xSocket = none

theorem Framed.trans {d d' d'' : Demo} (h : Framed d d') (h' : Framed d' d'') : Framed d d'' where
  connect := h'.connect.trans h.connect
  receive := h'.receive.trans h.receive
  alive := h'.alive.trans h.alive
  publish := h'.publish.trans h.publish
  queue := h'.queue.trans h.queue
  sockets := h'.sockets.trans h.sockets
  xSocket := by
    rcases h'.xSocket with same | none
    · rw [same]
      exact h.xSocket
    · exact .inr none

section Calls

variable {d d' : Demo} {o : Oracle} {call : ApiCall}

theorem call_spec (h : d.call o call = .ok (a, d')) :
    api d.shared (o.env, call) = .ok (a, d'.shared) ∧ Framed d d' := by
  obtain ⟨⟨a', g⟩, run, h⟩ := bind_eq_ok h
  simp only at h
  split at h
  · cases h
    exact ⟨run, rfl, rfl, rfl, rfl, rfl, rfl, .inr rfl⟩
  · cases h
    exact ⟨run, rfl, rfl, rfl, rfl, rfl, rfl, .inl rfl⟩

theorem call_error {e : Fault} (h : d.call o call = .error e) :
    api d.shared (o.env, call) = .error e := by
  rw [Demo.call] at h
  cases run : api d.shared (o.env, call) with
  | error e' =>
    rw [run] at h
    cases h
    rfl
  | ok r =>
    rw [run, ok_bind] at h
    dsimp only at h
    split at h <;> cases h

end Calls

def KeepsAlive : ApiCall → Prop
  | .connect args => args.keepaliveTimeout = 60
  | _ => True

inductive TaskCall : Task → ApiCall → Prop
  | connects (shared : Ptr MQTTSharedData) : TaskCall .connect (.connect (connectArguments shared))
  | announces : TaskCall .connect announcement
  | receives (data : Mem) (amount : Nat) : TaskCall .receive (.receive (some data) amount)
  | subscribes : TaskCall .receive subscription
  | keepsAlive : TaskCall .alive (.keepalive (gKeepAliveTime / 4 * 3))
  | measures (cntr : UInt32) : TaskCall .publish (measurement cntr)

theorem connect_checked (shared : Ptr MQTTSharedData) (env : Env) : ∃ c s,
    (connectArguments shared).checked env = some (c, s) ∧ c.clientId = some freertosClientId ∧
      payloadStrings c = [freertosClientId] ∧ s.outFptr ≠ none ∧ s.buffer ≠ none ∧
      s.bufferSize = 1024 := by
  have strings (c : MQTTConnect) (id : c.clientId = some freertosClientId)
      (will : c.lastWillTopic = .empty) (user : c.username = .empty) (pass : c.password = .empty) :
      payloadStrings c = [freertosClientId] := by
    simp [payloadStrings, willStrings, optionalStrings, id, will, user, pass, CString.strlen,
      CString.empty]
  exact ⟨_, _, rfl, rfl, strings _ rfl rfl rfl rfl, Option.some_ne_none _, Option.some_ne_none _, rfl⟩

section Calls

variable {task : Task} {call : ApiCall}

theorem TaskCall.fits (h : TaskCall task call) : call.Fits := by
  cases h with
  | connects shared =>
    have size : (connectArguments shared).outputBufferSize = 1024 := rfl
    exact ⟨Option.some_ne_none _, by omega⟩
  | keepsAlive =>
    change (gKeepAliveTime / 4 * 3).toNat < 2 ^ 31
    decide
  | announces | subscribes | receives | measures => trivial

theorem TaskCall.plain (h : TaskCall task call) (env : Env) : ∀ action ∈ call.asks env, action.Plain := by
  cases h with
  | connects shared =>
    obtain ⟨c, s, checked, -, strings, -⟩ := connect_checked shared env
    rw [ApiCall.asks, checked]
    rintro _ ⟨⟩
    change connectSize c ≤ 65535
    rw [connectSize, connectBodySize, strings]
    decide +kernel
  | announces =>
    rintro _ ⟨⟩
    refine ⟨⟨rfl, rfl⟩, rfl, ?_⟩
    change publishBodySize .qos0 (UInt16.ofNat 5) (UInt32.ofNat 7) < 268435456
    decide
  | measures cntr =>
    rintro _ ⟨⟩
    refine ⟨⟨rfl, rfl⟩, rfl, ?_⟩
    change publishBodySize .qos0 (UInt16.ofNat 19) (UInt32.ofNat 4) < 268435456
    decide
  | subscribes =>
    rintro _ ⟨⟩
    rfl
  | receives | keepsAlive =>
    rintro _ ⟨⟩
    trivial

theorem TaskCall.keepalive (h : TaskCall task call) : KeepsAlive call := by
  cases h with
  | connects shared => rfl
  | announces | subscribes | receives | keepsAlive | measures => trivial

end Calls

structure Simulates (tasks : List Task) (d : Demo) (happened : List Happening) (d' : Demo)
    (calls : List (Env × ApiCall)) (answers : List Answer) : Prop where
  runs : Machine.Runs api d.shared calls answers d'.shared
  made : ∀ c ∈ calls, ∃ task ∈ tasks, TaskCall task c.2
  events : clientEvents happened = answers.flatMap (·.events)

theorem Simulates.nothing {tasks : List Task} {d d' : Demo} (same : d'.shared = d.shared)
    (silent : clientEvents happened = []) : Simulates tasks d happened d' [] [] where
  runs := by
    rw [same]
    exact .nil
  made := by simp
  events := silent

section Steps

variable {d d' : Demo} {o : Oracle}

theorem simulates_call {task : Task} {call : ApiCall} {d₁ : Demo} (h : d.call o call = .ok (a, d₁))
    (made : TaskCall task call) (same : d'.shared = d₁.shared) (events : clientEvents happened = a.events) :
    Simulates [task] d happened d' [(o.env, call)] [a] where
  runs := by
    rw [same]
    exact .cons (call_spec h).1 .nil
  made := by simpa using made
  events := by simpa using events

theorem prvConnectTask_simulates (h : prvConnectTask d o = .ok (happened, d')) :
    ∃ calls answers, Simulates [.connect] d happened d' calls answers := by
  rw [prvConnectTask] at h
  split at h
  case h_5 =>
    obtain ⟨⟨a, d₁⟩, run, h⟩ := bind_eq_ok h
    cases h
    exact ⟨_, _, simulates_call run (.connects _) rfl (clientEvents_client _)⟩
  case h_6 =>
    obtain ⟨⟨a, d₁⟩, run, h⟩ := bind_eq_ok h
    cases h
    exact ⟨_, _, simulates_call run .announces rfl (clientEvents_client _)⟩
  case h_3 | h_4 | h_7 =>
    split at h <;>
    · cases h
      exact ⟨_, _, .nothing rfl rfl⟩
  all_goals
    cases h
    exact ⟨_, _, .nothing rfl rfl⟩

theorem received_simulates {data : Mem} {amount : Nat}
    (h : d.received o data amount = .ok (happened, d')) :
    (∃ calls answers, Simulates [.receive] d happened d' calls answers) ∧ Framed d d' ∧
      ∃ events : List Event, happened = events.map .client := by
  obtain ⟨⟨a, d₁⟩, parsed, h⟩ := bind_eq_ok h
  obtain ⟨call, framed⟩ := call_spec parsed
  simp only at h
  split at h
  case isTrue =>
    obtain ⟨⟨b, d₂⟩, subscribed, h⟩ := bind_eq_ok h
    cases h
    obtain ⟨call', framed'⟩ := call_spec subscribed
    refine ⟨⟨[(o.env, .receive (some data) amount), (o.env, subscription)], [a, b],
      .cons call (.cons call' .nil), ?_, ?_⟩, framed.trans framed', _, rfl⟩
    · simp only [List.mem_cons, List.not_mem_nil, or_false, forall_eq_or_imp, forall_eq]
      exact ⟨⟨.receive, rfl, .receives data amount⟩, .receive, rfl, .subscribes⟩
    · simp
  case isFalse =>
    cases h
    exact ⟨⟨_, _, simulates_call parsed (.receives data amount) rfl (clientEvents_client _)⟩, framed, _,
      rfl⟩

theorem prvReceiveTask_simulates (h : prvReceiveTask d o = .ok (happened, d')) :
    ∃ calls answers, Simulates [.receive] d happened d' calls answers := by
  rw [prvReceiveTask] at h
  split at h
  case h_1 | h_2 =>
    split at h <;>
    · cases h
      exact ⟨_, _, .nothing rfl rfl⟩
  case h_3 =>
    split at h
    case h_3 =>
      obtain ⟨⟨happened, d₁⟩, run, h⟩ := bind_eq_ok h
      cases h
      obtain ⟨⟨calls, answers, simulates⟩, -⟩ := received_simulates run
      exact ⟨calls, answers, { simulates with }⟩
    all_goals
      cases h
      exact ⟨_, _, .nothing rfl rfl⟩

theorem prvAliveTask_simulates (h : prvAliveTask d o = .ok (happened, d')) :
    ∃ calls answers, Simulates [.alive] d happened d' calls answers := by
  rw [prvAliveTask] at h
  split at h
  case h_1 =>
    split at h <;>
    · cases h
      exact ⟨_, _, .nothing rfl rfl⟩
  case h_2 =>
    obtain ⟨⟨a, d₁⟩, run, h⟩ := bind_eq_ok h
    simp only at h
    split at h
    · cases h
      exact ⟨_, _, simulates_call run .keepsAlive rfl (clientEvents_client _)⟩
    · cases h
      refine ⟨_, _, simulates_call run .keepsAlive rfl ?_⟩
      rw [clientEvents_append, clientEvents_client]
      exact List.append_nil _

theorem prvPublishTask_simulates (h : prvPublishTask d o = .ok (happened, d')) :
    ∃ calls answers, Simulates [.publish] d happened d' calls answers := by
  rw [prvPublishTask] at h
  split at h
  case h_1 =>
    split at h <;>
    · cases h
      exact ⟨_, _, .nothing rfl rfl⟩
  case h_2 =>
    obtain ⟨⟨a, d₁⟩, run, h⟩ := bind_eq_ok h
    simp only at h
    split at h
    · cases h
      exact ⟨_, _, simulates_call run (.measures _) rfl (clientEvents_client _)⟩
    · cases h
      refine ⟨_, _, simulates_call run (.measures _) rfl ?_⟩
      rw [clientEvents_append, clientEvents_client]
      exact List.append_nil _

theorem demo_simulates {turn : Task × Oracle} (h : demo d turn = .ok (happened, d')) :
    ∃ calls answers, Simulates [turn.1] d happened d' calls answers := by
  obtain ⟨task, o⟩ := turn
  cases task with
  | connect => exact prvConnectTask_simulates h
  | receive => exact prvReceiveTask_simulates h
  | alive => exact prvAliveTask_simulates h
  | publish => exact prvPublishTask_simulates h

end Steps

theorem run_simulates {turns : List (Task × Oracle)} {happened : List (List Happening)} {d d' : Demo}
    (run : Machine.Runs demo d turns happened d') : ∃ calls answers,
      Simulates (turns.map Prod.fst) d happened.flatten d' calls answers := by
  induction run with
  | nil => exact ⟨[], [], .nothing rfl rfl⟩
  | cons one rest ih =>
    obtain ⟨calls, answers, first⟩ := demo_simulates one
    obtain ⟨calls', answers', later⟩ := ih
    refine ⟨calls ++ calls', answers ++ answers', first.runs.append later.runs, ?_, ?_⟩
    · intro c mem
      rcases List.mem_append.mp mem with mem | mem
      · obtain ⟨task, now, made⟩ := first.made c mem
        obtain rfl := List.mem_singleton.mp now
        exact ⟨_, List.mem_cons_self, made⟩
      · obtain ⟨task, then', made⟩ := later.made c mem
        exact ⟨task, List.mem_cons_of_mem _ then', made⟩
    · rw [List.flatten_cons, clientEvents_append, first.events, later.events, List.flatMap_append]

def Oracle.quiet : Oracle where
  connects := true
  read := .short
  ret _ := 0
  stack _ := 0
  sendFails := false
  xTaskGetTickCount := 0

def Oracle.connack (code : UInt8) : Oracle :=
  { Oracle.quiet with
    ret := fun data => data.length
    read := .packet (ofList [0x20, 2, 0, code] 0) 4 }

def openingTurns : List (Task × Oracle) :=
  [.connect, .connect, .connect, .connect, .receive, .connect, .alive, .connect, .publish, .connect,
    .connect].map fun task => (task, .connack 5)

section Faults

variable {d d' : Demo} {o : Oracle}

def Prepared (d : Demo) : Prop := ∀ s ∈ d.shared, Ready s

theorem Simulates.prepared {tasks : List Task} {happened : List Happening}
    {calls : List (Env × ApiCall)} {answers : List Answer}
    (h : Simulates tasks d happened d' calls answers) (prepared : Prepared d) :
    Prepared d' := by
  obtain ⟨runs, made, -⟩ := h
  rw [Prepared] at prepared ⊢
  generalize d.shared = g, d'.shared = g' at runs prepared
  induction runs with
  | nil => exact prepared
  | cons one rest ih =>
    obtain ⟨task, -, first⟩ := made _ List.mem_cons_self
    exact ih (fun c mem => made c (List.mem_cons_of_mem _ mem))
      (api_ready prepared first.fits one)

theorem call_fault {call : ApiCall} {e : Fault} (prepared : Prepared d)
    (h : d.call o call = .error e) (fits : call.Fits) : d.shared = none ∧ e = .nullDereference := by
  have fault := call_error h
  cases shared : d.shared with
  | none =>
    rw [shared] at fault
    exact ⟨rfl, api_fault fits fault⟩
  | some s =>
    obtain ⟨a, s', run⟩ := api_total o.env (prepared s shared) fits
    rw [shared, run] at fault
    cases fault

theorem bind_eq_error {x : Except Fault α} {f : α → Except Fault β} {e : Fault}
    (h : x >>= f = .error e) : x = .error e ∨ ∃ a, x = .ok a ∧ f a = .error e := by
  cases x with
  | error e' =>
    cases h
    exact .inl rfl
  | ok a => exact .inr ⟨a, rfl, h⟩

theorem prvConnectTask_survives {e : Fault} (prepared : Prepared d) :
    prvConnectTask d o ≠ .error e := by
  intro h
  rw [prvConnectTask] at h
  split at h
  case h_5 =>
    obtain ⟨c, s, checked, -⟩ := connect_checked d.shared o.env
    obtain ⟨a, s', run⟩ := connectCall_total checked (TaskCall.connects d.shared).fits.2 d.shared
    rcases bind_eq_error h with fault | ⟨r, _, h⟩
    · have run : api d.shared (o.env, .connect (connectArguments d.shared)) = .ok (a, some s') := run
      rw [call_error fault] at run
      cases run
    · cases h
  case h_6 =>
    rcases bind_eq_error h with fault | ⟨r, _, h⟩
    · have none := (call_fault prepared fault trivial).1
      have fault := call_error fault
      rw [none] at fault
      cases fault
    · cases h
  case h_3 | h_4 | h_7 => split at h <;> cases h
  all_goals cases h

theorem prvPublishTask_survives {e : Fault} (prepared : Prepared d) :
    prvPublishTask d o ≠ .error e := by
  intro h
  rw [prvPublishTask] at h
  split at h
  case h_1 => split at h <;> cases h
  case h_2 =>
    rcases bind_eq_error h with fault | ⟨r, _, h⟩
    · have none := (call_fault prepared fault trivial).1
      have fault := call_error fault
      rw [none] at fault
      cases fault
    · simp only at h
      split at h <;> cases h

theorem prvReceiveTask_fault {e : Fault} (prepared : Prepared d)
    (h : prvReceiveTask d o = .error e) : d.shared = none ∧ e = .nullDereference := by
  rw [prvReceiveTask] at h
  split at h
  case h_1 | h_2 => split at h <;> cases h
  case h_3 =>
    split at h
    case h_3 data amount _ =>
      rcases bind_eq_error h with h | ⟨r, _, h⟩
      · rcases bind_eq_error h with fault | ⟨⟨a, d₁⟩, parsed, h⟩
        · exact call_fault prepared fault trivial
        · simp only at h
          split at h
          case isFalse => cases h
          case isTrue =>
            rcases bind_eq_error h with fault | ⟨r, _, h⟩
            · have first : Simulates [.receive] d (a.events.map .client) d₁ _ _ :=
                simulates_call parsed (.receives data amount) rfl (clientEvents_client _)
              have none := (call_fault (first.prepared prepared) fault trivial).1
              have fault := call_error fault
              rw [none] at fault
              cases fault
            · cases h
      · cases h
    all_goals cases h

theorem prvAliveTask_fault {e : Fault} (prepared : Prepared d)
    (h : prvAliveTask d o = .error e) : d.shared = none ∧ e = .nullDereference := by
  rw [prvAliveTask] at h
  split at h
  case h_1 => split at h <;> cases h
  case h_2 =>
    rcases bind_eq_error h with fault | ⟨r, _, h⟩
    · refine call_fault prepared fault ?_
      change (gKeepAliveTime / 4 * 3).toNat < 2 ^ 31
      decide
    · simp only at h
      split at h <;> cases h

/-- In every interleaving the only fault is a read through NULL, of the receive or the
alive task before `mqtt_connect` was called. -/
theorem demo_faults (turns : List (Task × Oracle)) :
    Machine.Each demo (fun d turn result => ∀ e, result = .error e →
      d.shared = none ∧ e = .nullDereference ∧ (turn.1 = .receive ∨ turn.1 = .alive))
      .start turns := by
  refine .of_inv (I := Prepared) ?_ (by simp [Prepared, Demo.start])
  rintro d ⟨task, o⟩ - prepared
  refine ⟨fun e h => ?_, fun happened d' h => ?_⟩
  · cases task with
    | connect => exact absurd h (prvConnectTask_survives prepared)
    | receive =>
      obtain ⟨none, null⟩ := prvReceiveTask_fault prepared h
      exact ⟨none, null, .inl rfl⟩
    | alive =>
      obtain ⟨none, null⟩ := prvAliveTask_fault prepared h
      exact ⟨none, null, .inr rfl⟩
    | publish => exact absurd h (prvPublishTask_survives prepared)
  · obtain ⟨calls, answers, simulates⟩ := demo_simulates h
    exact simulates.prepared prepared

end Faults

end SeparateTasks

end RojalMQTT
