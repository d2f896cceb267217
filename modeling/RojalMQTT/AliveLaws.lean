import RojalMQTT.StallLaws
import RojalMQTT.ConversationLaws

/-! What the keep-alive task guarantees, whatever the other tasks do. -/

namespace RojalMQTT

open Library

namespace SeparateTasks

section Calls

variable {env : Env} {task : Task} {call : ApiCall} {s : MQTTSharedData}

def pinging (s : MQTTSharedData) : MQTTState × Int := (s.state, s.timeToNextPingInMs)

theorem keepalive_due {elapsed : UInt32} (ready : Ready s) (enabled : s.keepaliveInMs ≠ int32Min)
    (small : elapsed.toNat < 2 ^ 31) (connected : s.state = .connected)
    (due : s.timeToNextPingInMs ≤ elapsed.toNat)
    (h : mqttKeepalive env elapsed (some s) = .ok (a, g')) : a.events ≠ [] := by
  intro quiet
  rcases keepalive_quiet ready enabled small h quiet with ⟨idle, _⟩ | ⟨_, t, pos, left, _⟩
  · exact idle connected
  · omega

theorem encoder_quiet {sentOk : MQTTSharedData → MQTTSharedData} (step : EncoderStep env s sentOk o g')
    (quiet : o.events = []) : ∃ s', g' = some s' ∧ pinging s' = pinging s := by
  obtain ⟨cntr, buffer, ⟨-, rfl⟩ | ⟨_, data, s', _, sends⟩⟩ := step
  · exact ⟨_, rfl, rfl⟩
  · obtain ⟨events, -, happened⟩ := sends.events_eq
    rw [happened] at quiet
    cases quiet

def Requests (env : Env) (call : ApiCall) : Prop :=
  ∃ action, call.asks env = some action ∧
    ((∃ p, action = .publish p) ∨ ∃ p, action = .subscribe p)

theorem request_quiet (requests : Requests env call) (found : call.finds env (some s) = some s)
    (h : api (some s) (env, call) = .ok (a, g')) (quiet : a.events = []) :
    ∃ s', g' = some s' ∧ pinging s' = pinging s := by
  obtain ⟨action, asks, request⟩ := requests
  rcases api_acts h with ⟨none, -⟩ | ⟨action', asks', o, g₁, run, happened, left⟩
  · rw [asks] at none
    cases none
  · obtain rfl := Option.some.inj (asks.symm.trans asks')
    have run : mqtt (call.finds env (some s)) (env, action) = .ok (o, g₁) := run
    rw [found] at run
    have kept : ∃ s', g₁ = some s' ∧ pinging s' = pinging s := by
      rcases request with ⟨p, rfl⟩ | ⟨p, rfl⟩
      · exact encoder_quiet (actionPublish_cases run) (happened ▸ quiet)
      · exact encoder_quiet (actionSubscribe_cases run) (happened ▸ quiet)
    obtain ⟨s', rfl, same⟩ := kept
    rcases left with rfl | rfl
    · exact ⟨s', rfl, same⟩
    · exact ⟨s'.settled, rfl, same⟩

theorem other_quiet (made : TaskCall task call) (other : task ≠ .alive)
    (h : api (some s) (env, call) = .ok (a, g')) (quiet : a.events = []) :
    ∃ s', g' = some s' ∧ pinging s' = pinging s := by
  cases made with
  | connects shared =>
    obtain ⟨data, ret, out⟩ := connect_handed h
    rw [quiet] at out
    cases out
  | announces => exact request_quiet ⟨_, rfl, .inl ⟨_, rfl⟩⟩ rfl h quiet
  | measures cntr => exact request_quiet ⟨_, rfl, .inl ⟨_, rfl⟩⟩ rfl h quiet
  | subscribes => exact request_quiet ⟨_, rfl, .inr ⟨_, rfl⟩⟩ rfl h quiet
  | keepsAlive => exact absurd rfl other
  | receives data amount =>
    obtain ⟨r, parsed, -⟩ := mqttParseInputStream_some data (UInt32.ofNat amount).toNat s
    simp only [api, mqttReceive, mqtt, actionParseInputStream, Ptr.deref_some, ok_bind, parsed] at h
    cases h
    cases quiet

theorem others_quiet {calls : List (Env × ApiCall)} {answers : List Answer}
    (run : Machine.Runs api (some s) calls answers g')
    (made : ∀ c ∈ calls, ∃ task, task ≠ .alive ∧ TaskCall task c.2)
    (quiet : answers.flatMap (·.events) = []) : ∃ s', g' = some s' ∧ pinging s' = pinging s := by
  generalize start : some s = g at run
  induction run generalizing s with
  | nil => exact ⟨s, start.symm, rfl⟩
  | @cons g call a g₁ calls answers g' one rest ih =>
    subst start
    rw [List.flatMap_cons, List.append_eq_nil_iff] at quiet
    obtain ⟨task, other, first⟩ := made _ List.mem_cons_self
    obtain ⟨s₁, rfl, same⟩ := other_quiet first other one quiet.1
    obtain ⟨s', last, same'⟩ := ih (fun c mem => made c (List.mem_cons_of_mem _ mem)) quiet.2 rfl
    exact ⟨s', last, same'.trans same⟩

end Calls

section Turns

variable {d d' : Demo} {o : Oracle}

theorem others_alive {turn : Task × Oracle} (other : turn.1 ≠ .alive)
    (h : demo d turn = .ok (happened, d')) : d'.alive = d.alive := by
  obtain ⟨task, o⟩ := turn
  cases task with
  | alive => exact absurd rfl other
  | connect =>
    simp only [demo, prvConnectTask] at h
    split at h
    case h_5 | h_6 =>
      obtain ⟨⟨a, d₁⟩, run, h⟩ := bind_eq_ok h
      cases h
      exact (call_spec run).2.alive
    case h_3 | h_4 | h_7 =>
      split at h <;>
      · cases h
        rfl
    all_goals
      cases h
      rfl
  | receive =>
    simp only [demo, prvReceiveTask] at h
    split at h
    case h_1 | h_2 =>
      split at h <;>
      · cases h
        rfl
    case h_3 =>
      split at h
      case h_3 =>
        obtain ⟨⟨happened, d₁⟩, run, h⟩ := bind_eq_ok h
        cases h
        exact (received_simulates run).2.1.alive
      all_goals
        cases h
        rfl
  | publish =>
    simp only [demo, prvPublishTask] at h
    split at h
    case h_1 =>
      split at h <;>
      · cases h
        rfl
    case h_2 =>
      obtain ⟨⟨a, d₁⟩, run, h⟩ := bind_eq_ok h
      simp only at h
      split at h <;>
      · cases h
        exact (call_spec run).2.alive

theorem others_run {turns : List (Task × Oracle)} {happened : List (List Happening)}
    (run : Machine.Runs demo d turns happened d') (others : ∀ turn ∈ turns, turn.1 ≠ .alive) :
    d'.alive = d.alive := by
  induction run with
  | nil => rfl
  | cons one rest ih =>
    exact (ih fun turn mem => others turn (List.mem_cons_of_mem _ mem)).trans
      (others_alive (others _ List.mem_cons_self) one)

theorem alive_calls (asleep : d.alive = .sleeping) (h : demo d (.alive, o) = .ok (happened, d')) :
    ∃ a, mqttKeepalive o.env (gKeepAliveTime / 4 * 3) d.shared = .ok (a, d'.shared) ∧
      clientEvents happened = a.events ∧ (d'.alive = .sleeping → a.ret = true) := by
  simp only [demo, prvAliveTask, asleep] at h
  obtain ⟨⟨a, d₁⟩, run, h⟩ := bind_eq_ok h
  obtain ⟨call, -⟩ := call_spec run
  simp only at h
  split at h
  case isTrue goes =>
    cases h
    exact ⟨a, call, clientEvents_client _, fun _ => goes⟩
  case isFalse =>
    cases h
    refine ⟨a, call, ?_, fun asleep => by cases asleep⟩
    rw [clientEvents_append, clientEvents_client]
    exact List.append_nil _

end Turns

/-- Two turns of the keep-alive task in a row are never silent: if its call succeeds, then
something is handed out or comes in by the end of the next one, whatever the others do. -/
theorem alive_speaks {d d₁ d₂ d₃ : Demo} {o o' : Oracle} {turns : List (Task × Oracle)}
    {now later : List Happening} {between : List (List Happening)}
    (reachable : Machine.Reachable demo .start d) (asleep : d.alive = .sleeping)
    (first : demo d (.alive, o) = .ok (now, d₁)) (goes : d₁.alive = .sleeping)
    (run : Machine.Runs demo d₁ turns between d₂) (others : ∀ turn ∈ turns, turn.1 ≠ .alive)
    (second : demo d₂ (.alive, o') = .ok (later, d₃)) :
    clientEvents (now ++ between.flatten ++ later) ≠ [] := by
  intro silent
  rw [clientEvents_append, clientEvents_append, List.append_eq_nil_iff, List.append_eq_nil_iff] at silent
  obtain ⟨⟨silent, silent'⟩, silent''⟩ := silent
  obtain ⟨a, call, events, succeeds⟩ := alive_calls asleep first
  have runnable := reachable_runnable reachable
  cases shared : d.shared with
  | none =>
    rw [shared] at call
    cases call
  | some s =>
    rw [shared] at call
    have ready := runnable.prepared s shared
    rcases keepalive_quiet ready (runnable.enabled.ne shared) (by decide) call (events ▸ silent) with
      ⟨_, fails⟩ | ⟨connected, t, _, left, same⟩
    · rw [succeeds goes] at fails
      cases fails
    -- little is left of the time, and the others leave it as it is
    obtain ⟨calls, answers, simulates⟩ := run_simulates run
    have runs := simulates.runs
    rw [same] at runs
    obtain ⟨s₂, last, kept⟩ := others_quiet runs (fun c mem => by
      obtain ⟨task, turn, made⟩ := simulates.made c mem
      obtain ⟨t, mem, rfl⟩ := List.mem_map.mp turn
      exact ⟨_, others t mem, made⟩) (simulates.events ▸ silent')
    obtain ⟨state, timer⟩ := Prod.mk.inj kept
    obtain ⟨a', call', events', -⟩ := alive_calls ((others_run run others).trans goes) second
    have runnable₂ := reachable_runnable (run.reachable (reachable.step first))
    rw [last] at call'
    refine keepalive_due (runnable₂.prepared s₂ last) (runnable₂.enabled.ne last) (by decide)
      (state.trans connected) ?_ call' (events' ▸ silent'')
    have ms : (gKeepAliveTime / 4 * 3).toNat = 45000 := by decide
    obtain ⟨nonneg, below, bound⟩ := ready.timed.resolve_left (runnable.enabled.ne shared)
    have interval := runnable.enabled s shared
    have due : t ≤ (45000 : Nat) := by
      rw [left, ms]
      omega
    rw [timer, ms]
    exact due

theorem alive_speaks_sample : ∃ d now d₁ between d₂ later d₃,
    demo d (.alive, .connack 0) = .ok (now, d₁) ∧
    Machine.Runs demo d₁ [(.receive, .connack 0)] between d₂ ∧
    demo d₂ (.alive, .connack 0) = .ok (later, d₃) ∧ clientEvents now = [] ∧
    clientEvents (now ++ between.flatten ++ later) ≠ [] := by
  obtain ⟨⟨d, ⟨now, d₁⟩, ⟨between, d₂⟩, later, d₃⟩, runs, passes⟩ := exists_of_any
    (x := do
      let opened ← Machine.run demo .start openingTurns
      let first ← demo opened.2 (.alive, .connack 0)
      let others ← Machine.run demo first.2 [(.receive, .connack 0)]
      let second ← demo others.2 (.alive, .connack 0)
      return (opened.2, first, others, second))
    (p := fun r => r.1.alive = .sleeping ∧ r.2.1.2.alive = .sleeping ∧
      (clientEvents r.2.1.1).length = 0)
    (by decide +kernel)
  obtain ⟨opened, run, runs⟩ := bind_eq_ok runs
  obtain ⟨first, one, runs⟩ := bind_eq_ok runs
  obtain ⟨others, more, runs⟩ := bind_eq_ok runs
  obtain ⟨second, two, same⟩ := bind_eq_ok runs
  cases same
  obtain ⟨asleep, goes, silent⟩ := of_decide_eq_true passes
  have speaks := alive_speaks ((Machine.Runs.of_run run).reachable .start) asleep one goes
    (.of_run more) (by simp) two
  exact ⟨_, _, _, _, _, _, _, one, .of_run more, two, List.length_eq_zero_iff.mp silent, speaks⟩

end SeparateTasks

end RojalMQTT
