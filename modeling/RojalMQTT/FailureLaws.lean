import RojalMQTT.TimerLaws

/-! What an action that fails leaves behind. -/

namespace RojalMQTT

open Library

theorem actionConnect_buffer {env : Env} {connectPtr : Ptr MQTTConnect}
    (idle : s.state = .disconnected)
    (h : actionConnect env (some connectPtr) (some s) = .ok (o, some s')) :
    s'.buffer = none ↔ s.buffer = none := by
  obtain ⟨buffer, kept, ⟨-, -, same⟩ | ⟨_, _, -, -, -, -, -, ⟨-, -, same⟩ | ⟨_, -, -, -, same⟩⟩⟩ :=
    actionConnect_spec idle h
  all_goals
    obtain rfl := Option.some.inj same
    exact kept

def TimerKept (s : MQTTSharedData) : Prop :=
  s.keepaliveInMs = int32Min ∨ (0 ≤ s.keepaliveInMs ∧ 0 ≤ s.timeToNextPingInMs)

theorem timerKept_rule :
    TimerRule fun keepalive timer => keepalive = int32Min ∨ (0 ≤ keepalive ∧ 0 ≤ timer) where
  initialised := .inr ⟨Int.le_refl 0, Int.le_refl 0⟩
  connected keepalive := (connectedKeepalive_kept keepalive).imp_right fun h => ⟨h.1, Int.le_refl 0⟩
  restarts _ _ := .imp_right fun h => ⟨h.1, h.1⟩

theorem timerKept_of_reachable (h : Machine.Reachable api none (some s)) : TimerKept s := by
  refine h.inv (I := fun g => ∀ s ∈ g, TimerKept s) (by simp) ?_ s rfl
  rintro g ⟨env, call⟩ a g' before step
  refine timerKept_rule.of_api step before fun s hs action _ elapsed t _ _ enabled left => ?_
  exact .inr ⟨((before s hs).resolve_left enabled).1, timeLeft_nonneg left⟩

def MQTTAction.Talks : MQTTAction → Prop
  | .connect _ | .disconnect | .publish _ | .subscribe _ | .keepalive _ => True
  | .init _ | .parseInputStream _ | .other => False

def MQTTAction.Counts : MQTTAction → Prop
  | .publish _ | .subscribe _ => True
  | _ => False

structure Undisturbed (action : MQTTAction) (inputs : List Mem) (s s' : MQTTSharedData) : Prop where
  state : s'.state = s.state ∨ s'.state = inputs.foldl stateAfter s.state
  timer : s'.timeToNextPingInMs ≤ s.timeToNextPingInMs ∨
    (inputs ≠ [] ∧ s'.timeToNextPingInMs = s.keepaliveInMs)
  keepalive : s'.keepaliveInMs = s.keepaliveInMs
  subscribeStatus : s'.subscribeStatus = s.subscribeStatus
  callbacks : s'.connectedCbFptr = s.connectedCbFptr ∧ s'.subscribeCbFptr = s.subscribeCbFptr
  buffer : (s'.buffer = none ↔ s.buffer = none) ∧ s'.bufferSize = s.bufferSize
  outFptr : s'.outFptr = s.outFptr
  cntr : s'.mqttPacketCntr = s.mqttPacketCntr ∨
    (action.Counts ∧ s.state = .connected ∧ s'.mqttPacketCntr = s.mqttPacketCntr + 1)

theorem Undisturbed.refl (action : MQTTAction) (s : MQTTSharedData) (inputs : List Mem) :
    Undisturbed action inputs s s :=
  ⟨.inl rfl, .inl (Int.le_refl _), rfl, rfl, ⟨rfl, rfl⟩, ⟨Iff.rfl, rfl⟩, rfl, .inl rfl⟩

theorem Undisturbed.received {action : MQTTAction} (h : Undisturbed action [] s t)
    (inputs : List Mem) : Undisturbed action inputs s (t.received inputs) := by
  have state : t.state = s.state := h.state.elim id id
  refine ⟨.inr ?_, ?_, h.keepalive, h.subscribeStatus, h.callbacks, h.buffer, h.outFptr, h.cntr⟩
  · rw [← state]
    rfl
  · cases inputs with
    | nil => exact h.timer.imp_right fun some => absurd rfl some.1
    | cons input inputs => exact .inr ⟨nofun, h.keepalive⟩

theorem Sends.failed (h : Sends env s data sentOk o s') (fails : o.status ≠ .successfull) :
    s' = s.received env.meanwhile := by
  cases h with
  | accepted received h => exact absurd rfl fails
  | refused received h fail => rfl

theorem Encoded.undisturbed {action : MQTTAction} (counts : action.Counts)
    (connected : s.state = .connected) (h : Encoded env s forms sentOk o g')
    (fails : o.status ≠ .successfull) :
    ∃ s', g' = some s' ∧ Undisturbed action env.meanwhile s s' := by
  obtain ⟨buffer, kept, result⟩ := h
  have counted : Undisturbed action [] s (s.encoded (s.mqttPacketCntr + 1) buffer) :=
    ⟨.inl rfl, .inl (Int.le_refl _), rfl, rfl, ⟨rfl, rfl⟩, ⟨kept, rfl⟩, rfl,
      .inr ⟨counts, connected, rfl⟩⟩
  rcases result with ⟨_, _, rfl⟩ | ⟨data, s', _, rfl, sends⟩
  · exact ⟨_, rfl, { counted with timer := .inl (Int.le_refl _), state := .inl rfl }⟩
  · refine ⟨s', rfl, ?_⟩
    rw [sends.failed fails]
    exact counted.received _

theorem Undisturbed.expired {t : Int} (action : MQTTAction) (kept : TimerKept s)
    (enabled : s.keepaliveInMs ≠ int32Min) (due : t ≤ 0) :
    Undisturbed action [] s { s with timeToNextPingInMs := t } := by
  obtain ⟨_, timer⟩ := kept.resolve_left enabled
  exact { Undisturbed.refl action s [] with timer := .inl (Int.le_trans due timer) }

/-- An action that fails leaves the session alone, whichever of its exits it took. -/
theorem failed_undisturbed {env : Env} {action : MQTTAction}
    (reachable : Machine.Reachable api none (some s)) (out : s.outFptr ≠ none) (talks : action.Talks)
    (run : mqtt (some s) (env, action) = .ok (o, g'))
    (fails : o.status ≠ .successfull) (notEarly : o.status ≠ .pingNotSend) :
    ∃ s', g' = some s' ∧ Undisturbed action env.meanwhile s s' := by
  have unchanged : ∃ s', some s = some s' ∧ Undisturbed action env.meanwhile s s' :=
    ⟨s, rfl, .refl action s _⟩
  cases action with
  | disconnect =>
    rcases actionDisconnect_cases run with ⟨_, _, _, rfl⟩ | ⟨_, _, s', rfl, sends⟩
    · exact unchanged
    · refine ⟨s', rfl, ?_⟩
      rw [sends.failed fails]
      exact (Undisturbed.refl _ s []).received _
  | connect actionPtr =>
    rcases actionConnect_cases run with ⟨_, _, rfl⟩ | ⟨_, _, rfl⟩ |
        ⟨idle, connectPtr, buffer, rfl, result⟩
    · exact unchanged
    · exact unchanged
    · rcases result with ⟨_, _, rfl⟩ | ⟨data, events, _, _, _, ⟨_, _, rfl⟩ | ⟨c, _, _, ok, _⟩⟩
      · have kept := actionConnect_buffer idle run
        exact ⟨_, rfl, { Undisturbed.refl _ s _ with
          state := .inl idle.symm, buffer := ⟨kept, rfl⟩ }⟩
      · have kept := actionConnect_buffer idle run
        exact ⟨_, rfl, { (Undisturbed.refl _ s []).received env.meanwhile with
          state := .inl idle.symm, buffer := ⟨kept, rfl⟩ }⟩
      · exact absurd ok fails
  | publish actionPtr =>
    rcases actionPublish_spec run with ⟨_, _, rfl⟩ | ⟨connected, p, _, encoded⟩
    · exact unchanged
    · exact encoded.undisturbed trivial connected fails
  | subscribe actionPtr =>
    rcases actionSubscribe_spec run with ⟨_, _, rfl⟩ | ⟨connected, p, _, encoded⟩
    · exact unchanged
    · exact encoded.undisturbed trivial connected fails
  | keepalive actionPtr =>
    have kept := timerKept_of_reachable reachable
    rcases actionKeepalive_cases run with ⟨_, rfl, _⟩ | ⟨elapsed, t, _, _, enabled, _, result⟩
    · exact unchanged
    · rcases result with ⟨_, rfl, ⟨_, early⟩ | none⟩ | ⟨due, _, s', rfl, sends⟩
      · exact absurd early notEarly
      · exact absurd none out
      · refine ⟨s', rfl, ?_⟩
        rw [sends.failed fails]
        exact (Undisturbed.expired _ kept enabled due).received _
  | init _ => exact absurd talks id
  | parseInputStream _ => exact absurd talks id
  | other => exact absurd talks id

def Env.deaf : Env := { Env.prompt with ret := fun _ => 0 }

theorem failed_undisturbed_sample : ∃ s',
    (mqtt (some MQTTSharedData.sample.initialised) (.deaf, .connect (some (some (.sample 60))))
      ).toOption.map (·.2) = some (some s') ∧
    Undisturbed (.connect (some (some (.sample 60)))) [] MQTTSharedData.sample.initialised s' := by
  have reachable : Machine.Reachable api none (some MQTTSharedData.sample.initialised) :=
    .step .start (i := (.prompt, .action (.init (some (some .sample))))) rfl
  obtain ⟨⟨o, g'⟩, run, fails⟩ := exists_of_any
    (x := mqtt (some MQTTSharedData.sample.initialised)
      (.deaf, .connect (some (some (.sample 60)))))
    (p := fun r => r.1.status = .serverUnavailabe) (by decide +kernel)
  have status : o.status = .serverUnavailabe := of_decide_eq_true fails
  have talks : MQTTAction.Talks (.connect (some (some (.sample 60)))) := trivial
  obtain ⟨s', rfl, undisturbed⟩ := failed_undisturbed reachable (Option.some_ne_none 1) talks run
    (by rw [status]; decide) (by rw [status]; decide)
  exact ⟨s', by rw [run]; rfl, undisturbed⟩

end RojalMQTT
