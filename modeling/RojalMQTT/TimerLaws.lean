import RojalMQTT.ApiLaws
import RojalMQTT.EncoderLaws

/-! What every action keeps of the ping timer. -/

namespace RojalMQTT

open Library

/-- A relation of `keepalive_in_ms` and `time_to_next_ping_in_ms` that a client begins
with, that a connection sets up, and that a timer has when it is loaded. -/
structure TimerRule (P : Int → Int → Prop) : Prop where
  initialised : P 0 0
  connected : ∀ keepalive, P (connectedKeepalive keepalive) 0
  restarts : ∀ keepalive timer, P keepalive timer → P keepalive keepalive

def Timed (P : Int → Int → Prop) (s : MQTTSharedData) : Prop :=
  P s.keepaliveInMs s.timeToNextPingInMs

def Ticks (P : Int → Int → Prop) (s : MQTTSharedData) (action : MQTTAction) : Prop :=
  ∀ elapsed t, action = .keepalive (some elapsed) → s.state = .connected →
    s.keepaliveInMs ≠ int32Min → timeLeft s.timeToNextPingInMs (int32 elapsed.toNat) = .ok t →
      P s.keepaliveInMs t

theorem connectedKeepalive_kept (keepalive : UInt16) :
    connectedKeepalive keepalive = int32Min ∨
      (0 ≤ connectedKeepalive keepalive ∧ connectedKeepalive keepalive < 2 ^ 31) := by
  have := keepalive.toNat_lt
  simp only [connectedKeepalive]
  split
  · right
    omega
  · exact .inl rfl

theorem timeLeft_nonneg {timeToNextPingInMs elapsed t : Int}
    (h : timeLeft timeToNextPingInMs elapsed = .ok t) : 0 ≤ t := by
  simp only [timeLeft] at h
  split at h
  · have := eq_of_int32Sub h
    omega
  · cases h
    omega

namespace TimerRule

variable {P : Int → Int → Prop} {s s' : MQTTSharedData} {env : Env}

theorem received (rule : TimerRule P) (h : Timed P s) (inputs : List Mem) :
    Timed P (s.received inputs) := by
  simp only [Timed, MQTTSharedData.received]
  split
  · exact h
  · exact rule.restarts _ _ h

theorem restartTimer (rule : TimerRule P) (h : Timed P s) : Timed P s.restartTimer :=
  rule.restarts _ _ h

theorem of_sends {sentOk : MQTTSharedData → MQTTSharedData} (rule : TimerRule P)
    (sends : Sends env s data sentOk o s') (before : Timed P s)
    (keep : ∀ s, Timed P s → Timed P (sentOk s)) : Timed P s' := by
  cases sends with
  | accepted received h => exact keep _ (rule.received before _)
  | refused received h fail => exact rule.received before _

theorem of_encoder {sentOk : MQTTSharedData → MQTTSharedData} (rule : TimerRule P)
    (h : EncoderStep env s sentOk o (some s')) (before : Timed P s)
    (keep : ∀ s, Timed P s → Timed P (sentOk s)) : Timed P s' := by
  obtain ⟨cntr, buffer, ⟨_, same⟩ | ⟨_, data, t, same, sends⟩⟩ := h
  · obtain rfl := Option.some.inj same
    exact before
  · obtain rfl := Option.some.inj same
    exact rule.of_sends sends before keep

theorem of_mqtt {action : MQTTAction} (rule : TimerRule P)
    (h : mqtt (some s) (env, action) = .ok (o, some s')) (before : Timed P s)
    (ticks : Ticks P s action) : Timed P s' := by
  cases action with
  | init actionPtr =>
    rcases actionPtr with _ | _ | p <;> cases h
    · exact before
    · exact rule.initialised
  | disconnect =>
    rcases actionDisconnect_cases h with ⟨_, _, _, same⟩ | ⟨_, _, t, same, sends⟩
    · obtain rfl := Option.some.inj same
      exact before
    · obtain rfl := Option.some.inj same
      exact rule.of_sends sends before fun _ kept => kept
  | connect actionPtr =>
    rcases actionConnect_cases h with ⟨_, _, same⟩ | ⟨_, _, same⟩ | ⟨_, connectPtr, buffer, _, result⟩
    · obtain rfl := Option.some.inj same
      exact before
    · obtain rfl := Option.some.inj same
      exact before
    · rcases result with ⟨_, _, same⟩ | ⟨data, events, _, _, _, ⟨_, _, same⟩ | ⟨c, _, _, _, same⟩⟩
      · obtain rfl := Option.some.inj same
        exact before
      · obtain rfl := Option.some.inj same
        exact rule.received before env.meanwhile
      · obtain rfl := Option.some.inj same
        exact rule.connected c.keepalive
  | publish actionPtr => exact rule.of_encoder (actionPublish_cases h) before fun _ => rule.restartTimer
  | subscribe actionPtr =>
    exact rule.of_encoder (actionSubscribe_cases h) before fun _ => rule.restartTimer
  | keepalive actionPtr =>
    rcases actionKeepalive_cases h with
      ⟨_, same, _⟩ | ⟨elapsed, t, rfl, connected, enabled, left, result⟩
    · obtain rfl := Option.some.inj same
      exact before
    · have ticking : Timed P { s with timeToNextPingInMs := t } :=
        ticks elapsed t rfl connected enabled left
      rcases result with ⟨_, same, _⟩ | ⟨_, _, s'', same, sends⟩
      · obtain rfl := Option.some.inj same
        exact ticking
      · obtain rfl := Option.some.inj same
        exact rule.of_sends sends ticking fun _ => rule.restartTimer
  | parseInputStream actionPtr =>
    obtain ⟨p, _, _, same⟩ := actionParseInputStream_cases h
    obtain rfl := Option.some.inj same
    exact rule.restartTimer (rule.received before _)
  | other =>
    cases h
    exact before

theorem of_api {g g' : Ptr MQTTSharedData} {call : ApiCall} (rule : TimerRule P)
    (h : api g (env, call) = .ok (a, g')) (before : ∀ s ∈ g, Timed P s)
    (ticks : ∀ s ∈ g, ∀ action ∈ call.asks env, Ticks P s action) : ∀ s ∈ g', Timed P s := by
  intro t ht
  obtain rfl := Option.mem_def.mp ht
  rcases api_acts h with ⟨_, _, rfl⟩ | ⟨action, asks, o, g₁, run, _, left⟩
  · exact before t rfl
  · obtain ⟨t₁, rfl, kept⟩ : ∃ t₁, g₁ = some t₁ ∧ (Timed P t₁ → Timed P t) := by
      rcases left with rfl | left
      · exact ⟨t, rfl, id⟩
      · obtain ⟨t₁, rfl, rfl⟩ := Option.map_eq_some_iff.mp left.symm
        exact ⟨t₁, rfl, id⟩
    apply kept
    cases found : call.finds env g with
    | none =>
      rw [found] at run
      rcases mqtt_none run with none | ⟨p, t₂, rfl, same, _⟩
      · cases none
      · obtain rfl := Option.some.inj same
        rcases p with _ | _ | p <;> cases run
        exact rule.initialised
    | some s₀ =>
      rw [found] at run
      cases call with
      | connect args =>
        obtain ⟨r, checked, rfl⟩ := Option.map_eq_some_iff.mp found
        rw [ApiCall.asks, checked] at asks
        cases asks
        exact rule.of_mqtt run rule.initialised fun _ _ same => by cases same
      | _ => exact rule.of_mqtt run (before s₀ found) (ticks s₀ found action asks)

end TimerRule

end RojalMQTT
