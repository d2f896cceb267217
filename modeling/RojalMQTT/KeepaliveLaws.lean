import RojalMQTT.EncoderLaws
import RojalMQTT.Library.Machine

/-! How long a connected client stays silent. -/

namespace RojalMQTT

open Library

def elapsedTime : MQTTAction → Nat
  | .keepalive (some elapsed) => elapsed.toNat
  | _ => 0

def silence (idle : Nat) : Event → Nat
  | .out _ _ => 0
  | _ => idle

def noteSilence (idle : Nat) (call : Env × MQTTAction) (o : Outcome) : Nat :=
  o.events.foldl silence (idle + elapsedTime call.2)

def SessionAction : MQTTAction → Prop
  | .keepalive elapsed => ∀ e ∈ elapsed, e.toNat < 2 ^ 31
  | .publish _ | .subscribe _ | .parseInputStream _ => True
  | _ => False

instance : DecidablePred SessionAction
  | .keepalive none => isTrue nofun
  | .keepalive (some e) => decidable_of_iff (e.toNat < 2 ^ 31) (by simp [SessionAction])
  | .publish _ | .subscribe _ | .parseInputStream _ => isTrue trivial
  | .disconnect | .connect _ | .init _ | .other => isFalse id

def Event.Taken : Event → Prop
  | .out data ret => ret = int32 data.length
  | _ => True

instance : DecidablePred Event.Taken
  | .out data ret => inferInstanceAs (Decidable (ret = int32 data.length))
  | .parsed _ | .connectedCb _ | .subscribeCb _ _ _ _ _ => isTrue trivial

def InSession (_ : Nat) (_ : Ptr MQTTSharedData) (call : Env × MQTTAction) (o : Outcome)
    (g' : Ptr MQTTSharedData) : Prop :=
  SessionAction call.2 ∧ (∀ e ∈ o.events, e.Taken) ∧ g'.map (·.state) = some .connected

instance : Decidable (InSession idle g call o g') := inferInstanceAs (Decidable (_ ∧ _ ∧ _))

/-- After ACTION_KEEPALIVE the client has been silent for less than `limit` ms. -/
def SilentBelow (limit : Nat) (idle : Nat) (_ : Ptr MQTTSharedData) (call : Env × MQTTAction)
    (o : Outcome) (_ : Ptr MQTTSharedData) : Prop :=
  match call.2 with
  | .keepalive _ => noteSilence idle call o < limit
  | _ => True

instance : ∀ call, Decidable (SilentBelow limit idle g call o g')
  | (env, .keepalive elapsed) =>
    inferInstanceAs (Decidable (noteSilence idle (env, .keepalive elapsed) o < limit))
  | (_, .disconnect) | (_, .connect _) | (_, .publish _) | (_, .subscribe _) | (_, .init _)
  | (_, .parseInputStream _) | (_, .other) => isTrue trivial

/-- Input is parsed no later than 500 ms after the last packet was handed out. -/
def ParsesEarly (idle : Nat) (call : Env × MQTTAction) : Prop :=
  match call.2 with
  | .parseInputStream _ => idle ≤ 500
  | _ => True

instance : ∀ call, Decidable (ParsesEarly idle call)
  | (_, .parseInputStream _) => inferInstanceAs (Decidable (idle ≤ 500))
  | (_, .disconnect) | (_, .connect _) | (_, .publish _) | (_, .subscribe _) | (_, .keepalive _)
  | (_, .init _) | (_, .other) => isTrue trivial

/-- The timer runs out before the silence has lasted for `limit` ms. -/
structure TimerCovers (limit : Nat) (idle : Nat) (s : MQTTSharedData) : Prop where
  connected : s.state = .connected
  out : s.outFptr ≠ none
  keepalive : s.keepaliveInMs = limit - 500
  silent : idle < limit
  covers : idle + s.timeToNextPingInMs ≤ limit

theorem silence_skip (idle : Nat) (e : Event) (h : e.IsCallback) : silence idle e = idle := by
  cases e <;> first | rfl | cases h

theorem Received.silence (r : Received inputs events) (idle : Nat) :
    events.foldl silence idle = idle := by
  rw [r.foldl_eq silence_skip]
  clear r
  induction inputs with
  | nil => rfl
  | cons input inputs ih => exact ih

theorem Sends.silence (h : Sends env s data sentOk o s') (idle : Nat) :
    o.events.foldl RojalMQTT.silence idle = 0 := by
  obtain ⟨events, received, eq⟩ := h.events_eq
  rw [eq, List.foldl_cons]
  exact received.silence 0

theorem Sends.taken (h : Sends env s data sentOk o s') (taken : ∀ e ∈ o.events, e.Taken) :
    s' = sentOk (s.received env.meanwhile) := by
  cases h with
  | accepted received h => rfl
  | refused received h fail => exact absurd (taken (.out data _) List.mem_cons_self) h

theorem timeLeft_eq {timeToNextPingInMs elapsed t : Int}
    (h : timeLeft timeToNextPingInMs elapsed = .ok t) (pos : 0 < t) :
    t = timeToNextPingInMs - elapsed := by
  simp only [timeLeft] at h
  split at h
  · exact eq_of_int32Sub h
  · cases h
    omega

section Step

variable {limit idle : Nat} {env : Env} {s : MQTTSharedData}

theorem TimerCovers.of_sends (sends : Sends env s data sentOk o s')
    (pos : 0 < limit) (out : s.outFptr ≠ none) (keepalive : s.keepaliveInMs = limit - 500)
    (taken : ∀ e ∈ o.events, e.Taken) (stays : s'.state = .connected)
    (restarts : ∀ s, (sentOk s).outFptr = s.outFptr ∧ (sentOk s).keepaliveInMs = s.keepaliveInMs ∧
      (sentOk s).timeToNextPingInMs = s.keepaliveInMs) :
    TimerCovers limit (o.events.foldl silence idle) s' := by
  rw [sends.silence]
  obtain rfl := sends.taken taken
  obtain ⟨out', keepalive', timer⟩ := restarts (s.received env.meanwhile)
  have same : (s.received env.meanwhile).keepaliveInMs = limit - 500 := keepalive
  refine ⟨stays, ?_, keepalive'.trans same, pos, ?_⟩
  · rw [out']
    exact out
  · rw [timer, same]
    omega

theorem covers_encoder {sentOk : MQTTSharedData → MQTTSharedData}
    (h : EncoderStep env s sentOk o g') (inv : TimerCovers limit idle s)
    (taken : ∀ e ∈ o.events, e.Taken) (stays : g'.map (·.state) = some .connected)
    (restarts : ∀ s, (sentOk s).outFptr = s.outFptr ∧ (sentOk s).keepaliveInMs = s.keepaliveInMs ∧
      (sentOk s).timeToNextPingInMs = s.keepaliveInMs) :
    ∃ s', g' = some s' ∧ TimerCovers limit (o.events.foldl silence idle) s' := by
  obtain ⟨cntr, buffer, ⟨rfl, rfl⟩ | ⟨_, data, s', rfl, sends⟩⟩ := h
  · exact ⟨_, rfl, inv.connected, inv.out, inv.keepalive, inv.silent, inv.covers⟩
  · have pos : 0 < limit := Nat.lt_of_le_of_lt (Nat.zero_le idle) inv.silent
    exact ⟨_, rfl, .of_sends sends pos inv.out inv.keepalive taken (Option.some.inj stays) restarts⟩

theorem covers_parse {actionPtr : Ptr (Ptr MQTTInputStream)}
    (h : actionParseInputStream actionPtr (some s) = .ok (o, g')) (inv : TimerCovers limit idle s)
    (early : idle ≤ 500) (stays : g'.map (·.state) = some .connected) :
    ∃ s', g' = some s' ∧ TimerCovers limit (o.events.foldl silence idle) s' := by
  obtain ⟨p, rfl, received, rfl⟩ := actionParseInputStream_cases h
  have keepalive := inv.keepalive
  rw [received.silence]
  refine ⟨_, rfl, Option.some.inj stays, inv.out, keepalive, inv.silent, ?_⟩
  simp only [MQTTSharedData.restartTimer, MQTTSharedData.received]
  omega

theorem covers_keepalive {actionPtr : Ptr UInt32}
    (h : actionKeepalive env actionPtr (some s) = .ok (o, g')) (inv : TimerCovers limit idle s)
    (pos : 1000 ≤ limit) (small : ∀ e ∈ actionPtr, e.toNat < 2 ^ 31)
    (taken : ∀ e ∈ o.events, e.Taken) (stays : g'.map (·.state) = some .connected) :
    noteSilence idle (env, .keepalive actionPtr) o < limit ∧ ∃ s', g' = some s' ∧
      TimerCovers limit (noteSilence idle (env, .keepalive actionPtr) o) s' := by
  have keepalive := inv.keepalive
  have covers := inv.covers
  rcases actionKeepalive_cases h with ⟨events, rfl, disabled⟩ |
      ⟨elapsed, t, rfl, connected, enabled, left, result⟩
  · obtain rfl : actionPtr = none := by
      rcases disabled with none | other | min
      · exact none
      · exact absurd inv.connected other
      · rw [int32Min] at min
        omega
    simp only [noteSilence, events, List.foldl_nil, elapsedTime, Nat.add_zero]
    exact ⟨inv.silent, s, rfl, inv⟩
  · have short := int32_of_lt (small elapsed rfl)
    rcases result with ⟨events, rfl, ⟨more, _⟩ | none⟩ | ⟨due, out, s', rfl, sends⟩
    · have split := timeLeft_eq left more
      simp only [noteSilence, events, List.foldl_nil, elapsedTime]
      rw [short] at split
      have below : idle + elapsed.toNat < limit := by omega
      refine ⟨below, _, rfl, connected, inv.out, keepalive, below, ?_⟩
      simp only
      omega
    · exact absurd none inv.out
    · simp only [noteSilence, sends.silence]
      refine ⟨by omega, s', rfl, ?_⟩
      rw [← sends.silence idle]
      exact .of_sends sends (by omega) out keepalive taken (Option.some.inj stays)
        fun _ => ⟨rfl, rfl, rfl⟩

theorem covers_connect {g₀ g₁ : Ptr MQTTSharedData} {c : MQTTConnect}
    (h : mqtt g₀ (env, .connect (some (some c))) = .ok (o, g₁)) (ok : o.status = .successfull)
    (enabled : 1 ≤ c.keepalive.toNat) :
    ∃ s, g₁ = some s ∧ TimerCovers (1000 * c.keepalive.toNat) 0 s := by
  rw [mqtt_connect] at h
  obtain ⟨s, rfl, out⟩ := actionConnect_ok h ok
  refine ⟨_, rfl, rfl, out, ?_, by omega, ?_⟩
  · simp only [MQTTSharedData.connected, connectedKeepalive]
    rw [if_pos (by omega)]
    omega
  · simp only [MQTTSharedData.connected]
    omega

end Step

/-- What the timer guarantees: if every input is parsed within 500 ms of the last
packet sent, a session never stays silent for its keepalive interval. -/
theorem silence_below_keepalive {g₀ g₁ : Ptr MQTTSharedData} {env₀ : Env} {c : MQTTConnect}
    {o₀ : Outcome} (connects : mqtt g₀ (env₀, .connect (some (some c))) = .ok (o₀, g₁))
    (ok : o₀.status = .successfull) (enabled : 1 ≤ c.keepalive.toNat)
    (calls : List (Env × MQTTAction))
    (session : Machine.Always mqtt noteSilence (fun idle g call o g' =>
      InSession idle g call o g' ∧ ParsesEarly idle call) 0 g₁ calls) :
    Machine.Always mqtt noteSilence (SilentBelow (1000 * c.keepalive.toNat)) 0 g₁ calls := by
  refine Machine.Always.of_step (I := fun idle g => ∃ s, g = some s ∧
    TimerCovers (1000 * c.keepalive.toNat) idle s) ?_ ?_ session
  · rintro idle _ ⟨env, action⟩ o g' step ⟨s, rfl, inv⟩ ⟨⟨allowed, taken, stays⟩, early⟩
    cases action with
    | publish actionPtr =>
      exact ⟨trivial, covers_encoder (actionPublish_cases step) inv taken stays fun _ =>
        ⟨rfl, rfl, rfl⟩⟩
    | subscribe actionPtr =>
      exact ⟨trivial, covers_encoder (actionSubscribe_cases step) inv taken stays fun _ =>
        ⟨rfl, rfl, rfl⟩⟩
    | parseInputStream actionPtr => exact ⟨trivial, covers_parse step inv early stays⟩
    | keepalive actionPtr => exact covers_keepalive step inv (by omega) allowed taken stays
    | _ => exact absurd allowed id
  · exact covers_connect connects ok enabled

def reports (elapsed : UInt32) : Env × MQTTAction := (.prompt, .keepalive (some elapsed))

def receivesPingresp : Env × MQTTAction :=
  (.prompt, .parseInputStream (some (some ⟨some (ofList [0xD0, 0] 0), 2⟩)))

theorem silence_below_keepalive_sample : ∃ o₀ g₁,
    mqtt (some .sample) (.prompt, .connect (some (some (.sample 60)))) = .ok (o₀, g₁) ∧
      Machine.Always mqtt noteSilence (SilentBelow 60000) 0 g₁
        [reports 0, receivesPingresp, reports 30000, reports 29000, reports 500] := by
  obtain ⟨⟨o₀, g₁⟩, connects, run⟩ := exists_of_any
    (x := mqtt (some .sample) (.prompt, .connect (some (some (.sample 60)))))
    (p := fun r => r.1.status = .successfull ∧ Machine.Always mqtt noteSilence
      (fun idle g call o g' => InSession idle g call o g' ∧ ParsesEarly idle call) 0 r.2
        [reports 0, receivesPingresp, reports 30000, reports 29000, reports 500])
    (by decide +kernel)
  obtain ⟨ok, session⟩ := of_decide_eq_true run
  exact ⟨o₀, g₁, connects, silence_below_keepalive connects ok (by decide) _ session⟩

theorem silence_overruns : ∃ o₀ g₁,
    mqtt (some .sample) (.prompt, .connect (some (some (.sample 1)))) = .ok (o₀, g₁) ∧
      o₀.status = .successfull ∧
      Machine.Always mqtt noteSilence InSession 0 g₁ [reports 0, reports 400, receivesPingresp,
        reports 400, receivesPingresp, reports 400] ∧
      ¬ Machine.Always mqtt noteSilence (SilentBelow 1000) 0 g₁ [reports 0, reports 400,
        receivesPingresp, reports 400, receivesPingresp, reports 400] := by
  obtain ⟨⟨o₀, g₁⟩, connects, run⟩ := exists_of_any
    (x := mqtt (some .sample) (.prompt, .connect (some (some (.sample 1)))))
    (p := fun r => r.1.status = .successfull ∧
      Machine.Always mqtt noteSilence InSession 0 r.2 [reports 0, reports 400, receivesPingresp,
        reports 400, receivesPingresp, reports 400] ∧
      ¬ Machine.Always mqtt noteSilence (SilentBelow 1000) 0 r.2 [reports 0, reports 400,
        receivesPingresp, reports 400, receivesPingresp, reports 400])
    (by decide +kernel)
  exact ⟨o₀, g₁, connects, of_decide_eq_true run⟩

/-- Each input restarts the timer although nothing was sent: past 500 ms of
silence one more input and one more report of time overrun the interval. -/
theorem late_parse_overruns {limit idle : Nat} {s : MQTTSharedData} {env : Env}
    {p : MQTTInputStream} (connected : s.state = .connected)
    (keepalive : s.keepaliveInMs = limit - 500) (pos : 1000 ≤ limit) (bounded : limit < 2 ^ 31)
    (stays : ∀ input ∈ p.data, stateAfter .connected input = .connected) (late : 500 < idle) :
    ¬ Machine.Always mqtt noteSilence (SilentBelow limit) idle (some s)
      [(env, .parseInputStream (some (some p))),
        (env, .keepalive (some (UInt32.ofNat (limit - 501))))] := by
  intro run
  obtain ⟨o, parse, received⟩ := actionParseInputStream_eq p s
  obtain ⟨_, run⟩ := (Machine.always_cons (t := some (s.received p.data.toList).restartTimer)
    parse).mp run
  have still : noteSilence idle (env, .parseInputStream (some (some p))) o = idle :=
    received.silence idle
  rw [still] at run
  have elapsed : (UInt32.ofNat (limit - 501)).toNat = limit - 501 := by
    rw [UInt32.toNat_ofNat']
    omega
  have left : timeLeft (limit - 500) (int32 (limit - 501)) = .ok 1 := by
    have one : (limit : Int) - 500 - (limit - 501 : Nat) = 1 := by omega
    rw [int32_of_lt (by omega), timeLeft, if_pos (by omega), int32Sub, one, if_pos (by decide)]
  have state : (s.received p.data.toList).restartTimer.state = .connected := by
    simp only [MQTTSharedData.restartTimer, MQTTSharedData.received, connected]
    cases hp : p.data with
    | none => rfl
    | some input => exact stays input hp
  have silent : ∃ s', mqtt (some (s.received p.data.toList).restartTimer)
      (env, .keepalive (some (UInt32.ofNat (limit - 501)))) = .ok (⟨.pingNotSend, []⟩, s') := by
    have keepalive' : (s.received p.data.toList).restartTimer.keepaliveInMs = limit - 500 :=
      keepalive
    have timer : (s.received p.data.toList).restartTimer.timeToNextPingInMs = limit - 500 :=
      keepalive
    simp only [mqtt, actionKeepalive, Ptr.deref_some, ok_bind]
    rw [if_pos state, if_pos (by rw [keepalive', int32Min]; omega), timer, elapsed, left, ok_bind,
      if_neg (by decide)]
    exact ⟨_, rfl⟩
  obtain ⟨s', silent⟩ := silent
  have below := ((Machine.always_cons silent).mp run).1
  simp only [SilentBelow, noteSilence, List.foldl_nil, elapsedTime, elapsed] at below
  omega

end RojalMQTT
