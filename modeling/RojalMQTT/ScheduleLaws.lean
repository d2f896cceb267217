import RojalMQTT.KeepaliveLaws
import RojalMQTT.OpeningLaws
import RojalMQTT.TimerLaws

/-! When a connected client pings. -/

namespace RojalMQTT

open Library

def Event.IsPingreq : Event → Prop
  | .out data _ => packetType data = some .pingreq
  | .parsed _ | .connectedCb _ | .subscribeCb _ _ _ _ _ => False

instance : DecidablePred Event.IsPingreq
  | .out data _ => inferInstanceAs (Decidable (packetType data = some .pingreq))
  | .parsed _ | .connectedCb _ | .subscribeCb _ _ _ _ _ => isFalse id

def pings (o : Outcome) : Nat := o.events.countP fun e => e.IsPingreq

def Event.Resets : Event → Prop
  | .out data ret => ret = int32 data.length
  | .parsed _ => True
  | .connectedCb _ | .subscribeCb _ _ _ _ _ => False

instance : DecidablePred Event.Resets
  | .out data ret => inferInstanceAs (Decidable (ret = int32 data.length))
  | .parsed _ => isTrue trivial
  | .connectedCb _ | .subscribeCb _ _ _ _ _ => isFalse id

def Resets (call : Env × MQTTAction) (o : Outcome) : Prop :=
  match call.2 with
  | .parseInputStream _ => True
  | _ => ∃ e ∈ o.events, e.Resets

instance : ∀ call, Decidable (Resets call o)
  | (_, .parseInputStream _) => isTrue trivial
  | (_, .disconnect) | (_, .connect _) | (_, .publish _) | (_, .subscribe _) | (_, .init _)
  | (_, .keepalive _) | (_, .other) => inferInstanceAs (Decidable (∃ e ∈ o.events, e.Resets))

/-- What happened since the last reset event. -/
structure PingHistory where
  /-- The times reported since then; none without a reset event since the connect. -/
  elapsed : Option Nat
  failing : Bool
  deriving DecidableEq

def PingHistory.connected : PingHistory := ⟨none, false⟩

def notePing (hist : PingHistory) (call : Env × MQTTAction) (o : Outcome) : PingHistory :=
  if Resets call o then { elapsed := some 0, failing := false }
  else
    { elapsed := hist.elapsed.map fun total => total + elapsedTime call.2
      failing := hist.failing || decide (0 < pings o) }

/-- Another `elapsed` ms make a ping due: there was no reset event, or the times since
the last one add up to the interval. -/
def Due (keepalive : Nat) (hist : PingHistory) (elapsed : Nat) : Prop :=
  ∀ total ∈ hist.elapsed, 1000 * keepalive - 500 ≤ total + elapsed

def StaysConnected (_ : PingHistory) (_ : Ptr MQTTSharedData) (call : Env × MQTTAction)
    (_ : Outcome) (g' : Ptr MQTTSharedData) : Prop :=
  SessionAction call.2 ∧ g'.map (·.state) = some .connected

theorem Received.pings (r : Received inputs events) :
    events.countP (fun e => e.IsPingreq) = 0 := by
  rw [List.countP_eq_zero]
  intro e mem
  cases e with
  | out data ret => exact absurd mem (r.not_out data ret)
  | _ => exact Bool.false_ne_true

theorem Sends.pings (h : Sends env s data sentOk o s') :
    RojalMQTT.pings o = if packetType data = some .pingreq then 1 else 0 := by
  obtain ⟨events, received, eq⟩ := h.events_eq
  rw [RojalMQTT.pings, eq, List.countP_cons, received.pings, Nat.zero_add]
  simp only [decide_eq_true_eq]
  rfl

theorem Received.resets_iff (r : Received inputs events) :
    (∃ e ∈ events, e.Resets) ↔ inputs ≠ [] := by
  cases r with
  | nil => simp
  | cons silent rest => exact iff_of_true ⟨_, List.mem_cons_self, trivial⟩ (List.cons_ne_nil _ _)

theorem Sends.timer {sentOk : MQTTSharedData → MQTTSharedData} (h : Sends env s data sentOk o s')
    (restarts : ∀ s, (sentOk s).timeToNextPingInMs = s.keepaliveInMs) :
    s'.timeToNextPingInMs =
      if ∃ e ∈ o.events, e.Resets then s.keepaliveInMs else s.timeToNextPingInMs := by
  cases h with
  | accepted received h => rw [restarts, if_pos ⟨_, List.mem_cons_self, h⟩, MQTTSharedData.received]
  | @refused events status received h fail =>
    have resets : (∃ e ∈ .out data (env.ret data) :: events, e.Resets) ↔ env.meanwhile ≠ [] := by
      rw [← received.resets_iff]
      simp [Event.Resets, h]
    simp only [MQTTSharedData.received, resets, List.isEmpty_iff, ite_not]

theorem pings_none {o : Outcome} (h : o.events = []) : pings o = 0 := by
  rw [pings, h, List.countP_nil]

theorem Encoded.pings (h : Encoded env s forms sentOk o g')
    (other : ∀ data, forms data → packetType data ≠ some .pingreq) : RojalMQTT.pings o = 0 := by
  obtain ⟨buffer, -, ⟨-, rfl, -⟩ | ⟨data, s', formed, -, sends⟩⟩ := h
  · exact pings_none rfl
  · rw [sends.pings, if_neg (other data formed)]

theorem FormsPublish.not_pingreq (h : FormsPublish s p data) :
    RojalMQTT.packetType data ≠ some .pingreq := by
  rw [h.packetType]
  decide

theorem FormsSubscribe.not_pingreq (h : FormsSubscribe s p data) :
    RojalMQTT.packetType data ≠ some .pingreq := by
  rw [h.packetType]
  decide

theorem packetType_pingreqPacket : packetType pingreqPacket = some .pingreq := by
  have type := packetType_header false false .qos0 .pingreq 0 []
  rwa [List.append_nil] at type

def PingHistory.timeToPing (keepalive : Nat) (hist : PingHistory) : Nat :=
  hist.elapsed.elim 0 fun total => 1000 * keepalive - 500 - total

theorem due_iff (keepalive : Nat) (hist : PingHistory) (elapsed : Nat) :
    Due keepalive hist elapsed ↔ hist.timeToPing keepalive - elapsed = 0 := by
  rw [Due, PingHistory.timeToPing]
  cases hist.elapsed with
  | none => simp
  | some total =>
    simp only [Option.mem_some_iff, forall_eq', Option.elim_some]
    omega

theorem timeToPing_later (keepalive : Nat) (hist : PingHistory) (elapsed : Nat) (failing : Bool) :
    PingHistory.timeToPing keepalive ⟨hist.elapsed.map fun total => total + elapsed, failing⟩ =
      hist.timeToPing keepalive - elapsed := by
  rw [PingHistory.timeToPing, PingHistory.timeToPing]
  cases hist.elapsed with
  | none => simp
  | some total =>
    simp only [Option.map_some, Option.elim_some]
    omega

theorem timeLeft_cast {timeToNextPingInMs elapsed : Nat} (timer : timeToNextPingInMs < 2 ^ 31)
    (small : elapsed < 2 ^ 31) :
    timeLeft timeToNextPingInMs (int32 elapsed) = .ok (timeToNextPingInMs - elapsed : Nat) := by
  rw [int32_of_lt small, timeLeft]
  split
  · rw [int32Sub, if_pos (by omega)]
    congr 1
    omega
  · congr 1
    omega

theorem connectedKeepalive_enabled {keepalive : UInt16} (enabled : 1 ≤ keepalive.toNat) :
    connectedKeepalive keepalive = (1000 * keepalive.toNat - 500 : Nat) := by
  rw [connectedKeepalive, if_pos (by omega)]
  omega

structure CountsDown (keepalive : UInt16) (hist : PingHistory) (s : MQTTSharedData) : Prop where
  connected : s.state = .connected
  out : s.outFptr ≠ none
  interval : s.keepaliveInMs = connectedKeepalive keepalive
  timer : 1 ≤ keepalive.toNat → s.timeToNextPingInMs = hist.timeToPing keepalive.toNat
  failing : hist.failing = true → hist.timeToPing keepalive.toNat = 0

section Step

variable {keepalive : UInt16} {hist : PingHistory} {env : Env} {s s' : MQTTSharedData}

theorem CountsDown.step {call : Env × MQTTAction} (inv : CountsDown keepalive hist s)
    (stays : s'.state = .connected) (out : s'.outFptr = s.outFptr)
    (same : s'.keepaliveInMs = s.keepaliveInMs)
    (timer : 1 ≤ keepalive.toNat → s'.timeToNextPingInMs = if Resets call o then s.keepaliveInMs
      else (hist.timeToPing keepalive.toNat - elapsedTime call.2 : Nat))
    (pinged : pings o = 0 ∨ hist.timeToPing keepalive.toNat - elapsedTime call.2 = 0) :
    CountsDown keepalive (notePing hist call o) s' := by
  have out' : s'.outFptr ≠ none := by
    rw [out]
    exact inv.out
  by_cases resets : Resets call o
  · rw [notePing, if_pos resets]
    refine ⟨stays, out', same.trans inv.interval, fun enabled => ?_, fun failing => ?_⟩
    · rw [timer enabled, if_pos resets, inv.interval, connectedKeepalive_enabled enabled,
        PingHistory.timeToPing, Option.elim_some, Nat.sub_zero]
    · cases failing
  · rw [notePing, if_neg resets]
    refine ⟨stays, out', same.trans inv.interval, fun enabled => ?_, fun failing => ?_⟩
    · rw [timer enabled, if_neg resets, timeToPing_later]
    · rw [timeToPing_later]
      rcases Bool.or_eq_true_iff.mp failing with before | now
      · rw [inv.failing before, Nat.zero_sub]
      · exact pinged.resolve_left (Nat.ne_of_gt (of_decide_eq_true now))

theorem CountsDown.idle {call : Env × MQTTAction} (inv : CountsDown keepalive hist s)
    (events : o.events = []) (reset : Resets call o ↔ ∃ e ∈ o.events, e.Resets)
    (timeless : 1 ≤ keepalive.toNat → elapsedTime call.2 = 0) :
    CountsDown keepalive (notePing hist call o) s := by
  refine inv.step inv.connected rfl rfl (fun enabled => ?_) (.inl (pings_none events))
  rw [if_neg (by simp [reset, events]), timeless enabled]
  exact inv.timer enabled

theorem counts_encoder {sentOk : MQTTSharedData → MQTTSharedData} {call : Env × MQTTAction}
    (h : Encoded call.1 s forms sentOk o g') (inv : CountsDown keepalive hist s)
    (other : ∀ data, forms data → packetType data ≠ some .pingreq)
    (stays : g'.map (·.state) = some .connected)
    (reset : Resets call o ↔ ∃ e ∈ o.events, e.Resets) (timeless : elapsedTime call.2 = 0)
    (restarts : ∀ s, (sentOk s).outFptr = s.outFptr ∧ (sentOk s).keepaliveInMs = s.keepaliveInMs ∧
      (sentOk s).timeToNextPingInMs = s.keepaliveInMs) :
    ∃ s', g' = some s' ∧ CountsDown keepalive (notePing hist call o) s' := by
  have silent := h.pings other
  obtain ⟨buffer, -, ⟨-, rfl, rfl⟩ | ⟨data, s', -, rfl, sends⟩⟩ := h
  · refine ⟨_, rfl, inv.step (Option.some.inj stays) rfl rfl (fun enabled => ?_) (.inl silent)⟩
    rw [if_neg (by simp [reset]), timeless]
    exact inv.timer enabled
  · refine ⟨s', rfl, inv.step (Option.some.inj stays) ?_ ?_ (fun enabled => ?_) (.inl silent)⟩
    · exact sends.field_eq fun s => (restarts s).1
    · exact sends.field_eq fun s => (restarts s).2.1
    · rw [sends.timer fun s => (restarts s).2.2, timeless, Nat.sub_zero, ← inv.timer enabled]
      simp only [reset]
      rfl

theorem counts_parse {actionPtr : Ptr (Ptr MQTTInputStream)}
    (h : actionParseInputStream actionPtr (some s) = .ok (o, g')) (inv : CountsDown keepalive hist s)
    (stays : g'.map (·.state) = some .connected) :
    ∃ s', g' = some s' ∧
      CountsDown keepalive (notePing hist (env, .parseInputStream actionPtr) o) s' := by
  obtain ⟨p, rfl, received, rfl⟩ := actionParseInputStream_cases h
  refine ⟨_, rfl, inv.step (Option.some.inj stays) rfl rfl (fun _ => ?_) (.inl received.pings)⟩
  have reset : Resets (env, .parseInputStream (some (some p))) o := trivial
  rw [if_pos reset]
  rfl

theorem CountsDown.timeLeft {elapsed : UInt32} (inv : CountsDown keepalive hist s)
    (enabled : 1 ≤ keepalive.toNat) (small : elapsed.toNat < 2 ^ 31) :
    RojalMQTT.timeLeft s.timeToNextPingInMs (int32 elapsed.toNat) =
      .ok (hist.timeToPing keepalive.toNat - elapsed.toNat : Nat) := by
  have bound : hist.timeToPing keepalive.toNat ≤ 1000 * keepalive.toNat - 500 := by
    rw [PingHistory.timeToPing]
    cases hist.elapsed with
    | none => exact Nat.zero_le _
    | some total => exact Nat.sub_le _ _
  have := keepalive.toNat_lt
  rw [inv.timer enabled]
  exact timeLeft_cast (by omega) small

theorem CountsDown.enabled_iff (inv : CountsDown keepalive hist s) :
    s.keepaliveInMs ≠ int32Min ↔ 1 ≤ keepalive.toNat := by
  rw [inv.interval, connectedKeepalive]
  split
  · refine iff_of_true ?_ (by omega)
    rw [int32Min]
    omega
  · exact iff_of_false (fun ne => ne rfl) (by omega)

theorem counts_keepalive {actionPtr : Ptr UInt32}
    (h : actionKeepalive env actionPtr (some s) = .ok (o, g')) (inv : CountsDown keepalive hist s)
    (small : ∀ e ∈ actionPtr, e.toNat < 2 ^ 31) (stays : g'.map (·.state) = some .connected) :
    ∃ s', g' = some s' ∧ CountsDown keepalive (notePing hist (env, .keepalive actionPtr) o) s' := by
  rcases actionKeepalive_cases h with ⟨events, rfl, idle⟩ |
      ⟨elapsed, t, rfl, connected, enabled, left, result⟩
  · -- nothing happens, and no time is told to a client that would count it
    refine ⟨s, rfl, inv.idle events Iff.rfl fun enabled => ?_⟩
    rcases idle with rfl | other | disabled
    · rfl
    · exact absurd inv.connected other
    · exact absurd disabled (inv.enabled_iff.mpr enabled)
  · have enabled := inv.enabled_iff.mp enabled
    obtain rfl := Except.ok.inj (left.symm.trans (inv.timeLeft enabled (small elapsed rfl)))
    rcases result with ⟨events, rfl, -⟩ | ⟨due, out, s', rfl, sends⟩
    · refine ⟨_, rfl, inv.step (Option.some.inj stays) rfl rfl (fun _ => ?_)
        (.inl (pings_none events))⟩
      rw [if_neg (by simp [Resets, events])]
      rfl
    · refine ⟨s', rfl, inv.step (Option.some.inj stays) ?_ ?_ (fun _ => ?_) (.inr ?_)⟩
      · exact sends.field_eq fun _ => rfl
      · exact sends.field_eq fun _ => rfl
      · exact sends.timer fun _ => rfl
      · rw [elapsedTime]
        omega

theorem counts_connect {g₀ g₁ : Ptr MQTTSharedData} {c : MQTTConnect}
    (h : mqtt g₀ (env, .connect (some (some c))) = .ok (o, g₁)) (ok : o.status = .successfull) :
    ∃ s, g₁ = some s ∧ CountsDown c.keepalive .connected s := by
  rw [mqtt_connect] at h
  obtain ⟨s, rfl, out⟩ := actionConnect_ok h ok
  exact ⟨_, rfl, rfl, out, rfl, fun _ => rfl, fun failing => by cases failing⟩

theorem counts_step {call : Env × MQTTAction} (h : mqtt (some s) call = .ok (o, g'))
    (inv : CountsDown keepalive hist s) (stays : StaysConnected hist (some s) call o g') :
    ∃ s', g' = some s' ∧ CountsDown keepalive (notePing hist call o) s' := by
  obtain ⟨env, action⟩ := call
  obtain ⟨allowed, stays⟩ := stays
  cases action with
  | publish actionPtr =>
    rcases actionPublish_spec h with ⟨-, rfl, rfl⟩ | ⟨_, p, -, encoded⟩
    · exact ⟨s, rfl, inv.idle rfl Iff.rfl fun _ => rfl⟩
    · exact counts_encoder encoded inv (fun _ => FormsPublish.not_pingreq) stays Iff.rfl rfl
        fun _ => ⟨rfl, rfl, rfl⟩
  | subscribe actionPtr =>
    rcases actionSubscribe_spec h with ⟨-, rfl, rfl⟩ | ⟨_, p, -, encoded⟩
    · exact ⟨s, rfl, inv.idle rfl Iff.rfl fun _ => rfl⟩
    · exact counts_encoder encoded inv (fun _ => FormsSubscribe.not_pingreq) stays Iff.rfl rfl
        fun _ => ⟨rfl, rfl, rfl⟩
  | parseInputStream actionPtr => exact counts_parse h inv stays
  | keepalive actionPtr => exact counts_keepalive h inv allowed stays
  | _ => exact absurd allowed id

theorem pings_disabled {call : Env × MQTTAction} (h : mqtt (some s) call = .ok (o, g'))
    (allowed : SessionAction call.2) (disabled : s.keepaliveInMs = int32Min) : pings o = 0 := by
  obtain ⟨env, action⟩ := call
  cases action with
  | publish actionPtr =>
    rcases actionPublish_spec h with ⟨-, rfl, -⟩ | ⟨_, p, -, encoded⟩
    · exact pings_none rfl
    · exact encoded.pings fun _ => FormsPublish.not_pingreq
  | subscribe actionPtr =>
    rcases actionSubscribe_spec h with ⟨-, rfl, -⟩ | ⟨_, p, -, encoded⟩
    · exact pings_none rfl
    · exact encoded.pings fun _ => FormsSubscribe.not_pingreq
  | parseInputStream actionPtr =>
    obtain ⟨p, -, received, -⟩ := actionParseInputStream_cases h
    exact received.pings
  | keepalive actionPtr =>
    rcases actionKeepalive_cases h with ⟨events, -⟩ | ⟨_, _, _, _, enabled, -⟩
    · exact pings_none events
    · exact absurd disabled enabled
  | _ => exact absurd allowed id

theorem CountsDown.pings {elapsed : UInt32} (inv : CountsDown keepalive hist s) (env : Env)
    (enabled : 1 ≤ keepalive.toNat) (small : elapsed.toNat < 2 ^ 31) :
    ∃ o g', mqtt (some s) (env, .keepalive (some elapsed)) = .ok (o, g') ∧
      (pings o = 1 ↔ Due keepalive.toNat hist elapsed.toNat) ∧
      (¬ Due keepalive.toNat hist elapsed.toNat → o = ⟨.pingNotSend, []⟩) := by
  obtain ⟨o, s', run, result⟩ := actionKeepalive_ran env inv.connected (inv.enabled_iff.mpr enabled)
    (inv.timeLeft enabled small)
  refine ⟨o, some s', run, ?_⟩
  rw [due_iff]
  rcases result with ⟨early, rfl, -⟩ | ⟨-, out, -⟩ | ⟨due, -, sends⟩
  · exact ⟨iff_of_false (by simp [RojalMQTT.pings]) (by omega), fun _ => rfl⟩
  · exact absurd out inv.out
  · have once := sends.pings
    rw [if_pos packetType_pingreqPacket] at once
    exact ⟨iff_of_true once (by omega), fun early => absurd (by omega) early⟩

end Step

structure OnSchedule (keepalive : Nat) (hist : PingHistory) (g : Ptr MQTTSharedData) : Prop where
  disabled : keepalive = 0 → ∀ call o g', SessionAction call.2 → mqtt g call = .ok (o, g') →
    pings o = 0
  pings : 1 ≤ keepalive → ∀ env elapsed, elapsed.toNat < 2 ^ 31 →
    ∃ o g', mqtt g (env, .keepalive (some elapsed)) = .ok (o, g') ∧
      (pings o = 1 ↔ Due keepalive hist elapsed.toNat) ∧
      (¬ Due keepalive hist elapsed.toNat → o.status = .pingNotSend ∧ o.events = [])
  retries : 1 ≤ keepalive → hist.failing = true → ∀ env elapsed, elapsed.toNat < 2 ^ 31 →
    ∃ o g', mqtt g (env, .keepalive (some elapsed)) = .ok (o, g') ∧ RojalMQTT.pings o = 1

/-- As long as a session lasts, its pings come when they are due. -/
theorem pings_onSchedule {g₀ g₁ g : Ptr MQTTSharedData} {env₀ : Env} {c : MQTTConnect}
    {o₀ : Outcome} {hist : PingHistory}
    (connects : mqtt g₀ (env₀, .connect (some (some c))) = .ok (o₀, g₁))
    (ok : o₀.status = .successfull)
    (run : Machine.Reaches mqtt notePing StaysConnected .connected g₁ hist g) :
    OnSchedule c.keepalive.toNat hist g := by
  obtain ⟨s, rfl, inv⟩ : ∃ s, g = some s ∧ CountsDown c.keepalive hist s := by
    refine run.inv (I := fun hist g => ∃ s, g = some s ∧ CountsDown c.keepalive hist s)
      (counts_connect connects ok) ?_
    rintro hist _ call o g' ⟨s, rfl, inv⟩ step stays
    exact counts_step step inv stays
  constructor
  case disabled =>
    intro zero call o g' allowed step
    refine pings_disabled step allowed ?_
    rw [inv.interval, connectedKeepalive, if_neg (by omega)]
  case pings =>
    intro enabled env elapsed small
    obtain ⟨o, g', step, due, early⟩ := inv.pings env enabled small
    refine ⟨o, g', step, due, fun notDue => ?_⟩
    rw [early notDue]
    exact ⟨rfl, rfl⟩
  case retries =>
    intro enabled failing env elapsed small
    obtain ⟨o, g', step, due, -⟩ := inv.pings env enabled small
    refine ⟨o, g', step, due.mpr ?_⟩
    rw [due_iff, inv.failing failing, Nat.zero_sub]

theorem pings_onSchedule_sample : ∃ g₁ g,
    Machine.Reaches mqtt notePing StaysConnected .connected g₁ ⟨some 30000, false⟩ g ∧
      OnSchedule 60 ⟨some 30000, false⟩ g := by
  obtain ⟨⟨⟨o₀, g₁⟩, ⟨o₁, g₂⟩, ⟨o₂, g₃⟩⟩, run, passes⟩ := exists_of_any
    (x := do
      let connected ← mqtt (some .sample) (.prompt, .connect (some (some (.sample 60))))
      let pinged ← mqtt connected.2 (reports 0)
      let waited ← mqtt pinged.2 (reports 30000)
      return (connected, pinged, waited))
    (p := fun ((o₀, g₁), (o₁, g₂), (o₂, g₃)) => o₀.status = .successfull ∧
      g₂.map (·.state) = some .connected ∧ g₃.map (·.state) = some .connected ∧
      notePing (notePing .connected (reports 0) o₁) (reports 30000) o₂ = ⟨some 30000, false⟩)
    (by decide +kernel)
  obtain ⟨_, connects, run⟩ := bind_eq_ok run
  obtain ⟨_, pinged, run⟩ := bind_eq_ok run
  obtain ⟨_, waited, run⟩ := bind_eq_ok run
  cases run
  obtain ⟨ok, first, second, hist⟩ := of_decide_eq_true passes
  have small (e : Nat) (h : e < 2 ^ 31) : SessionAction (reports (UInt32.ofNat e)).2 := by
    rintro _ ⟨⟩
    rw [UInt32.toNat_ofNat']
    omega
  have reaches : Machine.Reaches mqtt notePing StaysConnected .connected g₁ _ g₃ :=
    .step (.step .start pinged ⟨small 0 (by decide), first⟩) waited ⟨small 30000 (by decide), second⟩
  rw [hist] at reaches
  exact ⟨g₁, g₃, reaches, pings_onSchedule connects ok reaches⟩

def TimerBounded (keepalive timer : Int) : Prop :=
  keepalive = int32Min ∨ (0 ≤ timer ∧ timer ≤ keepalive ∧ keepalive < 2 ^ 31)

def TimeFits (g : Ptr MQTTSharedData) (call : Env × ApiCall) : Prop :=
  ∀ s ∈ g, s.state = .connected → s.keepaliveInMs ≠ int32Min →
    ∀ action ∈ call.2.asks call.1, elapsedTime action < 2 ^ 31

def ReachedInTime (s : MQTTSharedData) : Prop :=
  Machine.Reaches api (fun _ _ _ => ()) (fun _ g call _ _ => TimeFits g call) () none () (some s)

def AttemptsPing (s : MQTTSharedData) (o : Outcome) : Prop :=
  (∃ e ∈ o.events, e.IsPingreq) ∨ (s.outFptr = none ∧ o.status = .invalidArgument)

/-- What ACTION_KEEPALIVE should do to the timer.  It only rises with a ping that is taken,
or where the receiving thread has loaded it meanwhile. -/
structure TimerSound (elapsed : UInt32) (s : MQTTSharedData) (o : Outcome) (s' : MQTTSharedData) :
    Prop where
  bounded : 0 ≤ s'.timeToNextPingInMs ∧ s'.timeToNextPingInMs ≤ s'.keepaliveInMs
  falls : s'.timeToNextPingInMs ≤ s.timeToNextPingInMs ∨ (∃ e ∈ o.events, e.IsPingreq ∧ e.Taken) ∨
    ∃ input, .parsed input ∈ o.events
  attempts : s.timeToNextPingInMs ≤ elapsed.toNat → AttemptsPing s o

def KeepsTime (env : Env) (elapsed : UInt32) (s : MQTTSharedData) : Prop :=
  ∃ o s', mqtt (some s) (env, .keepalive (some elapsed)) = .ok (o, some s') ∧
    TimerSound elapsed s o s'

theorem timeLeft_le {timeToNextPingInMs t : Int} {elapsed : Nat} (timer : 0 ≤ timeToNextPingInMs)
    (small : elapsed < 2 ^ 31) (h : timeLeft timeToNextPingInMs (int32 elapsed) = .ok t) :
    t ≤ timeToNextPingInMs := by
  rw [int32_of_lt small, timeLeft] at h
  split at h
  · have := eq_of_int32Sub h
    omega
  · cases h
    exact timer

theorem timerBounded_rule : TimerRule TimerBounded where
  initialised := .inr ⟨Int.le_refl 0, Int.le_refl 0, by decide⟩
  connected keepalive :=
    (connectedKeepalive_kept keepalive).imp_right fun h => ⟨Int.le_refl 0, h.1, h.2⟩
  restarts _ _ := .imp_right fun h => ⟨Int.le_trans h.1 h.2.1, Int.le_refl _, h.2.2⟩

theorem ReachedInTime.timed {s : MQTTSharedData} (reached : ReachedInTime s) :
    Timed TimerBounded s := by
  refine reached.inv (I := fun _ g => ∀ s ∈ g, Timed TimerBounded s) (by simp) ?_ s rfl
  rintro ⟨⟩ g ⟨env, call⟩ a g' before step fits
  refine timerBounded_rule.of_api step before fun s hs action asks elapsed t same connected enabled
    left => ?_
  have small := fits s hs connected enabled action asks
  rw [same] at small
  obtain ⟨timer, below, bound⟩ := (before s hs).resolve_left enabled
  exact .inr ⟨timeLeft_nonneg left, Int.le_trans (timeLeft_le timer small left) below, bound⟩

section Tick

variable {s : MQTTSharedData} {elapsed : UInt32}

theorem keepsTime_of_small (env : Env) (timed : Timed TimerBounded s) (connected : s.state = .connected)
    (enabled : s.keepaliveInMs ≠ int32Min) (small : elapsed.toNat < 2 ^ 31) :
    KeepsTime env elapsed s := by
  obtain ⟨nonneg, below, bound⟩ := timed.resolve_left enabled
  obtain ⟨timer, same⟩ := Int.eq_ofNat_of_zero_le nonneg
  have fits : timer < 2 ^ 31 := by omega
  have left := timeLeft_cast fits small
  rw [← same] at left
  obtain ⟨o, s', run, result⟩ := actionKeepalive_ran env connected enabled left
  refine ⟨o, s', run, ?_⟩
  have fall : ((timer - elapsed.toNat : Nat) : Int) ≤ s.timeToNextPingInMs := by omega
  have stays : 0 ≤ ((timer - elapsed.toNat : Nat) : Int) ∧
      ((timer - elapsed.toNat : Nat) : Int) ≤ s.keepaliveInMs := by omega
  rcases result with ⟨early, rfl, rfl⟩ | ⟨_, out, rfl, rfl⟩ | ⟨_, out, sends⟩
  · exact ⟨stays, .inl fall, fun late => absurd early (by omega)⟩
  · exact ⟨stays, .inl fall, fun _ => .inr ⟨out, rfl⟩⟩
  · have timer' := sends.timer fun _ => rfl
    have interval : s'.keepaliveInMs = s.keepaliveInMs := sends.field_eq fun _ => rfl
    obtain ⟨events, received, happened⟩ := sends.events_eq
    have ping : Event.IsPingreq (.out pingreqPacket (env.ret pingreqPacket)) :=
      packetType_pingreqPacket
    refine ⟨?_, ?_, fun _ => .inl ⟨_, by rw [happened]; exact List.mem_cons_self, ping⟩⟩
    · rw [timer', interval]
      split
      · exact ⟨Int.le_trans nonneg below, Int.le_refl _⟩
      · exact stays
    · rw [timer']
      split
      case isTrue reset =>
        obtain ⟨e, mem, resets⟩ := reset
        cases e with
        | out data ret =>
          obtain rfl := sends.out_eq mem
          exact .inr (.inl ⟨_, mem, packetType_pingreqPacket, resets⟩)
        | parsed input => exact .inr (.inr ⟨input, mem⟩)
        | _ => exact absurd resets id
      case isFalse => exact .inl fall

theorem not_keepsTime_of_large (env : Env) (timed : Timed TimerBounded s)
    (connected : s.state = .connected) (enabled : s.keepaliveInMs ≠ int32Min)
    (large : 2 ^ 31 ≤ elapsed.toNat) : ¬ KeepsTime env elapsed s := by
  rintro ⟨o, s', run, sound⟩
  obtain ⟨nonneg, -⟩ := timed.resolve_left enabled
  have negative : int32 elapsed.toNat = elapsed.toNat - 2 ^ 32 := by
    have := elapsed.toNat_lt
    rw [int32, Nat.mod_eq_of_lt (by omega), if_neg (by omega)]
  have below := elapsed.toNat_lt
  have run : actionKeepalive env (some elapsed) (some s) = .ok (o, some s') := run
  rcases actionKeepalive_cases run with ⟨_, _, idle⟩ | ⟨_, t, same, -, -, left, result⟩
  · rcases idle with none | other | disabled
    · cases none
    · exact other connected
    · exact enabled disabled
  · cases same
    rw [negative, timeLeft, if_pos (by omega)] at left
    have rises := eq_of_int32Sub left
    rcases result with ⟨events, same, -⟩ | ⟨due, -⟩
    · obtain rfl := Option.some.inj same
      rcases sound.falls with falls | ⟨e, mem, -⟩ | ⟨input, mem⟩
      · simp only at falls
        omega
      · rw [events] at mem
        cases mem
      · rw [events] at mem
        cases mem
    · omega

end Tick

/-- ACTION_KEEPALIVE treats the timer as it should exactly if the time passed fits an
`int32_t`, wherever all times before it did. -/
theorem keepsTime_iff (env : Env) (elapsed : UInt32) {s : MQTTSharedData}
    (reached : ReachedInTime s) (connected : s.state = .connected)
    (enabled : s.keepaliveInMs ≠ int32Min) :
    KeepsTime env elapsed s ↔ elapsed.toNat < 2 ^ 31 := by
  refine ⟨fun keeps => ?_, keepsTime_of_small env reached.timed connected enabled⟩
  by_contra large
  exact not_keepsTime_of_large env reached.timed connected enabled (Nat.not_lt.mp large) keeps

theorem exists_connected : ∃ s, ReachedInTime s ∧ s.state = .connected ∧
    s.keepaliveInMs = 59500 := by
  obtain ⟨⟨a, g⟩, connects, passes⟩ := exists_of_any
    (x := api (some MQTTSharedData.sample.initialised)
      (.prompt, .action (.connect (some (some (.sample 60))))))
    (p := fun r => r.2.any fun s => s.state = .connected ∧ s.keepaliveInMs = 59500)
    (by decide +kernel)
  obtain ⟨s, rfl, passes⟩ := (Option.any_eq_true _ _).mp passes
  have initialises : api none (.prompt, .action (.init (some (some .sample)))) =
      .ok (⟨true, []⟩, some MQTTSharedData.sample.initialised) := rfl
  refine ⟨s, .step (.step .start initialises ?_) connects ?_, of_decide_eq_true passes⟩
  · intro s none
    cases none
  · rintro _ ⟨⟩ connected
    cases connected

theorem keepsTime_iff_sample : ∃ s, s.keepaliveInMs = 59500 ∧
    (KeepsTime .prompt 1000 s ↔ (1000 : UInt32).toNat < 2 ^ 31) := by
  obtain ⟨s, reached, connected, interval⟩ := exists_connected
  refine ⟨s, interval, keepsTime_iff .prompt 1000 reached connected ?_⟩
  rw [interval]
  decide

theorem keepalive_countsUp : ∃ s, ReachedInTime s ∧ s.state = .connected ∧
    s.keepaliveInMs ≠ int32Min ∧ ¬ KeepsTime .prompt 4294967295 s := by
  obtain ⟨s, reached, connected, interval⟩ := exists_connected
  have enabled : s.keepaliveInMs ≠ int32Min := by
    rw [interval]
    decide
  exact ⟨s, reached, connected, enabled,
    not_keepsTime_of_large _ reached.timed connected enabled (by decide)⟩

end RojalMQTT
