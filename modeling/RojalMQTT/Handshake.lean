import RojalMQTT.OpeningLaws

/-! `mqtt_connect` and the receiving thread, from the CONNECT on, step by step. -/

namespace RojalMQTT

open Library

/-- Where `mqtt_connect` stands: inside `out_fptr`, behind it, before it writes the
state, in its loop, in `mqtt_sleep`, before the value of its result is taken, and
behind that. -/
inductive Stage
  | sending
  | sent
  | timed
  | waiting (timeout : Nat)
  | sleeping (timeout : Nat)
  | returning
  | returned (ret : Bool)

structure Opening where
  taken : Bool
  keepalive : UInt16
  timeoutInSec : UInt8

def Opening.step (c : Opening) (s : MQTTSharedData) : Stage → Option (Stage × MQTTSharedData)
  | .sending => some (.sent, s)
  | .sent =>
    if c.taken then
      some (.timed, { s with
        keepaliveInMs := connectedKeepalive c.keepalive, timeToNextPingInMs := 0 })
    else some (.returning, { s with state := .disconnected })
  | .timed => some (.waiting (sleeps c.timeoutInSec), { s with state := .connected })
  | .waiting timeout =>
    if timeout ≠ 0 ∧ s.state ≠ .connected then some (.sleeping (timeout - 1), s)
    else some (.returning, s)
  | .sleeping timeout => some (.waiting timeout, s)
  | .returning => some (.returned (s.state = .connected), s)
  | .returned _ => none

structure Handshake where
  stage : Stage
  shared : MQTTSharedData
  pending : List Mem

inductive Party
  | sender
  | receiver

def handshake (c : Opening) : Machine Handshake Party (List Event) Unit
  | h, .sender => match c.step h.shared h.stage with
    | none => .error ()
    | some (stage, shared) => .ok ([], { h with stage, shared })
  | h, .receiver => match h.pending with
    | [] => .error ()
    | input :: pending => match receiveAll [input] (some h.shared) with
      | .ok (events, some shared) => .ok (events, { h with shared, pending })
      | _ => .error ()

theorem handshake_sender {c : Opening} {h : Handshake}
    (step : c.step h.shared h.stage = some (stage, s)) :
    handshake c h .sender = .ok ([], { h with stage, shared := s }) := by
  simp only [handshake, step]

theorem handshake_receiver (c : Opening) (stage : Stage) (s : MQTTSharedData) (input : Mem)
    (pending : List Mem) : ∃ events,
      handshake c ⟨stage, s, input :: pending⟩ .receiver =
        .ok (events, ⟨stage, s.received [input], pending⟩) ∧ Received [input] events := by
  obtain ⟨events, run, received⟩ := receiveAll_some [input] s
  exact ⟨events, by simp only [handshake, run], received⟩

theorem handshake_cases {c : Opening} {h h' : Handshake} {party : Party}
    (move : handshake c h party = .ok (events, h')) :
    (party = .sender ∧ h'.pending = h.pending ∧
        c.step h.shared h.stage = some (h'.stage, h'.shared)) ∨
      ∃ input, party = .receiver ∧ h.pending = input :: h'.pending ∧
        h' = ⟨h.stage, h.shared.received [input], h'.pending⟩ := by
  obtain ⟨stage, s, pending⟩ := h
  cases party with
  | sender =>
    cases step : c.step s stage with
    | none => simp [handshake, step] at move
    | some r =>
      rw [handshake_sender step] at move
      cases move
      exact .inl ⟨rfl, rfl, rfl⟩
  | receiver =>
    cases pending with
    | nil => cases move
    | cons input pending =>
      obtain ⟨events, run, _⟩ := handshake_receiver c stage s input pending
      rw [run] at move
      cases move
      exact .inr ⟨input, rfl, rfl, rfl⟩

def Stage.Settled : Stage → Prop
  | .waiting _ | .sleeping _ | .returning => True
  | .sending | .sent | .timed | .returned _ => False

instance : DecidablePred Stage.Settled
  | .waiting _ | .sleeping _ | .returning => isTrue trivial
  | .sending | .sent | .timed | .returned _ => isFalse id

/-- Input is parsed behind the last write of the state and before the result is taken,
unless the CONNECT was not sent. -/
def InTime (c : Opening) (h : Handshake) (party : Party)
    (_ : Except Unit (List Event × Handshake)) : Prop :=
  party = .receiver → c.taken = true → h.stage.Settled

theorem inTime_sender (c : Opening) (h : Handshake) (r : Except Unit (List Event × Handshake)) :
    InTime c h .sender r := nofun

def Undeterred (c : Opening) (h : Handshake) : Prop :=
  match h.stage with
  | .sending | .sent => True
  | .timed => c.taken = true
  | .waiting _ => c.taken = true ∧ h.shared.state = .connected
  | .sleeping _ => False
  | .returning => h.shared.state = .connected ↔ c.taken = true
  | .returned ret => ret = c.taken

def Deterred (c : Opening) (h : Handshake) : Prop :=
  h.shared.state = .disconnected ∧ match h.stage with
  | .sending | .sent => c.taken = false
  | .timed => False
  | .waiting _ | .sleeping _ | .returning => True
  | .returned ret => ret = false

theorem undeterred_step {c : Opening} {h h' : Handshake} (before : Undeterred c h)
    (step : c.step h.shared h.stage = some (h'.stage, h'.shared)) : Undeterred c h' := by
  obtain ⟨stage, s, pending⟩ := h
  obtain ⟨stage', s', pending'⟩ := h'
  cases stage with
  | sending =>
    cases step
    trivial
  | sent =>
    by_cases taken : c.taken = true
    · simp only [Opening.step, if_pos taken] at step
      cases step
      trivial
    · simp only [Opening.step, if_neg taken] at step
      cases step
      exact iff_of_false nofun taken
  | timed =>
    cases step
    exact ⟨before, rfl⟩
  | waiting timeout =>
    obtain ⟨taken, connected⟩ := before
    replace connected : s.state = .connected := connected
    simp only [Opening.step, if_neg (fun h => h.2 connected : ¬ (timeout ≠ 0 ∧ s.state ≠ .connected))]
      at step
    cases step
    exact iff_of_true connected taken
  | sleeping timeout => exact before.elim
  | returning =>
    cases step
    exact (decide_eq_decide.mpr before).trans (Bool.decide_coe _)
  | returned ret => cases step

theorem deterred_step {c : Opening} {h h' : Handshake} (before : Deterred c h)
    (step : c.step h.shared h.stage = some (h'.stage, h'.shared)) : Deterred c h' := by
  obtain ⟨stage, s, pending⟩ := h
  obtain ⟨stage', s', pending'⟩ := h'
  obtain ⟨closed, before⟩ := before
  replace closed : s.state = .disconnected := closed
  cases stage with
  | sending =>
    cases step
    exact ⟨closed, before⟩
  | sent =>
    have taken : ¬ c.taken = true := ne_true_of_eq_false before
    simp only [Opening.step, if_neg taken] at step
    cases step
    exact ⟨rfl, trivial⟩
  | timed => exact before.elim
  | waiting timeout =>
    simp only [Opening.step] at step
    split at step
    · cases step
      exact ⟨closed, trivial⟩
    · cases step
      exact ⟨closed, trivial⟩
  | sleeping timeout =>
    cases step
    exact ⟨closed, trivial⟩
  | returning =>
    cases step
    exact ⟨closed, by simp [closed]⟩
  | returned ret => cases step

theorem refuses_received (refuses : Refuses input) (s : MQTTSharedData) :
    (s.received [input]).state = .disconnected := by
  obtain ⟨some, nonzero⟩ := refuses
  obtain ⟨code, connack⟩ := Option.ne_none_iff_exists'.mp some
  have other : code ≠ 0 := by
    rintro rfl
    exact nonzero connack
  simp [MQTTSharedData.received, stateAfter, connack, other]

theorem deterred_of_inTime {c : Opening} {h : Handshake} (refuses : Refuses input)
    (before : Undeterred c h) (inTime : c.taken = true → h.stage.Settled) (pending : List Mem) :
    Deterred c ⟨h.stage, h.shared.received [input], pending⟩ := by
  refine ⟨refuses_received refuses h.shared, ?_⟩
  obtain ⟨stage, s, _⟩ := h
  cases stage with
  | sending => exact Bool.eq_false_iff.mpr inTime
  | sent => exact Bool.eq_false_iff.mpr inTime
  | timed => exact inTime before
  | waiting timeout => trivial
  | sleeping timeout => trivial
  | returning => trivial
  | returned ret => exact Bool.eq_false_iff.mpr fun returned => inTime (before.symm.trans returned)

theorem undeterred_of_not_inTime {c : Opening} {h : Handshake} (before : Undeterred c h)
    (outside : ¬ h.stage.Settled) (pending : List Mem) :
    Undeterred c ⟨h.stage, h.shared.received [input], pending⟩ := by
  obtain ⟨stage, s, _⟩ := h
  cases stage with
  | sending => trivial
  | sent => trivial
  | timed => exact before
  | waiting timeout => exact absurd trivial outside
  | sleeping timeout => exact absurd trivial outside
  | returning => exact absurd trivial outside
  | returned ret => exact before

theorem alone_step {c : Opening} {h h' : Handshake} {party : Party} (alone : h.pending = [])
    (move : handshake c h party = .ok (events, h')) :
    party = .sender ∧ h'.pending = [] ∧ c.step h.shared h.stage = some (h'.stage, h'.shared) := by
  rcases handshake_cases move with ⟨sender, same, step⟩ | ⟨input, _, pending, _⟩
  · exact ⟨sender, same.trans alone, step⟩
  · rw [alone] at pending
    cases pending

section Refusal

variable {c : Opening} {s t : MQTTSharedData} {schedule : List Party} {events : List (List Event)}
  {ret : Bool}

theorem inTime_of_alone {h : Handshake} (run : Machine.Runs (handshake c) h schedule events h')
    (alone : h.pending = []) : Machine.Each (handshake c) (InTime c) h schedule := by
  refine .of_runs (I := fun h => h.pending = []) run alone ?_
  rintro h party events h' alone move
  obtain ⟨rfl, rest, _⟩ := alone_step alone move
  exact ⟨inTime_sender c h _, rest⟩

theorem alone_run {I : Handshake → Prop} {h h' : Handshake}
    (keeps : ∀ h h', I h → c.step h.shared h.stage = some (h'.stage, h'.shared) → I h')
    (run : Machine.Runs (handshake c) h schedule events h') (alone : h.pending = [])
    (before : I h) : I h' := by
  refine (run.inv (I := fun h => h.pending = [] ∧ I h) ⟨alone, before⟩ ?_).2
  rintro h party events h' ⟨alone, before⟩ move
  obtain ⟨_, rest, step⟩ := alone_step alone move
  exact ⟨rest, keeps h h' before step⟩

theorem refusal_run {h : Handshake} (refuses : Refuses input) (before : Undeterred c h)
    (pending : h.pending = [input])
    (run : Machine.Runs (handshake c) h schedule events ⟨.returned ret, t, []⟩) :
    (t.state = .disconnected ∧ ret = false) ↔
      Machine.Each (handshake c) (InTime c) h schedule := by
  generalize finish : Handshake.mk (.returned ret) t [] = h' at run
  -- behind the step of the receiver there is nothing left to parse, so that only the
  -- steps before it need the induction
  induction run with
  | nil =>
    rw [← finish] at pending
    cases pending
  | @cons h party _ next _ _ _ move rest ih =>
    rw [Machine.Each, move]
    rcases handshake_cases move with ⟨rfl, same, step⟩ | ⟨input', rfl, found, moved⟩
    · rw [ih (undeterred_step before step) (same.trans pending) finish]
      exact (and_iff_right (inTime_sender c h _)).symm
    · obtain ⟨rfl, alone⟩ := List.cons.inj (found.symm.trans pending)
      rw [and_iff_left (inTime_of_alone rest alone)]
      by_cases inTime : c.taken = true → h.stage.Settled
      · have noticed : Deterred c next := by
          rw [moved]
          exact deterred_of_inTime refuses before inTime _
        have deterred := alone_run (fun _ _ => deterred_step) rest alone noticed
        rw [← finish] at deterred
        exact iff_of_true deterred fun _ => inTime
      · obtain ⟨taken, outside⟩ := Classical.not_imp.mp inTime
        have missed : Undeterred c next := by
          rw [moved]
          exact undeterred_of_not_inTime before outside _
        have undeterred := alone_run (fun _ _ => undeterred_step) rest alone missed
        rw [← finish] at undeterred
        refine iff_of_false ?_ fun now => inTime (now rfl)
        rintro ⟨_, rfl⟩
        have lost : false = c.taken := undeterred
        exact ne_true_of_eq_false lost.symm taken

/-- However the two parties take turns, a refusal is kept exactly if it is parsed
behind the write of the connected state and before the result is taken. -/
theorem refusal_iff (refuses : Refuses input)
    (run : Machine.Runs (handshake c) ⟨.sending, s, [input]⟩ schedule events ⟨.returned ret, t, []⟩) :
    (t.state = .disconnected ∧ ret = false) ↔
      Machine.Each (handshake c) (InTime c) ⟨.sending, s, [input]⟩ schedule :=
  refusal_run refuses trivial rfl run

end Refusal

def Opening.sample : Opening := ⟨true, 60, 5⟩

def refusal : Mem := ofList [0x20, 2, 0, 5] 0

theorem refusal_sample : ∃ events t,
    Machine.Runs (handshake .sample) ⟨.sending, .sample, [refusal]⟩
      [.sender, .sender, .sender, .sender, .receiver, .sender] events ⟨.returned false, t, []⟩ ∧
    ((t.state = .disconnected ∧ false = false) ↔
      Machine.Each (handshake .sample) (InTime .sample) ⟨.sending, .sample, [refusal]⟩
        [.sender, .sender, .sender, .sender, .receiver, .sender]) := by
  obtain ⟨events, parses, _⟩ := handshake_receiver .sample .returning
    (MQTTSharedData.sample.connected 60) refusal []
  have refuses : Refuses refusal := by decide +kernel
  have closed := refuses_received refuses (MQTTSharedData.sample.connected 60)
  have returns : Opening.sample.step ((MQTTSharedData.sample.connected 60).received [refusal])
      .returning = some (.returned false, (MQTTSharedData.sample.connected 60).received [refusal]) := by
    simp [Opening.step, closed]
  have run : Machine.Runs (handshake .sample) ⟨.sending, .sample, [refusal]⟩
      [.sender, .sender, .sender, .sender, .receiver, .sender] _
      ⟨.returned false, (MQTTSharedData.sample.connected 60).received [refusal], []⟩ :=
    .cons (handshake_sender rfl) (.cons (handshake_sender rfl) (.cons (handshake_sender rfl)
      (.cons (handshake_sender rfl) (.cons parses (.cons (handshake_sender returns) .nil)))))
  exact ⟨_, _, run, refusal_iff refuses run⟩

theorem refusal_lost : ¬ ∀ schedule events ret t,
    Machine.Runs (handshake .sample) ⟨.sending, .sample, [refusal]⟩ schedule events
      ⟨.returned ret, t, []⟩ → t.state = .disconnected ∧ ret = false := by
  intro kept
  obtain ⟨events, parses, _⟩ := handshake_receiver .sample .sending .sample refusal []
  have lost := kept _ _ _ _ (.cons parses (.cons (handshake_sender rfl) (.cons (handshake_sender rfl)
    (.cons (handshake_sender rfl) (.cons (handshake_sender rfl) (.cons (handshake_sender rfl) .nil))))))
  exact absurd lost.2 (by decide +kernel)

theorem receiver_runs {s : MQTTSharedData} (c : Opening) (stage : Stage) {inputs : List Mem}
    (run : receiveAll inputs (some s) = .ok (received, some s')) :
    ∃ events, events.flatten = received ∧ Machine.Runs (handshake c) ⟨stage, s, inputs⟩
      (List.replicate inputs.length .receiver) events ⟨stage, s', []⟩ := by
  induction inputs generalizing s received with
  | nil =>
    cases run
    exact ⟨[], rfl, .nil⟩
  | cons input inputs ih =>
    obtain ⟨status, callbacks, first, _⟩ := actionParseInputStream_some input 0 s
    simp only [receiveAll, first, ok_bind] at run
    obtain ⟨⟨events, g⟩, later, run⟩ := bind_eq_ok run
    cases run
    obtain ⟨rest, flat, runs⟩ := ih later
    refine ⟨(.parsed input :: callbacks) :: rest, by simp [flat], .cons ?_ runs⟩
    simp [handshake, receiveAll, first]

theorem waiting_returns (c : Opening) (s : MQTTSharedData) (timeout : Nat) :
    ∃ schedule events, Machine.Runs (handshake c) ⟨.waiting timeout, s, []⟩ schedule events
      ⟨.returned (s.state = .connected), s, []⟩ := by
  induction timeout with
  | zero => exact ⟨_, _, .cons (handshake_sender rfl) (.cons (handshake_sender rfl) .nil)⟩
  | succ timeout ih =>
    obtain ⟨schedule, events, rest⟩ := ih
    by_cases connected : s.state = .connected
    · have awake : ¬ (timeout + 1 ≠ 0 ∧ s.state ≠ .connected) := fun h => h.2 connected
      exact ⟨_, _, .cons (handshake_sender (if_neg awake)) (.cons (handshake_sender rfl) .nil)⟩
    · exact ⟨_, _, .cons (handshake_sender (if_pos ⟨nofun, connected⟩))
        (.cons (handshake_sender rfl) rest)⟩

def Opening.result (c : Opening) (s : MQTTSharedData) : MQTTSharedData :=
  if c.taken then s.connected c.keepalive else { s with state := .disconnected }

theorem sent_returns (c : Opening) (s : MQTTSharedData) :
    ∃ schedule events, events.flatten = [] ∧ Machine.Runs (handshake c) ⟨.sent, s, []⟩ schedule events
      ⟨.returned ((c.result s).state = .connected), c.result s, []⟩ := by
  by_cases taken : c.taken = true
  · have connected : c.result s = s.connected c.keepalive := if_pos taken
    have awake : ¬ (sleeps c.timeoutInSec ≠ 0 ∧ (s.connected c.keepalive).state ≠ .connected) :=
      fun h => h.2 rfl
    rw [connected]
    exact ⟨_, [[], [], [], []], rfl, .cons (handshake_sender (if_pos taken))
      (.cons (handshake_sender rfl) (.cons (handshake_sender (if_neg awake))
        (.cons (handshake_sender rfl) .nil)))⟩
  · have closed : c.result s = { s with state := .disconnected } := if_neg taken
    rw [closed]
    exact ⟨_, [[], []], rfl,
      .cons (handshake_sender (if_neg taken)) (.cons (handshake_sender rfl) .nil)⟩

/-- Both parties can finish, wherever they are. -/
theorem handshake_finishes (c : Opening) (h : Handshake) :
    ∃ schedule events ret t, Machine.Runs (handshake c) h schedule events ⟨.returned ret, t, []⟩ := by
  obtain ⟨stage, s, inputs⟩ := h
  obtain ⟨received, run, _⟩ := receiveAll_some inputs s
  obtain ⟨parsed, _, first⟩ := receiver_runs c stage run
  generalize s.received inputs = s at first
  suffices returns : ∃ schedule events ret t,
      Machine.Runs (handshake c) ⟨stage, s, []⟩ schedule events ⟨.returned ret, t, []⟩ by
    obtain ⟨schedule, events, ret, t, rest⟩ := returns
    exact ⟨_, _, ret, t, first.append rest⟩
  cases stage with
  | sending =>
    obtain ⟨_, _, _, rest⟩ := sent_returns c s
    exact ⟨_, _, _, _, .cons (handshake_sender rfl) rest⟩
  | sent =>
    obtain ⟨_, _, _, rest⟩ := sent_returns c s
    exact ⟨_, _, _, _, rest⟩
  | timed =>
    obtain ⟨_, _, rest⟩ := waiting_returns c { s with state := .connected } (sleeps c.timeoutInSec)
    exact ⟨_, _, _, _, .cons (handshake_sender rfl) rest⟩
  | waiting timeout =>
    obtain ⟨_, _, rest⟩ := waiting_returns c s timeout
    exact ⟨_, _, _, _, rest⟩
  | sleeping timeout =>
    obtain ⟨_, _, rest⟩ := waiting_returns c s timeout
    exact ⟨_, _, _, _, .cons (handshake_sender rfl) rest⟩
  | returning => exact ⟨_, _, _, _, .cons (handshake_sender rfl) .nil⟩
  | returned ret => exact ⟨_, _, _, _, .nil⟩

theorem actionConnect_handed {env : Env} {c : MQTTConnect} {s : MQTTSharedData}
    (idle : s.state = .disconnected)
    (h : actionConnect env (some (some c)) (some s) = .ok (o, some s')) (handed : o.events ≠ []) :
    ∃ data buffer events s₁, o.events = .out data (env.ret data) :: events ∧
      receiveAll env.meanwhile (some { s with buffer := buffer }) = .ok (events, some s₁) ∧
      ∀ timeoutInSec, s' =
        Opening.result ⟨env.ret data = data.length, c.keepalive, timeoutInSec⟩ s₁ := by
  obtain ⟨buffer, -, ⟨-, rfl, -⟩ | ⟨data, events, -, -, -, run, happened, result⟩⟩ :=
    actionConnect_spec idle h
  · exact absurd rfl handed
  · refine ⟨data, buffer, events, _, happened, run, fun timeoutInSec => ?_⟩
    rcases result with ⟨short, -, left⟩ | ⟨c', same, all, -, left⟩
    · obtain rfl := Option.some.inj left
      exact (if_neg fun taken => short (of_decide_eq_true taken)).symm
    · obtain rfl := Option.some.inj left
      obtain rfl := Option.some.inj same
      exact (if_pos (decide_eq_true all)).symm

/-- `mqtt_connect` with the inputs that come while it sends is one of the orders: the
receiving thread has its turn inside `out_fptr`. -/
theorem connectCall_runs {env : Env} {args : ConnectArguments} {c : MQTTConnect}
    {shared : MQTTSharedData} {g : Ptr MQTTSharedData} (h : mqttConnect env args g = .ok (a, g'))
    (checked : args.checked env = some (c, shared)) (handed : a.events ≠ []) :
    ∃ data buffer schedule events s', a.events = .out data (env.ret data) :: events.flatten ∧
      g' = some s' ∧ Machine.Runs
        (handshake ⟨env.ret data = data.length, c.keepalive, args.timeoutInSec⟩)
        ⟨.sending, { shared.initialised with buffer := buffer }, env.meanwhile⟩
        (List.replicate env.meanwhile.length .receiver ++ schedule) events
        ⟨.returned a.ret, s', []⟩ := by
  obtain ⟨o, s', connect, rfl, rfl⟩ := connectCall_run h checked
  obtain ⟨data, buffer, received, s₁, happened, run, left⟩ :=
    actionConnect_handed rfl connect handed
  obtain ⟨parsed, flat, first⟩ := receiver_runs
    ⟨env.ret data = data.length, c.keepalive, args.timeoutInSec⟩ .sending run
  obtain ⟨schedule, silent, quiet, rest⟩ := sent_returns
    ⟨env.ret data = data.length, c.keepalive, args.timeoutInSec⟩ s₁
  rw [← left] at rest
  refine ⟨data, buffer, _, _, s', ?_, rfl, first.append (.cons (handshake_sender rfl) rest)⟩
  rw [List.flatten_append, List.flatten_cons, quiet, flat, List.append_nil, List.append_nil]
  exact happened

end RojalMQTT
