import RojalMQTT.ConnectionLaws

/-! The CONNECT that opens a session: what is sent before it, and that there is one. -/

namespace RojalMQTT

open Library

def Refuses (input : Mem) : Prop := connackCode input ≠ none ∧ connackCode input ≠ some 0

instance : DecidablePred Refuses := fun _ => inferInstanceAs (Decidable (_ ∧ _))

theorem connected_of_not_refuses {inputs : List Mem} (h : ∀ input ∈ inputs, ¬ Refuses input) :
    inputs.foldl stateAfter .connected = .connected := by
  induction inputs with
  | nil => rfl
  | cons input inputs ih =>
    have stays : stateAfter .connected input = .connected := by
      have welcome := h input (by simp)
      rw [stateAfter]
      cases code : connackCode input with
      | none => rfl
      | some code' =>
        have zero : code' = 0 := by simpa [Refuses, code] using welcome
        rw [Option.elim_some, if_pos zero]
    rw [List.foldl_cons, stays]
    exact ih fun input mem => h input (by simp [mem])

def Event.refuses : Event → Bool
  | .parsed input => Refuses input
  | _ => false

/-- Whether an ACTION_CONNECT was successful, and neither ACTION_INIT nor a refusal came
since.  One is that sends a CONNECT, and one whose size has cut it all the same. -/
def noteOpen (opened : Bool) (call : Env × MQTTAction) (o : Outcome) : Bool :=
  match call.2 with
  | .init (some _) => false
  | .connect _ => (opened || o.status = .successfull) && !o.events.any Event.refuses
  | _ => opened && !o.events.any Event.refuses

structure OneConnect (opened : Bool) (g : Ptr MQTTSharedData) (call : Env × MQTTAction)
    (o : Outcome) (g' : Ptr MQTTSharedData) : Prop where
  quiet : opened = true → ∀ data ret, .out data ret ∈ o.events → packetType data ≠ some .connect
  refused : opened = true → ∀ a, call.2 = .connect a →
    o = ⟨a.elim .invalidArgument fun _ => .allreadyConnected, []⟩ ∧ g' = g

def OpenKept (opened : Bool) (g : Ptr MQTTSharedData) : Prop :=
  opened = true → ∃ s, g = some s ∧ s.state = .connected

theorem OpenKept.state {opened : Bool} (kept : OpenKept opened (some s)) (h : opened = true) :
    s.state = .connected := by
  obtain ⟨_, same, state⟩ := kept h
  obtain rfl := Option.some.inj same
  exact state

theorem connected_of_received {inputs : List Mem} (r : Received inputs events)
    (h : events.any Event.refuses = false) : inputs.foldl stateAfter .connected = .connected := by
  apply connected_of_not_refuses
  intro input mem refuses
  have parsed := (r.parsed_mem input).mpr mem
  rw [List.any_eq_false] at h
  exact h _ parsed (decide_eq_true refuses)

theorem Steady.connected (h : Steady s events s') (before : s.state = .connected)
    (welcome : events.any Event.refuses = false) : s'.state = .connected := by
  obtain ⟨outs, inputs, received, rfl, -, run, state⟩ := h
  rw [List.any_append, Bool.or_eq_false_iff] at welcome
  rw [state, before]
  exact connected_of_received run welcome.2

theorem oneConnect_connect {opened : Bool} {env : Env} {actionPtr : Ptr (Ptr MQTTConnect)}
    (h : mqtt (some s) (env, .connect actionPtr) = .ok (o, g')) (kept : OpenKept opened (some s)) :
    OneConnect opened (some s) (env, .connect actionPtr) o g' ∧
      OpenKept (noteOpen opened (env, .connect actionPtr) o) g' := by
  rcases actionConnect_cases h with ⟨rfl, rfl, rfl⟩ | ⟨active, rfl, rfl⟩ |
      ⟨idle, connectPtr, buffer, rfl, result⟩
  · refine ⟨⟨by simp, ?_⟩, ?_⟩
    · rintro - a same
      cases same
      exact ⟨rfl, rfl⟩
    · intro note
      exact kept (by simpa [noteOpen, MQTTErrorCodes.invalidArgument] using note)
  · have some : actionPtr ≠ none := by
      rintro rfl
      cases h
    obtain ⟨p, rfl⟩ := Option.ne_none_iff_exists'.mp some
    refine ⟨⟨by simp, ?_⟩, ?_⟩
    · rintro - a same
      cases same
      exact ⟨rfl, rfl⟩
    · intro note
      exact kept (by simpa [noteOpen, MQTTErrorCodes.allreadyConnected] using note)
  · have closed : opened ≠ true := by
      intro opened
      rw [kept.state opened] at idle
      cases idle
    refine ⟨⟨fun h => absurd h closed, fun h => absurd h closed⟩, fun note => ?_⟩
    rw [noteOpen, Bool.eq_false_iff.mpr closed, Bool.false_or, Bool.and_eq_true,
      decide_eq_true_eq] at note
    rcases result with ⟨_, rfl, _⟩ | ⟨data, events, _, _, _, ⟨_, fail, _⟩ | ⟨c, _, _, _, rfl⟩⟩
    · exact absurd note.1 (by decide)
    · rw [fail] at note
      exact absurd note.1 (by decide)
    · exact ⟨_, rfl, rfl⟩

theorem oneConnect (g : Ptr MQTTSharedData) (calls : List (Env × MQTTAction)) :
    Machine.Always mqtt noteOpen OneConnect false g calls := by
  refine .of_inv (I := OpenKept) ?_ (by simp [OpenKept])
  rintro opened g ⟨env, action⟩ o g' step kept
  cases g with
  | none =>
    have closed : opened = false := by
      cases opened with
      | false => rfl
      | true =>
        obtain ⟨_, none, _⟩ := kept rfl
        cases none
    subst closed
    refine ⟨⟨by simp, by simp⟩, fun note => ?_⟩
    cases action with
    | init actionPtr => cases actionPtr <;> simp [noteOpen] at note
    | connect actionPtr =>
      cases step
      simp [noteOpen, MQTTErrorCodes.invalidArgument] at note
    | _ => simp [noteOpen] at note
  | some s =>
    by_cases notConnect : ∀ a, action ≠ .connect a
    · have quiet : OneConnect opened (some s) (env, action) o g' := by
        refine ⟨fun _ data ret handed connect => ?_, fun _ a same => absurd same (notConnect a)⟩
        have belongs := mqtt_belongsToSession step notConnect handed
        rw [BelongsToSession, connect] at belongs
        exact absurd belongs (by decide)
      refine ⟨quiet, ?_⟩
      by_cases notInit : ∀ p, action ≠ .init (some p)
      · have note : noteOpen opened (env, action) o = (opened && !o.events.any Event.refuses) := by
          cases action with
          | init actionPtr =>
            cases actionPtr with
            | none => rfl
            | some p => exact absurd rfl (notInit p)
          | connect actionPtr => exact absurd rfl (notConnect actionPtr)
          | _ => rfl
        obtain ⟨s', rfl, steady⟩ := mqtt_steady step notConnect notInit
        intro h
        rw [note, Bool.and_eq_true, Bool.not_eq_true'] at h
        exact ⟨s', rfl, steady.connected (kept.state h.1) h.2⟩
      · obtain ⟨p, rfl⟩ := not_forall_not.mp notInit
        simp [OpenKept, noteOpen]
    · obtain ⟨actionPtr, rfl⟩ := not_forall_not.mp notConnect
      exact oneConnect_connect step kept

def noteSent (sent : Bool) (call : Env × MQTTAction) (o : Outcome) : Bool :=
  match call.2 with
  | .init (some _) => false
  | _ => sent || o.events.any Event.sendsConnect

def QuietBefore (sent : Bool) (_ : Ptr MQTTSharedData) (_ : Env × MQTTAction) (o : Outcome)
    (_ : Ptr MQTTSharedData) : Prop :=
  sent = false → ∀ data ret, .out data ret ∈ o.events → ¬ BelongsToSession data

def MQTTAction.inputs : MQTTAction → List Mem
  | .parseInputStream (some (some p)) => p.data.toList
  | _ => []

def MQTTAction.connectParameters : MQTTAction → Ptr MQTTConnect
  | .connect (some connectPtr) => connectPtr
  | _ => none

/-- Before the CONNECT no input accepts one, and none is taken that its size has cut. -/
structure NotEarly (sent : Bool) (g : Ptr MQTTSharedData) (call : Env × MQTTAction) (_ : Outcome)
    (_ : Ptr MQTTSharedData) : Prop where
  input : sent = false → ∀ input ∈ call.2.inputs, ¬ Accepts input
  uncut : sent = false → TakesUncut g call

def ClosedBefore (sent : Bool) (g : Ptr MQTTSharedData) : Prop :=
  sent = false → ∀ s ∈ g, s.state = .disconnected

theorem EncoderStep.idle (h : EncoderStep env s sentOk o g') (closed : s.state = .disconnected) :
    o.events = [] ∧ ∃ s', g' = some s' ∧ s'.state = .disconnected := by
  obtain ⟨_, _, ⟨rfl, rfl⟩ | ⟨connected, _⟩⟩ := h
  · exact ⟨rfl, _, rfl, closed⟩
  · rw [closed] at connected
    cases connected

theorem closedBefore_some {sent : Bool} (closed : s.state = .disconnected) :
    ClosedBefore sent (some s) := by
  rintro - t ht
  cases ht
  exact closed

theorem quiet_of_silent {call : Env × MQTTAction} (events : o.events = [])
    (closed : s'.state = .disconnected) :
    QuietBefore false (some s) call o (some s') ∧
      ClosedBefore (noteSent false call o) (some s') := by
  refine ⟨fun _ data ret handed => ?_, closedBefore_some closed⟩
  rw [events] at handed
  cases handed

theorem quiet_connect {env : Env} {actionPtr : Ptr (Ptr MQTTConnect)}
    (step : mqtt (some s) (env, .connect actionPtr) = .ok (o, g'))
    (closed : s.state = .disconnected) (uncut : TakesUncut (some s) (env, .connect actionPtr)) :
    QuietBefore false (some s) (env, .connect actionPtr) o g' ∧
      ClosedBefore (noteSent false (env, .connect actionPtr) o) g' := by
  rcases actionConnect_cases step with ⟨_, rfl, rfl⟩ | ⟨_, rfl, rfl⟩ |
      ⟨_, connectPtr, buffer, rfl, result⟩
  · exact quiet_of_silent rfl closed
  · exact quiet_of_silent rfl closed
  · rcases result with ⟨_, rfl, rfl⟩ | ⟨data, events, forms, received, happened, result⟩
    · exact quiet_of_silent rfl rfl
    · refine ⟨fun _ data' ret handed => ?_, fun note => ?_⟩
      · rw [happened, List.mem_cons] at handed
        rcases handed with same | mem
        · cases same
          exact forms.not_belongsToSession
        · exact absurd mem (received.not_out data' ret)
      · rcases result with ⟨_, _, rfl⟩ | ⟨c, rfl, sends, _, rfl⟩
        · exact closedBefore_some rfl rfl
        · have sent := (forms.any_sendsConnect received sends.1).mpr
            ⟨sends, uncut s rfl closed c rfl sends⟩
          rw [← happened] at sent
          rw [noteSent, sent] at note
          cases note

theorem disconnected_of_foldl {inputs : List Mem} {state : MQTTState}
    (closed : state = .disconnected) (refused : ∀ input ∈ inputs, ¬ Accepts input) :
    inputs.foldl stateAfter state = .disconnected := by
  cases after : inputs.foldl stateAfter state with
  | disconnected => rfl
  | connected =>
    rcases connected_of_foldl after with was | accepts
    · exact was.symm.trans closed
    · obtain ⟨input, mem, accepts⟩ := List.any_eq_true.mp accepts
      exact absurd (of_decide_eq_true accepts) (refused input mem)

/-- A disconnected client hands out nothing but a CONNECT, and stays disconnected
until that is sent or an input accepts it. -/
theorem quiet_step {env : Env} {action : MQTTAction} (step : mqtt (some s) (env, action) = .ok (o, g'))
    (closed : s.state = .disconnected)
    (notEarly : NotEarly false (some s) (env, action) o g') :
    QuietBefore false (some s) (env, action) o g' ∧
      ClosedBefore (noteSent false (env, action) o) g' := by
  cases action with
  | init actionPtr =>
    rcases actionPtr with _ | _ | p <;> cases step
    · exact quiet_of_silent rfl closed
    · exact quiet_of_silent rfl rfl
  | disconnect =>
    rcases actionDisconnect_cases step with ⟨_, _, events, rfl⟩ | ⟨active, _⟩
    · exact quiet_of_silent events closed
    · exact absurd closed active
  | connect actionPtr => exact quiet_connect step closed (notEarly.uncut rfl)
  | publish actionPtr =>
    obtain ⟨events, s', rfl, idle⟩ := (actionPublish_cases step).idle closed
    exact quiet_of_silent events idle
  | subscribe actionPtr =>
    obtain ⟨events, s', rfl, idle⟩ := (actionSubscribe_cases step).idle closed
    exact quiet_of_silent events idle
  | keepalive actionPtr =>
    rcases actionKeepalive_cases step with ⟨events, rfl, _⟩ | ⟨_, _, _, connected, _⟩
    · exact quiet_of_silent events closed
    · rw [closed] at connected
      cases connected
  | parseInputStream actionPtr =>
    obtain ⟨p, rfl, received, rfl⟩ := actionParseInputStream_cases step
    exact ⟨fun _ data ret handed => absurd handed (received.not_out data ret),
      closedBefore_some (disconnected_of_foldl closed (notEarly.input rfl))⟩
  | other =>
    cases step
    exact quiet_of_silent rfl closed

/-- In a run in which no input accepts a CONNECT that was not sent, and its size cuts
none, nothing that belongs to a session is handed out before it is sent. -/
theorem quietBefore (calls : List (Env × MQTTAction))
    (notEarly : Machine.Always mqtt noteSent NotEarly false none calls) :
    Machine.Always mqtt noteSent QuietBefore false none calls := by
  refine .of_step (I := ClosedBefore) ?_ (by simp [ClosedBefore]) notEarly
  rintro sent g ⟨env, action⟩ o g' step closed notEarly
  cases g with
  | none =>
    refine ⟨fun _ data ret handed => absurd handed (mqtt_none_silent step), fun _ t ht => ?_⟩
    rcases mqtt_none step with rfl | ⟨p, s, _, rfl, idle⟩
    · cases ht
    · obtain rfl := Option.some.inj ht
      exact idle
  | some s =>
    cases sent with
    | false => exact quiet_step step (closed rfl s rfl) notEarly
    | true =>
      refine ⟨nofun, fun note t ht => ?_⟩
      cases action with
      | init actionPtr =>
        rcases actionPtr with _ | _ | p <;> cases step
        · cases note
        · obtain rfl := Option.some.inj ht
          rfl
      | _ => cases note

theorem quietBefore_sample : Machine.Always mqtt noteSent QuietBefore false none
    [(.prompt, .init (some (some .sample))), (.prompt, .connect (some (some (.sample 60)))),
      (.prompt, .disconnect)] := by
  have early : Machine.Always mqtt noteSent (fun sent _ call _ _ => sent = false →
      (∀ input ∈ call.2.inputs, ¬ Accepts input) ∧ ∀ c ∈ call.2.connectParameters, c.Uncut)
    false none [(.prompt, .init (some (some .sample))),
      (.prompt, .connect (some (some (.sample 60)))), (.prompt, .disconnect)] := by
    decide +kernel
  refine quietBefore _ (early.mono ?_)
  rintro sent g ⟨env, action⟩ o g' early
  refine ⟨fun unsent => (early unsent).1, fun unsent s _ _ c asks _ => ?_⟩
  cases asks
  exact (early unsent).2 c rfl

theorem disconnect_handsOut {s : MQTTSharedData} (env : Env) (connected : s.state = .connected)
    (out : s.outFptr ≠ none) : ∃ o g', mqtt (some s) (env, .disconnect) = .ok (o, g') ∧
      .out disconnectPacket (env.ret disconnectPacket) ∈ o.events := by
  obtain ⟨status, events, sent, -, call, -⟩ := callOut_fixedHeader env .disconnect (by decide) out
  refine ⟨⟨status, .out disconnectPacket (env.ret disconnectPacket) :: events⟩,
    some (s.received env.meanwhile), ?_, List.mem_cons_self⟩
  simp only [mqtt, actionDisconnect, connected, mqttDisconnect_, sent, call]
  rfl

theorem not_quiet_of_connected {s t : MQTTSharedData} {env : Env} {action : MQTTAction}
    (step : mqtt (some s.initialised) (env, action) = .ok (o, some t))
    (other : ∀ p, action ≠ .init (some p)) (unsent : o.events.any Event.sendsConnect = false)
    (connected : t.state = .connected) (out : t.outFptr ≠ none) :
    ¬ Machine.Always mqtt noteSent QuietBefore false none
      [(env, .init (some (some s))), (env, action), (env, .disconnect)] := by
  intro run
  have first : mqtt none (env, .init (some (some s))) =
      .ok (⟨.successfull, []⟩, some s.initialised) := rfl
  have note : noteSent false (env, action) o = false := by
    cases action with
    | init actionPtr =>
      cases actionPtr with
      | none => simp [noteSent, unsent]
      | some p => exact absurd rfl (other p)
    | _ => simp [noteSent, unsent]
  obtain ⟨o', g', ended, handed⟩ := disconnect_handsOut env connected out
  rw [Machine.always_cons first, Machine.always_cons step, Machine.always_cons ended] at run
  exact run.2.2.1 note disconnectPacket _ handed (belongsToSession_header (.inr rfl))

/-- After an ACTION_INIT an input that accepts is enough. -/
theorem early_accept_opens {s : MQTTSharedData} {input : Mem} (env : Env) (n : UInt32)
    (out : s.outFptr ≠ none) (accepts : Accepts input) :
    ¬ Machine.Always mqtt noteSent QuietBefore false none
      [(env, .init (some (some s))), (env, .parseInputStream (some (some ⟨some input, n⟩))),
        (env, .disconnect)] := by
  obtain ⟨o, parsed, -⟩ := actionParseInputStream_eq ⟨some input, n⟩ s.initialised
  have ran : mqtt (some s.initialised) (env, .parseInputStream (some (some ⟨some input, n⟩))) =
      .ok (o, some (s.initialised.received (some input).toList).restartTimer) := parsed
  refine not_quiet_of_connected ran (by simp) (mqtt_not_sendsConnect ran (by simp)) ?_ out
  change stateAfter .disconnected input = .connected
  rw [stateAfter, accepts]
  rfl

/-- So is a CONNECT that is taken after its size has cut it. -/
theorem cut_connect_opens {s : MQTTSharedData} {c : MQTTConnect} (env : Env)
    (sends : SendsConnect env s.initialised (some c)) (cut : ¬ c.Uncut)
    (step : mqtt (some s.initialised) (env, .connect (some (some c))) = .ok (o, g')) :
    ¬ Machine.Always mqtt noteSent QuietBefore false none
      [(env, .init (some (some s))), (env, .connect (some (some c))), (env, .disconnect)] := by
  have connect := (mqtt_connect _ _ _).symm.trans step
  rcases actionConnect_cases connect with ⟨none, _⟩ | ⟨active, _⟩ | ⟨_, _, buffer, same, result⟩
  · cases none
  · exact absurd rfl active
  · cases same
    rcases result with ⟨not, _⟩ | ⟨data, events, forms, received, happened,
        ⟨not, _⟩ | ⟨_, _, _, _, rfl⟩⟩
    · exact absurd sends not
    · exact absurd sends not
    · refine not_quiet_of_connected step (by simp) ?_ rfl sends.1
      rw [happened, Bool.eq_false_iff, ne_eq, forms.any_sendsConnect received sends.1]
      exact fun whole => cut whole.2

theorem early_connack_opens : ¬ Machine.Always mqtt noteSent QuietBefore false none
    [(.prompt, .init (some (some .sample))),
      (.prompt, .parseInputStream (some (some ⟨some (ofList [0x20, 2, 0, 0] 0), 4⟩))),
      (.prompt, .disconnect)] :=
  early_accept_opens .prompt 4 (Option.some_ne_none 1) (by decide +kernel)

end RojalMQTT
