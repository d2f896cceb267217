import RojalMQTT.ApiLaws

/-! The API over whole runs: what stands behind a connected state, and behind the
answers of `mqtt_connect`. -/

namespace RojalMQTT

open Library

def Accepts (input : Mem) : Prop := connackCode input = some 0

instance : DecidablePred Accepts := fun input => inferInstanceAs (Decidable (connackCode input = _))

def answered (accepted : Bool) : Event → Bool
  | .out data ret => accepted && !(Event.out data ret).sendsConnect
  | .parsed input => accepted || decide (Accepts input)
  | _ => accepted

theorem Received.answered (r : Received inputs events) (accepted : Bool) :
    events.foldl RojalMQTT.answered accepted =
      (accepted || inputs.any fun input => Accepts input) := by
  rw [r.foldl_eq fun h e silent => by cases e <;> first | rfl | cases silent]
  clear r
  induction inputs generalizing accepted with
  | nil => simp
  | cons input inputs ih =>
    rw [List.foldl_cons, ih, List.any_cons, RojalMQTT.answered, Bool.or_assoc]

theorem connected_of_foldl {inputs : List Mem} {state : MQTTState}
    (h : inputs.foldl stateAfter state = .connected) :
    state = .connected ∨ inputs.any (fun input => Accepts input) = true := by
  induction inputs generalizing state with
  | nil => exact .inl h
  | cons input inputs ih =>
    rcases ih h with now | later
    · simp only [stateAfter] at now
      cases code : connackCode input with
      | none =>
        rw [code] at now
        exact .inl now
      | some code' =>
        rw [code, Option.elim_some] at now
        split at now
        case isTrue zero => exact .inr (by simp [Accepts, code, zero])
        case isFalse => cases now
    · exact .inr (by simp [later])

def Steady (s : MQTTSharedData) (events : List Event) (s' : MQTTSharedData) : Prop :=
  ∃ outs inputs received, events = outs ++ received ∧
    (∀ e ∈ outs, ∃ data ret, e = .out data ret) ∧ Received inputs received ∧
    s'.state = inputs.foldl stateAfter s.state

theorem Steady.silent (h : s'.state = s.state) : Steady s [] s' :=
  ⟨[], [], [], rfl, by simp, .nil, h⟩

theorem Sends.steady (h : Sends env s data sentOk o s')
    (keep : ∀ s, (sentOk s).state = s.state) : Steady s o.events s' := by
  obtain ⟨events, received, eq⟩ := h.events_eq
  refine ⟨[.out data (env.ret data)], _, events, eq, ?_, received, ?_⟩
  · intro e he
    exact ⟨data, _, List.mem_singleton.mp he⟩
  · exact h.field_eq (f := (·.state)) keep

theorem EncoderStep.steady (h : EncoderStep env s sentOk o g')
    (keep : ∀ s, (sentOk s).state = s.state) : ∃ s', g' = some s' ∧ Steady s o.events s' := by
  obtain ⟨_, _, ⟨rfl, rfl⟩ | ⟨_, _, s', rfl, sends⟩⟩ := h
  · exact ⟨_, rfl, .silent rfl⟩
  · exact ⟨s', rfl, sends.steady keep⟩

theorem Steady.answered (h : Steady s events s') {accepted : Bool}
    (before : s.state = .connected → accepted = true) (connected : s'.state = .connected)
    (unsent : events.any Event.sendsConnect = false) :
    events.foldl RojalMQTT.answered accepted = true := by
  obtain ⟨outs, inputs, received, rfl, handed, run, state⟩ := h
  rw [List.any_append, Bool.or_eq_false_iff] at unsent
  have kept : outs.foldl RojalMQTT.answered accepted = accepted := by
    replace unsent := unsent.1
    clear state run
    induction outs with
    | nil => rfl
    | cons e outs ih =>
      obtain ⟨data, ret, rfl⟩ := handed e (by simp)
      rw [List.any_cons, Bool.or_eq_false_iff] at unsent
      rw [List.foldl_cons, RojalMQTT.answered, unsent.1, Bool.not_false, Bool.and_true]
      exact ih (fun e he => handed e (by simp [he])) unsent.2
  rw [List.foldl_append, kept, run.answered]
  rw [state] at connected
  rcases connected_of_foldl connected with was | now
  · rw [before was, Bool.true_or]
  · rw [now, Bool.or_true]

theorem mqtt_steady {action : MQTTAction} (h : mqtt (some s) (env, action) = .ok (o, g'))
    (notConnect : ∀ a, action ≠ .connect a) (notInit : ∀ p, action ≠ .init (some p)) :
    ∃ s', g' = some s' ∧ Steady s o.events s' := by
  cases action with
  | connect actionPtr => exact absurd rfl (notConnect actionPtr)
  | init actionPtr =>
    cases actionPtr with
    | none =>
      cases h
      exact ⟨s, rfl, .silent rfl⟩
    | some p => exact absurd rfl (notInit p)
  | disconnect =>
    rcases actionDisconnect_cases h with ⟨_, _, events, rfl⟩ | ⟨_, _, s', rfl, sends⟩
    · rw [events]
      exact ⟨s, rfl, .silent rfl⟩
    · exact ⟨s', rfl, sends.steady fun _ => rfl⟩
  | publish actionPtr => exact (actionPublish_cases h).steady fun _ => rfl
  | subscribe actionPtr => exact (actionSubscribe_cases h).steady fun _ => rfl
  | keepalive actionPtr =>
    rcases actionKeepalive_cases h with ⟨events, rfl, _⟩ | ⟨_, _, _, _, _, _, result⟩
    · rw [events]
      exact ⟨s, rfl, .silent rfl⟩
    · rcases result with ⟨events, rfl, _⟩ | ⟨_, _, s', rfl, sends⟩
      · rw [events]
        exact ⟨_, rfl, .silent rfl⟩
      · exact ⟨s', rfl, sends.steady fun _ => rfl⟩
  | parseInputStream actionPtr =>
    obtain ⟨p, _, received, rfl⟩ := actionParseInputStream_cases h
    exact ⟨_, rfl, [], _, _, rfl, by simp, received, rfl⟩
  | other =>
    cases h
    exact ⟨s, rfl, .silent rfl⟩

def ApiCall.connects : ApiCall → Bool
  | .connect _ | .action (.connect _) => true
  | _ => false

section Step

variable {accepted : Bool} {env : Env} {g : Ptr MQTTSharedData}

end Step

def ConnectArguments.sample : ConnectArguments where
  clientName := some .abc
  keepaliveTimeout := 60
  username := some .empty
  password := some .empty
  lastWillTopic := some .empty
  lastWill := some .empty
  sharedData := some .sample
  outputBuffer := some fun _ => 0
  outputBufferSize := 64
  cleanSession := true
  outWriteFptr := some 1
  connectedFptr := none
  subscribeFptr := none
  timeoutInSec := 5

end RojalMQTT
