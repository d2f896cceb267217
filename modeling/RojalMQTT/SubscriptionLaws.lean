import RojalMQTT.ConnectionLaws

/-! The answers of `mqtt_subscribe`. -/

namespace RojalMQTT

open Library

def Grants (identifier : UInt16) (input : Mem) : Prop :=
  Spells input 0 (0x90 :: 3 :: be16 identifier.toNat) ∧ (input 4).toNat ≤ 2

def SendsSubscribe (env : Env) (s : MQTTSharedData) (topic : Ptr Mem) (topicSize : UInt16) : Prop :=
  s.state = .connected ∧ s.outFptr ≠ none ∧ s.buffer ≠ none ∧
    SubscribeAccepted (UInt32.ofNat s.bufferSize) .qos0 topic topicSize ∧
    ∀ t ∈ topic,
      env.ret (subscribeBytes .qos0 t topicSize s.mqttPacketCntr.toUInt16) =
        int32 (subscribeBytes .qos0 t topicSize s.mqttPacketCntr.toUInt16).length

def GrantedWithin (identifier : UInt16) (events : List Event) : Prop :=
  ∃ before data ret after input, events = before ++ .out data ret :: after ∧
    ret = int32 data.length ∧ .parsed input ∈ after ∧ Grants identifier input

def ApiCall.waitsForSuback : ApiCall → Bool
  | .subscribe _ _ timeoutInSec => 0 < timeoutInSec.toNat
  | _ => false

def BackedBySuback (_ : Unit) (g : Ptr MQTTSharedData) (call : Env × ApiCall) (a : Answer)
    (_ : Ptr MQTTSharedData) : Prop :=
  call.2.waitsForSuback = true → a.ret = true →
    ∃ s ∈ g, GrantedWithin s.mqttPacketCntr.toUInt16 a.events

/-- A SUBSCRIBE that is sent is granted before `out_fptr` returns. -/
def GrantedInTime (_ : Unit) (g : Ptr MQTTSharedData) (call : Env × ApiCall) (_ : Answer)
    (_ : Ptr MQTTSharedData) : Prop :=
  match call.2 with
  | .subscribe topic topicSize timeoutInSec => 0 < timeoutInSec.toNat → 0 < topicSize.toNat →
      ∀ s ∈ g, SendsSubscribe call.1 s topic topicSize →
        ∃ input ∈ call.1.meanwhile, Grants s.mqttPacketCntr.toUInt16 input
  | _ => True

theorem subscribe_sends_iff {env : Env} {s : MQTTSharedData} {topic : Ptr Mem} {topicSize : UInt16}
    (h : actionSubscribe env (some (some ⟨.qos0, topic, topicSize⟩)) (some s) = .ok (o, g')) :
    o.status = .successfull ↔ SendsSubscribe env s topic topicSize := by
  rcases actionSubscribe_spec h with ⟨idle | none, rfl, -⟩ | ⟨connected, p, same, buffer, -, result⟩
  · exact iff_of_false (by decide) fun sends => idle sends.1
  · cases none
  · cases same
    rcases result with ⟨nothing, rfl, -⟩ | ⟨data, s', forms, -, sends⟩
    · refine iff_of_false (by decide) ?_
      rintro ⟨-, out, there, accepted, -⟩
      obtain ⟨t, onTopic⟩ := Option.ne_none_iff_exists'.mp accepted.topic
      exact nothing _ ⟨out, there, t, onTopic, accepted, rfl⟩
    · obtain ⟨out, there, t, rfl, accepted, rfl⟩ := forms
      rw [sends.status_iff, SendsSubscribe]
      simp [connected, out, there, accepted]

/-- In a run of the API every true answer of `mqtt_subscribe` with a timeout is
backed by a SUBACK exactly if each SUBSCRIBE is granted while it is still being
handed out. -/
theorem backedBySuback_iff (g : Ptr MQTTSharedData) (calls : List (Env × ApiCall)) :
    Machine.Always api (fun _ _ _ => ()) BackedBySuback () g calls ↔
      Machine.Always api (fun _ _ _ => ()) GrantedInTime () g calls := by
  refine Machine.always_iff (I := fun _ _ => True) ?_ trivial
  rintro ⟨⟩ g ⟨env, call⟩ a g' step -
  refine ⟨?_, fun _ => trivial⟩
  cases call with
  | subscribe topic topicSize timeoutInSec =>
    simp only [BackedBySuback, GrantedInTime, ApiCall.waitsForSuback, decide_eq_true_eq]
    cases g with
    | none =>
      simp [api, mqttSubscribe] at step
      simp [← step.1]
    | some s =>
      rcases subscribeCall_cases step with ⟨invalid, rfl, rfl⟩ | ⟨_, size, o, s₁, run, rfl, rfl⟩
      · refine iff_of_true (by simp) fun _ size t same sends => ?_
        obtain rfl := Option.some.inj same
        rcases invalid with none | zero
        · exact absurd none sends.2.2.2.1.topic
        · omega
      · rw [mqtt_subscribe] at run
        have sent := subscribe_sends_iff run
        constructor
        · intro backed waits _ t same sends
          obtain rfl := Option.some.inj same
          obtain ⟨_, same, before, data, ret, after, input, split, _, parsed, grants⟩ :=
            backed waits (by simpa using sent.mpr sends)
          obtain rfl := Option.some.inj same
          obtain ⟨_, _, ⟨rfl, _⟩ | ⟨_, data', s', same, sends'⟩⟩ := actionSubscribe_cases run
          · simp at split
          · obtain ⟨events, received, eq⟩ := sends'.events_eq
            have mem : .parsed input ∈ o.events := by
              rw [show o.events = _ from split]
              simp [parsed]
            rw [eq, List.mem_cons] at mem
            rcases mem with same | mem
            · cases same
            · exact ⟨input, (received.parsed_mem input).mp mem, grants⟩
        · intro inTime waits ok
          have ok : o.status = .successfull := by simpa using ok
          obtain ⟨input, mem, grants⟩ := inTime waits size s rfl (sent.mp ok)
          obtain ⟨_, _, ⟨rfl, _⟩ | ⟨_, data, s', same, sends⟩⟩ := actionSubscribe_cases run
          · exact absurd ok (by decide)
          · obtain ⟨events, received, eq⟩ := sends.events_eq
            exact ⟨s, rfl, [], data, _, events, input, eq, sends.status_iff.mp ok,
              (received.parsed_mem input).mpr mem, grants⟩
  | _ => simp [BackedBySuback, GrantedInTime, ApiCall.waitsForSuback]

theorem subscribed_ungranted : ¬ Machine.Always api (fun _ _ _ => ()) BackedBySuback () none
    [(.prompt, .connect .sample), (.prompt, .subscribe (some (ofList [0x61, 0x62, 0x63] 0)) 3 5)] := by
  intro run
  refine absurd (run.mono (P := fun _ _ call a _ =>
    call.2.waitsForSuback = true → a.ret = true → 1 < a.events.length) ?_) (by decide +kernel)
  intro _ g call a g' backed waits ok
  obtain ⟨_, _, before, data, ret, after, input, split, _, parsed, _⟩ := backed waits ok
  have := List.length_pos_of_mem parsed
  simp only [split, List.length_append, List.length_cons]
  omega

end RojalMQTT
