import RojalMQTT.PhaseLaws
import RojalMQTT.TasksLaws

/-! The sessions of the four tasks, and what the server reads. -/

namespace RojalMQTT

open Library

namespace SeparateTasks

def taskConnect : ConnectPacket where
  keepalive := 60
  cleanSession := true
  willQos := .qos0
  willRetain := false
  clientId := freertosClientId.bytes
  will := none
  username := none
  password := none

inductive TaskPacket : ClientPacket → Prop
  | connect : TaskPacket (.connect taskConnect)
  | announcement : TaskPacket (.publish (.plain [0x73, 0x74, 0x61, 0x74, 0x65]
      [0x6F, 0x6E, 0x6C, 0x69, 0x6E, 0x65, 0]))
  | subscription (identifier : UInt16) :
    TaskPacket (.subscribe ⟨identifier, [0x52, 0x4D, 0x51, 0x54, 0x54, 0x69, 0x6E], .qos0⟩)
  | ping : TaskPacket .pingreq
  | measurement (cntr : UInt32) : TaskPacket (.publish (.plain [0x2F, 0x6C, 0x61, 0x6D, 0x70,
      0x6F, 0x74, 0x69, 0x6C, 0x61, 0x2F, 0x61, 0x6C, 0x61, 0x6B, 0x65, 0x72, 0x74, 0x61]
      (littleEndian cntr)))

section Packets

variable {env : Env} {task : Task} {call : ApiCall} {packet : ClientPacket}

theorem asked_connect {shared : Ptr MQTTSharedData}
    (asked : Asked (env, .connect (connectArguments shared)) packet) :
    packet = .connect taskConnect := by
  obtain ⟨action, asks, asked⟩ := asked
  obtain rfl := Option.some.inj asks
  cases asked with
  | connect id =>
    cases id
    rfl

theorem TaskCall.taskPacket (h : TaskCall task call) (asked : Asked (env, call) packet) :
    TaskPacket packet := by
  cases h with
  | connects shared =>
    obtain rfl := asked_connect asked
    exact .connect
  | announces =>
    obtain rfl := asked_publishBuf (spells_ofList _ _) (spells_ofList _ _) (by decide) (by decide) asked
    exact .announcement
  | measures cntr =>
    obtain rfl := asked_publishBuf (spells_ofList _ _) (spells_ofList _ _) (by decide) (by rfl) asked
    exact .measurement cntr
  | subscribes =>
    obtain ⟨action, asks, asked⟩ := asked
    obtain rfl := Option.some.inj asks
    cases asked with
    | subscribe onTopic =>
      cases onTopic
      exact .subscription _
  | keepsAlive =>
    obtain ⟨action, asks, asked⟩ := asked
    obtain rfl := Option.some.inj asks
    cases asked
    exact .ping
  | receives data amount =>
    obtain ⟨action, asks, asked⟩ := asked
    obtain rfl := Option.some.inj asks
    cases asked

end Packets

section Runs

variable {env : Env} {task : Task} {call : ApiCall}

theorem actionConnect_hands {c : MQTTConnect} {s : MQTTSharedData} (idle : s.state = .disconnected)
    (out : s.outFptr ≠ none) (buffer : s.buffer ≠ none) (room : ConnectRoom c s.bufferSize)
    (complete : ConnectComplete c) (h : actionConnect env (some (some c)) (some s) = .ok (o, g')) :
    ∃ data ret, .out data ret ∈ o.events := by
  obtain ⟨f, out⟩ := Option.ne_none_iff_exists'.mp out
  obtain ⟨mem, buffer⟩ := Option.ne_none_iff_exists'.mp buffer
  obtain ⟨q, st, fill, forms⟩ := mqttConnectFill_of_room mem env.stack 0 room
  obtain ⟨p, rfl⟩ := Option.ne_none_iff_exists'.mp (forms.mpr complete)
  rw [actionConnect, if_pos idle] at h
  obtain ⟨sent, connect, h⟩ := bind_eq_ok h
  have calls : sent.calls = [st.buffer.read p st.outputSize] := by
    simp only [mqttConnect_, MQTTSharedData.outCall, out, buffer, Option.map_some, fill] at connect
    split at connect <;>
    · cases connect
      rfl
  obtain ⟨⟨events, g₁⟩, handed, h⟩ := bind_eq_ok h
  rw [calls, callOut] at handed
  obtain ⟨_, _, handed⟩ := bind_eq_ok handed
  cases handed
  obtain ⟨_, _, h⟩ := bind_eq_ok h
  split at h <;>
  · cases h
    exact ⟨_, _, List.mem_cons_self⟩

theorem silent_of_none (made : TaskCall task call) (h : api none (env, call) = .ok (a, g')) :
    (∃ shared, call = .connect (connectArguments shared)) ∨
      (g' = none ∧ ∀ data ret, .out data ret ∉ a.events) := by
  by_cases connects : ∃ shared, call = .connect (connectArguments shared)
  · exact .inl connects
  · refine .inr ?_
    have found : call.finds env none = none := by
      cases made with
      | connects shared => exact absurd ⟨shared, rfl⟩ connects
      | announces | subscribes | receives | keepsAlive | measures => rfl
    rcases api_acts h with ⟨-, silent, rfl⟩ | ⟨action, asks, o, g₁, run, happened, left⟩
    · exact ⟨rfl, by simp [silent]⟩
    · rw [found] at run
      rw [happened]
      refine ⟨?_, fun data ret => mqtt_none_silent run⟩
      rcases mqtt_none run with rfl | ⟨p, _, rfl, _⟩
      · rcases left with rfl | rfl <;> rfl
      · exact absurd rfl ((fits_asks made.fits asks).1 p)

theorem connect_handed {shared : Ptr MQTTSharedData}
    (h : api g (env, .connect (connectArguments shared)) = .ok (a, g')) :
    ∃ data ret, .out data ret ∈ a.events := by
  obtain ⟨c, s, checked, id, strings, out, buffer, size⟩ := connect_checked shared env
  have called : mqttConnect env (connectArguments shared) g = .ok (a, g') := h
  obtain ⟨o, s', connect, rfl, -⟩ := connectCall_run called checked
  refine actionConnect_hands (s := s.initialised) rfl out buffer ?_ ?_ connect
  · change ConnectRoom c s.bufferSize
    have length : stringsLength [freertosClientId] = 26 := by decide +kernel
    have taken : stringsSize [freertosClientId] = 28 := by decide +kernel
    have header : sizeofVariableHeaderConnect = 10 := rfl
    have room : int32 1024 = (1024 : Nat) := int32_of_lt (by omega)
    rw [ConnectRoom, strings, size, room]
    omega
  · rw [ConnectComplete, id, strings]
    decide +kernel

theorem run_taskPackets {calls : List (Env × ApiCall)} {answers : List Answer}
    (run : Machine.Runs api g calls answers g') (made : ∀ c ∈ calls, ∃ task, TaskCall task c.2) :
    ∃ packets, Handed (answers.flatMap (·.events)) packets ∧ ∀ p ∈ packets, TaskPacket p := by
  refine run_hands run fun call mem g a g' h => ?_
  obtain ⟨task, made⟩ := made call mem
  obtain ⟨packet, asked, handed⟩ := api_hands h (made.plain _)
  exact ⟨packet.toList, handed, fun p mem => made.taskPacket (asked p (Option.mem_toList.mp mem))⟩

theorem run_conversation {calls : List (Env × ApiCall)} {answers : List Answer}
    (run : Machine.Runs api none calls answers g') (made : ∀ c ∈ calls, ∃ task, TaskCall task c.2) :
    ∃ packets, Handed (answers.flatMap (·.events)) packets ∧ (∀ p ∈ packets, TaskPacket p) ∧
      ∀ p ∈ packets.head?, p = .connect taskConnect := by
  generalize start : (none : Ptr MQTTSharedData) = g at run
  induction run with
  | nil => exact ⟨[], .of_quiet (by simp), by simp, by simp⟩
  | @cons g call a g₁ calls answers g' one rest ih =>
    subst start
    obtain ⟨task, first⟩ := made _ List.mem_cons_self
    have later : ∀ c ∈ calls, ∃ task, TaskCall task c.2 := fun c mem => made c (List.mem_cons_of_mem _ mem)
    obtain ⟨env, call⟩ := call
    rw [List.flatMap_cons]
    rcases silent_of_none first one with ⟨shared, rfl⟩ | ⟨rfl, quiet⟩
    · obtain ⟨packet, asked, here⟩ := api_hands one (first.plain _)
      obtain ⟨packets, there, all⟩ := run_taskPackets rest later
      cases packet with
      | none =>
        obtain ⟨data, ret, out⟩ := connect_handed one
        exact absurd out (here.quiet data ret)
      | some packet =>
        obtain rfl := asked_connect (asked packet rfl)
        refine ⟨.connect taskConnect :: packets, here.append there, ?_, ?_⟩
        · rintro p (_ | ⟨_, mem⟩)
          · exact .connect
          · exact all p mem
        · rintro p ⟨⟩
          rfl
    · obtain ⟨packets, there, all, head⟩ := ih later rfl
      exact ⟨packets, (Handed.of_quiet quiet).append there, all, head⟩

theorem TaskCall.uncut (made : TaskCall task call) (env : Env) : AsksUncut env call := by
  intro action asks c mem
  cases made with
  | connects shared =>
    obtain ⟨c', s, checked, -, strings, -⟩ := connect_checked shared env
    rw [ApiCall.asks, checked] at asks
    cases asks
    obtain rfl := Option.some.inj mem
    rw [MQTTConnect.Uncut, strings]
    decide +kernel
  | announces | subscribes | receives | keepsAlive | measures =>
    cases asks
    cases mem

end Runs

/-- Two levels of refinement: every interleaving of the tasks is a run of the client's functions,
with the tasks' calls, and that is a run of the session. -/
theorem demo_refines {turns : List (Task × Oracle)} {happened : List (List Happening)} {d d' : Demo}
    (run : Machine.Runs demo d turns happened d') : ∃ calls answers,
      Simulates (turns.map Prod.fst) d happened.flatten d' calls answers ∧
      Machine.Trace Phase.Step (.of d.shared) calls answers (.of d'.shared) := by
  obtain ⟨calls, answers, simulates⟩ := run_simulates run
  refine ⟨calls, answers, simulates, simulates.runs.trace fun _ c mem _ _ step => api_phase step ?_⟩
  obtain ⟨_, -, made⟩ := simulates.made c mem
  exact made.uncut _

theorem demo_refines_sample : ∃ happened d calls answers,
    Machine.Runs demo .start openingTurns happened d ∧ (clientEvents happened.flatten).length = 2 ∧
    Simulates (openingTurns.map Prod.fst) .start happened.flatten d calls answers ∧
    Machine.Trace Phase.Step .unset calls answers (.of d.shared) := by
  obtain ⟨⟨happened, d⟩, run, two⟩ := exists_of_any (x := Machine.run demo .start openingTurns)
    (p := fun r => (clientEvents r.1.flatten).length = 2) (by decide +kernel)
  obtain ⟨calls, answers, simulates, trace⟩ := demo_refines (.of_run run)
  exact ⟨happened, d, calls, answers, .of_run run, of_decide_eq_true two, simulates, trace⟩

/-- In every interleaving, what the tasks hand to `socket_write` reads as packets of theirs,
the first of them a CONNECT. -/
theorem demo_conversation {turns : List (Task × Oracle)} {happened : List (List Happening)} {d : Demo}
    (run : Machine.Runs demo .start turns happened d) : ∃ packets,
      ClientPacket.reader.readAll ((clientEvents happened.flatten).flatMap Event.handed) =
        some packets ∧
      (∀ p ∈ packets, TaskPacket p) ∧ ∀ p ∈ packets.head?, p = .connect taskConnect := by
  obtain ⟨calls, answers, simulates⟩ := run_simulates run
  obtain ⟨packets, handed, all, head⟩ := run_conversation simulates.runs fun c mem =>
    (simulates.made c mem).imp fun _ made => made.2
  refine ⟨packets, ?_, all, head⟩
  rw [simulates.events]
  exact handed.readAll

theorem demo_conversation_sample : ∃ happened d packets,
    Machine.Runs demo .start openingTurns happened d ∧ (clientEvents happened.flatten).length = 2 ∧
    ClientPacket.reader.readAll ((clientEvents happened.flatten).flatMap Event.handed) =
      some packets ∧ ∀ p ∈ packets, TaskPacket p := by
  obtain ⟨⟨happened, d⟩, run, two⟩ := exists_of_any (x := Machine.run demo .start openingTurns)
    (p := fun r => (clientEvents r.1.flatten).length = 2) (by decide +kernel)
  obtain ⟨packets, read, all, -⟩ := demo_conversation (.of_run run)
  exact ⟨happened, d, packets, .of_run run, of_decide_eq_true two, read, all⟩

end SeparateTasks

end RojalMQTT
