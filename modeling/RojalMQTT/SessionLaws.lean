import RojalMQTT.Api
import RojalMQTT.EncoderLaws

/-! The connection state over whole runs: what a DISCONNECT ends, and what makes a
client connected. -/

namespace RojalMQTT

open Library

theorem mqtt_some {s : MQTTSharedData} (h : mqtt (some s) (env, action) = .ok (o, g')) :
    ∃ s', g' = some s' := by
  cases action with
  | init actionPtr =>
    rcases actionPtr with _ | _ | p <;> cases h
    · exact ⟨s, rfl⟩
    · exact ⟨_, rfl⟩
  | disconnect =>
    rcases actionDisconnect_cases h with ⟨_, _, _, rfl⟩ | ⟨_, _, s', rfl, _⟩
    · exact ⟨_, rfl⟩
    · exact ⟨_, rfl⟩
  | connect actionPtr =>
    rcases actionConnect_cases h with ⟨_, _, rfl⟩ | ⟨_, _, rfl⟩ | ⟨_, _, _, _, result⟩
    · exact ⟨_, rfl⟩
    · exact ⟨_, rfl⟩
    · rcases result with ⟨_, _, rfl⟩ | ⟨_, _, _, _, _, ⟨_, _, rfl⟩ | ⟨_, _, _, _, rfl⟩⟩ <;>
        exact ⟨_, rfl⟩
  | publish actionPtr =>
    obtain ⟨_, _, ⟨_, rfl⟩ | ⟨_, _, s', rfl, _⟩⟩ := actionPublish_cases h <;> exact ⟨_, rfl⟩
  | subscribe actionPtr =>
    obtain ⟨_, _, ⟨_, rfl⟩ | ⟨_, _, s', rfl, _⟩⟩ := actionSubscribe_cases h <;> exact ⟨_, rfl⟩
  | keepalive actionPtr =>
    rcases actionKeepalive_cases h with ⟨_, rfl, _⟩ | ⟨_, _, _, _, _, _, result⟩
    · exact ⟨_, rfl⟩
    · rcases result with ⟨_, rfl, _⟩ | ⟨_, _, s', rfl, _⟩ <;> exact ⟨_, rfl⟩
  | parseInputStream actionPtr =>
    obtain ⟨p, _, _, rfl⟩ := actionParseInputStream_cases h
    exact ⟨_, rfl⟩
  | other =>
    cases h
    exact ⟨s, rfl⟩

theorem mqtt_none (h : mqtt none (env, action) = .ok (o, g')) :
    g' = none ∨ ∃ p s, action = .init p ∧ g' = some s ∧ s.state = .disconnected := by
  cases action with
  | init actionPtr =>
    rcases actionPtr with _ | _ | p <;> cases h
    · exact .inl rfl
    · exact .inr ⟨_, _, rfl, rfl, rfl⟩
  | keepalive actionPtr =>
    cases actionPtr with
    | none =>
      cases h
      exact .inl rfl
    | some elapsed => cases h
  | parseInputStream actionPtr =>
    rcases actionPtr with _ | _ | ⟨data, n⟩
    · cases h
    · cases h
    · cases parsed : mqttParseInputStream data n.toNat none with
      | error e =>
        simp [mqtt, actionParseInputStream, parsed] at h
      | ok r =>
        have shared := mqttParseInputStream_none parsed
        simp only [mqtt, actionParseInputStream, Ptr.deref_some, ok_bind, parsed, shared] at h
        cases h
        exact .inl rfl
  | _ =>
    cases h
    exact .inl rfl

def packetType (data : List UInt8) : Option MQTTMessageType :=
  data.head?.map fun b => (FlagsAndType.ofByte b).messageType

def BelongsToSession (data : List UInt8) : Prop :=
  packetType data ∈ [some .publish, some .subscribe, some .pingreq, some .disconnect]

instance : Decidable (BelongsToSession data) := inferInstanceAs (Decidable (_ ∈ _))

theorem packetType_header (dup retain : Bool) (qos : MQTTQoSLevel) (messageType : MQTTMessageType)
    (n : Nat) (rest : List UInt8) :
    packetType (fixedHeaderBytes dup qos retain messageType n ++ rest) = some messageType := by
  simp [packetType, fixedHeaderBytes]

theorem Sends.out_eq (h : Sends env s data sentOk o s') (handed : .out data' ret ∈ o.events) :
    data' = data := by
  obtain ⟨events, received, happened⟩ := h.events_eq
  rw [happened, List.mem_cons] at handed
  rcases handed with same | mem
  · cases same
    rfl
  · exact absurd mem (received.not_out data' ret)

theorem Encoded.out_forms (h : Encoded env s forms sentOk o g') (handed : .out data ret ∈ o.events) :
    forms data := by
  obtain ⟨buffer, -, ⟨-, rfl, -⟩ | ⟨data', s', formed, -, sends⟩⟩ := h
  · cases handed
  · rwa [sends.out_eq handed]

theorem FormsPublish.packetType (h : FormsPublish s p data) :
    RojalMQTT.packetType data = some .publish := by
  obtain ⟨rest, rfl⟩ := h.header
  exact packetType_header _ _ _ _ _ _

theorem FormsSubscribe.packetType (h : FormsSubscribe s p data) :
    RojalMQTT.packetType data = some .subscribe := by
  obtain ⟨-, -, topic, -, -, rfl⟩ := h
  exact packetType_header _ _ _ _ _ _

theorem belongsToSession_header {messageType : MQTTMessageType}
    (h : messageType = .pingreq ∨ messageType = .disconnect) :
    BelongsToSession (fixedHeaderBytes false .qos0 false messageType 0) := by
  have type := packetType_header false false .qos0 messageType 0 []
  rw [List.append_nil] at type
  rw [BelongsToSession, type]
  rcases h with rfl | rfl <;> decide

theorem mqtt_belongsToSession {action : MQTTAction} (h : mqtt (some s) (env, action) = .ok (o, g'))
    (notConnect : ∀ a, action ≠ .connect a) (handed : .out data ret ∈ o.events) :
    BelongsToSession data := by
  cases action with
  | connect actionPtr => exact absurd rfl (notConnect actionPtr)
  | init actionPtr =>
    rcases actionPtr with _ | _ | p <;> cases h <;> cases handed
  | disconnect =>
    rcases actionDisconnect_cases h with ⟨_, _, events, _⟩ | ⟨_, _, s', _, sends⟩
    · rw [events] at handed
      cases handed
    · rw [sends.out_eq handed]
      exact belongsToSession_header (.inr rfl)
  | publish actionPtr =>
    rcases actionPublish_spec h with ⟨_, rfl, _⟩ | ⟨_, p, _, encoded⟩
    · cases handed
    · rw [BelongsToSession, (encoded.out_forms handed).packetType]
      decide
  | subscribe actionPtr =>
    rcases actionSubscribe_spec h with ⟨_, rfl, _⟩ | ⟨_, p, _, encoded⟩
    · cases handed
    · rw [BelongsToSession, (encoded.out_forms handed).packetType]
      decide
  | keepalive actionPtr =>
    rcases actionKeepalive_cases h with ⟨events, _, _⟩ | ⟨_, _, _, _, _, _, result⟩
    · rw [events] at handed
      cases handed
    · rcases result with ⟨events, _, _⟩ | ⟨_, _, s', _, sends⟩
      · rw [events] at handed
        cases handed
      · rw [sends.out_eq handed]
        exact belongsToSession_header (.inl rfl)
  | parseInputStream actionPtr =>
    obtain ⟨p, _, received, _⟩ := actionParseInputStream_cases h
    exact absurd handed (received.not_out data ret)
  | other =>
    cases h
    cases handed

theorem mqtt_none_silent {action : MQTTAction} (h : mqtt none (env, action) = .ok (o, g')) :
    .out data ret ∉ o.events := by
  cases action with
  | init actionPtr =>
    rcases actionPtr with _ | _ | p <;> cases h <;> exact List.not_mem_nil
  | keepalive actionPtr =>
    cases actionPtr with
    | none =>
      cases h
      exact List.not_mem_nil
    | some elapsed => cases h
  | parseInputStream actionPtr =>
    rcases actionPtr with _ | _ | p
    · cases h
    · cases h
    · obtain ⟨r, parsed, h⟩ := bind_eq_ok (x := mqttParseInputStream p.data _ none) h
      cases h
      simp only [(mqttParseInputStream_uninitialised parsed).2]
      cases p.data <;> simp
  | _ =>
    cases h
    exact List.not_mem_nil

theorem FormsConnect.not_belongsToSession (h : FormsConnect env s connectPtr data) :
    ¬ BelongsToSession data := by
  rcases h.head with rfl | head
  · decide
  · rw [BelongsToSession, packetType, head]
    decide

def announcedSize (data : List UInt8) : Option Nat :=
  (Base128.scan (ofList data 0) 1 4).map fun r => r.2 + r.1

def IsConnect (data : List UInt8) : Prop :=
  packetType data = some .connect ∧ announcedSize data = some data.length

instance : Decidable (IsConnect data) := inferInstanceAs (Decidable (_ ∧ _))

theorem IsConnect.length_lt (h : IsConnect data) : data.length < 2 ^ 31 := by
  obtain ⟨⟨n, next⟩, scanned, size⟩ := Option.map_eq_some_iff.mp h.2
  have := Base128.scan_lt scanned
  have := Base128.scan_end scanned
  simp only at size
  omega

/-- The complete packet of these parameters, its fixed header with four bytes, has a
16-bit size. -/
def MQTTConnect.Uncut (c : MQTTConnect) : Prop :=
  sizeofVariableHeaderConnect + stringsSize (payloadStrings c) ≤ 65531

instance : DecidablePred MQTTConnect.Uncut := fun _ => inferInstanceAs (Decidable (_ ≤ _))

theorem scan_connectBytes (c : MQTTConnect) :
    Base128.scan (ofList (connectBytes c) 0) 1 4 = some (stringsSize (payloadStrings c) + 10,
      (Base128.digits (stringsSize (payloadStrings c) + 10)).length + 1) := by
  have small := stringsSize_payload_le c
  have spells := spells_ofList (connectBytes c) (0 : UInt8)
  have digits : Spells (ofList (connectBytes c) 0) 1
      (Base128.digits (stringsSize (payloadStrings c) + 10)) :=
    ((spells_cons _ _ _ _).mp ((spells_append _ _ _ _).mp spells).1).2
  rw [Base128.scan_of_spells digits (length_digits_le_four (by omega)), Nat.add_comm 1]

theorem MQTTConnect.uncut_iff (c : MQTTConnect) : c.Uncut ↔ (connectBytes c).length < 65536 := by
  have ten : sizeofVariableHeaderConnect = 10 := rfl
  have two := Base128.length_digits_le_iff 1 (stringsSize (payloadStrings c) + 10)
  have three := Base128.length_digits_le_iff 2 (stringsSize (payloadStrings c) + 10)
  rw [Uncut, length_connectBytes, length_fixedHeaderBytes]
  omega

theorem FormsConnect.isConnect_iff (h : FormsConnect env s (some c) data) :
    IsConnect data ↔ c.Uncut := by
  obtain ⟨_, c', _, _, -, same, fill, rfl⟩ := h
  obtain rfl := Option.some.inj same
  rw [mqttConnectFill_data fill, MQTTConnect.uncut_iff]
  have length := length_connectBytes c
  rw [length_fixedHeaderBytes] at length
  constructor
  · rintro ⟨-, announced⟩
    obtain ⟨⟨n, next⟩, scanned, size⟩ := Option.map_eq_some_iff.mp announced
    have cut : ((connectBytes c).take (u16 (connectBytes c).length)).length =
        u16 (connectBytes c).length := by
      rw [List.length_take]
      exact Nat.min_eq_left (Nat.mod_le _ _)
    -- the digits that were read are in the packet, so they are those of its own size
    have whole : Base128.scan (ofList (connectBytes c) 0) 1 4 = some (n, next) :=
      Base128.scan_congr scanned fun j _ hj => by
        rw [ofList, ofList, List.getElem?_take_of_lt (by omega)]
    rw [scan_connectBytes] at whole
    cases whole
    rw [cut, u16] at size
    omega
  · intro fits
    rw [u16_of_lt fits, List.take_length]
    refine ⟨packetType_header _ _ _ _ _ _, ?_⟩
    rw [announcedSize, scan_connectBytes, Option.map_some, length]

def Event.sendsConnect : Event → Bool
  | .out data ret => IsConnect data ∧ ret = data.length
  | _ => false

theorem Event.not_sendsConnect {events : List Event}
    (h : ∀ data ret, .out data ret ∈ events → ¬ IsConnect data) :
    events.any Event.sendsConnect = false := by
  rw [List.any_eq_false]
  intro e mem sends
  cases e with
  | out data ret =>
    simp only [sendsConnect, decide_eq_true_eq] at sends
    exact h data ret mem sends.1
  | _ => cases sends

theorem not_isConnect_of_belongsToSession (h : BelongsToSession data) : ¬ IsConnect data := by
  rintro ⟨connect, -⟩
  rw [BelongsToSession, connect] at h
  exact absurd h (by decide)

theorem mqtt_not_sendsConnect {g : Ptr MQTTSharedData} {action : MQTTAction}
    (h : mqtt g (env, action) = .ok (o, g')) (notConnect : ∀ a, action ≠ .connect a) :
    o.events.any Event.sendsConnect = false := by
  refine Event.not_sendsConnect fun data ret handed => ?_
  cases g with
  | none => exact absurd handed (mqtt_none_silent h)
  | some s => exact not_isConnect_of_belongsToSession (mqtt_belongsToSession h notConnect handed)

theorem Received.not_sendsConnect (r : Received inputs events) :
    events.any Event.sendsConnect = false :=
  Event.not_sendsConnect fun data ret mem => absurd mem (r.not_out data ret)

theorem FormsConnect.any_sendsConnect (h : FormsConnect env s (some c) data)
    (received : Received inputs events) (out : s.outFptr ≠ none) :
    (.out data (env.ret data) :: events).any Event.sendsConnect = true ↔
      SendsConnect env s (some c) ∧ c.Uncut := by
  rw [List.any_cons, received.not_sendsConnect, Bool.or_false, Event.sendsConnect,
    decide_eq_true_eq, h.isConnect_iff, sendsConnect_iff h out, and_comm]

def TakesUncut (g : Ptr MQTTSharedData) (call : Env × MQTTAction) : Prop :=
  ∀ s ∈ g, s.state = .disconnected → ∀ c, call.2 = .connect (some (some c)) →
    SendsConnect call.1 s (some c) → c.Uncut

/-- Whether ACTION_DISCONNECT has returned Successfull since the last CONNECT was sent. -/
def noteDisconnect (ended : Bool) (call : Env × MQTTAction) (o : Outcome) : Bool :=
  match call.2 with
  | .disconnect => ended || o.status = .successfull
  | _ => ended && !o.events.any Event.sendsConnect

theorem noteDisconnect_eq {g : Ptr MQTTSharedData} {action : MQTTAction}
    (h : mqtt g (env, action) = .ok (o, g')) (notConnect : ∀ a, action ≠ .connect a)
    (notDisconnect : action ≠ .disconnect) (ended : Bool) :
    noteDisconnect ended (env, action) o = ended := by
  have quiet := mqtt_not_sendsConnect h notConnect
  cases action with
  | disconnect => exact absurd rfl notDisconnect
  | _ => simp [noteDisconnect, quiet]

structure RespectsEnd (ended : Bool) (_ : Ptr MQTTSharedData) (call : Env × MQTTAction)
    (o : Outcome) (g' : Ptr MQTTSharedData) : Prop where
  state : noteDisconnect ended call o = true → ∀ s ∈ g', s.state = .disconnected
  quiet : ended = true → ∀ data ret, .out data ret ∈ o.events → ¬ BelongsToSession data
  connects : ended = true → ∀ a, call.2 = .connect a → o.status ≠ .allreadyConnected

def disconnectPacket : List UInt8 := fixedHeaderBytes false .qos0 false .disconnect 0

/-- A DISCONNECT that is taken while connected leaves the client disconnected only
if a refusing CONNACK comes in meanwhile.  Input then must not accept again, and a
CONNECT must go out whole. -/
def EndsByItself (ended : Bool) (g : Ptr MQTTSharedData) (call : Env × MQTTAction)
    (_ : Outcome) (_ : Ptr MQTTSharedData) : Prop :=
  match call.2 with
  | .disconnect => ∀ s ∈ g, s.state = .connected → s.outFptr ≠ none →
      call.1.ret disconnectPacket = int32 disconnectPacket.length →
      call.1.meanwhile.foldl stateAfter .connected = .disconnected
  | .parseInputStream (some (some p)) => ended = true → ∀ input ∈ p.data,
      stateAfter .disconnected input = .disconnected
  | .connect _ => ended = true → TakesUncut g call
  | _ => True

def EndKept (ended : Bool) (g : Ptr MQTTSharedData) : Prop :=
  ended = true → ∃ s, g = some s ∧ s.state = .disconnected

theorem respectsEnd_of_silent {ended : Bool} {g : Ptr MQTTSharedData} {call : Env × MQTTAction}
    {o : Outcome} {g' : Ptr MQTTSharedData} (events : o.events = [])
    (state : noteDisconnect ended call o = true → ∀ s ∈ g', s.state = .disconnected)
    (connects : ended = true → ∀ a, call.2 = .connect a → o.status ≠ .allreadyConnected) :
    RespectsEnd ended g call o g' :=
  ⟨state, fun _ _ _ h => by simp [events] at h, connects⟩

section Step

variable {ended : Bool} {env : Env} {s : MQTTSharedData}

theorem EndKept.state (kept : EndKept ended (some s)) (h : ended = true) :
    s.state = .disconnected := by
  obtain ⟨_, same, state⟩ := kept h
  obtain rfl := Option.some.inj same
  exact state

theorem respectsEnd_disconnect (h : mqtt (some s) (env, .disconnect) = .ok (o, g'))
    (kept : EndKept ended (some s)) : RespectsEnd ended (some s) (env, .disconnect) o g' ↔
      EndsByItself ended (some s) (env, .disconnect) o g' := by
  rcases actionDisconnect_cases h with ⟨idle, fail, events, rfl⟩ | ⟨active, out, s', rfl, sends⟩
  · refine ⟨fun _ s' same state out => ?_, fun _ => respectsEnd_of_silent events ?_ (by simp)⟩
    · obtain rfl := Option.some.inj same
      rcases idle with idle | none
      · rw [state] at idle
        cases idle
      · exact absurd none out
    · intro note s' same
      obtain rfl := Option.some.inj same
      simp only [noteDisconnect, fail, decide_false, Bool.or_false] at note
      exact kept.state note
  · have connected : s.state = .connected := by
      cases state : s.state with
      | connected => rfl
      | disconnected => exact absurd state active
    have notEnded : ended = false := by
      cases ended with
      | false => rfl
      | true => exact absurd (kept.state rfl) active
    have left : s'.state = env.meanwhile.foldl stateAfter .connected := by
      rw [sends.field_eq (f := (·.state)) fun _ => rfl, ← connected]
      rfl
    subst notEnded
    constructor
    · intro respects t same _ _ taken
      have note : noteDisconnect false (env, .disconnect) o = true := by
        simpa [noteDisconnect] using sends.status_iff.mpr taken
      rw [← left]
      exact respects.state note s' rfl
    · intro ends
      refine ⟨fun note t same => ?_, by simp, by simp⟩
      obtain rfl := Option.some.inj same
      have taken := sends.status_iff.mp (by simpa [noteDisconnect] using note)
      rw [left]
      exact ends s rfl connected out taken

theorem EndKept.not_ended (kept : EndKept ended (some s)) (h : s.state = .connected) :
    ended = false := by
  cases ended with
  | false => rfl
  | true =>
    have := kept.state rfl
    rw [h] at this
    cases this

theorem respectsEnd_encoder {sentOk : MQTTSharedData → MQTTSharedData}
    {call : Env × MQTTAction} (kept : EndKept ended (some s))
    (note : noteDisconnect ended call o = ended) (other : ∀ a, call.2 ≠ .connect a)
    (h : EncoderStep env s sentOk o g') : RespectsEnd ended (some s) call o g' := by
  obtain ⟨_, _, ⟨rfl, rfl⟩ | ⟨connected, _⟩⟩ := h
  · refine respectsEnd_of_silent rfl (fun h t same => ?_) (fun _ a ha => absurd ha (other a))
    obtain rfl := Option.some.inj same
    rw [note] at h
    exact kept.state h
  · obtain rfl := kept.not_ended connected
    refine ⟨fun h => ?_, by simp, by simp⟩
    rw [note] at h
    cases h

theorem respectsEnd_connect {actionPtr : Ptr (Ptr MQTTConnect)}
    (h : mqtt (some s) (env, .connect actionPtr) = .ok (o, g')) (kept : EndKept ended (some s)) :
    RespectsEnd ended (some s) (env, .connect actionPtr) o g' ↔
      EndsByItself ended (some s) (env, .connect actionPtr) o g' := by
  -- without a CONNECT that is taken there is nothing to cut
  have untaken (left : RespectsEnd ended (some s) (env, .connect actionPtr) o g')
      (not : ∀ connectPtr, s.state = .disconnected → actionPtr = some connectPtr →
        ¬ SendsConnect env s connectPtr) :
      RespectsEnd ended (some s) (env, .connect actionPtr) o g' ↔
        EndsByItself ended (some s) (env, .connect actionPtr) o g' := by
    refine iff_of_true left fun _ t same idle c asks sends => ?_
    obtain rfl := Option.some.inj same
    cases asks
    exact absurd sends (not _ idle rfl)
  rcases actionConnect_cases h with ⟨rfl, rfl, rfl⟩ | ⟨active, rfl, rfl⟩ |
      ⟨idle, connectPtr, buffer, rfl, result⟩
  · refine untaken (respectsEnd_of_silent rfl (fun note t same => ?_) (by simp)) nofun
    obtain rfl := Option.some.inj same
    exact kept.state (by simpa [noteDisconnect] using note)
  · obtain rfl : ended = false := by
      cases ended with
      | false => rfl
      | true => exact absurd (kept.state rfl) active
    exact untaken (respectsEnd_of_silent rfl (by simp [noteDisconnect]) (by simp))
      fun _ idle => absurd idle active
  · rcases result with ⟨not, rfl, rfl⟩ | ⟨data, events, forms, received, eq, result⟩
    · refine untaken (respectsEnd_of_silent rfl (fun note t same => ?_) (by simp)) ?_
      · obtain rfl := Option.some.inj same
        rfl
      · rintro _ - same
        obtain rfl := Option.some.inj same
        exact not
    · have quiet : ∀ data ret, .out data ret ∈ o.events → ¬ BelongsToSession data := by
        intro data' ret mem
        rw [eq, List.mem_cons] at mem
        rcases mem with same | mem
        · cases same
          exact forms.not_belongsToSession
        · exact absurd mem (received.not_out data' ret)
      rcases result with ⟨not, fail, rfl⟩ | ⟨c, rfl, sends, ok, rfl⟩
      · refine untaken ⟨fun note t same => ?_, fun _ => quiet, fun _ a _ => ?_⟩ ?_
        · obtain rfl := Option.some.inj same
          rfl
        · rw [fail]
          decide
        · rintro _ - same
          obtain rfl := Option.some.inj same
          exact not
      · have sent := forms.any_sendsConnect received sends.1
        rw [← eq] at sent
        constructor
        · intro respects past t same _ c' asks _
          cases asks
          by_contra cut
          have unsent : o.events.any Event.sendsConnect = false := by
            rw [Bool.eq_false_iff, ne_eq, sent]
            exact fun whole => cut whole.2
          have left := respects.state (by simp [noteDisconnect, past, unsent]) _ rfl
          cases left
        · intro ends
          refine ⟨fun note => ?_, fun _ => quiet, fun _ a _ => ?_⟩
          · simp only [noteDisconnect, Bool.and_eq_true, Bool.not_eq_true'] at note
            have whole := sent.mpr ⟨sends, ends note.1 s rfl idle c rfl sends⟩
            rw [note.2] at whole
            cases whole
          · rw [ok]
            decide

theorem respectsEnd_keepalive {actionPtr : Ptr UInt32}
    (h : mqtt (some s) (env, .keepalive actionPtr) = .ok (o, g')) (kept : EndKept ended (some s)) :
    RespectsEnd ended (some s) (env, .keepalive actionPtr) o g' := by
  have note := noteDisconnect_eq h (by simp) (by simp) ended
  rcases actionKeepalive_cases h with ⟨events, rfl, _⟩ | ⟨_, _, _, connected, _⟩
  · refine respectsEnd_of_silent events (fun past t same => ?_) (by simp)
    obtain rfl := Option.some.inj same
    exact kept.state (note ▸ past)
  · obtain rfl := kept.not_ended connected
    exact ⟨by simp [note], by simp, by simp⟩

theorem respectsEnd_parse {actionPtr : Ptr (Ptr MQTTInputStream)}
    (h : mqtt (some s) (env, .parseInputStream actionPtr) = .ok (o, g'))
    (kept : EndKept ended (some s)) :
    RespectsEnd ended (some s) (env, .parseInputStream actionPtr) o g' ↔
      EndsByItself ended (some s) (env, .parseInputStream actionPtr) o g' := by
  have note := noteDisconnect_eq h (by simp) (by simp) ended
  obtain ⟨p, rfl, received, rfl⟩ := actionParseInputStream_cases h
  have left : (s.received p.data.toList).restartTimer.state = p.data.toList.foldl stateAfter s.state :=
    rfl
  constructor
  · intro respects past input hp
    have := respects.state (note.trans past) _ rfl
    rw [left, kept.state past, Option.mem_def.mp hp] at this
    exact this
  · intro ends
    refine ⟨fun past t same => ?_, fun _ data ret mem => ?_, by simp⟩
    · obtain rfl := Option.some.inj same
      rw [note] at past
      rw [left, kept.state past]
      cases hp : p.data with
      | none => rfl
      | some input => exact ends past input hp
    · exact absurd mem (received.not_out data ret)

theorem respectsEnd_some {action : MQTTAction} (h : mqtt (some s) (env, action) = .ok (o, g'))
    (kept : EndKept ended (some s)) :
    RespectsEnd ended (some s) (env, action) o g' ↔ EndsByItself ended (some s) (env, action) o g' := by
  cases action with
  | disconnect => exact respectsEnd_disconnect h kept
  | parseInputStream actionPtr => exact respectsEnd_parse h kept
  | connect actionPtr => exact respectsEnd_connect h kept
  | keepalive actionPtr => exact iff_of_true (respectsEnd_keepalive h kept) trivial
  | publish actionPtr =>
    have note := noteDisconnect_eq h (by simp) (by simp) ended
    exact iff_of_true (respectsEnd_encoder kept note (by simp) (actionPublish_cases h)) trivial
  | subscribe actionPtr =>
    have note := noteDisconnect_eq h (by simp) (by simp) ended
    exact iff_of_true (respectsEnd_encoder kept note (by simp) (actionSubscribe_cases h)) trivial
  | init actionPtr =>
    refine iff_of_true ?_ trivial
    have note := noteDisconnect_eq h (by simp) (by simp) ended
    rcases actionPtr with _ | _ | p <;> cases h
    · refine respectsEnd_of_silent rfl (fun past t same => ?_) (by simp)
      obtain rfl := Option.some.inj same
      exact kept.state (note ▸ past)
    · refine respectsEnd_of_silent rfl (fun past t same => ?_) (by simp)
      obtain rfl := Option.some.inj same
      rfl
  | other =>
    have note := noteDisconnect_eq h (by simp) (by simp) ended
    cases h
    refine iff_of_true (respectsEnd_of_silent rfl (fun past t same => ?_) (by simp)) trivial
    obtain rfl := Option.some.inj same
    exact kept.state (note ▸ past)

end Step

theorem respectsEnd_none {env : Env} {action : MQTTAction}
    (h : mqtt none (env, action) = .ok (o, g')) :
    noteDisconnect false (env, action) o = false ∧
      RespectsEnd false none (env, action) o g' ∧ EndsByItself false none (env, action) o g' := by
  have note : noteDisconnect false (env, action) o = false := by
    cases action with
    | disconnect =>
      cases h
      rfl
    | _ => rfl
  refine ⟨note, ⟨by simp [note], by simp, by simp⟩, ?_⟩
  cases action with
  | disconnect => simp [EndsByItself]
  | connect actionPtr => simp [EndsByItself]
  | parseInputStream actionPtr => rcases actionPtr with _ | _ | p <;> simp [EndsByItself]
  | _ => trivial

/-- A run of actions respects the ends of its sessions exactly if none of its
DISCONNECTs is sent while connected, but for those that a refusal overtakes, and behind
those no CONNECT is taken that its size has cut. -/
theorem respectsEnd_iff (g : Ptr MQTTSharedData) (calls : List (Env × MQTTAction)) :
    Machine.Always mqtt noteDisconnect RespectsEnd false g calls ↔
      Machine.Always mqtt noteDisconnect EndsByItself false g calls := by
  refine Machine.always_iff (I := EndKept) ?_ (by simp [EndKept])
  rintro ended g ⟨env, action⟩ o g' step kept
  cases g with
  | none =>
    obtain rfl : ended = false := by
      cases ended with
      | false => rfl
      | true =>
        obtain ⟨_, none, _⟩ := kept rfl
        cases none
    obtain ⟨note, respects, ends⟩ := respectsEnd_none step
    refine ⟨iff_of_true respects ends, fun _ h => ?_⟩
    rw [note] at h
    cases h
  | some s =>
    have agree := respectsEnd_some step kept
    refine ⟨agree, fun ends h => ?_⟩
    obtain ⟨s', rfl⟩ := mqtt_some step
    exact ⟨s', rfl, (agree.mpr ends).state h s' rfl⟩

theorem disconnect_leaves_connected : ¬ Machine.Always mqtt noteDisconnect RespectsEnd false none
    [(.prompt, .init (some (some .sample))), (.prompt, .connect (some (some (.sample 60)))),
      (.prompt, .disconnect)] := by
  intro run
  refine absurd (run.mono (P := fun ended _ call o g' =>
    noteDisconnect ended call o = true → g'.map (·.state) ≠ some .connected) ?_) (by decide +kernel)
  intro ended g call o g' respects note connected
  obtain ⟨s, hs, state⟩ := Option.map_eq_some_iff.mp connected
  rw [respects.state note s hs] at state
  cases state

end RojalMQTT
