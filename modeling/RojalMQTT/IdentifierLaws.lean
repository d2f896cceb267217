import RojalMQTT.ApiLaws
import RojalMQTT.OpeningLaws

/-! The packet identifiers of the packets that are handed out. -/

namespace RojalMQTT

open Library

def Identified (data : List UInt8) : Prop :=
  packetType data = some .subscribe ∨
    (packetType data = some .publish ∧ 0 < (FlagsAndType.ofByte (ofList data 0 0)).qos.toBits)

instance : Decidable (Identified data) := inferInstanceAs (Decidable (_ ∨ _))

def packetIdentifier (data : List UInt8) : Option UInt16 :=
  (getSize (ofList data 0)).1.bind fun next =>
    let p := if packetType data = some .publish then next + 2 + word (ofList data 0) next else next
    if p + 2 ≤ data.length then some (UInt16.ofNat (word (ofList data 0) p)) else none

theorem word_be16 {input : Mem} {p : Nat} {n : UInt16} (h : Spells input p (be16 n.toNat)) :
    UInt16.ofNat (word input p) = n := by
  rw [word_of_spells h n.toNat_lt, UInt16.ofNat_toNat]

theorem packetIdentifier_subscribeBytes (qos : MQTTQoSLevel) (topic : Mem)
    (topicSize packetIdentifier : UInt16) :
    RojalMQTT.packetIdentifier (subscribeBytes qos topic topicSize packetIdentifier) =
      some packetIdentifier := by
  have short := topicSize.toNat_lt
  have small := identifierSize_le qos
  have spells := spells_ofList (subscribeBytes qos topic topicSize packetIdentifier) 0
  obtain ⟨header, body⟩ := (spells_append _ _ _ _).mp spells
  have size := getSize_of_spells header (by rw [subscribeRemaining]; omega)
  have type : packetType (subscribeBytes qos topic topicSize packetIdentifier) ≠ some .publish := by
    rw [subscribeBytes, packetType_header]
    decide
  have length : (fixedHeaderBytes true .qos0 false .subscribe (subscribeRemaining qos
      topicSize)).length + 2 ≤ (subscribeBytes qos topic topicSize packetIdentifier).length := by
    rw [subscribeBytes, List.length_append, List.length_append, length_be16]
    omega
  rw [Nat.zero_add, spells_append] at body
  rw [RojalMQTT.packetIdentifier, size, Option.bind_some, if_neg type, if_pos length,
    word_be16 body.1]

section Publish

variable {retain dup : Bool} {qos : MQTTQoSLevel} {topicSize : UInt16} {messageSize : UInt32}

theorem packetIdentifier_publish {n : Nat} (rest : List UInt8) (fits : n < 268435456) :
    ∃ packet next, packet = fixedHeaderBytes retain qos dup .publish n ++ rest ∧
      packet.length = next + rest.length ∧ Spells (ofList packet 0) next rest ∧
      packetIdentifier packet =
        if next + 2 + word (ofList packet 0) next + 2 ≤ packet.length then
          some (UInt16.ofNat (word (ofList packet 0) (next + 2 + word (ofList packet 0) next)))
        else none := by
  have spells := spells_ofList (fixedHeaderBytes retain qos dup .publish n ++ rest) 0
  obtain ⟨header, behind⟩ := (spells_append _ _ _ _).mp spells
  rw [Nat.zero_add] at behind
  refine ⟨_, _, rfl, List.length_append, behind, ?_⟩
  simp only [packetIdentifier, getSize_of_spells header fits, Option.bind_some, packetType_header,
    if_true]

theorem packetIdentifier_whole {n : Nat} {t : List UInt8} (m : List UInt8) (identifier : UInt16)
    (fits : n < 268435456) (short : t.length < 65536) :
    packetIdentifier (fixedHeaderBytes retain qos dup .publish n ++
      (field t ++ (be16 identifier.toNat ++ m))) = some identifier := by
  obtain ⟨packet, next, same, length, behind, found⟩ := @packetIdentifier_publish retain dup qos n
    (field t ++ (be16 identifier.toNat ++ m)) fits
  rw [← same, found]
  rw [field, spells_append, spells_append, spells_append, List.length_append, length_be16] at behind
  obtain ⟨⟨topicLength, -⟩, spelled, -⟩ := behind
  rw [List.length_append, List.length_append, length_field, length_be16] at length
  rw [word_of_spells topicLength short, Nat.add_assoc next 2, if_pos (by omega), word_be16 spelled]

theorem packetIdentifier_cut {n k : Nat} {t rest : List UInt8} (fits : n < 268435456)
    (short : t.length < 65536) (cut : k < t.length + 4) :
    packetIdentifier (fixedHeaderBytes retain qos dup .publish n ++ (field t ++ rest).take k) =
      none := by
  obtain ⟨packet, next, same, length, behind, found⟩ := @packetIdentifier_publish retain dup qos n
    ((field t ++ rest).take k) fits
  rw [← same, found, if_neg]
  rw [List.length_take] at length
  by_cases few : k < 2
  · omega
  · rw [field, List.append_assoc, List.take_append, length_be16,
      List.take_of_length_le (by rw [length_be16]; omega), spells_append] at behind
    rw [word_of_spells behind.1 short]
    omega

theorem packetIdentifier_unread {n : Nat} (rest : List UInt8) (large : 268435456 ≤ n) :
    packetIdentifier (fixedHeaderBytes retain qos dup .publish n ++ rest) = none := by
  have spells := spells_ofList (fixedHeaderBytes retain qos dup .publish n ++ rest) 0
  obtain ⟨header, -⟩ := (spells_append _ _ _ _).mp spells
  have five : 3 + 1 < (Base128.digits n).length := by
    rw [← Nat.not_le, Base128.length_digits_le_iff]
    omega
  have unread := getSize_none (Base128.scan_of_spells_long ((spells_cons _ _ _ _).mp header).2 five)
  rw [packetIdentifier, unread]
  rfl

theorem packetIdentifier_publishData (topic message : Mem) (packetIdentifier : UInt16)
    (h : EncodesHeader qos .publish (publishRemaining qos topicSize messageSize))
    (identified : 0 < qos.toBits) :
    RojalMQTT.packetIdentifier
        (publishData retain qos dup topic topicSize packetIdentifier message messageSize) =
      if publishBodySize qos topicSize messageSize < 268435456 then some packetIdentifier
      else none := by
  have two : identifierSize qos = 2 := if_pos identified
  have short : (slice topic 0 topicSize.toNat).length < 65536 := by
    rw [length_slice]
    exact topicSize.toNat_lt
  have bodyLength : (field (slice topic 0 topicSize.toNat) ++ (be16 packetIdentifier.toNat ++
      slice message 0 messageSize.toNat)).length = publishBodySize qos topicSize messageSize := by
    rw [publishBodySize, two]
    simp only [List.length_append, length_field, length_slice, length_be16]
    omega
  rw [publishData_eq topic message packetIdentifier h, if_pos identified]
  by_cases small : publishBodySize qos topicSize messageSize < 268435456
  · have whole := publishRemaining_of_lt (by omega : publishBodySize qos topicSize messageSize < 2 ^ 32)
    rw [if_pos small, whole, List.take_of_length_le (Nat.le_of_eq bodyLength)]
    exact packetIdentifier_whole _ packetIdentifier small short
  · rw [if_neg small]
    by_cases read : publishRemaining qos topicSize messageSize < 268435456
    · -- the sum has wrapped, and what is left of it ends before the identifier does
      refine packetIdentifier_cut read short ?_
      have := messageSize.toNat_lt
      rw [length_slice]
      rw [publishBodySize, two] at small
      rw [publishRemaining, two, u32] at read ⊢
      omega
    · exact packetIdentifier_unread _ (Nat.not_lt.mp read)

end Publish

theorem FormsPublish.identified_iff (h : FormsPublish s p data) :
    Identified data ↔ 0 < p.flags.qos.toBits := by
  have type := h.packetType
  obtain ⟨rest, rfl⟩ := h.header
  have first : (FlagsAndType.ofByte (ofList (fixedHeaderBytes p.flags.retain p.flags.qos false
      .publish (publishRemaining p.flags.qos p.topicLength p.messageBufferSize) ++ rest) 0 0)).qos =
        p.flags.qos := by
    change (FlagsAndType.ofByte (FlagsAndType.toByte _)).qos = _
    rw [FlagsAndType.ofByte_toByte]
  simp [Identified, type, first]

theorem FormsPublish.identifier (h : FormsPublish s p data) (identified : 0 < p.flags.qos.toBits) :
    packetIdentifier data = if publishBodySize p.flags.qos p.topicLength p.messageBufferSize <
      268435456 then some s.mqttPacketCntr.toUInt16 else none := by
  obtain ⟨-, -, topic, message, -, -, accepted, rfl⟩ := h
  exact packetIdentifier_publishData topic message _ accepted.header identified

theorem FormsSubscribe.identifier (h : FormsSubscribe s p data) :
    packetIdentifier data = some s.mqttPacketCntr.toUInt16 := by
  obtain ⟨-, -, topic, -, -, rfl⟩ := h
  exact packetIdentifier_subscribeBytes _ _ _ _

def Event.identifier : Event → Option UInt16
  | .out data _ => if Identified data then packetIdentifier data else none
  | _ => none

/-- The packets that went out with an identifier, each with the number of the request
that sent it.  An initialisation starts a new list. -/
structure IdentifierLog where
  requests : Nat
  current : List (Nat × UInt16)
  earlier : List (Nat × UInt16)

def IdentifierLog.empty : IdentifierLog := ⟨0, [], []⟩

def ApiCall.requests : ApiCall → Bool
  | .publish _ _ _ _ | .publishBuf _ _ _ _ _ _ | .subscribe _ _ _ => true
  | .action (.publish _) | .action (.subscribe _) => true
  | _ => false

def ApiCall.initialises (env : Env) : ApiCall → Bool
  | .action (.init (some _)) => true
  | .connect a => (a.checked env).isSome
  | _ => false

def noteIdentifiers (log : IdentifierLog) (call : Env × ApiCall) (a : Answer) : IdentifierLog where
  requests := log.requests + call.2.requests.toNat
  current := (a.events.filterMap Event.identifier).map (log.requests, ·) ++
    if call.2.initialises call.1 then [] else log.current
  earlier := if call.2.initialises call.1 then log.current ++ log.earlier else log.earlier

/-- A packet with this identifier was sent with fewer than 65535 requests in between. -/
def IdentifierLog.Near (log : IdentifierLog) (sent : List (Nat × UInt16)) (id : UInt16) : Prop :=
  ∃ e ∈ sent, log.requests < e.1 + 65536 ∧ e.2 = id

structure WellIdentified (log : IdentifierLog) (_ : Ptr MQTTSharedData) (_ : Env × ApiCall)
    (a : Answer) (_ : Ptr MQTTSharedData) : Prop where
  single : (a.events.filterMap Event.identifier).length ≤ 1
  carried : ∀ data ret, .out data ret ∈ a.events → Identified data →
    ∃ id, packetIdentifier data = some id ∧ id ≠ 0 ∧ ¬ log.Near (log.current ++ log.earlier) id

/-- The identifier that the counter holds is not 0, and not that of a packet nearby
that was sent before the last initialisation. -/
def IdentifierLog.Free (log : IdentifierLog) (cntr : UInt32) : Prop :=
  cntr.toUInt16 ≠ 0 ∧ ¬ log.Near log.earlier cntr.toUInt16

/-- A request that forms an identified packet has a free identifier for it, and the
packet a length that the protocol knows. -/
def FreshIdentifier (log : IdentifierLog) (g : Ptr MQTTSharedData) (call : Env × ApiCall)
    (_ : Answer) (_ : Ptr MQTTSharedData) : Prop :=
  match call.2.asks call.1 with
  | some (.publish (some (some p))) => ∀ s ∈ g, s.state = .connected → 0 < p.flags.qos.toBits →
      (∃ data, FormsPublish s p data) → log.Free s.mqttPacketCntr ∧
        publishBodySize p.flags.qos p.topicLength p.messageBufferSize < 268435456
  | some (.subscribe (some (some p))) => ∀ s ∈ g, s.state = .connected →
      (∃ data, FormsSubscribe s p data) → log.Free s.mqttPacketCntr
  | _ => True

/-- The counter has moved on since the identifiers were taken from it, but by no
more than one for each request. -/
def IdentifiersKept (log : IdentifierLog) (g : Ptr MQTTSharedData) : Prop :=
  ∀ e ∈ log.current, ∃ s k, g = some s ∧ 0 < k ∧ e.1 + k ≤ log.requests ∧
    (e.2.toNat + k) % 65536 = s.mqttPacketCntr.toNat % 65536

theorem toNat_identifier (cntr : UInt32) : cntr.toUInt16.toNat = cntr.toNat % 65536 := rfl

theorem IdentifiersKept.not_near {log : IdentifierLog} (kept : IdentifiersKept log (some s)) :
    ¬ log.Near log.current s.mqttPacketCntr.toUInt16 := by
  rintro ⟨e, mem, near, same⟩
  obtain ⟨t, k, same', pos, requests, taken⟩ := kept e mem
  obtain rfl := Option.some.inj same'
  have id := congrArg UInt16.toNat same
  rw [toNat_identifier] at id
  omega

theorem IdentifierLog.near_append (log : IdentifierLog) (l l' : List (Nat × UInt16)) (id : UInt16) :
    log.Near (l ++ l') id ↔ log.Near l id ∨ log.Near l' id := by
  simp [Near, or_and_right, exists_or]

def Unidentified (events : List Event) : Prop :=
  ∀ data ret, .out data ret ∈ events → ¬ Identified data

theorem Unidentified.filterMap (h : Unidentified events) : events.filterMap Event.identifier = [] := by
  rw [List.filterMap_eq_nil_iff]
  rintro (⟨data, ret⟩ | _ | _ | _) mem
  · exact if_neg (h data ret mem)
  · rfl
  · rfl
  · rfl

theorem unidentified_nil : Unidentified [] := by simp [Unidentified]

theorem unidentified_of_nil {events : List Event} (h : events = []) : Unidentified events := by
  rw [h]
  exact unidentified_nil

theorem unidentified_of_received (r : Received inputs events) : Unidentified events :=
  fun data ret mem => absurd mem (r.not_out data ret)

theorem unidentified_out (ret : Int) (r : Received inputs events) (h : ¬ Identified data) :
    Unidentified (.out data ret :: events) := by
  intro data' ret' mem
  rcases List.mem_cons.mp mem with same | mem
  · cases same
    exact h
  · exact unidentified_of_received r data' ret' mem

theorem FormsConnect.not_identified (h : FormsConnect env s connectPtr data) : ¬ Identified data := by
  rcases h.head with rfl | head
  · decide
  · have type : packetType data = some .connect := by
      rw [packetType, head]
      decide
    simp [Identified, type]

theorem Sends.unidentified (h : Sends env s data sentOk o s') (not : ¬ Identified data) :
    Unidentified o.events := by
  obtain ⟨events, received, happened⟩ := h.events_eq
  rw [happened]
  exact unidentified_out _ received not

theorem mqtt_unidentified {action : MQTTAction} (h : mqtt (some s) (env, action) = .ok (o, g'))
    (other : (∀ p, action ≠ .publish p) ∧ (∀ p, action ≠ .subscribe p) ∧
      ∀ p, action ≠ .init (some p)) :
    Unidentified o.events ∧ g'.map (·.mqttPacketCntr) = some s.mqttPacketCntr := by
  cases action with
  | init actionPtr =>
    cases actionPtr with
    | none =>
      cases h
      exact ⟨unidentified_nil, rfl⟩
    | some p => exact absurd rfl (other.2.2 p)
  | publish p => exact absurd rfl (other.1 p)
  | subscribe p => exact absurd rfl (other.2.1 p)
  | disconnect =>
    rcases actionDisconnect_cases h with ⟨_, _, events, rfl⟩ | ⟨_, _, s', rfl, sends⟩
    · rw [events]
      exact ⟨unidentified_nil, rfl⟩
    · refine ⟨sends.unidentified (by decide +kernel), congrArg some ?_⟩
      exact sends.field_eq (f := (·.mqttPacketCntr)) fun _ => rfl
  | connect actionPtr =>
    rcases actionConnect_cases h with ⟨_, rfl, rfl⟩ | ⟨_, rfl, rfl⟩ | ⟨_, connectPtr, buffer, _, result⟩
    · exact ⟨unidentified_nil, rfl⟩
    · exact ⟨unidentified_nil, rfl⟩
    · rcases result with ⟨_, rfl, rfl⟩ | ⟨data, events, forms, received, happened, result⟩
      · exact ⟨unidentified_nil, rfl⟩
      · refine ⟨?_, ?_⟩
        · rw [happened]
          exact unidentified_out _ received forms.not_identified
        · rcases result with ⟨_, _, rfl⟩ | ⟨_, _, _, _, rfl⟩ <;> rfl
  | keepalive actionPtr =>
    rcases actionKeepalive_cases h with ⟨events, rfl, _⟩ | ⟨_, _, _, _, _, _, result⟩
    · rw [events]
      exact ⟨unidentified_nil, rfl⟩
    · rcases result with ⟨events, rfl, _⟩ | ⟨_, _, s', rfl, sends⟩
      · rw [events]
        exact ⟨unidentified_nil, rfl⟩
      · refine ⟨sends.unidentified (by decide +kernel), congrArg some ?_⟩
        exact sends.field_eq (f := (·.mqttPacketCntr)) fun _ => rfl
  | parseInputStream actionPtr =>
    obtain ⟨p, _, received, rfl⟩ := actionParseInputStream_cases h
    exact ⟨unidentified_of_received received, rfl⟩
  | other =>
    cases h
    exact ⟨unidentified_nil, rfl⟩

section Step

variable {log : IdentifierLog} {call : Env × ApiCall} {a : Answer}

theorem wellIdentified_of_unidentified (h : Unidentified a.events) (g g' : Ptr MQTTSharedData) :
    WellIdentified log g call a g' :=
  ⟨by simp [h.filterMap], fun data ret mem identified => absurd identified (h data ret mem)⟩

theorem kept_of_initialises (h : Unidentified a.events) (init : call.2.initialises call.1 = true)
    (g' : Ptr MQTTSharedData) : IdentifiersKept (noteIdentifiers log call a) g' := by
  simp [IdentifiersKept, noteIdentifiers, h.filterMap, init]

theorem kept_of_unidentified {g g' : Ptr MQTTSharedData} (h : Unidentified a.events)
    (kept : IdentifiersKept log g)
    (same : g'.map (·.mqttPacketCntr) = g.map (·.mqttPacketCntr)) :
    IdentifiersKept (noteIdentifiers log call a) g' := by
  by_cases init : call.2.initialises call.1 = true
  · exact kept_of_initialises h init _
  · intro e mem
    simp only [noteIdentifiers, h.filterMap, init, List.map_nil, List.nil_append] at mem
    obtain ⟨s, k, rfl, pos, requests, taken⟩ := kept e mem
    obtain ⟨s', rfl, cntr⟩ := Option.map_eq_some_iff.mp same
    refine ⟨s', k, rfl, pos, ?_, by rwa [cntr]⟩
    simp only [noteIdentifiers]
    omega

theorem kept_of_counted (ids : ∀ id ∈ a.events.filterMap Event.identifier,
      id = s.mqttPacketCntr.toUInt16) (kept : IdentifiersKept log (some s))
    (requests : call.2.requests = true) (init : call.2.initialises call.1 = false)
    (counted : s'.mqttPacketCntr = s.mqttPacketCntr + 1) :
    IdentifiersKept (noteIdentifiers log call a) (some s') := by
  have next : s'.mqttPacketCntr.toNat % 65536 = (s.mqttPacketCntr.toNat + 1) % 65536 := by
    rw [counted, UInt32.toNat_add]
    exact Nat.mod_mod_of_dvd _ (by decide)
  intro e mem
  simp only [noteIdentifiers, init, Bool.false_eq_true, if_false, List.mem_append] at mem
  simp only [noteIdentifiers, requests, Bool.toNat_true]
  rcases mem with newest | older
  · obtain ⟨id, taken, rfl⟩ := List.mem_map.mp newest
    refine ⟨s', 1, rfl, by omega, by omega, ?_⟩
    rw [ids id taken, toNat_identifier, next]
    omega
  · obtain ⟨t, k, same, pos, requests, taken⟩ := kept e older
    obtain rfl := Option.some.inj same
    refine ⟨s', k + 1, rfl, by omega, by omega, ?_⟩
    rw [next]
    omega

theorem filterMap_out {ret : Int} (happened : a.events = .out data ret :: events)
    (received : Received inputs events) :
    a.events.filterMap Event.identifier =
      (if Identified data then packetIdentifier data else none).toList := by
  have rest := (unidentified_of_received received).filterMap
  rw [happened, List.filterMap_cons, rest]
  simp only [Event.identifier]
  cases (if Identified data then packetIdentifier data else none) <;> rfl

theorem wellIdentified_out_iff {ret : Int} (happened : a.events = .out data ret :: events)
    (received : Received inputs events) (identified : Identified data)
    (g g' : Ptr MQTTSharedData) : WellIdentified log g call a g' ↔
      ∃ id, packetIdentifier data = some id ∧ id ≠ 0 ∧
        ¬ log.Near (log.current ++ log.earlier) id := by
  constructor
  · intro well
    exact well.carried data ret (by simp [happened]) identified
  · intro carried
    refine ⟨?_, fun data' ret' mem _ => ?_⟩
    · rw [filterMap_out happened received]
      exact Option.length_toList_le
    · rw [happened, List.mem_cons] at mem
      rcases mem with same | mem
      · cases same
        exact carried
      · exact absurd mem (received.not_out data' ret')

theorem wellIdentified_request (call : Env × ApiCall) {env : Env} {forms : List UInt8 → Prop}
    (identified fits : Prop) {sentOk : MQTTSharedData → MQTTSharedData} {o : Outcome}
    {g₁ : Ptr MQTTSharedData}
    (kept : IdentifiersKept log (some s)) (requests : call.2.requests = true)
    (init : call.2.initialises call.1 = false) (events : a.events = o.events)
    (encoded : Encoded env s forms sentOk o g₁)
    (keep : ∀ s, (sentOk s).mqttPacketCntr = s.mqttPacketCntr)
    (type : ∀ data, forms data → (Identified data ↔ identified))
    (found : ∀ data, forms data → identified → (fits ∧ packetIdentifier data =
      some s.mqttPacketCntr.toUInt16) ∨ (¬ fits ∧ packetIdentifier data = none))
    (g g' : Ptr MQTTSharedData) :
    (WellIdentified log g call a g' ↔
      (identified → (∃ data, forms data) → log.Free s.mqttPacketCntr ∧ fits)) ∧
    (g'.map (·.mqttPacketCntr) = g₁.map (·.mqttPacketCntr) →
      IdentifiersKept (noteIdentifiers log call a) g') := by
  obtain ⟨buffer, -, ⟨nothing, rfl, rfl⟩ | ⟨data, s', formed, rfl, sends⟩⟩ := encoded
  · have silent : Unidentified a.events := unidentified_of_nil events
    refine ⟨iff_of_true (wellIdentified_of_unidentified silent g g') ?_, fun same => ?_⟩
    · rintro - ⟨data, formed⟩
      exact absurd formed (nothing data)
    · obtain ⟨t, rfl, cntr⟩ := Option.map_eq_some_iff.mp same
      exact kept_of_counted (by simp [silent.filterMap]) kept requests init cntr
  · obtain ⟨rest, received, happened⟩ := sends.events_eq
    rw [← events] at happened
    have counted : s'.mqttPacketCntr = s.mqttPacketCntr + 1 :=
      sends.field_eq (f := (·.mqttPacketCntr)) keep
    have ids := filterMap_out happened received
    suffices h : (WellIdentified log g call a g' ↔
        (identified → (∃ data, forms data) → log.Free s.mqttPacketCntr ∧ fits)) ∧
        ∀ id ∈ a.events.filterMap Event.identifier, id = s.mqttPacketCntr.toUInt16 by
      refine ⟨h.1, fun same => ?_⟩
      obtain ⟨t, rfl, cntr⟩ := Option.map_eq_some_iff.mp same
      exact kept_of_counted h.2 kept requests init (cntr.trans counted)
    by_cases id : identified
    · have carries := (type data formed).mpr id
      rw [if_pos carries] at ids
      rw [ids, wellIdentified_out_iff happened received carries]
      rcases found data formed id with ⟨fit, carried⟩ | ⟨unfit, none⟩
      · -- the current list cannot hold the counter's value, so only the earlier one counts
        rw [carried]
        refine ⟨?_, by simp⟩
        have free : log.Near (log.current ++ log.earlier) s.mqttPacketCntr.toUInt16 ↔
            log.Near log.earlier s.mqttPacketCntr.toUInt16 := by
          rw [log.near_append]
          exact or_iff_right kept.not_near
        simp only [Option.some.injEq, exists_eq_left', free]
        exact ⟨fun h _ _ => ⟨h, fit⟩, fun h => (h id ⟨data, formed⟩).1⟩
      · rw [none]
        refine ⟨iff_of_false ?_ fun h => unfit (h id ⟨data, formed⟩).2, by simp⟩
        rintro ⟨_, carried, -⟩
        cases carried
    · have silent : Unidentified a.events := by
        rw [happened]
        exact unidentified_out _ received fun carries => id ((type data formed).mp carries)
      exact ⟨iff_of_true (wellIdentified_of_unidentified silent g g') fun carries =>
        absurd carries id, by simp [silent.filterMap]⟩

end Step

theorem asks_cases {env : Env} {call : ApiCall} {action : MQTTAction}
    (h : call.asks env = some action) :
    (call.initialises env = true ∧ ((∃ p, action = .init (some p)) ∨
        ∃ connectPtr s, action = .connect connectPtr ∧ ∀ g, call.finds env g = some s)) ∨
      (call.initialises env = false ∧ (∀ g, call.finds env g = g) ∧
        (∀ p, action ≠ .init (some p)) ∧
        ((∃ p, action = .publish p) ∨ (∃ p, action = .subscribe p) → call.requests = true)) := by
  cases call with
  | action action' =>
    cases h
    cases action with
    | init actionPtr =>
      cases actionPtr with
      | none => exact .inr ⟨rfl, fun _ => rfl, by simp, by simp⟩
      | some p => exact .inl ⟨rfl, .inl ⟨p, rfl⟩⟩
    | publish actionPtr => exact .inr ⟨rfl, fun _ => rfl, by simp, fun _ => rfl⟩
    | subscribe actionPtr => exact .inr ⟨rfl, fun _ => rfl, by simp, fun _ => rfl⟩
    | _ => exact .inr ⟨rfl, fun _ => rfl, by simp, by simp⟩
  | connect args =>
    obtain ⟨r, checked, rfl⟩ := Option.map_eq_some_iff.mp h
    exact .inl ⟨by simp [ApiCall.initialises, checked],
      .inr ⟨_, _, rfl, fun g => by rw [ApiCall.finds, checked]; rfl⟩⟩
  | disconnect =>
    cases h
    exact .inr ⟨rfl, fun _ => rfl, by simp, by simp⟩
  | publish topic topicSize msg msgSize =>
    obtain ⟨_, same⟩ := Option.ite_none_right_eq_some.mp h
    cases same
    exact .inr ⟨rfl, fun _ => rfl, by simp, fun _ => rfl⟩
  | publishBuf topic topicSize msg msgSize buffer bufferSize =>
    obtain ⟨_, same⟩ := Option.ite_none_right_eq_some.mp h
    cases same
    exact .inr ⟨rfl, fun _ => rfl, by simp, fun _ => rfl⟩
  | subscribe topic topicSize timeoutInSec =>
    obtain ⟨_, same⟩ := Option.ite_none_right_eq_some.mp h
    cases same
    exact .inr ⟨rfl, fun _ => rfl, by simp, fun _ => rfl⟩
  | keepalive durationInMs =>
    cases h
    exact .inr ⟨rfl, fun _ => rfl, by simp, by simp⟩
  | receive data amount =>
    obtain ⟨_, _, rfl⟩ := Option.map_eq_some_iff.mp h
    exact .inr ⟨rfl, fun _ => rfl, by simp, by simp⟩

theorem fresh_of_other {log : IdentifierLog} (call : Env × ApiCall) {a : Answer}
    (asks : call.2.asks call.1 = some action) (notPublish : ∀ p, action ≠ .publish p)
    (notSubscribe : ∀ p, action ≠ .subscribe p) (g g' : Ptr MQTTSharedData) :
    FreshIdentifier log g call a g' := by
  rw [FreshIdentifier, asks]
  split
  · exact absurd (Option.some.inj ‹_›) (notPublish _)
  · exact absurd (Option.some.inj ‹_›) (notSubscribe _)
  · trivial

theorem fresh_of_idle {log : IdentifierLog} (call : Env × ApiCall) {a : Answer}
    (idle : s.state ≠ .connected) (g' : Ptr MQTTSharedData) :
    FreshIdentifier log (some s) call a g' := by
  have closed : ∀ t ∈ some s, t.state ≠ .connected := by
    rintro _ ⟨⟩
    exact idle
  rw [FreshIdentifier]
  split
  · exact fun t mem connected => absurd connected (closed t mem)
  · exact fun t mem connected => absurd connected (closed t mem)
  · trivial

section Run

variable {env : Env} {call : ApiCall} {o : Outcome} {g₁ : Ptr MQTTSharedData} {log : IdentifierLog}

theorem wellIdentified_silent (silent : Unidentified a.events) (kept : IdentifiersKept log g)
    (same : g'.map (·.mqttPacketCntr) = g.map (·.mqttPacketCntr))
    (fresh : FreshIdentifier log g (env, call) a g') :
    (WellIdentified log g (env, call) a g' ↔ FreshIdentifier log g (env, call) a g') ∧
      IdentifiersKept (noteIdentifiers log (env, call) a) g' :=
  ⟨iff_of_true (wellIdentified_of_unidentified silent g g') fresh,
    kept_of_unidentified silent kept same⟩

theorem wellIdentified_publish {actionPtr : Ptr (Ptr MQTTPublish)}
    (run : mqtt (some s) (env, .publish actionPtr) = .ok (o, g₁))
    (asks : call.asks env = some (.publish actionPtr)) (requests : call.requests = true)
    (init : call.initialises env = false) (kept : IdentifiersKept log (some s))
    (events : a.events = o.events)
    (settled : g'.map (·.mqttPacketCntr) = g₁.map (·.mqttPacketCntr)) :
    (WellIdentified log (some s) (env, call) a g' ↔
        FreshIdentifier log (some s) (env, call) a g') ∧
      IdentifiersKept (noteIdentifiers log (env, call) a) g' := by
  rcases actionPublish_spec run with ⟨idle, rfl, rfl⟩ | ⟨connected, p, rfl, encoded⟩
  · refine wellIdentified_silent (unidentified_of_nil events) kept settled ?_
    rcases idle with idle | rfl
    · exact fresh_of_idle (env, call) idle g'
    · simp [FreshIdentifier, asks]
  · have request := wellIdentified_request (env, call) (0 < p.flags.qos.toBits)
      (publishBodySize p.flags.qos p.topicLength p.messageBufferSize < 268435456) kept requests init
      events encoded (fun _ => rfl) (fun data formed => formed.identified_iff)
      (fun data formed id => ?_) (some s) g'
    · refine ⟨request.1.trans ?_, request.2 settled⟩
      simp [FreshIdentifier, asks, connected]
    · rw [formed.identifier id]
      split
      case isTrue fits => exact .inl ⟨fits, rfl⟩
      case isFalse large => exact .inr ⟨large, rfl⟩

theorem wellIdentified_subscribe {actionPtr : Ptr (Ptr MQTTSubscribe)}
    (run : mqtt (some s) (env, .subscribe actionPtr) = .ok (o, g₁))
    (asks : call.asks env = some (.subscribe actionPtr)) (requests : call.requests = true)
    (init : call.initialises env = false) (kept : IdentifiersKept log (some s))
    (events : a.events = o.events)
    (settled : g'.map (·.mqttPacketCntr) = g₁.map (·.mqttPacketCntr)) :
    (WellIdentified log (some s) (env, call) a g' ↔
        FreshIdentifier log (some s) (env, call) a g') ∧
      IdentifiersKept (noteIdentifiers log (env, call) a) g' := by
  rcases actionSubscribe_spec run with ⟨idle, rfl, rfl⟩ | ⟨connected, p, rfl, encoded⟩
  · refine wellIdentified_silent (unidentified_of_nil events) kept settled ?_
    rcases idle with idle | rfl
    · exact fresh_of_idle (env, call) idle g'
    · simp [FreshIdentifier, asks]
  · have request := wellIdentified_request (env, call) True True kept requests init events encoded
      (fun _ => rfl)
      (fun data formed => iff_of_true (.inl formed.packetType) trivial)
      (fun data formed _ => .inl ⟨trivial, formed.identifier⟩) (some s) g'
    refine ⟨request.1.trans ?_, request.2 settled⟩
    simp [FreshIdentifier, asks, connected]

theorem wellIdentified_step (step : api g (env, call) = .ok (a, g'))
    (kept : IdentifiersKept log g) :
    (WellIdentified log g (env, call) a g' ↔ FreshIdentifier log g (env, call) a g') ∧
      IdentifiersKept (noteIdentifiers log (env, call) a) g' := by
  rcases api_acts step with ⟨asks, events, rfl⟩ | ⟨action, asks, o, g₁, run, events, left⟩
  · exact wellIdentified_silent (unidentified_of_nil events) kept rfl (by simp [FreshIdentifier, asks])
  have settled : g'.map (·.mqttPacketCntr) = g₁.map (·.mqttPacketCntr) := by
    rcases left with rfl | rfl
    · rfl
    · rw [Option.map_map]
      rfl
  rcases asks_cases asks with ⟨init, which⟩ | ⟨init, found, notInit, requests⟩
  · have silent : Unidentified a.events := by
      rw [events]
      rcases which with ⟨p, rfl⟩ | ⟨connectPtr, s, rfl, found⟩
      · cases p <;> cases run
        exact unidentified_nil
      · rw [found] at run
        exact (mqtt_unidentified run ⟨fun _ => nofun, fun _ => nofun, fun _ => nofun⟩).1
    refine ⟨iff_of_true (wellIdentified_of_unidentified silent _ _) ?_,
      kept_of_initialises silent init _⟩
    rcases which with ⟨p, rfl⟩ | ⟨connectPtr, s, rfl, found⟩
    · exact fresh_of_other (env, call) asks (fun _ => nofun) (fun _ => nofun) _ _
    · exact fresh_of_other (env, call) asks (fun _ => nofun) (fun _ => nofun) _ _
  · rw [found] at run
    cases g with
    | none =>
      have silent : Unidentified a.events := by
        rw [events]
        exact fun data ret mem => absurd mem (mqtt_none_silent run)
      have same : g₁ = none := by
        rcases mqtt_none run with same | ⟨p, s, rfl, rfl, _⟩
        · exact same
        · cases p with
          | none => cases run
          | some p => exact absurd rfl (notInit p)
      rw [same] at settled
      refine wellIdentified_silent silent kept settled ?_
      rw [FreshIdentifier]
      split <;> simp
    | some s =>
      by_cases publish : ∃ p, action = .publish p
      · obtain ⟨p, rfl⟩ := publish
        exact wellIdentified_publish run asks (requests (.inl ⟨p, rfl⟩)) init kept events settled
      · by_cases subscribe : ∃ p, action = .subscribe p
        · obtain ⟨p, rfl⟩ := subscribe
          exact wellIdentified_subscribe run asks (requests (.inr ⟨p, rfl⟩)) init kept events settled
        · have notPublish := not_exists.mp publish
          have notSubscribe := not_exists.mp subscribe
          obtain ⟨silent, cntr⟩ := mqtt_unidentified run ⟨notPublish, notSubscribe, notInit⟩
          rw [← events] at silent
          exact wellIdentified_silent silent kept (settled.trans cntr)
            (fresh_of_other (env, call) asks notPublish notSubscribe _ _)

end Run

/-- In a run of the API the packets are well identified exactly if each request that
forms one finds a free identifier. -/
theorem wellIdentified_iff (calls : List (Env × ApiCall)) :
    Machine.Always api noteIdentifiers WellIdentified .empty none calls ↔
      Machine.Always api noteIdentifiers FreshIdentifier .empty none calls := by
  refine Machine.always_iff (I := IdentifiersKept) ?_ (by simp [IdentifiersKept, IdentifierLog.empty])
  rintro log g ⟨env, call⟩ a g' step kept
  obtain ⟨agree, kept'⟩ := wellIdentified_step step kept
  exact ⟨agree, fun _ => kept'⟩

theorem subscribe_unidentified :
    ¬ Machine.Always api noteIdentifiers WellIdentified .empty none
      [(.prompt, .connect .sample),
        (.prompt, .subscribe (some (ofList [0x61, 0x62, 0x63] 0)) 3 0)] := by
  intro run
  refine absurd (run.mono (P := fun _ _ _ a _ =>
    some 0 ∉ a.events.map Event.identifier) ?_) (by decide +kernel)
  rintro log g call a g' well mem
  obtain ⟨e, mem, zero⟩ := List.mem_map.mp mem
  cases e with
  | out data ret =>
    by_cases identified : Identified data
    · obtain ⟨id, carried, nonzero, _⟩ := well.carried data ret mem identified
      rw [Event.identifier, if_pos identified, carried] at zero
      exact nonzero (Option.some.inj zero)
    · rw [Event.identifier, if_neg identified] at zero
      cases zero
  | parsed input => cases zero
  | connectedCb status => cases zero
  | subscribeCb _ _ _ _ _ => cases zero

end RojalMQTT
