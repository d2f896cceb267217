import RojalMQTT.EncoderLaws

/-! What a request sends does not depend on the buffer in which it is assembled. -/

namespace RojalMQTT

open Library

def MQTTSharedData.forgetBuffer (s : MQTTSharedData) : MQTTSharedData :=
  { s with buffer := none, bufferSize := 0 }

theorem mqttParseInputStream_forget (input : Mem) (n : Nat) (s : MQTTSharedData) :
    mqttParseInputStream (some input) n (some s.forgetBuffer) =
      (mqttParseInputStream (some input) n (some s)).map fun r =>
        { r with shared := r.shared.map (·.forgetBuffer) } := by
  simp only [mqttParseInputStream]
  cases (decodeFixedHeader input).next with
  | none => rfl
  | some next =>
    cases (decodeFixedHeader input).messageType with
    | connack => rfl
    | publish =>
      simp only [parsePublish]
      cases decodePublish input next (decodeFixedHeader input).messageSize
        (decodeFixedHeader input).qos <;> rfl
    | suback =>
      have cb : s.forgetBuffer.subscribeCbFptr = s.subscribeCbFptr := rfl
      simp only [parseSuback, Option.bind_some, cb]
      cases s.subscribeCbFptr with
      | none => rfl
      | some _ =>
        simp only
        split <;> rfl
    | _ => rfl

section Receiver

variable {s s' : MQTTSharedData}

theorem actionParseInputStream_same (input : Mem) (n : UInt32)
    (same : s.forgetBuffer = s'.forgetBuffer) :
    ∃ o t t', actionParseInputStream (some (some ⟨some input, n⟩)) (some s) = .ok (o, some t) ∧
      actionParseInputStream (some (some ⟨some input, n⟩)) (some s') = .ok (o, some t') ∧
      t.forgetBuffer = t'.forgetBuffer := by
  have parsed := mqttParseInputStream_forget input n.toNat s
  rw [same, mqttParseInputStream_forget] at parsed
  obtain ⟨r, run, shared, -⟩ := mqttParseInputStream_some input n.toNat s
  obtain ⟨r', run', shared', -⟩ := mqttParseInputStream_some input n.toNat s'
  simp only [run, run', Except.map, Except.ok.injEq, Parsed.mk.injEq] at parsed
  obtain ⟨status, -, events, -⟩ := parsed
  refine ⟨⟨r.status, .parsed input :: r.events⟩, s.received [input], s'.received [input], ?_, ?_,
    congrArg (fun t => t.received [input]) same⟩
  · simp only [actionParseInputStream, Ptr.deref_some, ok_bind, run, shared]
    rfl
  · simp only [actionParseInputStream, Ptr.deref_some, ok_bind, run', shared', status, events]
    rfl

theorem receiveAll_same (inputs : List Mem) (same : s.forgetBuffer = s'.forgetBuffer) :
    ∃ events t t', receiveAll inputs (some s) = .ok (events, some t) ∧
      receiveAll inputs (some s') = .ok (events, some t') ∧ t.forgetBuffer = t'.forgetBuffer := by
  induction inputs generalizing s s' with
  | nil => exact ⟨[], s, s', rfl, rfl, same⟩
  | cons input inputs ih =>
    obtain ⟨o, t, t', first, first', between⟩ := actionParseInputStream_same input 0 same
    obtain ⟨events, u, u', rest, rest', after⟩ := ih between
    exact ⟨_, u, u', by simp only [receiveAll, first, ok_bind, rest]; rfl,
      by simp only [receiveAll, first', ok_bind, rest']; rfl, after⟩

theorem callOut_same (env : Env) (stack : Mem) (calls : List (List UInt8))
    (same : s.forgetBuffer = s'.forgetBuffer) :
    ∃ events t t', callOut env calls (some s) = .ok (events, some t) ∧
      callOut { env with stack } calls (some s') = .ok (events, some t') ∧
      t.forgetBuffer = t'.forgetBuffer := by
  induction calls generalizing s s' with
  | nil => exact ⟨[], s, s', rfl, rfl, same⟩
  | cons data calls ih =>
    obtain ⟨received, t, t', first, first', between⟩ := receiveAll_same env.meanwhile same
    obtain ⟨events, u, u', rest, rest', after⟩ := ih between
    exact ⟨_, u, u', by simp only [callOut, first, ok_bind, rest]; rfl,
      by simp only [callOut, first', ok_bind, rest']; rfl, after⟩

end Receiver

def forgetBuffer (result : Acted) : Acted :=
  result.map fun r => (r.1, r.2.map MQTTSharedData.forgetBuffer)

inductive SameRequest : MQTTAction → MQTTAction → Prop
  | connect (c : MQTTConnect) : SameRequest (.connect (some (some c))) (.connect (some (some c)))
  | publish (p : MQTTPublish) (outputBufferPtr : Ptr Mem) (outputBufferSize : UInt32) :
      SameRequest (.publish (some (some p)))
        (.publish (some (some { p with outputBufferPtr, outputBufferSize })))
  | subscribe (p : MQTTSubscribe) : SameRequest (.subscribe (some (some p))) (.subscribe (some (some p)))

def HasRoom (s : MQTTSharedData) : MQTTAction → Prop
  | .connect (some (some c)) => s.buffer ≠ none ∧ ConnectRoom c s.bufferSize
  | .publish (some (some p)) => transmitBuffer s p ≠ none ∧
      sizeofFixedHeader < (transmitSize s p).toNat ∧
      publishHeaderSize p.flags.qos p.topicLength p.messageBufferSize < (transmitSize s p).toNat
  | .subscribe (some (some p)) => s.buffer ≠ none ∧
      p.topicLength.toNat < (UInt32.ofNat s.bufferSize).toNat ∧
      (Base128.digits (subscribeRemaining p.qos p.topicLength)).length + 1 <
        (UInt32.ofNat s.bufferSize).toNat
  | _ => True

def connectOutcome (outFptr : Ptr (List UInt8 → Int)) (c : MQTTConnect) :
    MQTTErrorCodes × List (List UInt8) :=
  let data := (connectBytes c).take (u16 (connectBytes c).length)
  match outFptr with
  | some ret =>
    if ConnectComplete c then
      (if ret data = data.length then .successfull else .serverUnavailabe, [data])
    else (.invalidArgument, [])
  | none => (.invalidArgument, [])

theorem mqttConnect_of_room {buffer : Ptr Mem} {maxBufferSize : Nat}
    (outFptr : Ptr (List UInt8 → Int)) {c : MQTTConnect} (stack : Mem) (there : buffer ≠ none)
    (room : ConnectRoom c maxBufferSize) :
    ∃ left, mqttConnect_ buffer maxBufferSize none outFptr (some c) false stack =
      .ok ⟨(connectOutcome outFptr c).1, (connectOutcome outFptr c).2, left⟩ := by
  obtain ⟨mem, rfl⟩ := Option.ne_none_iff_exists'.mp there
  cases outFptr with
  | none => exact ⟨_, rfl⟩
  | some ret =>
    obtain ⟨q, st, fill, complete⟩ := mqttConnectFill_of_room mem stack 0 room
    simp only [mqttConnect_, fill]
    cases q with
    | none =>
      have incomplete : ¬ ConnectComplete c := fun all => complete.mpr all rfl
      simp only [connectOutcome, if_neg incomplete]
      exact ⟨_, rfl⟩
    | some p =>
      have data := mqttConnectFill_data fill
      have size : st.outputSize = ((connectBytes c).take (u16 (connectBytes c).length)).length := by
        rw [← data]
        exact (length_slice _ _ _).symm
      simp only [connectOutcome, if_pos (complete.mp (Option.some_ne_none p)), data]
      rw [size]
      split
      · exact ⟨_, rfl⟩
      · exact ⟨_, rfl⟩

section Requests

variable {s s' : MQTTSharedData}

theorem field_same {f : MQTTSharedData → α} (same : s.forgetBuffer = s'.forgetBuffer)
    (keep : ∀ s, f s.forgetBuffer = f s) : f s = f s' := by
  rw [← keep s, same, keep s']

theorem outCall_same (env : Env) (stack : Mem) (same : s.forgetBuffer = s'.forgetBuffer) :
    s'.outCall { env with stack } = s.outCall env := by
  have out : s.outFptr = s'.outFptr := field_same same fun _ => rfl
  rw [MQTTSharedData.outCall, MQTTSharedData.outCall, out]

theorem connect_same (env : Env) (stack : Mem) {c : MQTTConnect}
    (same : s.forgetBuffer = s'.forgetBuffer) (room : HasRoom s (.connect (some (some c))))
    (room' : HasRoom s' (.connect (some (some c)))) :
    forgetBuffer (actionConnect env (some (some c)) (some s)) =
      forgetBuffer (actionConnect { env with stack } (some (some c)) (some s')) := by
  have state : s.state = s'.state := field_same same fun _ => rfl
  simp only [actionConnect]
  by_cases idle : s.state = .disconnected
  · have idle' : s'.state = .disconnected := state ▸ idle
    obtain ⟨left, sent⟩ := mqttConnect_of_room (s.outCall env) env.stack room.1 room.2
    obtain ⟨left', sent'⟩ := mqttConnect_of_room (s.outCall env) stack room'.1 room'.2
    have between : { s with buffer := left }.forgetBuffer = { s' with buffer := left' }.forgetBuffer :=
      same
    obtain ⟨events, t, t', run, run', after⟩ :=
      callOut_same env stack (connectOutcome (s.outCall env) c).2 between
    simp only [if_pos idle, if_pos idle', outCall_same env stack same, sent, sent', ok_bind, run, run',
      Ptr.deref_some]
    split
    · exact congrArg (fun t => Except.ok (Outcome.mk .successfull events,
        some (t.connected c.keepalive))) after
    · exact congrArg (fun t => Except.ok (Outcome.mk (connectOutcome (s.outCall env) c).1 events,
        some { t with state := .disconnected })) after
  · have active : s'.state ≠ .disconnected := state ▸ idle
    rw [if_neg idle, if_neg active]
    simp only [forgetBuffer, Except.map, Option.map_some, same]

theorem afterEncoder_same (env : Env) (stack : Mem) {sent sent' : Sent}
    {sentOk : MQTTSharedData → MQTTSharedData} (same : s.forgetBuffer = s'.forgetBuffer)
    (ret : sent.ret = sent'.ret) (calls : sent.calls = sent'.calls)
    (forgets : ∀ s, (sentOk s).forgetBuffer = sentOk s.forgetBuffer) :
    forgetBuffer (afterEncoder env sent s sentOk) =
      forgetBuffer (afterEncoder { env with stack } sent' s' sentOk) := by
  obtain ⟨events, t, t', run, run', after⟩ := callOut_same env stack sent.calls same
  simp only [afterEncoder, ← ret, ← calls, run, run', ok_bind]
  split
  · have left : (sentOk t.restartTimer).forgetBuffer = (sentOk t'.restartTimer).forgetBuffer := by
      rw [forgets, forgets]
      exact congrArg (fun t => sentOk t.restartTimer) after
    exact congrArg (fun t => Except.ok (Outcome.mk .successfull events, some t)) left
  · exact congrArg (fun t => Except.ok (Outcome.mk .invalidArgument events, some t)) after

def Sent.shown (sent : Sent) : Bool × List (List UInt8) := (sent.ret, sent.calls)

theorem encoder_same (env : Env) (stack : Mem) {x x' : Except Fault Sent}
    {t t' : Sent → MQTTSharedData} {sentOk : MQTTSharedData → MQTTSharedData}
    (shown : x.map Sent.shown = x'.map Sent.shown)
    (same : ∀ sent sent', (t sent).forgetBuffer = (t' sent').forgetBuffer)
    (forgets : ∀ s, (sentOk s).forgetBuffer = sentOk s.forgetBuffer) :
    forgetBuffer (x >>= fun sent => afterEncoder env sent (t sent) sentOk) =
      forgetBuffer (x' >>= fun sent => afterEncoder { env with stack } sent (t' sent) sentOk) := by
  cases x with
  | error e =>
    cases x' with
    | error e' =>
      cases shown
      rfl
    | ok sent' => cases shown
  | ok sent =>
    cases x' with
    | error e' => cases shown
    | ok sent' =>
      obtain ⟨ret, calls⟩ := Prod.mk.inj (Except.ok.inj shown)
      exact afterEncoder_same env stack (same sent sent') ret calls forgets

theorem counted_same (same : s.forgetBuffer = s'.forgetBuffer) (cntr : UInt32) (buffer buffer' : Ptr Mem) :
    { s with mqttPacketCntr := cntr, buffer }.forgetBuffer =
      { s' with mqttPacketCntr := cntr, buffer := buffer' }.forgetBuffer :=
  congrArg (fun t => { t with mqttPacketCntr := cntr }) same

theorem encodePublish_same (outFptr : Ptr (List UInt8 → Int)) {output output' : Ptr Mem}
    {size size' : UInt32} {retain dup : Bool} {qos : MQTTQoSLevel} {topic message : Ptr Mem}
    {topicSize packetIdentifier : UInt16} {messageSize : UInt32}
    (there : output ≠ none) (room : sizeofFixedHeader < size.toNat ∧
      publishHeaderSize qos topicSize messageSize < size.toNat)
    (there' : output' ≠ none) (room' : sizeofFixedHeader < size'.toNat ∧
      publishHeaderSize qos topicSize messageSize < size'.toNat) :
    (encodePublish outFptr (output.map .fresh) size retain qos dup topic topicSize packetIdentifier
        message messageSize).map Sent.shown =
      (encodePublish outFptr (output'.map .fresh) size' retain qos dup topic topicSize
        packetIdentifier message messageSize).map Sent.shown := by
  obtain ⟨mem, rfl⟩ := Option.ne_none_iff_exists'.mp there
  obtain ⟨mem', rfl⟩ := Option.ne_none_iff_exists'.mp there'
  simp only [Option.map_some]
  by_cases accepted : PublishAccepted size qos topic topicSize message messageSize
  · have accepted' : PublishAccepted size' qos topic topicSize message messageSize :=
      { accepted with room := room'.1, headerFits := room'.2 }
    obtain ⟨t, rfl⟩ := Option.ne_none_iff_exists'.mp accepted.topic
    obtain ⟨m, rfl⟩ := Option.ne_none_iff_exists'.mp accepted.message
    rw [encodePublish_of_accepted accepted, encodePublish_of_accepted accepted']
    cases outFptr with
    | none => rfl
    | some ret =>
      simp only [handOut, Buffer.read_copy (u32_le _)]
      rfl
  · have refused' : ¬ PublishAccepted size' qos topic topicSize message messageSize :=
      fun accepted' => accepted { accepted' with room := room.1, headerFits := room.2 }
    obtain ⟨_, run, -⟩ :=
      encodePublish_of_refused outFptr (.fresh mem) retain dup packetIdentifier accepted
    obtain ⟨_, run', -⟩ :=
      encodePublish_of_refused outFptr (.fresh mem') retain dup packetIdentifier refused'
    rw [run, run']
    rfl

theorem encodeSubscribe_same (outFptr : Ptr (List UInt8 → Int)) {output output' : Ptr Mem}
    {size size' : UInt32} {topicQos : MQTTQoSLevel} {topic : Ptr Mem}
    {topicSize packetIdentifier : UInt16}
    (there : output ≠ none) (room : topicSize.toNat < size.toNat ∧
      (Base128.digits (subscribeRemaining topicQos topicSize)).length + 1 < size.toNat)
    (there' : output' ≠ none) (room' : topicSize.toNat < size'.toNat ∧
      (Base128.digits (subscribeRemaining topicQos topicSize)).length + 1 < size'.toNat) :
    (encodeSubscribe outFptr (output.map .fresh) size topicQos topic topicSize
        packetIdentifier).map Sent.shown =
      (encodeSubscribe outFptr (output'.map .fresh) size' topicQos topic topicSize
        packetIdentifier).map Sent.shown := by
  obtain ⟨mem, rfl⟩ := Option.ne_none_iff_exists'.mp there
  obtain ⟨mem', rfl⟩ := Option.ne_none_iff_exists'.mp there'
  cases outFptr with
  | none => rfl
  | some ret =>
    cases topic with
    | none => rfl
    | some t =>
      have accepted : SubscribeAccepted size topicQos (some t) topicSize := ⟨nofun, room.1, room.2⟩
      have accepted' : SubscribeAccepted size' topicQos (some t) topicSize :=
        ⟨nofun, room'.1, room'.2⟩
      rw [Option.map_some, Option.map_some, encodeSubscribe_of_accepted accepted,
        encodeSubscribe_of_accepted accepted', handOut_copy, handOut_copy]
      rfl

theorem publish_same (env : Env) (stack : Mem) {p : MQTTPublish} {buffer : Ptr Mem} {size : UInt32}
    (same : s.forgetBuffer = s'.forgetBuffer) (room : HasRoom s (.publish (some (some p))))
    (room' : HasRoom s' (.publish (some (some
      { p with outputBufferPtr := buffer, outputBufferSize := size })))) :
    forgetBuffer (actionPublish env (some (some p)) (some s)) =
      forgetBuffer (actionPublish { env with stack } (some (some
        { p with outputBufferPtr := buffer, outputBufferSize := size })) (some s')) := by
  have state : s.state = s'.state := field_same same fun _ => rfl
  have cntr : s.mqttPacketCntr = s'.mqttPacketCntr := field_same same fun _ => rfl
  simp only [actionPublish]
  by_cases connected : s.state = .connected
  · have connected' : s'.state = .connected := state ▸ connected
    simp only [if_pos connected, if_pos connected', outCall_same env stack same, Ptr.deref_some,
      ok_bind, ← cntr]
    exact encoder_same env stack (encodePublish_same _ room.1 room.2 room'.1 room'.2)
      (fun _ _ => counted_same same _ _ _) fun _ => rfl
  · have idle : s'.state ≠ .connected := state ▸ connected
    simp only [if_neg connected, if_neg idle, forgetBuffer, Except.map, Option.map_some, same]

theorem subscribe_same (env : Env) (stack : Mem) {p : MQTTSubscribe}
    (same : s.forgetBuffer = s'.forgetBuffer) (room : HasRoom s (.subscribe (some (some p))))
    (room' : HasRoom s' (.subscribe (some (some p)))) :
    forgetBuffer (actionSubscribe env (some (some p)) (some s)) =
      forgetBuffer (actionSubscribe { env with stack } (some (some p)) (some s')) := by
  have state : s.state = s'.state := field_same same fun _ => rfl
  have cntr : s.mqttPacketCntr = s'.mqttPacketCntr := field_same same fun _ => rfl
  simp only [actionSubscribe]
  by_cases connected : s.state = .connected
  · have connected' : s'.state = .connected := state ▸ connected
    simp only [if_pos connected, if_pos connected', outCall_same env stack same, Ptr.deref_some,
      ok_bind, ← cntr]
    exact encoder_same env stack (encodeSubscribe_same _ room.1 room.2 room'.1 room'.2)
      (fun _ _ => counted_same same _ _ _) fun _ => rfl
  · have idle : s'.state ≠ .connected := state ▸ connected
    simp only [if_neg connected, if_neg idle, forgetBuffer, Except.map, Option.map_some, same]

/-- Whatever its transmit buffer held before, and whichever buffer that is, a request
that has room in it sends the same, returns the same and leaves the same. -/
theorem no_stale_bytes (env : Env) (stack : Mem) {request request' : MQTTAction}
    (same : s.forgetBuffer = s'.forgetBuffer) (alike : SameRequest request request')
    (room : HasRoom s request) (room' : HasRoom s' request') :
    forgetBuffer (mqtt (some s) (env, request)) =
      forgetBuffer (mqtt (some s') ({ env with stack }, request')) := by
  cases alike with
  | connect c => exact connect_same env stack same room room'
  | publish p buffer size => exact publish_same env stack same room room'
  | subscribe p => exact subscribe_same env stack same room room'

end Requests

def MQTTPublish.sample : MQTTPublish where
  flags := ⟨false, false, .qos1, .publish⟩
  topicPtr := some (ofList [0x61, 0x62, 0x63] 0)
  topicLength := 3
  messageBufferPtr := some (ofList [1, 2] 0)
  messageBufferSize := 2
  outputBufferPtr := none
  outputBufferSize := 0

theorem no_stale_bytes_sample :
    forgetBuffer (mqtt (some { MQTTSharedData.sample with state := .connected })
        (.prompt, .publish (some (some .sample)))) =
      forgetBuffer (mqtt (some { MQTTSharedData.sample with
          state := .connected, buffer := some fun _ => 0xFF, bufferSize := 16 })
        ({ Env.prompt with stack := fun _ => 0xFF }, .publish (some (some { MQTTPublish.sample with
          outputBufferPtr := some fun _ => 0xAA, outputBufferSize := 40 })))) :=
  no_stale_bytes .prompt (fun _ => 0xFF) rfl (.publish .sample (some fun _ => 0xAA) 40)
    ⟨nofun, by decide +kernel⟩ ⟨nofun, by decide +kernel⟩

end RojalMQTT
