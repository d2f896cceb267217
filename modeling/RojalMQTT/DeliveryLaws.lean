import RojalMQTT.StreamLaws
import RojalMQTT.PublishCallLaws
import RojalMQTT.TransportLaws
import RojalMQTT.ReceiveLaws

/-! From `mqtt_publish` over the stream to the subscribe callback of another client. -/

namespace RojalMQTT

open Library

structure Message where
  topic : List UInt8
  message : List UInt8
  hasTopic : 0 < topic.length
  hasMessage : 0 < message.length
  short : topic.length < 65536
  fits : 2 + topic.length + message.length < 268435456

namespace Message

def packet (m : Message) : PublishPacket := .plain m.topic m.message

theorem length_body (m : Message) : m.packet.body.length = 2 + m.topic.length + m.message.length :=
  m.packet.length_body

theorem body_fits (m : Message) : m.packet.body.length < 268435456 := by
  rw [length_body]
  exact m.fits

def frame (m : Message) : Frame := .ofBody 0x30 m.packet.body m.body_fits

def PublishedBy (m : Message) (call : ApiCall) : Prop :=
  ∃ topic msg, Spells topic 0 m.topic ∧ Spells msg 0 m.message ∧
    call.Publishes topic m.topic.length msg m.message.length

def ToldBy (m : Message) (call : ApiCall) (a : Answer) : Prop :=
  ∃ input amount topicPtr dataPtr, call = .receive (some input) amount ∧ a.ret = true ∧
    a.events = [.parsed input,
      .subscribeCb .successfull (some dataPtr) m.message.length (some topicPtr) m.topic.length] ∧
    slice input topicPtr m.topic.length = m.topic ∧
    slice input dataPtr m.message.length = m.message

end Message

def ApiCall.HandsOver (call : ApiCall) (data : List UInt8) : Prop :=
  ∃ input, Spells input 0 data ∧ call = .receive (some input) data.length

section Sender

variable {env : Env} {g : Ptr MQTTSharedData} {m : Message}

theorem Message.topicLength (m : Message) : (UInt16.ofNat m.topic.length).toNat = m.topic.length := by
  rw [UInt16.toNat_ofNat']
  exact Nat.mod_eq_of_lt m.short

theorem Message.messageLength (m : Message) :
    (UInt32.ofNat m.message.length).toNat = m.message.length := by
  have := m.fits
  rw [UInt32.toNat_ofNat']
  omega

theorem Message.plain (m : Message) (topic msg outputBuffer : Ptr Mem) (outputBufferSize : UInt32) :
    (MQTTAction.publish (some (some (publishParameters env topic m.topic.length msg
      m.message.length outputBuffer outputBufferSize)))).Plain := by
  refine ⟨⟨rfl, rfl⟩, rfl, ?_⟩
  change publishBodySize .qos0 (UInt16.ofNat m.topic.length) (UInt32.ofNat m.message.length) < _
  rw [publishBodySize, m.topicLength, m.messageLength, identifierSize, if_neg (by decide)]
  exact m.fits

theorem Message.transmitted (m : Message) {call : ApiCall} (published : m.PublishedBy call)
    (h : api g (env, call) = .ok (a, g')) (sent : a.ret = true) : a.transmitted = m.frame.bytes := by
  obtain ⟨topic, msg, onTopic, carried, publishes⟩ := published
  obtain ⟨buffer, size, asks⟩ : ∃ buffer size, call.asks env = some (.publish (some (some
      (publishParameters env (some topic) m.topic.length (some msg) m.message.length buffer
        size)))) := by
    cases publishes with
    | shared => exact ⟨none, 0, rfl⟩
    | special buffer size => exact ⟨buffer, size, rfl⟩
  have plain : ∀ action ∈ call.asks env, action.Plain := by
    rw [asks]
    rintro _ ⟨⟩
    exact m.plain _ _ _ _
  rcases api_handsOut h plain with ⟨none, -⟩ | ⟨action, o, same, handsOut, events, ret⟩
  · rw [asks] at none
    cases none
  · obtain rfl := Option.some.inj (asks.symm.trans same)
    obtain ⟨packet, asked, spelled⟩ := handsOut.sent rfl ((ret rfl).mp sent)
    obtain ⟨onTopic', carried'⟩ | ⟨onTopic', carried'⟩ := asked
    cases onTopic'
    cases carried'
    rw [Answer.transmitted, events, spelled.bytes, List.flatMap_singleton,
      packet_publishParameters _ onTopic carried m.topicLength m.messageLength]
    rfl

end Sender

section Receiver

variable {env : Env} {m : Message} {s : MQTTSharedData}

theorem Message.told (m : Message) (env : Env) {call : ApiCall} (hands : call.HandsOver m.frame.bytes)
    (set : s.subscribeCbFptr ≠ none) : ∃ a s', api (some s) (env, call) = .ok (a, some s') ∧
      m.ToldBy call a ∧ s'.subscribeCbFptr = s.subscribeCbFptr := by
  obtain ⟨input, spells, rfl⟩ := hands
  obtain ⟨t, d, parsed, topicAt, messageAt⟩ := m.packet.parsed nofun m.hasTopic m.short m.hasMessage
    m.body_fits spells (UInt32.ofNat m.frame.bytes.length).toNat set
  have run : api (some s) (env, .receive (some input) m.frame.bytes.length) = .ok (⟨true,
      [.parsed input, .subscribeCb .successfull (some d) m.message.length (some t) m.topic.length]⟩,
      some s.restartTimer) := by
    simp only [api, mqttReceive, mqtt, actionParseInputStream, Ptr.deref_some, ok_bind, parsed]
    rfl
  exact ⟨_, _, run, ⟨input, _, t, d, rfl, rfl, rfl, topicAt.slice_eq, messageAt.slice_eq⟩, rfl⟩

end Receiver

def Message.sample : Message where
  topic := [0x61]
  message := [0x68, 0x69]
  hasTopic := by decide
  hasMessage := by decide
  short := by decide
  fits := by decide

/-- What is handed on are pieces of the stream, of two bytes or more each, in the order in
which they stand there and without an overlap.  Single bytes may be left out between
them, and anything behind the last one. -/
inductive Pieces : List UInt8 → List (List UInt8) → Prop
  | rest (stream : List UInt8) : Pieces stream []
  | lost (byte : UInt8) (h : Pieces stream pieces) : Pieces (byte :: stream) pieces
  | piece (some : 2 ≤ data.length) (h : Pieces stream pieces) : Pieces (data ++ stream) (data :: pieces)

theorem Pieces.sublist (h : Pieces stream pieces) : pieces.flatten.Sublist stream := by
  induction h with
  | rest stream => exact List.nil_sublist stream
  | lost byte h ih => exact ih.cons byte
  | piece some h ih => exact (List.Sublist.refl _).append ih

theorem receiveLoop_pieces (thread : Receiver) (sizes : Nat → Nat) (pos : Nat)
    (stream : List UInt8) : Pieces stream (receiveLoop thread sizes pos stream) := by
  induction n : stream.length using Nat.strongRecOn generalizing pos stream with
  | ind n ih =>
    subst n
    by_cases goes : stream = []
    · rw [receiveLoop, dif_pos goes]
      exact .rest stream
    rcases Nat.lt_or_ge (recv sizes pos stream 31).length 2 with lost | first
    · obtain ⟨byte, stream, rfl⟩ := List.exists_cons_of_ne_nil goes
      rw [receiveLoop_lost thread sizes pos goes lost]
      exact .lost byte (ih stream.length (Nat.lt_succ_self _) (pos + 1) stream rfl)
    · rw [receiveLoop_turn thread sizes pos rfl first]
      split
      case isTrue fits =>
        generalize size : thread.handedSize (recv sizes pos stream 31) = k at fits
        have some : 2 ≤ k := by
          rw [← size, Receiver.handedSize]
          split <;> omega
        have left := ih (stream.drop k).length (by rw [List.length_drop]; omega) (pos + k) _ rfl
        have handed : 2 ≤ (stream.take k).length := by
          rw [List.length_take]
          omega
        have piece := Pieces.piece handed left
        rwa [List.take_append_drop] at piece
      case isFalse => exact .rest stream

/-- Both threads hand on pieces of what they read: no byte is made up, handed on twice
or moved.  The block of the task holds all that its loop asks for; that of the thread does
so exactly behind a first read that does not pass its packet. -/
theorem threads_handPieces (sizes : Nat → Nat) (stream : List UInt8) :
    (Pieces stream (socketReceiveThread sizes stream) ∧
      (socketReceiveThread sizes stream).flatten.Sublist stream) ∧
    (Pieces stream (prvReceiveTask sizes stream) ∧
      (prvReceiveTask sizes stream).flatten.Sublist stream) ∧
    ∀ header : List UInt8, header.length ≤ 31 →
      (header.length + remainingBytes header ≤ Receiver.socketReceiveThread.blockSize header ↔
        header.length ≤ getRemainingsize (some (ofList header 0))) ∧
      (prvReadsMore (remainingBytes header) = true →
        header.length + remainingBytes header ≤ Receiver.prvReceiveTask.blockSize header) := by
  have socket := receiveLoop_pieces .socketReceiveThread sizes 0 stream
  have task := receiveLoop_pieces .prvReceiveTask sizes 0 stream
  refine ⟨⟨socket, socket.sublist⟩, ⟨task, task.sublist⟩, fun header first => ⟨?_, fun more => ?_⟩⟩
  · exact Receiver.socketReceiveThread.le_blockSize_iff first
  · have few : remainingBytes header < 1024 := (of_decide_eq_true more).2
    exact Receiver.prvReceiveTask.le_blockSize (by omega)

end RojalMQTT
