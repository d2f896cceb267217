import RojalMQTT.CommandLineLaws
import RojalMQTT.DeliveryLaws

/-! Files that the command line client publishes and receives. -/

namespace RojalMQTT

open Library

namespace CommandLine

section Call

variable {s : MQTTSharedData}

theorem Turn.of_run {turn : Turn} {call : ApiCall}
    (h : turn.run (fun env g => api g (env, call)) (some s) = .ok (answer, g')) :
    ∃ answer', api (some (s.received turn.inputs)) (turn.env, call) = .ok (answer', g') ∧
      answer.ret = answer'.ret ∧ answer.transmitted = answer'.transmitted := by
  obtain ⟨events, received, quiet⟩ := receiveAll_some turn.inputs s
  simp only [Turn.run, received, ok_bind] at h
  obtain ⟨⟨answer', g₁⟩, run, h⟩ := bind_eq_ok h
  cases h
  refine ⟨answer', run, rfl, ?_⟩
  rw [Answer.transmitted, List.flatMap_append, transmitted_of_quiet quiet.not_out, List.nil_append]
  rfl

end Call

theorem spells_slice (m : Nat → UInt8) (i n : Nat) : Spells m i (slice m i n) := by
  induction n generalizing i with
  | zero => trivial
  | succ n ih => exact ⟨rfl, ih (i + 1)⟩

def content (w : World) (a : Arguments) : Option (List UInt8) :=
  if 0 < a.message.strlen then some a.message.bytes
  else if 0 < a.filename.strlen then
    match w.fopen a.filename with
    | none => none
    | some f => f.buf.bind fun buf =>
      if f.bytes.length ≠ f.itemsRead then some (slice buf 0 f.bytes.length) else none
  else none

/-- Of a file that was read, `buf` holds its bytes. -/
theorem content_of_complete {w : World} {a : Arguments} {f : OpenFile} (unsaid : ¬ 0 < a.message.strlen)
    (opens : w.fopen a.filename = some f) (complete : f.complete = true)
    (carried : content w a = some message) : message = f.bytes := by
  rw [content, if_neg unsaid] at carried
  obtain ⟨-, carried⟩ := Option.ite_none_right_eq_some.mp carried
  rw [opens] at carried
  obtain ⟨buf, allocated, carried⟩ := Option.bind_eq_some_iff.mp carried
  obtain ⟨-, same⟩ := Option.ite_none_right_eq_some.mp carried
  rw [← Option.some.inj same]
  exact (f.filled complete buf allocated).slice_eq

section File

variable {w : World} {a : Arguments} {f : OpenFile} {s : MQTTSharedData}

theorem publishSize_le_mqttbufSize {len topicLength : Nat} (short : topicLength < 65536)
    (fits : 2 + topicLength + len < 268435456) :
    publishSize .qos0 (UInt16.ofNat topicLength) (UInt32.ofNat len) ≤
      (mqttbufSize len topicLength).toNat := by
  have digits := length_digits_le_four (n := 2 + topicLength + len) fits
  have body : publishBodySize .qos0 (UInt16.ofNat topicLength) (UInt32.ofNat len) =
      2 + topicLength + len := by
    rw [publishBodySize, UInt16.toNat_ofNat', UInt32.toNat_ofNat', identifierSize, if_neg (by decide)]
    omega
  have header : sizeofFixedHeader = 5 := rfl
  rw [publishSize, body, mqttbufSize, UInt32.toNat_ofNat', header]
  omega

theorem publishCall_ret {env : Env} {topic msg : Mem} {topicSize msgSize : Nat} {buffer : Ptr Mem}
    {size : UInt32} (connected : s.state = .connected) (forms : FormsPublish s (publishParameters env
      (some topic) topicSize (some msg) msgSize buffer size) data)
    (takes : env.ret data = int32 data.length)
    (h : mqttPublishBuf env (some topic) topicSize (some msg) msgSize buffer size (some s) =
      .ok (answer, g')) : answer.ret = true := by
  rw [mqttPublishBuf, if_pos ⟨Option.some_ne_none _, Option.some_ne_none _⟩] at h
  obtain ⟨⟨o, g₁⟩, run, h⟩ := bind_eq_ok h
  cases h
  have run : actionPublish env (some (some (publishParameters env (some topic) topicSize (some msg)
    msgSize buffer size))) (some s) = .ok (o, g') := run
  rcases actionPublish_spec run with ⟨none, -, -⟩ | ⟨-, p, same, _, -, encoded⟩
  · rcases none with other | none
    · exact absurd connected other
    · cases none
  · cases same
    rcases encoded with ⟨none, -, -⟩ | ⟨data', s', forms', -, sends⟩
    · exact absurd forms (none data)
    · obtain ⟨-, -, t, m, onTopic, carried, -, rfl⟩ := forms
      obtain ⟨-, -, t', m', onTopic', carried', -, rfl⟩ := forms'
      obtain rfl := Option.some.inj (onTopic.symm.trans onTopic')
      obtain rfl := Option.some.inj (carried.symm.trans carried')
      exact decide_eq_true (sends.status_iff.mpr takes)

/-- With memory, a connection and a socket that takes the packet, a file is published
exactly if it is not empty and not one byte that was read: `fread` returns the number of
items. -/
theorem publishFile_iff (opens : w.fopen a.filename = some f) (allocated : f.buf = some buf)
    (topic : 0 < a.topic.strlen) (short : a.topic.strlen < 65536)
    (fits : 2 + a.topic.strlen + f.bytes.length < 268435456) (memory : ∀ n, w.malloc n ≠ none) (ready : Ready s)
    (connected : (s.received w.request.inputs).state = .connected)
    (takes : ∀ data, w.request.env.ret data = int32 data.length) :
    ∃ answer s', publishFile w a (some s) = .ok (answer, some s') ∧
      (answer.ret = true ↔ f.bytes.length ≠ 0 ∧ (f.complete = true → f.bytes.length ≠ 1)) ∧
      (f.complete = true → answer.ret = true → ∃ m : Message, m.topic = a.topic.bytes ∧
        m.message = f.bytes ∧ answer.transmitted = m.frame.bytes) := by
  have read : f.bytes.length ≠ f.itemsRead ↔
      f.bytes.length ≠ 0 ∧ (f.complete = true → f.bytes.length ≠ 1) := by
    rw [OpenFile.itemsRead]
    by_cases complete : f.complete = true
    · simp only [complete, true_and, true_imp_iff]
      split <;> omega
    · simp [complete]
  rw [publishFile, opens]
  dsimp only
  rw [allocated]
  dsimp only
  split
  case isFalse not =>
    refine ⟨_, s, rfl, iff_of_false (by decide) fun some => not (read.mpr some),
      fun _ sent => absurd sent Bool.false_ne_true⟩
  case isTrue published =>
    obtain ⟨buffer, room⟩ := Option.ne_none_iff_exists'.mp
      (memory (mqttbufSize f.bytes.length a.topic.strlen).toNat)
    rw [room]
    obtain ⟨answer', answer, s', call, run, ret, -, -⟩ := w.request.run_api
      (.publishBuf (chars a.topic) a.topic.strlen (some buf) f.bytes.length (some buffer)
        (mqttbufSize f.bytes.length a.topic.strlen)) ready trivial
    have size := publishSize_le_mqttbufSize short fits
    have bytes := (read.mp published).1
    have body : publishBodySize .qos0 (UInt16.ofNat a.topic.strlen) (UInt32.ofNat f.bytes.length) <
        mqttMaxMessageSize := by
      rw [publishBodySize, UInt16.toNat_ofNat', UInt32.toNat_ofNat', identifierSize,
        if_neg (by decide), mqttMaxMessageSize]
      omega
    have hasTopic : 0 < (UInt16.ofNat a.topic.strlen).toNat := by
      rw [UInt16.toNat_ofNat']
      omega
    have hasMessage : 0 < (UInt32.ofNat f.bytes.length).toNat := by
      rw [UInt32.toNat_ofNat']
      omega
    have accepted : PublishAccepted (mqttbufSize f.bytes.length a.topic.strlen) .qos0
        (some (ofList a.topic.bytes 0)) (UInt16.ofNat a.topic.strlen) (some buf)
        (UInt32.ofNat f.bytes.length) :=
      publishAccepted_of_fits (by decide) hasTopic hasMessage size body
    have special : 0 < (mqttbufSize f.bytes.length a.topic.strlen).toNat := by
      rw [publishSize] at size
      omega
    have sent : answer.ret = true := by
      rw [ret]
      refine publishCall_ret connected ⟨ready.out, ?_, _, _, rfl, rfl, ?_, rfl⟩ (takes _) call
      · simp [transmitBuffer, publishParameters, special]
      · simpa [transmitSize, publishParameters, special] using accepted
    refine ⟨answer, s', run, iff_of_true sent (read.mp published), fun complete _ => ?_⟩
    let m : Message := ⟨a.topic.bytes, f.bytes, topic, Nat.pos_of_ne_zero bytes, short, fits⟩
    obtain ⟨answer₁, call₁, ret₁, transmitted⟩ := Turn.of_run run
    refine ⟨m, rfl, rfl, ?_⟩
    rw [transmitted]
    exact m.transmitted ⟨ofList a.topic.bytes 0, buf, spells_ofList _ _, f.filled complete buf allocated,
      .special _ _⟩ call₁ (ret₁ ▸ sent)

end File

def OpenFile.sample : OpenFile where
  bytes := [0x68, 0x69]
  buf := some (ofList [0x68, 0x69] 0)
  complete := true
  filled _ _ same := Option.some.inj same ▸ spells_ofList _ _

def Arguments.ofFile : Arguments :=
  { Arguments.sample with topic := ⟨[0x61], by decide⟩, filename := .abc }

def World.ofFile : World :=
  { World.sample with fopen := fun _ => some .sample, malloc := fun _ => some fun _ => 0 }

theorem publishFile_iff_sample : ∃ answer s',
    publishFile .ofFile .ofFile (some { MQTTSharedData.sample with state := .connected }) =
      .ok (answer, some s') ∧
    (answer.ret = true ↔ OpenFile.sample.bytes.length ≠ 0 ∧
      (OpenFile.sample.complete = true → OpenFile.sample.bytes.length ≠ 1)) := by
  have ready : Ready { MQTTSharedData.sample with state := .connected } :=
    ⟨Option.some_ne_none 1, .inr (by decide)⟩
  obtain ⟨answer, s', run, sent, -⟩ := publishFile_iff (w := .ofFile) (a := .ofFile) (f := .sample)
    rfl rfl (by decide) (by decide) (by decide) (fun _ => Option.some_ne_none _) ready rfl fun _ => rfl
  exact ⟨answer, s', run, sent⟩

end CommandLine

end RojalMQTT
