import RojalMQTT.Connect
import RojalMQTT.Subscribe

/-! `mqtt_parse_input_stream`. -/

namespace RojalMQTT

open Library

structure Parsed where
  status : MQTTErrorCodes
  messageSize : Nat
  events : List Event
  shared : Ptr MQTTSharedData

def callback (cbFptr : FunPtr) (event : Event) : List Event := cbFptr.elim [] fun _ => [event]

def parseConnack (input : Mem) (nextHeader : Ptr Nat) (messageSize : Nat)
    (g : Ptr MQTTSharedData) : Except Fault Parsed :=
  match decodeVariableHeaderConack input nextHeader with
  | none => .ok { status := .invalidArgument, messageSize, events := [], shared := g }
  | some (_, connectionState) => match g with
    | none => .error .nullDereference
    | some s =>
      let state := if connectionState = 0 then .connected else .disconnected
      .ok { status := .successfull, messageSize,
            events := callback s.connectedCbFptr (.connectedCb connectionState.toNat),
            shared := some { s with state } }

def parsePublish (input : Mem) (nextHeader messageSize : Nat) (qos : MQTTQoSLevel)
    (g : Ptr MQTTSharedData) : Except Fault Parsed :=
  match decodePublish input nextHeader messageSize qos, g with
  | _, none => .error .nullDereference
  | some p, some s =>
    let event := .subscribeCb .successfull (some p.outMessage) p.outMessageSize
      (some p.topicOut) p.topicLengthOut
    .ok { status := .successfull, messageSize, events := callback s.subscribeCbFptr event,
          shared := g }
  | none, some s =>
    let event := .subscribeCb .invalidArgument none 0 none 0
    .ok { status := .invalidArgument, messageSize, events := callback s.subscribeCbFptr event,
          shared := g }

def parseSuback (input : Mem) (messageSize : Nat) (g : Ptr MQTTSharedData) : Parsed :=
  let status := decodeVariableHeaderSuback input
  match g.bind fun s => s.subscribeCbFptr with
  | none => { status, messageSize, events := [], shared := g }
  | some _ =>
    if status = 1 then
      { status := .successfull, messageSize,
        events := [.subscribeCb .successfull none 0 none 0], shared := g }
    else
      { status, messageSize,
        events := [.subscribeCb .publishDecodeError none 0 none 0], shared := g }

def mqttParsePingAck (messageIn : Ptr Mem) : MQTTErrorCodes :=
  match messageIn with
  | none => .serverUnavailabe
  | some input =>
    let header := decodeFixedHeader input
    if header.next ≠ none ∧ header.messageType = .pingresp then .successfull
    else .serverUnavailabe

def mqttParseInputStream (inputPtr : Ptr Mem) (messageSize : Nat) (g : Ptr MQTTSharedData) :
    Except Fault Parsed :=
  match inputPtr with
  | none => .ok { status := .invalidArgument, messageSize, events := [], shared := g }
  | some input =>
    let header := decodeFixedHeader input
    match header.next, header.messageType with
    | none, _ =>
      .ok { status := .invalidArgument, messageSize := header.messageSize, events := [], shared := g }
    | some next, .connack => parseConnack input (some next) header.messageSize g
    | some next, .publish => parsePublish input next header.messageSize header.qos g
    | some _, .suback => .ok (parseSuback input header.messageSize g)
    | some _, .pingresp =>
      .ok { status := .successfull, messageSize := header.messageSize, events := [], shared := g }
    | some _, _ =>
      .ok { status := .invalidArgument, messageSize := header.messageSize, events := [], shared := g }

def connackCode (input : Mem) : Option UInt8 :=
  match (decodeFixedHeader input).next, (decodeFixedHeader input).messageType with
  | some next, .connack => some (input (next + 1))
  | _, _ => none

def stateAfter (state : MQTTState) (input : Mem) : MQTTState :=
  (connackCode input).elim state fun code => if code = 0 then .connected else .disconnected

def Event.IsCallback : Event → Prop
  | .connectedCb _ | .subscribeCb _ _ _ _ _ => True
  | .out _ _ | .parsed _ => False

instance : DecidablePred Event.IsCallback
  | .connectedCb _ | .subscribeCb _ _ _ _ _ => isTrue trivial
  | .out _ _ | .parsed _ => isFalse id

theorem eq_of_mem_callback {cbFptr : FunPtr} {event e : Event} (mem : e ∈ callback cbFptr event) :
    e = event := by
  cases cbFptr with
  | none => cases mem
  | some _ => exact List.mem_singleton.mp mem

theorem isCallback_of_mem_callback {cbFptr : FunPtr} {event e : Event} (h : event.IsCallback)
    (mem : e ∈ callback cbFptr event) : e.IsCallback := by
  rwa [eq_of_mem_callback mem]

theorem parseSuback_frame (input : Mem) (n : Nat) (g : Ptr MQTTSharedData) :
    (parseSuback input n g).shared = g ∧ ∀ e ∈ (parseSuback input n g).events, e.IsCallback := by
  simp only [parseSuback]
  cases g.bind fun s => s.subscribeCbFptr with
  | none => simp
  | some _ =>
    simp only
    split <;> simp [Event.IsCallback]

theorem mqttParseInputStream_some (input : Mem) (n : Nat) (s : MQTTSharedData) :
    ∃ r, mqttParseInputStream (some input) n (some s) = .ok r ∧
      r.shared = some { s with state := stateAfter s.state input } ∧
      ∀ e ∈ r.events, e.IsCallback := by
  simp only [mqttParseInputStream, stateAfter, connackCode]
  cases hn : (decodeFixedHeader input).next with
  | none => exact ⟨_, rfl, rfl, by simp⟩
  | some next =>
    cases ht : (decodeFixedHeader input).messageType with
    | connack => exact ⟨_, rfl, rfl, fun e => isCallback_of_mem_callback trivial⟩
    | publish =>
      simp only [parsePublish]
      cases decodePublish input next (decodeFixedHeader input).messageSize
          (decodeFixedHeader input).qos with
      | none => exact ⟨_, rfl, rfl, fun e => isCallback_of_mem_callback trivial⟩
      | some p => exact ⟨_, rfl, rfl, fun e => isCallback_of_mem_callback trivial⟩
    | suback =>
      obtain ⟨shared, events⟩ := parseSuback_frame input (decodeFixedHeader input).messageSize (some s)
      exact ⟨_, rfl, shared, events⟩
    | _ => exact ⟨_, rfl, rfl, by simp⟩

theorem mqttParseInputStream_uninitialised {inputPtr : Ptr Mem} {n : Nat}
    (h : mqttParseInputStream inputPtr n none = .ok r) : r.shared = none ∧ r.events = [] := by
  cases inputPtr with
  | none =>
    cases h
    exact ⟨rfl, rfl⟩
  | some input =>
    simp only [mqttParseInputStream] at h
    cases hn : (decodeFixedHeader input).next with
    | none =>
      simp only [hn] at h
      cases h
      exact ⟨rfl, rfl⟩
    | some next =>
      cases ht : (decodeFixedHeader input).messageType <;> simp only [hn, ht] at h <;>
        first
        | cases h; exact ⟨rfl, rfl⟩
        | cases h

theorem mqttParseInputStream_none {inputPtr : Ptr Mem} {n : Nat}
    (h : mqttParseInputStream inputPtr n none = .ok r) : r.shared = none :=
  (mqttParseInputStream_uninitialised h).1

end RojalMQTT
