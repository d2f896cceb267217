import RojalMQTT.Actions

/-! The API functions. -/

namespace RojalMQTT

open Library

structure Answer where
  ret : Bool
  events : List Event

abbrev Answered := Except Fault (Answer × Ptr MQTTSharedData)

/-- The loop that sleeps until `done` or until the timeout has run down.  The
receiving thread runs during each `mqtt_sleep`. -/
def waitFor (env : Env) (done : MQTTSharedData → Bool) : Nat → Nat → Ptr MQTTSharedData →
    Except Fault (List Event × Ptr MQTTSharedData)
  | 0, _, g => .ok ([], g)
  | timeout + 1, n, g => do
    let s ← g.deref
    if done s then return ([], g)
    else do
      let (received, g) ← receiveAll (env.asleep n) g
      let (events, g) ← waitFor env done timeout (n + 1) g
      return (received ++ events, g)

def sleeps (timeoutInSec : UInt8) : Nat := timeoutInSec.toNat * 10 % 256

structure ConnectArguments where
  clientName : Ptr CString
  keepaliveTimeout : UInt16
  username : Ptr CString
  password : Ptr CString
  lastWillTopic : Ptr CString
  lastWill : Ptr CString
  sharedData : Ptr MQTTSharedData
  outputBuffer : Ptr Mem
  outputBufferSize : Nat
  cleanSession : Bool
  outWriteFptr : FunPtr
  connectedFptr : FunPtr
  subscribeFptr : FunPtr
  timeoutInSec : UInt8

/-- The pointer checks of `mqtt_connect`, with the parameters and the shared data
that are filled in behind them.  Flags that are not assigned are uninitialised. -/
def ConnectArguments.checked (env : Env) (a : ConnectArguments) :
    Ptr (MQTTConnect × MQTTSharedData) := do
  let clientName ← a.clientName
  let username ← a.username
  let password ← a.password
  let lastWillTopic ← a.lastWillTopic
  let lastWillMessage ← a.lastWill
  let shared ← a.sharedData
  let outputBuffer ← a.outputBuffer
  let connectFlags := { ConnectFlags.ofByte (env.stack 0) with
    lastWillQos := .qos0, permanentWill := false, cleanSession := a.cleanSession }
  return ({ connectFlags, keepalive := a.keepaliveTimeout, lastWillTopic, lastWillMessage,
            username, password, clientId := some clientName },
          { shared with
            buffer := some outputBuffer, bufferSize := a.outputBufferSize
            outFptr := a.outWriteFptr, connectedCbFptr := a.connectedFptr
            subscribeCbFptr := a.subscribeFptr })

def openSession (env : Env) (connectParams : MQTTConnect) (shared : MQTTSharedData)
    (timeoutInSec : UInt8) : Except Fault (List Event × Ptr MQTTSharedData) := do
  let (outcome, g) ← mqtt (some shared) (env, .init (some (some shared)))
  if outcome.status = .successfull then do
    let (outcome, g) ← mqtt g (env, .connect (some (some connectParams)))
    if outcome.status = .successfull then do
      let (events, g) ← waitFor env (fun s => s.state = .connected) (sleeps timeoutInSec) 0 g
      return (outcome.events ++ events, g)
    else return (outcome.events, g)
  else return (outcome.events, g)

def mqttConnect (env : Env) (a : ConnectArguments) (g : Ptr MQTTSharedData) : Answered := do
  let (events, g) ← match a.checked env with
    | some (connectParams, shared) => openSession env connectParams shared a.timeoutInSec
    | none => .ok ([], g)
  let s ← g.deref
  return (⟨s.state = .connected, events⟩, some s)

def mqttDisconnect (env : Env) (g : Ptr MQTTSharedData) : Answered := do
  let (outcome, g) ← mqtt g (env, .disconnect)
  return (⟨outcome.status = .successfull, outcome.events⟩, g)

def mqttPublishBuf (env : Env) (topic : Ptr Mem) (topicSize : Nat) (msg : Ptr Mem) (msgSize : Nat)
    (outputBuffer : Ptr Mem) (outputBufferSize : UInt32) (g : Ptr MQTTSharedData) : Answered :=
  if topic ≠ none ∧ msg ≠ none then do
    let publish : MQTTPublish :=
      { flags := ⟨false, false, .qos0, .ofBits ((env.stack 0).toNat / 16)⟩
        topicPtr := topic, topicLength := UInt16.ofNat topicSize
        messageBufferPtr := msg, messageBufferSize := UInt32.ofNat msgSize
        outputBufferPtr := outputBuffer, outputBufferSize }
    let (outcome, g) ← mqtt g (env, .publish (some (some publish)))
    return (⟨outcome.status = .successfull, outcome.events⟩, g)
  else .ok (⟨false, []⟩, g)

def mqttPublish (env : Env) (topic : Ptr Mem) (topicSize : Nat) (msg : Ptr Mem) (msgSize : Nat)
    (g : Ptr MQTTSharedData) : Answered :=
  mqttPublishBuf env topic topicSize msg msgSize none 0 g

def awaitSubscribe (env : Env) (timeoutInSec : UInt8) (status : MQTTErrorCodes)
    (g : Ptr MQTTSharedData) :
    Except Fault (MQTTErrorCodes × List Event × Ptr MQTTSharedData) := do
  let (events, g) ← waitFor env (fun s => s.subscribeStatus) (sleeps timeoutInSec) 0 g
  let s ← g.deref
  return (if s.subscribeStatus then .successfull else status, events, some s)

def mqttSubscribe (env : Env) (topic : Ptr Mem) (topicSize : UInt16) (timeoutInSec : UInt8)
    (g : Ptr MQTTSharedData) : Answered :=
  if g ≠ none ∧ topic ≠ none ∧ 0 < topicSize.toNat then do
    let subscribe : MQTTSubscribe := { qos := .qos0, topicPtr := topic, topicLength := topicSize }
    let (outcome, g) ← mqtt g (env, .subscribe (some (some subscribe)))
    let (status, events, g) ←
      if outcome.status = .successfull ∧ 0 < timeoutInSec.toNat then
        awaitSubscribe env timeoutInSec outcome.status g
      else .ok (outcome.status, [], g)
    let s ← g.deref
    return (⟨status = .successfull, outcome.events ++ events⟩,
      some { s with subscribeStatus := false })
  else .ok (⟨false, []⟩, g)

def mqttKeepalive (env : Env) (durationInMs : UInt32) (g : Ptr MQTTSharedData) : Answered := do
  let (outcome, g) ← mqtt g (env, .keepalive (some durationInMs))
  return (⟨outcome.status = .successfull ∨ outcome.status = .pingNotSend, outcome.events⟩, g)

def mqttReceive (env : Env) (data : Ptr Mem) (amount : Nat) (g : Ptr MQTTSharedData) : Answered :=
  match data with
  | none => .ok (⟨false, []⟩, g)
  | some data => do
    let input : MQTTInputStream := { data := some data, sizeOfData := UInt32.ofNat amount }
    let (outcome, g) ← mqtt g (env, .parseInputStream (some (some input)))
    return (⟨outcome.status = .successfull, outcome.events⟩, g)

inductive ApiCall
  | action (action : MQTTAction)
  | connect (a : ConnectArguments)
  | disconnect
  | publish (topic : Ptr Mem) (topicSize : Nat) (msg : Ptr Mem) (msgSize : Nat)
  | publishBuf (topic : Ptr Mem) (topicSize : Nat) (msg : Ptr Mem) (msgSize : Nat)
      (outputBuffer : Ptr Mem) (outputBufferSize : UInt32)
  | subscribe (topic : Ptr Mem) (topicSize : UInt16) (timeoutInSec : UInt8)
  | keepalive (durationInMs : UInt32)
  | receive (data : Ptr Mem) (amount : Nat)

def api (g : Ptr MQTTSharedData) (call : Env × ApiCall) : Answered :=
  match call with
  | (env, .action a) => do
    let (outcome, g) ← mqtt g (env, a)
    return (⟨outcome.status = .successfull, outcome.events⟩, g)
  | (env, .connect a) => mqttConnect env a g
  | (env, .disconnect) => mqttDisconnect env g
  | (env, .publish topic topicSize msg msgSize) => mqttPublish env topic topicSize msg msgSize g
  | (env, .publishBuf topic topicSize msg msgSize outputBuffer outputBufferSize) =>
    mqttPublishBuf env topic topicSize msg msgSize outputBuffer outputBufferSize g
  | (env, .subscribe topic topicSize timeoutInSec) =>
    mqttSubscribe env topic topicSize timeoutInSec g
  | (env, .keepalive durationInMs) => mqttKeepalive env durationInMs g
  | (env, .receive data amount) => mqttReceive env data amount g

end RojalMQTT
