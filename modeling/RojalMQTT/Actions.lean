import RojalMQTT.InputStream

/-! `mqtt`: the actions on the shared data. -/

namespace RojalMQTT

open Library

structure Outcome where
  status : MQTTErrorCodes
  events : List Event

abbrev Acted := Except Fault (Outcome × Ptr MQTTSharedData)

@[simp] theorem ok_bind (a : α) (f : α → Except Fault β) : (Except.ok a >>= f) = f a := rfl

theorem bind_eq_ok {x : Except Fault α} {f : α → Except Fault β} (h : x >>= f = .ok b) :
    ∃ a, x = .ok a ∧ f a = .ok b := by
  cases x with
  | error e => cases h
  | ok a => exact ⟨a, rfl, h⟩

def actionParseInputStream (actionPtr : Ptr (Ptr MQTTInputStream)) (g : Ptr MQTTSharedData) :
    Acted := do
  let inputStreamPtr ← actionPtr.deref
  let inputStream ← inputStreamPtr.deref
  let parsed ← mqttParseInputStream inputStream.data inputStream.sizeOfData.toNat g
  let events := inputStream.data.elim [] (fun data => [.parsed data]) ++ parsed.events
  let shared := parsed.shared.map fun s => { s with timeToNextPingInMs := s.keepaliveInMs }
  return (⟨parsed.status, events⟩, shared)

/-- The receiving thread passes its inputs to the parser, which does not look at
their amounts. -/
def receiveAll : List Mem → Ptr MQTTSharedData → Except Fault (List Event × Ptr MQTTSharedData)
  | [], g => .ok ([], g)
  | input :: inputs, g => do
    let (outcome, g) ← actionParseInputStream (some (some ⟨some input, 0⟩)) g
    let (events, g) ← receiveAll inputs g
    return (outcome.events ++ events, g)

/-- The calls to `out_fptr`.  While one is under way the receiving thread runs. -/
def callOut (env : Env) : List (List UInt8) → Ptr MQTTSharedData →
    Except Fault (List Event × Ptr MQTTSharedData)
  | [], g => .ok ([], g)
  | data :: calls, g => do
    let (received, g) ← receiveAll env.meanwhile g
    let (events, g) ← callOut env calls g
    return (.out data (env.ret data) :: (received ++ events), g)

def MQTTSharedData.outCall (s : MQTTSharedData) (env : Env) : Ptr (List UInt8 → Int) :=
  s.outFptr.map fun _ => env.ret

def MQTTSharedData.initialised (s : MQTTSharedData) : MQTTSharedData :=
  { s with
    state := .disconnected
    mqttPacketCntr := 0
    keepaliveInMs := 0
    timeToNextPingInMs := 0 }

def actionInit (actionPtr : Ptr (Ptr MQTTSharedData)) (g : Ptr MQTTSharedData) : Acted :=
  match actionPtr with
  | none => .ok (⟨.invalidArgument, []⟩, g)
  | some sharedPtr => do
    let s ← sharedPtr.deref
    return (⟨.successfull, []⟩, some s.initialised)

/-- A message that is a fixed header only, formed in an uninitialised local. -/
def sendFixedHeader (outFptr : Ptr (List UInt8 → Int)) (messageType : MQTTMessageType)
    (temporary : Mem) : MQTTErrorCodes × List (List UInt8) :=
  match outFptr with
  | none => (.invalidArgument, [])
  | some ret =>
    let (sizeOfFixedHdr, buffer) :=
      encodeFixedHeader (.fresh temporary) false .qos0 false messageType 0
    let data := buffer.read 0 sizeOfFixedHdr
    (if ret data = sizeOfFixedHdr then .successfull else .serverUnavailabe, [data])

def mqttDisconnect_ (outFptr : Ptr (List UInt8 → Int)) (temporary : Mem) :
    MQTTErrorCodes × List (List UInt8) :=
  sendFixedHeader outFptr .disconnect temporary

def mqttPingReq (outFptr : Ptr (List UInt8 → Int)) (temporary : Mem) :
    MQTTErrorCodes × List (List UInt8) :=
  sendFixedHeader outFptr .pingreq temporary

def actionDisconnect (env : Env) (g : Ptr MQTTSharedData) : Acted :=
  match g with
  | none => .ok (⟨.noConnection, []⟩, g)
  | some s =>
    if s.state ≠ .disconnected then do
      let (status, calls) := mqttDisconnect_ (s.outCall env) env.stack
      let (events, g) ← callOut env calls g
      return (⟨status, events⟩, g)
    else .ok (⟨.noConnection, []⟩, g)

def connectedKeepalive (keepalive : UInt16) : Int :=
  if keepalive.toNat ≠ 0 then keepalive.toNat * 1000 - 500 else int32Min

def actionConnect (env : Env) (actionPtr : Ptr (Ptr MQTTConnect)) (g : Ptr MQTTSharedData) :
    Acted :=
  match g, actionPtr with
  | some s, some connectPtr =>
    if s.state = .disconnected then do
      let sent ← mqttConnect_ s.buffer s.bufferSize none (s.outCall env) connectPtr false env.stack
      let (events, g) ← callOut env sent.calls (some { s with buffer := sent.messageBuffer })
      let s ← g.deref
      if sent.status = .successfull then do
        let c ← connectPtr.deref
        return (⟨.successfull, events⟩, some { s with
          keepaliveInMs := connectedKeepalive c.keepalive
          timeToNextPingInMs := 0
          state := .connected })
      else return (⟨sent.status, events⟩, some { s with state := .disconnected })
    else .ok (⟨.allreadyConnected, []⟩, g)
  | _, _ => .ok (⟨.invalidArgument, []⟩, g)

def afterEncoder (env : Env) (sent : Sent) (s : MQTTSharedData)
    (sentOk : MQTTSharedData → MQTTSharedData) : Acted := do
  let (events, g) ← callOut env sent.calls (some s)
  if sent.ret then do
    let s ← g.deref
    return (⟨.successfull, events⟩,
      some (sentOk { s with timeToNextPingInMs := s.keepaliveInMs }))
  else return (⟨.invalidArgument, events⟩, g)

def actionPublish (env : Env) (actionPtr : Ptr (Ptr MQTTPublish)) (g : Ptr MQTTSharedData) :
    Acted :=
  match g, actionPtr with
  | some s, some publishPtr =>
    if s.state = .connected then do
      let p ← publishPtr.deref
      -- use the special buffer, not the shared one
      let special := p.outputBufferPtr ≠ none ∧ 0 < p.outputBufferSize.toNat
      let messageBuffer := if special then p.outputBufferPtr else s.buffer
      let messageBufferSize := if special then p.outputBufferSize else UInt32.ofNat s.bufferSize
      let sent ← encodePublish (s.outCall env) (messageBuffer.map .fresh) messageBufferSize
        p.flags.retain p.flags.qos false p.topicPtr p.topicLength s.mqttPacketCntr.toUInt16
        p.messageBufferPtr p.messageBufferSize
      let buffer := if special then s.buffer else sent.output.map (·.cells)
      afterEncoder env sent { s with mqttPacketCntr := s.mqttPacketCntr + 1, buffer } id
    else .ok (⟨.invalidArgument, []⟩, g)
  | _, _ => .ok (⟨.invalidArgument, []⟩, g)

def actionSubscribe (env : Env) (actionPtr : Ptr (Ptr MQTTSubscribe)) (g : Ptr MQTTSharedData) :
    Acted :=
  match g, actionPtr with
  | some s, some subscribePtr =>
    if s.state = .connected then do
      let p ← subscribePtr.deref
      let sent ← encodeSubscribe (s.outCall env) (s.buffer.map .fresh) (UInt32.ofNat s.bufferSize)
        p.qos p.topicPtr p.topicLength s.mqttPacketCntr.toUInt16
      afterEncoder env sent
        { s with mqttPacketCntr := s.mqttPacketCntr + 1, buffer := sent.output.map (·.cells) }
        fun s => { s with subscribeStatus := true }
    else .ok (⟨.invalidArgument, []⟩, g)
  | _, _ => .ok (⟨.invalidArgument, []⟩, g)

def timeLeft (timeToNextPingInMs elapsed : Int) : Except Fault Int :=
  if elapsed < timeToNextPingInMs then int32Sub timeToNextPingInMs elapsed else .ok 0

def actionKeepalive (env : Env) (actionPtr : Ptr UInt32) (g : Ptr MQTTSharedData) : Acted :=
  match actionPtr with
  | none => .ok (⟨.invalidArgument, []⟩, g)
  | some elapsed => do
    let s ← g.deref
    if s.state = .connected then
      if s.keepaliveInMs ≠ int32Min then do
        let timeToNextPingInMs ← timeLeft s.timeToNextPingInMs (int32 elapsed.toNat)
        let s := { s with timeToNextPingInMs }
        if timeToNextPingInMs ≤ 0 then do
          let (status, calls) := mqttPingReq (s.outCall env) env.stack
          let (events, g) ← callOut env calls (some s)
          let s ← g.deref
          if status = .successfull then
            return (⟨status, events⟩, some { s with timeToNextPingInMs := s.keepaliveInMs })
          else return (⟨status, events⟩, some s)
        else return (⟨.pingNotSend, []⟩, some s)
      else return (⟨.successfull, []⟩, some s)
    else return (⟨.invalidArgument, []⟩, some s)

def mqtt (g : Ptr MQTTSharedData) (call : Env × MQTTAction) : Acted :=
  match call with
  | (_, .init actionPtr) => actionInit actionPtr g
  | (env, .disconnect) => actionDisconnect env g
  | (env, .connect actionPtr) => actionConnect env actionPtr g
  | (env, .publish actionPtr) => actionPublish env actionPtr g
  | (env, .subscribe actionPtr) => actionSubscribe env actionPtr g
  | (env, .keepalive actionPtr) => actionKeepalive env actionPtr g
  | (_, .parseInputStream actionPtr) => actionParseInputStream actionPtr g
  | (_, .other) => .ok (⟨.invalidArgument, []⟩, g)

theorem mqtt_connect (g : Ptr MQTTSharedData) (env : Env) (actionPtr : Ptr (Ptr MQTTConnect)) :
    mqtt g (env, .connect actionPtr) = actionConnect env actionPtr g := rfl

theorem mqtt_subscribe (g : Ptr MQTTSharedData) (env : Env) (actionPtr : Ptr (Ptr MQTTSubscribe)) :
    mqtt g (env, .subscribe actionPtr) = actionSubscribe env actionPtr g := rfl

end RojalMQTT
