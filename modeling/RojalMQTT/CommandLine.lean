import RojalMQTT.Api

/-! cmdline.c: the command line client `rmc`. -/

namespace RojalMQTT

open Library

namespace CommandLine

structure Arguments where
  message : CString
  topic : CString
  clientId : CString
  hostip : CString
  lastWillMessage : CString
  lastWillTopic : CString
  username : CString
  password : CString
  keepalive : UInt32
  clean : Bool
  hostport : UInt32
  filename : CString
  receiveFile : Bool

def socketWriteFptr : FunPtr := some 1
def connectedCbFptr : FunPtr := some 2
def subscrbeCbFptr : FunPtr := some 3

def outputBufferSize : Nat := 1024

def chars (s : CString) : Ptr Mem := some (ofList s.bytes 0)

structure Turn where
  received : List (Mem × Nat)
  env : Env

def Turn.inputs (turn : Turn) : List Mem := turn.received.map Prod.fst

def Turn.run (turn : Turn) (call : Env → Ptr MQTTSharedData → Answered) (g : Ptr MQTTSharedData) :
    Answered := do
  let (received, g) ← receiveAll turn.inputs g
  let (a, g) ← call turn.env g
  return (⟨a.ret, received ++ a.events⟩, g)

structure Round extends Turn where
  interrupted : Bool

/-- A file that was opened: its bytes, what `buf` holds once `fread` was asked for them as
one item, and whether it read that.  Without memory for it `buf` is NULL. -/
structure OpenFile where
  bytes : List UInt8
  buf : Ptr Mem
  complete : Bool
  filled : complete = true → ∀ m ∈ buf, Spells m 0 bytes

def OpenFile.itemsRead (f : OpenFile) : Nat := if f.complete ∧ 0 < f.bytes.length then 1 else 0

structure World where
  socketInitialize : CString → UInt32 → Bool
  connect : Turn
  request : Turn
  rounds : List Round
  fopen : CString → Option OpenFile
  malloc : Nat → Ptr Mem
  disconnect : Turn

def Arguments.connect (a : Arguments) : ConnectArguments where
  clientName := some a.clientId
  keepaliveTimeout := a.keepalive.toUInt16
  username := some a.username
  password := some a.password
  lastWillTopic := some a.lastWillTopic
  lastWill := some a.lastWillMessage
  sharedData := some .static
  outputBuffer := some fun _ => 0
  outputBufferSize := outputBufferSize
  cleanSession := a.clean
  outWriteFptr := socketWriteFptr
  connectedFptr := connectedCbFptr
  subscribeFptr := subscrbeCbFptr
  timeoutInSec := 10

def rmcConnect (w : World) (a : Arguments) (g : Ptr MQTTSharedData) : Answered :=
  if w.socketInitialize a.hostip a.hostport then
    w.connect.run (fun env => mqttConnect env a.connect) g
  else .ok (⟨false, []⟩, g)

def rmcDisconnect (w : World) (g : Ptr MQTTSharedData) : Answered := w.disconnect.run mqttDisconnect g

/-- What happened at the boundary, the shared data, and whether this part of main came to
its end: the subscribe loop may go on. -/
abbrev Stretch := Except Fault (List Event × Ptr MQTTSharedData × Bool)

/-- `while (subscribe_continue)`, as long as there are rounds.  An interrupt that comes in
during `mqtt_keepalive` is overwritten by what that returns. -/
def subscribeLoop (keepalive : UInt32) : List Round → Ptr MQTTSharedData → Stretch
  | [], g => .ok ([], g, false)
  | round :: rounds, g => do
    let (received, g) ← receiveAll round.inputs g
    if round.interrupted then return (received, g, true)
    else if 0 < keepalive.toNat then do
      let (a, g) ← mqttKeepalive round.env (keepalive * 1000) g
      if a.ret then do
        let (events, g, ended) ← subscribeLoop keepalive rounds g
        return (received ++ (a.events ++ events), g, ended)
      else return (received ++ a.events, g, true)
    else do
      let (events, g, ended) ← subscribeLoop keepalive rounds g
      return (received ++ events, g, ended)

def subscribe (w : World) (a : Arguments) (g : Ptr MQTTSharedData) : Stretch := do
  let (answer, g) ← w.request.run
    (fun env => mqttSubscribe env (chars a.topic) (UInt16.ofNat a.topic.strlen) 10) g
  if answer.ret then do
    let (events, g, ended) ← subscribeLoop a.keepalive w.rounds g
    return (answer.events ++ events, g, ended)
  else return (answer.events, g, true)

def publishMessage (w : World) (a : Arguments) (g : Ptr MQTTSharedData) : Answered :=
  w.request.run
    (fun env => mqttPublish env (chars a.topic) a.topic.strlen (chars a.message) a.message.strlen) g

def mqttbufSize (len topicLength : Nat) : UInt32 :=
  UInt32.ofNat (len + topicLength + sizeofFixedHeader + 64)

/-- A file counts as read when `fread` does not return its length. -/
def publishFile (w : World) (a : Arguments) (g : Ptr MQTTSharedData) : Answered :=
  match w.fopen a.filename with
  | none => .ok (⟨false, []⟩, g)
  | some f =>
    let len := f.bytes.length
    match f.buf with
    -- `fread` writes through it, if there is anything to read
    | none => if 0 < len then .error .nullDereference else .ok (⟨false, []⟩, g)
    | some buf =>
      if len ≠ f.itemsRead then
        let size := mqttbufSize len a.topic.strlen
        w.request.run (fun env => mqttPublishBuf env (chars a.topic) a.topic.strlen (some buf) len
          (w.malloc size.toNat) size) g
      else .ok (⟨false, []⟩, g)

def publish (w : World) (a : Arguments) (g : Ptr MQTTSharedData) : Answered :=
  if 0 < a.message.strlen then publishMessage w a g
  else if 0 < a.filename.strlen then publishFile w a g
  else .ok (⟨false, []⟩, g)

def Arguments.subscribes (a : Arguments) : Bool :=
  (a.message.strlen = 0 ∧ a.filename.strlen = 0 ∧ a.receiveFile = false) ∨
    (0 < a.filename.strlen ∧ a.receiveFile = true)

def branch (w : World) (a : Arguments) (g : Ptr MQTTSharedData) : Stretch :=
  if a.subscribes then subscribe w a g
  else do
    let (answer, g) ← publish w a g
    return (answer.events, g, true)

def session (w : World) (a : Arguments) (g : Ptr MQTTSharedData) : Stretch := do
  let (events, g, ended) ← branch w a g
  if ended then do
    let (answer, g) ← rmcDisconnect w g
    return (events ++ answer.events, g, true)
  else return (events, g, false)

def main (w : World) (a : Arguments) : Stretch :=
  if 0 < a.hostip.strlen ∧ 0 < a.topic.strlen then do
    let (connected, g) ← rmcConnect w a none
    if connected.ret then do
      let (events, g, ended) ← session w a g
      return (connected.events ++ events, g, ended)
    else return (connected.events, g, true)
  else .ok ([], none, true)

end CommandLine

end RojalMQTT
