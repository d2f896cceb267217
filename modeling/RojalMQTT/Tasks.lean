import RojalMQTT.Api

/-! TCPEchoClient_SeparateTasks.c: a client of four FreeRTOS tasks. -/

namespace RojalMQTT

open Library

namespace SeparateTasks

/-- A `Socket_t`; none is FREERTOS_INVALID_SOCKET. -/
abbrev Socket := Option Nat

inductive Task
  | connect
  | receive
  | alive
  | publish
  deriving DecidableEq

inductive ConnectPc
  | top
  | create
  | connecting
  | sending (sent : Fin 3)
  | opening
  | announcing
  | online
  | closing
  | shuttingDown
  deriving DecidableEq

inductive ReceivePc
  | waiting
  | looping (xSocketTmp : Socket)
  | reading (xSocketTmp : Socket)
  deriving DecidableEq

inductive WorkerPc
  | waiting
  | sleeping
  deriving DecidableEq

/-- The tasks, and what they share.  The queue holds one socket. -/
structure Demo where
  connect : ConnectPc
  receive : ReceivePc
  alive : WorkerPc
  publish : WorkerPc
  xSocketPassingQueue : Option Socket
  xSocket : Socket
  lShuttingDown : Bool
  /-- How many sockets were created. -/
  sockets : Nat
  shared : Ptr MQTTSharedData

def Demo.start : Demo where
  connect := .top
  receive := .waiting
  alive := .waiting
  publish := .waiting
  xSocketPassingQueue := none
  xSocket := none
  lShuttingDown := false
  sockets := 0
  shared := none

/-- What `FreeRTOS_recv` leads to: an error, less than two bytes, or a packet for
`mqtt_receive`. -/
inductive Read
  | failed
  | short
  | packet (data : Mem) (amount : Nat)

/-- What a step meets.  No other task runs during a call of the client. -/
structure Oracle where
  connects : Bool
  read : Read
  /-- What is found in the place of a result of `socket_write`, which has none. -/
  ret : List UInt8 → Int
  stack : Mem
  sendFails : Bool
  xTaskGetTickCount : UInt32

def Oracle.env (o : Oracle) : Env where
  ret := o.ret
  meanwhile := []
  asleep _ := []
  stack := o.stack

inductive Happening
  | client (e : Event)
  | created (socket : Nat)
  | sent (socket : Socket)
  | taken (task : Task)
  | opens
  | ends (task : Task)
  | closes (socket : Socket)

abbrev Stepped := Except Fault (List Happening × Demo)

def isOut : Event → Bool
  | .out _ _ => true
  | _ => false

/-- A call of the client, and what `socket_write` does to the socket meanwhile. -/
def Demo.call (d : Demo) (o : Oracle) (call : ApiCall) : Except Fault (Answer × Demo) := do
  let (a, shared) ← api d.shared (o.env, call)
  let d := { d with shared }
  if a.events.any isOut ∧ (o.sendFails ∨ d.xSocket = none) then
    return (a, { d with xSocket := none, lShuttingDown := true })
  else return (a, d)

def socketWriteFptr : FunPtr := some 1
def connectedCbFptr : FunPtr := some 2
def subscrbeCbFptr : FunPtr := some 3

def gKeepAliveTime : UInt32 := 60000

/-- "FreeRTOS_ROjal_MQTT_Client". -/
def freertosClientId : CString where
  bytes := [0x46, 0x72, 0x65, 0x65, 0x52, 0x54, 0x4F, 0x53, 0x5F, 0x52, 0x4F, 0x6A, 0x61, 0x6C, 0x5F,
    0x4D, 0x51, 0x54, 0x54, 0x5F, 0x43, 0x6C, 0x69, 0x65, 0x6E, 0x74]
  noNul := by decide

/-- The arguments of `mqtt_connect`.  The shared data and the buffer are what an earlier
connection left of them. -/
def connectArguments (shared : Ptr MQTTSharedData) : ConnectArguments where
  clientName := some freertosClientId
  keepaliveTimeout := (gKeepAliveTime / 1000).toUInt16
  username := some .empty
  password := some .empty
  lastWillTopic := some .empty
  lastWill := some .empty
  sharedData := some (shared.getD .static)
  outputBuffer := some ((shared.bind fun s => s.buffer).getD fun _ => 0)
  outputBufferSize := 1024
  cleanSession := true
  outWriteFptr := socketWriteFptr
  connectedFptr := connectedCbFptr
  subscribeFptr := subscrbeCbFptr
  timeoutInSec := 10

/-- "state" and "online", with its NUL. -/
def announcement : ApiCall :=
  .publish (some (ofList [0x73, 0x74, 0x61, 0x74, 0x65] 0)) 5
    (some (ofList [0x6F, 0x6E, 0x6C, 0x69, 0x6E, 0x65, 0] 0)) 7

/-- To "RMQTTin". -/
def subscription : ApiCall :=
  .subscribe (some (ofList [0x52, 0x4D, 0x51, 0x54, 0x54, 0x69, 0x6E] 0)) 7 5

def littleEndian (n : UInt32) : List UInt8 :=
  [n.toUInt8, (n >>> 8).toUInt8, (n >>> 16).toUInt8, (n >>> 24).toUInt8]

/-- On "/lampotila/alakerta". -/
def measurement (cntr : UInt32) : ApiCall :=
  .publish (some (ofList [0x2F, 0x6C, 0x61, 0x6D, 0x70, 0x6F, 0x74, 0x69, 0x6C, 0x61, 0x2F, 0x61, 0x6C,
      0x61, 0x6B, 0x65, 0x72, 0x74, 0x61] 0)) 19
    (some (ofList (littleEndian cntr) 0)) 4

def prvConnectTask (d : Demo) (o : Oracle) : Stepped :=
  match d.connect with
  | .top => .ok ([], { d with lShuttingDown := false, connect := .create })
  | .create =>
    .ok ([.created d.sockets],
      { d with xSocket := some d.sockets, sockets := d.sockets + 1, connect := .connecting })
  | .connecting =>
    if d.xSocket ≠ none ∧ o.connects then .ok ([], { d with connect := .sending 0 })
    else .ok ([], { d with connect := .closing })
  | .sending n => match d.xSocketPassingQueue with
    | none => .ok ([.sent d.xSocket],
        { d with
          xSocketPassingQueue := some d.xSocket
          connect := if n = 2 then .opening else .sending (n + 1) })
    | some _ => .ok ([], d)
  | .opening => do
    let (a, d) ← d.call o (.connect (connectArguments d.shared))
    return (.opens :: a.events.map .client,
      { d with connect := if a.ret then .announcing else .closing })
  | .announcing => do
    let (a, d) ← d.call o announcement
    return (a.events.map .client, { d with connect := .online })
  | .online =>
    if d.xSocket ≠ none then .ok ([], d) else .ok ([], { d with connect := .closing })
  | .closing => .ok ([], { d with xSocket := none, connect := .shuttingDown })
  | .shuttingDown => .ok ([.closes d.xSocket], { d with lShuttingDown := true, connect := .top })

def isAccepted : Event → Bool
  | .connectedCb status => status = .successfull
  | _ => false

/-- `mqtt_receive`, with what `connected_cb` does.  It is called before the timer is loaded
behind the parser, but whether it subscribes or not leaves the timer loaded all the same. -/
def Demo.received (d : Demo) (o : Oracle) (data : Mem) (amount : Nat) : Stepped := do
  let (a, d) ← d.call o (.receive (some data) amount)
  if a.events.any isAccepted then do
    let (b, d) ← d.call o subscription
    return ((a.events ++ b.events).map .client, d)
  else return (a.events.map .client, d)

def prvReceiveTask (d : Demo) (o : Oracle) : Stepped :=
  match d.receive with
  | .waiting => match d.xSocketPassingQueue with
    | none => .ok ([], d)
    | some s => .ok ([.taken .receive], { d with xSocketPassingQueue := none, receive := .looping s })
  | .looping s =>
    if s ≠ none ∧ d.lShuttingDown = false then .ok ([], { d with receive := .reading s })
    else .ok ([.ends .receive], { d with receive := .waiting })
  | .reading s => match o.read with
    | .failed => .ok ([], { d with xSocket := none, lShuttingDown := true, receive := .looping s })
    | .short => .ok ([], { d with receive := .looping s })
    | .packet data amount => do
      let (happened, d) ← d.received o data amount
      return (happened, { d with receive := .looping s })

def prvAliveTask (d : Demo) (o : Oracle) : Stepped :=
  match d.alive with
  | .waiting => match d.xSocketPassingQueue with
    | none => .ok ([], d)
    | some _ => .ok ([.taken .alive], { d with xSocketPassingQueue := none, alive := .sleeping })
  | .sleeping => do
    let (a, d) ← d.call o (.keepalive (gKeepAliveTime / 4 * 3))
    if a.ret then return (a.events.map .client, d)
    else return (a.events.map .client ++ [.ends .alive],
      { d with lShuttingDown := true, alive := .waiting })

def prvPublishTask (d : Demo) (o : Oracle) : Stepped :=
  match d.publish with
  | .waiting => match d.xSocketPassingQueue with
    | none => .ok ([], d)
    | some _ => .ok ([.taken .publish], { d with xSocketPassingQueue := none, publish := .sleeping })
  | .sleeping => do
    let (a, d) ← d.call o (measurement o.xTaskGetTickCount)
    if a.ret then return (a.events.map .client, d)
    else return (a.events.map .client ++ [.ends .publish],
      { d with lShuttingDown := true, publish := .waiting })

/-- A step of a task.  A call of the client is one step, and no other task runs during it;
a task that is blocked stays where it is. -/
def demo (d : Demo) (turn : Task × Oracle) : Stepped :=
  match turn with
  | (.connect, o) => prvConnectTask d o
  | (.receive, o) => prvReceiveTask d o
  | (.alive, o) => prvAliveTask d o
  | (.publish, o) => prvPublishTask d o

end SeparateTasks

end RojalMQTT
