import RojalMQTT.Publish

/-! CONNECT: `mqtt_connect_fill` with the functions it is made of, and `mqtt_connect_`. -/

namespace RojalMQTT

open Library

def sizeofVariableHeaderConnect : Nat := 10

/-- What the fill functions change through their pointers: the message buffer,
`a_connect_ptr->connect_flags`, the remaining space and `*a_ouput_size_ptr`. -/
structure FillState where
  buffer : Buffer UInt8
  connectFlags : ConnectFlags
  spaceRemaining : Int
  outputSize : Nat

/-- The pointer a fill function returns, as an offset into the message buffer. -/
abbrev Filled := Except Fault (Ptr Nat × FillState)

def Filled.orNull (r : Filled) (next : Nat → FillState → Filled) : Filled :=
  match r with
  | .ok (some payloadPtr, st) => next payloadPtr st
  | .ok (none, st) => .ok (none, st)
  | .error e => .error e

def mqttAddPayloadParameters (outputPtr length : Nat) (parameter : CString) (st : FillState) :
    Filled :=
  let buffer := st.buffer.copy outputPtr (be16 length)
  let outputPtr := outputPtr + 2
  let buffer := buffer.copy outputPtr (parameter.bytes.take length)
  .ok (some (outputPtr + length), { st with buffer })

def mqttConnectFillAParam (inputArgument : Ptr CString) (isMandatory : Bool) (outputPtr : Nat)
    (st : FillState) : Filled :=
  match inputArgument with
  | none => .ok (none, st)
  | some inputArgument =>
    let argLen := u16 inputArgument.strlen
    match int32Sub st.spaceRemaining argLen with
    | .error e => .error e
    | .ok spaceRemaining =>
      let st := { st with spaceRemaining }
      if spaceRemaining ≤ 0 then .ok (none, st)
      else if 0 < argLen then mqttAddPayloadParameters outputPtr argLen inputArgument st
      else if isMandatory then .ok (none, { st with outputSize := 0 })
      else .ok (none, st)

def fillLastWill (c : MQTTConnect) (payloadPtr : Nat) (st : FillState) : Filled :=
  let flags := { st.connectFlags with lastWillQos := .qos0 }
  if 0 < c.lastWillTopic.strlen ∧ 0 < c.lastWillMessage.strlen then
    let st := { st with connectFlags := { flags with lastWill := true } }
    (mqttConnectFillAParam (some c.lastWillTopic) false payloadPtr st).orNull fun payloadPtr st =>
      mqttConnectFillAParam (some c.lastWillMessage) false payloadPtr st
  else .ok (some payloadPtr,
    { st with connectFlags := { flags with lastWill := false, lastWillQos := .qos0 } })

def fillOptional (s : CString) (setFlag : Bool → ConnectFlags → ConnectFlags) (payloadPtr : Nat)
    (st : FillState) : Filled :=
  let st := { st with connectFlags := setFlag (0 < s.strlen) st.connectFlags }
  if 0 < s.strlen then mqttConnectFillAParam (some s) false payloadPtr st
  else .ok (some payloadPtr, st)

def fillUsername (c : MQTTConnect) : Nat → FillState → Filled :=
  fillOptional c.username fun present flags => { flags with username := present }

def fillPassword (c : MQTTConnect) : Nat → FillState → Filled :=
  fillOptional c.password fun present flags => { flags with password := present }

def payloadStart : Nat := sizeofFixedHeader + sizeofVariableHeaderConnect

def mqttConnectFillParameters (c : MQTTConnect) (st : FillState) : Filled :=
  (mqttConnectFillAParam c.clientId true payloadStart st).orNull fun payloadPtr st =>
    (fillLastWill c payloadPtr st).orNull fun payloadPtr st =>
      (fillUsername c payloadPtr st).orNull fun payloadPtr st =>
        fillPassword c payloadPtr st

def encodeVariableHeaderConnect (output : Buffer UInt8) (p : Nat) (cleanSession lastWill : Bool)
    (lastWillQos : MQTTQoSLevel) (permanentWill password username : Bool) (keepalive : UInt16) :
    Nat × Buffer UInt8 :=
  if lastWillQos = .qosInvalid then (0, output)
  else
    let flags : ConnectFlags :=
      { cleanSession, lastWill, lastWillQos, permanentWill, password, username }
    (10, output.copy p ([0x00, 0x04, 'M'.toUInt8, 'Q'.toUInt8, 'T'.toUInt8, 'T'.toUInt8, 0x04,
      flags.toByte] ++ be16 keepalive.toNat))

/-- The headers in front of the payload, once the payload is there.  `temporary` is
the uninitialised local in which the fixed header is formed. -/
def mqttConnectFillHeaders (keepalive : UInt16) (temporary : Mem) (payloadPtr : Nat)
    (st : FillState) : Filled :=
  let flags := st.connectFlags
  let (sizeOfVarHdr, buffer) := encodeVariableHeaderConnect st.buffer sizeofFixedHeader
    flags.cleanSession flags.lastWill flags.lastWillQos flags.permanentWill flags.password
    flags.username keepalive
  match int32Sub st.spaceRemaining sizeOfVarHdr with
  | .error e => .error e
  | .ok spaceRemaining =>
    if spaceRemaining < 0 then .ok (none, { st with buffer, spaceRemaining })
    else
      let payloadSize := payloadPtr - payloadStart
      -- one operand is unsigned, so this subtraction wraps and does not trap
      let spaceRemaining := int32 ((spaceRemaining - payloadSize) % 2 ^ 32).toNat
      if spaceRemaining < 0 then .ok (none, { st with buffer, spaceRemaining })
      else
        let (sizeOfFixedHdr, header) := encodeFixedHeader (.fresh temporary) false .qos0 false
          .connect (payloadSize + sizeOfVarHdr)
        let messagePtr := sizeofFixedHeader - sizeOfFixedHdr
        let buffer := buffer.copy messagePtr (header.read 0 sizeOfFixedHdr)
        .ok (some messagePtr,
          { st with buffer, spaceRemaining, outputSize := u16 (payloadPtr - messagePtr) })

def startFill (messageBuffer : Buffer UInt8) (maxBufferSize : Nat) (c : MQTTConnect)
    (outputSize : Nat) : FillState where
  buffer := messageBuffer.copy 0 (List.replicate maxBufferSize 0)
  connectFlags := c.connectFlags
  spaceRemaining := int32 maxBufferSize
  outputSize

def mqttConnectFill (messageBuffer : Buffer UInt8) (maxBufferSize : Nat) (c : MQTTConnect)
    (outputSize : Nat) (temporary : Mem) : Filled :=
  (mqttConnectFillParameters c (startFill messageBuffer maxBufferSize c outputSize)).orNull
    (mqttConnectFillHeaders c.keepalive temporary)

def decodeVariableHeaderConack (input : Mem) (p : Ptr Nat) : Ptr (Nat × UInt8) :=
  p.map fun p => (p + 2, input (p + 1))

def mqttConnectParseAck (messageIn : Ptr Mem) : MQTTErrorCodes :=
  match messageIn with
  | none => 192
  | some input =>
    let header := decodeFixedHeader input
    if header.next ≠ none ∧ header.messageType = .connack then
      ((decodeVariableHeaderConack input header.next).elim 192 fun r => r.2.toNat : Nat)
    else 192

structure ConnectSent where
  status : MQTTErrorCodes
  calls : List (List UInt8)
  messageBuffer : Ptr Mem

def mqttConnect_ (messageBuffer : Ptr Mem) (maxBufferSize : Nat) (inFptr : Ptr (Int × Mem))
    (outFptr : Ptr (List UInt8 → Int)) (connect : Ptr MQTTConnect) (waitAndParseResponse : Bool)
    (temporary : Mem) : Except Fault ConnectSent :=
  match outFptr, messageBuffer, connect with
  | some ret, some buffer, some c =>
    match mqttConnectFill (.fresh buffer) maxBufferSize c 0 temporary with
    | .error e => .error e
    | .ok (none, st) => .ok ⟨.invalidArgument, [], some st.buffer.cells⟩
    | .ok (some msgPtr, st) =>
      let data := st.buffer.read msgPtr st.outputSize
      if ret data = st.outputSize then
        match inFptr, waitAndParseResponse with
        | some (rcv, response), true =>
          if 0 < rcv then .ok ⟨mqttConnectParseAck (some response), [data], some response⟩
          else .ok ⟨.serverUnavailabe, [data], some response⟩
        | _, _ => .ok ⟨.successfull, [data], some st.buffer.cells⟩
      else .ok ⟨.serverUnavailabe, [data], some st.buffer.cells⟩
  | _, _, _ => .ok ⟨.invalidArgument, [], messageBuffer⟩

end RojalMQTT
