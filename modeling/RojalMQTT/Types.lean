import RojalMQTT.Library.Buffer

/-! The data model of mqtt.h. -/

namespace RojalMQTT

/-- Two of the things that the client does not survive: a NULL pointer, to data or to a function,
and signed overflow, which the build traps (`-ftrapv`).  Where a buffer is too small is a matter
of its extent. -/
inductive Fault
  | nullDereference | signedOverflow
  deriving DecidableEq

abbrev Ptr (α : Type u) := Option α

def Ptr.deref (p : Ptr α) : Except Fault α := match p with
  | none => .error .nullDereference
  | some a => .ok a

@[simp] theorem Ptr.deref_some (a : α) : Ptr.deref (some a) = .ok a := rfl

/-- The bytes from a `uint8_t *` on. -/
abbrev Mem := Nat → UInt8

structure CString where
  bytes : List UInt8
  noNul : 0 ∉ bytes

def CString.strlen (s : CString) : Nat := s.bytes.length

def CString.empty : CString := ⟨[], by simp⟩

def u32 (n : Nat) : Nat := n % 2 ^ 32

def u16 (n : Nat) : Nat := n % 2 ^ 16

def int32 (n : Nat) : Int := if n % 2 ^ 32 < 2 ^ 31 then (n % 2 ^ 32 : Nat) else (n % 2 ^ 32 : Nat) - 2 ^ 32

theorem u32_of_lt (h : n < 2 ^ 32) : u32 n = n := Nat.mod_eq_of_lt h
theorem u16_of_lt (h : n < 2 ^ 16) : u16 n = n := Nat.mod_eq_of_lt h
theorem u32_le (n : Nat) : u32 n ≤ n := Nat.mod_le _ _
theorem u16_lt (n : Nat) : u16 n < 65536 := Nat.mod_lt _ (by decide)

theorem int32_of_lt (h : n < 2 ^ 31) : int32 n = n := by
  simp only [int32, Nat.mod_eq_of_lt (by omega : n < 2 ^ 32), if_pos h]

theorem int32_le (n : Nat) : int32 n ≤ n := by
  simp only [int32]
  split <;> omega

theorem int32_lt (n : Nat) : int32 n < 2 ^ 31 := by
  simp only [int32]
  split <;> omega

def int32Min : Int := -2147483648

def int32Sub (a b : Int) : Except Fault Int :=
  if -2 ^ 31 ≤ a - b ∧ a - b < 2 ^ 31 then .ok (a - b) else .error .signedOverflow

theorem eq_of_int32Sub (h : int32Sub a b = .ok r) : r = a - b := by
  rw [int32Sub] at h
  split at h <;> cases h
  rfl

def be16 (n : Nat) : List UInt8 := [UInt8.ofNat (n / 256), UInt8.ofNat n]

@[simp] theorem length_be16 (n : Nat) : (be16 n).length = 2 := rfl

inductive MQTTState
  | disconnected | connected
  deriving DecidableEq

inductive MQTTMessageType
  | invalidcmd | connect | connack | publish | puback | pubrec | pubrel | pubcomp
  | subscribe | suback | unsubscribe | unsuback | pingreq | pingresp | disconnect | maxcmd
  deriving DecidableEq

inductive MQTTQoSLevel
  | qos0 | qos1 | qos2 | qosInvalid
  deriving DecidableEq

/-- The client stores CONNACK bytes and truth values in this type as well, so it
is a number with the names below, not a closed enumeration. -/
abbrev MQTTErrorCodes := Int

namespace MQTTErrorCodes

abbrev invalidArgument : MQTTErrorCodes := -64
abbrev noConnection : MQTTErrorCodes := -63
abbrev allreadyConnected : MQTTErrorCodes := -62
abbrev pingNotSend : MQTTErrorCodes := -61
abbrev successfull : MQTTErrorCodes := 0
abbrev serverUnavailabe : MQTTErrorCodes := 3
abbrev publishDecodeError : MQTTErrorCodes := 6

end MQTTErrorCodes

def MQTTMessageType.toBits : MQTTMessageType → Nat
  | .invalidcmd => 0 | .connect => 1 | .connack => 2 | .publish => 3
  | .puback => 4 | .pubrec => 5 | .pubrel => 6 | .pubcomp => 7
  | .subscribe => 8 | .suback => 9 | .unsubscribe => 10 | .unsuback => 11
  | .pingreq => 12 | .pingresp => 13 | .disconnect => 14 | .maxcmd => 15

def MQTTMessageType.ofBits : Nat → MQTTMessageType
  | 0 => .invalidcmd | 1 => .connect | 2 => .connack | 3 => .publish
  | 4 => .puback | 5 => .pubrec | 6 => .pubrel | 7 => .pubcomp
  | 8 => .subscribe | 9 => .suback | 10 => .unsubscribe | 11 => .unsuback
  | 12 => .pingreq | 13 => .pingresp | 14 => .disconnect | _ => .maxcmd

def MQTTQoSLevel.toBits : MQTTQoSLevel → Nat
  | .qos0 => 0 | .qos1 => 1 | .qos2 => 2 | .qosInvalid => 3

def MQTTQoSLevel.ofBits : Nat → MQTTQoSLevel
  | 0 => .qos0 | 1 => .qos1 | 2 => .qos2 | _ => .qosInvalid

@[simp] theorem MQTTMessageType.ofBits_toBits (t : MQTTMessageType) : .ofBits t.toBits = t := by
  cases t <;> rfl

@[simp] theorem MQTTQoSLevel.ofBits_toBits (q : MQTTQoSLevel) : .ofBits q.toBits = q := by
  cases q <;> rfl

theorem MQTTMessageType.toBits_lt (t : MQTTMessageType) : t.toBits < 16 := by
  cases t <;> decide

theorem MQTTQoSLevel.toBits_lt (q : MQTTQoSLevel) : q.toBits < 4 := by
  cases q <;> decide

structure FlagsAndType where
  retain : Bool
  dup : Bool
  qos : MQTTQoSLevel
  messageType : MQTTMessageType
  deriving DecidableEq

def FlagsAndType.toByte (f : FlagsAndType) : UInt8 :=
  UInt8.ofNat (f.retain.toNat + 2 * f.dup.toNat + 4 * f.qos.toBits + 16 * f.messageType.toBits)

def FlagsAndType.ofByte (b : UInt8) : FlagsAndType where
  retain := b.toNat % 2 = 1
  dup := b.toNat / 2 % 2 = 1
  qos := .ofBits (b.toNat / 4 % 4)
  messageType := .ofBits (b.toNat / 16)

theorem FlagsAndType.toNat_toByte (f : FlagsAndType) : f.toByte.toNat =
    f.retain.toNat + 2 * f.dup.toNat + 4 * f.qos.toBits + 16 * f.messageType.toBits := by
  have := f.retain.toNat_le
  have := f.dup.toNat_le
  have := f.qos.toBits_lt
  have := f.messageType.toBits_lt
  rw [toByte, UInt8.toNat_ofNat']
  omega

@[simp] theorem FlagsAndType.ofByte_toByte (f : FlagsAndType) : ofByte f.toByte = f := by
  have hq := f.qos.toBits_lt
  have ht := f.messageType.toBits_lt
  obtain ⟨r, d, q, t⟩ := f
  simp only [ofByte, toNat_toByte, mk.injEq]
  simp only at hq ht
  have hr := r.toNat_le
  have hd := d.toNat_le
  refine ⟨?_, ?_, ?_, ?_⟩
  · cases r <;> simp <;> omega
  · cases d <;> simp <;> omega
  · rw [show (r.toNat + 2 * d.toNat + 4 * q.toBits + 16 * t.toBits) / 4 % 4 = q.toBits by omega]
    exact q.ofBits_toBits
  · rw [show (r.toNat + 2 * d.toNat + 4 * q.toBits + 16 * t.toBits) / 16 = t.toBits by omega]
    exact t.ofBits_toBits

structure ConnectFlags where
  cleanSession : Bool
  lastWill : Bool
  lastWillQos : MQTTQoSLevel
  permanentWill : Bool
  password : Bool
  username : Bool
  deriving DecidableEq

def ConnectFlags.toByte (f : ConnectFlags) : UInt8 :=
  UInt8.ofNat (2 * f.cleanSession.toNat + 4 * f.lastWill.toNat + 8 * f.lastWillQos.toBits +
    32 * f.permanentWill.toNat + 64 * f.password.toNat + 128 * f.username.toNat)

def ConnectFlags.ofByte (b : UInt8) : ConnectFlags where
  cleanSession := b.toNat / 2 % 2 = 1
  lastWill := b.toNat / 4 % 2 = 1
  lastWillQos := .ofBits (b.toNat / 8 % 4)
  permanentWill := b.toNat / 32 % 2 = 1
  password := b.toNat / 64 % 2 = 1
  username := b.toNat / 128 = 1

@[simp] theorem ConnectFlags.ofByte_toByte (f : ConnectFlags) : ofByte f.toByte = f := by
  obtain ⟨c, w, q, r, p, u⟩ := f
  cases c <;> cases w <;> cases q <;> cases r <;> cases p <;> cases u <;> rfl

theorem ConnectFlags.toByte_reserved (f : ConnectFlags) : f.toByte.toNat % 2 = 0 := by
  obtain ⟨c, w, q, r, p, u⟩ := f
  cases c <;> cases w <;> cases q <;> cases r <;> cases p <;> cases u <;> rfl

structure MQTTConnect where
  connectFlags : ConnectFlags
  keepalive : UInt16
  lastWillTopic : CString
  lastWillMessage : CString
  username : CString
  password : CString
  clientId : Ptr CString

/-- A function pointer: NULL or the address of a function. -/
abbrev FunPtr := Ptr Nat

structure MQTTSharedData where
  state : MQTTState
  connectedCbFptr : FunPtr
  subscribeCbFptr : FunPtr
  buffer : Ptr Mem
  bufferSize : Nat
  outFptr : FunPtr
  mqttPacketCntr : UInt32
  keepaliveInMs : Int
  timeToNextPingInMs : Int
  subscribeStatus : Bool

def MQTTSharedData.static : MQTTSharedData where
  state := .disconnected
  connectedCbFptr := none
  subscribeCbFptr := none
  buffer := none
  bufferSize := 0
  outFptr := none
  mqttPacketCntr := 0
  keepaliveInMs := 0
  timeToNextPingInMs := 0
  subscribeStatus := false

def MQTTSharedData.sample : MQTTSharedData where
  state := .disconnected
  connectedCbFptr := none
  subscribeCbFptr := none
  buffer := some fun _ => 0
  bufferSize := 64
  outFptr := some 1
  mqttPacketCntr := 0
  keepaliveInMs := 0
  timeToNextPingInMs := 0
  subscribeStatus := false

structure MQTTInputStream where
  data : Ptr Mem
  sizeOfData : UInt32

structure MQTTPublish where
  flags : FlagsAndType
  topicPtr : Ptr Mem
  topicLength : UInt16
  messageBufferPtr : Ptr Mem
  messageBufferSize : UInt32
  outputBufferPtr : Ptr Mem
  outputBufferSize : UInt32

structure MQTTSubscribe where
  qos : MQTTQoSLevel
  topicPtr : Ptr Mem
  topicLength : UInt16

/-- `MQTTAction_t` with the `MQTT_action_data_t *` that goes with it.  The outer
pointer is the action data, the inner one the member of the union. -/
inductive MQTTAction
  | disconnect
  | connect (actionPtr : Ptr (Ptr MQTTConnect))
  | publish (actionPtr : Ptr (Ptr MQTTPublish))
  | subscribe (actionPtr : Ptr (Ptr MQTTSubscribe))
  | keepalive (actionPtr : Ptr UInt32)
  | init (actionPtr : Ptr (Ptr MQTTSharedData))
  | parseInputStream (actionPtr : Ptr (Ptr MQTTInputStream))
  | other

/-- What happens at the client's boundary, in order.  Pointers into the input
are offsets from its first byte. -/
inductive Event
  | out (data : List UInt8) (ret : Int)
  | parsed (data : Mem)
  | connectedCb (status : MQTTErrorCodes)
  | subscribeCb (status : MQTTErrorCodes) (dataPtr : Ptr Nat) (dataLen : Nat)
      (topicPtr : Ptr Nat) (topicLen : Nat)

structure Env where
  /-- What `out_fptr` returns for the bytes it is handed. -/
  ret : List UInt8 → Int
  /-- The inputs that the receiving thread parses before `out_fptr` returns. -/
  meanwhile : List Mem
  /-- The inputs that it parses during the n-th `mqtt_sleep` of the call. -/
  asleep : Nat → List Mem
  /-- The bytes an uninitialised local happens to hold. -/
  stack : Mem

end RojalMQTT
