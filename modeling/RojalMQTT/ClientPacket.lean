import RojalMQTT.Packet
import RojalMQTT.Library.Code

/-! The packets that a client sends, as MQTT 3.1.1 has them, and how they are read off a
stream.  In the first byte DUP is bit 3 there and QoS is bits 2 and 1; the client puts
DUP into bit 1 and QoS into bits 3 and 2, so the two agree on QoS 0 without DUP. -/

namespace RojalMQTT

open Library

namespace FlagsAndType

def toStandardByte (f : FlagsAndType) : UInt8 :=
  UInt8.ofNat (f.retain.toNat + 2 * f.qos.toBits + 8 * f.dup.toNat + 16 * f.messageType.toBits)

def ofStandardByte (b : UInt8) : FlagsAndType where
  retain := b.toNat % 2 = 1
  dup := b.toNat / 8 % 2 = 1
  qos := .ofBits (b.toNat / 2 % 4)
  messageType := .ofBits (b.toNat / 16)

theorem ofStandardByte_toStandardByte (f : FlagsAndType) : ofStandardByte f.toStandardByte = f := by
  have hq := f.qos.toBits_lt
  have ht := f.messageType.toBits_lt
  obtain ⟨r, d, q, t⟩ := f
  simp only at hq ht
  have hr := r.toNat_le
  have hd := d.toNat_le
  have byte : (toStandardByte ⟨r, d, q, t⟩).toNat =
      r.toNat + 2 * q.toBits + 8 * d.toNat + 16 * t.toBits := by
    rw [toStandardByte, UInt8.toNat_ofNat']
    simp only
    omega
  simp only [ofStandardByte, byte, mk.injEq]
  refine ⟨?_, ?_, ?_, ?_⟩
  · cases r <;> simp <;> omega
  · cases d <;> simp <;> omega
  · rw [show (r.toNat + 2 * q.toBits + 8 * d.toNat + 16 * t.toBits) / 2 % 4 = q.toBits by omega]
    exact q.ofBits_toBits
  · rw [show (r.toNat + 2 * q.toBits + 8 * d.toNat + 16 * t.toBits) / 16 = t.toBits by omega]
    exact t.ofBits_toBits

/-- QoS 0 and no DUP: the flags that the client has where MQTT has them. -/
def Plain (f : FlagsAndType) : Prop := f.dup = false ∧ f.qos = .qos0

instance : DecidablePred Plain := fun _ => inferInstanceAs (Decidable (_ ∧ _))

theorem Plain.toStandardByte {f : FlagsAndType} (h : f.Plain) : f.toStandardByte = f.toByte := by
  obtain ⟨dup, qos⟩ := h
  rw [FlagsAndType.toStandardByte, toByte, dup, qos]
  rfl

end FlagsAndType

def takeWord : List UInt8 → Option (UInt16 × List UInt8)
  | hi :: lo :: rest => some (UInt16.ofNat (hi.toNat * 256 + lo.toNat), rest)
  | _ => none

theorem takeWord_be16 (n : UInt16) (rest : List UInt8) :
    takeWord (be16 n.toNat ++ rest) = some (n, rest) := by
  have value := be16_value n.toNat_lt
  simp only [be16, List.cons_append, List.nil_append, takeWord, value, UInt16.ofNat_toNat]

namespace PublishPacket

def ofBody (retain dup : Bool) (qos : MQTTQoSLevel) (l : List UInt8) : Option PublishPacket := do
  let (topic, l) ← takeField l
  let (identifier, message) ← if 0 < qos.toBits then takeWord l else some (0, l)
  return { retain, dup, qos, topic, identifier, message }

structure WellFormed (p : PublishPacket) : Prop where
  qos : p.qos ≠ .qosInvalid
  topic : p.topic.length < 65536
  identifier : p.qos = .qos0 → p.identifier = 0

theorem ofBody_body {p : PublishPacket} (h : p.WellFormed) :
    ofBody p.retain p.dup p.qos p.body = some p := by
  rw [body, ofBody, takeField_field _ h.topic]
  simp only [Option.bind_eq_bind, Option.bind_some, identifierBytes]
  by_cases some : 0 < p.qos.toBits
  · rw [if_pos some, if_pos some, takeWord_be16]
    rfl
  · have zero : p.qos = .qos0 := by
      cases q : p.qos <;> simp [q, MQTTQoSLevel.toBits] at some
      rfl
    rw [if_neg some, if_neg some, List.nil_append, ← h.identifier zero]
    rfl

end PublishPacket

structure SubscribePacket where
  identifier : UInt16
  filter : List UInt8
  qos : MQTTQoSLevel

namespace SubscribePacket

def body (p : SubscribePacket) : List UInt8 :=
  be16 p.identifier.toNat ++ (field p.filter ++ [UInt8.ofNat p.qos.toBits])

def takeQos : List UInt8 → Option MQTTQoSLevel
  | [options] => if options.toNat < 4 then some (.ofBits options.toNat) else none
  | _ => none

def ofBody (l : List UInt8) : Option SubscribePacket := do
  let (identifier, l) ← takeWord l
  let (filter, l) ← takeField l
  let qos ← takeQos l
  return { identifier, filter, qos }

theorem takeQos_toBits (qos : MQTTQoSLevel) : takeQos [UInt8.ofNat qos.toBits] = some qos := by
  cases qos <;> rfl

theorem ofBody_body {p : SubscribePacket} (short : p.filter.length < 65536) :
    ofBody p.body = some p := by
  rw [body, ofBody, takeWord_be16]
  simp only [Option.bind_eq_bind, Option.bind_some, takeField_field _ short, takeQos_toBits]
  rfl

end SubscribePacket

inductive ClientPacket
  | connect (p : ConnectPacket)
  | publish (p : PublishPacket)
  | subscribe (p : SubscribePacket)
  | pingreq
  | disconnect

namespace ClientPacket

/-- The first byte, field by field.  The reserved bits of a SUBSCRIBE are those of QoS 1. -/
def flags : ClientPacket → FlagsAndType
  | .connect _ => ⟨false, false, .qos0, .connect⟩
  | .publish p => ⟨p.retain, p.dup, p.qos, .publish⟩
  | .subscribe _ => ⟨false, false, .qos1, .subscribe⟩
  | .pingreq => ⟨false, false, .qos0, .pingreq⟩
  | .disconnect => ⟨false, false, .qos0, .disconnect⟩

def body : ClientPacket → List UInt8
  | .connect p => p.body
  | .publish p => p.body
  | .subscribe p => p.body
  | .pingreq | .disconnect => []

def wire (p : ClientPacket) : List UInt8 :=
  p.flags.toStandardByte :: (Base128.digits p.body.length ++ p.body)

theorem length_wire (p : ClientPacket) :
    p.wire.length = (Base128.digits p.body.length).length + 1 + p.body.length := by
  rw [wire, List.length_cons, List.length_append]
  omega

def ofBody (f : FlagsAndType) (l : List UInt8) : Option ClientPacket :=
  match f with
  | ⟨false, false, .qos0, .connect⟩ => (ConnectPacket.decodeBody l).map connect
  | ⟨retain, dup, qos, .publish⟩ => (PublishPacket.ofBody retain dup qos l).map publish
  | ⟨false, false, .qos1, .subscribe⟩ => (SubscribePacket.ofBody l).map subscribe
  | ⟨false, false, .qos0, .pingreq⟩ => if l = [] then some pingreq else none
  | ⟨false, false, .qos0, .disconnect⟩ => if l = [] then some disconnect else none
  | _ => none

def read : List UInt8 → Option (ClientPacket × List UInt8)
  | [] => none
  | first :: l => do
    let (n, l) ← Base128.parse 4 l
    if n ≤ l.length then (ofBody (.ofStandardByte first) (l.take n)).map fun p => (p, l.drop n)
    else none

theorem length_of_read {l rest : List UInt8} (h : read l = some (p, rest)) :
    rest.length < l.length := by
  cases l with
  | nil => cases h
  | cons first l =>
    obtain ⟨⟨n, l'⟩, parsed, h⟩ := Option.bind_eq_some_iff.mp h
    have := Base128.length_of_parse parsed
    dsimp only at h
    split at h
    case isFalse => cases h
    case isTrue =>
      obtain ⟨_, _, same⟩ := Option.map_eq_some_iff.mp h
      cases same
      rw [List.length_drop, List.length_cons]
      omega

def reader : Reader ClientPacket UInt8 := ⟨read, length_of_read⟩

def WellFormed : ClientPacket → Prop
  | .connect p => p.Short
  | .publish p => p.WellFormed
  | .subscribe p => p.filter.length < 65536
  | .pingreq | .disconnect => True

theorem ofBody_body {p : ClientPacket} (h : p.WellFormed) : ofBody p.flags p.body = some p := by
  cases p with
  | connect p => simp only [flags, body, ofBody, ConnectPacket.decodeBody_body h, Option.map_some]
  | publish p => simp only [flags, body, ofBody, PublishPacket.ofBody_body h, Option.map_some]
  | subscribe p => simp only [flags, body, ofBody, SubscribePacket.ofBody_body h, Option.map_some]
  | pingreq => rfl
  | disconnect => rfl

theorem finds {p : ClientPacket} (h : p.WellFormed) (fits : p.body.length < 268435456) :
    reader.Finds wire p := by
  intro rest
  have digits : (Base128.digits p.body.length).length ≤ 4 :=
    (Base128.length_digits_le_iff 3 _).mpr (by omega)
  simp only [reader, wire, List.cons_append, List.append_assoc, read, Base128.parse_digits _ digits,
    Option.bind_eq_bind, Option.bind_some, FlagsAndType.ofStandardByte_toStandardByte]
  rw [if_pos (by rw [List.length_append]; omega), List.take_left, List.drop_left, ofBody_body h,
    Option.map_some]

end ClientPacket

end RojalMQTT
