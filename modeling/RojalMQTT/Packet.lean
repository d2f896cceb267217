import RojalMQTT.Types
import RojalMQTT.Library.Base128

/-! The packets of MQTT 3.1.1 as the protocol lays them out on the wire.  This is
what the encoders are for, and is stated without reference to them. -/

namespace RojalMQTT

open Library

def fixedHeaderBytes (dup : Bool) (qos : MQTTQoSLevel) (retain : Bool)
    (messageType : MQTTMessageType) (n : Nat) : List UInt8 :=
  (FlagsAndType.mk retain dup qos messageType).toByte :: Base128.digits n

theorem length_fixedHeaderBytes (dup : Bool) (qos : MQTTQoSLevel) (retain : Bool)
    (messageType : MQTTMessageType) (n : Nat) :
    (fixedHeaderBytes dup qos retain messageType n).length = (Base128.digits n).length + 1 := rfl

def field (l : List UInt8) : List UInt8 := be16 l.length ++ l

@[simp] theorem length_field (l : List UInt8) : (field l).length = 2 + l.length := by
  simp [field]

def takeField : List UInt8 → Option (List UInt8 × List UInt8)
  | hi :: lo :: rest =>
    let n := hi.toNat * 256 + lo.toNat
    if n ≤ rest.length then some (rest.take n, rest.drop n) else none
  | _ => none

theorem be16_value {n : Nat} (h : n < 65536) :
    (UInt8.ofNat (n / 256)).toNat * 256 + (UInt8.ofNat n).toNat = n := by
  simp only [UInt8.toNat_ofNat']
  omega

theorem takeField_field {l : List UInt8} (rest : List UInt8) (h : l.length < 65536) :
    takeField (field l ++ rest) = some (l, rest) := by
  have value := be16_value h
  simp only [field, be16, List.cons_append, List.nil_append, takeField, value]
  simp

theorem be16_toNat (hi lo : UInt8) : be16 (hi.toNat * 256 + lo.toNat) = [hi, lo] := by
  have high := hi.toNat_lt
  have low := lo.toNat_lt
  rw [be16, show (hi.toNat * 256 + lo.toNat) / 256 = hi.toNat by omega, UInt8.ofNat_toNat]
  congr 2
  rw [← UInt8.toNat_inj, UInt8.toNat_ofNat']
  omega

theorem field_of_takeField {l a rest : List UInt8} (h : takeField l = some (a, rest)) :
    l = field a ++ rest ∧ a.length < 65536 := by
  match l with
  | [] => cases h
  | [_] => cases h
  | hi :: lo :: l =>
    have high := hi.toNat_lt
    have low := lo.toNat_lt
    simp only [takeField] at h
    split at h
    case isFalse => cases h
    case isTrue room =>
      cases h
      have length : (l.take (hi.toNat * 256 + lo.toNat)).length = hi.toNat * 256 + lo.toNat := by
        rw [List.length_take, Nat.min_eq_left room]
      rw [field, length, be16_toNat, List.append_assoc, List.take_append_drop]
      exact ⟨rfl, by omega⟩

structure PublishPacket where
  retain : Bool
  dup : Bool
  qos : MQTTQoSLevel
  topic : List UInt8
  identifier : UInt16
  message : List UInt8

namespace PublishPacket

def identifierBytes (p : PublishPacket) : List UInt8 :=
  if 0 < p.qos.toBits then be16 p.identifier.toNat else []

def body (p : PublishPacket) : List UInt8 :=
  field p.topic ++ (p.identifierBytes ++ p.message)

def wire (p : PublishPacket) : List UInt8 :=
  fixedHeaderBytes p.dup p.qos p.retain .publish p.body.length ++ p.body

theorem length_identifierBytes (p : PublishPacket) :
    p.identifierBytes.length = if 0 < p.qos.toBits then 2 else 0 := by
  simp only [identifierBytes]
  split <;> rfl

theorem length_body (p : PublishPacket) :
    p.body.length = 2 + p.topic.length + p.identifierBytes.length + p.message.length := by
  simp only [body, List.length_append, length_field]
  omega

end PublishPacket

structure ConnectPacket where
  keepalive : UInt16
  cleanSession : Bool
  willQos : MQTTQoSLevel
  willRetain : Bool
  clientId : List UInt8
  will : Option (List UInt8 × List UInt8)
  username : Option (List UInt8)
  password : Option (List UInt8)
  deriving DecidableEq

namespace ConnectPacket

def flags (p : ConnectPacket) : ConnectFlags where
  cleanSession := p.cleanSession
  lastWill := p.will.isSome
  lastWillQos := p.willQos
  permanentWill := p.willRetain
  password := p.password.isSome
  username := p.username.isSome

def fields (p : ConnectPacket) : List (List UInt8) :=
  p.clientId :: ((p.will.elim [] fun w => [w.1, w.2]) ++ (p.username.toList ++ p.password.toList))

def payload (p : ConnectPacket) : List UInt8 := p.fields.flatMap field

/-- 'M', 'Q', 'T', 'T' with its length, and version 4, which is 3.1.1. -/
def protocolName : List UInt8 := [0, 4, 77, 81, 84, 84, 4]

def variableHeader (flags : ConnectFlags) (keepalive : Nat) : List UInt8 :=
  protocolName ++ (flags.toByte :: be16 keepalive)

def body (p : ConnectPacket) : List UInt8 :=
  variableHeader p.flags p.keepalive.toNat ++ p.payload

def wire (p : ConnectPacket) : List UInt8 :=
  fixedHeaderBytes false .qos0 false .connect p.body.length ++ p.body

def takeIf (present : Bool) (l : List UInt8) : Option (Option (List UInt8) × List UInt8) :=
  if present then (takeField l).map fun r => (some r.1, r.2) else some (none, l)

def takeWill (present : Bool) (l : List UInt8) :
    Option (Option (List UInt8 × List UInt8) × List UInt8) :=
  if present then do
    let (topic, l) ← takeField l
    let (message, l) ← takeField l
    return (some (topic, message), l)
  else some (none, l)

def decodePayload (flags : ConnectFlags) (keepalive : UInt16) (l : List UInt8) :
    Option ConnectPacket := do
  let (clientId, l) ← takeField l
  let (will, l) ← takeWill flags.lastWill l
  let (username, l) ← takeIf flags.username l
  let (password, l) ← takeIf flags.password l
  if l = [] then
    return { keepalive, cleanSession := flags.cleanSession, willQos := flags.lastWillQos,
             willRetain := flags.permanentWill, clientId, will, username, password }
  else none

def decodeBody : List UInt8 → Option ConnectPacket
  | 0 :: 4 :: 77 :: 81 :: 84 :: 84 :: 4 :: flags :: hi :: lo :: l =>
    if flags.toNat % 2 = 0 then
      decodePayload (.ofByte flags) (UInt16.ofNat (hi.toNat * 256 + lo.toNat)) l
    else none
  | _ => none

def decode : List UInt8 → Option ConnectPacket
  | [] => none
  | first :: l =>
    if first = 0x10 then
      match Base128.parse 4 l with
      | some (n, body) => if body.length = n then decodeBody body else none
      | none => none
    else none

def Short (p : ConnectPacket) : Prop := ∀ l ∈ p.fields, l.length < 65536

theorem takeIf_toList {o : Option (List UInt8)} (rest : List UInt8)
    (h : ∀ l ∈ o.toList, l.length < 65536) :
    takeIf o.isSome (o.toList.flatMap field ++ rest) = some (o, rest) := by
  cases o with
  | none => rfl
  | some l =>
    have short : l.length < 65536 := h l (by simp)
    simp [takeIf, takeField_field rest short]

theorem takeWill_elim {o : Option (List UInt8 × List UInt8)} (rest : List UInt8)
    (h : ∀ l ∈ o.elim [] (fun w => [w.1, w.2]), l.length < 65536) :
    takeWill o.isSome ((o.elim [] fun w => [w.1, w.2]).flatMap field ++ rest) = some (o, rest) := by
  cases o with
  | none => rfl
  | some w =>
    have topic : w.1.length < 65536 := h w.1 (by simp)
    have message : w.2.length < 65536 := h w.2 (by simp)
    simp [takeWill, takeField_field _ topic, takeField_field rest message]

theorem decodePayload_payload {p : ConnectPacket} (h : p.Short) :
    decodePayload p.flags p.keepalive p.payload = some p := by
  have clientId : p.clientId.length < 65536 := h _ (by simp [fields])
  have will := takeWill_elim (o := p.will) (p.username.toList.flatMap field ++
    (p.password.toList.flatMap field ++ [])) (fun l hl => h l (by simp [fields, hl]))
  have username := takeIf_toList (o := p.username) (p.password.toList.flatMap field ++ [])
    (fun l hl => h l (by simp [fields, hl]))
  have password := takeIf_toList (o := p.password) [] (fun l hl => h l (by simp [fields, hl]))
  have layout : p.payload = field p.clientId ++ ((p.will.elim [] fun w => [w.1, w.2]).flatMap field ++
      (p.username.toList.flatMap field ++ (p.password.toList.flatMap field ++ []))) := by
    simp [payload, fields]
  rw [layout, decodePayload, takeField_field _ clientId]
  simp only [Option.bind_eq_bind, Option.bind_some, flags, will, username, password]
  rfl

theorem decodeBody_body {p : ConnectPacket} (h : p.Short) : decodeBody p.body = some p := by
  have keepalive : UInt16.ofNat ((UInt8.ofNat (p.keepalive.toNat / 256)).toNat * 256 +
      (UInt8.ofNat p.keepalive.toNat).toNat) = p.keepalive := by
    rw [be16_value p.keepalive.toNat_lt, UInt16.ofNat_toNat]
  have body : p.body = 0 :: 4 :: 77 :: 81 :: 84 :: 84 :: 4 :: p.flags.toByte ::
      UInt8.ofNat (p.keepalive.toNat / 256) :: UInt8.ofNat p.keepalive.toNat :: p.payload := rfl
  rw [body, decodeBody, if_pos p.flags.toByte_reserved, ConnectFlags.ofByte_toByte, keepalive]
  exact decodePayload_payload h

theorem decode_wire {p : ConnectPacket} (h : p.Short) (fits : p.body.length < 268435456) :
    decode p.wire = some p := by
  have digits : (Base128.digits p.body.length).length ≤ 4 :=
    (Base128.length_digits_le_iff 3 _).mpr (by omega)
  have first : (FlagsAndType.mk false false .qos0 .connect).toByte = 0x10 := rfl
  rw [wire, fixedHeaderBytes, List.cons_append, decode, if_pos first,
    Base128.parse_digits p.body digits]
  simp only [if_true]
  exact decodeBody_body h

theorem toList_of_takeIf {present : Bool} {l rest : List UInt8} {o : Option (List UInt8)}
    (h : takeIf present l = some (o, rest)) : l = o.toList.flatMap field ++ rest ∧
      o.isSome = present ∧ ∀ s ∈ o.toList, s.length < 65536 := by
  cases present with
  | false =>
    cases h
    simp
  | true =>
    obtain ⟨⟨s, rest⟩, taken, same⟩ := Option.map_eq_some_iff.mp h
    cases same
    obtain ⟨split, short⟩ := field_of_takeField taken
    simp [split, short]

theorem elim_of_takeWill {present : Bool} {l rest : List UInt8}
    {o : Option (List UInt8 × List UInt8)} (h : takeWill present l = some (o, rest)) :
    l = (o.elim [] fun w => [w.1, w.2]).flatMap field ++ rest ∧
      o.isSome = present ∧ ∀ s ∈ o.elim [] (fun w => [w.1, w.2]), s.length < 65536 := by
  cases present with
  | false =>
    cases h
    simp
  | true =>
    obtain ⟨⟨topic, l'⟩, first, h⟩ := Option.bind_eq_some_iff.mp h
    obtain ⟨⟨message, l''⟩, second, h⟩ := Option.bind_eq_some_iff.mp h
    cases h
    obtain ⟨split, shortTopic⟩ := field_of_takeField first
    obtain ⟨split', shortMessage⟩ := field_of_takeField second
    simp [split, split', shortTopic, shortMessage]

theorem payload_of_decodePayload {flags : ConnectFlags} {keepalive : UInt16} {l : List UInt8}
    {p : ConnectPacket} (h : decodePayload flags keepalive l = some p) :
    l = p.payload ∧ p.Short ∧ p.flags = flags ∧ p.keepalive = keepalive := by
  obtain ⟨⟨clientId, l₁⟩, first, h⟩ := Option.bind_eq_some_iff.mp h
  obtain ⟨⟨will, l₂⟩, second, h⟩ := Option.bind_eq_some_iff.mp h
  obtain ⟨⟨username, l₃⟩, third, h⟩ := Option.bind_eq_some_iff.mp h
  obtain ⟨⟨password, l₄⟩, fourth, h⟩ := Option.bind_eq_some_iff.mp h
  obtain ⟨splitId, shortId⟩ := field_of_takeField first
  obtain ⟨splitWill, hasWill, shortWill⟩ := elim_of_takeWill second
  obtain ⟨splitName, hasName, shortName⟩ := toList_of_takeIf third
  obtain ⟨splitPass, hasPass, shortPass⟩ := toList_of_takeIf fourth
  dsimp only at h
  split at h
  case isFalse => cases h
  case isTrue last =>
    cases h
    subst last
    refine ⟨?_, ?_, ?_, rfl⟩
    · simp only [payload, fields, List.flatMap_cons, List.flatMap_append, splitId, splitWill,
        splitName, splitPass, List.append_nil]
    · intro s hs
      simp only [fields, List.mem_cons, List.mem_append] at hs
      rcases hs with rfl | hs | hs | hs
      · exact shortId
      · exact shortWill s hs
      · exact shortName s hs
      · exact shortPass s hs
    · simp only [ConnectPacket.flags, hasWill, hasName, hasPass]

theorem flags_of_even {b : UInt8} (even : b.toNat % 2 = 0) : (ConnectFlags.ofByte b).toByte = b := by
  have byte : ∀ k : Fin 256, k.val % 2 = 0 →
      (ConnectFlags.ofByte (UInt8.ofNat k)).toByte = UInt8.ofNat k := by decide +kernel
  simpa using byte ⟨b.toNat, b.toNat_lt⟩ even

theorem body_of_decodeBody {l : List UInt8} {p : ConnectPacket} (h : decodeBody l = some p) :
    l = p.body ∧ p.Short := by
  rw [decodeBody.eq_def] at h
  split at h
  case h_1 flagsByte hi lo l =>
    split at h
    case isFalse => cases h
    case isTrue even =>
      obtain ⟨rfl, short, flags, keepalive⟩ := payload_of_decodePayload h
      have high := hi.toNat_lt
      have low := lo.toNat_lt
      have stored : (UInt16.ofNat (hi.toNat * 256 + lo.toNat)).toNat = hi.toNat * 256 + lo.toNat := by
        rw [UInt16.toNat_ofNat']
        omega
      rw [body, variableHeader, flags, keepalive, stored, be16_toNat, flags_of_even even]
      exact ⟨rfl, short⟩
  case h_2 => cases h

theorem body_of_decode {l : List UInt8} {p : ConnectPacket} (h : decode l = some p) :
    p.Short ∧ p.body.length < l.length := by
  rw [decode.eq_def] at h
  split at h
  case h_1 => cases h
  case h_2 first l =>
    split at h
    case isFalse => cases h
    case isTrue =>
      split at h
      case h_1 n body parsed =>
        split at h
        case isFalse => cases h
        case isTrue =>
          obtain ⟨rfl, short⟩ := body_of_decodeBody h
          refine ⟨short, ?_⟩
          have := Base128.length_of_parse parsed
          rw [List.length_cons]
          omega
      case h_2 => cases h

end ConnectPacket

end RojalMQTT
