import RojalMQTT.Connect
import RojalMQTT.Library.Machine

/-! What `mqtt_connect_fill` writes, and what it hands back. -/

namespace RojalMQTT

open Library

def written (s : CString) : List UInt8 :=
  be16 (u16 s.strlen) ++ s.bytes.take (u16 s.strlen)

@[simp] theorem length_written (s : CString) : (written s).length = 2 + u16 s.strlen := by
  have : u16 s.strlen ≤ s.bytes.length := Nat.mod_le _ _
  simp [written, Nat.min_eq_left this]

theorem written_of_short {s : CString} (h : s.strlen < 65536) : written s = field s.bytes := by
  have len : u16 s.strlen = s.bytes.length := u16_of_lt h
  simp [written, field, len]

def willStrings (c : MQTTConnect) : List CString :=
  if 0 < c.lastWillTopic.strlen ∧ 0 < c.lastWillMessage.strlen then
    [c.lastWillTopic, c.lastWillMessage]
  else []

def optionalStrings (s : CString) : List CString := if 0 < s.strlen then [s] else []

def payloadStrings (c : MQTTConnect) : List CString :=
  c.clientId.elim [] fun clientId =>
    clientId :: (willStrings c ++ (optionalStrings c.username ++ optionalStrings c.password))

def fillStrings : List CString → Nat → Buffer UInt8 → Int →
    Except Fault (Ptr Nat × Buffer UInt8 × Int)
  | [], p, b, r => .ok (some p, b, r)
  | s :: ss, p, b, r => match int32Sub r (u16 s.strlen) with
    | .error e => .error e
    | .ok r =>
      if r ≤ 0 ∨ u16 s.strlen = 0 then .ok (none, b, r)
      else fillStrings ss (p + (2 + u16 s.strlen)) (b.copy p (written s)) r

def Filled.space (r : Filled) : Except Fault (Ptr Nat × Buffer UInt8 × Int) :=
  r.map fun x => (x.1, x.2.buffer, x.2.spaceRemaining)

theorem Filled.orNull_assoc (r : Filled) (f g : Nat → FillState → Filled) :
    (r.orNull f).orNull g = r.orNull fun p st => (f p st).orNull g := by
  rcases r with e | ⟨_ | p, st⟩ <;> rfl

theorem Filled.orNull_some (r : Filled) : (r.orNull fun p st => .ok (some p, st)) = r := by
  rcases r with e | ⟨_ | p, st⟩ <;> rfl

theorem space_fillAParam {next : Nat → FillState → Filled} {ss : List CString}
    (h : ∀ p st, (next p st).space = fillStrings ss p st.buffer st.spaceRemaining)
    (s : CString) (isMandatory : Bool) (p : Nat) (st : FillState) :
    ((mqttConnectFillAParam (some s) isMandatory p st).orNull next).space =
      fillStrings (s :: ss) p st.buffer st.spaceRemaining := by
  simp only [mqttConnectFillAParam, fillStrings]
  cases hr : int32Sub st.spaceRemaining (u16 s.strlen) with
  | error e => rfl
  | ok r =>
    simp only
    by_cases full : r ≤ 0
    · simp only [full, if_true, true_or]
      rfl
    · by_cases none : u16 s.strlen = 0
      · cases isMandatory <;> simp [full, none, Filled.orNull, Filled.space, Except.map]
      · have pos : 0 < u16 s.strlen := by omega
        simp only [full, none, pos, if_false, if_true, or_self, mqttAddPayloadParameters,
          Filled.orNull]
        rw [h, Buffer.copy_behind, Nat.add_assoc, written]
        rfl

theorem space_fillLastWill {next : Nat → FillState → Filled} {ss : List CString}
    (h : ∀ p st, (next p st).space = fillStrings ss p st.buffer st.spaceRemaining)
    (c : MQTTConnect) (p : Nat) (st : FillState) :
    ((fillLastWill c p st).orNull next).space =
      fillStrings (willStrings c ++ ss) p st.buffer st.spaceRemaining := by
  by_cases will : 0 < c.lastWillTopic.strlen ∧ 0 < c.lastWillMessage.strlen
  · simp only [fillLastWill, willStrings, if_pos will, Filled.orNull_assoc]
    exact space_fillAParam (space_fillAParam h c.lastWillMessage false) c.lastWillTopic false p _
  · simp only [fillLastWill, willStrings, if_neg will]
    exact h p _

theorem space_fillOptional {next : Nat → FillState → Filled} {ss : List CString}
    (h : ∀ p st, (next p st).space = fillStrings ss p st.buffer st.spaceRemaining)
    (s : CString) (setFlag : Bool → ConnectFlags → ConnectFlags) (p : Nat) (st : FillState) :
    ((fillOptional s setFlag p st).orNull next).space =
      fillStrings (optionalStrings s ++ ss) p st.buffer st.spaceRemaining := by
  by_cases present : 0 < s.strlen
  · simp only [fillOptional, optionalStrings, if_pos present]
    exact space_fillAParam h s false p _
  · simp only [fillOptional, optionalStrings, if_neg present]
    exact h p _

theorem space_fillParameters {c : MQTTConnect} {clientId : CString}
    (h : c.clientId = some clientId) (st : FillState) :
    (mqttConnectFillParameters c st).space =
      fillStrings (payloadStrings c) payloadStart st.buffer st.spaceRemaining := by
  have password (p : Nat) (st : FillState) : (fillPassword c p st).space =
      fillStrings (optionalStrings c.password) p st.buffer st.spaceRemaining := by
    rw [← Filled.orNull_some (fillPassword c p st), ← List.append_nil (optionalStrings c.password)]
    exact space_fillOptional (fun _ _ => rfl) c.password _ p st
  rw [mqttConnectFillParameters, payloadStrings, h]
  refine space_fillAParam ?_ clientId true payloadStart st
  exact space_fillLastWill (space_fillOptional password c.username _) c

def CString.storedLength (s : CString) : Nat := u16 s.strlen

def stringsLength (ss : List CString) : Nat := (ss.map (·.storedLength)).sum

def stringsSize (ss : List CString) : Nat := (ss.map fun s => 2 + s.storedLength).sum

@[simp] theorem stringsLength_nil : stringsLength [] = 0 := rfl
@[simp] theorem stringsSize_nil : stringsSize [] = 0 := rfl

@[simp] theorem stringsLength_cons (s : CString) (ss : List CString) :
    stringsLength (s :: ss) = s.storedLength + stringsLength ss := by
  simp [stringsLength]

@[simp] theorem stringsSize_cons (s : CString) (ss : List CString) :
    stringsSize (s :: ss) = 2 + s.storedLength + stringsSize ss := by
  simp [stringsSize]

theorem length_flatMap_written (ss : List CString) :
    (ss.flatMap written).length = stringsSize ss := by
  induction ss with
  | nil => rfl
  | cons s ss ih => simp [ih, CString.storedLength]

def Writable (r : Int) (ss : List CString) : Prop :=
  (∀ s ∈ ss, s.storedLength ≠ 0) ∧ (ss ≠ [] → stringsLength ss < r)

theorem fillStrings_spec {ss : List CString} {p : Nat} {b b' : Buffer UInt8} {r r' : Int}
    {q : Ptr Nat} (h : fillStrings ss p b r = .ok (q, b', r')) :
    ∃ done rest, ss = done ++ rest ∧ Writable r done ∧ b' = b.copy p (done.flatMap written) ∧
      ((rest = [] ∧ q = some (p + stringsSize done) ∧ r' = r - stringsLength done) ∨
        ∃ s tail, rest = s :: tail ∧ q = none ∧
          (s.storedLength = 0 ∨ r - stringsLength done - s.storedLength ≤ 0)) := by
  induction ss generalizing p b r with
  | nil =>
    cases h
    exact ⟨[], [], rfl, ⟨by simp, by simp⟩, by simp, .inl ⟨rfl, rfl, by simp⟩⟩
  | cons s ss ih =>
    rw [fillStrings] at h
    cases left : int32Sub r (u16 s.strlen) with
    | error e => simp [left] at h
    | ok r₁ =>
      have sub : r₁ = r - s.storedLength := eq_of_int32Sub left
      simp only [left] at h
      split at h
      case isTrue refused =>
        cases h
        refine ⟨[], s :: ss, rfl, ⟨by simp, by simp⟩, by simp, .inr ⟨s, ss, rfl, rfl, ?_⟩⟩
        simp only [stringsLength_nil]
        rcases refused with full | empty
        · exact .inr (by omega)
        · exact .inl empty
      case isFalse passed =>
        obtain ⟨room, some⟩ := not_or.mp passed
        obtain ⟨done, rest, rfl, ⟨nonempty, fits⟩, copied, result⟩ := ih h
        refine ⟨s :: done, rest, rfl, ⟨?_, ?_⟩, ?_, ?_⟩
        · intro t ht
          rcases List.mem_cons.mp ht with rfl | ht
          · exact some
          · exact nonempty t ht
        · intro _
          by_cases last : done = []
          · simp only [last, stringsLength_cons, stringsLength_nil]
            omega
          · have := fits last
            simp only [stringsLength_cons]
            omega
        · rw [copied, List.flatMap_cons, Buffer.copy_behind]
          rw [length_written]
        · simp only [stringsLength_cons, stringsSize_cons]
          rcases result with ⟨rfl, rfl, rfl⟩ | ⟨t, tail, rfl, rfl, refused⟩
          · refine .inl ⟨rfl, ?_, by omega⟩
            simp only [CString.storedLength, Option.some.injEq]
            omega
          · refine .inr ⟨t, tail, rfl, rfl, refused.imp id ?_⟩
            omega

theorem Filled.orNull_eq_some {r : Filled} {next : Nat → FillState → Filled}
    (h : r.orNull next = .ok (some q, st')) :
    ∃ p st, r = .ok (some p, st) ∧ next p st = .ok (some q, st') := by
  rcases r with e | ⟨_ | p, st⟩
  · cases h
  · cases h
  · exact ⟨p, st, rfl, h⟩

theorem flags_fillAParam {s : Ptr CString} {isMandatory : Bool} {p : Nat} {st : FillState}
    (h : mqttConnectFillAParam s isMandatory p st = .ok (some q, st')) :
    st'.connectFlags = st.connectFlags := by
  cases s with
  | none => cases h
  | some s =>
    simp only [mqttConnectFillAParam] at h
    split at h
    · cases h
    · split at h
      · cases h
      · split at h
        · cases h
          rfl
        · split at h <;> cases h

def presentFlags (c : MQTTConnect) (flags : ConnectFlags) : ConnectFlags :=
  { flags with
    lastWillQos := .qos0
    lastWill := 0 < c.lastWillTopic.strlen ∧ 0 < c.lastWillMessage.strlen
    username := 0 < c.username.strlen
    password := 0 < c.password.strlen }

theorem flags_fillLastWill {c : MQTTConnect} {p : Nat} {st : FillState}
    (h : fillLastWill c p st = .ok (some q, st')) :
    st'.connectFlags = { st.connectFlags with
      lastWillQos := .qos0
      lastWill := 0 < c.lastWillTopic.strlen ∧ 0 < c.lastWillMessage.strlen } := by
  by_cases will : 0 < c.lastWillTopic.strlen ∧ 0 < c.lastWillMessage.strlen
  · simp only [fillLastWill, if_pos will] at h
    obtain ⟨_, _, topic, message⟩ := Filled.orNull_eq_some h
    rw [flags_fillAParam message, flags_fillAParam topic]
    simp [will]
  · simp only [fillLastWill, if_neg will] at h
    cases h
    simp [will]

theorem flags_fillOptional {s : CString} {setFlag : Bool → ConnectFlags → ConnectFlags} {p : Nat}
    {st : FillState} (h : fillOptional s setFlag p st = .ok (some q, st')) :
    st'.connectFlags = setFlag (0 < s.strlen) st.connectFlags := by
  by_cases present : 0 < s.strlen
  · simp only [fillOptional, if_pos present] at h
    rw [flags_fillAParam h]
  · simp only [fillOptional, if_neg present] at h
    cases h
    rfl

theorem flags_fillParameters {c : MQTTConnect} {st : FillState}
    (h : mqttConnectFillParameters c st = .ok (some q, st')) :
    st'.connectFlags = presentFlags c st.connectFlags := by
  obtain ⟨_, _, clientId, h⟩ := Filled.orNull_eq_some h
  obtain ⟨_, _, will, h⟩ := Filled.orNull_eq_some h
  obtain ⟨_, _, username, password⟩ := Filled.orNull_eq_some h
  rw [flags_fillOptional password, flags_fillOptional username, flags_fillLastWill will,
    flags_fillAParam clientId]
  rfl

theorem encodeVariableHeaderConnect_cases (output : Buffer UInt8) (p : Nat)
    (cleanSession lastWill : Bool) (lastWillQos : MQTTQoSLevel)
    (permanentWill password username : Bool) (keepalive : UInt16) :
    ∃ l, l.length ≤ 10 ∧ encodeVariableHeaderConnect output p cleanSession lastWill lastWillQos
      permanentWill password username keepalive = (l.length, output.copy p l) := by
  simp only [encodeVariableHeaderConnect]
  split
  · exact ⟨[], by simp, by simp⟩
  · exact ⟨ConnectPacket.variableHeader ⟨cleanSession, lastWill, lastWillQos, permanentWill,
      password, username⟩ keepalive.toNat, Nat.le_refl 10, rfl⟩

theorem encodeFixedHeader_read (temporary : Mem) (messageType : MQTTMessageType) (n : Nat) :
    ∃ l, l.length ≤ 6 ∧ l.length = (encodeFixedHeader (.fresh temporary) false .qos0 false
        messageType n).1 ∧ (encodeFixedHeader (.fresh temporary) false .qos0 false
        messageType n).2.read 0 l.length = l := by
  by_cases h : EncodesHeader .qos0 messageType n
  · rw [encodeFixedHeader_of_encodes h]
    refine ⟨fixedHeaderBytes false .qos0 false messageType n, ?_, rfl, ?_⟩
    · have := length_digits_le_five h.2.2
      rw [length_fixedHeaderBytes]
      omega
    · exact Buffer.read_eq_of_spells (Buffer.spells_copy _ _ _)
  · obtain ⟨zero, _⟩ := encodeFixedHeader_of_not_encodes (.fresh temporary) false false h
    exact ⟨[], by simp, zero.symm, rfl⟩

theorem fillHeaders_bounds {keepalive : UInt16} {temporary : Mem} {payloadPtr : Nat}
    {st st' : FillState} (behind : payloadStart ≤ payloadPtr)
    (h : mqttConnectFillHeaders keepalive temporary payloadPtr st = .ok (r, st')) :
    st.buffer.extent ≤ st'.buffer.extent ∧ st'.buffer.extent ≤ max st.buffer.extent payloadStart ∧
      ∀ p, r = some p → p + st'.outputSize ≤ payloadPtr := by
  obtain ⟨l, hl, header⟩ := encodeVariableHeaderConnect_cases st.buffer sizeofFixedHeader
    st.connectFlags.cleanSession st.connectFlags.lastWill st.connectFlags.lastWillQos
    st.connectFlags.permanentWill st.connectFlags.password st.connectFlags.username keepalive
  have start : payloadStart = 15 := rfl
  have five : sizeofFixedHeader = 5 := rfl
  have low := (st.buffer.extends_copy sizeofFixedHeader l).extent_le
  have high : (st.buffer.copy sizeofFixedHeader l).extent ≤ max st.buffer.extent payloadStart :=
    Buffer.extent_copy_le.mpr ⟨Nat.le_max_left _ _, .inr (by omega)⟩
  simp only [mqttConnectFillHeaders, header] at h
  split at h
  · cases h
  · split at h
    · cases h
      exact ⟨low, high, by simp⟩
    · split at h
      · cases h
        exact ⟨low, high, by simp⟩
      · obtain ⟨hd, hhd, size, read⟩ := encodeFixedHeader_read temporary .connect
          (payloadPtr - payloadStart + l.length)
        rw [← size, read] at h
        cases h
        refine ⟨?_, ?_, ?_⟩
        · exact Nat.le_trans low (Buffer.extends_copy _ _ _).extent_le
        · exact Buffer.extent_copy_le.mpr ⟨high, .inr (by omega)⟩
        · intro p hp
          cases hp
          have : u16 (payloadPtr - (sizeofFixedHeader - hd.length)) ≤
            payloadPtr - (sizeofFixedHeader - hd.length) := Nat.mod_le _ _
          simp only
          omega

theorem fillStrings_total (ss : List CString) (p : Nat) (b : Buffer UInt8) {r : Int}
    (low : 0 ≤ r) (high : r < 2 ^ 31) : ∃ result, fillStrings ss p b r = .ok result := by
  induction ss generalizing p b r with
  | nil => exact ⟨_, rfl⟩
  | cons s ss ih =>
    have := u16_lt s.strlen
    rw [fillStrings, int32Sub, if_pos (by omega)]
    simp only
    split
    · exact ⟨_, rfl⟩
    · exact ih _ _ (by omega) (by omega)

theorem fillHeaders_total (keepalive : UInt16) (temporary : Mem) (payloadPtr : Nat)
    (st : FillState) (low : 0 ≤ st.spaceRemaining) (high : st.spaceRemaining < 2 ^ 31) :
    ∃ result, mqttConnectFillHeaders keepalive temporary payloadPtr st = .ok result := by
  obtain ⟨l, hl, header⟩ := encodeVariableHeaderConnect_cases st.buffer sizeofFixedHeader
    st.connectFlags.cleanSession st.connectFlags.lastWill st.connectFlags.lastWillQos
    st.connectFlags.permanentWill st.connectFlags.password st.connectFlags.username keepalive
  simp only [mqttConnectFillHeaders, header]
  rw [int32Sub, if_pos (by omega)]
  simp only
  split
  · exact ⟨_, rfl⟩
  · split <;> exact ⟨_, rfl⟩

theorem stringsSize_append (ss ss' : List CString) :
    stringsSize (ss ++ ss') = stringsSize ss + stringsSize ss' := by
  simp [stringsSize]

theorem stringsLength_append (ss ss' : List CString) :
    stringsLength (ss ++ ss') = stringsLength ss + stringsLength ss' := by
  simp [stringsLength]

theorem Writable.prefix_done {r : Int} {ss done : List CString} {s : CString} {tail : List CString}
    (h : Writable r ss) (pre : ss <+: done ++ s :: tail)
    (refused : s.storedLength = 0 ∨ r - stringsLength done - s.storedLength ≤ 0) : ss <+: done := by
  rcases List.prefix_or_prefix_of_prefix pre (List.prefix_append done _) with before | ⟨more, rfl⟩
  · exact before
  cases more with
  | nil => simp
  | cons t more =>
    obtain ⟨rfl, _⟩ := List.cons_prefix_cons.mp ((List.prefix_append_right_inj done).mp pre)
    have fits := h.2 (by simp)
    simp only [stringsLength_append, stringsLength_cons] at fits
    rcases refused with empty | full
    · exact absurd empty (h.1 t (by simp))
    · omega

theorem stringsSize_le (ss : List CString) : stringsSize ss ≤ 65537 * ss.length := by
  induction ss with
  | nil => simp
  | cons s ss ih =>
    have := u16_lt s.strlen
    simp only [stringsSize_cons, CString.storedLength, List.length_cons]
    omega

theorem length_payloadStrings_le (c : MQTTConnect) : (payloadStrings c).length ≤ 5 := by
  have will : (willStrings c).length ≤ 2 := by
    simp only [willStrings]
    split <;> simp
  have optional (s : CString) : (optionalStrings s).length ≤ 1 := by
    simp only [optionalStrings]
    split <;> simp
  have username := optional c.username
  have password := optional c.password
  cases h : c.clientId with
  | none => simp [payloadStrings, h]
  | some clientId =>
    simp only [payloadStrings, h, Option.elim_some, List.length_cons, List.length_append]
    omega

/-- Every initial segment of the payload whose strings pass the checks has room
behind the two headers, length prefixes included. -/
def ConnectFits (c : MQTTConnect) (maxBufferSize : Nat) : Prop :=
  ∀ ss, ss <+: payloadStrings c → ss ≠ [] → (∀ s ∈ ss, s.storedLength ≠ 0) →
    stringsLength ss < maxBufferSize → payloadStart + stringsSize ss ≤ maxBufferSize

def ConnectStaysInside (mem : Mem) (maxBufferSize : Nat) (c : MQTTConnect) (outputSize : Nat)
    (temporary : Mem) : Prop :=
  ∀ r st, mqttConnectFill (.fresh mem) maxBufferSize c outputSize temporary = .ok (r, st) →
    st.buffer.extent ≤ maxBufferSize ∧ ∀ p, r = some p → p + st.outputSize ≤ maxBufferSize

theorem fillParameters_spec {c : MQTTConnect} {clientId : CString} {st st' : FillState}
    (some : c.clientId = some clientId) (h : mqttConnectFillParameters c st = .ok (q, st')) :
    ∃ done rest, payloadStrings c = done ++ rest ∧ Writable st.spaceRemaining done ∧
      st'.buffer = st.buffer.copy payloadStart (done.flatMap written) ∧
      ((rest = [] ∧ q = .some (payloadStart + stringsSize done) ∧
          st'.spaceRemaining = st.spaceRemaining - stringsLength done) ∨
        ∃ s tail, rest = s :: tail ∧ q = none ∧ (s.storedLength = 0 ∨
          st.spaceRemaining - stringsLength done - s.storedLength ≤ 0)) := by
  have space := space_fillParameters some st
  rw [h] at space
  exact fillStrings_spec space.symm

theorem fillParameters_total {c : MQTTConnect} {clientId : CString} {s : FillState}
    (id : c.clientId = some clientId) (low : 0 ≤ s.spaceRemaining)
    (high : s.spaceRemaining < 2 ^ 31) : ∃ result, mqttConnectFillParameters c s = .ok result := by
  obtain ⟨result, total⟩ := fillStrings_total (payloadStrings c) payloadStart s.buffer low high
  have filled := space_fillParameters id s
  cases params : mqttConnectFillParameters c s with
  | error e =>
    rw [params, total] at filled
    cases filled
  | ok result => exact ⟨result, rfl⟩

theorem payloadStrings_ne_nil {c : MQTTConnect} {clientId : CString}
    (h : c.clientId = some clientId) : payloadStrings c ≠ [] := by
  simp [payloadStrings, h]

theorem clear_extent (mem : Mem) (n : Nat) :
    ((Buffer.fresh mem).copy 0 (List.replicate n 0)).extent ≤ n :=
  Buffer.extent_copy_le.mpr ⟨Nat.zero_le _, .inr (by simp)⟩

theorem staysInside_of_fits {mem : Mem} {maxBufferSize : Nat} {c : MQTTConnect} {outputSize : Nat}
    {temporary : Mem} (fits : ConnectFits c maxBufferSize) :
    ConnectStaysInside mem maxBufferSize c outputSize temporary := by
  intro r st h
  cases hc : c.clientId with
  | none =>
    simp only [mqttConnectFill, mqttConnectFillParameters, hc, mqttConnectFillAParam,
      Filled.orNull] at h
    cases h
    exact ⟨clear_extent mem maxBufferSize, by simp⟩
  | some clientId =>
    rw [mqttConnectFill] at h
    cases params : mqttConnectFillParameters c (startFill (.fresh mem) maxBufferSize c outputSize) with
    | error e =>
      rw [params] at h
      cases h
    | ok result =>
      obtain ⟨q, st₁⟩ := result
      obtain ⟨done, rest, split, ⟨nonempty, short⟩, buffer, outcome⟩ := fillParameters_spec hc params
      have room : done ≠ [] → payloadStart + stringsSize done ≤ maxBufferSize := by
        intro some
        have : (stringsLength done : Int) < int32 maxBufferSize := short some
        have := int32_le maxBufferSize
        exact fits done ⟨rest, split.symm⟩ some nonempty (by omega)
      have inside : st₁.buffer.extent ≤ maxBufferSize := by
        rw [buffer, Buffer.extent_copy_le]
        refine ⟨clear_extent mem maxBufferSize, ?_⟩
        by_cases none : done = []
        · exact .inl (by simp [none])
        · rw [length_flatMap_written]
          exact .inr (room none)
      rw [params] at h
      rcases outcome with ⟨rfl, rfl, _⟩ | ⟨_, _, _, rfl, _⟩
      · have some : done ≠ [] := by
          rw [List.append_nil] at split
          rw [← split]
          exact payloadStrings_ne_nil hc
        have := room some
        obtain ⟨_, high, packet⟩ := fillHeaders_bounds (Nat.le_add_right _ _) h
        exact ⟨by omega, fun p hp => Nat.le_trans (packet p hp) this⟩
      · cases h
        exact ⟨inside, by simp⟩

theorem fits_of_staysInside {mem : Mem} {maxBufferSize : Nat} {c : MQTTConnect} {outputSize : Nat}
    {temporary : Mem} (inside : ConnectStaysInside mem maxBufferSize c outputSize temporary) :
    ConnectFits c maxBufferSize := by
  intro ss pre some nonempty short
  have fifteen : payloadStart = 15 := rfl
  by_cases large : 2 ^ 31 ≤ maxBufferSize
  · have := stringsSize_le ss
    have := pre.length_le
    have := length_payloadStrings_le c
    have : 65537 * ss.length ≤ 65537 * 5 := Nat.mul_le_mul_left _ (by omega)
    omega
  obtain ⟨clientId, hc⟩ : ∃ clientId, c.clientId = .some clientId := by
    cases hc : c.clientId with
    | none =>
      rw [payloadStrings, hc] at pre
      exact absurd (List.prefix_nil.mp pre) some
    | some clientId => exact ⟨clientId, rfl⟩
  -- the parameters are filled in, and at least `ss` is written
  have start : (startFill (.fresh mem) maxBufferSize c outputSize).spaceRemaining = maxBufferSize :=
    int32_of_lt (by omega)
  obtain ⟨⟨q, st₁⟩, params⟩ := fillParameters_total
    (s := startFill (.fresh mem) maxBufferSize c outputSize) hc (by omega) (by omega)
  obtain ⟨done, rest, split, writable, buffer, outcome⟩ := fillParameters_spec hc params
  have reached : ss <+: done := by
    rcases outcome with ⟨rfl, _⟩ | ⟨s, tail, rfl, _, refused⟩
    · rwa [split, List.append_nil] at pre
    · rw [split] at pre
      refine Writable.prefix_done ⟨nonempty, fun _ => ?_⟩ pre refused
      omega
  obtain ⟨more, rfl⟩ := reached
  have extent : st₁.buffer.extent ≤ maxBufferSize := by
    rcases outcome with ⟨rfl, rfl, left⟩ | ⟨s, tail, rfl, rfl, refused⟩
    · have fits := writable.2 (by simp [some])
      obtain ⟨⟨r, st⟩, headers⟩ := fillHeaders_total c.keepalive temporary
        (payloadStart + stringsSize (ss ++ more)) st₁ (by omega) (by omega)
      have low := (fillHeaders_bounds (Nat.le_add_right _ _) headers).1
      have := (inside r st (by rw [mqttConnectFill, params]; exact headers)).1
      omega
    · exact (inside none st₁ (by rw [mqttConnectFill, params]; rfl)).1
  rw [buffer, Buffer.extent_copy_le, length_flatMap_written] at extent
  rw [stringsSize_append] at extent
  rcases extent.2 with none | end_le
  · have := length_flatMap_written (ss ++ more)
    rw [none, stringsSize_append] at this
    cases ss with
    | nil => exact absurd rfl some
    | cons s ss =>
      simp only [List.length_nil, stringsSize_cons] at this
      omega
  · omega

/-- `mqtt_connect_fill` keeps to its buffer exactly if every initial segment of
the payload that passes the checks has room. -/
theorem connectStaysInside_iff (mem : Mem) (maxBufferSize : Nat) (c : MQTTConnect)
    (outputSize : Nat) (temporary : Mem) :
    ConnectStaysInside mem maxBufferSize c outputSize temporary ↔ ConnectFits c maxBufferSize :=
  ⟨fits_of_staysInside, staysInside_of_fits⟩

theorem fillHeaders_some {keepalive : UInt16} {temporary : Mem} {payloadPtr : Nat}
    {st st' : FillState} (valid : st.connectFlags.lastWillQos ≠ .qosInvalid)
    (small : payloadPtr - payloadStart + 10 < 2 ^ 21)
    (h : mqttConnectFillHeaders keepalive temporary payloadPtr st = .ok (some p, st')) :
    ∃ header, header = fixedHeaderBytes false .qos0 false .connect (payloadPtr - payloadStart + 10) ∧
      p + header.length = sizeofFixedHeader ∧ st'.outputSize = u16 (payloadPtr - p) ∧
      st'.buffer = (st.buffer.copy sizeofFixedHeader
        (ConnectPacket.variableHeader st.connectFlags keepalive.toNat)).copy p header := by
  have varHeader : encodeVariableHeaderConnect st.buffer sizeofFixedHeader
      st.connectFlags.cleanSession st.connectFlags.lastWill st.connectFlags.lastWillQos
      st.connectFlags.permanentWill st.connectFlags.password st.connectFlags.username keepalive =
      (10, st.buffer.copy sizeofFixedHeader
        (ConnectPacket.variableHeader st.connectFlags keepalive.toNat)) := by
    rw [encodeVariableHeaderConnect, if_neg valid]
    rfl
  have encodes : EncodesHeader .qos0 .connect (payloadPtr - payloadStart + 10) := by
    refine ⟨by simp, by simp, ?_⟩
    simp only [mqttMaxMessageSize]
    omega
  have four : (fixedHeaderBytes false .qos0 false .connect
      (payloadPtr - payloadStart + 10)).length ≤ 4 := by
    have : (Base128.digits (payloadPtr - payloadStart + 10)).length ≤ 3 :=
      (Base128.length_digits_le_iff 2 _).mpr (by omega)
    rw [length_fixedHeaderBytes]
    omega
  simp only [mqttConnectFillHeaders, varHeader] at h
  split at h
  · cases h
  · split at h
    · cases h
    · split at h
      · cases h
      · rw [encodeFixedHeader_of_encodes encodes] at h
        have header := Buffer.read_eq_of_spells ((Buffer.fresh temporary).spells_copy 0
          (fixedHeaderBytes false .qos0 false .connect (payloadPtr - payloadStart + 10)))
        rw [header] at h
        cases h
        refine ⟨_, rfl, ?_, rfl, rfl⟩
        have : sizeofFixedHeader = 5 := rfl
        omega

def connectPacket (c : MQTTConnect) (clientId : CString) : ConnectPacket where
  keepalive := c.keepalive
  cleanSession := c.connectFlags.cleanSession
  willQos := .qos0
  willRetain := c.connectFlags.permanentWill
  clientId := clientId.bytes
  will := if 0 < c.lastWillTopic.strlen ∧ 0 < c.lastWillMessage.strlen then
    some (c.lastWillTopic.bytes, c.lastWillMessage.bytes) else none
  username := if 0 < c.username.strlen then some c.username.bytes else none
  password := if 0 < c.password.strlen then some c.password.bytes else none

theorem flags_connectPacket (c : MQTTConnect) (clientId : CString) :
    (connectPacket c clientId).flags = presentFlags c c.connectFlags := by
  simp only [ConnectPacket.flags, connectPacket, presentFlags, ConnectFlags.mk.injEq, true_and]
  refine ⟨?_, ?_, ?_⟩ <;> split <;> simp_all

theorem fields_connectPacket {c : MQTTConnect} {clientId : CString}
    (h : c.clientId = some clientId) :
    (connectPacket c clientId).fields = (payloadStrings c).map (·.bytes) := by
  simp only [ConnectPacket.fields, connectPacket, payloadStrings, h, willStrings, optionalStrings,
    Option.elim_some, List.map_cons, List.map_append]
  congr 2
  · split <;> rfl
  · congr 1 <;> split <;> rfl

theorem payload_connectPacket {c : MQTTConnect} {clientId : CString}
    (h : c.clientId = some clientId) (short : ∀ s ∈ payloadStrings c, s.strlen < 65536) :
    (connectPacket c clientId).payload = (payloadStrings c).flatMap written := by
  rw [ConnectPacket.payload, fields_connectPacket h, List.flatMap_map]
  generalize payloadStrings c = ss at short
  induction ss with
  | nil => rfl
  | cons s ss ih =>
    rw [List.flatMap_cons, List.flatMap_cons, written_of_short (short s (by simp)),
      ih fun t ht => short t (by simp [ht])]

def connectBytes (c : MQTTConnect) : List UInt8 :=
  fixedHeaderBytes false .qos0 false .connect (stringsSize (payloadStrings c) + 10) ++
    (ConnectPacket.variableHeader (presentFlags c c.connectFlags) c.keepalive.toNat ++
      (payloadStrings c).flatMap written)

theorem length_connectBytes (c : MQTTConnect) : (connectBytes c).length =
    (fixedHeaderBytes false .qos0 false .connect (stringsSize (payloadStrings c) + 10)).length +
      (stringsSize (payloadStrings c) + 10) := by
  have ten : (ConnectPacket.variableHeader (presentFlags c c.connectFlags)
    c.keepalive.toNat).length = 10 := rfl
  rw [connectBytes, List.length_append, List.length_append, length_flatMap_written, ten,
    Nat.add_comm 10]

theorem stringsSize_payload_le (c : MQTTConnect) : stringsSize (payloadStrings c) ≤ 327685 := by
  have := stringsSize_le (payloadStrings c)
  have := length_payloadStrings_le c
  omega

theorem fillParameters_none {c : MQTTConnect} (h : c.clientId = none) (st : FillState) :
    mqttConnectFillParameters c st = .ok (none, st) := by
  simp only [mqttConnectFillParameters, h, mqttConnectFillAParam, Filled.orNull]

structure ParametersFilled (c : MQTTConnect) (st st' : FillState) : Prop where
  clientId : c.clientId ≠ none
  nonempty : ∀ s ∈ payloadStrings c, s.storedLength ≠ 0
  flags : st'.connectFlags = presentFlags c st.connectFlags
  buffer : st'.buffer = st.buffer.copy payloadStart ((payloadStrings c).flatMap written)
  space : st'.spaceRemaining = st.spaceRemaining - stringsLength (payloadStrings c)

theorem ParametersFilled.valid {c : MQTTConnect} {st st' : FillState}
    (h : ParametersFilled c st st') : st'.connectFlags.lastWillQos ≠ .qosInvalid := by
  rw [h.flags]
  exact MQTTQoSLevel.noConfusion

theorem parametersFilled_of_some {c : MQTTConnect} {st st' : FillState}
    (h : mqttConnectFillParameters c st = .ok (some q, st')) :
    ParametersFilled c st st' ∧ q = payloadStart + stringsSize (payloadStrings c) := by
  have flags := flags_fillParameters h
  cases id : c.clientId with
  | none =>
    rw [fillParameters_none id] at h
    cases h
  | some clientId =>
    obtain ⟨done, rest, split, ⟨nonempty, -⟩, buffer, ⟨rfl, end_eq, space⟩ | ⟨_, _, _, none, _⟩⟩ :=
      fillParameters_spec id h
    · rw [List.append_nil] at split
      subst split
      exact ⟨⟨by simp [id], nonempty, flags, buffer, space⟩, Option.some.inj end_eq⟩
    · cases none

theorem parametersFilled_of_formed {mem temporary : Mem} {maxBufferSize outputSize : Nat}
    {c : MQTTConnect}
    (h : mqttConnectFill (.fresh mem) maxBufferSize c outputSize temporary = .ok (some p, st)) :
    ∃ st₁, ParametersFilled c (startFill (.fresh mem) maxBufferSize c outputSize) st₁ ∧
      mqttConnectFillHeaders c.keepalive temporary (payloadStart + stringsSize (payloadStrings c))
        st₁ = .ok (some p, st) := by
  obtain ⟨q, st₁, params, headers⟩ := Filled.orNull_eq_some h
  obtain ⟨filled, rfl⟩ := parametersFilled_of_some params
  exact ⟨st₁, filled, headers⟩

theorem mqttConnectFill_spells {mem temporary : Mem} {maxBufferSize outputSize : Nat}
    {c : MQTTConnect}
    (h : mqttConnectFill (.fresh mem) maxBufferSize c outputSize temporary = .ok (some p, st)) :
    Spells st.buffer.cells p (connectBytes c) ∧ st.outputSize = u16 (connectBytes c).length := by
  obtain ⟨st₁, parameters, headers⟩ := parametersFilled_of_formed h
  have short := stringsSize_payload_le c
  have fifteen : payloadStart = sizeofFixedHeader + 10 := rfl
  obtain ⟨header, rfl, before, size, filled⟩ := fillHeaders_some parameters.valid (by omega) headers
  rw [Nat.add_sub_cancel_left] at before filled
  have all : payloadStart + stringsSize (payloadStrings c) - p = (connectBytes c).length := by
    rw [length_connectBytes]
    omega
  refine ⟨?_, by rw [size, all]⟩
  rw [connectBytes, spells_append, spells_append, before, filled, parameters.flags]
  refine ⟨Buffer.spells_copy _ _ _, ?_, ?_⟩
  · exact Buffer.spells_copy_of_disjoint (Buffer.spells_copy _ _ _) (.inr (by omega))
  · rw [parameters.buffer]
    refine Buffer.spells_copy_of_disjoint (Buffer.spells_copy_of_disjoint
      (Buffer.spells_copy _ _ _) (.inr ?_)) (.inr ?_)
    · exact Nat.le_refl _
    · omega

theorem mqttConnectFill_data {mem temporary : Mem} {maxBufferSize outputSize : Nat} {c : MQTTConnect}
    (h : mqttConnectFill (.fresh mem) maxBufferSize c outputSize temporary = .ok (some p, st)) :
    st.buffer.read p st.outputSize = (connectBytes c).take (u16 (connectBytes c).length) := by
  obtain ⟨spells, size⟩ := mqttConnectFill_spells h
  rw [size]
  exact Buffer.read_of_spells spells (Nat.mod_le _ _)

theorem connectBytes_eq_wire {c : MQTTConnect} {clientId : CString} (id : c.clientId = some clientId)
    (short : ∀ s ∈ payloadStrings c, s.strlen < 65536) :
    connectBytes c = (connectPacket c clientId).wire := by
  have payload := payload_connectPacket id short
  have body : (connectPacket c clientId).body.length = stringsSize (payloadStrings c) + 10 := by
    rw [ConnectPacket.body, List.length_append, payload, length_flatMap_written, Nat.add_comm]
    rfl
  rw [ConnectPacket.wire, body, ConnectPacket.body, flags_connectPacket, payload]
  rfl

theorem mqttConnectFill_wire {mem temporary : Mem} {maxBufferSize outputSize : Nat}
    {c : MQTTConnect} {clientId : CString} (id : c.clientId = some clientId)
    (short : ∀ s ∈ payloadStrings c, s.strlen < 65536)
    (fits : (connectPacket c clientId).wire.length ≤ 65535)
    (h : mqttConnectFill (.fresh mem) maxBufferSize c outputSize temporary = .ok (some p, st)) :
    st.buffer.read p st.outputSize = (connectPacket c clientId).wire := by
  have data := mqttConnectFill_data h
  rwa [connectBytes_eq_wire id short, u16_of_lt (by omega), List.take_length] at data

/-- A buffer of this size passes the checks of `mqtt_connect_fill`, which take each
string off the space without its length prefix and once more with it. -/
def ConnectRoom (c : MQTTConnect) (maxBufferSize : Nat) : Prop :=
  ((stringsLength (payloadStrings c) + sizeofVariableHeaderConnect +
    stringsSize (payloadStrings c) : Nat) : Int) ≤ int32 maxBufferSize

def ConnectComplete (c : MQTTConnect) : Prop :=
  c.clientId ≠ none ∧ ∀ s ∈ payloadStrings c, s.storedLength ≠ 0

instance : Decidable (ConnectComplete c) := inferInstanceAs (Decidable (_ ∧ _))

theorem fillHeaders_of_room {payloadPtr : Nat} {st : FillState} (keepalive : UInt16)
    (temporary : Mem) (valid : st.connectFlags.lastWillQos ≠ .qosInvalid)
    (high : st.spaceRemaining < 2 ^ 31)
    (room : ((sizeofVariableHeaderConnect + (payloadPtr - payloadStart) : Nat) : Int) ≤
      st.spaceRemaining) :
    ∃ p st', mqttConnectFillHeaders keepalive temporary payloadPtr st = .ok (some p, st') := by
  have ten : sizeofVariableHeaderConnect = 10 := rfl
  have nonneg : ¬ st.spaceRemaining - (10 : Nat) < 0 := by omega
  have left : ((st.spaceRemaining - (10 : Nat) - (payloadPtr - payloadStart : Nat)) %
      2 ^ 32).toNat = (st.spaceRemaining - (10 + (payloadPtr - payloadStart) : Nat)).toNat := by
    omega
  have fits : ¬ int32 ((st.spaceRemaining - (10 : Nat) - (payloadPtr - payloadStart : Nat)) %
      2 ^ 32).toNat < 0 := by
    rw [left, int32_of_lt (by omega)]
    omega
  simp only [mqttConnectFillHeaders, encodeVariableHeaderConnect, if_neg valid]
  rw [int32Sub, if_pos (by omega)]
  simp only [nonneg, if_false]
  rw [if_neg fits]
  exact ⟨_, _, rfl⟩

theorem mqttConnectFill_of_room {c : MQTTConnect} {maxBufferSize : Nat} (mem temporary : Mem)
    (outputSize : Nat) (room : ConnectRoom c maxBufferSize) :
    ∃ q st, mqttConnectFill (.fresh mem) maxBufferSize c outputSize temporary = .ok (q, st) ∧
      (q ≠ none ↔ ConnectComplete c) := by
  have ten : sizeofVariableHeaderConnect = 10 := rfl
  rw [ConnectRoom] at room
  have high := int32_lt maxBufferSize
  cases id : c.clientId with
  | none =>
    have fails : ¬ ConnectComplete c := fun complete => complete.1 id
    simp only [mqttConnectFill, fillParameters_none id, Filled.orNull]
    exact ⟨none, _, rfl, by simp [fails]⟩
  | some clientId =>
    have start : (startFill (.fresh mem) maxBufferSize c outputSize).spaceRemaining =
      int32 maxBufferSize := rfl
    obtain ⟨⟨_ | q, st₁⟩, params⟩ := fillParameters_total
      (s := startFill (.fresh mem) maxBufferSize c outputSize) id (by omega) (by omega)
    · obtain ⟨done, rest, split, -, -, ⟨_, some, _⟩ | ⟨s, tail, rfl, -, refused⟩⟩ :=
        fillParameters_spec id params
      · cases some
      · rw [mqttConnectFill, params]
        refine ⟨none, st₁, rfl, iff_of_false (by simp) fun complete => ?_⟩
        rw [split, stringsLength_append, stringsLength_cons] at room
        simp only [startFill] at refused
        rcases refused with empty | full
        · exact complete.2 s (by simp [split]) empty
        · omega
    · obtain ⟨parameters, rfl⟩ := parametersFilled_of_some params
      have left : st₁.spaceRemaining = int32 maxBufferSize - stringsLength (payloadStrings c) :=
        parameters.space
      have payload : payloadStart + stringsSize (payloadStrings c) - payloadStart =
        stringsSize (payloadStrings c) := Nat.add_sub_cancel_left _ _
      have space : ((sizeofVariableHeaderConnect + (payloadStart + stringsSize (payloadStrings c) -
          payloadStart) : Nat) : Int) ≤ st₁.spaceRemaining := by
        rw [payload]
        omega
      obtain ⟨p, st, headers⟩ :=
        fillHeaders_of_room c.keepalive temporary parameters.valid (by omega) space
      rw [mqttConnectFill, params]
      exact ⟨some p, st, headers, iff_of_true (Option.some_ne_none p)
        ⟨parameters.clientId, parameters.nonempty⟩⟩

theorem decode_connectPacket {c : MQTTConnect} {clientId : CString} (id : c.clientId = some clientId)
    (short : ∀ s ∈ payloadStrings c, s.strlen < 65536)
    (fits : (connectPacket c clientId).wire.length ≤ 65535) :
    ConnectPacket.decode (connectPacket c clientId).wire = some (connectPacket c clientId) := by
  apply ConnectPacket.decode_wire
  · intro l hl
    rw [fields_connectPacket id] at hl
    obtain ⟨s, hs, rfl⟩ := List.mem_map.mp hl
    exact short s hs
  · rw [ConnectPacket.wire, List.length_append] at fits
    omega

theorem mqttConnectFill_decodes {mem temporary : Mem} {maxBufferSize outputSize : Nat}
    {c : MQTTConnect} {clientId : CString} (id : c.clientId = some clientId)
    (short : ∀ s ∈ payloadStrings c, s.strlen < 65536)
    (fits : (connectPacket c clientId).wire.length ≤ 65535)
    (h : mqttConnectFill (.fresh mem) maxBufferSize c outputSize temporary = .ok (some p, st)) :
    ConnectPacket.decode (st.buffer.read p st.outputSize) = some (connectPacket c clientId) := by
  rw [mqttConnectFill_wire id short fits h]
  exact decode_connectPacket id short fits

def CString.abc : CString := ⟨[0x61, 0x62, 0x63], by decide⟩

def MQTTConnect.sample (keepalive : UInt16) : MQTTConnect where
  connectFlags := .ofByte 0
  keepalive
  lastWillTopic := .empty
  lastWillMessage := .empty
  username := .empty
  password := .empty
  clientId := some .abc

theorem mqttConnectFill_decodes_sample : ∃ p st,
    mqttConnectFill (.fresh fun _ => 0) 64 { MQTTConnect.sample 60 with username := .abc } 0
        (fun _ => 0) = .ok (some p, st) ∧
      ConnectPacket.decode (st.buffer.read p st.outputSize) =
        some (connectPacket { MQTTConnect.sample 60 with username := .abc } .abc) := by
  obtain ⟨⟨_ | p, st⟩, fill, some⟩ := exists_of_any (x := mqttConnectFill (.fresh fun _ => 0) 64
    { MQTTConnect.sample 60 with username := .abc } 0 fun _ => 0) (p := fun r => r.1.isSome)
    (by decide +kernel)
  · cases some
  · exact ⟨p, st, fill, mqttConnectFill_decodes rfl (by decide) (by decide +kernel) fill⟩

theorem connect_overruns :
    ¬ ConnectStaysInside (fun _ => 0) 18 (.sample 60) 0 (fun _ => 0) := by
  intro inside
  obtain ⟨⟨r, st⟩, fill, packet⟩ := exists_of_any (x := mqttConnectFill (.fresh fun _ => 0) 18
    (.sample 60) 0 fun _ => 0) (p := fun r => r.1 = some 3 ∧ r.2.outputSize = 17)
    (by decide +kernel)
  obtain ⟨start, size⟩ := of_decide_eq_true packet
  have := (inside r st fill).2 3 start
  simp only at size
  omega

end RojalMQTT
