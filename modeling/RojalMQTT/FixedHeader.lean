import RojalMQTT.Packet

/-! The fixed header: `MQTT_fixed_header_t`, its length field, and the functions
that write and read them. -/

namespace RojalMQTT

open Library

def sizeofFixedHeader : Nat := 5

def mqttMaxMessageSize : Nat := 0x80000000 - 1

def setSizeLoop (output : Buffer UInt8) (returnValue messageSize : Nat) : Nat × Buffer UInt8 :=
  let rest := messageSize / 128
  let encodedByte := UInt8.ofNat (messageSize % 128)
  let encodedByte := if 0 < rest then encodedByte ||| 128 else encodedByte
  let output := output.copy (1 + returnValue) [encodedByte]
  if 0 < rest then setSizeLoop output (returnValue + 1) rest else (returnValue + 1, output)
termination_by messageSize

def setSize (output : Buffer UInt8) (messageSize : Nat) : Nat × Buffer UInt8 :=
  if messageSize < mqttMaxMessageSize then setSizeLoop output 0 messageSize else (0, output)

theorem u32_mul_128_pos (pos : 0 < multiplier) (low : ¬ 128 * 128 * 128 < multiplier) :
    0 < u32 (multiplier * 128) := by
  rw [u32_of_lt (by omega)]
  omega

/-- The loop of `get_size`.  The multiplier only leaves the loop's range on the
fifth byte, where the sum may wrap. -/
def getSizeLoop (input : Mem) (multiplier : Nat) (pos : 0 < multiplier) (value cnt : Nat) :
    Ptr (Nat × Nat) :=
  let aByte := input cnt
  let value := u32 (value + u32 ((aByte &&& 127).toNat * multiplier))
  if high : 128 * 128 * 128 < multiplier then none
  else if aByte &&& 128 ≠ 0 then
    getSizeLoop input (u32 (multiplier * 128)) (u32_mul_128_pos pos high) value (cnt + 1)
  else some (value, cnt + 1)
termination_by 2 ^ 32 - multiplier
decreasing_by
  rw [u32_of_lt (by omega)]
  omega

def getSize (input : Mem) : Ptr Nat × Nat :=
  match getSizeLoop input 1 Nat.one_pos 0 1 with
  | none => (none, 0)
  | some (value, cnt) => if mqttMaxMessageSize < value then (none, 0) else (some cnt, value)

def setFlags (output : Buffer UInt8) (f : FlagsAndType → FlagsAndType) : Buffer UInt8 :=
  output.copy 0 [(f (.ofByte (output.cells 0))).toByte]

def encodeFixedHeader (output : Buffer UInt8) (dup : Bool) (qos : MQTTQoSLevel) (retain : Bool)
    (messageType : MQTTMessageType) (messageSize : Nat) : Nat × Buffer UInt8 :=
  if qos = .qosInvalid then (0, output)
  else
    let output := setFlags output fun f => { f with qos := qos }
    let output := setFlags output fun f => { f with dup := dup, retain := retain }
    if messageType = .maxcmd then (0, output)
    else
      let output := setFlags output fun f => { f with messageType := messageType }
      let (msgLenSize, output) := setSize output messageSize
      if 0 < msgLenSize then (msgLenSize + 1, output) else (0, output)

structure FixedHeader where
  next : Ptr Nat
  dup : Bool
  qos : MQTTQoSLevel
  retain : Bool
  messageType : MQTTMessageType
  messageSize : Nat

def decodeFixedHeader (input : Mem) : FixedHeader :=
  let (next, messageSize) := getSize input
  let header := FlagsAndType.ofByte (input 0)
  if next ≠ none ∧ header.qos ≠ .qosInvalid ∧ header.messageType ≠ .maxcmd then
    { next, dup := header.dup, qos := header.qos, retain := header.retain,
      messageType := header.messageType, messageSize }
  else
    { next, dup := false, qos := .qos0, retain := false, messageType := .invalidcmd,
      messageSize := 0 }

theorem or_continuation {n : Nat} (h : n < 128) :
    UInt8.ofNat n ||| 128 = UInt8.ofNat (n + 128) := by
  have byte : ∀ k : Fin 128, UInt8.ofNat k ||| 128 = UInt8.ofNat (k + 128) := by decide
  exact byte ⟨n, h⟩

theorem and_continuation (b : UInt8) : b &&& 128 ≠ 0 ↔ 128 ≤ b.toNat := by
  have byte : ∀ k : Fin 256, UInt8.ofNat k &&& 128 ≠ 0 ↔ 128 ≤ k.val := by decide +kernel
  simpa using byte ⟨b.toNat, b.toNat_lt⟩

theorem and_payload (b : UInt8) : (b &&& 127).toNat = b.toNat % 128 := by
  rw [UInt8.toNat_and]
  exact Nat.and_two_pow_sub_one_eq_mod b.toNat 7

theorem setSizeLoop_eq (output : Buffer UInt8) (returnValue messageSize : Nat) :
    setSizeLoop output returnValue messageSize =
      (returnValue + (Base128.digits messageSize).length,
        output.copy (1 + returnValue) (Base128.digits messageSize)) := by
  induction messageSize using Nat.strongRecOn generalizing output returnValue with
  | ind n ih =>
    rw [setSizeLoop]
    by_cases small : n < 128
    · have done : ¬ 0 < n / 128 := by omega
      simp [done, Base128.digits_of_lt small, Nat.mod_eq_of_lt small]
    · have more : 0 < n / 128 := by omega
      have tail := ih (n / 128) (by omega)
        (output.copy (1 + returnValue) [UInt8.ofNat (n % 128 + 128)]) (returnValue + 1)
      simp only [more, if_true, or_continuation (by omega : n % 128 < 128), tail]
      rw [Base128.digits_of_ge (n := n) (by omega)]
      simp only [Prod.mk.injEq, List.length_cons]
      refine ⟨by omega, ?_⟩
      exact output.copy_copy (1 + returnValue) [UInt8.ofNat (n % 128 + 128)] _

theorem setSize_of_lt {output : Buffer UInt8} {n : Nat} (h : n < mqttMaxMessageSize) :
    setSize output n = ((Base128.digits n).length, output.copy 1 (Base128.digits n)) := by
  rw [setSize, if_pos h, setSizeLoop_eq, Nat.zero_add, Nat.add_zero]

theorem setSize_of_ge {output : Buffer UInt8} {n : Nat} (h : mqttMaxMessageSize ≤ n) :
    setSize output n = (0, output) := by
  rw [setSize, if_neg (by omega)]

/-- The admission test lets five digits through, one more than `length[4]` holds. -/
theorem length_digits_le_five {n : Nat} (h : n < mqttMaxMessageSize) :
    (Base128.digits n).length ≤ 5 := by
  rw [Base128.length_digits_le_iff 4]
  simp only [mqttMaxMessageSize] at h
  omega

theorem length_digits_le_four {n : Nat} (h : n < 268435456) :
    (Base128.digits n).length ≤ 4 :=
  (Base128.length_digits_le_iff 3 n).mpr (by omega)

def EncodesHeader (qos : MQTTQoSLevel) (messageType : MQTTMessageType) (n : Nat) : Prop :=
  qos ≠ .qosInvalid ∧ messageType ≠ .maxcmd ∧ n < mqttMaxMessageSize

instance : Decidable (EncodesHeader qos messageType n) :=
  inferInstanceAs (Decidable (_ ∧ _ ∧ _))

theorem setFlags_setFlags (output : Buffer UInt8) (f g : FlagsAndType → FlagsAndType) :
    setFlags (setFlags output f) g = setFlags output (g ∘ f) := by
  have written : (setFlags output f).cells 0 = (f (.ofByte (output.cells 0))).toByte :=
    (output.spells_copy 0 [_]).1
  rw [setFlags, written, FlagsAndType.ofByte_toByte, setFlags]
  exact output.copy_over 0 rfl

theorem encodeFixedHeader_of_encodes {output : Buffer UInt8} {dup retain : Bool}
    {qos : MQTTQoSLevel} {messageType : MQTTMessageType} {n : Nat}
    (h : EncodesHeader qos messageType n) :
    encodeFixedHeader output dup qos retain messageType n =
      ((fixedHeaderBytes dup qos retain messageType n).length,
        output.copy 0 (fixedHeaderBytes dup qos retain messageType n)) := by
  obtain ⟨hq, ht, hn⟩ := h
  have some : 0 < (Base128.digits n).length := Base128.length_digits_pos n
  simp only [encodeFixedHeader, if_neg hq, if_neg ht, setFlags_setFlags, setSize_of_lt hn,
    if_pos some, length_fixedHeaderBytes, Prod.mk.injEq, true_and]
  exact output.copy_copy 0 [_] (Base128.digits n)

theorem encodeFixedHeader_of_not_encodes (output : Buffer UInt8) (dup retain : Bool)
    {qos : MQTTQoSLevel} {messageType : MQTTMessageType} {n : Nat}
    (h : ¬ EncodesHeader qos messageType n) :
    (encodeFixedHeader output dup qos retain messageType n).1 = 0 ∧
      (encodeFixedHeader output dup qos retain messageType n).2.extent ≤ max output.extent 1 := by
  have flags (f : FlagsAndType → FlagsAndType) :
      (setFlags output f).extent ≤ max output.extent 1 := by
    rw [setFlags, Buffer.extent_copy_le]
    exact ⟨Nat.le_max_left _ _, .inr (Nat.le_max_right _ _)⟩
  by_cases hq : qos = .qosInvalid
  · simp only [encodeFixedHeader, if_pos hq, true_and]
    exact Nat.le_max_left _ _
  by_cases ht : messageType = .maxcmd
  · simp only [encodeFixedHeader, if_neg hq, if_pos ht, setFlags_setFlags, true_and]
    exact flags _
  have hn : mqttMaxMessageSize ≤ n := by
    simpa [EncodesHeader, hq, ht] using h
  simp only [encodeFixedHeader, if_neg hq, if_neg ht, setFlags_setFlags, setSize_of_ge hn,
    Nat.lt_irrefl, if_false, true_and]
  exact flags _

theorem u32_digit (b : UInt8) {j value : Nat} (low : j < 4) (small : value < 128 ^ j) :
    u32 (b.toNat % 128 * 128 ^ j) = b.toNat % 128 * 128 ^ j ∧
      u32 (value + b.toNat % 128 * 128 ^ j) = value + b.toNat % 128 * 128 ^ j ∧
      value + b.toNat % 128 * 128 ^ j < 128 ^ (j + 1) ∧ u32 (128 ^ j * 128) = 128 ^ (j + 1) ∧
      128 ^ (j + 1) < 2 ^ 32 := by
  have weight : 128 ^ j ≤ 128 ^ 3 := Nat.pow_le_pow_right (by decide) (by omega)
  have digit : b.toNat % 128 * 128 ^ j ≤ 127 * 128 ^ j := Nat.mul_le_mul_right _ (by omega)
  have next : 128 ^ (j + 1) = 128 ^ j * 128 := Nat.pow_succ 128 j
  refine ⟨u32_of_lt (by omega), u32_of_lt (by omega), by omega, ?_, by omega⟩
  rw [next]
  exact u32_of_lt (by omega)

theorem getSizeLoop_eq (input : Mem) (j k value : Nat) (total : j + k = 4)
    (small : value < 128 ^ j) (pos : 0 < 128 ^ j) :
    getSizeLoop input (128 ^ j) pos value (1 + j) =
      (Base128.scan input (1 + j) k).map fun r => (value + 128 ^ j * r.1, r.2) := by
  induction k generalizing j value with
  | zero =>
    obtain rfl : j = 4 := by omega
    rw [getSizeLoop]
    simp [Base128.scan]
  | succ k ih =>
    have low : 128 ^ j ≤ 128 ^ 3 := Nat.pow_le_pow_right (by decide) (by omega)
    obtain ⟨product, sum, small', next, -⟩ := u32_digit (input (1 + j)) (by omega : j < 4) small
    rw [getSizeLoop]
    simp only [and_payload, and_continuation]
    rw [dif_neg (by omega), Base128.scan]
    simp only [product, sum]
    by_cases last : (input (1 + j)).toNat < 128
    · rw [if_neg (by omega), if_pos last, Option.map_some, Nat.mod_eq_of_lt last, Nat.mul_comm]
    · have step := ih (j + 1) (value + (input (1 + j)).toNat % 128 * 128 ^ j) (by omega) small'
        (Nat.pos_of_ne_zero (by simp))
      have hb := (input (1 + j)).toNat_lt
      rw [if_pos (by omega), if_neg last, Option.map_map]
      simp only [next]
      rw [show 1 + j + 1 = 1 + (j + 1) by omega, step]
      congr 1
      funext r
      simp only [Function.comp_apply, Prod.mk.injEq, and_true]
      have split : (input (1 + j)).toNat % 128 = (input (1 + j)).toNat - 128 := by omega
      rw [split, Nat.mul_add, Nat.pow_succ, Nat.mul_assoc, Nat.mul_comm _ (128 ^ j), Nat.add_assoc]

theorem getSize_eq (input : Mem) :
    getSize input = match Base128.scan input 1 4 with
      | none => (none, 0)
      | some (value, next) => (some next, value) := by
  have loop := getSizeLoop_eq input 0 4 0 rfl (by decide) (by decide)
  simp only [Nat.pow_zero, Nat.add_zero, Nat.zero_add, Nat.one_mul] at loop
  rw [getSize, loop]
  cases h : Base128.scan input 1 4 with
  | none => rfl
  | some r =>
    have := Base128.scan_lt h
    have fits : ¬ mqttMaxMessageSize < r.1 := by
      simp only [mqttMaxMessageSize]
      omega
    simp [fits]

theorem getSize_none {input : Mem} (h : Base128.scan input 1 4 = none) : getSize input = (none, 0) := by
  rw [getSize_eq, h]

theorem decodeFixedHeader_none {input : Mem} (h : Base128.scan input 1 4 = none) :
    (decodeFixedHeader input).next = none := by
  simp only [decodeFixedHeader, getSize_eq, h]
  rw [if_neg nofun]

theorem decodeFixedHeader_unread {input : Mem} (h : Base128.scan input 1 4 = none) :
    (decodeFixedHeader input).messageType = .invalidcmd := by
  simp only [decodeFixedHeader, getSize_eq, h]
  rw [if_neg nofun]

theorem decodeFixedHeader_valid {input : Mem} {n next : Nat}
    (h : Base128.scan input 1 4 = some (n, next))
    (valid : (FlagsAndType.ofByte (input 0)).qos ≠ .qosInvalid)
    (known : (FlagsAndType.ofByte (input 0)).messageType ≠ .maxcmd) :
    decodeFixedHeader input =
      { next := some next,
        dup := (FlagsAndType.ofByte (input 0)).dup, qos := (FlagsAndType.ofByte (input 0)).qos,
        retain := (FlagsAndType.ofByte (input 0)).retain,
        messageType := (FlagsAndType.ofByte (input 0)).messageType, messageSize := n } := by
  simp only [decodeFixedHeader, getSize_eq, h]
  rw [if_pos ⟨nofun, valid, known⟩]

theorem decodeFixedHeader_invalid {input : Mem}
    (h : (FlagsAndType.ofByte (input 0)).qos = .qosInvalid ∨
      (FlagsAndType.ofByte (input 0)).messageType = .maxcmd) :
    (decodeFixedHeader input).messageType = .invalidcmd := by
  simp only [decodeFixedHeader]
  rw [if_neg]
  rintro ⟨-, valid, known⟩
  exact h.elim valid known

theorem getSize_of_spells {input : Mem} {dup retain : Bool} {qos : MQTTQoSLevel}
    {messageType : MQTTMessageType} {n : Nat}
    (h : Spells input 0 (fixedHeaderBytes dup qos retain messageType n)) (fits : n < 268435456) :
    getSize input = (some (fixedHeaderBytes dup qos retain messageType n).length, n) := by
  obtain ⟨_, length⟩ := (spells_cons _ _ _ _).mp h
  rw [getSize_eq, Base128.scan_of_spells length (length_digits_le_four fits),
    length_fixedHeaderBytes, Nat.add_comm]

theorem decodeFixedHeader_of_spells {input : Mem} {dup retain : Bool} {qos : MQTTQoSLevel}
    {messageType : MQTTMessageType} {n : Nat}
    (h : Spells input 0 (fixedHeaderBytes dup qos retain messageType n))
    (valid : qos ≠ .qosInvalid) (known : messageType ≠ .maxcmd) (fits : n < 268435456) :
    decodeFixedHeader input =
      { next := some (fixedHeaderBytes dup qos retain messageType n).length,
        dup, qos, retain, messageType, messageSize := n } := by
  obtain ⟨first, length⟩ := (spells_cons _ _ _ _).mp h
  have scanned := Base128.scan_of_spells length (length_digits_le_four fits)
  have flags : FlagsAndType.ofByte (input 0) = ⟨retain, dup, qos, messageType⟩ := by
    rw [first, FlagsAndType.ofByte_toByte]
  rw [decodeFixedHeader_valid scanned (by rwa [flags]) (by rwa [flags]), flags,
    length_fixedHeaderBytes, Nat.add_comm]

end RojalMQTT
