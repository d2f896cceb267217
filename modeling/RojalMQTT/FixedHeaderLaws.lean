import RojalMQTT.FixedHeader

/-! The fixed header both ways: what is encoded is decoded, and the other way round. -/

namespace RojalMQTT

open Library

theorem FlagsAndType.toByte_ofByte (b : UInt8) : (ofByte b).toByte = b := by
  have byte : ∀ k : Fin 256, (ofByte (UInt8.ofNat k)).toByte = UInt8.ofNat k := by decide +kernel
  simpa using byte ⟨b.toNat, b.toNat_lt⟩

section Encoder

variable {dup retain : Bool} {qos : MQTTQoSLevel} {messageType : MQTTMessageType} {n : Nat}

theorem length_fixedHeaderBytes_bounds (fits : n < 268435456) :
    2 ≤ (fixedHeaderBytes dup qos retain messageType n).length ∧
      (fixedHeaderBytes dup qos retain messageType n).length ≤ 5 := by
  have low := Base128.length_digits_pos n
  have high := length_digits_le_four fits
  rw [length_fixedHeaderBytes]
  omega

theorem decodeFixedHeader_encodeFixedHeader (output : Buffer UInt8) (dup retain : Bool)
    (valid : qos ≠ .qosInvalid) (known : messageType ≠ .maxcmd) (fits : n ≤ 268435455) :
    ∃ h output', encodeFixedHeader output dup qos retain messageType n = (h, output') ∧
      2 ≤ h ∧ h ≤ 5 ∧ ∀ input, Spells input 0 (output'.read 0 h) →
        decodeFixedHeader input =
          { next := some h, dup, qos, retain, messageType, messageSize := n } := by
  have max : mqttMaxMessageSize = 2147483647 := rfl
  have encodes : EncodesHeader qos messageType n := ⟨valid, known, by omega⟩
  obtain ⟨low, high⟩ := @length_fixedHeaderBytes_bounds dup retain qos messageType n (by omega)
  refine ⟨_, _, encodeFixedHeader_of_encodes encodes, low, high, fun input spells => ?_⟩
  rw [Buffer.read_eq_of_spells (output.spells_copy 0 _)] at spells
  exact decodeFixedHeader_of_spells spells valid known (by omega)

end Encoder

section Decoder

variable {input : Mem} {next : Nat}

theorem scan_of_next (h : (decodeFixedHeader input).next = some next) :
    ∃ n, Base128.scan input 1 4 = some (n, next) := by
  cases scanned : Base128.scan input 1 4 with
  | none =>
    rw [decodeFixedHeader_none scanned] at h
    cases h
  | some r =>
    refine ⟨r.1, ?_⟩
    simp only [decodeFixedHeader, getSize_eq, scanned] at h
    split at h <;> exact congrArg some (Prod.ext rfl (Option.some.inj h))

theorem encodeFixedHeader_decodeFixedHeader (output : Buffer UInt8)
    (h : (decodeFixedHeader input).next = some next)
    (valid : (FlagsAndType.ofByte (input 0)).qos ≠ .qosInvalid)
    (known : (FlagsAndType.ofByte (input 0)).messageType ≠ .maxcmd)
    (shortest : Base128.Shortest input 1 4) :
    ∃ output', encodeFixedHeader output (decodeFixedHeader input).dup (decodeFixedHeader input).qos
        (decodeFixedHeader input).retain (decodeFixedHeader input).messageType
        (decodeFixedHeader input).messageSize = (next, output') ∧
      output'.read 0 next = slice input 0 next := by
  obtain ⟨n, scanned⟩ := scan_of_next h
  obtain ⟨size, digits⟩ := shortest.spells scanned
  have limit := Base128.scan_lt scanned
  have max : mqttMaxMessageSize = 2147483647 := rfl
  have encodes : EncodesHeader (FlagsAndType.ofByte (input 0)).qos
      (FlagsAndType.ofByte (input 0)).messageType n := ⟨valid, known, by omega⟩
  have length : (fixedHeaderBytes (FlagsAndType.ofByte (input 0)).dup
      (FlagsAndType.ofByte (input 0)).qos (FlagsAndType.ofByte (input 0)).retain
      (FlagsAndType.ofByte (input 0)).messageType n).length = next := by
    rw [length_fixedHeaderBytes]
    omega
  have spells : Spells input 0 (fixedHeaderBytes (FlagsAndType.ofByte (input 0)).dup
      (FlagsAndType.ofByte (input 0)).qos (FlagsAndType.ofByte (input 0)).retain
      (FlagsAndType.ofByte (input 0)).messageType n) :=
    ⟨(FlagsAndType.toByte_ofByte (input 0)).symm, digits⟩
  rw [decodeFixedHeader_valid scanned valid known]
  simp only [encodeFixedHeader_of_encodes encodes, length]
  refine ⟨_, rfl, ?_⟩
  rw [← length, Buffer.read_eq_of_spells (output.spells_copy 0 _), spells.slice_eq]

end Decoder

theorem fixedHeader_roundTrip (output : Buffer UInt8) :
    (∀ (dup retain : Bool) (qos : MQTTQoSLevel) (messageType : MQTTMessageType) (n : Nat),
      qos ≠ .qosInvalid → messageType ≠ .maxcmd → n ≤ 268435455 →
        ∃ h output', encodeFixedHeader output dup qos retain messageType n = (h, output') ∧
          2 ≤ h ∧ h ≤ 5 ∧ ∀ input, Spells input 0 (output'.read 0 h) →
            decodeFixedHeader input =
              { next := some h, dup, qos, retain, messageType, messageSize := n }) ∧
    ∀ (input : Mem) (next : Nat), (decodeFixedHeader input).next = some next →
      (FlagsAndType.ofByte (input 0)).qos ≠ .qosInvalid →
      (FlagsAndType.ofByte (input 0)).messageType ≠ .maxcmd → Base128.Shortest input 1 4 →
        ∃ output', encodeFixedHeader output (decodeFixedHeader input).dup
            (decodeFixedHeader input).qos (decodeFixedHeader input).retain
            (decodeFixedHeader input).messageType (decodeFixedHeader input).messageSize =
              (next, output') ∧
          output'.read 0 next = slice input 0 next :=
  ⟨fun dup retain _ _ _ => decodeFixedHeader_encodeFixedHeader output dup retain,
    fun _ _ => encodeFixedHeader_decodeFixedHeader output⟩

theorem fixedHeader_roundTrip_sample :
    (∃ h output', encodeFixedHeader (.fresh fun _ => 0) true .qos1 false .publish 321 = (h, output') ∧
      2 ≤ h ∧ h ≤ 5 ∧ ∀ input, Spells input 0 (output'.read 0 h) →
        decodeFixedHeader input = { next := some h, dup := true, qos := .qos1, retain := false,
                                    messageType := .publish, messageSize := 321 }) ∧
    ∃ output', encodeFixedHeader (.fresh fun _ => 0)
        (decodeFixedHeader (ofList [0x3A, 0xC1, 2] 0)).dup
        (decodeFixedHeader (ofList [0x3A, 0xC1, 2] 0)).qos
        (decodeFixedHeader (ofList [0x3A, 0xC1, 2] 0)).retain
        (decodeFixedHeader (ofList [0x3A, 0xC1, 2] 0)).messageType
        (decodeFixedHeader (ofList [0x3A, 0xC1, 2] 0)).messageSize = (3, output') ∧
      output'.read 0 3 = slice (ofList [0x3A, 0xC1, 2] 0) 0 3 := by
  have digits : Base128.digits 321 = [0xC1, 2] := by decide +kernel
  have spells : Spells (ofList [0x3A, 0xC1, 2] 0) 1 (Base128.digits 321) := by
    rw [digits]
    exact ⟨rfl, rfl, trivial⟩
  obtain ⟨encoded, decoded⟩ := fixedHeader_roundTrip (.fresh fun _ => 0)
  exact ⟨encoded true false .qos1 .publish 321 (by decide) (by decide) (by decide),
    decoded (ofList [0x3A, 0xC1, 2] 0) 3 (by decide +kernel) (by decide) (by decide)
      (Base128.shortest_of_spells spells (by decide +kernel))⟩

def LengthEnds (input : Mem) : Prop := ∃ j, 1 ≤ j ∧ j ≤ 4 ∧ (input j).toNat < 128

def FlagsValid (f : FlagsAndType) : Prop := f.qos ≠ .qosInvalid ∧ f.messageType ≠ .maxcmd

instance : Decidable (FlagsValid f) := inferInstanceAs (Decidable (_ ∧ _))

structure DecodedByContract (input : Mem) (d : FixedHeader) : Prop where
  null : d.next = none ↔ ¬ (LengthEnds input ∧ FlagsValid (.ofByte (input 0)))
  cleared : ¬ (LengthEnds input ∧ FlagsValid (.ofByte (input 0))) → d.dup = false ∧ d.qos = .qos0 ∧
    d.retain = false ∧ d.messageType = .invalidcmd ∧ d.messageSize = 0
  decoded : LengthEnds input ∧ FlagsValid (.ofByte (input 0)) →
    ⟨d.retain, d.dup, d.qos, d.messageType⟩ = FlagsAndType.ofByte (input 0) ∧
      ∃ next, d.next = some next ∧ Base128.scan input 1 4 = some (d.messageSize, next)

theorem lengthEnds_iff (input : Mem) : LengthEnds input ↔ Base128.scan input 1 4 ≠ none := by
  rw [ne_eq, Base128.scan_eq_none_iff]
  simp only [Classical.not_forall, Nat.not_le]
  constructor
  · rintro ⟨j, low, high, last⟩
    exact ⟨j, low, by omega, last⟩
  · rintro ⟨j, low, high, last⟩
    exact ⟨j, low, by omega, last⟩

theorem decodeFixedHeader_outputs (input : Mem) :
    (LengthEnds input ∧ FlagsValid (.ofByte (input 0)) ∧ ∃ n next,
        Base128.scan input 1 4 = some (n, next) ∧ decodeFixedHeader input =
          { next := some next, dup := (FlagsAndType.ofByte (input 0)).dup,
            qos := (FlagsAndType.ofByte (input 0)).qos,
            retain := (FlagsAndType.ofByte (input 0)).retain,
            messageType := (FlagsAndType.ofByte (input 0)).messageType, messageSize := n }) ∨
      (¬ (LengthEnds input ∧ FlagsValid (.ofByte (input 0))) ∧ ∃ next,
        (next = none ↔ ¬ LengthEnds input) ∧ decodeFixedHeader input =
          { next, dup := false, qos := .qos0, retain := false, messageType := .invalidcmd,
            messageSize := 0 }) := by
  rw [lengthEnds_iff]
  cases scanned : Base128.scan input 1 4 with
  | none =>
    refine .inr ⟨fun both => both.1 rfl, none, by simp, ?_⟩
    simp only [decodeFixedHeader, getSize_none scanned]
    rw [if_neg fun pass => pass.1 rfl]
  | some r =>
    obtain ⟨n, next⟩ := r
    by_cases valid : FlagsValid (.ofByte (input 0))
    · exact .inl ⟨Option.some_ne_none _, valid, n, next, rfl,
        decodeFixedHeader_valid scanned valid.1 valid.2⟩
    · refine .inr ⟨fun both => valid both.2, some next, by simp, ?_⟩
      simp only [decodeFixedHeader, getSize_eq, scanned]
      rw [if_neg fun pass => valid pass.2]

/-- The decoder meets its contract unless the length is fine and the flags are not:
then it clears the outputs, and returns the pointer all the same. -/
theorem decodedByContract_iff (input : Mem) :
    DecodedByContract input (decodeFixedHeader input) ↔
      (LengthEnds input → FlagsValid (.ofByte (input 0))) := by
  rcases decodeFixedHeader_outputs input with
    ⟨ends, valid, n, next, scanned, outputs⟩ | ⟨invalid, next, null, outputs⟩
  · refine iff_of_true ?_ fun _ => valid
    rw [outputs]
    exact ⟨by simp [ends, valid], fun invalid => absurd ⟨ends, valid⟩ invalid,
      fun _ => ⟨rfl, next, rfl, scanned⟩⟩
  · rw [outputs]
    constructor
    · intro contract ends
      exact absurd ends (null.mp (contract.null.mpr invalid))
    · intro valid
      have endless : ¬ LengthEnds input := fun ends => invalid ⟨ends, valid ends⟩
      exact ⟨iff_of_true (null.mpr endless) invalid, fun _ => ⟨rfl, rfl, rfl, rfl, rfl⟩,
        fun both => absurd both invalid⟩

theorem decode_returns_invalid :
    ¬ DecodedByContract (ofList [0xF0, 0] 0) (decodeFixedHeader (ofList [0xF0, 0] 0)) := by
  intro contract
  have null := contract.null.mpr fun both => absurd both.2 (by decide)
  exact absurd null (by decide +kernel)

structure SizeEncoded (output : Buffer UInt8) (n : Nat) : Prop where
  written : ∃ l, setSize output n = (l.length, output.copy 1 l) ∧ l.length ≤ 4
  refused : (setSize output n).1 = 0 ↔ 268435455 < n
  decoded : 0 < (setSize output n).1 → ∀ input,
    Spells input 1 ((setSize output n).2.read 1 (setSize output n).1) →
      getSize input = (some (1 + (setSize output n).1), n)
  header : ∀ dup qos retain messageType h output',
    encodeFixedHeader output dup qos retain messageType n = (h, output') → 0 < h →
      ∀ input, Spells input 0 (output'.read 0 h) → getSize input = (some h, n)

theorem encodes_of_pos {output output' : Buffer UInt8} {dup retain : Bool} {qos : MQTTQoSLevel}
    {messageType : MQTTMessageType} {n h : Nat}
    (encoded : encodeFixedHeader output dup qos retain messageType n = (h, output')) (pos : 0 < h) :
    EncodesHeader qos messageType n := by
  by_contra refused
  have none := (encodeFixedHeader_of_not_encodes output dup retain refused).1
  rw [encoded] at none
  exact Nat.ne_of_gt pos none

theorem sizeEncoded_of_fits (output : Buffer UInt8) {n : Nat} (fits : n ≤ 268435455) :
    SizeEncoded output n := by
  have max : mqttMaxMessageSize = 2147483647 := rfl
  have four := length_digits_le_four (n := n) (by omega)
  have some := Base128.length_digits_pos n
  have size : setSize output n = ((Base128.digits n).length, output.copy 1 (Base128.digits n)) :=
    setSize_of_lt (by omega)
  constructor
  case written => exact ⟨_, size, four⟩
  case refused =>
    rw [size]
    omega
  case decoded =>
    intro _ input spells
    rw [size] at spells ⊢
    rw [Buffer.read_eq_of_spells (output.spells_copy 1 _)] at spells
    rw [getSize_eq, Base128.scan_of_spells spells four]
  case header =>
    intro dup qos retain messageType h output' encoded pos input spells
    rw [encodeFixedHeader_of_encodes (encodes_of_pos encoded pos)] at encoded
    cases encoded
    rw [Buffer.read_eq_of_spells (output.spells_copy 0 _)] at spells
    exact getSize_of_spells spells (by omega)

theorem sizeEncoded_of_refused (output : Buffer UInt8) {n : Nat} (large : mqttMaxMessageSize ≤ n) :
    SizeEncoded output n := by
  have size : setSize output n = (0, output) := setSize_of_ge large
  constructor
  case written =>
    refine ⟨[], ?_, by decide⟩
    rw [size, Buffer.copy_nil]
    rfl
  case refused =>
    rw [size]
    simp only [mqttMaxMessageSize] at large
    exact iff_of_true rfl (by omega)
  case decoded =>
    intro pos
    rw [size] at pos
    exact absurd pos (Nat.lt_irrefl 0)
  case header =>
    intro dup qos retain messageType h output' encoded pos
    exact absurd (encodes_of_pos encoded pos).2.2 (Nat.not_lt.mpr large)

/-- The sizes between the largest of four digits and the bound of the admission test
are written all the same, with a fifth digit. -/
theorem sizeEncoded_iff (output : Buffer UInt8) (n : Nat) :
    SizeEncoded output n ↔ n ≤ 268435455 ∨ mqttMaxMessageSize ≤ n := by
  constructor
  · intro encoded
    by_contra between
    have admitted : n < mqttMaxMessageSize := by omega
    have none := encoded.refused.mpr (by omega)
    rw [setSize_of_lt admitted] at none
    exact Nat.ne_of_gt (Base128.length_digits_pos n) none
  · rintro (fits | large)
    · exact sizeEncoded_of_fits output fits
    · exact sizeEncoded_of_refused output large

theorem setSize_overruns : ¬ SizeEncoded (.fresh fun _ => 0) 268435456 := by
  intro encoded
  have refused : (setSize (.fresh fun _ => 0) 268435456).1 = 0 := encoded.refused.mpr (by decide)
  exact absurd refused (by decide +kernel)

section Size

structure SizeTurn where
  cnt : Nat
  aByte : UInt8
  multiplier : Nat
  value : Nat

namespace SizeTurn

def product (t : SizeTurn) : Nat := (t.aByte &&& 127).toNat * t.multiplier

def sum (t : SizeTurn) : Nat := t.value + u32 t.product

def Exact (t : SizeTurn) : Prop :=
  t.product < 2 ^ 32 ∧ t.sum < 2 ^ 32 ∧ t.multiplier * 128 < 2 ^ 32

def result (t : SizeTurn) : Ptr (Nat × Nat) :=
  if 128 * 128 * 128 < t.multiplier then none else some (u32 t.sum, t.cnt + 1)

end SizeTurn

def getSizeTurns (input : Mem) (multiplier : Nat) (pos : 0 < multiplier) (value cnt : Nat) :
    List SizeTurn :=
  let turn : SizeTurn := { cnt, aByte := input cnt, multiplier, value }
  if high : 128 * 128 * 128 < multiplier then [turn]
  else if turn.aByte &&& 128 ≠ 0 then
    turn :: getSizeTurns input (u32 (multiplier * 128)) (u32_mul_128_pos pos high) (u32 turn.sum)
      (cnt + 1)
  else [turn]
termination_by 2 ^ 32 - multiplier
decreasing_by
  rw [u32_of_lt (by omega)]
  omega

variable {input : Mem}

theorem getSizeLoop_eq_last (input : Mem) (multiplier : Nat) (pos : 0 < multiplier)
    (value cnt : Nat) :
    getSizeLoop input multiplier pos value cnt =
      (getSizeTurns input multiplier pos value cnt).getLast?.bind SizeTurn.result := by
  fun_induction getSizeTurns input multiplier pos value cnt with
  | case1 multiplier pos value cnt turn high =>
    rw [getSizeLoop, dif_pos high, List.getLast?_singleton, Option.bind_some, SizeTurn.result,
      if_pos high]
  | case2 multiplier pos value cnt turn high more ih =>
    have goes : getSizeTurns input (u32 (multiplier * 128)) (u32_mul_128_pos pos high)
        (u32 turn.sum) (cnt + 1) ≠ [] := by
      rw [getSizeTurns]
      split
      · simp
      · split <;> simp
    rw [getSizeLoop, dif_neg high, if_pos more, List.getLast?_cons_of_ne_nil goes]
    exact ih
  | case3 multiplier pos value cnt turn high last =>
    rw [getSizeLoop, dif_neg high, if_neg last, List.getLast?_singleton, Option.bind_some,
      SizeTurn.result, if_neg high]
    rfl

theorem getSizeTurns_congr (input input' : Mem) (multiplier : Nat) (pos : 0 < multiplier)
    (value cnt : Nat)
    (same : ∀ t ∈ getSizeTurns input multiplier pos value cnt, input' t.cnt = input t.cnt) :
    getSizeTurns input' multiplier pos value cnt = getSizeTurns input multiplier pos value cnt := by
  fun_induction getSizeTurns input multiplier pos value cnt with
  | case1 multiplier pos value cnt turn high =>
    rw [getSizeTurns, dif_pos high, same turn (List.mem_singleton.mpr rfl)]
  | case2 multiplier pos value cnt turn high more ih =>
    have first : input' cnt = input cnt := same turn List.mem_cons_self
    have rest := ih fun t mem => same t (List.mem_cons_of_mem turn mem)
    rw [getSizeTurns]
    simp only [first]
    rw [dif_neg high, if_pos more]
    exact congrArg (turn :: ·) rest
  | case3 multiplier pos value cnt turn high last =>
    have first : input' cnt = input cnt := same turn (List.mem_singleton.mpr rfl)
    rw [getSizeTurns]
    simp only [first]
    rw [dif_neg high, if_neg last]

theorem getSizeTurns_spec (input : Mem) (j k value : Nat) (total : j + k = 4)
    (small : value < 128 ^ j) (pos : 0 < 128 ^ j) :
    (getSizeTurns input (128 ^ j) pos value (1 + j)).map SizeTurn.cnt =
        List.range' (1 + j) ((Base128.scan input (1 + j) k).elim (k + 1) fun r => r.2 - (1 + j)) ∧
      ∀ t ∈ getSizeTurns input (128 ^ j) pos value (1 + j), t.cnt ≤ 4 → t.Exact := by
  induction k generalizing j value with
  | zero =>
    obtain rfl : j = 4 := by omega
    rw [getSizeTurns, dif_pos (by decide)]
    refine ⟨rfl, fun t mem early => ?_⟩
    rw [List.mem_singleton.mp mem] at early
    exact absurd (show 5 ≤ 4 from early) (by decide)
  | succ k ih =>
    have low : 128 ^ j ≤ 128 ^ 3 := Nat.pow_le_pow_right (by decide) (by omega)
    obtain ⟨product, sum, small', next, bound⟩ :=
      u32_digit (input (1 + j)) (by omega : j < 4) small
    have exact : SizeTurn.Exact ⟨1 + j, input (1 + j), 128 ^ j, value⟩ := by
      simp only [SizeTurn.Exact, SizeTurn.sum, SizeTurn.product, and_payload, product]
      omega
    rw [getSizeTurns, Base128.scan]
    simp only [and_continuation]
    rw [dif_neg (by omega)]
    by_cases last : (input (1 + j)).toNat < 128
    · rw [if_neg (by omega), if_pos last, Option.elim_some, Nat.add_sub_cancel_left]
      refine ⟨rfl, fun t mem _ => ?_⟩
      rw [List.mem_singleton.mp mem]
      exact exact
    · have value' : u32 (SizeTurn.sum ⟨1 + j, input (1 + j), 128 ^ j, value⟩) =
          value + (input (1 + j)).toNat % 128 * 128 ^ j := by
        simp only [SizeTurn.sum, SizeTurn.product, and_payload, product, sum]
      obtain ⟨reads, rest⟩ := ih (j + 1) (value + (input (1 + j)).toNat % 128 * 128 ^ j) (by omega)
        small' (Nat.pos_of_ne_zero (by simp))
      rw [if_pos (by omega), if_neg last]
      simp only [next, value', List.map_cons, Nat.add_assoc 1 j 1, reads]
      constructor
      · cases scanned : Base128.scan input (1 + (j + 1)) k with
        | none => rfl
        | some r =>
          have after := (Base128.scan_end scanned).1
          simp only [Option.map_some, Option.elim_some]
          rw [show r.2 - (1 + j) = r.2 - (1 + (j + 1)) + 1 by omega, List.range'_succ]
          rfl
      · intro t mem early
        rcases List.mem_cons.mp mem with rfl | mem
        · exact exact
        · exact rest t mem early

def LengthEndsAt (input : Mem) (j : Nat) : Prop :=
  1 ≤ j ∧ j ≤ 4 ∧ (input j).toNat < 128 ∧ ∀ i, 1 ≤ i → i < j → 128 ≤ (input i).toNat

structure SizeDecoded (input : Mem) (turns : List SizeTurn) : Prop where
  reads : ∃ n ≤ 5, turns.map SizeTurn.cnt = List.range' 1 n
  enough : ∀ input', (∀ t ∈ turns, input' t.cnt = input t.cnt) → getSize input' = getSize input
  accepts : (getSize input).1 ≠ none ↔ LengthEnds input
  exact : ∀ j, LengthEndsAt input j → turns.length = j ∧ ∀ t ∈ turns, t.Exact
  size : ∀ j, LengthEndsAt input j →
    getSize input = (some (j + 1), ∑ i ∈ Finset.range j, (input (1 + i)).toNat % 128 * 128 ^ i)
  bounded : (getSize input).2 ≤ 268435455
  refused : ¬ LengthEnds input → getSize input = (none, 0)

theorem sizeDecoded (input : Mem) :
    SizeDecoded input (getSizeTurns input 1 Nat.one_pos 0 1) := by
  obtain ⟨reads, exact⟩ := getSizeTurns_spec input 0 4 0 rfl (by decide) (by decide)
  simp only [Nat.pow_zero, Nat.add_zero] at reads exact
  have ended (j : Nat) (ends : LengthEndsAt input j) :
      ∃ v, Base128.scan input 1 4 = some (v, j + 1) := by
    obtain ⟨start, inside, last, more⟩ := ends
    obtain ⟨v, scanned, -⟩ := Base128.scan_of_last (k := 4) more last start (by omega)
    exact ⟨v, scanned⟩
  constructor
  case reads =>
    refine ⟨_, ?_, reads⟩
    cases scanned : Base128.scan input 1 4 with
    | none => exact Nat.le_refl 5
    | some r =>
      have := (Base128.scan_end scanned).2
      simp only [Option.elim_some]
      omega
  case enough =>
    intro input' same
    have turns := getSizeTurns_congr input input' 1 Nat.one_pos 0 1 same
    simp only [getSize, getSizeLoop_eq_last, turns]
  case accepts =>
    rw [lengthEnds_iff, getSize_eq]
    cases Base128.scan input 1 4 <;> simp
  case exact =>
    intro j ends
    obtain ⟨v, scanned⟩ := ended j ends
    rw [scanned, Option.elim_some, Nat.add_sub_cancel] at reads
    have length := congrArg List.length reads
    rw [List.length_map, List.length_range'] at length
    refine ⟨length, fun t mem => exact t mem ?_⟩
    have read := List.mem_map_of_mem (f := SizeTurn.cnt) mem
    rw [reads, List.mem_range'_1] at read
    have inside := ends.2.1
    omega
  case size =>
    intro j ends
    obtain ⟨v, scanned⟩ := ended j ends
    rw [getSize_eq, scanned, Base128.scan_eq_sum scanned, Nat.add_sub_cancel]
  case bounded =>
    rw [getSize_eq]
    cases scanned : Base128.scan input 1 4 with
    | none => exact Nat.zero_le _
    | some r =>
      have := Base128.scan_lt scanned
      simp only
      omega
  case refused =>
    intro endless
    rw [lengthEnds_iff, not_not] at endless
    rw [getSize_eq, endless]

end Size

end RojalMQTT
