import RojalMQTT.Api
import RojalMQTT.ActionsLaws
import RojalMQTT.PublishLaws

/-! How much of its input `mqtt_receive` uses. -/

namespace RojalMQTT

open Library

@[ext] structure Reaction where
  ret : Bool
  callbacks : List Event
  state : MQTTState

def Reaction.none (s : MQTTSharedData) : Reaction where
  ret := false
  callbacks := []
  state := s.state

def reactionTo (s : MQTTSharedData) (input : Mem) (messageSize next : Nat) : Reaction :=
  match (FlagsAndType.ofByte (input 0)).messageType with
  | .connack =>
    { ret := true
      callbacks := callback s.connectedCbFptr (.connectedCb (input (next + 1)).toNat)
      state := if input (next + 1) = 0 then .connected else .disconnected }
  | .publish =>
    match decodePublish input next messageSize (FlagsAndType.ofByte (input 0)).qos with
    | some p =>
      { ret := true
        callbacks := callback s.subscribeCbFptr (.subscribeCb .successfull (some p.outMessage)
          p.outMessageSize (some p.topicOut) p.topicLengthOut)
        state := s.state }
    | none =>
      { ret := false
        callbacks := callback s.subscribeCbFptr (.subscribeCb .invalidArgument none 0 none 0)
        state := s.state }
  | .suback =>
    { ret := s.subscribeCbFptr ≠ none ∨ input 4 ≠ 0x80
      callbacks := callback s.subscribeCbFptr (.subscribeCb
        (if input 4 = 0x80 then .successfull else .publishDecodeError) none 0 none 0)
      state := s.state }
  | .pingresp => { ret := true, callbacks := [], state := s.state }
  | _ => .none s

def Parses (f : FlagsAndType) : Prop :=
  f.qos ≠ .qosInvalid ∧ f.messageType ∈ [.connack, .publish, .suback, .pingresp]

instance : Decidable (Parses f) := inferInstanceAs (Decidable (_ ∧ _))

def reaction (s : MQTTSharedData) (input : Mem) : Reaction :=
  match Base128.scan input 1 4 with
  | none => .none s
  | some (messageSize, next) =>
    if Parses (.ofByte (input 0)) then reactionTo s input messageSize next else .none s

theorem reaction_of_ignored {s : MQTTSharedData} {input : Mem}
    (h : ¬ Parses (.ofByte (input 0))) : reaction s input = .none s := by
  rw [reaction]
  split
  · rfl
  · rw [if_neg h]

theorem reaction_of_none {s : MQTTSharedData} {input : Mem} (h : Base128.scan input 1 4 = none) :
    reaction s input = .none s := by
  rw [reaction, h]

theorem reaction_of_parses {s : MQTTSharedData} {input : Mem} {n next : Nat}
    (h : Base128.scan input 1 4 = some (n, next)) (parses : Parses (.ofByte (input 0))) :
    reaction s input = reactionTo s input n next := by
  simp only [reaction, h, if_pos parses]

theorem reaction_cases (s : MQTTSharedData) (input : Mem) :
    reaction s input = .none s ∨ ∃ n next, Base128.scan input 1 4 = some (n, next) ∧
      Parses (.ofByte (input 0)) ∧ reaction s input = reactionTo s input n next := by
  by_cases parses : Parses (.ofByte (input 0))
  · cases scanned : Base128.scan input 1 4 with
    | none => exact .inl (reaction_of_none scanned)
    | some r => exact .inr ⟨r.1, r.2, rfl, parses, reaction_of_parses scanned parses⟩
  · exact .inl (reaction_of_ignored parses)

def Shows (s : MQTTSharedData) (input : Mem) (n : Nat) (reaction : Reaction) : Prop :=
  ∃ r, mqttParseInputStream (some input) n (some s) = .ok r ∧
    (r.status = .successfull ↔ reaction.ret = true) ∧ r.events = reaction.callbacks ∧
    r.shared = some { s with state := reaction.state }

theorem shows_none {s : MQTTSharedData} {input : Mem} (n : Nat)
    (h : (decodeFixedHeader input).next = none ∨ (decodeFixedHeader input).messageType ∉
      [.connack, .publish, .suback, .pingresp]) : Shows s input n (.none s) := by
  simp only [Shows, mqttParseInputStream]
  cases next : (decodeFixedHeader input).next with
  | none => exact ⟨_, rfl, by simp [Reaction.none], rfl, rfl⟩
  | some _ =>
    rw [next] at h
    cases messageType : (decodeFixedHeader input).messageType
    case connack | publish | suback | pingresp => simp [messageType] at h
    all_goals exact ⟨_, rfl, by simp [Reaction.none], rfl, rfl⟩

theorem shows_reactionTo {s : MQTTSharedData} {input : Mem} {messageSize next : Nat} (n : Nat)
    (scanned : Base128.scan input 1 4 = some (messageSize, next))
    (parses : Parses (.ofByte (input 0))) : Shows s input n (reactionTo s input messageSize next) := by
  have known : (FlagsAndType.ofByte (input 0)).messageType ≠ .maxcmd := by
    intro max
    have answered := parses.2
    simp [max] at answered
  simp only [Shows, mqttParseInputStream, decodeFixedHeader_valid scanned parses.1 known, reactionTo]
  cases messageType : (FlagsAndType.ofByte (input 0)).messageType with
  | connack => exact ⟨_, rfl, by simp, rfl, rfl⟩
  | publish =>
    simp only [parsePublish]
    cases decodePublish input next messageSize (FlagsAndType.ofByte (input 0)).qos with
    | none => exact ⟨_, rfl, by simp, rfl, rfl⟩
    | some p => exact ⟨_, rfl, by simp, rfl, rfl⟩
  | suback =>
    refine ⟨_, rfl, ?_, ?_, (parseSuback_frame input messageSize (some s)).1⟩
    all_goals
      simp only [parseSuback, decodeVariableHeaderSuback, callback, Option.bind_some]
      cases s.subscribeCbFptr <;> by_cases refuses : input 4 = 0x80 <;>
        simp [refuses, MQTTErrorCodes.successfull]
  | pingresp => exact ⟨_, rfl, by simp, rfl, rfl⟩
  | _ => exact absurd parses.2 (by simp [messageType])

theorem shows_reaction (s : MQTTSharedData) (input : Mem) (n : Nat) :
    Shows s input n (reaction s input) := by
  by_cases parses : Parses (.ofByte (input 0))
  · cases scanned : Base128.scan input 1 4 with
    | none =>
      rw [reaction_of_none scanned]
      exact shows_none n (.inl (decodeFixedHeader_none scanned))
    | some r =>
      rw [reaction_of_parses scanned parses]
      exact shows_reactionTo n scanned parses
  · rw [reaction_of_ignored parses]
    apply shows_none n
    by_cases invalid : (FlagsAndType.ofByte (input 0)).qos = .qosInvalid ∨
        (FlagsAndType.ofByte (input 0)).messageType = .maxcmd
    · exact .inr (by simp [decodeFixedHeader_invalid invalid])
    · rw [not_or] at invalid
      cases scanned : Base128.scan input 1 4 with
      | none => exact .inl (decodeFixedHeader_none scanned)
      | some r =>
        rw [decodeFixedHeader_valid scanned invalid.1 invalid.2]
        exact .inr fun answered => parses ⟨invalid.1, answered⟩

theorem mqttReceive_eq (env : Env) (input : Mem) (amount : Nat) (s : MQTTSharedData) :
    mqttReceive env (some input) amount (some s) =
      .ok (⟨(reaction s input).ret, .parsed input :: (reaction s input).callbacks⟩,
        some { s with
          state := (reaction s input).state
          timeToNextPingInMs := s.keepaliveInMs }) := by
  obtain ⟨r, run, ret, events, shared⟩ := shows_reaction s input (UInt32.ofNat amount).toNat
  have answer : decide (r.status = .successfull) = (reaction s input).ret := by
    rw [Bool.eq_iff_iff, decide_eq_true_iff, ret]
  have status : mqttReceive env (some input) amount (some s) =
      .ok (⟨decide (r.status = .successfull), .parsed input :: r.events⟩,
        r.shared.map fun s => { s with timeToNextPingInMs := s.keepaliveInMs }) := by
    simp only [mqttReceive, mqtt, actionParseInputStream, Ptr.deref_some, ok_bind, run]
    rfl
  rw [status, answer, events, shared]
  rfl

theorem callbacks_reaction (s : MQTTSharedData) (input : Mem) :
    ∀ e ∈ (reaction s input).callbacks, e.IsCallback := by
  obtain ⟨r, run, _, events, _⟩ := shows_reaction s input 0
  obtain ⟨r', run', _, silent⟩ := mqttParseInputStream_some input 0 s
  obtain rfl := Except.ok.inj (run.symm.trans run')
  rwa [← events]

def Answer.callbacks (a : Answer) : List Event := a.events.filter fun e => e.IsCallback

def SlicesInside (amount : Nat) (events : List Event) : Prop :=
  ∀ message messageSize topic topicSize,
    .subscribeCb .successfull (some message) messageSize (some topic) topicSize ∈ events →
      message + messageSize ≤ amount ∧ topic + topicSize ≤ amount

def UsesOnly (env : Env) (s : MQTTSharedData) (amount : Nat) (input : Mem) : Prop :=
  ∃ a g, mqttReceive env (some input) amount (some s) = .ok (a, g) ∧ SlicesInside amount a.events ∧
    ∀ input', AgreeBelow amount input input' →
      ∃ a', mqttReceive env (some input') amount (some s) = .ok (a', g) ∧ a'.ret = a.ret ∧
        a'.callbacks = a.callbacks

theorem usesOnly_iff_reaction {env : Env} {s : MQTTSharedData} {amount : Nat} {input : Mem} :
    UsesOnly env s amount input ↔ SlicesInside amount (reaction s input).callbacks ∧
      ∀ input', AgreeBelow amount input input' → reaction s input' = reaction s input := by
  have filtered (input' : Mem) (ret : Bool) :
      (Answer.mk ret (.parsed input' :: (reaction s input').callbacks)).callbacks =
        (reaction s input').callbacks := by
    have parsed : ¬ (decide (Event.parsed input').IsCallback = true) := fun h => of_decide_eq_true h
    rw [Answer.callbacks, List.filter_cons, if_neg parsed, List.filter_eq_self]
    exact fun e he => decide_eq_true (callbacks_reaction s input' e he)
  have slices : SlicesInside amount (.parsed input :: (reaction s input).callbacks) ↔
      SlicesInside amount (reaction s input).callbacks := by
    simp [SlicesInside]
  simp only [UsesOnly, mqttReceive_eq, Except.ok.injEq, Prod.mk.injEq]
  constructor
  · rintro ⟨a, g, ⟨rfl, rfl⟩, inside, same⟩
    refine ⟨slices.mp inside, fun input' agree => ?_⟩
    obtain ⟨a', ⟨rfl, shared⟩, ret, callbacks⟩ := same input' agree
    have state := Option.some.inj (congrArg (Option.map MQTTSharedData.state) shared)
    rw [filtered, filtered] at callbacks
    exact Reaction.ext ret callbacks state
  · rintro ⟨inside, same⟩
    refine ⟨_, _, ⟨rfl, rfl⟩, slices.mpr inside, fun input' agree => ?_⟩
    have equal := same input' agree
    refine ⟨_, ⟨rfl, ?_⟩, ?_, ?_⟩
    · rw [equal]
    · exact congrArg Reaction.ret equal
    · rw [filtered, filtered, equal]

/-- The topic lengths that the bytes up to `amount` leave open. -/
def OpenTopicLength (amount : Nat) (input : Mem) (next t : Nat) : Prop :=
  t < 65536 ∧ (next < amount → t / 256 = (input next).toNat) ∧
    (next + 1 < amount → t % 256 = (input (next + 1)).toNat)

def TakesTopic (qos : MQTTQoSLevel) (messageSize t : Nat) : Prop :=
  0 < t ∧ 2 + t + identifierSize qos < messageSize

/-- A PUBLISH is refused or taken whatever its topic length turns out to be; a
callback that is told about it needs all of it. -/
def PublishSettled (s : MQTTSharedData) (amount : Nat) (input : Mem) (messageSize next : Nat)
    (qos : MQTTQoSLevel) : Prop :=
  (∀ t, OpenTopicLength amount input next t → ¬ TakesTopic qos messageSize t) ∨
    ((∀ t, OpenTopicLength amount input next t → TakesTopic qos messageSize t) ∧
      (s.subscribeCbFptr = none ∨ next + messageSize ≤ amount))

def BodySettled (s : MQTTSharedData) (amount : Nat) (input : Mem) (messageSize next : Nat) : Prop :=
  match FlagsAndType.ofByte (input 0) with
  | ⟨_, _, _, .connack⟩ => next + 2 ≤ amount
  | ⟨_, _, qos, .publish⟩ => PublishSettled s amount input messageSize next qos
  | ⟨_, _, _, .suback⟩ => 5 ≤ amount
  | _ => True

/-- The bytes up to `amount` settle what the parser does. -/
def Settled (s : MQTTSharedData) (amount : Nat) (input : Mem) : Prop :=
  0 < amount ∧ (Parses (.ofByte (input 0)) → match Base128.scan input 1 4 with
    | none => 5 ≤ amount
    | some (messageSize, next) => next ≤ amount ∧ BodySettled s amount input messageSize next)

theorem word_div (input : Mem) (p : Nat) : word input p / 256 = (input p).toNat := by
  have := (input (p + 1)).toNat_lt
  rw [word]
  omega

theorem word_mod (input : Mem) (p : Nat) : word input p % 256 = (input (p + 1)).toNat := by
  have := (input (p + 1)).toNat_lt
  rw [word]
  omega

theorem openTopicLength_of_agree {amount : Nat} {input input' : Mem}
    (agree : AgreeBelow amount input input') (next : Nat) :
    OpenTopicLength amount input next (word input' next) := by
  refine ⟨word_lt input' next, fun known => ?_, fun known => ?_⟩
  · rw [word_div, agree next known]
  · rw [word_mod, agree (next + 1) known]

def Reaction.taken (s : MQTTSharedData) (qos : MQTTQoSLevel) (messageSize next t : Nat) :
    Reaction where
  ret := true
  callbacks := callback s.subscribeCbFptr (.subscribeCb .successfull
    (some (next + (2 + t + identifierSize qos))) (messageSize - (2 + t + identifierSize qos))
    (some (next + 2)) t)
  state := s.state

def Reaction.refused (s : MQTTSharedData) : Reaction where
  ret := false
  callbacks := callback s.subscribeCbFptr (.subscribeCb .invalidArgument .none 0 .none 0)
  state := s.state

section Reaction

variable {s : MQTTSharedData} {amount messageSize next : Nat} {input input' : Mem}
  {retain dup : Bool} {qos : MQTTQoSLevel}

theorem reactionTo_of_takes
    (header : FlagsAndType.ofByte (input 0) = ⟨retain, dup, qos, .publish⟩)
    (takes : TakesTopic qos messageSize (word input next)) :
    reactionTo s input messageSize next = .taken s qos messageSize next (word input next) := by
  rw [TakesTopic] at takes
  simp only [reactionTo, header, decodePublish_eq, if_pos takes]
  rfl

theorem reactionTo_of_refuses
    (header : FlagsAndType.ofByte (input 0) = ⟨retain, dup, qos, .publish⟩)
    (refuses : ¬ TakesTopic qos messageSize (word input next)) :
    reactionTo s input messageSize next = .refused s := by
  rw [TakesTopic] at refuses
  simp only [reactionTo, header, decodePublish_eq, if_neg refuses]
  rfl

theorem reactionTo_of_agree (pos : 0 < amount) (settled : BodySettled s amount input messageSize next)
    (agree : AgreeBelow amount input input') :
    reactionTo s input' messageSize next = reactionTo s input messageSize next := by
  have first : input' 0 = input 0 := agree 0 pos
  rw [BodySettled] at settled
  rcases header : FlagsAndType.ofByte (input 0) with ⟨retain, dup, qos, messageType⟩
  have header' : FlagsAndType.ofByte (input' 0) = ⟨retain, dup, qos, messageType⟩ := by
    rw [first, header]
  rw [header] at settled
  cases messageType with
  | publish =>
    have here : OpenTopicLength amount input next (word input next) :=
      openTopicLength_of_agree (fun _ _ => rfl) next
    have there := openTopicLength_of_agree agree next
    rcases settled with refuses | ⟨takes, known⟩
    · rw [reactionTo_of_refuses header' (refuses _ there), reactionTo_of_refuses header (refuses _ here)]
    · rw [reactionTo_of_takes header' (takes _ there), reactionTo_of_takes header (takes _ here)]
      rcases known with silent | inside
      · simp only [Reaction.taken, callback, silent, Option.elim_none]
      · have size := (takes _ here).2
        have same : word input' next = word input next := by
          rw [word, word, agree next (by omega), agree (next + 1) (by omega)]
        rw [same]
  | connack =>
    have code : input' (next + 1) = input (next + 1) := agree (next + 1) (by omega)
    simp only [reactionTo, header, header', code]
  | suback =>
    have status : input' 4 = input 4 := agree 4 (by omega)
    simp only [reactionTo, header, header', status]
  | _ => simp only [reactionTo, header, header']

theorem reaction_of_settled (settled : Settled s amount input) (agree : AgreeBelow amount input input') :
    reaction s input' = reaction s input := by
  obtain ⟨pos, known⟩ := settled
  have first : input' 0 = input 0 := agree 0 pos
  by_cases parses : Parses (.ofByte (input 0))
  · have known := known parses
    cases scanned : Base128.scan input 1 4 with
    | none =>
      simp only [scanned] at known
      have scanned' : Base128.scan input' 1 4 = none := by
        rw [Base128.scan_eq_none_iff] at scanned ⊢
        intro j hj hl
        rw [agree j (by omega)]
        exact scanned j hj hl
      rw [reaction_of_none scanned, reaction_of_none scanned']
    | some r =>
      obtain ⟨messageSize, next⟩ := r
      simp only [scanned] at known
      have scanned' := Base128.scan_congr scanned fun j _ hj => agree j (Nat.lt_of_lt_of_le hj known.1)
      rw [reaction_of_parses scanned parses, reaction_of_parses scanned' (by rwa [first]),
        reactionTo_of_agree pos known.2 agree]
  · rw [reaction_of_ignored parses, reaction_of_ignored (by rwa [first])]

theorem slicesInside_callback {cbFptr : FunPtr} {event : Event}
    (h : ∀ message n topic k, event = .subscribeCb .successfull (some message) n (some topic) k →
      message + n ≤ amount ∧ topic + k ≤ amount) : SlicesInside amount (callback cbFptr event) :=
  fun message n topic k mem => h message n topic k (eq_of_mem_callback mem).symm

theorem slicesInside_none : SlicesInside amount (Reaction.none s).callbacks := nofun

theorem slicesInside_taken {t : Nat} (takes : TakesTopic qos messageSize t)
    (known : s.subscribeCbFptr = none ∨ next + messageSize ≤ amount) :
    SlicesInside amount (Reaction.taken s qos messageSize next t).callbacks := by
  rcases known with silent | inside
  · rw [Reaction.taken, silent]
    nofun
  · apply slicesInside_callback
    rintro message n topic k ⟨⟩
    have := takes.2
    omega

theorem slicesInside_of_settled (settled : Settled s amount input) :
    SlicesInside amount (reaction s input).callbacks := by
  by_cases parses : Parses (.ofByte (input 0))
  · have known := settled.2 parses
    cases scanned : Base128.scan input 1 4 with
    | none =>
      rw [reaction_of_none scanned]
      exact slicesInside_none
    | some r =>
      obtain ⟨messageSize, next⟩ := r
      simp only [scanned, BodySettled] at known
      rw [reaction_of_parses scanned parses]
      rcases header : FlagsAndType.ofByte (input 0) with ⟨retain, dup, qos, messageType⟩
      rw [header] at known
      cases messageType with
      | publish =>
        have here : OpenTopicLength amount input next (word input next) :=
          openTopicLength_of_agree (fun _ _ => rfl) next
        rcases known.2 with refuses | ⟨takes, inside⟩
        · rw [reactionTo_of_refuses header (refuses _ here)]
          exact slicesInside_callback nofun
        · rw [reactionTo_of_takes header (takes _ here)]
          exact slicesInside_taken (takes _ here) inside
      | connack =>
        simp only [reactionTo, header]
        exact slicesInside_callback nofun
      | suback =>
        simp only [reactionTo, header]
        exact slicesInside_callback (by simp)
      | _ =>
        simp only [reactionTo, header]
        nofun
  · rw [reaction_of_ignored parses]
    exact slicesInside_none

theorem ret_reactionTo (parses : Parses (.ofByte (input 0))) (grants : input 4 ≠ 0x80)
    (takes : ∀ qos, TakesTopic qos messageSize (word input next)) :
    (reactionTo s input messageSize next).ret = true := by
  rcases header : FlagsAndType.ofByte (input 0) with ⟨retain, dup, qos, messageType⟩
  have answered := parses.2
  rw [header] at answered
  cases messageType with
  | publish =>
    rw [reactionTo_of_takes header (takes qos)]
    rfl
  | suback => simp [reactionTo, header, grants]
  | connack => simp only [reactionTo, header]
  | pingresp => simp only [reactionTo, header]
  | _ => simp at answered

def headerEnd (amount : Nat) : Mem := fun j =>
  if j = amount then 0x7F else if j = amount + 1 then 0 else 1

theorem exists_of_open_header (s : MQTTSharedData) (parses : Parses (.ofByte (input 0)))
    (pos : 0 < amount) (short : amount < 5)
    (more : ∀ j, 1 ≤ j → j < amount → 128 ≤ (input j).toNat) :
    ∃ input₁ input₂, AgreeBelow amount input input₁ ∧ AgreeBelow amount input input₂ ∧
      (reaction s input₁).ret = false ∧ (reaction s input₂).ret = true := by
  refine ⟨splice input amount fun _ => 0x80, splice input amount (headerEnd amount),
    agreeBelow_splice _ _ _, agreeBelow_splice _ _ _, ?_, ?_⟩
  · rw [reaction_of_none]
    · rfl
    rw [Base128.scan_eq_none_iff]
    intro j hj _
    rcases Nat.lt_or_ge j amount with known | behind
    · rw [agreeBelow_splice _ _ _ j known]
      exact more j hj known
    · rw [splice_of_ge behind]
      decide
  · have first : splice input amount (headerEnd amount) 0 = input 0 := agreeBelow_splice _ _ _ 0 pos
    have last : splice input amount (headerEnd amount) amount = 0x7F := by
      rw [splice_of_ge (Nat.le_refl _)]
      exact if_pos rfl
    have more' (j : Nat) (hj : 1 ≤ j) (hl : j < amount) :
        128 ≤ (splice input amount (headerEnd amount) j).toNat := by
      rw [agreeBelow_splice _ _ _ j hl]
      exact more j hj hl
    obtain ⟨v, scanned, large⟩ := Base128.scan_of_last (k := 4) more' (by rw [last]; decide) pos
      (by omega)
    rw [last] at large
    have large : 127 ≤ v := large
    have topic : word (splice input amount (headerEnd amount)) (amount + 1) = 1 := by
      rw [word, splice_of_ge (by omega), splice_of_ge (by omega), headerEnd, if_neg (by omega),
        if_pos rfl, headerEnd, if_neg (by omega), if_neg (by omega)]
      rfl
    have grants : splice input amount (headerEnd amount) 4 ≠ 0x80 := by
      rw [splice_of_ge (by omega), headerEnd]
      split
      · decide
      · split <;> decide
    rw [reaction_of_parses scanned (by rwa [first])]
    refine ret_reactionTo (by rwa [first]) grants fun qos => ?_
    have := identifierSize_le qos
    rw [topic]
    exact ⟨by decide, by omega⟩

theorem reaction_of_header (scanned : Base128.scan input 1 4 = some (messageSize, next))
    (parses : Parses (.ofByte (input 0))) (agree : AgreeBelow next input input') :
    reaction s input' = reactionTo s input' messageSize next := by
  have start := (Base128.scan_end scanned).1
  have first : input' 0 = input 0 := agree 0 (by omega)
  exact reaction_of_parses (Base128.scan_congr scanned fun j _ hj => agree j hj) (by rwa [first])

/-- The reaction does not depend on what lies behind the first `amount` bytes. -/
def Determined (s : MQTTSharedData) (amount : Nat) (input : Mem) : Prop :=
  ∀ input', AgreeBelow amount input input' → reaction s input' = reaction s input

theorem Determined.pos (same : Determined s amount input) : 0 < amount := by
  by_contra zero
  have first := same (fun _ => 0) fun i hi => absurd hi (by omega)
  have second := same (ofList [0xD0] 0) fun i hi => absurd hi (by omega)
  rw [reaction_of_ignored (by decide)] at first
  rw [reaction_of_parses (by decide : _ = some (0, 2)) (by decide), ← first] at second
  exact Bool.noConfusion (congrArg Reaction.ret second)

theorem Determined.header (same : Determined s amount input) (parses : Parses (.ofByte (input 0)))
    (more : amount < 5 → ∀ j, 1 ≤ j → j < amount → 128 ≤ (input j).toNat) : 5 ≤ amount := by
  by_contra short
  obtain ⟨input₁, input₂, agree₁, agree₂, refused, taken⟩ :=
    exists_of_open_header s parses same.pos (by omega) (more (by omega))
  rw [same input₁ agree₁] at refused
  rw [same input₂ agree₂, refused] at taken
  cases taken

theorem Determined.connack (same : Determined s amount input)
    (scanned : Base128.scan input 1 4 = some (messageSize, next))
    (parses : Parses (.ofByte (input 0)))
    (header : FlagsAndType.ofByte (input 0) = ⟨retain, dup, qos, .connack⟩) : next + 2 ≤ amount := by
  by_contra short
  have state (code : UInt8) : (reaction s input).state = if code = 0 then .connected else .disconnected := by
    have agree := agreeBelow_splice input (next + 1) fun _ => code
    have header' : FlagsAndType.ofByte (splice input (next + 1) (fun _ => code) 0) =
        ⟨retain, dup, qos, .connack⟩ := by
      rw [agree 0 (by omega), header]
    rw [← same _ (agree.mono (by omega)),
      reaction_of_header scanned parses (agree.mono (Nat.le_add_right next 1)), reactionTo]
    simp only [header', splice_of_ge (Nat.le_refl (next + 1))]
  exact MQTTState.noConfusion ((state 0).symm.trans (state 1))

theorem Determined.suback (same : Determined s amount input) (whole : next ≤ amount)
    (scanned : Base128.scan input 1 4 = some (messageSize, next))
    (parses : Parses (.ofByte (input 0)))
    (header : FlagsAndType.ofByte (input 0) = ⟨retain, dup, qos, .suback⟩) : 5 ≤ amount := by
  by_contra short
  have shown (status : UInt8) : reaction s input = {
      ret := s.subscribeCbFptr ≠ none ∨ status ≠ 0x80
      callbacks := callback s.subscribeCbFptr (.subscribeCb
        (if status = 0x80 then .successfull else .publishDecodeError) none 0 none 0)
      state := s.state } := by
    have agree := agreeBelow_splice input 4 fun _ => status
    have header' : FlagsAndType.ofByte (splice input 4 (fun _ => status) 0) =
        ⟨retain, dup, qos, .suback⟩ := by
      rw [agree 0 (by decide), header]
    rw [← same _ (agree.mono (by omega)), reaction_of_header scanned parses (agree.mono (by omega)),
      reactionTo]
    simp only [header', splice_of_ge (Nat.le_refl 4)]
  have differ := (shown 0x80).symm.trans (shown 0)
  cases cb : s.subscribeCbFptr with
  | none => simp [cb] at differ
  | some f =>
    simp only [cb, callback, Option.elim_some, Reaction.mk.injEq, List.cons.injEq,
      Event.subscribeCb.injEq] at differ
    exact absurd differ.2.1.1.1 (by decide)

theorem exists_of_openTopicLength {t : Nat} (possible : OpenTopicLength amount input next t) :
    ∃ input', AgreeBelow amount input input' ∧ AgreeBelow next input input' ∧
      word input' next = t := by
  obtain ⟨short, hi, lo⟩ := possible
  have spells := (Buffer.fresh input).spells_copy next (be16 t)
  refine ⟨((Buffer.fresh input).copy next (be16 t)).cells, fun i known => ?_,
    fun i front => Buffer.copy_cells_of_lt front, word_of_spells spells short⟩
  rcases Nat.lt_trichotomy i next with front | rfl | behind
  · exact Buffer.copy_cells_of_lt front
  · rw [spells.1, hi known, UInt8.ofNat_toNat]
  · rcases Nat.eq_or_lt_of_le behind with rfl | behind
    · rw [spells.2.1, ← UInt8.toNat_inj, UInt8.toNat_ofNat', lo known]
    · exact Buffer.copy_cells_of_ge (by rw [length_be16]; omega)

theorem Determined.publish (same : Determined s amount input)
    (inside : SlicesInside amount (reaction s input).callbacks)
    (scanned : Base128.scan input 1 4 = some (messageSize, next))
    (parses : Parses (.ofByte (input 0)))
    (header : FlagsAndType.ofByte (input 0) = ⟨retain, dup, qos, .publish⟩) :
    PublishSettled s amount input messageSize next qos := by
  have shown {t : Nat} (possible : OpenTopicLength amount input next t) :
      (reaction s input).ret = true ↔ TakesTopic qos messageSize t := by
    obtain ⟨input', agree, front, rfl⟩ := exists_of_openTopicLength possible
    have header' : FlagsAndType.ofByte (input' 0) = ⟨retain, dup, qos, .publish⟩ := by
      rw [agree 0 same.pos, header]
    rw [← same input' agree, reaction_of_header scanned parses front]
    by_cases takes : TakesTopic qos messageSize (word input' next)
    · rw [reactionTo_of_takes header' takes]
      exact iff_of_true rfl takes
    · rw [reactionTo_of_refuses header' takes]
      exact iff_of_false Bool.false_ne_true takes
  have here : OpenTopicLength amount input next (word input next) :=
    openTopicLength_of_agree (fun _ _ => rfl) next
  cases ret : (reaction s input).ret with
  | false => exact .inl fun t possible takes => absurd ((shown possible).mpr takes) (by simp [ret])
  | true =>
    refine .inr ⟨fun t possible => (shown possible).mp ret, ?_⟩
    cases cb : s.subscribeCbFptr with
    | none => exact .inl rfl
    | some f =>
      have takes := (shown here).mp ret
      rw [reaction_of_parses scanned parses, reactionTo_of_takes header takes, Reaction.taken, cb]
        at inside
      have slices := inside _ _ _ _ (List.mem_singleton.mpr rfl)
      have := takes.2
      exact .inr (by omega)

theorem settled_of_determined (same : Determined s amount input)
    (inside : SlicesInside amount (reaction s input).callbacks) : Settled s amount input := by
  refine ⟨same.pos, fun parses => ?_⟩
  cases scanned : Base128.scan input 1 4 with
  | none =>
    rw [Base128.scan_eq_none_iff] at scanned
    exact same.header parses fun short j hj hl => scanned j hj (by omega)
  | some r =>
    obtain ⟨messageSize, next⟩ := r
    have last := (Base128.scan_end scanned).2
    have whole : next ≤ amount := by
      by_contra cut
      have := same.header parses fun _ j hj hl => Base128.continues_of_scan scanned j hj (by omega)
      omega
    refine ⟨whole, ?_⟩
    rw [BodySettled]
    rcases header : FlagsAndType.ofByte (input 0) with ⟨retain, dup, qos, messageType⟩
    cases messageType with
    | connack => exact same.connack scanned parses header
    | publish => exact same.publish inside scanned parses header
    | suback => exact same.suback whole scanned parses header
    | _ => trivial

end Reaction

/-- `mqtt_receive` keeps to its input exactly if that input settles what it does. -/
theorem usesOnly_iff (env : Env) (s : MQTTSharedData) (amount : Nat) (input : Mem) :
    UsesOnly env s amount input ↔ Settled s amount input := by
  rw [usesOnly_iff_reaction]
  constructor
  · rintro ⟨inside, same⟩
    exact settled_of_determined same inside
  · intro settled
    exact ⟨slicesInside_of_settled settled, fun _ agree => reaction_of_settled settled agree⟩

theorem receive_overreads : ¬ UsesOnly .prompt .sample 2 (ofList [0x20, 2] 0) := by
  rw [usesOnly_iff_reaction]
  rintro ⟨-, same⟩
  have known : 2 + 2 ≤ 2 := Determined.connack same (by decide : _ = some (2, 2)) (by decide)
    (by decide : _ = FlagsAndType.mk false false .qos0 .connack)
  omega

end RojalMQTT
