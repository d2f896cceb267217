import RojalMQTT.PhaseLaws
import RojalMQTT.TransferLaws

/-! Main as a run of the client's functions, and what the server reads of it. -/

namespace RojalMQTT

open Library

def ApiCall.isReceive : ApiCall → Bool
  | .receive _ _ => true
  | _ => false

namespace CommandLine

def Arguments.subscription (a : Arguments) : ApiCall :=
  .subscribe (chars a.topic) (UInt16.ofNat a.topic.strlen) 10

def Arguments.ping (a : Arguments) : ApiCall := .keepalive (a.keepalive * 1000)

inductive Publishes (w : World) (a : Arguments) : ApiCall → Prop
  | message (some : 0 < a.message.strlen) :
    Publishes w a (.publish (chars a.topic) a.topic.strlen (chars a.message) a.message.strlen)
  | file (none : ¬ 0 < a.message.strlen) (named : 0 < a.filename.strlen)
    (opens : w.fopen a.filename = some f) (allocated : f.buf = some buf)
    (read : f.bytes.length ≠ f.itemsRead) :
    Publishes w a (.publishBuf (chars a.topic) a.topic.strlen (some buf) f.bytes.length
      (w.malloc (mqttbufSize f.bytes.length a.topic.strlen).toNat)
      (mqttbufSize f.bytes.length a.topic.strlen))

inductive Requests (w : World) (a : Arguments) : Bool → List ApiCall → Prop
  | nothing (once : a.subscribes = false) : Requests w a true []
  | publishes (once : a.subscribes = false) (call : Publishes w a c) : Requests w a true [c]
  | subscribed (subscribes : a.subscribes = true) (pings : Nat) (atMost : pings ≤ w.rounds.length)
      (disabled : a.keepalive.toNat = 0 → pings = 0)
      (all : ended = false → 0 < a.keepalive.toNat → pings = w.rounds.length) :
    Requests w a ended (a.subscription :: List.replicate pings a.ping)

/-- The calls of main, in its order.  Without an end the subscribe loop goes on. -/
inductive OwnCalls (w : World) (a : Arguments) : Bool → List ApiCall → Prop
  | unconnected : OwnCalls w a true []
  | refused : OwnCalls w a true [.connect a.connect]
  | ended (requests : Requests w a true own) :
    OwnCalls w a true (.connect a.connect :: (own ++ [.disconnect]))
  | listening (requests : Requests w a false own) : OwnCalls w a false (.connect a.connect :: own)

/-- What calls do, one after another: main's own, and those of its receiving thread in
between. -/
inductive Plays : Ptr MQTTSharedData → List ApiCall → List Event → Ptr MQTTSharedData → Prop
  | nothing : Plays g [] [] g
  | receives (one : api g (env, .receive (some input) amount) = .ok (answer, g₁))
    (rest : Plays g₁ own events g') : Plays g own (answer.events ++ events) g'
  | call (other : call.isReceive = false) (one : api g (env, call) = .ok (answer, g₁))
    (rest : Plays g₁ own events g') : Plays g (call :: own) (answer.events ++ events) g'

section Plays

variable {g g₁ g' : Ptr MQTTSharedData}

theorem Plays.append (h : Plays g own events g₁) (h' : Plays g₁ own' events' g') :
    Plays g (own ++ own') (events ++ events') g' := by
  induction h with
  | nothing => exact h'
  | receives one rest ih =>
    rw [List.append_assoc]
    exact .receives one (ih h')
  | call other one rest ih =>
    rw [List.append_assoc]
    exact .call other one (ih h')

theorem Plays.one {env : Env} {call : ApiCall} (other : call.isReceive = false)
    (one : api g (env, call) = .ok (answer, g')) : Plays g [call] answer.events g' := by
  have plays := Plays.call other one .nothing
  rwa [List.append_nil] at plays

theorem Plays.runs (h : Plays g own events g') : ∃ calls answers,
    Machine.Runs api g calls answers g' ∧
      (calls.map Prod.snd).filter (fun call => !call.isReceive) = own ∧
      events = answers.flatMap (·.events) := by
  induction h with
  | nothing => exact ⟨[], [], .nil, rfl, rfl⟩
  | receives one rest ih =>
    obtain ⟨calls, answers, runs, rfl, rfl⟩ := ih
    exact ⟨_ :: calls, _ :: answers, .cons one runs, rfl, rfl⟩
  | call other one rest ih =>
    obtain ⟨calls, answers, runs, rfl, rfl⟩ := ih
    refine ⟨_ :: calls, _ :: answers, .cons one runs, ?_, rfl⟩
    rw [List.map_cons, List.filter_cons_of_pos (by simp [other])]

end Plays

section Parts

variable {w : World} {a : Arguments} {g g' : Ptr MQTTSharedData}

theorem receiveAll_plays {received : List (Mem × Nat)}
    (h : receiveAll (received.map Prod.fst) g = .ok (events, g')) : Plays g [] events g' := by
  induction received generalizing g events with
  | nil =>
    cases h
    exact .nothing
  | cons first received ih =>
    obtain ⟨⟨o, g₁⟩, parsed, h⟩ := bind_eq_ok h
    obtain ⟨⟨events, g₂⟩, rest, h⟩ := bind_eq_ok h
    cases h
    have one : api g (.prompt, .receive (some first.1) first.2) =
        .ok (⟨o.status = .successfull, o.events⟩, g₁) := by
      have same : mqtt g (.prompt, .parseInputStream (some (some ⟨some first.1, UInt32.ofNat first.2⟩))) =
          .ok (o, g₁) := parsed
      simp only [api, mqttReceive, same, ok_bind]
      rfl
    exact .receives one (ih rest)

theorem Turn.plays {turn : Turn} {call : ApiCall} (other : call.isReceive = false)
    (h : turn.run (fun env g => api g (env, call)) g = .ok (answer, g')) :
    Plays g [call] answer.events g' := by
  obtain ⟨⟨received, g₁⟩, before, h⟩ := bind_eq_ok h
  obtain ⟨⟨answer', g₂⟩, one, h⟩ := bind_eq_ok h
  cases h
  exact (receiveAll_plays before).append (.one other one)

theorem subscribeLoop_plays {rounds : List Round}
    (h : subscribeLoop a.keepalive rounds g = .ok (events, g', ended)) : ∃ pings,
      Plays g (List.replicate pings a.ping) events g' ∧ pings ≤ rounds.length ∧
        (a.keepalive.toNat = 0 → pings = 0) ∧
        (ended = false → 0 < a.keepalive.toNat → pings = rounds.length) := by
  induction rounds generalizing g events with
  | nil =>
    cases h
    exact ⟨0, .nothing, Nat.le_refl 0, fun _ => rfl, fun _ _ => rfl⟩
  | cons round rounds ih =>
    obtain ⟨⟨received, g₁⟩, before, h⟩ := bind_eq_ok h
    have before : Plays g [] received g₁ := receiveAll_plays before
    simp only at h
    split at h
    case isTrue =>
      cases h
      exact ⟨0, before, Nat.zero_le _, fun _ => rfl, nofun⟩
    case isFalse =>
      split at h
      case isTrue positive =>
        obtain ⟨⟨answer, g₂⟩, one, h⟩ := bind_eq_ok h
        have pinged : Plays g₁ [a.ping] answer.events g₂ := .one rfl one
        simp only at h
        split at h
        case isTrue =>
          obtain ⟨⟨later, g₃, ended'⟩, rest, h⟩ := bind_eq_ok h
          cases h
          obtain ⟨pings, plays, atMost, -, all⟩ := ih rest
          refine ⟨pings + 1, before.append (pinged.append plays), Nat.succ_le_succ atMost, by omega, ?_⟩
          exact fun goes _ => congrArg (· + 1) (all goes positive)
        case isFalse =>
          cases h
          exact ⟨1, before.append pinged, Nat.succ_le_succ (Nat.zero_le _), by omega, nofun⟩
      case isFalse zero =>
        obtain ⟨⟨later, g₂, ended'⟩, rest, h⟩ := bind_eq_ok h
        cases h
        obtain ⟨pings, plays, atMost, none, -⟩ := ih rest
        exact ⟨pings, before.append plays, Nat.le_succ_of_le atMost, none,
          fun _ positive => absurd positive zero⟩

theorem subscribe_plays (subscribes : a.subscribes = true)
    (h : subscribe w a g = .ok (events, g', ended)) :
    ∃ own, Requests w a ended own ∧ Plays g own events g' := by
  obtain ⟨⟨answer, g₁⟩, one, h⟩ := bind_eq_ok h
  have requested : Plays g [a.subscription] answer.events g₁ := Turn.plays rfl one
  simp only at h
  split at h
  case isTrue =>
    obtain ⟨⟨later, g₂, ended'⟩, loop, h⟩ := bind_eq_ok h
    cases h
    obtain ⟨pings, plays, atMost, none, all⟩ := subscribeLoop_plays loop
    exact ⟨_, .subscribed subscribes pings atMost none all, requested.append plays⟩
  case isFalse =>
    cases h
    exact ⟨_, .subscribed subscribes 0 (Nat.zero_le _) (fun _ => rfl) nofun, requested⟩

theorem publish_plays (once : a.subscribes = false) (h : publish w a g = .ok (answer, g')) :
    ∃ own, Requests w a true own ∧ Plays g own answer.events g' := by
  rw [publish] at h
  split at h
  case isTrue message => exact ⟨_, .publishes once (.message message), Turn.plays rfl h⟩
  case isFalse message =>
    split at h
    case isFalse =>
      cases h
      exact ⟨[], .nothing once, .nothing⟩
    case isTrue named =>
      rw [publishFile] at h
      split at h
      case h_1 =>
        cases h
        exact ⟨[], .nothing once, .nothing⟩
      case h_2 f opens =>
        simp only at h
        split at h
        case h_1 =>
          split at h
          case isTrue => cases h
          case isFalse =>
            cases h
            exact ⟨[], .nothing once, .nothing⟩
        case h_2 buf allocated =>
          split at h
          case isTrue read =>
            exact ⟨_, .publishes once (.file message named opens allocated read), Turn.plays rfl h⟩
          case isFalse =>
            cases h
            exact ⟨[], .nothing once, .nothing⟩

theorem session_plays (h : session w a g = .ok (events, g', ended)) :
    ∃ own, OwnCalls w a ended (.connect a.connect :: own) ∧ Plays g own events g' := by
  obtain ⟨⟨first, g₁, finished⟩, branched, h⟩ := bind_eq_ok h
  have before : ∃ own, Requests w a finished own ∧ Plays g own first g₁ := by
    rw [branch] at branched
    split at branched
    case isTrue subscribes => exact subscribe_plays subscribes branched
    case isFalse once =>
      obtain ⟨⟨answer, g₂⟩, published, branched⟩ := bind_eq_ok branched
      cases branched
      exact publish_plays (Bool.eq_false_iff.mpr once) published
  obtain ⟨own, requests, plays⟩ := before
  simp only at h
  split at h
  case isTrue finished =>
    obtain rfl := finished
    obtain ⟨⟨answer, g₂⟩, last, h⟩ := bind_eq_ok h
    cases h
    have disconnected : Plays g₁ [.disconnect] answer.events g₂ := Turn.plays rfl last
    exact ⟨_, .ended requests, plays.append disconnected⟩
  case isFalse goes =>
    obtain rfl := Bool.eq_false_iff.mpr goes
    cases h
    exact ⟨own, .listening requests, plays⟩

theorem main_plays (h : main w a = .ok (events, g, ended)) :
    ∃ own, OwnCalls w a ended own ∧ Plays none own events g := by
  rw [main] at h
  split at h
  case isFalse =>
    cases h
    exact ⟨[], .unconnected, .nothing⟩
  case isTrue =>
    obtain ⟨⟨answer, g₁⟩, connected, h⟩ := bind_eq_ok h
    rw [rmcConnect] at connected
    split at connected
    case isFalse =>
      cases connected
      cases h
      exact ⟨[], .unconnected, .nothing⟩
    case isTrue =>
      have first : Plays none [.connect a.connect] answer.events g₁ := Turn.plays rfl connected
      simp only at h
      split at h
      case isTrue =>
        obtain ⟨⟨later, g₂, ended'⟩, goes, h⟩ := bind_eq_ok h
        cases h
        obtain ⟨own, calls, plays⟩ := session_plays goes
        exact ⟨_, calls, first.append plays⟩
      case isFalse =>
        cases h
        exact ⟨_, .refused, first⟩

end Parts

section Packets

variable {w : World} {a : Arguments} {env : Env}

def Arguments.connectPacket (a : Arguments) (keepalive : UInt16) : ConnectPacket where
  keepalive
  cleanSession := a.clean
  willQos := .qos0
  willRetain := false
  clientId := a.clientId.bytes
  will := if 0 < a.lastWillTopic.strlen ∧ 0 < a.lastWillMessage.strlen then
    some (a.lastWillTopic.bytes, a.lastWillMessage.bytes) else none
  username := if 0 < a.username.strlen then some a.username.bytes else none
  password := if 0 < a.password.strlen then some a.password.bytes else none

inductive MainPacket (w : World) (a : Arguments) : ClientPacket → Prop
  | connect (exact : keepalive.toNat = a.keepalive.toNat) :
    MainPacket w a (.connect (a.connectPacket keepalive))
  | subscribe (identifier : UInt16) : MainPacket w a (.subscribe ⟨identifier, a.topic.bytes, .qos0⟩)
  | publish (carried : content w a = some message) :
    MainPacket w a (.publish (.plain a.topic.bytes message))
  | pingreq : MainPacket w a .pingreq
  | disconnect : MainPacket w a .disconnect

theorem Arguments.Fits.topicLength (fits : a.Fits w) :
    (UInt16.ofNat a.topic.strlen).toNat = a.topic.bytes.length := by
  rw [UInt16.toNat_ofNat']
  exact Nat.mod_eq_of_lt fits.topic

theorem asked_connect (asked : Asked (env, .connect a.connect) packet) :
    packet = .connect (a.connectPacket a.keepalive.toUInt16) := by
  obtain ⟨action, asks, asked⟩ := asked
  obtain rfl := Option.some.inj asks
  cases asked with
  | connect id =>
    cases id
    rfl

def Within (ss : List CString) (n : Nat) : Prop :=
  stringsSize ss ≤ n ∧ ∀ s ∈ ss, s.strlen ≤ n

theorem within_singleton (s : CString) : Within [s] (2 + s.strlen) := by
  have := Nat.mod_le s.strlen (2 ^ 16)
  constructor
  · rw [stringsSize_cons, stringsSize_nil, CString.storedLength, u16]
    omega
  · intro t mem
    rw [List.mem_singleton.mp mem]
    omega

theorem Within.append (h : Within ss n) (h' : Within ss' n') : Within (ss ++ ss') (n + n') := by
  refine ⟨?_, fun s mem => ?_⟩
  · rw [stringsSize_append]
    exact Nat.add_le_add h.1 h'.1
  · rcases List.mem_append.mp mem with mem | mem
    · exact Nat.le_add_right_of_le (h.2 s mem)
    · exact Nat.le_add_left_of_le (h'.2 s mem)

theorem within_optional (s : CString) : Within (optionalStrings s) (2 + s.strlen) := by
  rw [optionalStrings]
  split
  · exact within_singleton s
  · exact ⟨Nat.zero_le _, by simp⟩

theorem within_will (c : MQTTConnect) :
    Within (willStrings c) (2 + c.lastWillTopic.strlen + (2 + c.lastWillMessage.strlen)) := by
  rw [willStrings]
  split
  · exact (within_singleton _).append (within_singleton _)
  · exact ⟨Nat.zero_le _, by simp⟩

theorem Arguments.Fits.within (fits : a.Fits w) (checked : a.connect.checked env = some (c, shared)) :
    Within (payloadStrings c) 1009 := by
  obtain ⟨size, short⟩ : Within (payloadStrings c) (2 + a.clientId.strlen +
      (2 + a.lastWillTopic.strlen + (2 + a.lastWillMessage.strlen) + (2 + a.username.strlen +
        (2 + a.password.strlen)))) := by
    cases checked
    exact (within_singleton a.clientId).append ((within_will _).append
      ((within_optional a.username).append (within_optional a.password)))
  have room := fits.connect
  have fifteen : payloadStart = 15 := rfl
  have buffer : outputBufferSize = 1024 := rfl
  exact ⟨by omega, fun s mem => Nat.le_trans (short s mem) (by omega)⟩

theorem Arguments.Fits.uncut (fits : a.Fits w) (checked : a.connect.checked env = some (c, shared)) :
    c.Uncut := by
  have := (fits.within checked).1
  have ten : sizeofVariableHeaderConnect = 10 := rfl
  rw [MQTTConnect.Uncut]
  omega

section Hands

variable {g : Ptr MQTTSharedData}

theorem hands_of_plain {env : Env} {call : ApiCall} (h : api g (env, call) = .ok (answer, g'))
    (plain : ∀ action ∈ call.asks env, action.Plain)
    (makes : ∀ packet, Asked (env, call) packet → MainPacket w a packet) :
    ∃ packets, Handed answer.events packets ∧ ∀ p ∈ packets, MainPacket w a p := by
  obtain ⟨packet, asked, handed⟩ := api_hands h plain
  exact ⟨packet.toList, handed, fun p mem => makes p (asked p (Option.mem_toList.mp mem))⟩

theorem connect_hands (fits : a.Fits w) (h : api g (env, .connect a.connect) = .ok (answer, g')) :
    ∃ packets, Handed answer.events packets ∧ ∀ p ∈ packets, MainPacket w a p := by
  obtain ⟨c, shared, checked, -⟩ := checked_connect a env
  refine hands_of_plain h ?_ fun packet asked => ?_
  · rw [ApiCall.asks, checked]
    rintro _ ⟨⟩
    have short : ∀ s ∈ payloadStrings c, s.strlen < 65536 := fun s mem =>
      Nat.lt_of_le_of_lt ((fits.within checked).2 s mem) (by decide)
    have size := (MQTTConnect.uncut_iff c).mp (fits.uncut checked)
    rw [length_connectBytes_eq short] at size
    exact Nat.le_of_lt_succ size
  · obtain rfl := asked_connect asked
    refine .connect ?_
    rw [UInt32.toNat_toUInt16]
    exact Nat.mod_eq_of_lt fits.keepalive

theorem publish_hands (fits : a.Fits w) (made : Publishes w a call)
    (h : api g (env, call) = .ok (answer, g')) :
    ∃ packets, Handed answer.events packets ∧ ∀ p ∈ packets, MainPacket w a p := by
  have onTopic := spells_ofList a.topic.bytes 0
  have topic := fits.topicLength
  have few : a.topic.bytes.length < 65536 := fits.topic
  cases made with
  | message message =>
    have room := fits.publish message
    have buffer : outputBufferSize = 1024 := rfl
    change 5 + a.topic.bytes.length + a.message.bytes.length ≤ outputBufferSize at room
    have length : (UInt32.ofNat a.message.strlen).toNat = a.message.bytes.length := by
      rw [UInt32.toNat_ofNat']
      exact Nat.mod_eq_of_lt (by change a.message.bytes.length < _; omega)
    refine hands_of_plain h ?_ fun packet asked => ?_
    · rintro _ ⟨⟩
      refine ⟨⟨rfl, rfl⟩, rfl, ?_⟩
      change publishBodySize .qos0 (UInt16.ofNat a.topic.strlen) (UInt32.ofNat a.message.strlen) <
        268435456
      rw [publishBodySize, topic, length, identifierSize, if_neg (by decide)]
      omega
    · obtain rfl := asked_publishBuf onTopic (spells_ofList a.message.bytes 0) topic length asked
      exact .publish (by rw [content, if_pos message])
  | @file f buf message named opens allocated read =>
    have room := fits.file f opens
    change 2 + a.topic.bytes.length + f.bytes.length < 268435456 at room
    have length : (UInt32.ofNat f.bytes.length).toNat = (slice buf 0 f.bytes.length).length := by
      rw [length_slice, UInt32.toNat_ofNat']
      omega
    refine hands_of_plain h ?_ fun packet asked => ?_
    · rintro _ ⟨⟩
      refine ⟨⟨rfl, rfl⟩, rfl, ?_⟩
      change publishBodySize .qos0 (UInt16.ofNat a.topic.strlen) (UInt32.ofNat f.bytes.length) < 268435456
      rw [publishBodySize, topic, length, length_slice, identifierSize, if_neg (by decide)]
      omega
    · obtain rfl := asked_publishBuf onTopic (spells_slice buf 0 f.bytes.length) topic length asked
      refine .publish ?_
      rw [content, if_neg message, if_pos named, opens]
      simp only [allocated, Option.bind_some, if_pos read]

theorem disconnect_hands (h : api g (env, .disconnect) = .ok (answer, g')) :
    ∃ packets, Handed answer.events packets ∧ ∀ p ∈ packets, MainPacket w a p := by
  refine hands_of_plain h ?_ fun packet asked => ?_
  · rintro _ ⟨⟩
    trivial
  · obtain ⟨action, asks, asked⟩ := asked
    cases asks
    cases asked
    exact .disconnect

theorem ping_hands (h : api g (env, a.ping) = .ok (answer, g')) :
    ∃ packets, Handed answer.events packets ∧ ∀ p ∈ packets, MainPacket w a p := by
  refine hands_of_plain h ?_ fun packet asked => ?_
  · rintro _ ⟨⟩
    trivial
  · obtain ⟨action, asks, asked⟩ := asked
    cases asks
    cases asked
    exact .pingreq

theorem subscription_hands (fits : a.Fits w) (h : api g (env, a.subscription) = .ok (answer, g')) :
    ∃ packets, Handed answer.events packets ∧ ∀ p ∈ packets, MainPacket w a p := by
  refine hands_of_plain h (fun action asks => ?_) fun packet asked => ?_
  · obtain ⟨-, same⟩ := Option.ite_none_right_eq_some.mp asks
    cases same
    rfl
  · obtain ⟨action, asks, asked⟩ := asked
    obtain ⟨-, same⟩ := Option.ite_none_right_eq_some.mp asks
    cases same
    cases asked with
    | subscribe found =>
      cases found
      simp only [MQTTSubscribe.packet, fits.topicLength, (spells_ofList a.topic.bytes 0).slice_eq]
      exact .subscribe _

theorem receive_hands (h : api g (env, call) = .ok (answer, g')) (receives : call.isReceive = true) :
    ∃ packets, Handed answer.events packets ∧ ∀ p ∈ packets, MainPacket w a p := by
  cases call with
  | receive data amount =>
    refine hands_of_plain h (fun action asks => ?_) fun packet asked => ?_
    · obtain ⟨_, _, rfl⟩ := Option.map_eq_some_iff.mp asks
      trivial
    · obtain ⟨action, asks, asked⟩ := asked
      obtain ⟨_, _, rfl⟩ := Option.map_eq_some_iff.mp asks
      cases asked
  | _ => cases receives

end Hands

inductive OwnCall (w : World) (a : Arguments) : ApiCall → Prop
  | connects : OwnCall w a (.connect a.connect)
  | subscribes : OwnCall w a a.subscription
  | pings : OwnCall w a a.ping
  | publishes (call : Publishes w a c) : OwnCall w a c
  | disconnects : OwnCall w a .disconnect

theorem Requests.call (h : Requests w a ended own) : ∀ c ∈ own, OwnCall w a c := by
  intro c mem
  cases h with
  | nothing => cases mem
  | publishes once call =>
    obtain rfl := List.mem_singleton.mp mem
    exact .publishes call
  | subscribed subscribes pings =>
    rcases List.mem_cons.mp mem with rfl | mem
    · exact .subscribes
    · obtain rfl := List.eq_of_mem_replicate mem
      exact .pings

theorem OwnCalls.call {ended : Bool} (h : OwnCalls w a ended own) : ∀ c ∈ own, OwnCall w a c := by
  intro c mem
  cases h with
  | unconnected => cases mem
  | refused =>
    obtain rfl := List.mem_singleton.mp mem
    exact .connects
  | ended requests =>
    rcases List.mem_cons.mp mem with rfl | mem
    · exact .connects
    · rcases List.mem_append.mp mem with mem | mem
      · exact requests.call c mem
      · obtain rfl := List.mem_singleton.mp mem
        exact .disconnects
  | listening requests =>
    rcases List.mem_cons.mp mem with rfl | mem
    · exact .connects
    · exact requests.call c mem

theorem OwnCall.uncut (made : OwnCall w a call) (fits : a.Fits w) (env : Env) : AsksUncut env call := by
  intro action asks c mem
  cases made with
  | connects =>
    obtain ⟨c', shared, checked, -⟩ := checked_connect a env
    rw [ApiCall.asks, checked] at asks
    cases asks
    cases mem
    exact fits.uncut checked
  | pings | disconnects =>
    cases asks
    cases mem
  | subscribes =>
    obtain ⟨-, same⟩ := Option.ite_none_right_eq_some.mp asks
    cases same
    cases mem
  | publishes call =>
    cases call <;>
    · cases asks
      cases mem

theorem OwnCall.hands {env : Env} (made : OwnCall w a call) (fits : a.Fits w)
    (h : api g (env, call) = .ok (answer, g')) :
    ∃ packets, Handed answer.events packets ∧ ∀ p ∈ packets, MainPacket w a p := by
  cases made with
  | connects => exact connect_hands fits h
  | subscribes => exact subscription_hands fits h
  | pings => exact ping_hands h
  | publishes call => exact publish_hands fits call h
  | disconnects => exact disconnect_hands h

theorem call_cases {calls : List (Env × ApiCall)} (own : OwnCalls w a ended
    ((calls.map Prod.snd).filter fun call => !call.isReceive)) {c : Env × ApiCall} (mem : c ∈ calls) :
    c.2.isReceive = true ∨ OwnCall w a c.2 := by
  cases receives : c.2.isReceive with
  | true => exact .inl rfl
  | false =>
    refine .inr (own.call _ (List.mem_filter.mpr ⟨List.mem_map_of_mem mem, ?_⟩))
    rw [receives]
    rfl

theorem uncut_of_receive (env : Env) {call : ApiCall} (receives : call.isReceive = true) :
    AsksUncut env call := by
  intro action asks c mem
  cases call with
  | receive data amount =>
    obtain ⟨_, _, rfl⟩ := Option.map_eq_some_iff.mp asks
    cases mem
  | _ => cases receives

theorem handedTypes_eq {events : List Event} (h : Handed events packets) :
    handedTypes events = packets.map fun p => some p.flags.messageType := by
  have types : handedTypes events = ((events.filter Event.isOut).map Event.handed).map packetType := by
    clear h
    induction events with
    | nil => rfl
    | cons e events ih =>
      cases e with
      | out data ret =>
        rw [List.filter_cons_of_pos rfl, List.map_cons, List.map_cons, ← ih]
        rfl
      | _ => exact ih
  rw [types, h.data, List.map_map]
  exact List.map_congr_left fun p _ => p.packetType_wire

end Packets

/-- Two levels of refinement: every run of main is a run of the client's functions, with main's
calls in main's order and those of its receiving thread in between, and that is a run of
the session. -/
theorem main_refines {w : World} {a : Arguments} (fits : a.Fits w)
    (h : main w a = .ok (events, g, ended)) : ∃ calls answers, Machine.Runs api none calls answers g ∧
      OwnCalls w a ended ((calls.map Prod.snd).filter fun call => !call.isReceive) ∧
      events = answers.flatMap (·.events) ∧ Machine.Trace Phase.Step .unset calls answers (.of g) := by
  obtain ⟨own, ordered, plays⟩ := main_plays h
  obtain ⟨calls, answers, runs, rfl, same⟩ := plays.runs
  refine ⟨calls, answers, runs, ordered, same, runs.trace fun _ c mem _ _ step => api_phase step ?_⟩
  rcases call_cases ordered mem with receives | made
  · exact uncut_of_receive _ receives
  · exact made.uncut fits _

theorem main_refines_sample : ∃ events g ended calls answers,
    main .sample .sample = .ok (events, g, ended) ∧ events.length = 4 ∧
    Machine.Runs api none calls answers g ∧ OwnCalls .sample .sample ended
      ((calls.map Prod.snd).filter fun call => !call.isReceive) ∧
    events = answers.flatMap (·.events) ∧
    Machine.Trace Phase.Step .unset calls answers (.of g) := by
  obtain ⟨⟨events, g, ended⟩, run, four⟩ := exists_of_any (x := main .sample .sample)
    (p := fun r => r.1.length = 4) (by decide +kernel)
  obtain ⟨calls, answers, runs, own, same, trace⟩ := main_refines fits_sample run
  exact ⟨events, g, ended, calls, answers, run, of_decide_eq_true four, runs, own, same, trace⟩

theorem main_conversation {w : World} {a : Arguments} (fits : a.Fits w)
    (h : main w a = .ok (events, g, ended)) :
    ∃ packets, ClientPacket.reader.readAll (events.flatMap Event.handed) = some packets ∧
      IsSession a w.rounds.length ended (packets.map fun p => some p.flags.messageType) ∧
      ∀ p ∈ packets, MainPacket w a p := by
  obtain ⟨own, ordered, plays⟩ := main_plays h
  obtain ⟨calls, answers, runs, rfl, rfl⟩ := plays.runs
  obtain ⟨packets, handed, all⟩ := run_hands runs fun call mem _ _ _ step =>
    (call_cases ordered mem).elim (fun receives => receive_hands step receives)
      fun made => made.hands fits step
  refine ⟨packets, handed.readAll, ?_, all⟩
  rcases main_cases w a fits.keepalive with ⟨fault, -⟩ | ⟨events, g, ended, run, isSession⟩
  · rw [fault] at h
    cases h
  · rw [run] at h
    cases h
    rwa [← handedTypes_eq handed]

theorem main_conversation_sample : ∃ events g packets,
    main .sample .sample = .ok (events, g, true) ∧
    ClientPacket.reader.readAll (events.flatMap Event.handed) = some packets ∧
    IsSession .sample 2 true (packets.map fun p => some p.flags.messageType) ∧
    ∀ p ∈ packets, MainPacket .sample .sample p := by
  obtain ⟨⟨events, g, ended⟩, run, rfl⟩ := exists_of_any (x := main .sample .sample)
    (p := fun r => r.2.2) (by decide +kernel)
  obtain ⟨packets, read, isSession, all⟩ := main_conversation fits_sample run
  exact ⟨events, g, packets, run, read, isSession, all⟩

end CommandLine

end RojalMQTT
