import RojalMQTT.CommandLine
import Mathlib.Logic.Function.Basic
import Mathlib.Data.List.Nodup

/-! cmdline.c: the options of `rmc`, where main keeps them, and what it frees at its end. -/

namespace RojalMQTT

def CString.append (s t : CString) : CString :=
  ⟨s.bytes ++ t.bytes, by
    rw [List.mem_append]
    exact not_or.mpr ⟨s.noNul, t.noNul⟩⟩

namespace CommandLine

inductive Key
  | letter (c : Char)
  | arg
  | other

abbrev OptionCall := Key × Ptr CString

inductive StringOption
  | topic | message | hostip | clientId | username | password | filename
  | lastWillMessage | lastWillTopic
  deriving DecidableEq

inductive Str
  | empty
  | tempClientId
  | block (n : Nat)
  deriving DecidableEq

/-- `struct arguments` while the options are parsed, and the blocks that were allocated,
each with the bytes that were copied into it. -/
structure Options where
  strings : StringOption → Str
  clientIdSet : Bool
  keepalive : UInt32
  clean : Bool
  hostport : UInt32
  receiveFile : Bool
  verbose : Bool
  blocks : List CString

def isSpace (b : UInt8) : Bool := b = 32 ∨ (9 ≤ b ∧ b ≤ 13)

def leadingDigits (value : Nat) : List UInt8 → Nat
  | [] => value
  | b :: bs => if 48 ≤ b ∧ b ≤ 57 then leadingDigits (value * 10 + (b - 48).toNat) bs else value

def decimal (s : CString) : Int :=
  match s.bytes.dropWhile isSpace with
  | 45 :: bs => -leadingDigits 0 bs
  | 43 :: bs => leadingDigits 0 bs
  | bs => leadingDigits 0 bs

/-- `atoi`.  For a number beyond an `int` C leaves it open; this is `strtol` cast to one. -/
def atoi (s : CString) : Int := (max (-2 ^ 63) (min (decimal s) (2 ^ 63 - 1))).bmod (2 ^ 32)

def Options.copy (o : Options) (field : StringOption) (arg : CString) : Options :=
  { o with
    strings := Function.update o.strings field (.block o.blocks.length)
    blocks := o.blocks ++ [arg] }

def parseOpt (key : Key) (arg : Ptr CString) (o : Options) : Bool × Options :=
  match arg with
  | some arg => match key with
    | .letter 't' => (true, o.copy .topic arg)
    | .letter 'm' => (true, o.copy .message arg)
    | .letter 'b' => (true, o.copy .hostip arg)
    | .letter 'n' => (true, { o.copy .clientId arg with clientIdSet := true })
    | .letter 'u' => (true, o.copy .username arg)
    | .letter 'p' => (true, o.copy .password arg)
    | .letter 'f' => (true, o.copy .filename arg)
    | .letter 'k' =>
      let value := atoi arg
      (true, if 0 < value then { o with keepalive := UInt32.ofNat value.toNat } else o)
    | .letter 's' =>
      let value := atoi arg
      (true, if 0 < value then { o with hostport := UInt32.ofNat value.toNat } else o)
    | .letter 'w' => (true, o.copy .lastWillMessage arg)
    | .letter 'l' => (true, o.copy .lastWillTopic arg)
    | .arg => (true, o)
    | _ => (false, o)
  | none => match key with
    | .letter 'c' => (true, { o with clean := false })
    | .letter 'r' => (true, { o with receiveFile := true })
    | .letter 'v' => (true, { o with verbose := true })
    | _ => (false, o)

def Options.start : Options where
  strings
    | .clientId => .tempClientId
    | _ => .empty
  clientIdSet := false
  keepalive := 0
  clean := true
  hostport := 1883
  receiveFile := false
  verbose := false
  blocks := []

def argpParse (calls : List OptionCall) : Options :=
  calls.foldl (fun o call => (parseOpt call.1 call.2 o).2) .start

/-- What `strlen` finds: the client ID of `sprintf`, and the bytes behind each block that
come before a NUL. -/
structure Memory where
  tempClientId : CString
  behind : Nat → CString

def Options.string (o : Options) (m : Memory) : Str → CString
  | .empty => .empty
  | .tempClientId => m.tempClientId
  | .block n => (o.blocks.getD n .empty).append (m.behind n)

def Arguments.of (strings : StringOption → CString) (keepalive : UInt32) (clean : Bool)
    (hostport : UInt32) (receiveFile : Bool) : Arguments where
  message := strings .message
  topic := strings .topic
  clientId := strings .clientId
  hostip := strings .hostip
  lastWillMessage := strings .lastWillMessage
  lastWillTopic := strings .lastWillTopic
  username := strings .username
  password := strings .password
  keepalive
  clean
  hostport
  filename := strings .filename
  receiveFile

def Options.found (o : Options) (m : Memory) : Arguments :=
  .of (fun field => o.string m (o.strings field)) o.keepalive o.clean o.hostport o.receiveFile

/-- `clean`: a string of more than one byte is freed. -/
def Options.cleans (o : Options) (m : Memory) (field : StringOption) : List Str :=
  if 1 < (o.string m (o.strings field)).strlen then [o.strings field] else []

def Options.cleaned (o : Options) : List StringOption :=
  (if o.clientIdSet then [.clientId] else []) ++
    [.hostip, .message, .filename, .topic, .lastWillMessage, .lastWillTopic, .username, .password]

def Options.cleanUp (o : Options) (m : Memory) : List Str := o.cleaned.flatMap (o.cleans m)

section Given

def StringOption.ofLetter : Char → Option StringOption
  | 't' => some .topic
  | 'm' => some .message
  | 'b' => some .hostip
  | 'n' => some .clientId
  | 'u' => some .username
  | 'p' => some .password
  | 'f' => some .filename
  | 'w' => some .lastWillMessage
  | 'l' => some .lastWillTopic
  | _ => none

def stringGiven : OptionCall → Option (StringOption × CString)
  | (.letter c, some arg) => (StringOption.ofLetter c).map fun field => (field, arg)
  | _ => none

def numberGiven (read : CString → Int) (c : Char) : OptionCall → Option UInt32
  | (.letter c', some arg) =>
    if c' = c ∧ 0 < read arg then some (UInt32.ofNat (read arg).toNat) else none
  | _ => none

def isFlag (c : Char) : OptionCall → Bool
  | (.letter c', none) => c' = c
  | _ => false

def given (calls : List OptionCall) : List (StringOption × CString) := calls.filterMap stringGiven

def lastGiven (field : StringOption) (calls : List OptionCall) : Option CString :=
  (((given calls).filter fun g => g.1 = field).getLast?).map Prod.snd

def lastNumber (read : CString → Int) (c : Char) (default : UInt32) (calls : List OptionCall) :
    UInt32 :=
  ((calls.filterMap (numberGiven read c)).getLast?).getD default

def wanted (tempClientId : CString) (calls : List OptionCall) : Arguments :=
  .of (fun field => (lastGiven field calls).getD (if field = .clientId then tempClientId else .empty))
    (lastNumber decimal 'k' 0 calls) (!calls.any (isFlag 'c')) (lastNumber decimal 's' 1883 calls)
    (calls.any (isFlag 'r'))

def NumberFits : OptionCall → Prop
  | (.letter c, some arg) => c = 'k' ∨ c = 's' → -2 ^ 31 ≤ decimal arg ∧ decimal arg < 2 ^ 31
  | _ => True

end Given

end CommandLine

end RojalMQTT
