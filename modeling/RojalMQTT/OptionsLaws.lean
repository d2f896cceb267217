import RojalMQTT.Options

/-! What main makes of its options, and of the blocks it keeps them in. -/

namespace RojalMQTT

namespace CommandLine

section Steps

variable {o : Options} {call : OptionCall} {calls : List OptionCall}

structure Takes (call : OptionCall) (o o' : Options) : Prop where
  strings : o'.strings = (stringGiven call).elim o.strings
    fun g => Function.update o.strings g.1 (.block o.blocks.length)
  blocks : o'.blocks = o.blocks ++ ((stringGiven call).map Prod.snd).toList
  clientIdSet : o'.clientIdSet = (o.clientIdSet || (stringGiven call).any fun g => g.1 = .clientId)
  keepalive : o'.keepalive = (numberGiven atoi 'k' call).getD o.keepalive
  hostport : o'.hostport = (numberGiven atoi 's' call).getD o.hostport
  clean : o'.clean = (o.clean && !isFlag 'c' call)
  receiveFile : o'.receiveFile = (o.receiveFile || isFlag 'r' call)

theorem takes_nothing (string : stringGiven call = none) (keepalive : numberGiven atoi 'k' call = none)
    (hostport : numberGiven atoi 's' call = none) (clean : isFlag 'c' call = false)
    (receive : isFlag 'r' call = false) : Takes call o o := by
  constructor <;> simp [string, keepalive, hostport, clean, receive]

theorem numberGiven_none {c c' : Char} {s : CString} (h : ¬ (c' = c ∧ 0 < atoi s)) :
    numberGiven atoi c (.letter c', some s) = none := if_neg h

theorem parseOpt_takes (call : OptionCall) (o : Options) :
    Takes call o (parseOpt call.1 call.2 o).2 := by
  obtain ⟨key, s⟩ := call
  simp only
  fun_cases parseOpt key s o with
  | case8 s value =>
    by_cases positive : 0 < atoi s
    · simp only [value, if_pos positive]
      constructor <;> simp [stringGiven, StringOption.ofLetter, numberGiven, isFlag, positive]
    · simp only [value, if_neg positive]
      exact takes_nothing rfl (numberGiven_none (by simp [positive])) (numberGiven_none (by simp))
        rfl rfl
  | case9 s value =>
    by_cases positive : 0 < atoi s
    · simp only [value, if_pos positive]
      constructor <;> simp [stringGiven, StringOption.ofLetter, numberGiven, isFlag, positive]
    · simp only [value, if_neg positive]
      exact takes_nothing rfl (numberGiven_none (by simp)) (numberGiven_none (by simp [positive]))
        rfl rfl
  | case12 s => exact takes_nothing rfl rfl rfl rfl rfl
  | case13 key s t m b n u p f k port w l =>
    cases key with
    | letter c =>
      have none : StringOption.ofLetter c = none := by
        fun_cases StringOption.ofLetter c <;> simp_all
      refine takes_nothing ?_ (numberGiven_none ?_) (numberGiven_none ?_) rfl rfl
      · rw [stringGiven, none]
        rfl
      · rintro ⟨rfl, -⟩
        exact k rfl
      · rintro ⟨rfl, -⟩
        exact port rfl
    | arg => exact takes_nothing rfl rfl rfl rfl rfl
    | other => exact takes_nothing rfl rfl rfl rfl rfl
  | case17 key c r v =>
    cases key with
    | letter letter =>
      refine takes_nothing rfl rfl rfl (decide_eq_false ?_) (decide_eq_false ?_)
      · rintro rfl
        exact c rfl
      · rintro rfl
        exact r rfl
    | arg => exact takes_nothing rfl rfl rfl rfl rfl
    | other => exact takes_nothing rfl rfl rfl rfl rfl
  -- what is kept as it is given, and the flags
  | _ => constructor <;> simp [stringGiven, StringOption.ofLetter, numberGiven, isFlag, Options.copy]

end Steps

section Runs

variable {calls : List OptionCall} {field : StringOption}

theorem argpParse_append (calls : List OptionCall) (call : OptionCall) :
    argpParse (calls ++ [call]) = (parseOpt call.1 call.2 (argpParse calls)).2 := by
  rw [argpParse, List.foldl_append]
  rfl

theorem given_append (calls : List OptionCall) (call : OptionCall) :
    given (calls ++ [call]) = given calls ++ (stringGiven call).toList := by
  rw [given, List.filterMap_append, List.filterMap_cons, List.filterMap_nil]
  cases stringGiven call <;> rfl

theorem lastGiven_append (field : StringOption) (calls : List OptionCall) (call : OptionCall) :
    lastGiven field (calls ++ [call]) = match stringGiven call with
      | none => lastGiven field calls
      | some g => if g.1 = field then some g.2 else lastGiven field calls := by
  rw [lastGiven, given_append]
  cases stringGiven call with
  | none =>
    rw [Option.toList_none, List.append_nil]
    rfl
  | some g =>
    rw [Option.toList_some, List.filter_append]
    by_cases same : g.1 = field
    · simp [same]
    · simp [same, lastGiven]

theorem lastNumber_append (read : CString → Int) (c : Char) (default : UInt32)
    (calls : List OptionCall) (call : OptionCall) : lastNumber read c default (calls ++ [call]) =
      (numberGiven read c call).getD (lastNumber read c default calls) := by
  rw [lastNumber, List.filterMap_append, List.filterMap_cons, List.filterMap_nil]
  cases numberGiven read c call with
  | none => rw [List.append_nil]; rfl
  | some n => rw [List.getLast?_concat]; rfl

structure Kept (calls : List OptionCall) (o : Options) : Prop where
  blocks : o.blocks = (given calls).map Prod.snd
  block : ∀ field n, o.strings field = .block n →
    ∃ s, (given calls)[n]? = some (field, s) ∧ lastGiven field calls = some s
  latest : ∀ field n s, (given calls)[n]? = some (field, s) →
    ∃ n', n ≤ n' ∧ o.strings field = .block n'
  other : ∀ field, (∀ n, o.strings field ≠ .block n) →
    o.strings field = Options.start.strings field ∧ lastGiven field calls = none
  clientIdSet : o.clientIdSet = true ↔ ∃ n, o.strings .clientId = .block n

theorem Kept.nothing {o o' : Options} (kept : Kept calls o) (takes : Takes call o o')
    (string : stringGiven call = none) : Kept (calls ++ [call]) o' := by
  obtain ⟨strings, blocks, set, _, _, _, _⟩ := takes
  have all := given_append calls call
  have last := fun field => lastGiven_append field calls call
  simp only [string, Option.elim_none, Option.map_none, Option.toList_none, List.append_nil,
    Option.any_none, Bool.or_false] at strings blocks set all last
  constructor
  case blocks => rw [blocks, all, kept.blocks]
  case block =>
    intro field n
    rw [strings, all, last]
    exact kept.block field n
  case latest =>
    intro field n s
    rw [strings, all]
    exact kept.latest field n s
  case other =>
    intro field
    rw [strings, last]
    exact kept.other field
  case clientIdSet =>
    rw [set, strings]
    exact kept.clientIdSet

theorem Kept.string {o o' : Options} {to' : StringOption} {s' : CString} (kept : Kept calls o)
    (takes : Takes call o o') (string : stringGiven call = some (to', s')) :
    Kept (calls ++ [call]) o' := by
  obtain ⟨strings, blocks, set, _, _, _, _⟩ := takes
  have length : o.blocks.length = (given calls).length := by rw [kept.blocks, List.length_map]
  have all := given_append calls call
  have last := fun field => lastGiven_append field calls call
  simp only [string, Option.elim_some, Option.map_some, Option.toList_some, length,
    Option.any_some] at strings blocks set all last
  constructor
  case blocks =>
    rw [blocks, all, kept.blocks, List.map_append]
    rfl
  case block =>
    intro field n here
    rw [strings] at here
    rw [all, last]
    rcases eq_or_ne to' field with rfl | differ
    · rw [Function.update_self] at here
      cases here
      exact ⟨s', List.getElem?_concat_length, if_pos rfl⟩
    · rw [Function.update_of_ne differ.symm] at here
      obtain ⟨s, lies, found⟩ := kept.block field n here
      refine ⟨s, ?_, ?_⟩
      · rw [List.getElem?_append_left (List.getElem?_eq_some_iff.mp lies).1, lies]
      · rw [if_neg differ, found]
  case latest =>
    intro field n s lies
    rw [strings]
    rw [all] at lies
    have inside := (List.getElem?_eq_some_iff.mp lies).1
    rw [List.length_append, List.length_singleton] at inside
    rcases eq_or_ne to' field with rfl | differ
    · exact ⟨(given calls).length, by omega, Function.update_self _ _ _⟩
    · rw [Function.update_of_ne differ.symm]
      rcases Nat.lt_or_ge n (given calls).length with before | behind
      · rw [List.getElem?_append_left before] at lies
        exact kept.latest field n s lies
      · obtain rfl : n = (given calls).length := by omega
        rw [List.getElem?_concat_length] at lies
        cases lies
        exact absurd rfl differ
  case other =>
    intro field none
    rw [strings] at none ⊢
    rw [last]
    rcases eq_or_ne to' field with rfl | differ
    · exact absurd (Function.update_self _ _ _) (none _)
    · rw [Function.update_of_ne differ.symm] at none ⊢
      rw [if_neg differ]
      exact kept.other field none
  case clientIdSet =>
    rw [set, strings]
    rcases eq_or_ne to' .clientId with rfl | differ
    · simp
    · rw [Function.update_of_ne differ.symm, ← kept.clientIdSet]
      simp [differ]

theorem kept_argpParse (calls : List OptionCall) : Kept calls (argpParse calls) := by
  induction calls using List.reverseRecOn with
  | nil =>
    constructor
    case blocks => rfl
    case block =>
      intro field n same
      cases field <;> cases same
    case latest =>
      intro field n s same
      cases same
    case other => exact fun field _ => ⟨rfl, rfl⟩
    case clientIdSet =>
      constructor
      · intro set
        cases set
      · rintro ⟨n, same⟩
        cases same
  | append_singleton calls call ih =>
    rw [argpParse_append]
    have takes := parseOpt_takes call (argpParse calls)
    cases string : stringGiven call with
    | none => exact ih.nothing takes string
    | some g => exact ih.string takes string

structure Numbers (calls : List OptionCall) (o : Options) : Prop where
  keepalive : o.keepalive = lastNumber atoi 'k' 0 calls
  hostport : o.hostport = lastNumber atoi 's' 1883 calls
  clean : o.clean = !calls.any (isFlag 'c')
  receiveFile : o.receiveFile = calls.any (isFlag 'r')

theorem numbers_argpParse (calls : List OptionCall) : Numbers calls (argpParse calls) := by
  induction calls using List.reverseRecOn with
  | nil => exact ⟨rfl, rfl, rfl, rfl⟩
  | append_singleton calls call ih =>
    rw [argpParse_append]
    obtain ⟨_, _, _, keepalive, hostport, clean, receiveFile⟩ := parseOpt_takes call (argpParse calls)
    constructor
    case keepalive => rw [keepalive, lastNumber_append, ih.keepalive]
    case hostport => rw [hostport, lastNumber_append, ih.hostport]
    case clean => simp [clean, ih.clean]
    case receiveFile => simp [receiveFile, ih.receiveFile]

theorem atoi_eq {s : CString} (fits : -2 ^ 31 ≤ decimal s ∧ decimal s < 2 ^ 31) :
    atoi s = decimal s := by
  rw [atoi, min_eq_left (by omega), max_eq_right (by omega)]
  exact Int.bmod_eq_of_le (by omega) (by omega)

theorem numberGiven_eq {c : Char} (number : c = 'k' ∨ c = 's') {call : OptionCall}
    (fits : NumberFits call) : numberGiven atoi c call = numberGiven decimal c call := by
  obtain ⟨key, arg⟩ := call
  cases key with
  | letter c' =>
    cases arg with
    | none => rfl
    | some s =>
      by_cases same : c' = c
      · subst same
        simp only [numberGiven, atoi_eq (fits number)]
      · simp only [numberGiven, same, false_and, if_false]
  | arg => rfl
  | other => rfl

theorem lastNumber_eq {c : Char} (number : c = 'k' ∨ c = 's') (default : UInt32)
    (fits : ∀ call ∈ calls, NumberFits call) :
    lastNumber atoi c default calls = lastNumber decimal c default calls := by
  rw [lastNumber, lastNumber, List.filterMap_congr fun call mem => numberGiven_eq number (fits call mem)]

end Runs

section Strings

variable {calls : List OptionCall} {m : Memory} {field : StringOption}

theorem append_eq_left (s t : CString) : s.append t = s ↔ t = .empty := by
  rw [CString.append, CString.mk.injEq, CString.empty, CString.mk.injEq, List.append_right_eq_self]

theorem arguments_eq_iff {strings strings' : StringOption → CString} {keepalive hostport : UInt32}
    {clean receiveFile : Bool} : Arguments.of strings keepalive clean hostport receiveFile =
        .of strings' keepalive clean hostport receiveFile ↔
      ∀ field, strings field = strings' field := by
  constructor
  · intro same field
    simp only [Arguments.of, Arguments.mk.injEq] at same
    cases field <;> simp [same]
  · intro same
    rw [funext same]

theorem string_block {n : Nat} {s : CString} (lies : (given calls)[n]? = some (field, s)) :
    (argpParse calls).string m (.block n) = s.append (m.behind n) := by
  have cell : (argpParse calls).blocks[n]? = some s := by
    rw [(kept_argpParse calls).blocks, List.getElem?_map, lies]
    rfl
  rw [Options.string, List.getD_eq_getElem?_getD, cell]
  rfl

theorem string_eq (m : Memory) (calls : List OptionCall) (field : StringOption) :
    (∃ n s, (argpParse calls).strings field = .block n ∧ lastGiven field calls = some s ∧
      (argpParse calls).string m (.block n) = s.append (m.behind n)) ∨
    (∀ n, (argpParse calls).strings field ≠ .block n) ∧ lastGiven field calls = none ∧
      (argpParse calls).string m ((argpParse calls).strings field) =
        if field = .clientId then m.tempClientId else .empty := by
  have kept := kept_argpParse calls
  by_cases block : ∃ n, (argpParse calls).strings field = .block n
  · obtain ⟨n, here⟩ := block
    obtain ⟨s, lies, found⟩ := kept.block field n here
    exact .inl ⟨n, s, here, found, string_block lies⟩
  · have none : ∀ n, (argpParse calls).strings field ≠ .block n := fun n here => block ⟨n, here⟩
    obtain ⟨same, found⟩ := kept.other field none
    refine .inr ⟨none, found, ?_⟩
    rw [same]
    cases field <;> rfl

/-- Main goes on with what its command line says exactly if the byte behind each block
that is still in use is a NUL: `parse_opt` copies none. -/
theorem found_iff (m : Memory) (calls : List OptionCall) (fits : ∀ call ∈ calls, NumberFits call) :
    (argpParse calls).found m = wanted m.tempClientId calls ↔
      ∀ field n, (argpParse calls).strings field = .block n → m.behind n = .empty := by
  obtain ⟨keepalive, hostport, clean, receiveFile⟩ := numbers_argpParse calls
  rw [Options.found, wanted, keepalive, hostport, clean, receiveFile,
    lastNumber_eq (.inl rfl) 0 fits, lastNumber_eq (.inr rfl) 1883 fits, arguments_eq_iff]
  refine forall_congr' fun field => ?_
  rcases string_eq m calls field with ⟨n, s, here, given, found⟩ | ⟨none, given, found⟩
  · rw [here, found, given, Option.getD_some, append_eq_left]
    constructor
    · rintro empty n' ⟨⟩
      exact empty
    · intro empty
      exact empty n rfl
  · rw [found, given, Option.getD_none]
    exact iff_of_true rfl fun n here => absurd here (none n)

theorem found_iff_sample :
    let m : Memory := ⟨.empty, fun _ => .empty⟩
    let calls : List OptionCall :=
      [(.letter 't', some ⟨[0x61, 0x62], by decide⟩), (.letter 'k', some ⟨[0x36, 0x30], by decide⟩)]
    (argpParse calls).found m = wanted .empty calls := by
  intro m calls
  refine (found_iff m calls ?_).mpr fun _ _ _ => rfl
  rintro call mem
  simp only [calls, List.mem_cons, List.not_mem_nil, or_false] at mem
  rcases mem with rfl | rfl
  · rintro (same | same) <;> cases same
  · intro _
    decide

theorem mem_cleanUp {o : Options} {p : Str} : p ∈ o.cleanUp m ↔
    ∃ field ∈ o.cleaned, o.strings field = p ∧ 1 < (o.string m p).strlen := by
  rw [Options.cleanUp, List.mem_flatMap]
  refine exists_congr fun field => and_congr_right fun _ => ?_
  rw [Options.cleans]
  split
  case isTrue long =>
    rw [List.mem_singleton]
    constructor
    · rintro rfl
      exact ⟨rfl, long⟩
    · rintro ⟨rfl, -⟩
      rfl
  case isFalse short =>
    refine iff_of_false List.not_mem_nil ?_
    rintro ⟨rfl, long⟩
    exact short long

theorem mem_cleaned {o : Options} :
    field ∈ o.cleaned ↔ (field = .clientId → o.clientIdSet = true) := by
  rw [Options.cleaned]
  cases o.clientIdSet <;> cases field <;> simp

theorem nodup_cleaned (o : Options) : o.cleaned.Nodup := by
  rw [Options.cleaned]
  cases o.clientIdSet <;> decide

theorem block_of_cleaned (cleaned : field ∈ (argpParse calls).cleaned)
    (long : 1 < ((argpParse calls).string m ((argpParse calls).strings field)).strlen) :
    ∃ n, (argpParse calls).strings field = .block n := by
  rcases string_eq m calls field with ⟨n, s, here, -⟩ | ⟨none, -, found⟩
  · exact ⟨n, here⟩
  · rw [found] at long
    split at long
    case isTrue client =>
      subst client
      exact (kept_argpParse calls).clientIdSet.mp (mem_cleaned.mp cleaned rfl)
    case isFalse => exact absurd long (by decide)

/-- No block is freed twice and nothing else is freed.  What leaks is each block that a later
one of the same option took the place of, and each in which `strlen` finds one byte or none. -/
theorem blocks_freed (m : Memory) (calls : List OptionCall) :
    ((argpParse calls).cleanUp m).Nodup ∧
    (∀ p ∈ (argpParse calls).cleanUp m, ∃ n < (given calls).length, p = .block n) ∧
    ∀ n field s, (given calls)[n]? = some (field, s) →
      (.block n ∈ (argpParse calls).cleanUp m ↔
        (∀ n' s', n < n' → (given calls)[n']? ≠ some (field, s')) ∧
          1 < (s.append (m.behind n)).strlen) := by
  have kept := kept_argpParse calls
  refine ⟨?_, ?_, ?_⟩
  · refine List.nodup_flatMap.mpr ⟨?_, (nodup_cleaned _).imp_of_mem ?_⟩
    · intro field _
      rw [Options.cleans]
      split
      · exact List.nodup_singleton _
      · exact List.nodup_nil
    · intro field field' mem _ differ p first second
      rw [Options.cleans] at first second
      split at first
      case isFalse => cases first
      case isTrue long =>
        split at second
        case isFalse => cases second
        case isTrue =>
          obtain ⟨n, here⟩ := block_of_cleaned mem long
          have same := (List.mem_singleton.mp first).symm.trans (List.mem_singleton.mp second)
          obtain ⟨s, lies, -⟩ := kept.block field n here
          obtain ⟨s', lies', -⟩ := kept.block field' n (same.symm.trans here)
          rw [lies] at lies'
          cases lies'
          exact differ rfl
  · intro p freed
    obtain ⟨field, cleaned, rfl, long⟩ := mem_cleanUp.mp freed
    obtain ⟨n, here⟩ := block_of_cleaned cleaned long
    obtain ⟨s, lies, -⟩ := kept.block field n here
    exact ⟨n, (List.getElem?_eq_some_iff.mp lies).1, here⟩
  · intro n field s lies
    constructor
    · intro freed
      obtain ⟨field', -, here, long⟩ := mem_cleanUp.mp freed
      obtain ⟨s', lies', -⟩ := kept.block field' n here
      rw [lies] at lies'
      cases lies'
      rw [string_block lies] at long
      refine ⟨?_, long⟩
      intro n' s' later lies'
      obtain ⟨n'', behind, there⟩ := kept.latest field n' s' lies'
      rw [here] at there
      cases there
      omega
    · rintro ⟨last, long⟩
      obtain ⟨n', behind, here⟩ := kept.latest field n s lies
      obtain ⟨s', lies', -⟩ := kept.block field n' here
      obtain rfl | later := Nat.eq_or_lt_of_le behind
      · refine mem_cleanUp.mpr ⟨field, mem_cleaned.mpr ?_, here, ?_⟩
        · rintro rfl
          exact kept.clientIdSet.mpr ⟨_, here⟩
        · rw [string_block lies]
          exact long
      · exact absurd lies' (last n' s' later)

end Strings

end CommandLine

end RojalMQTT
