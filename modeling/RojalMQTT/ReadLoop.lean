import RojalMQTT.TransportLaws
import RojalMQTT.Library.Machine

/-! The receiving threads, whatever `recv` returns. -/

namespace RojalMQTT

open Library

inductive RecvTurn
  /-- It returns `-(code + 1)`. -/
  | fails (code : Nat)
  /-- It stores so many bytes at most, and none once the stream has ended. -/
  | reads (size : Nat)

structure ReadOn where
  buff : Buffer UInt8
  bytesRead : Int
  remainingBytes : Nat
  stream : List UInt8

inductive ReadStop
  | ended
  | outside
  | signedOverflow

namespace RecvTurn

def stores (turn : RecvTurn) (remainingBytes : Nat) (stream : List UInt8) : List UInt8 :=
  match turn with
  | .fails _ => []
  | .reads size => stream.take (min size remainingBytes)

def returns (turn : RecvTurn) (data : List UInt8) : Int :=
  match turn with
  | .fails code => -(code + 1 : Nat)
  | .reads _ => data.length

def lost : RecvTurn → Nat
  | .fails code => code + 1
  | .reads _ => 0

end RecvTurn

def readOn (r : ReadOn) (turn : RecvTurn) : Except ReadStop (List UInt8 × ReadOn) :=
  if r.remainingBytes = 0 then .error .ended
  else if r.bytesRead < 0 then .error .outside
  else
    let data := turn.stores r.remainingBytes r.stream
    let nxtBytesRead := turn.returns data
    let bytesRead := r.bytesRead + nxtBytesRead
    if -2 ^ 31 ≤ bytesRead ∧ bytesRead < 2 ^ 31 then
      .ok (data,
        { buff := r.buff.copy r.bytesRead.toNat data
          bytesRead
          remainingBytes := ((r.remainingBytes - nxtBytesRead) % 2 ^ 32).toNat
          stream := r.stream.drop data.length })
    else .error .signedOverflow

def ReadOn.start (header : List UInt8) (remainingBytes : Nat) (stream : List UInt8) : ReadOn where
  buff := (Buffer.fresh fun _ => 0).copy 0 header
  bytesRead := header.length
  remainingBytes
  stream

def ReadOn.handed (r : ReadOn) : List UInt8 := r.buff.read 0 r.bytesRead.toNat

def lostTo (turns : List RecvTurn) : Nat := (turns.map RecvTurn.lost).sum

theorem lostTo_cons (turn : RecvTurn) (turns : List RecvTurn) :
    lostTo (turn :: turns) = turn.lost + lostTo turns := List.sum_cons

/-- A reader that takes back as many of the bytes it has as a failure says, and has
`size` of them in the end. -/
def RecvTurn.rereads (size : Nat) (turn : RecvTurn) (kept stream : List UInt8) :
    List UInt8 × List UInt8 :=
  match turn with
  | .fails code => (kept.take (kept.length - (code + 1)), stream)
  | .reads wanted =>
    let asked := min wanted (size - kept.length)
    (kept ++ stream.take asked, stream.drop asked)

def reread (size : Nat) : List UInt8 → List UInt8 → List RecvTurn → List UInt8 × List UInt8
  | kept, stream, [] => (kept, stream)
  | kept, stream, turn :: turns =>
    reread size (turn.rereads size kept stream).1 (turn.rereads size kept stream).2 turns

section Steps

variable {r r' : ReadOn} {turn : RecvTurn} {data : List UInt8} {size : Nat}

structure Turned (r : ReadOn) (turn : RecvTurn) (data : List UInt8) (r' : ReadOn) : Prop where
  goes : 0 < r.remainingBytes
  inside : 0 ≤ r.bytesRead
  stores : data = turn.stores r.remainingBytes r.stream
  stream : r.stream = data ++ r'.stream
  asked : data.length ≤ r.remainingBytes
  remaining : r'.remainingBytes + data.length = r.remainingBytes + turn.lost
  read : r'.bytesRead + turn.lost = r.bytesRead + data.length
  buff : r'.buff = r.buff.copy r.bytesRead.toNat data

def ReadOn.Sized (r : ReadOn) (size : Nat) : Prop := r.bytesRead + r.remainingBytes = size

theorem turned_of_readOn (h : readOn r turn = .ok (data, r')) (sized : r.Sized size)
    (small : size < 2 ^ 31) : Turned r turn data r' := by
  rw [readOn] at h
  split at h
  case isTrue => cases h
  case isFalse goes =>
    split at h
    case isTrue => cases h
    case isFalse inside =>
      dsimp only at h
      split at h
      case isFalse => cases h
      case isTrue fits =>
        cases h
        rw [ReadOn.Sized] at sized
        cases turn with
        | fails code =>
          simp only [RecvTurn.returns] at fits
          refine ⟨by omega, by omega, rfl, rfl, Nat.zero_le _, ?_, ?_, rfl⟩
          · change ((r.remainingBytes - -((code + 1 : Nat) : Int)) % 2 ^ 32).toNat + 0 =
              r.remainingBytes + (code + 1)
            omega
          · change r.bytesRead + -((code + 1 : Nat) : Int) + ((code + 1 : Nat) : Int) =
              r.bytesRead + (0 : Nat)
            omega
        | reads wanted =>
          have length : (r.stream.take (min wanted r.remainingBytes)).length ≤ r.remainingBytes := by
            rw [List.length_take]
            omega
          refine ⟨by omega, by omega, rfl, ?_, length, ?_, ?_, rfl⟩
          · exact (List.prefix_iff_eq_append.mp (List.take_prefix _ _)).symm
          · change ((r.remainingBytes - ((r.stream.take (min wanted r.remainingBytes)).length : Int))
              % 2 ^ 32).toNat + (r.stream.take (min wanted r.remainingBytes)).length =
                r.remainingBytes + 0
            omega
          · change r.bytesRead + ((r.stream.take (min wanted r.remainingBytes)).length : Int) +
              (0 : Nat) = _
            rw [Int.natCast_zero, Int.add_zero]
            rfl

theorem Turned.sized (h : Turned r turn data r') (sized : r.Sized size) : r'.Sized size := by
  have remaining := h.remaining
  have read := h.read
  rw [ReadOn.Sized] at sized ⊢
  omega

structure Holds (size : Nat) (kept : List UInt8) (r : ReadOn) : Prop where
  sized : r.Sized size
  length : kept.length = r.bytesRead.toNat
  spells : Spells r.buff.cells 0 kept
  extent : r.buff.extent ≤ size

theorem Holds.handed {kept : List UInt8} (h : Holds size kept r) : r.handed = kept := by
  rw [ReadOn.handed, ← h.length]
  exact Buffer.read_eq_of_spells h.spells

theorem Turned.rereads {kept : List UInt8} (h : Turned r turn data r') (holds : Holds size kept r) :
    Holds size (turn.rereads size kept r.stream).1 r' ∧
      (turn.rereads size kept r.stream).2 = r'.stream := by
  have sized := h.sized holds.sized
  have before := holds.sized
  have inside := h.inside
  have length := holds.length
  have read := h.read
  have asked := h.asked
  rw [ReadOn.Sized] at before
  have here : size - kept.length = r.remainingBytes := by omega
  cases turn with
  | fails code =>
    have none : data = [] := h.stores
    have same : r'.buff = r.buff := by rw [h.buff, none, Buffer.copy_nil]
    have stream : r.stream = r'.stream := by
      rw [h.stream, none]
      rfl
    have spells := holds.spells
    rw [← List.take_append_drop (kept.length - (code + 1)) kept, spells_append] at spells
    rw [none, RecvTurn.lost, List.length_nil] at read
    refine ⟨⟨sized, ?_, ?_, ?_⟩, stream⟩
    · rw [RecvTurn.rereads, List.length_take]
      omega
    · rw [same]
      exact spells.1
    · rw [same]
      exact holds.extent
  | reads wanted =>
    have stored : r.stream.take (min wanted (size - kept.length)) = data := by
      rw [here]
      exact h.stores.symm
    have left : r.stream.drop (min wanted (size - kept.length)) = r'.stream := by
      have both := List.take_append_drop (min wanted (size - kept.length)) r.stream
      rw [stored, h.stream] at both
      rw [h.stream]
      exact List.append_cancel_left both
    have place : r.bytesRead.toNat = 0 + kept.length := by omega
    rw [RecvTurn.lost] at read
    rw [RecvTurn.rereads, stored]
    refine ⟨⟨sized, ?_, ?_, ?_⟩, left⟩
    · rw [List.length_append]
      omega
    · rw [spells_append, h.buff, place]
      exact ⟨Buffer.spells_copy_of_disjoint holds.spells (Or.inl (Nat.le_refl _)),
        Buffer.spells_copy _ _ _⟩
    · rw [h.buff, Buffer.extent_copy_le]
      refine ⟨holds.extent, Or.inr ?_⟩
      omega

end Steps

theorem rereads_append {turn : RecvTurn} (size : Nat) (kept stream : List UInt8)
    (none : turn.lost = 0) :
    (turn.rereads size kept stream).1 ++ (turn.rereads size kept stream).2 = kept ++ stream := by
  cases turn with
  | fails code => cases none
  | reads wanted => rw [RecvTurn.rereads, List.append_assoc, List.take_append_drop]

theorem reread_append {turns : List RecvTurn} (size : Nat) (kept stream : List UInt8)
    (none : lostTo turns = 0) :
    (reread size kept stream turns).1 ++ (reread size kept stream turns).2 = kept ++ stream := by
  induction turns generalizing kept stream with
  | nil => rfl
  | cons turn turns ih =>
    have lost := lostTo_cons turn turns
    rw [reread, ih _ _ (by omega), rereads_append size kept stream (by omega)]

section Runs

variable {r r' : ReadOn} {turns : List RecvTurn} {stored : List (List UInt8)} {size : Nat}

structure Ran (size : Nat) (r : ReadOn) (turns : List RecvTurn) (stored : List (List UInt8))
    (r' : ReadOn) : Prop where
  sized : r'.Sized size
  stream : r.stream = stored.flatten ++ r'.stream
  remaining : r'.remainingBytes + stored.flatten.length = r.remainingBytes + lostTo turns
  read : r'.bytesRead + lostTo turns = r.bytesRead + stored.flatten.length

theorem ran_of_runs (run : Machine.Runs readOn r turns stored r') (small : size < 2 ^ 31)
    (sized : r.Sized size) : Ran size r turns stored r' := by
  induction run with
  | nil => exact ⟨sized, rfl, rfl, rfl⟩
  | @cons r turn data r₁ turns stored r' one rest ih =>
    have first := turned_of_readOn one sized small
    obtain ⟨sized', stream, remaining, read⟩ := ih (first.sized sized)
    have lost := lostTo_cons turn turns
    have before := first.remaining
    have before' := first.read
    refine ⟨sized', ?_, ?_, ?_⟩
    · rw [first.stream, stream, List.flatten_cons, List.append_assoc]
    · rw [lost, List.flatten_cons, List.length_append]
      omega
    · rw [lost, List.flatten_cons, List.length_append]
      omega

theorem holds_of_runs {kept : List UInt8} (run : Machine.Runs readOn r turns stored r')
    (small : size < 2 ^ 31) (holds : Holds size kept r) :
    Holds size (reread size kept r.stream turns).1 r' ∧
      (reread size kept r.stream turns).2 = r'.stream := by
  induction run generalizing kept with
  | nil => exact ⟨holds, rfl⟩
  | @cons r turn data r₁ turns stored r' one rest ih =>
    obtain ⟨next, stream⟩ := (turned_of_readOn one holds.sized small).rereads holds
    rw [reread, stream]
    exact ih next

variable {header rest behind stream : List UInt8} {missing : Nat}

theorem holds_start : Holds (header.length + missing) header (.start header missing stream) := by
  refine ⟨rfl, rfl, Buffer.spells_copy _ _ _, ?_⟩
  rw [ReadOn.start, Buffer.extent_fresh_copy]
  omega

theorem readOn_reads (goes : 0 < r.remainingBytes) (inside : 0 ≤ r.bytesRead) (sized : r.Sized size)
    (small : size < 2 ^ 31) (wanted : Nat) :
    ∃ r', readOn r (.reads wanted) = .ok (r.stream.take (min wanted r.remainingBytes), r') := by
  have length : (r.stream.take (min wanted r.remainingBytes)).length ≤ r.remainingBytes := by
    rw [List.length_take]
    omega
  rw [ReadOn.Sized] at sized
  rw [readOn, if_neg (by omega), if_neg (by omega)]
  dsimp only [RecvTurn.stores, RecvTurn.returns]
  rw [if_pos (by omega)]
  exact ⟨_, rfl⟩

/-- The loop without failures is that of the runs that lose nothing. -/
theorem runs_of_readRemainingBytes {kept kept' left : List UInt8}
    (read : readRemainingBytes block sizes pos stream missing kept = some (kept', left))
    (small : size < 2 ^ 31) : ∀ r, Holds size kept r → 0 ≤ r.bytesRead →
    r.remainingBytes = missing → r.stream = stream →
      ∃ turns stored r', Machine.Runs readOn r turns stored r' ∧ lostTo turns = 0 ∧
        r'.remainingBytes = 0 ∧ r'.handed = kept' ∧ r'.stream = left := by
  fun_induction readRemainingBytes with
  | case1 =>
    cases read
    intro r holds _ remaining same
    exact ⟨[], [], r, .nil, rfl, remaining, holds.handed, same⟩
  | case2 => cases read
  | case3 pos stream missing kept more goes nxt room ih =>
    intro r holds inside remaining same
    have asked : nxt.length ≤ missing := length_recv_le (Nat.pos_of_ne_zero more)
    have taken : nxt = stream.take nxt.length := recv_eq_take sizes pos stream missing
    have sized := holds.sized
    have length := holds.length
    obtain ⟨r', one⟩ := readOn_reads (by omega) inside sized small nxt.length
    rw [same, remaining, Nat.min_eq_left asked, ← taken] at one
    have first := turned_of_readOn one sized small
    obtain ⟨next, stream'⟩ := first.rereads holds
    rw [same, RecvTurn.rereads] at next stream'
    have here : size - kept.length = missing := by
      rw [ReadOn.Sized] at sized
      omega
    rw [here, Nat.min_eq_left asked] at next stream'
    rw [← taken] at next
    have left' := first.remaining
    have read' := first.read
    rw [RecvTurn.lost] at left' read'
    obtain ⟨turns, stored, t, run, none, last⟩ :=
      ih read r' next (by omega) (by omega) stream'.symm
    refine ⟨.reads nxt.length :: turns, nxt :: stored, t, .cons one run, ?_, last⟩
    rw [lostTo_cons, RecvTurn.lost, none]
  | case4 => cases read

/-- What the client is handed is what the reader of the same turns has, nothing is written
behind the packet, and a loop that ends has passed over as many bytes of what follows
the packet as its failures amount to. -/
theorem rest_inStep (size : header.length + rest.length < 2 ^ 31)
    (run : Machine.Runs readOn (.start header rest.length (rest ++ behind)) turns stored r) :
    (r.handed, r.stream) =
      reread (header.length + rest.length) header (rest ++ behind) turns ∧
    r.buff.extent ≤ header.length + rest.length ∧
    (r.remainingBytes = 0 → r.handed.length = header.length + rest.length ∧
      lostTo turns ≤ behind.length ∧ r.stream = behind.drop (lostTo turns)) ∧
    (r.remainingBytes = 0 → lostTo turns = 0 → r.handed = header ++ rest) := by
  obtain ⟨holds, stream⟩ := holds_of_runs run size holds_start
  have all := ran_of_runs run size holds_start.sized
  have sized := all.sized
  have remaining := all.remaining
  have length := holds.length
  have brought := all.stream
  rw [← holds.handed] at length
  rw [ReadOn.Sized] at sized
  simp only [ReadOn.start] at remaining brought
  have last : r.remainingBytes = 0 → stored.flatten.length = rest.length + lostTo turns ∧
      r.stream = behind.drop (lostTo turns) := by
    intro ended
    have count : stored.flatten.length = rest.length + lostTo turns := by omega
    have left := congrArg (List.drop stored.flatten.length) brought
    rw [List.drop_left, count, List.drop_length_add_append] at left
    exact ⟨count, left.symm⟩
  have both : (r.handed, r.stream) =
      reread (header.length + rest.length) header (rest ++ behind) turns := by
    rw [holds.handed, ← stream]
    rfl
  refine ⟨both, holds.extent, ?_, ?_⟩
  · intro ended
    obtain ⟨count, left⟩ := last ended
    have total := congrArg List.length brought
    rw [List.length_append, List.length_append] at total
    exact ⟨by omega, by omega, left⟩
  · intro ended none
    have together := reread_append (header.length + rest.length) header (rest ++ behind) none
    have left := (last ended).2
    rw [none, List.drop_zero] at left
    rw [← both, left, ← List.append_assoc] at together
    exact List.append_cancel_right together

theorem rest_inStep_failed : ∃ stored r,
    Machine.Runs readOn (.start [0x30, 3] 3 ([0, 1, 97] ++ [0x31, 2, 0, 0]))
      [.reads 1, .fails 0, .reads 9] stored r ∧
    (r.handed, r.stream) = ([0x30, 3, 1, 97, 0x31], [2, 0, 0]) := by
  obtain ⟨⟨stored, r⟩, ran, -⟩ := exists_of_any
    (x := Machine.run readOn (.start [0x30, 3] 3 ([0, 1, 97] ++ [0x31, 2, 0, 0]))
      [.reads 1, .fails 0, .reads 9]) (p := fun _ => true) (by decide)
  have run := Machine.Runs.of_run ran
  have size : ([0x30, 3] : List UInt8).length + ([0, 1, 97] : List UInt8).length < 2 ^ 31 := by
    decide
  exact ⟨stored, r, run, (rest_inStep size run).1.trans (by decide)⟩

/-- The loop ends when it has read as many bytes more than it was to read as its failures
amount to, and not before; when the stream has none left, it does not end. -/
theorem rest_ends (size : header.length + missing < 2 ^ 31)
    (run : Machine.Runs readOn (.start header missing stream) turns stored r) :
    (r.remainingBytes = 0 ↔ stored.flatten.length = missing + lostTo turns) ∧
    (stream.length < missing + lostTo turns → 0 < r.remainingBytes ∧
      (0 ≤ r.bytesRead → ∀ wanted, ∃ next, readOn r (.reads wanted) = .ok next)) ∧
    (r.bytesRead < 0 ↔ header.length + stored.flatten.length < lostTo turns) ∧
    (r.bytesRead < 0 → ∀ turn, readOn r turn = .error .outside) := by
  have all := ran_of_runs run size holds_start.sized
  have sized := all.sized
  have remaining := all.remaining
  have read := all.read
  have brought := congrArg List.length all.stream
  rw [ReadOn.Sized] at sized
  rw [List.length_append] at brought
  simp only [ReadOn.start] at remaining read brought
  refine ⟨by omega, ?_, by omega, ?_⟩
  · intro short
    have goes : 0 < r.remainingBytes := by omega
    refine ⟨goes, ?_⟩
    intro inside wanted
    obtain ⟨r', one⟩ := readOn_reads goes inside all.sized size wanted
    exact ⟨_, one⟩
  · intro before turn
    rw [readOn, if_neg (by omega), if_pos before]

theorem rest_ends_never : ∃ stored r,
    Machine.Runs readOn (.start [0x30, 3] 3 [0, 1]) [.reads 9, .reads 9] stored r ∧
    0 < r.remainingBytes ∧
    (0 ≤ r.bytesRead → ∀ wanted, ∃ next, readOn r (.reads wanted) = .ok next) := by
  obtain ⟨⟨stored, r⟩, ran, -⟩ := exists_of_any
    (x := Machine.run readOn (.start [0x30, 3] 3 [0, 1]) [.reads 9, .reads 9])
    (p := fun _ => true) (by decide)
  have run := Machine.Runs.of_run ran
  exact ⟨stored, r, run, (rest_ends (by decide) run).2.1 (by decide)⟩

end Runs

theorem Receiver.pos_of_readsMore (thread : Receiver) {n : Nat} (more : thread.readsMore n = true) :
    0 < n := by
  cases thread with
  | socketReceiveThread => exact of_decide_eq_true more
  | prvReceiveTask => exact (of_decide_eq_true more).1

inductive Reading
  | first (stream : List UInt8)
  | more (r : ReadOn)

/-- A call of `recv`, up to the next one, and what the client is handed.  The `send` of no
bytes behind a short read does not fail. -/
def receiveTurn (thread : Receiver) : Machine Reading RecvTurn (List (List UInt8)) ReadStop
  | .first stream, .fails _ => match thread with
    | .socketReceiveThread => .ok ([], .first stream)
    -- the task gives the socket up
    | .prvReceiveTask => .error .ended
  | .first stream, .reads size =>
    let header := stream.take (min size 31)
    let rest := stream.drop header.length
    if 2 ≤ header.length then
      if thread.readsMore (remainingBytes header) then
        .ok ([], .more (.start header (remainingBytes header) rest))
      else .ok ([header], .first rest)
    else .ok ([], .first rest)
  | .more r, turn => match readOn r turn with
    | .error stop => .error stop
    | .ok (_, r) =>
      if r.remainingBytes = 0 then .ok ([r.handed], .first r.stream) else .ok ([], .more r)

/-- A first read ends with its packet or before, behind what tells the packet's length, or finds
nothing.  Within a packet `recv` does not fail. -/
def Reading.Suits (thread : Receiver) : Reading → RecvTurn → Prop
  | .first _, .fails _ => True
  | .first stream, .reads size => stream.take (min size 31) = [] ∨
    ∃ (p : Frame) (behind : List UInt8), stream = p.bytes ++ behind ∧
      p.ReadBy thread.readsMore (stream.take (min size 31)).length
  | .more _, turn => turn.lost = 0

def Receiver.Hands (thread : Receiver) (ps : List Frame) : List (List UInt8) → Reading → Prop :=
  Machine.Reaches (receiveTurn thread) (fun handed _ o => handed ++ o)
    (fun _ s turn _ _ => s.Suits thread turn) [] (.first (Frame.stream ps))

inductive Lined : List Frame → Reading → Prop
  | first (rest : List Frame) : Lined rest (.first (Frame.stream rest))
  | more (holds : Holds p.bytes.length kept r) (goes : 0 < r.remainingBytes)
      (all : kept ++ r.stream = p.bytes ++ Frame.stream rest) : Lined (p :: rest) (.more r)

theorem Frame.front_unique {p q : Frame} {l l' : List UInt8} (h : p.bytes ++ l = q.bytes ++ l') :
    p = q := by
  have front (p : Frame) (l : List UInt8) :
      Base128.scan (ofList (p.bytes ++ l) 0) 1 4 = some (p.remaining, p.headerSize) := by
    refine Base128.scan_congr p.header fun j _ below => ofList_append_of_lt ?_
    have := p.whole
    omega
  have scanned := front p l
  rw [h, front q l'] at scanned
  obtain ⟨remaining, headerSize⟩ := Prod.mk.inj (Option.some.inj scanned)
  have length : p.bytes.length = q.bytes.length := by rw [p.whole, q.whole, remaining, headerSize]
  obtain ⟨bytes, -⟩ := List.append_inj h length
  cases p
  cases q
  cases bytes
  cases remaining
  cases headerSize
  rfl

section Thread

variable {thread : Receiver} {ps rest : List Frame} {p : Frame} {s s' : Reading} {turn : RecvTurn}
  {o : List (List UInt8)}

theorem lined_front {size : Nat} {header : List UInt8}
    (run : receiveTurn thread (.first (Frame.stream (p :: rest))) (.reads size) = .ok (o, s'))
    (read : (Frame.stream (p :: rest)).take (min size 31) = header)
    (suits : p.ReadBy thread.readsMore header.length) :
    o = [] ∧ Lined (p :: rest) s' ∨ o = [p.bytes] ∧ Lined rest s' := by
  have stream : Frame.stream (p :: rest) = p.bytes ++ Frame.stream rest := List.flatMap_cons
  have prefixed : header = (p.bytes ++ Frame.stream rest).take header.length := by
    rw [← stream, ← read, List.length_take, ← List.take_eq_take_min]
  have both : header ++ (Frame.stream (p :: rest)).drop header.length =
      p.bytes ++ Frame.stream rest := by
    rw [stream]
    exact (congrArg (fun l => l ++ (p.bytes ++ Frame.stream rest).drop header.length) prefixed).trans
      (List.take_append_drop _ _)
  have size := (thread.handedSize_eq_iff suits.first prefixed).mpr suits
  simp only [receiveTurn, read, if_pos suits.first] at run
  rw [Receiver.handedSize] at size
  split at run
  case isTrue more =>
    cases run
    rw [if_pos more] at size
    have holds : Holds p.bytes.length header (.start header (remainingBytes header)
        ((Frame.stream (p :: rest)).drop header.length)) := by
      rw [← size]
      exact holds_start
    exact .inl ⟨rfl, .more holds (thread.pos_of_readsMore more) both⟩
  case isFalse stops =>
    cases run
    rw [if_neg stops] at size
    obtain ⟨rfl, left⟩ := List.append_inj both size
    rw [left]
    exact .inr ⟨rfl, .first rest⟩

theorem lined_more {r : ReadOn} {kept : List UInt8}
    (run : receiveTurn thread (.more r) turn = .ok (o, s')) (none : turn.lost = 0)
    (holds : Holds p.bytes.length kept r) (all : kept ++ r.stream = p.bytes ++ Frame.stream rest) :
    o = [] ∧ Lined (p :: rest) s' ∨ o = [p.bytes] ∧ Lined rest s' := by
  have small : p.bytes.length < 2 ^ 31 := by
    have := p.length_bounds
    omega
  simp only [receiveTurn] at run
  split at run
  case h_1 => cases run
  case h_2 data r' one =>
    obtain ⟨next, stream⟩ := (turned_of_readOn one holds.sized small).rereads holds
    have together := rereads_append p.bytes.length kept r.stream none
    rw [stream, all] at together
    split at run
    case isTrue ended =>
      cases run
      have length := next.length
      have sized := next.sized
      rw [ReadOn.Sized] at sized
      obtain ⟨whole, left⟩ := List.append_inj together (by omega)
      rw [next.handed, whole, left]
      exact .inr ⟨rfl, .first rest⟩
    case isFalse goes =>
      cases run
      exact .inl ⟨rfl, .more next (Nat.pos_of_ne_zero goes) together⟩

theorem Lined.step (lined : Lined rest s) (run : receiveTurn thread s turn = .ok (o, s'))
    (suits : s.Suits thread turn) : ∃ done rest', rest = done ++ rest' ∧ o = done.map Frame.bytes ∧
      Lined rest' s' := by
  have front {p : Frame} {rest : List Frame}
      (h : o = [] ∧ Lined (p :: rest) s' ∨ o = [p.bytes] ∧ Lined rest s') :
      ∃ done rest', p :: rest = done ++ rest' ∧ o = done.map Frame.bytes ∧ Lined rest' s' := by
    rcases h with ⟨rfl, next⟩ | ⟨rfl, next⟩
    · exact ⟨[], _, rfl, rfl, next⟩
    · exact ⟨[p], _, rfl, rfl, next⟩
  cases lined with
  | more holds goes all => exact front (lined_more run suits holds all)
  | first rest =>
    cases turn with
    | fails code =>
      cases thread with
      | socketReceiveThread =>
        cases run
        exact ⟨[], rest, rfl, rfl, .first rest⟩
      | prvReceiveTask => cases run
    | reads size =>
      rcases suits with none | ⟨q, behind, same, suits⟩
      · simp only [receiveTurn, none, List.length_nil] at run
        cases run
        exact ⟨[], rest, rfl, rfl, .first rest⟩
      · cases rest with
        | nil =>
          simp only [receiveTurn, Frame.stream, List.flatMap_nil, List.take_nil,
            List.length_nil] at run
          cases run
          exact ⟨[], [], rfl, rfl, .first []⟩
        | cons p rest =>
          obtain rfl : p = q := Frame.front_unique (List.flatMap_cons.symm.trans same)
          exact front (lined_front run rfl suits)

/-- Failures between the packets, such as timeouts, do no harm: with first reads that suit the
packets and no failure within one, what the client has been handed at any time are the first
packets, whole, each once and in order, and all of them once the stream is read. -/
theorem failures_between {handed : List (List UInt8)} (h : thread.Hands ps handed s) :
    ∃ done rest, ps = done ++ rest ∧ handed = done.map Frame.bytes ∧
      (∀ stream, s = .first stream → stream = Frame.stream rest) ∧ (s = .first [] → rest = []) := by
  have lined : ∃ done rest, ps = done ++ rest ∧ handed = done.map Frame.bytes ∧ Lined rest s := by
    refine h.inv (I := fun handed s => ∃ done rest, ps = done ++ rest ∧
      handed = done.map Frame.bytes ∧ Lined rest s) ⟨[], ps, rfl, rfl, .first ps⟩ ?_
    rintro _ s turn o s' ⟨done, rest, rfl, rfl, lined⟩ run suits
    obtain ⟨more, rest', rfl, rfl, next⟩ := lined.step run suits
    exact ⟨done ++ more, rest', (List.append_assoc _ _ _).symm, List.map_append.symm, next⟩
  obtain ⟨done, rest, same, all, lined⟩ := lined
  have place : ∀ stream, s = .first stream → stream = Frame.stream rest := by
    rintro stream rfl
    cases lined
    rfl
  refine ⟨done, rest, same, all, place, ?_⟩
  intro read
  cases rest with
  | nil => rfl
  | cons p rest =>
    have none := congrArg List.length ((place [] read).trans List.flatMap_cons)
    have length := p.length_bounds
    rw [List.length_append, List.length_nil] at none
    omega

theorem failures_between_sample :
    let pingresp : Frame := ⟨[0xd0, 0], 0, 2, by decide, by decide⟩
    let publish : Frame := ⟨[0x30, 3, 0, 1, 97], 3, 2, by decide, by decide⟩
    ∃ s, Receiver.socketReceiveThread.Hands [pingresp, publish] [[0xd0, 0], [0x30, 3, 0, 1, 97]] s ∧
      ∃ done rest, [pingresp, publish] = done ++ rest ∧
        [[0xd0, 0], [0x30, 3, 0, 1, 97]] = done.map Frame.bytes ∧
        (∀ stream, s = .first stream → stream = Frame.stream rest) ∧
        (s = .first [] → rest = []) := by
  intro pingresp publish
  let thread := Receiver.socketReceiveThread
  have whole : (Reading.first (Frame.stream [pingresp, publish])).Suits thread (.reads 2) :=
    Or.inr ⟨pingresp, _, rfl, by decide, by decide, by decide, by decide⟩
  have first : receiveTurn thread (.first (Frame.stream [pingresp, publish])) (.reads 2) =
      .ok ([[0xd0, 0]], .first (Frame.stream [publish])) := by
    have remaining : remainingBytes [0xd0, 0] = 0 := by decide +kernel
    simp [thread, receiveTurn, Receiver.readsMore, Frame.stream, pingresp, publish, remaining,
      socketReadsMore]
  have timeout : (Reading.first (Frame.stream [publish])).Suits thread (.fails 10) := trivial
  have half : (Reading.first (Frame.stream [publish])).Suits thread (.reads 3) :=
    Or.inr ⟨publish, [], rfl, by decide, by decide, by decide, by decide⟩
  have second : receiveTurn thread (.first (Frame.stream [publish])) (.reads 3) =
      .ok ([], .more (.start [0x30, 3, 0] 2 [1, 97])) := by
    have remaining : remainingBytes [0x30, 3, 0] = 2 := by decide +kernel
    simp [thread, receiveTurn, Receiver.readsMore, Frame.stream, publish, remaining, socketReadsMore]
  have within : (Reading.more (.start [0x30, 3, 0] 2 [1, 97])).Suits thread (.reads 9) := rfl
  have run : thread.Hands [pingresp, publish] _ _ :=
    .step (.step (.step (.step .start first whole) rfl timeout) second half) rfl within
  exact ⟨_, run, failures_between run⟩

end Thread

end RojalMQTT
