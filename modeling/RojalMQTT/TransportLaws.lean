import RojalMQTT.Transport
import RojalMQTT.FixedHeaderLaws

/-! What the receiving threads hand to the client. -/

namespace RojalMQTT

open Library

theorem getRemainingsizeLoop_eq (input : Mem) (multiplier : Nat) (pos : 0 < multiplier)
    (value cnt : Nat) :
    getRemainingsizeLoop input multiplier pos value cnt =
      match getSizeLoop input multiplier pos value cnt with
      | none => -2
      | some (value, cnt) => int32 (value + cnt) := by
  fun_induction getSizeLoop input multiplier pos value cnt with
  | case1 multiplier pos value cnt high =>
    rw [getRemainingsizeLoop, dif_pos high]
  | case2 multiplier pos value cnt aByte value' high more ih =>
    rw [getRemainingsizeLoop, dif_neg high, if_pos more, ih]
  | case3 multiplier pos value cnt aByte value' high last =>
    rw [getRemainingsizeLoop, dif_neg high, if_neg last]

theorem getRemainingsize_eq (input : Mem) :
    getRemainingsize (some input) = match Base128.scan input 1 4 with
      | none => -2
      | some (value, next) => (value + next : Nat) := by
  have loop := getSizeLoop_eq input 0 4 0 rfl (by decide) (by decide)
  simp only [Nat.pow_zero, Nat.add_zero, Nat.zero_add, Nat.one_mul] at loop
  rw [getRemainingsize, getRemainingsizeLoop_eq, loop]
  cases scanned : Base128.scan input 1 4 with
  | none => rfl
  | some r =>
    have value := Base128.scan_lt scanned
    have next := (Base128.scan_end scanned).2
    simp only [Option.map_some]
    exact int32_of_lt (by omega)

structure SizesAgree (input : Mem) : Prop where
  accepted : ∀ next n, getSize input = (some next, n) →
    getRemainingsize (some input) = (n + next : Nat) ∧ 0 < n + next ∧ n + next < 2 ^ 31
  refused : (getSize input).1 = none → getRemainingsize (some input) = -2
  parsed : FlagsValid (.ofByte (input 0)) → (decodeFixedHeader input).next = (getSize input).1 ∧
    (decodeFixedHeader input).messageSize = (getSize input).2
  framed : ∀ next n, getSize input = (some next, n) → ∀ header, Spells input 0 header →
    next ≤ header.length → header.length ≤ n + next →
      header.length + remainingBytes header = n + next

theorem sizesAgree (input : Mem) : SizesAgree input := by
  have accepted (next n : Nat) (size : getSize input = (some next, n)) :
      Base128.scan input 1 4 = some (n, next) := by
    rw [getSize_eq] at size
    split at size
    case h_1 => cases size
    case h_2 value next' scanned =>
      cases size
      exact scanned
  constructor
  case accepted =>
    intro next n size
    have scanned := accepted next n size
    have value := Base128.scan_lt scanned
    have bounds := Base128.scan_end scanned
    refine ⟨?_, by omega, by omega⟩
    rw [getRemainingsize_eq, scanned]
  case refused =>
    intro none
    rw [getRemainingsize_eq]
    cases scanned : Base128.scan input 1 4 with
    | none => rfl
    | some r =>
      rw [getSize_eq, scanned] at none
      cases none
  case parsed =>
    intro valid
    rw [decodeFixedHeader]
    cases scanned : Base128.scan input 1 4 with
    | none =>
      rw [getSize_none scanned]
      exact ⟨rfl, rfl⟩
    | some r =>
      simp only [getSize_eq, scanned]
      rw [if_pos ⟨Option.some_ne_none _, valid⟩]
      exact ⟨rfl, rfl⟩
  case framed =>
    intro next n size header spells held inside
    have scanned := accepted next n size
    have agree := spells.agreeBelow 0
    have first := Base128.scan_congr scanned fun j _ hj => agree j (by omega)
    have value := Base128.scan_lt scanned
    have bounds := Base128.scan_end scanned
    rw [remainingBytes, getRemainingsize_eq, first]
    simp only
    omega

theorem recv_eq_take (sizes : Nat → Nat) (pos : Nat) (stream : List UInt8) (requested : Nat) :
    recv sizes pos stream requested = stream.take (recv sizes pos stream requested).length := by
  rw [recv, List.length_take, ← List.take_eq_take_min]

theorem length_recv_le_stream (sizes : Nat → Nat) (pos : Nat) (stream : List UInt8)
    (requested : Nat) : (recv sizes pos stream requested).length ≤ stream.length := by
  rw [recv, List.length_take]
  exact Nat.min_le_right _ _

theorem readRemainingBytes_eq (block : Nat) (sizes : Nat → Nat) (pos : Nat) (stream : List UInt8)
    (n : Nat) (buff : List UInt8) :
    readRemainingBytes block sizes pos stream n buff =
      if n ≤ stream.length ∧ (n = 0 ∨ buff.length + n ≤ block ∧ buff.length + n < 2 ^ 31) then
        some (buff ++ stream.take n, stream.drop n)
      else none := by
  fun_induction readRemainingBytes block sizes pos stream n buff with
  | case1 => simp
  | case2 pos n buff more =>
    rw [if_neg]
    rintro ⟨none, -⟩
    exact more (Nat.le_zero.mp none)
  | case3 pos stream n buff more goes nxt room ih =>
    have asked : nxt.length ≤ n := length_recv_le (Nat.pos_of_ne_zero more)
    have there : nxt.length ≤ stream.length := length_recv_le_stream sizes pos stream n
    have read : nxt = stream.take nxt.length := recv_eq_take sizes pos stream n
    have rest : n = nxt.length + (n - nxt.length) := by omega
    have taken : buff ++ nxt ++ (stream.drop nxt.length).take (n - nxt.length) =
        buff ++ stream.take n := by
      conv_rhs => rw [rest, List.take_add, ← read]
      rw [List.append_assoc]
    rw [ih, taken, List.drop_drop, ← rest, List.length_drop, List.length_append]
    congr 1
    rw [eq_iff_iff]
    omega
  | case4 pos stream n buff more goes nxt beyond =>
    have asked : nxt.length ≤ n := length_recv_le (Nat.pos_of_ne_zero more)
    rw [if_neg]
    omega

def Receiver.handedSize (thread : Receiver) (header : List UInt8) : Nat :=
  if thread.readsMore (remainingBytes header) then header.length + remainingBytes header
  else header.length

theorem Receiver.le_blockSize (thread : Receiver) {header : List UInt8}
    (fits : header.length + remainingBytes header < 2 ^ 31) :
    header.length + remainingBytes header ≤ thread.blockSize header := by
  have spare : thread.safety ≤ 1024 := by cases thread <;> decide
  rw [blockSize, u32_of_lt (by omega)]
  omega

theorem receiveLoop_turn (thread : Receiver) (sizes : Nat → Nat) (pos : Nat)
    {stream header : List UInt8} (read : recv sizes pos stream 31 = header) (first : 2 ≤ header.length) :
    receiveLoop thread sizes pos stream =
      if thread.handedSize header ≤ stream.length ∧ thread.handedSize header < 2 ^ 31 then
        stream.take (thread.handedSize header) ::
          receiveLoop thread sizes (pos + thread.handedSize header)
            (stream.drop (thread.handedSize header))
      else [] := by
  have taken : header = stream.take header.length := by
    rw [← read]
    exact recv_eq_take sizes pos stream 31
  have there : header.length ≤ stream.length := by
    rw [← read]
    exact length_recv_le_stream sizes pos stream 31
  have small : header.length ≤ 31 := by
    rw [← read]
    exact length_recv_le (by decide)
  have goes : stream ≠ [] := by
    rintro rfl
    exact absurd there (by rw [List.length_nil]; omega)
  rw [receiveLoop, dif_neg goes]
  simp only [read, if_pos first, Receiver.handedSize]
  by_cases more : thread.readsMore (remainingBytes header) = true
  · simp only [if_pos more]
    have inner := readRemainingBytes_eq (thread.blockSize header) sizes (pos + header.length)
      (stream.drop header.length) (remainingBytes header) header
    rw [List.length_drop] at inner
    have block : header.length + remainingBytes header < 2 ^ 31 →
        header.length + remainingBytes header ≤ thread.blockSize header := thread.le_blockSize
    split
    case h_1 none =>
      rw [read, inner] at none
      split at none
      · cases none
      · rw [if_neg]
        omega
    case h_2 buff left some =>
      rw [read, inner] at some
      split at some
      case isTrue fits =>
        obtain ⟨rfl, rfl⟩ := Prod.mk.inj (Option.some.inj some)
        have whole : header ++ (stream.drop header.length).take (remainingBytes header) =
            stream.take (header.length + remainingBytes header) := by
          rw [List.take_add, ← taken]
        rw [whole, List.drop_drop, List.length_take, Nat.min_eq_left (by omega), if_pos (by omega)]
      case isFalse => cases some
  · simp only [if_neg more]
    rw [if_pos (by omega), ← taken]

theorem Receiver.le_blockSize_iff (thread : Receiver) {header : List UInt8}
    (first : header.length ≤ 31) :
    header.length + remainingBytes header ≤ thread.blockSize header ↔
      header.length ≤ getRemainingsize (some (ofList header 0)) := by
  have spare : 128 ≤ thread.safety ∧ thread.safety ≤ 1024 := by cases thread <;> decide
  have size : -2 ≤ getRemainingsize (some (ofList header 0)) ∧
      getRemainingsize (some (ofList header 0)) < 2 ^ 30 := by
    rw [getRemainingsize_eq]
    cases scanned : Base128.scan (ofList header 0) 1 4 with
    | none => decide
    | some r =>
      have value := Base128.scan_lt scanned
      have next := (Base128.scan_end scanned).2
      simp only
      omega
  constructor
  · intro held
    by_contra passes
    have remaining : remainingBytes header + header.length =
        (getRemainingsize (some (ofList header 0)) + 2 ^ 32).toNat := by
      rw [remainingBytes]
      omega
    rw [blockSize, u32] at held
    omega
  · intro inside
    refine thread.le_blockSize ?_
    rw [remainingBytes]
    omega

theorem receiveLoop_lost (thread : Receiver) (sizes : Nat → Nat) (pos : Nat)
    {stream : List UInt8} (goes : stream ≠ []) (lost : (recv sizes pos stream 31).length < 2) :
    receiveLoop thread sizes pos stream =
      receiveLoop thread sizes (pos + 1) (stream.drop 1) := by
  have one : (recv sizes pos stream 31).length = 1 := by
    have := length_recv_pos sizes pos 31 goes
    omega
  rw [receiveLoop, dif_neg goes]
  simp only [one]
  rw [if_neg (by decide)]

theorem length_receiveLoop_le (thread : Receiver) (sizes : Nat → Nat) (pos : Nat)
    (stream : List UInt8) :
    (receiveLoop thread sizes pos stream).flatten.length ≤ stream.length := by
  induction n : stream.length using Nat.strongRecOn generalizing pos stream with
  | ind n ih =>
    subst n
    by_cases goes : stream = []
    · rw [receiveLoop, dif_pos goes]
      exact Nat.zero_le _
    have := List.length_pos_iff.mpr goes
    rcases Nat.lt_or_ge (recv sizes pos stream 31).length 2 with lost | first
    · rw [receiveLoop_lost thread sizes pos goes lost]
      have rest := ih (stream.drop 1).length (by rw [List.length_drop]; omega) (pos + 1) _ rfl
      rw [List.length_drop] at rest
      omega
    · rw [receiveLoop_turn thread sizes pos rfl first]
      split
      case isTrue fits =>
        have some : 2 ≤ thread.handedSize (recv sizes pos stream 31) := by
          rw [Receiver.handedSize]
          split <;> omega
        have rest := ih (stream.drop (thread.handedSize (recv sizes pos stream 31))).length
          (by rw [List.length_drop]; omega) (pos + thread.handedSize (recv sizes pos stream 31)) _ rfl
        rw [List.flatten_cons, List.length_append, List.length_take]
        rw [List.length_drop] at rest
        omega
      case isFalse => exact Nat.zero_le _

structure Frame where
  bytes : List UInt8
  remaining : Nat
  headerSize : Nat
  header : Base128.scan (ofList bytes 0) 1 4 = some (remaining, headerSize)
  whole : bytes.length = headerSize + remaining

namespace Frame

theorem headerSize_bounds (p : Frame) : 2 ≤ p.headerSize ∧ p.headerSize ≤ 5 := by
  have := Base128.scan_end p.header
  omega

theorem length_bounds (p : Frame) : 2 ≤ p.bytes.length ∧ p.bytes.length < 2 ^ 29 := by
  have := p.headerSize_bounds
  have := Base128.scan_lt p.header
  have := p.whole
  omega

def ofBody (first : UInt8) (body : List UInt8) (fits : body.length < 268435456) : Frame where
  bytes := first :: (Base128.digits body.length ++ body)
  remaining := body.length
  headerSize := (Base128.digits body.length).length + 1
  header := by
    have spells := spells_ofList (first :: (Base128.digits body.length ++ body)) 0
    obtain ⟨-, behind⟩ := (spells_cons _ _ _ _).mp spells
    obtain ⟨digits, -⟩ := (spells_append _ _ _ _).mp behind
    rw [Base128.scan_of_spells digits (length_digits_le_four fits), Nat.zero_add, Nat.add_comm]
  whole := by
    rw [List.length_cons, List.length_append]
    omega

def stream (ps : List Frame) : List UInt8 := ps.flatMap bytes

/-- The first `c` bytes, with zeros behind them, announce the length of the packet:
they hold its header, or all of it but a last digit that is zero. -/
def AnnouncedBy (p : Frame) (c : Nat) : Prop :=
  p.headerSize ≤ c ∨ p.headerSize = c + 1 ∧ ofList p.bytes 0 c = 0

instance (p : Frame) (c : Nat) : Decidable (p.AnnouncedBy c) := inferInstanceAs (Decidable (_ ∨ _))

end Frame

theorem ofList_take_of_lt {l : List UInt8} {c i : Nat} (h : i < c) :
    ofList (l.take c) 0 i = ofList l 0 i := by
  rw [ofList, ofList, List.getElem?_take_of_lt h]

theorem ofList_of_ge {l : List UInt8} {i : Nat} (h : l.length ≤ i) : ofList l 0 i = 0 := by
  rw [ofList, List.getElem?_eq_none h, Option.getD_none]

theorem ofList_append_of_lt {l l' : List UInt8} {i : Nat} (h : i < l.length) :
    ofList (l ++ l') 0 i = ofList l 0 i := by
  rw [ofList, ofList, List.getElem?_append_left h]

theorem Frame.getRemainingsize (p : Frame) (rest : List UInt8) {c : Nat} (first : 2 ≤ c) :
    ∃ n : Nat, RojalMQTT.getRemainingsize (some (ofList ((p.bytes ++ rest).take c) 0)) = n ∧
      n < 2 ^ 29 ∧ (n = p.bytes.length ↔ p.AnnouncedBy c) := by
  have bounds := p.headerSize_bounds
  have length := p.length_bounds
  have whole := p.whole
  have small := Base128.scan_lt p.header
  have front (i : Nat) (hc : i < c) (hp : i < p.bytes.length) :
      ofList ((p.bytes ++ rest).take c) 0 i = ofList p.bytes 0 i := by
    rw [ofList_take_of_lt hc, ofList_append_of_lt hp]
  rw [getRemainingsize_eq]
  rcases Nat.lt_or_ge c p.headerSize with cut | held
  · have zero : ofList ((p.bytes ++ rest).take c) 0 c = 0 :=
      ofList_of_ge (by rw [List.length_take]; omega)
    obtain ⟨v, scanned, le, eq⟩ := Base128.scan_cut p.header (by omega) cut
      (fun j _ hj => front j hj (by omega)) zero
    rw [scanned]
    refine ⟨v + (c + 1), rfl, by omega, ?_⟩
    rw [AnnouncedBy]
    constructor
    · intro same
      have last : p.headerSize = c + 1 := by omega
      exact .inr ⟨last, (eq last).mp (by omega)⟩
    · rintro (held | ⟨last, digit⟩)
      · omega
      · have := (eq last).mpr digit
        omega
  · have scanned := Base128.scan_congr p.header fun j _ hj => front j (by omega) (by omega)
    rw [scanned]
    refine ⟨p.remaining + p.headerSize, rfl, by omega, ?_⟩
    exact iff_of_true (by omega) (.inl held)

/-- A first read of `c` bytes makes the loop hand on exactly this packet. -/
structure Frame.ReadBy (p : Frame) (readsMore : Nat → Bool) (c : Nat) : Prop where
  first : 2 ≤ c
  inside : c ≤ p.bytes.length
  announced : p.AnnouncedBy c
  more : c < p.bytes.length → readsMore (p.bytes.length - c) = true

theorem Receiver.handedSize_eq_iff (thread : Receiver) {p : Frame} {rest header : List UInt8}
    (first : 2 ≤ header.length) (read : header = (p.bytes ++ rest).take header.length) :
    thread.handedSize header = p.bytes.length ↔ p.ReadBy thread.readsMore header.length := by
  obtain ⟨n, size, small, announced⟩ := p.getRemainingsize rest first
  rw [← read] at size
  have length := p.length_bounds
  have bounds := p.headerSize_bounds
  have whole := p.whole
  have remaining : remainingBytes header = (((n : Int) - header.length) % 2 ^ 32).toNat := by
    rw [remainingBytes, size]
  constructor
  · intro handed
    rw [Receiver.handedSize] at handed
    split at handed
    case isTrue more =>
      have same : n = p.bytes.length := by omega
      have left : remainingBytes header = p.bytes.length - header.length := by omega
      exact ⟨first, by omega, announced.mp same, fun _ => by rwa [← left]⟩
    case isFalse =>
      exact ⟨first, by omega, .inl (by omega), fun less => absurd handed (by omega)⟩
  · intro reads
    have inside := reads.inside
    have same := announced.mpr reads.announced
    have left : remainingBytes header = p.bytes.length - header.length := by omega
    rw [Receiver.handedSize, left]
    split
    case isTrue => omega
    case isFalse stops =>
      rcases Nat.eq_or_lt_of_le inside with all | less
      · exact all
      · exact absurd (reads.more less) stops

def InStep (readsMore : Nat → Bool) (sizes : Nat → Nat) : Nat → List Frame → Prop
  | _, [] => True
  | pos, p :: ps =>
    p.ReadBy readsMore (recv sizes pos (Frame.stream (p :: ps)) 31).length ∧
      InStep readsMore sizes (pos + p.bytes.length) ps

theorem receiveLoop_frame (thread : Receiver) (sizes : Nat → Nat) (pos : Nat) (p : Frame)
    (ps : List Frame) :
    receiveLoop thread sizes pos (Frame.stream (p :: ps)) = (p :: ps).map Frame.bytes ↔
      p.ReadBy thread.readsMore (recv sizes pos (Frame.stream (p :: ps)) 31).length ∧
        receiveLoop thread sizes (pos + p.bytes.length) (Frame.stream ps) = ps.map Frame.bytes := by
  have stream : Frame.stream (p :: ps) = p.bytes ++ Frame.stream ps := List.flatMap_cons
  have length := p.length_bounds
  have goes : Frame.stream (p :: ps) ≠ [] := by
    rw [stream]
    exact List.append_ne_nil_of_left_ne_nil (List.length_pos_iff.mp (by omega)) _
  rcases Nat.lt_or_ge (recv sizes pos (Frame.stream (p :: ps)) 31).length 2 with lost | first
  · refine iff_of_false (fun handed => ?_) fun reads => absurd reads.1.first (by omega)
    have all := congrArg (fun l => l.flatten.length) handed
    have most := length_receiveLoop_le thread sizes (pos + 1) ((Frame.stream (p :: ps)).drop 1)
    rw [receiveLoop_lost thread sizes pos goes lost] at all
    rw [List.length_drop] at most
    have sent : ((p :: ps).map Frame.bytes).flatten = Frame.stream (p :: ps) := rfl
    have some := List.length_pos_iff.mpr goes
    simp only [sent] at all
    omega
  · have read := recv_eq_take sizes pos (Frame.stream (p :: ps)) 31
    generalize header : recv sizes pos (Frame.stream (p :: ps)) 31 = h at first read
    rw [stream] at read
    have size := thread.handedSize_eq_iff first read
    rw [receiveLoop_turn thread sizes pos header first, ← size, List.map_cons]
    constructor
    · intro handed
      split at handed
      case isTrue fits =>
        obtain ⟨same, rest⟩ := List.cons.inj handed
        have whole : thread.handedSize h = p.bytes.length := by
          rw [← same, List.length_take, Nat.min_eq_left fits.1]
        rw [whole, stream, List.drop_left] at rest
        exact ⟨whole, rest⟩
      case isFalse => cases handed
    · rintro ⟨whole, rest⟩
      rw [whole, if_pos, stream, List.take_left, List.drop_left, rest]
      rw [stream, List.length_append]
      omega

theorem receiveLoop_iff (thread : Receiver) (sizes : Nat → Nat) (pos : Nat)
    (ps : List Frame) :
    receiveLoop thread sizes pos (Frame.stream ps) = ps.map Frame.bytes ↔
      InStep thread.readsMore sizes pos ps := by
  induction ps generalizing pos with
  | nil =>
    rw [receiveLoop]
    exact iff_of_true rfl trivial
  | cons p ps ih => rw [receiveLoop_frame, ih, InStep]

/-- Both threads hand on the packets, each as it is, exactly if they read in step
with them. -/
theorem handsOn_iff (packets : List Frame) (sizes : Nat → Nat) :
    (socketReceiveThread sizes (Frame.stream packets) = packets.map Frame.bytes ↔
      InStep socketReadsMore sizes 0 packets) ∧
    (prvReceiveTask sizes (Frame.stream packets) = packets.map Frame.bytes ↔
      InStep prvReadsMore sizes 0 packets) :=
  ⟨receiveLoop_iff .socketReceiveThread sizes 0 packets, receiveLoop_iff .prvReceiveTask sizes 0 packets⟩

def Frame.pingresp : Frame := .ofBody 0xD0 [] (by decide)

theorem receive_merges :
    ¬ (socketReceiveThread (fun _ => 4) (Frame.stream [.pingresp, .pingresp]) =
        [Frame.pingresp, .pingresp].map Frame.bytes ∨
      prvReceiveTask (fun _ => 4) (Frame.stream [.pingresp, .pingresp]) =
        [Frame.pingresp, .pingresp].map Frame.bytes) := by
  decide +kernel

section SocketWrite

variable {data : Mem} {amount : Nat} {results : List Int}

def SendResults : Nat → List Int → Prop
  | remaining, [] => remaining = 0
  | remaining, r :: results => 1 ≤ r ∧ r ≤ remaining ∧ SendResults (remaining - r.toNat) results

def Repeats (data : Mem) : Nat → List Int → Prop
  | _, [] => True
  | pos, r :: results =>
    (∀ k < r.toNat, data (pos + k) = data k) ∧ Repeats data (pos + r.toNat) results

theorem socketWriteLoop_eq {remaining transmitted : Nat} (total : transmitted + remaining = amount)
    (accepts : SendResults remaining results) :
    socketWriteLoop data amount transmitted results =
      if remaining = 0 ∨ amount < 2 ^ 31 then
        some { accepted := results.flatMap fun r => slice data 0 r.toNat, shuttingDown := false }
      else none := by
  induction results generalizing remaining transmitted with
  | nil =>
    have done : remaining = 0 := accepts
    rw [socketWriteLoop, if_neg (by omega), if_pos (.inl done)]
    rfl
  | cons r results ih =>
    obtain ⟨some, most, rest⟩ := accepts
    have sent : (transmitted : Int) + r = (transmitted + r.toNat : Nat) := by omega
    have total' : transmitted + r.toNat + (remaining - r.toNat) = amount := by omega
    have next := ih total' rest
    rw [socketWriteLoop, if_pos (by omega)]
    simp only [sent, next]
    rw [if_pos (by omega)]
    by_cases small : amount < 2 ^ 31
    · have given : freertosSend data (amount - transmitted : Int).toNat r = slice data 0 r.toNat :=
        take_slice data 0 (by omega)
      rw [if_pos (by omega), if_pos (.inr small), if_pos (.inr small), given]
      rfl
    · have more : ¬ (remaining = 0 ∨ amount < 2 ^ 31) := by omega
      rw [if_neg more]
      split
      · rw [if_neg]
        · rfl
        · omega
      · rfl

theorem socketWrite_eq (accepts : SendResults amount results) :
    socketWrite data amount results =
      if amount < 2 ^ 31 then
        some { accepted := results.flatMap fun r => slice data 0 r.toNat, shuttingDown := false }
      else none := by
  rw [socketWrite, show (0 : Int) = (0 : Nat) from rfl, socketWriteLoop_eq (Nat.zero_add _) accepts]
  congr 1
  rw [eq_iff_iff]
  omega

theorem flatMap_slice_iff {remaining pos : Nat} (accepts : SendResults remaining results) :
    (results.flatMap fun r => slice data 0 r.toNat) = slice data pos remaining ↔
      Repeats data pos results := by
  induction results generalizing remaining pos with
  | nil =>
    have done : remaining = 0 := accepts
    rw [done]
    exact iff_of_true rfl trivial
  | cons r results ih =>
    obtain ⟨some, most, rest⟩ := accepts
    have split : slice data pos remaining =
        slice data pos r.toNat ++ slice data (pos + r.toNat) (remaining - r.toNat) := by
      rw [← slice_add]
      congr 1
      omega
    have first : slice data 0 r.toNat = slice data pos r.toNat ↔
        ∀ k < r.toNat, data (pos + k) = data k := by
      rw [eq_comm, slice_eq_slice_iff]
      simp only [Nat.zero_add]
    rw [List.flatMap_cons, split, Repeats, ← first, ← ih rest]
    exact List.append_eq_append_iff_of_size_eq_left (by rw [length_slice, length_slice])

/-- `socket_write` sends its argument if one call accepts all of it; otherwise only if the
data begins anew wherever a later call begins. -/
theorem socketWrite_iff (accepts : SendResults amount results) :
    (∃ w, socketWrite data amount results = some w ∧ w.accepted = slice data 0 amount) ↔
      amount < 2 ^ 31 ∧ Repeats data 0 results := by
  rw [socketWrite_eq accepts, ← flatMap_slice_iff accepts]
  by_cases small : amount < 2 ^ 31
  · simp only [small, if_true, Option.some.injEq, exists_eq_left', true_and]
  · simp only [small, if_false, reduceCtorEq, false_and, exists_false]

theorem socketWrite_repeated : ∃ w, socketWrite (ofList [7, 7, 7] 0) 3 [1, 1, 1] = some w ∧
    w.accepted = slice (ofList [7, 7, 7] 0) 0 3 := by
  have accepts : SendResults 3 [1, 1, 1] :=
    ⟨by decide, by decide, by decide, by decide, by decide, by decide, rfl⟩
  refine (socketWrite_iff accepts).mpr ⟨by decide, ?_⟩
  exact ⟨by decide, by decide, by decide, trivial⟩

theorem socketWrite_restarts : SendResults 2 [1, 1] ∧
    ¬ ∃ w, socketWrite (ofList [1, 2] 0) 2 [1, 1] = some w ∧
      w.accepted = slice (ofList [1, 2] 0) 0 2 := by
  refine ⟨⟨by decide, by decide, by decide, by decide, rfl⟩, ?_⟩
  rintro ⟨w, run, sent⟩
  have twice : (socketWrite (ofList [1, 2] 0) 2 [1, 1]).map SocketWritten.accepted = some [1, 1] := by
    decide +kernel
  rw [run, Option.map_some, sent] at twice
  exact absurd twice (by decide)

end SocketWrite

end RojalMQTT
