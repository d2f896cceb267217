import RojalMQTT.FixedHeader

/-! The transport of the ports: the receiving threads `socket_receive_thread` and
`prvReceiveTask`, and `socket_write`. -/

namespace RojalMQTT

open Library

def getRemainingsizeLoop (input : Mem) (multiplier : Nat) (pos : 0 < multiplier) (value cnt : Nat) :
    Int :=
  let aByte := input cnt
  let value := u32 (value + u32 ((aByte &&& 127).toNat * multiplier))
  if high : 128 * 128 * 128 < multiplier then -2
  else if aByte &&& 128 ≠ 0 then
    getRemainingsizeLoop input (u32 (multiplier * 128)) (u32_mul_128_pos pos high) value (cnt + 1)
  else int32 (value + (cnt + 1))
termination_by 2 ^ 32 - multiplier
decreasing_by
  rw [u32_of_lt (by omega)]
  omega

def getRemainingsize (input : Ptr Mem) : Int := match input with
  | none => -1
  | some input => getRemainingsizeLoop input 1 Nat.one_pos 0 1

/-- What `recv` returns: at least one byte, and no more than are asked for or still
to come.  `pos` bytes have been read before; as every call reads some, this number
tells the calls apart, and `sizes` is any way of splitting the stream. -/
def recv (sizes : Nat → Nat) (pos : Nat) (stream : List UInt8) (requested : Nat) : List UInt8 :=
  stream.take (max 1 (min (sizes pos) requested))

theorem length_recv_pos (sizes : Nat → Nat) (pos requested : Nat) {stream : List UInt8}
    (h : stream ≠ []) : 0 < (recv sizes pos stream requested).length := by
  have := List.length_pos_iff.mpr h
  rw [recv, List.length_take]
  omega

theorem length_recv_le (h : 0 < requested) : (recv sizes pos stream requested).length ≤ requested := by
  rw [recv, List.length_take]
  omega

/-- The inner loop: `buff` once `remaining_bytes` more are read, and what is left of
the stream.  There is none when the stream ends before, when the block of `buff` is too
small, or when `bytes_read` leaves the range of an `int`. -/
def readRemainingBytes (block : Nat) (sizes : Nat → Nat) (pos : Nat) (stream : List UInt8)
    (remainingBytes : Nat) (buff : List UInt8) : Option (List UInt8 × List UInt8) :=
  if remainingBytes = 0 then some (buff, stream)
  else if _ : stream = [] then none
  else
    let nxt := recv sizes pos stream remainingBytes
    if buff.length + nxt.length ≤ block ∧ buff.length + nxt.length < 2 ^ 31 then
      readRemainingBytes block sizes (pos + nxt.length) (stream.drop nxt.length)
        (remainingBytes - nxt.length) (buff ++ nxt)
    else none
termination_by remainingBytes
decreasing_by
  have := length_recv_pos sizes pos remainingBytes ‹stream ≠ []›
  omega

theorem length_readRemainingBytes
    (h : readRemainingBytes block sizes pos stream remainingBytes buff = some (buff', rest)) :
    rest.length ≤ stream.length := by
  fun_induction readRemainingBytes with
  | case1 => cases h; exact Nat.le_refl _
  | case2 => cases h
  | case3 pos stream remainingBytes buff none ended nxt room ih =>
    have := ih h
    rw [List.length_drop] at this
    omega
  | case4 => cases h

/-- `get_remainingsize(header) - bytes_read`, as an `uint32_t`.  The header buffer of
32 bytes is zero behind the bytes read. -/
def remainingBytes (header : List UInt8) : Nat :=
  ((getRemainingsize (some (ofList header 0)) - header.length) % 2 ^ 32).toNat

def socketReadsMore (remainingBytes : Nat) : Bool := 0 < remainingBytes

def freertosMaxMqttSize : Nat := 1024

def prvReadsMore (remainingBytes : Nat) : Bool :=
  0 < remainingBytes ∧ remainingBytes < freertosMaxMqttSize

inductive Receiver
  | socketReceiveThread
  | prvReceiveTask

namespace Receiver

def readsMore : Receiver → Nat → Bool
  | socketReceiveThread => socketReadsMore
  | prvReceiveTask => prvReadsMore

def safety : Receiver → Nat
  | socketReceiveThread => 1024
  | prvReceiveTask => 128

def blockSize (thread : Receiver) (header : List UInt8) : Nat :=
  u32 (remainingBytes header + header.length + thread.safety)

end Receiver

def receiveLoop (thread : Receiver) (sizes : Nat → Nat) (pos : Nat) (stream : List UInt8) :
    List (List UInt8) :=
  if _ : stream = [] then []
  else
    let header := recv sizes pos stream 31
    let rest := stream.drop header.length
    if 2 ≤ header.length then
      if thread.readsMore (remainingBytes header) then
        match _ : readRemainingBytes (thread.blockSize header) sizes (pos + header.length) rest
            (remainingBytes header) header with
        | none => []
        | some (buff, left) => buff :: receiveLoop thread sizes (pos + buff.length) left
      else header :: receiveLoop thread sizes (pos + header.length) rest
    -- a single byte is not kept
    else receiveLoop thread sizes (pos + header.length) rest
termination_by stream.length
decreasing_by
  all_goals
    have first := length_recv_pos sizes pos 31 ‹stream ≠ []›
    have := List.length_pos_iff.mpr ‹stream ≠ []›
  · have := length_readRemainingBytes ‹_›
    rw [List.length_drop] at this
    omega
  · rw [List.length_drop]
    omega
  · rw [List.length_drop]
    omega

def socketReceiveThread (sizes : Nat → Nat) (stream : List UInt8) : List (List UInt8) :=
  receiveLoop .socketReceiveThread sizes 0 stream

def prvReceiveTask (sizes : Nat → Nat) (stream : List UInt8) : List (List UInt8) :=
  receiveLoop .prvReceiveTask sizes 0 stream

structure SocketWritten where
  accepted : List UInt8
  shuttingDown : Bool

def freertosSend (buffer : Mem) (dataLength : Nat) (accepts : Int) : List UInt8 :=
  (slice buffer 0 dataLength).take accepts.toNat

/-- The loop of `socket_write`, with the results of `FreeRTOS_send` in their order.  It does
not end when there are no more results, or when `lTransmitted` leaves the range of an `int`. -/
def socketWriteLoop (data : Mem) (amount : Nat) : Int → List Int → Option SocketWritten
  | lTransmitted, results =>
    if lTransmitted < amount then
      let xLenToSend := (amount - lTransmitted).toNat
      match results with
      | [] => none
      | lReturned :: results =>
        if 0 ≤ lReturned then
          if lTransmitted + lReturned < 2 ^ 31 then
            (socketWriteLoop data amount (lTransmitted + lReturned) results).map fun w =>
              { w with accepted := freertosSend data xLenToSend lReturned ++ w.accepted }
          else none
        else some { accepted := [], shuttingDown := true }
    else some { accepted := [], shuttingDown := false }

def socketWrite (data : Mem) (amount : Nat) (results : List Int) : Option SocketWritten :=
  socketWriteLoop data amount 0 results

end RojalMQTT
