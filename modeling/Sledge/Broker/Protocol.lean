import Sledge.Lib.Buffer
import Sledge.Linux.Wire

/-
  The frames between the privileged broker and its client
  (`packages/linux/src/protocol.rs`).

  A frame has a fixed size and no variable part.  A reply
  echoes the device generation, the state epoch and the
  sequence of the request it answers.

  Main results:
    * `Message.read_write`
-/

-----
-- Messages

namespace Sledge.Broker

open Linux (IoError)

/- Raw Linux event fields. -/
structure RawEvent where
  eventType : Nat
  code : Nat
  value : Int
deriving DecidableEq, Repr

namespace RawEvent

/- The default event, which is also `SYN_REPORT`. -/
def default : RawEvent := ⟨0, 0, 0⟩

def isReport (event : RawEvent) : Bool := event.eventType == 0 && event.code == 0

def isDropped (event : RawEvent) : Bool := event.eventType == 0 && event.code == 3

def isKey (event : RawEvent) : Bool := event.eventType == 1

end RawEvent

inductive Operation where
  | event
  | pass
  | swallow
  | replace
  | deviceReset
  | snapshotKey
  | deviceRetire
deriving DecidableEq, Repr

namespace Operation

def code : Operation → Nat
  | .event => 1
  | .pass => 2
  | .swallow => 3
  | .replace => 4
  | .deviceReset => 5
  | .snapshotKey => 6
  | .deviceRetire => 7

def ofCode : Nat → Option Operation
  | 1 => some .event
  | 2 => some .pass
  | 3 => some .swallow
  | 4 => some .replace
  | 5 => some .deviceReset
  | 6 => some .snapshotKey
  | 7 => some .deviceRetire
  | _ => none

/- The two decisions a client may take. -/
def isDecision : Operation → Bool
  | .pass | .swallow => true
  | _ => false

@[simp]
theorem ofCode_code (operation : Operation) : ofCode operation.code = some operation := by
  cases operation <;> rfl

theorem code_lt (operation : Operation) : operation.code < 256 := by
  cases operation <;> decide

end Operation

structure Message where
  operation : Operation
  generation : Nat
  epoch : Nat
  sequence : Nat
  event : RawEvent
deriving DecidableEq, Repr

def denied (message : String) : IoError where
  kind := .permissionDenied
  message := message

/- The error of a frame that is not a message. -/
def invalidFrame : IoError where
  kind := .invalidData
  message := "invalid sledge broker frame"

-----
-- Frames

open Buffer

/- The bytes of `SLG1`. -/
def magic : List UInt8 := [83, 76, 71, 49]

def frameSize : Nat := 40

/- The four bytes of a signed number. -/
def i32Bytes (value : Int) : List UInt8 := leBytes 4 (value % 2 ^ 32).toNat

def i32Of (bytes : List UInt8) : Int :=
  let n := leNat bytes
  if n < 2 ^ 31 then n else n - 2 ^ 32

theorem i32Of_i32Bytes {value : Int} (hLow : -2 ^ 31 ≤ value) (hHigh : value < 2 ^ 31) :
    i32Of (i32Bytes value) = value := by
  have hFits : (value % 2 ^ 32).toNat < 256 ^ 4 := by omega
  rw [i32Of, i32Bytes, leNat_leBytes hFits]
  split <;> omega

namespace Message

/- Every field has the width it is written with. -/
structure Fits (m : Message) : Prop where
  generation : m.generation < 2 ^ 64
  epoch : m.epoch < 2 ^ 64
  sequence : m.sequence < 2 ^ 64
  eventType : m.event.eventType < 2 ^ 16
  code : m.event.code < 2 ^ 16
  low : -2 ^ 31 ≤ m.event.value
  high : m.event.value < 2 ^ 31

def write (m : Message) : List UInt8 :=
  let bytes := zeros frameSize
  let bytes := put bytes 0 magic
  let bytes := put bytes 4 (leBytes 1 m.operation.code)
  let bytes := put bytes 8 (leBytes 8 m.generation)
  let bytes := put bytes 16 (leBytes 8 m.epoch)
  let bytes := put bytes 24 (leBytes 8 m.sequence)
  let bytes := put bytes 32 (leBytes 2 m.event.eventType)
  let bytes := put bytes 34 (leBytes 2 m.event.code)
  put bytes 36 (i32Bytes m.event.value)

/-
  Read one frame from the bytes that arrive in time; a shorter input ends before the frame
  is complete.
-/
def read (bytes : List UInt8) : Except IoError Message :=
  if bytes.length ≠ frameSize then
    .error ⟨.unexpectedEof, "failed to fill whole buffer"⟩
  else if slice bytes 0 4 ≠ magic ∨ slice bytes 5 8 ≠ zeros 3 then
    .error invalidFrame
  else
    match Operation.ofCode (leNat (slice bytes 4 5)) with
    | none => .error invalidFrame
    | some operation =>
      .ok
        { operation := operation
          generation := leNat (slice bytes 8 16)
          epoch := leNat (slice bytes 16 24)
          sequence := leNat (slice bytes 24 32)
          event :=
            { eventType := leNat (slice bytes 32 34)
              code := leNat (slice bytes 34 36)
              value := i32Of (slice bytes 36 40) } }

/- The message is a reply to the request. -/
def answers (m request : Message) : Bool :=
  (m.operation == .pass || m.operation == .swallow || m.operation == .replace) &&
    m.generation == request.generation &&
    m.epoch == request.epoch &&
    m.sequence == request.sequence

@[simp]
theorem length_i32Bytes (value : Int) : (i32Bytes value).length = 4 := length_leBytes 4 _

theorem length_write (m : Message) : m.write.length = frameSize := by
  simp [write, frameSize]

/- The fields of a frame, in the order of the layout. -/
theorem write_fields (m : Message) :
    slice m.write 0 4 = magic ∧ slice m.write 4 5 = leBytes 1 m.operation.code ∧
      slice m.write 5 8 = zeros 3 ∧
      slice m.write 8 16 = leBytes 8 m.generation ∧
      slice m.write 16 24 = leBytes 8 m.epoch ∧
      slice m.write 24 32 = leBytes 8 m.sequence ∧
      slice m.write 32 34 = leBytes 2 m.event.eventType ∧
      slice m.write 34 36 = leBytes 2 m.event.code ∧
      slice m.write 36 40 = i32Bytes m.event.value := by
  have hMagic : magic.length = 4 := rfl
  refine ⟨?_, ?_, ?_, ?_, ?_, ?_, ?_, ?_, ?_⟩ <;>
    simp [write, slice_put_of_disjoint, slice_put_self, slice_zeros, frameSize, hMagic]

/- What is read has the widths of the frame. -/
theorem read_fits {bytes : List UInt8} {m : Message} (hRead : read bytes = .ok m) : m.Fits := by
  unfold read at hRead
  by_cases hLength : bytes.length ≠ frameSize
  · rw [if_pos hLength] at hRead
    cases hRead
  rw [if_neg hLength] at hRead
  rw [not_not] at hLength
  have hBound (start stop : Nat) (hStop : stop ≤ frameSize) :
      leNat (slice bytes start stop) < 256 ^ (stop - start) := by
    have hLt := leNat_lt (slice bytes start stop)
    rwa [length_slice (hLength ▸ hStop)] at hLt
  split_ifs at hRead
  split at hRead
  · cases hRead
  cases hRead
  have hValue := hBound 36 40 (by decide)
  refine
    ⟨hBound 8 16 (by decide), hBound 16 24 (by decide),
      hBound 24 32 (by decide), hBound 32 34 (by decide),
      hBound 34 36 (by decide), ?_, ?_⟩ <;>
    · change leNat (slice bytes 36 40) < 256 ^ 4 at hValue
      simp only [i32Of]
      split_ifs <;> omega

theorem read_write {m : Message} (hFits : m.Fits) : read m.write = .ok m := by
  have hOperation : m.operation.code < 256 ^ 1 := m.operation.code_lt
  have hGeneration : m.generation < 256 ^ 8 := hFits.generation
  have hEpoch : m.epoch < 256 ^ 8 := hFits.epoch
  have hSequence : m.sequence < 256 ^ 8 := hFits.sequence
  have hType : m.event.eventType < 256 ^ 2 := hFits.eventType
  have hCode : m.event.code < 256 ^ 2 := hFits.code
  rcases m.write_fields with ⟨atMagic, atOperation, atReserved, atGeneration, atEpoch,
    atSequence, atType, atCode, atValue⟩
  unfold read
  rw [if_neg (not_not_intro m.length_write), if_neg (by simp [atMagic, atReserved]), atOperation,
    leNat_leBytes hOperation, Operation.ofCode_code,
    atGeneration, leNat_leBytes hGeneration, atEpoch,
    leNat_leBytes hEpoch, atSequence, leNat_leBytes hSequence,
    atType, leNat_leBytes hType, atCode, leNat_leBytes hCode,
    atValue, i32Of_i32Bytes hFits.low hFits.high]

end Message

end Sledge.Broker
