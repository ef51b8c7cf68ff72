import Sledge.Lib.Checked
import Sledge.Linux.Wire

/-
  The bytes of a packet
  (`packages/linux/src/hyprland/wire.rs`).

  A packet has a fixed size: a header, a body whose layout
  follows the opcode, and zeros.  Decoding is strict, and
  encoding decodes its own result before it is returned.
-/

-----
-- Fields

namespace Sledge.Linux

open Buffer Checked

/- A result of the source, or a panic. -/
abbrev Decoded (α : Type) := Checked IoError α

def packetSize : Nat := 512

/- The bytes of `SHP1`. -/
def shp1 : List UInt8 := [83, 72, 80, 49]

def require (p : Prop) [Decidable p] : Decoded Unit := ensure invalid p

def u16At (b : List UInt8) (p : Nat) : Decoded Nat := natAt 2 b p

def u32At (b : List UInt8) (p : Nat) : Decoded Nat := natAt 4 b p

def u64At (b : List UInt8) (p : Nat) : Decoded Nat := natAt 8 b p

def zero (b : List UInt8) : Decoded Unit := require (¬ ∃ v ∈ b, v ≠ 0)

/- `str::as_bytes` of the source. -/
def asBytes (s : String) : List UInt8 := s.toByteArray.data.toList

def text (b : List UInt8) : Decoded String := do
  require (¬ 0 ∈ b)
  match String.fromUTF8? ⟨b.toArray⟩ with
  | none => fail invalid
  | some s => return s

-----
-- Decoding

def hello (b : List UInt8) : Decoded Identity := do
  let h ← u16At b 8
  let a ← u16At b 10
  let capabilities ← u64At b 0
  -- No capability outside of the mask 15.
  require (h ≤ 192 ∧ a ≤ 192 ∧ capabilities < 16)
  zero (← span b 12 16)
  zero (← span b (16 + h) 208)
  zero (← span b (208 + a) 400)
  let apiHash ← text (← span b 16 (16 + h))
  let artifact ← text (← span b 208 (208 + a))
  return ⟨capabilities, apiHash, artifact⟩

def event (b : List UInt8) : Decoded Event := do
  let len ← u16At b 26
  let kind ← u16At b 24
  let state ← u32At b 4
  let modifiers ← u32At b 12
  require (len ≤ 256 ∧ b.length = 32 + len ∧ kind ≤ 2 ∧
      ¬ (kind = 0 ∧ len ≠ 0) ∧ ¬ (kind ≠ 0 ∧ len = 0) ∧
      state ≤ 2 ∧ modifiers < 256)
  zero (← span b 28 32)
  let key ← u32At b 0
  let timeMs ← u32At b 8
  let focusEpoch ← u64At b 16
  let focus ← text (← span b 32 b.length)
  return ⟨key, state, timeMs, modifiers, focusEpoch, kind, focus⟩

def decision (b : List UInt8) : Decoded Decision := do
  zero (← span b 12 16)
  let key ← u32At b 4
  let modifiers ← u32At b 8
  let verdict ← u32At b 0
  if verdict = 0 ∧ key = 0 ∧ modifiers = 0 then
    return .pass
  else if verdict = 1 ∧ key = 0 ∧ modifiers = 0 then
    return .swallow
  else if verdict = 2 ∧ modifiers < 256 then
    return .replace key modifiers
  else fail invalid

namespace ResultKind

def code : ResultKind → Nat
  | .replaced => 0
  | .rejectedOriginalAdmitted => 1
  | .partialUncertainFatal => 2
  | .timeoutOriginalAdmitted => 3
  | .swallowCommitted => 4
  | .stockConsumed => 5
  | .originalAdmitted => 6
  | .mergedOriginal => 7
  | .lockerOwned => 8
  | .quarantined => 9

def ofCode : Nat → Option ResultKind
  | 0 => some .replaced
  | 1 => some .rejectedOriginalAdmitted
  | 2 => some .partialUncertainFatal
  | 3 => some .timeoutOriginalAdmitted
  | 4 => some .swallowCommitted
  | 5 => some .stockConsumed
  | 6 => some .originalAdmitted
  | 7 => some .mergedOriginal
  | 8 => some .lockerOwned
  | 9 => some .quarantined
  | _ => none

theorem ofCode_eq_some_iff {n : Nat} {kind : ResultKind} :
    ofCode n = some kind ↔ n = kind.code := by
  constructor
  · intro hKind
    unfold ofCode at hKind
    split at hKind <;> cases hKind <;> rfl
  · rintro rfl
    cases kind <;> rfl

theorem code_lt (kind : ResultKind) : kind.code < 10 := by
  cases kind <;> decide

end ResultKind

def outcome (b : List UInt8) : Decoded Outcome := do
  match ResultKind.ofCode (← u32At b 0) with
  | none => fail invalid
  | some result =>
    let reason ← u32At b 4
    let state ← u32At b 12
    require (reason ≤ 7 ∧ state ≤ 2)
    let key ← u32At b 8
    let focusEpoch ← u64At b 16
    return ⟨result, reason, key, state, focusEpoch⟩

/- The body of a reset or of a retirement. -/
def lifecycle (opcode generation : Nat) (b : List UInt8) : Decoded Body := do
  zero (← span b 4 b.length)
  let reason ← u32At b 0
  require (reason ≤ 8 ∧ ¬ (opcode = 8 ∧ reason = 8))
  if opcode = 7 then return .reset reason
  else
    require (generation ≠ 0)
    return .retire reason

def decodeBody (opcode generation : Nat) (b : List UInt8) : Decoded Body :=
  match opcode with
  | 1 => do
      require (b.length = 400)
      return .hello (← hello b)
  | 2 => do
      require (b.length = 400)
      return .helloAck (← hello b)
  | 3 => do
      require (32 ≤ b.length)
      return .event (← event b)
  | 4 => do
      require (b.length = 16)
      return .decision (← decision b)
  | 5 => do
      require (b.length = 24)
      return .outcome (← outcome b)
  | 6 => do
      require (b.length = 16 ∧ generation = 0)
      let d ← decision b
      require (d.isReplace = true)
      return .inject d
  | 7 => do
      require (b.length = 8)
      lifecycle 7 generation b
  | 8 => do
      require (b.length = 8)
      lifecycle 8 generation b
  | 9 => do
      require (b.length = 8)
      let state ← u32At b 0
      let reason ← u32At b 4
      require (state ≤ 2 ∧ reason ≤ 7)
      return .lock state reason
  | _ => fail invalid

def decode (bytes : List UInt8) : Decoded Packet := do
  require (bytes.length = packetSize)
  require ((← span bytes 0 4) = shp1)
  require ((← u16At bytes 4) = 1)
  let len ← u32At bytes 8
  require (len ≤ 448)
  zero (← span bytes 12 16)
  zero (← span bytes 56 64)
  zero (← span bytes (64 + len) bytes.length)
  let b ← span bytes 64 (64 + len)
  let generation ← u64At bytes 16
  let lockEpoch ← u64At bytes 24
  let sequence ← u64At bytes 32
  let deadlineNs ← u64At bytes 40
  let nonce ← u64At bytes 48
  let body ← decodeBody (← u16At bytes 6) generation b
  let scope : Scope :=
    ⟨generation, lockEpoch, sequence, deadlineNs, nonce⟩
  return ⟨scope, body⟩

-----
-- Encoding

/- `u16::try_from` of a length. -/
def u16From (n : Nat) : Decoded Nat := do
  require (n < 2 ^ 16)
  return n

/- The verdict, the key and the modifiers of a decision. -/
def Decision.parts : Decision → Nat × Nat × Nat
  | .pass => (0, 0, 0)
  | .swallow => (1, 0, 0)
  | .replace key modifiers => (2, key, modifiers)

def encodeIdentity (i : Identity) : Decoded (List UInt8) := do
  let h := (asBytes i.apiHash).length
  let a := (asBytes i.artifact).length
  require (h ≤ 192 ∧ a ≤ 192)
  writes (zeros 400) [(0, leBytes 8 i.capabilities), (8, leBytes 2 (← u16From h)),
      (10, leBytes 2 (← u16From a)),
      (16, asBytes i.apiHash),
      (208, asBytes i.artifact)]

def encodeEvent (e : Event) : Decoded (List UInt8) := do
  let len := (asBytes e.focus).length
  require (len ≤ 256)
  writes (zeros (32 + len)) [(0, leBytes 4 e.key), (4, leBytes 4 e.state), (8, leBytes 4 e.timeMs),
      (12, leBytes 4 e.modifiers),
      (16, leBytes 8 e.focusEpoch),
      (24, leBytes 2 e.focusKind),
      (26, leBytes 2 (← u16From len)),
      (32, asBytes e.focus)]

def encodeDecision (d : Decision) : Decoded (List UInt8) :=
  writes (zeros 16) [(0, leBytes 4 d.parts.1), (4, leBytes 4 d.parts.2.1),
      (8, leBytes 4 d.parts.2.2)]

def encodeOutcome (o : Outcome) : Decoded (List UInt8) :=
  writes (zeros 24) [(0, leBytes 4 o.result.code), (4, leBytes 4 o.reason), (8, leBytes 4 o.key),
      (12, leBytes 4 o.state),
      (16, leBytes 8 o.focusEpoch)]

def encodeReason (reason : Nat) : Decoded (List UInt8) := writes (zeros 8) [(0, leBytes 4 reason)]

def encodeLock (state reason : Nat) : Decoded (List UInt8) :=
  writes (zeros 8) [(0, leBytes 4 state), (4, leBytes 4 reason)]

namespace Body

def opcode : Body → Nat
  | .hello _ => 1
  | .helloAck _ => 2
  | .event _ => 3
  | .decision _ => 4
  | .outcome _ => 5
  | .inject _ => 6
  | .reset _ => 7
  | .retire _ => 8
  | .lock _ _ => 9

end Body

def encodeFields : Body → Decoded (List UInt8)
  | .hello i => encodeIdentity i
  | .helloAck i => encodeIdentity i
  | .event e => encodeEvent e
  | .decision d => encodeDecision d
  | .outcome o => encodeOutcome o
  | .inject d => encodeDecision d
  | .reset reason => encodeReason reason
  | .retire reason => encodeReason reason
  | .lock state reason => encodeLock state reason

def encodeBody (body : Body) : Decoded (Nat × List UInt8) := do
  let b ← encodeFields body
  return (body.opcode, b)

/- `u32::try_from` of a length. -/
def u32From (n : Nat) : Decoded Nat := do
  require (n < 2 ^ 32)
  return n

def encode (p : Packet) : Decoded (List UInt8) := do
  let bytes ← writes (zeros packetSize) [(0, shp1), (4, leBytes 2 1),
      (16, leBytes 8 p.scope.generation),
      (24, leBytes 8 p.scope.lockEpoch),
      (32, leBytes 8 p.scope.sequence),
      (40, leBytes 8 p.scope.deadlineNs),
      (48, leBytes 8 p.scope.nonce)]
  let (opcode, body) ← encodeBody p.body
  let bytes ← writes bytes [(6, leBytes 2 opcode), (8, leBytes 4 (← u32From body.length)),
      (64, body)]
  let _ ← decode bytes
  return bytes

end Sledge.Linux
