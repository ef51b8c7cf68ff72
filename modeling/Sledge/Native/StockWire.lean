import Sledge.Native.FocusIdentity
import Sledge.Native.Stream

/-
  The packets the compositor writes and the replies it takes
  (`native/hyprland/stock_wire.hpp` and
  `native/hyprland/focus_identity.hpp`).

  Packets are arrays of 512 bytes.  A focused application is
  patched into an event that has already been written.

  Main results:
    * `Wire.control_eq`
    * `Wire.eventPacket_eq`
    * `Wire.encodeFocus_event`
    * `Wire.hello_eq`
-/

-----
-- Reading Replies

namespace Sledge.Native.Wire

open Linux

open Buffer (slice zeros leBytes leNat)
open Linux (Scope)

def get (packet : List UInt8) (offset count : Nat) : Nat :=
  leNat (slice packet offset (offset + count))

def put (packet : List UInt8) (offset count value : Nat) : List UInt8 :=
  Buffer.put packet offset (leBytes count value)

def zero (packet : List UInt8) (start stop : Nat) : Bool := (slice packet start stop).all (· == 0)

def header (packet : List UInt8) (opcode body : Nat) : Bool :=
  slice packet 0 4 == shp1 && get packet 4 2 == 1 && get packet 6 2 == opcode &&
    get packet 8 4 == body && zero packet 12 16 &&
    zero packet 56 64 && zero packet (64 + body) 512

/- The device, epoch, sequence, deadline and nonce agree. -/
def correlated (request reply : List UInt8) : Bool := slice request 16 56 == slice reply 16 56

/- The keys whose release may be replaced. -/
def releaseKey (key : Nat) : Bool :=
  key == 42 || key == 54 || key == 29 || key == 97 ||
    key == 56 || key == 100 || key == 125 || key == 126

def decision (event reply : List UInt8) (releaseAction : Bool) : Bool :=
  let verdict := get reply 64 4
  let state := get event 68 4
  let key := get event 64 4
  if !header reply 4 16 || !correlated event reply || !zero reply 76 80 then
    false
  else if 2 < verdict then false
  else if 2 < state ∨ (state ≠ 1 ∧ verdict ≠ 0 ∧ ¬ (releaseAction ∧ state = 0 ∧ releaseKey key ∧
          verdict = 2)) then
    false
  else if verdict ≠ 2 then zero reply 68 76
  else
    decide (get reply 68 4 < 768) && decide (get reply 72 4 < 256)

/- The identity is echoed with the capabilities of the Hello. -/
def helloAck (hello ack : List UInt8) : Bool :=
  header ack 2 400 && correlated hello ack && slice hello 64 464 == slice ack 64 464

-----
-- Writing Packets

open Buffer (puts)

inductive Opcode where
  | event
  | outcome
  | reset
  | retire
  | lock
deriving DecidableEq

def Opcode.code : Opcode → Nat
  | .event => 3
  | .outcome => 5
  | .reset => 7
  | .retire => 8
  | .lock => 9

def envelope (opcode : Opcode) (length : Nat) (scope : Scope) : List UInt8 :=
  let packet := zeros 512
  let packet := Buffer.put packet 0 shp1
  let packet := put packet 4 2 1
  let packet := put packet 6 2 opcode.code
  let packet := put packet 8 4 length
  let packet := put packet 16 8 scope.generation
  let packet := put packet 24 8 scope.lockEpoch
  let packet := put packet 32 8 scope.sequence
  let packet := put packet 40 8 scope.deadlineNs
  put packet 48 8 scope.nonce

def control (opcode : Opcode) (scope : Scope) (value : Nat) : Option (List UInt8) :=
  if scope.nonce = 0 ∨ scope.sequence = 0 ∨ scope.deadlineNs = 0 ∨
      (opcode ≠ .reset ∧ opcode ≠ .retire ∧ opcode ≠ .lock) ∨
      (opcode = .lock ∧ (2 < value ∨ scope.generation ≠ 0)) ∨
      (opcode = .reset ∧ (8 < value ∨ (value = 8 ∧ scope.generation ≠ 0))) ∨
      (opcode = .retire ∧ (7 < value ∨ scope.generation = 0)) then
    none
  else some (put (envelope opcode 8 scope) 64 4 value)

def eventPacket (scope : Scope) (key state time mods focus : Nat) : Option (List UInt8) :=
  if scope.generation = 0 ∨ scope.nonce = 0 ∨ scope.sequence = 0 ∨ scope.deadlineNs = 0 ∨
      768 ≤ key ∨ 2 < state ∨ 255 < mods then
    none
  else
    let packet := envelope .event 32 scope
    let packet := put packet 64 4 key
    let packet := put packet 68 4 state
    let packet := put packet 72 4 time
    let packet := put packet 76 4 mods
    some (put packet 80 8 focus)

/- The identifiers of a Hello are printable. -/
def printable (text : List UInt8) : Bool :=
  text.all (fun value =>
    decide (32 ≤ value.toNat ∧ value.toNat ≤ 126))

def hello (nonce : Nat) (hash artifact : List UInt8) : Option (List UInt8) :=
  if nonce = 0 ∨ hash = [] ∨ artifact = [] ∨ 192 < hash.length ∨ 192 < artifact.length ∨
      printable hash = false ∨ printable artifact = false then
    none
  else
    let packet := zeros 512
    let packet := Buffer.put packet 0 shp1
    let packet := put packet 4 2 1
    let packet := put packet 6 2 1
    let packet := put packet 8 4 400
    let packet := put packet 48 8 nonce
    let packet := put packet 72 2 hash.length
    let packet := put packet 74 2 artifact.length
    let packet := Buffer.put packet 80 hash
    some (Buffer.put packet 272 artifact)

/- Patch an event; a refused identity leaves it as it is. -/
def encodeFocus (packet : List UInt8) (kind : Nat) (identity : List UInt8) : List UInt8 × Bool :=
  if ¬ (kind = 1 ∨ kind = 2) ∨ Focus.validFocusIdentity identity ≠ .ok true then
    (packet, false)
  else
    let packet := put packet 8 4 (32 + identity.length)
    let packet := put packet 88 2 kind
    let packet := put packet 90 2 identity.length
    (Buffer.put packet 96 identity, true)

-----
-- The Bytes Of A Packet

open Buffer

open Linux (Packet Body)

/- The writes of an envelope, as a record. -/
def envelopeFields (opcode : Nat) (length : Nat) (scope : Scope) : List (Nat × List UInt8) :=
  [(0, shp1), (4, leBytes 2 1), (6, leBytes 2 opcode), (8, leBytes 4 length)] ++ scope.fields

def wireOpcode : Native.Opcode → Opcode
  | .reset => .reset
  | .retire => .retire
  | .lock => .lock

/- A control packet has the bytes of its body and scope. -/
theorem control_bytes (opcode : Native.Opcode) (scope : Scope) (value : Nat) :
    Buffer.put (envelope (wireOpcode opcode) 8 scope) 64 (leBytes 4 value) =
      (Packet.mk scope (opcode.body value)).bytes := by
  have hBounded : (opcode.body value).Bounded := by
    cases opcode <;> trivial
  rw [Packet.bytes_flat (p := ⟨scope, opcode.body value⟩) hBounded]
  cases opcode with
  | reset | retire => rfl
  | lock =>
    -- The reason of a lock is written as four zeros.
    have hPlaced : Placed 0 (envelopeFields 9 8 scope ++ [(64, leBytes 4 value), (68, leBytes 4 0)])
        512 := by
      simp [envelopeFields, Scope.fields, Placed, shp1]
    have hFilter := puts_filter (n := 512) (· != 68) hPlaced (by
        simp [envelopeFields, Scope.fields]
        exact ⟨4, rfl⟩)
    simp [envelopeFields, Scope.fields] at hFilter
    exact hFilter.symm

/- The encoder writes the packets of the packet model. -/
theorem control_eq (opcode : Native.Opcode) (scope : Scope) (value : Nat) :
    control (wireOpcode opcode) scope value = (Native.control opcode scope value).map Packet.bytes := by
  have hRefused : (scope.nonce = 0 ∨ scope.sequence = 0 ∨ scope.deadlineNs = 0 ∨
        (wireOpcode opcode ≠ .reset ∧ wireOpcode opcode ≠ .retire ∧ wireOpcode opcode ≠ .lock) ∨
        (wireOpcode opcode = .lock ∧ (2 < value ∨ scope.generation ≠ 0)) ∨
        (wireOpcode opcode = .reset ∧ (8 < value ∨ (value = 8 ∧ scope.generation ≠ 0))) ∨
        (wireOpcode opcode = .retire ∧ (7 < value ∨ scope.generation = 0))) ↔
      (unscoped scope || opcode.refuses scope.generation value) =
        true := by
    cases opcode <;>
      simp [wireOpcode, unscoped, Native.Opcode.refuses, or_assoc]
  unfold control Native.control
  by_cases hOut : (unscoped scope || opcode.refuses scope.generation value) = true
  · rw [if_pos (hRefused.mpr hOut), if_pos hOut]
    rfl
  · rw [if_neg (fun hNot => hOut (hRefused.mp hNot)), if_neg hOut]
    exact congrArg some (control_bytes opcode scope value)

/- The fields of an event without a focused application. -/
def keyFields (key state time mods focus : Nat) : List (Nat × List UInt8) :=
  [(64, leBytes 4 key), (68, leBytes 4 state), (72, leBytes 4 time), (76, leBytes 4 mods),
    (80, leBytes 8 focus)]

theorem event_bytes (scope : Scope) (key state time mods focus : Nat) :
    puts (zeros 512) (envelopeFields 3 32 scope ++ keyFields key state time mods focus) =
      (Packet.mk scope (.event ⟨key, state, time, mods, focus, 0, ""⟩)).bytes := by
  have hBounded : (Body.event ⟨key, state, time, mods, focus, 0, ""⟩).Bounded := Nat.zero_le 256
  have hList : (Packet.mk scope (.event ⟨key, state, time, mods, focus, 0, ""⟩)).header ++
        (Event.fields ⟨key, state, time, mods, focus, 0, ""⟩).map (shift 64) =
      envelopeFields 3 32 scope ++ (keyFields key state time mods focus ++
          [(88, zeros 2), (90, zeros 2), (96, zeros 0)]) := by
    have hEmpty : asBytes "" = zeros 0 := rfl
    have hTwo : leBytes 2 0 = zeros 2 := rfl
    simp only [Packet.header, Body.opcode, Body.size, Event.fields, envelopeFields, keyFields,
      shift, hEmpty, hTwo, length_zeros, List.map_cons, List.map_nil, List.cons_append,
      List.nil_append, Nat.reduceAdd]
  have hPlaced : Placed 0 (envelopeFields 3 32 scope ++ (keyFields key state time mods focus ++
          [(88, zeros 2), (90, zeros 2), (96, zeros 0)]))
      512 := by
    simp [envelopeFields, Scope.fields, Placed, shp1, keyFields]
  -- Without a focused application its fields are zeros.
  have hFilter := puts_filter (n := 512) (fun p => decide (p < 88)) hPlaced
      (by simp [envelopeFields, Scope.fields, keyFields])
  have hKept : (envelopeFields 3 32 scope ++ (keyFields key state time mods focus ++
          [(88, zeros 2), (90, zeros 2), (96, zeros 0)])).filter
        (fun field => decide (field.1 < 88)) =
      envelopeFields 3 32 scope ++ keyFields key state time mods focus := by
    simp [envelopeFields, Scope.fields, keyFields]
  rw [Packet.bytes_flat hBounded, Body.fields, hList, packetSize, hFilter, hKept]

theorem eventPacket_eq (scope : Scope) (key state time mods focus : Nat) :
    eventPacket scope key state time mods focus = (Native.eventPacket scope
        ⟨key, state, time, mods, focus, 0, ""⟩).map
        Packet.bytes := by
  have hRefused : (scope.generation = 0 ∨ scope.nonce = 0 ∨
        scope.sequence = 0 ∨ scope.deadlineNs = 0 ∨
        768 ≤ key ∨ 2 < state ∨ 255 < mods) ↔
      (scope.generation == 0 || unscoped scope || decide (keyCount ≤ key) || decide (2 < state) ||
          decide (255 < mods)) =
        true := by
    simp only [unscoped, Bool.or_eq_true, beq_iff_eq, decide_eq_true_eq, or_assoc]
    rfl
  unfold eventPacket Native.eventPacket
  by_cases hOut : (scope.generation == 0 || unscoped scope ||
      decide (keyCount ≤ key) || decide (2 < state) ||
      decide (255 < mods)) =
    true
  · rw [if_pos (hRefused.mpr hOut), if_pos hOut]
    rfl
  · rw [if_neg (fun hNot => hOut (hRefused.mp hNot)), if_neg hOut]
    exact congrArg some (event_bytes scope key state time mods focus)

/- The new length replaces the one that was written first. -/
theorem put_length (base : List UInt8) (scope : Scope) (key state time mods focus length : Nat) :
    put (puts base (envelopeFields 3 32 scope ++ keyFields key state time mods focus)) 8 4 length =
      puts base (envelopeFields 3 length scope ++ keyFields key state time mods focus) := by
  have hApart : ∀ field ∈ scope.fields ++ keyFields key state time mods focus,
      field.1 + field.2.length ≤ 8 ∨ 8 + (leBytes 4 length).length ≤ field.1 := by
    simp [Scope.fields, keyFields]
  have hSame : (leBytes 4 32).length = (leBytes 4 length).length := by
    rw [length_leBytes, length_leBytes]
  simp only [put, envelopeFields, List.append_assoc]
  generalize scope.fields ++ keyFields key state time mods focus = rest at hApart ⊢
  rw [puts_append, puts_append, put_puts_comm hApart]
  congr 1
  exact put_put_same hSame

theorem patch_eq (base identity : List UInt8) (scope : Scope) (key state time mods focus kind : Nat) :
    Buffer.put (put (put (put (puts base (envelopeFields 3 32 scope ++
                  keyFields key state time mods focus))
              8 4 (32 + identity.length))
            88 2 kind)
          90 2 identity.length)
        96 identity =
      puts base ((envelopeFields 3 (32 + identity.length) scope ++
            keyFields key state time mods focus) ++
          [(88, leBytes 2 kind), (90, leBytes 2 identity.length), (96, identity)]) := by
  rw [put_length]
  generalize envelopeFields 3 (32 + identity.length) scope ++ keyFields key state time mods focus =
    first
  rw [puts_append, puts_cons, puts_cons, puts_cons, puts_nil, put, put]

/- The patch writes the event with its focused application. -/
theorem encodeFocus_event {scope : Scope} {key state time mods focus kind : Nat} {text : String}
    (hLength : (asBytes text).length ≤ 256) (hKind : kind = 1 ∨ kind = 2)
    (hText : Focus.validFocusIdentity (asBytes text) = .ok true) :
    encodeFocus (Packet.mk scope (.event ⟨key, state, time, mods, focus, 0, ""⟩)).bytes
        kind (asBytes text) =
      ((Packet.mk scope (.event ⟨key, state, time, mods, focus, kind, text⟩)).bytes, true) := by
  have hBounded : (Body.event ⟨key, state, time, mods, focus, kind, text⟩).Bounded := hLength
  have hAccepted : ¬ (¬ (kind = 1 ∨ kind = 2) ∨ Focus.validFocusIdentity (asBytes text) ≠
      .ok true) := by
    rintro (hNot | hNot)
    · exact hNot hKind
    · exact hNot hText
  have hList : (Packet.mk scope (.event ⟨key, state, time, mods, focus, kind, text⟩)).header ++
        (Event.fields ⟨key, state, time, mods, focus, kind, text⟩).map (shift 64) =
      (envelopeFields 3 (32 + (asBytes text).length) scope ++
          keyFields key state time mods focus) ++
        [(88, leBytes 2 kind), (90, leBytes 2 (asBytes text).length),
          (96, asBytes text)] := by
    simp only [Packet.header, Body.opcode, Body.size, Event.fields, envelopeFields, keyFields,
      shift, List.map_cons, List.map_nil, List.append_assoc, List.cons_append, List.nil_append,
      Nat.reduceAdd]
  rw [← event_bytes, encodeFocus, if_neg hAccepted, Packet.bytes_flat hBounded, Body.fields, hList,
    packetSize]
  dsimp only
  rw [patch_eq]

/- A Hello carries no capability and no scope but its nonce. -/
theorem hello_bytes {nonce : Nat} {hash artifact : String}
    (hBounded : (Body.hello ⟨0, hash, artifact⟩).Bounded) :
    puts (zeros 512) [(0, shp1), (4, leBytes 2 1), (6, leBytes 2 1),
          (8, leBytes 4 400), (48, leBytes 8 nonce),
          (72, leBytes 2 (asBytes hash).length),
          (74, leBytes 2 (asBytes artifact).length),
          (80, asBytes hash),
          (272, asBytes artifact)] =
      (Packet.mk ⟨0, 0, 0, 0, nonce⟩ (.hello ⟨0, hash, artifact⟩)).bytes := by
  have hHash : (asBytes hash).length ≤ 192 := hBounded.apiHash
  have hArtifact : (asBytes artifact).length ≤ 192 := hBounded.artifact
  have hEight : leBytes 8 0 = zeros 8 := rfl
  have hList : (Packet.mk ⟨0, 0, 0, 0, nonce⟩ (.hello ⟨0, hash, artifact⟩)).header ++
        (Identity.fields ⟨0, hash, artifact⟩).map (shift 64) =
      [(0, shp1), (4, leBytes 2 1), (6, leBytes 2 1),
        (8, leBytes 4 400), (16, zeros 8), (24, zeros 8),
        (32, zeros 8), (40, zeros 8), (48, leBytes 8 nonce),
        (64, zeros 8),
        (72, leBytes 2 (asBytes hash).length),
        (74, leBytes 2 (asBytes artifact).length),
        (80, asBytes hash),
        (272, asBytes artifact)] := by
    simp only [Packet.header, Body.opcode, Body.size, Identity.fields, Scope.fields, shift,
      hEight, List.map_cons, List.map_nil, List.cons_append, List.nil_append, Nat.reduceAdd]
  have hPlaced : Placed 0 [(0, shp1), (4, leBytes 2 1), (6, leBytes 2 1),
      (8, leBytes 4 400), (16, zeros 8), (24, zeros 8),
      (32, zeros 8), (40, zeros 8), (48, leBytes 8 nonce),
      (64, zeros 8),
      (72, leBytes 2 (asBytes hash).length),
      (74, leBytes 2 (asBytes artifact).length),
      (80, asBytes hash),
      (272, asBytes artifact)] 512 := by
    simp only [Placed, length_leBytes, length_zeros, shp1, List.length_cons, List.length_nil]
    omega
  have hFilter := puts_filter (n := 512) (fun p => p ∉ [16, 24, 32, 40, 64]) hPlaced (by simp)
  rw [Packet.bytes_flat hBounded, Body.fields, hList, packetSize, hFilter]
  rfl

theorem text_of_printable {bytes : List UInt8} (hPrintable : printable bytes = true) :
    ∃ s, ¬ 0 ∈ bytes ∧ asBytes s = bytes := by
  have hAscii : ∀ byte ∈ bytes, byte.toNat ≠ 0 ∧ byte.toNat < 128 := by
    intro byte hByte
    have hRange := of_decide_eq_true (List.all_eq_true.mp hPrintable byte hByte)
    omega
  rcases Focus.text_ok_of_ascii hAscii with ⟨s, hText⟩
  exact ⟨s, text_ok_iff.mp hText⟩

theorem hello_eq {nonce : Nat} {hash artifact : List UInt8} {packet : List UInt8}
    (hHello : hello nonce hash artifact = some packet) :
    nonce ≠ 0 ∧ ∃ h a, asBytes h = hash ∧ asBytes a = artifact ∧ h ≠ "" ∧ a ≠ "" ∧
          (Identity.mk 0 h a).Valid ∧
          packet = (Packet.mk ⟨0, 0, 0, 0, nonce⟩ (.hello ⟨0, h, a⟩)).bytes := by
  unfold hello at hHello
  split_ifs at hHello with hOut
  push Not at hOut
  rcases hOut with ⟨hNonce, hHash, hArtifact, hHashLength, hArtifactLength,
    hHashText, hArtifactText⟩
  rcases text_of_printable (Bool.eq_true_of_not_eq_false hHashText) with ⟨h, hHashClean, rfl⟩
  rcases text_of_printable (Bool.eq_true_of_not_eq_false hArtifactText) with
    ⟨a, hArtifactClean, rfl⟩
  have hBounded : (Body.hello ⟨0, h, a⟩).Bounded := ⟨hHashLength, hArtifactLength⟩
  refine ⟨hNonce, h, a, rfl, rfl, ?_, ?_, ⟨hBounded, Nat.zero_lt_succ 15, hHashClean,
    hArtifactClean⟩, ?_⟩
  · rintro rfl
    exact hHash rfl
  · rintro rfl
    exact hArtifact rfl
  · rw [← hello_bytes hBounded]
    exact (Option.some.inj hHello).symm

end Sledge.Native.Wire
