import Sledge.Linux.Codec

/-
  The accepted packets and their bytes.

  A packet that meets the wire contract has one encoding, and
  every byte string that is decoded is the encoding of what
  was read.  Decoding looks at no byte outside of its buffer.

  Main results:
    * `decode_iff`
    * `decode_safe`
    * `encode_iff`
    * `codec_bijective`
-/

-----
-- Checks

namespace Sledge.Linux

open Buffer Checked Body

variable {b : List UInt8} {p n : Nat}

@[simp]
theorem require_ok_iff {q : Prop} [Decidable q] {u : Unit} : require q = .ok u ↔ q := ensure_ok_iff

@[simp]
theorem u16At_ok_iff : u16At b p = .ok n ↔ p + 2 ≤ b.length ∧ leNat (slice b p (p + 2)) = n :=
  natAt_ok_iff

@[simp]
theorem u32At_ok_iff : u32At b p = .ok n ↔ p + 4 ≤ b.length ∧ leNat (slice b p (p + 4)) = n :=
  natAt_ok_iff

@[simp]
theorem u64At_ok_iff : u64At b p = .ok n ↔ p + 8 ≤ b.length ∧ leNat (slice b p (p + 8)) = n :=
  natAt_ok_iff

@[simp]
theorem zero_ok_iff {u : Unit} : zero b = .ok u ↔ b = zeros b.length := by
  rw [zero, require_ok_iff]
  constructor
  · intro hNone
    apply eq_zeros_of_forall
    intro v hV
    by_contra hNot
    exact hNone ⟨v, hV, hNot⟩
  · rintro hZeros ⟨v, hV, hNot⟩
    rw [hZeros] at hV
    exact hNot (List.eq_of_mem_replicate hV)

theorem asBytes_inj {s t : String} : asBytes s = asBytes t ↔ s = t := by
  constructor
  · intro hSame
    apply String.toByteArray_inj.mp
    apply ByteArray.ext
    exact Array.toList_inj.mp hSame
  · rintro rfl
    rfl

/- A text is its bytes, none of which is NUL. -/
@[simp]
theorem text_ok_iff {s : String} : text b = .ok s ↔ ¬ 0 ∈ b ∧ asBytes s = b := by
  simp only [text, bind_ok_iff, require_ok_iff, exists_and_left]
  refine and_congr_right fun hClean => ?_
  unfold String.fromUTF8?
  split_ifs with hUtf8
  · simp only [pure_ok_iff, exists_const]
    constructor
    · rintro rfl
      rfl
    · intro hBytes
      apply String.toByteArray_inj.mp
      apply ByteArray.ext
      exact Array.toList_inj.mp hBytes.symm
  · simp only [fail_ne_ok, exists_const, false_iff]
    intro hBytes
    apply hUtf8
    have hSame : (⟨b.toArray⟩ : ByteArray) = s.toByteArray := by
      apply ByteArray.ext
      rw [← hBytes]
      rfl
    rw [hSame]
    exact s.isValidUTF8

-----
-- The Wire Contract

/- The fields have the widths of their types. -/
structure Scope.Fits (s : Scope) : Prop where
  generation : s.generation < 2 ^ 64
  lockEpoch : s.lockEpoch < 2 ^ 64
  sequence : s.sequence < 2 ^ 64
  deadlineNs : s.deadlineNs < 2 ^ 64
  nonce : s.nonce < 2 ^ 64

structure Event.Fits (e : Event) : Prop where
  key : e.key < 2 ^ 32
  state : e.state < 2 ^ 32
  timeMs : e.timeMs < 2 ^ 32
  modifiers : e.modifiers < 2 ^ 32
  focusEpoch : e.focusEpoch < 2 ^ 64
  focusKind : e.focusKind < 2 ^ 16

structure Outcome.Fits (o : Outcome) : Prop where
  reason : o.reason < 2 ^ 32
  key : o.key < 2 ^ 32
  state : o.state < 2 ^ 32
  focusEpoch : o.focusEpoch < 2 ^ 64

def Decision.Fits : Decision → Prop
  | .replace key modifiers => key < 2 ^ 32 ∧ modifiers < 2 ^ 32
  | _ => True

def Body.Fits : Body → Prop
  | .hello i => i.capabilities < 2 ^ 64
  | .helloAck i => i.capabilities < 2 ^ 64
  | .event e => e.Fits
  | .decision d => d.Fits
  | .outcome o => o.Fits
  | .inject d => d.Fits
  | .reset reason => reason < 2 ^ 32
  | .retire reason => reason < 2 ^ 32
  | .lock state reason => state < 2 ^ 32 ∧ reason < 2 ^ 32

structure Packet.Fits (p : Packet) : Prop where
  scope : p.scope.Fits
  body : p.body.Fits

/- Texts are bounded where they are written. -/
structure Identity.Bounded (i : Identity) : Prop where
  apiHash : (asBytes i.apiHash).length ≤ 192
  artifact : (asBytes i.artifact).length ≤ 192

def Body.Bounded : Body → Prop
  | .hello i => i.Bounded
  | .helloAck i => i.Bounded
  | .event e => (asBytes e.focus).length ≤ 256
  | _ => True

/- What the decoder asks of an identity. -/
structure Identity.Valid (i : Identity) : Prop where
  bounded : i.Bounded
  capabilities : i.capabilities < 16
  apiHash : ¬ 0 ∈ asBytes i.apiHash
  artifact : ¬ 0 ∈ asBytes i.artifact

structure Event.Valid (e : Event) : Prop where
  fits : e.Fits
  state : e.state ≤ 2
  modifiers : e.modifiers < 256
  focusKind : e.focusKind ≤ 2
  none : e.focusKind = 0 ↔ e.focus = ""
  length : (asBytes e.focus).length ≤ 256
  focus : ¬ 0 ∈ asBytes e.focus

def Decision.Valid : Decision → Prop
  | .replace key modifiers => key < 2 ^ 32 ∧ modifiers < 256
  | _ => True

structure Outcome.Valid (o : Outcome) : Prop where
  fits : o.Fits
  reason : o.reason ≤ 7
  state : o.state ≤ 2

def Body.Valid (generation : Nat) : Body → Prop
  | .hello i => i.Valid
  | .helloAck i => i.Valid
  | .event e => e.Valid
  | .decision d => d.Valid
  | .outcome o => o.Valid
  | .inject d => generation = 0 ∧ d.isReplace = true ∧ d.Valid
  | .reset reason => reason ≤ 8
  | .retire reason => generation ≠ 0 ∧ reason < 8
  | .lock state reason => state ≤ 2 ∧ reason ≤ 7

structure Packet.Valid (p : Packet) : Prop where
  scope : p.scope.Fits
  body : p.body.Valid p.scope.generation

theorem Body.Valid.fits {generation : Nat} {body : Body} (hValid : body.Valid generation) :
    body.Fits := by
  cases body with
  | hello i | helloAck i => exact hValid.capabilities.trans (by decide)
  | event e => exact Event.Valid.fits hValid
  | decision d =>
    cases d with
    | replace key modifiers => exact ⟨hValid.1, hValid.2.trans (by decide)⟩
    | _ => trivial
  | outcome o => exact Outcome.Valid.fits hValid
  | inject d =>
    cases d with
    | replace key modifiers => exact ⟨hValid.2.2.1, hValid.2.2.2.trans (by decide)⟩
    | _ => trivial
  | reset reason => exact lt_of_le_of_lt hValid (by decide)
  | retire reason => exact hValid.2.trans (by decide)
  | lock state reason =>
    exact
      ⟨lt_of_le_of_lt hValid.1 (by decide),
        lt_of_le_of_lt hValid.2 (by decide)⟩

theorem Body.Valid.bounded {generation : Nat} {body : Body} (hValid : body.Valid generation) :
    body.Bounded := by
  cases body with
  | hello i | helloAck i => exact Identity.Valid.bounded hValid
  | event e => exact hValid.length
  | _ => trivial

theorem Packet.Valid.fits {p : Packet} (hValid : p.Valid) : p.Fits :=
  ⟨hValid.scope, hValid.body.fits⟩

-----
-- Layouts

def Identity.fields (i : Identity) : List (Nat × List UInt8) :=
  [(0, leBytes 8 i.capabilities), (8, leBytes 2 (asBytes i.apiHash).length),
    (10, leBytes 2 (asBytes i.artifact).length),
    (16, asBytes i.apiHash),
    (208, asBytes i.artifact)]

def Event.fields (e : Event) : List (Nat × List UInt8) :=
  [(0, leBytes 4 e.key), (4, leBytes 4 e.state), (8, leBytes 4 e.timeMs),
    (12, leBytes 4 e.modifiers),
    (16, leBytes 8 e.focusEpoch),
    (24, leBytes 2 e.focusKind),
    (26, leBytes 2 (asBytes e.focus).length),
    (32, asBytes e.focus)]

def Decision.fields (d : Decision) : List (Nat × List UInt8) :=
  [(0, leBytes 4 d.parts.1), (4, leBytes 4 d.parts.2.1), (8, leBytes 4 d.parts.2.2)]

def Outcome.fields (o : Outcome) : List (Nat × List UInt8) :=
  [(0, leBytes 4 o.result.code), (4, leBytes 4 o.reason), (8, leBytes 4 o.key),
    (12, leBytes 4 o.state),
    (16, leBytes 8 o.focusEpoch)]

namespace Body

def fields : Body → List (Nat × List UInt8)
  | .hello i => i.fields
  | .helloAck i => i.fields
  | .event e => e.fields
  | .decision d => d.fields
  | .outcome o => o.fields
  | .inject d => d.fields
  | .reset reason => [(0, leBytes 4 reason)]
  | .retire reason => [(0, leBytes 4 reason)]
  | .lock state reason => [(0, leBytes 4 state), (4, leBytes 4 reason)]

def size : Body → Nat
  | .hello _ => 400
  | .helloAck _ => 400
  | .event e => 32 + (asBytes e.focus).length
  | .decision _ => 16
  | .outcome _ => 24
  | .inject _ => 16
  | .reset _ => 8
  | .retire _ => 8
  | .lock _ _ => 8

def bytes (body : Body) : List UInt8 := puts (zeros body.size) body.fields

@[simp]
theorem length_bytes (body : Body) : body.bytes.length = body.size := by
  rw [bytes, length_puts, length_zeros]

theorem placed {body : Body} (hBounded : body.Bounded) : Placed 0 body.fields body.size := by
  cases body with
  | hello i | helloAck i =>
    have hHash := hBounded.apiHash
    have hArtifact := hBounded.artifact
    simp only [fields, Identity.fields, size, Placed, length_leBytes]
    omega
  | _ => simp [fields, Event.fields, Decision.fields, Outcome.fields, size, Placed]

theorem size_le {body : Body} (hBounded : body.Bounded) : body.size ≤ 448 := by
  cases body with
  | event e =>
    have hLength : (asBytes e.focus).length ≤ 256 := hBounded
    rw [size]
    omega
  | _ => simp [size]

end Body

namespace Scope

def fields (s : Scope) : List (Nat × List UInt8) :=
  [(16, leBytes 8 s.generation), (24, leBytes 8 s.lockEpoch), (32, leBytes 8 s.sequence),
    (40, leBytes 8 s.deadlineNs),
    (48, leBytes 8 s.nonce)]

end Scope

namespace Packet

def fields (p : Packet) : List (Nat × List UInt8) :=
  [(0, shp1), (4, leBytes 2 1)] ++ ([(6, leBytes 2 p.body.opcode), (8, leBytes 4 p.body.size)] ++
      (p.scope.fields ++ [(64, p.body.bytes)]))

def bytes (p : Packet) : List UInt8 := puts (zeros packetSize) p.fields

theorem placed {p : Packet} (hBounded : p.body.Bounded) : Placed 0 p.fields packetSize := by
  have hSize := size_le hBounded
  simp only [fields, Scope.fields, List.cons_append, List.nil_append, Placed, length_leBytes, shp1,
    List.length_cons, List.length_nil, length_bytes, packetSize]
  omega

/- What a packet holds before its body. -/
def header (p : Packet) : List (Nat × List UInt8) :=
  [(0, shp1), (4, leBytes 2 1), (6, leBytes 2 p.body.opcode), (8, leBytes 4 p.body.size)] ++
      p.scope.fields

/- The fields of the body, at their place in the packet. -/
theorem bytes_flat {p : Packet} (hBounded : p.body.Bounded) :
    p.bytes = puts (zeros packetSize) (p.header ++ p.body.fields.map (shift 64)) := by
  have hBody : ∀ field ∈ p.body.fields, field.1 + field.2.length ≤ (zeros p.body.size).length := by
    rw [length_zeros]
    exact (Body.placed hBounded).within
  have hHeader : ∀ field ∈ p.header, field.1 + field.2.length ≤ 64 ∨
      64 + (zeros p.body.size).length ≤ field.1 := by
    simp [header, Scope.fields, shp1]
  have hFields : p.fields = p.header ++ [(64, p.body.bytes)] := by
    simp only [fields, header, List.cons_append, List.nil_append]
  calc p.bytes = put (puts (zeros packetSize) p.header) 64
          p.body.bytes := by
        rw [bytes, hFields, puts_append]
        rfl
    _ = puts (put (puts (zeros packetSize) p.header) 64 (zeros p.body.size))
          (p.body.fields.map (shift 64)) :=
        put_puts_nested hBody
    _ = puts (puts (zeros packetSize) p.header) (p.body.fields.map (shift 64)) := by
        rw [put_puts_comm hHeader, put_zeros]
    _ = puts (zeros packetSize) (p.header ++ p.body.fields.map (shift 64)) := puts_append.symm

end Packet

-----
-- Reading The Layouts

theorem zero_slice_iff {start stop : Nat} {u : Unit} (hStop : stop ≤ b.length) :
    zero (slice b start stop) = .ok u ↔ slice b start stop = zeros (stop - start) := by
  rw [zero_ok_iff, length_slice hStop]

theorem Decision.holds_iff {d : Decision} (hFits : d.Fits) (hLength : b.length = 16) :
    Holds b 0 d.fields 16 ↔ leNat (slice b 0 4) = d.parts.1 ∧ leNat (slice b 4 8) = d.parts.2.1 ∧
        leNat (slice b 8 12) = d.parts.2.2 ∧
        slice b 12 16 = zeros 4 := by
  have hParts : d.parts.1 < 256 ^ 4 ∧ d.parts.2.1 < 256 ^ 4 ∧ d.parts.2.2 < 256 ^ 4 := by
    cases d with
    | replace key modifiers =>
      have hTwo : 2 < 256 ^ 4 := by decide
      exact ⟨hTwo, hFits.1, hFits.2⟩
    | _ => decide
  rcases hParts with ⟨hVerdict, hKey, hModifiers⟩
  simp only [fields, Holds, length_leBytes, slice_self,
    Nat.reduceAdd, Nat.reduceSub, Nat.sub_self, true_and]
  rw [slice_eq_leBytes_iff 4 (by omega) rfl hVerdict,
    slice_eq_leBytes_iff 4 (by omega) rfl hKey,
    slice_eq_leBytes_iff 4 (by omega) rfl hModifiers]

/- What is read as a decision is laid out like it. -/
theorem decision_iff {d : Decision} (hLength : b.length = 16) :
    decision b = .ok d ↔ d.Valid ∧ Holds b 0 d.fields 16 := by
  have hRoom : 16 ≤ b.length := hLength.ge
  simp only [decision, bind_ok_iff, span_ok_iff, u32At_ok_iff, hLength, Nat.reduceAdd,
    Nat.reduceLeDiff, true_and, exists_eq_left', zero_slice_iff hRoom, exists_const, Nat.reduceSub]
  constructor
  · rintro ⟨hZero, hRead⟩
    split_ifs at hRead with hPass hSwallow hReplace
    · cases hRead
      refine ⟨trivial, ?_⟩
      rw [Decision.holds_iff (d := .pass) trivial hLength]
      exact ⟨hPass.1, hPass.2.1, hPass.2.2, hZero⟩
    · cases hRead
      refine ⟨trivial, ?_⟩
      rw [Decision.holds_iff (d := .swallow) trivial hLength]
      exact ⟨hSwallow.1, hSwallow.2.1, hSwallow.2.2, hZero⟩
    · cases hRead
      have hKey : leNat (slice b 4 8) < 2 ^ 32 := leNat_slice_lt (by omega)
      have hFits : Decision.Fits (.replace (leNat (slice b 4 8)) (leNat (slice b 8 12))) :=
        ⟨hKey, hReplace.2.trans (by decide)⟩
      refine ⟨⟨hKey, hReplace.2⟩, ?_⟩
      rw [Decision.holds_iff hFits hLength]
      exact ⟨hReplace.1, rfl, rfl, hZero⟩
    · exact absurd hRead fail_ne_ok
  · rintro ⟨hValid, hHolds⟩
    have hFits : d.Fits := by
      have hBody : (Body.decision d).Valid 0 := hValid
      exact hBody.fits
    rw [Decision.holds_iff hFits hLength] at hHolds
    rcases hHolds with ⟨hVerdict, hKey, hModifiers, hZero⟩
    refine ⟨hZero, ?_⟩
    rw [hVerdict, hKey, hModifiers]
    cases d with
    | pass | swallow => rfl
    | replace key modifiers =>
      have hMask : modifiers < 256 := hValid.2
      simp [Decision.parts, hMask]

theorem Outcome.holds_iff {o : Outcome} (hFits : o.Fits) (hLength : b.length = 24) :
    Holds b 0 o.fields 24 ↔ leNat (slice b 0 4) = o.result.code ∧ leNat (slice b 4 8) = o.reason ∧
        leNat (slice b 8 12) = o.key ∧
        leNat (slice b 12 16) = o.state ∧
        leNat (slice b 16 24) = o.focusEpoch := by
  have hResult : o.result.code < 256 ^ 4 := o.result.code_lt.trans (by decide)
  simp only [fields, Holds, length_leBytes, slice_self,
    Nat.reduceAdd, Nat.sub_self, true_and, and_true]
  rw [slice_eq_leBytes_iff 4 (by omega) rfl hResult,
    slice_eq_leBytes_iff 4 (by omega) rfl hFits.reason,
    slice_eq_leBytes_iff 4 (by omega) rfl hFits.key,
    slice_eq_leBytes_iff 4 (by omega) rfl hFits.state,
    slice_eq_leBytes_iff 8 (by omega) rfl hFits.focusEpoch]

theorem outcome_iff {o : Outcome} (hLength : b.length = 24) :
    outcome b = .ok o ↔ o.Valid ∧ Holds b 0 o.fields 24 := by
  simp only [outcome, bind_ok_iff, u32At_ok_iff, hLength, Nat.reduceAdd, Nat.reduceLeDiff, true_and,
    exists_eq_left']
  constructor
  · intro hRead
    split at hRead
    · exact absurd hRead fail_ne_ok
    rename_i result hResult
    rw [ResultKind.ofCode_eq_some_iff] at hResult
    simp only [bind_ok_iff, u32At_ok_iff, u64At_ok_iff, hLength, Nat.reduceAdd, Nat.reduceLeDiff,
      true_and, exists_eq_left', require_ok_iff, exists_const, pure_ok_iff] at hRead
    rcases hRead with ⟨⟨hReason, hState⟩, rfl⟩
    have hFits : Outcome.Fits ⟨result, leNat (slice b 4 8), leNat (slice b 8 12),
        leNat (slice b 12 16), leNat (slice b 16 24)⟩ := by
      constructor <;> exact leNat_slice_lt (by omega)
    refine ⟨⟨hFits, hReason, hState⟩, ?_⟩
    rw [Outcome.holds_iff hFits hLength]
    exact ⟨hResult, rfl, rfl, rfl, rfl⟩
  · rintro ⟨hValid, hHolds⟩
    rw [Outcome.holds_iff hValid.fits hLength] at hHolds
    rcases hHolds with ⟨hResult, hReason, hKey, hState, hFocus⟩
    rw [hResult, ResultKind.ofCode_eq_some_iff.mpr rfl]
    simp only [bind_ok_iff, u32At_ok_iff, u64At_ok_iff, hLength, Nat.reduceAdd, Nat.reduceLeDiff,
      true_and, exists_eq_left', require_ok_iff, exists_const, pure_ok_iff]
    rw [hReason, hState, hKey, hFocus]
    exact ⟨⟨hValid.reason, hValid.state⟩, rfl⟩

theorem Identity.holds_iff {i : Identity} (hCapabilities : i.capabilities < 2 ^ 64)
    (hBounded : i.Bounded) (hLength : b.length = 400) :
    Holds b 0 i.fields 400 ↔ leNat (slice b 0 8) = i.capabilities ∧
        leNat (slice b 8 10) = (asBytes i.apiHash).length ∧
        leNat (slice b 10 12) = (asBytes i.artifact).length ∧
        slice b 12 16 = zeros 4 ∧
        slice b 16 (16 + (asBytes i.apiHash).length) = asBytes i.apiHash ∧
        slice b (16 + (asBytes i.apiHash).length) 208 =
          zeros (208 - (16 + (asBytes i.apiHash).length)) ∧
        slice b 208 (208 + (asBytes i.artifact).length) = asBytes i.artifact ∧
        slice b (208 + (asBytes i.artifact).length) 400 =
          zeros (400 - (208 + (asBytes i.artifact).length)) := by
  have hHash := hBounded.apiHash
  have hArtifact := hBounded.artifact
  simp only [fields, Holds, length_leBytes, slice_self,
    Nat.reduceAdd, Nat.reduceSub, Nat.sub_self, true_and]
  rw [slice_eq_leBytes_iff 8 (by omega) rfl hCapabilities,
    slice_eq_leBytes_iff 2 (by omega) rfl (by omega),
    slice_eq_leBytes_iff 2 (by omega) rfl (by omega)]

theorem hello_iff {i : Identity} (hLength : b.length = 400) :
    hello b = .ok i ↔ i.Valid ∧ Holds b 0 i.fields 400 := by
  simp only [hello, bind_ok_iff, span_ok_iff, u16At_ok_iff, u64At_ok_iff, hLength, Nat.reduceAdd,
    Nat.reduceLeDiff, true_and, and_true, require_ok_iff, text_ok_iff, exists_eq_left', zero_ok_iff,
    exists_const, pure_ok_iff, and_assoc, exists_and_left]
  constructor
  · rintro ⟨hHash, hArtifact, hMask, hZero, _, hGap, _, hTail, _, _,
      hHashClean, apiHash, hHashBytes, _, _, hArtifactClean,
      artifact, hArtifactBytes, rfl⟩
    have hHashLength : (asBytes apiHash).length = leNat (slice b 8 10) := by
      rw [hHashBytes, length_slice (by omega)]
      omega
    have hArtifactLength : (asBytes artifact).length = leNat (slice b 10 12) := by
      rw [hArtifactBytes, length_slice (by omega)]
      omega
    rw [length_slice (by omega)] at hZero hGap hTail
    have hBounded : Identity.Bounded ⟨leNat (slice b 0 8), apiHash, artifact⟩ := by
      constructor
      · exact hHashLength.trans_le hHash
      · exact hArtifactLength.trans_le hArtifact
    refine ⟨⟨hBounded, hMask, ?_, ?_⟩, ?_⟩
    · exact hHashBytes.symm ▸ hHashClean
    · exact hArtifactBytes.symm ▸ hArtifactClean
    · rw [Identity.holds_iff (hMask.trans (by decide)) hBounded
        hLength]
      dsimp only
      rw [hHashLength, hArtifactLength]
      exact ⟨rfl, rfl, rfl, hZero, hHashBytes.symm, hGap, hArtifactBytes.symm, hTail⟩
  · rintro ⟨hValid, hHolds⟩
    have hHash := hValid.bounded.apiHash
    have hArtifact := hValid.bounded.artifact
    rw [Identity.holds_iff (hValid.capabilities.trans (by decide)) hValid.bounded
      hLength] at hHolds
    rcases hHolds with ⟨hCapabilities, hHashLength, hArtifactLength, hZero,
      hHashBytes, hGap, hArtifactBytes, hTail⟩
    rw [hCapabilities, hHashLength, hArtifactLength, hHashBytes, hArtifactBytes, hZero, hGap, hTail]
    simp only [length_zeros, true_and]
    exact
      ⟨hHash, hArtifact, hValid.capabilities, by omega,
        by omega, by omega, by omega, hValid.apiHash,
        i.apiHash, rfl, by omega, by omega, hValid.artifact,
        i.artifact, rfl, rfl⟩

theorem Event.holds_iff {e : Event} (hFits : e.Fits) (hFocus : (asBytes e.focus).length ≤ 256)
    (hLength : b.length = 32 + (asBytes e.focus).length) :
    Holds b 0 e.fields (32 + (asBytes e.focus).length) ↔ leNat (slice b 0 4) = e.key ∧
        leNat (slice b 4 8) = e.state ∧
        leNat (slice b 8 12) = e.timeMs ∧
        leNat (slice b 12 16) = e.modifiers ∧
        leNat (slice b 16 24) = e.focusEpoch ∧
        leNat (slice b 24 26) = e.focusKind ∧
        leNat (slice b 26 28) = (asBytes e.focus).length ∧
        slice b 28 32 = zeros 4 ∧
        slice b 32 b.length = asBytes e.focus := by
  simp only [fields, Holds, length_leBytes, slice_self, Nat.reduceAdd, Nat.reduceSub, Nat.sub_self,
    true_and, and_true]
  rw [slice_eq_leBytes_iff 4 (by omega) rfl hFits.key,
    slice_eq_leBytes_iff 4 (by omega) rfl hFits.state,
    slice_eq_leBytes_iff 4 (by omega) rfl hFits.timeMs,
    slice_eq_leBytes_iff 4 (by omega) rfl hFits.modifiers,
    slice_eq_leBytes_iff 8 (by omega) rfl hFits.focusEpoch,
    slice_eq_leBytes_iff 2 (by omega) rfl hFits.focusKind,
    slice_eq_leBytes_iff 2 (by omega) rfl (by omega), hLength]

theorem asBytes_length_eq_zero_iff {s : String} : (asBytes s).length = 0 ↔ s = "" := by
  rw [List.length_eq_zero_iff]
  exact asBytes_inj (t := "")

theorem event_iff {e : Event} :
    event b = .ok e ↔ e.Valid ∧ b.length = 32 + (asBytes e.focus).length ∧
        Holds b 0 e.fields (32 + (asBytes e.focus).length) := by
  simp only [event, bind_ok_iff, span_ok_iff, u16At_ok_iff, u64At_ok_iff, u32At_ok_iff,
    Nat.reduceAdd, Nat.reduceLeDiff, true_and, require_ok_iff, text_ok_iff, exists_eq_left',
    zero_ok_iff, exists_const, pure_ok_iff, and_assoc, exists_and_left]
  constructor
  · rintro ⟨_, _, _, _, hFocus, hLength, hKind, hNone, hSome, hState,
      hModifiers, _, hZero, _, _, _, _, _, hClean, focus,
      hBytes, rfl⟩
    have hFocusLength : (asBytes focus).length = leNat (slice b 26 28) := by
      rw [hBytes, length_slice le_rfl]
      omega
    have hFits : Event.Fits ⟨leNat (slice b 0 4), leNat (slice b 4 8),
        leNat (slice b 8 12), leNat (slice b 12 16),
        leNat (slice b 16 24), leNat (slice b 24 26),
        focus⟩ := by
      constructor <;> exact leNat_slice_lt (by omega)
    rw [← hFocusLength] at hFocus hLength hNone hSome
    rw [length_slice (by omega)] at hZero
    refine ⟨⟨hFits, hState, hModifiers, hKind, ?_, hFocus, ?_⟩, hLength, ?_⟩
    · rw [← asBytes_length_eq_zero_iff]
      dsimp only
      omega
    · exact hBytes.symm ▸ hClean
    · rw [Event.holds_iff hFits hFocus hLength]
      exact ⟨rfl, rfl, rfl, rfl, rfl, rfl, hFocusLength.symm, hZero, hBytes.symm⟩
  · rintro ⟨hValid, hLength, hHolds⟩
    have hFocus := hValid.length
    have hNone := hValid.none
    rw [← asBytes_length_eq_zero_iff] at hNone
    rw [Event.holds_iff hValid.fits hFocus hLength] at hHolds
    rcases hHolds with ⟨hKey, hState, hTime, hModifiers, hEpoch, hKind, hFocusLength, hZero, hBytes⟩
    rw [hKey, hState, hTime, hModifiers, hEpoch, hKind, hFocusLength, hBytes, hZero]
    simp only [length_zeros, true_and]
    exact
      ⟨by omega, by omega, by omega, by omega, hFocus, hLength,
        hValid.focusKind, by omega, by omega, hValid.state,
        hValid.modifiers, by omega, by omega, by omega,
        by omega, by omega, le_rfl, hValid.focus, e.focus, rfl,
        rfl⟩

theorem reason_holds_iff {reason : Nat} (hReason : reason < 2 ^ 32) (hLength : b.length = 8) :
    Holds b 0 [(0, leBytes 4 reason)] 8 ↔ leNat (slice b 0 4) = reason ∧ slice b 4 8 = zeros 4 := by
  simp only [Holds, length_leBytes, slice_self, Nat.reduceAdd,
    Nat.reduceSub, Nat.sub_self, true_and]
  rw [slice_eq_leBytes_iff 4 (by omega) rfl hReason]

theorem lock_holds_iff {state reason : Nat} (hState : state < 2 ^ 32) (hReason : reason < 2 ^ 32)
    (hLength : b.length = 8) :
    Holds b 0 [(0, leBytes 4 state), (4, leBytes 4 reason)] 8 ↔ leNat (slice b 0 4) = state ∧
        leNat (slice b 4 8) = reason := by
  simp only [Holds, length_leBytes, slice_self, Nat.reduceAdd, Nat.sub_self, true_and, and_true]
  rw [slice_eq_leBytes_iff 4 (by omega) rfl hState,
    slice_eq_leBytes_iff 4 (by omega) rfl hReason]

-----
-- Decoded Bodies

variable {opcode generation : Nat} {body : Body}

/- A body is laid out in a buffer of its size. -/
structure Body.LaidOut (body : Body) (b : List UInt8) : Prop where
  length : b.length = body.size
  holds : Holds b 0 body.fields body.size

theorem lifecycle_iff (hLength : b.length = 8) (hOpcode : opcode = 7 ∨ opcode = 8) :
    lifecycle opcode generation b = .ok body ↔ opcode = body.opcode ∧ body.Valid generation ∧
        body.LaidOut b := by
  have hRoom : 8 ≤ b.length := hLength.ge
  simp only [lifecycle, bind_ok_iff, span_ok_iff, u32At_ok_iff, hLength, Nat.reduceAdd,
    Nat.reduceLeDiff, true_and, exists_eq_left', zero_slice_iff hRoom, exists_const, Nat.reduceSub,
    require_ok_iff]
  constructor
  · rintro ⟨hZero, ⟨hReason, hOther⟩, hRead⟩
    have hHolds :=
      (reason_holds_iff (lt_of_le_of_lt hReason (by decide))
        hLength).mpr ⟨rfl, hZero⟩
    split_ifs at hRead with hReset
    · cases hRead
      exact ⟨hReset, hReason, hLength, hHolds⟩
    · have hRetire : opcode = 8 := hOpcode.resolve_left hReset
      simp only [bind_ok_iff, require_ok_iff, pure_ok_iff, exists_const] at hRead
      rcases hRead with ⟨hDevice, rfl⟩
      refine ⟨hRetire, ⟨hDevice, ?_⟩, hLength, hHolds⟩
      omega
  · rintro ⟨rfl, hValid, _, hHolds⟩
    cases body with
    | reset reason =>
      have hReason : reason ≤ 8 := hValid
      rw [fields, size, reason_holds_iff (lt_of_le_of_lt hReason (by decide))
        hLength] at hHolds
      rw [hHolds.1]
      exact
        ⟨hHolds.2, ⟨hReason, fun hBoth => by cases hBoth.1⟩,
          rfl⟩
    | retire reason =>
      have hReason : reason < 8 := hValid.2
      rw [fields, size, reason_holds_iff (hReason.trans (by decide))
        hLength] at hHolds
      rw [hHolds.1]
      refine ⟨hHolds.2, ⟨hReason.le, ?_⟩, ?_⟩
      · exact fun hBoth => hReason.ne hBoth.2
      · have hOther : ¬ (retire reason).opcode = 7 := fun hSame => by cases hSame
        rw [if_neg hOther]
        simp only [bind_ok_iff, require_ok_iff, pure_ok_iff, exists_const, and_true]
        exact hValid.1
    | _ => simp [opcode] at hOpcode

theorem decodeBody_sound (hBody : decodeBody opcode generation b = .ok body) :
    opcode = body.opcode ∧ body.Valid generation ∧ body.LaidOut b := by
  unfold decodeBody at hBody
  split at hBody <;>
    simp only [bind_ok_iff, require_ok_iff, pure_ok_iff, exists_const, fail_ne_ok] at hBody
  · rcases hBody with ⟨hLength, i, hRead, rfl⟩
    rw [hello_iff hLength] at hRead
    exact ⟨rfl, hRead.1, hLength, hRead.2⟩
  · rcases hBody with ⟨hLength, i, hRead, rfl⟩
    rw [hello_iff hLength] at hRead
    exact ⟨rfl, hRead.1, hLength, hRead.2⟩
  · rcases hBody with ⟨_, e, hRead, rfl⟩
    rw [event_iff] at hRead
    exact ⟨rfl, hRead.1, hRead.2.1, hRead.2.2⟩
  · rcases hBody with ⟨hLength, d, hRead, rfl⟩
    rw [decision_iff hLength] at hRead
    exact ⟨rfl, hRead.1, hLength, hRead.2⟩
  · rcases hBody with ⟨hLength, o, hRead, rfl⟩
    rw [outcome_iff hLength] at hRead
    exact ⟨rfl, hRead.1, hLength, hRead.2⟩
  · rcases hBody with ⟨⟨hLength, hShared⟩, d, hRead, hReplace, rfl⟩
    rw [decision_iff hLength] at hRead
    exact ⟨rfl, ⟨hShared, hReplace, hRead.1⟩, hLength, hRead.2⟩
  · exact (lifecycle_iff hBody.1 (.inl rfl)).mp hBody.2
  · exact (lifecycle_iff hBody.1 (.inr rfl)).mp hBody.2
  · rcases hBody with ⟨hLength, hRead⟩
    simp only [u32At_ok_iff, hLength, Nat.reduceAdd,
      Nat.reduceLeDiff, true_and, exists_eq_left'] at hRead
    rcases hRead with ⟨⟨hState, hReason⟩, rfl⟩
    refine ⟨rfl, ⟨hState, hReason⟩, hLength, ?_⟩
    exact
      (lock_holds_iff (lt_of_le_of_lt hState (by decide))
        (lt_of_le_of_lt hReason (by decide)) hLength).mpr
        ⟨rfl, rfl⟩

theorem decodeBody_complete (hValid : body.Valid generation) (hLaid : body.LaidOut b) :
    decodeBody body.opcode generation b = .ok body := by
  rcases hLaid with ⟨hLength, hHolds⟩
  cases body with
  | hello i | helloAck i =>
    simp only [decodeBody, opcode, bind_ok_iff, require_ok_iff, pure_ok_iff, exists_const]
    exact ⟨hLength, i, (hello_iff hLength).mpr ⟨hValid, hHolds⟩, rfl⟩
  | event e =>
    simp only [decodeBody, opcode, bind_ok_iff, require_ok_iff, pure_ok_iff, exists_const]
    refine ⟨?_, e, event_iff.mpr ⟨hValid, hLength, hHolds⟩, rfl⟩
    rw [hLength, size]
    omega
  | decision d =>
    simp only [decodeBody, opcode, bind_ok_iff, require_ok_iff, pure_ok_iff, exists_const]
    exact ⟨hLength, d, (decision_iff hLength).mpr ⟨hValid, hHolds⟩, rfl⟩
  | outcome o =>
    simp only [decodeBody, opcode, bind_ok_iff, require_ok_iff, pure_ok_iff, exists_const]
    exact ⟨hLength, o, (outcome_iff hLength).mpr ⟨hValid, hHolds⟩, rfl⟩
  | inject d =>
    simp only [decodeBody, opcode, bind_ok_iff, require_ok_iff, pure_ok_iff, exists_const]
    exact ⟨⟨hLength, hValid.1⟩, d, (decision_iff hLength).mpr ⟨hValid.2.2, hHolds⟩, hValid.2.1, rfl⟩
  | reset reason =>
    simp only [decodeBody, opcode, bind_ok_iff, require_ok_iff, exists_const]
    exact ⟨hLength, (lifecycle_iff hLength (.inl rfl)).mpr ⟨rfl, hValid, hLength, hHolds⟩⟩
  | retire reason =>
    simp only [decodeBody, opcode, bind_ok_iff, require_ok_iff, exists_const]
    exact ⟨hLength, (lifecycle_iff hLength (.inr rfl)).mpr ⟨rfl, hValid, hLength, hHolds⟩⟩
  | lock state reason =>
    have hLock :=
      (lock_holds_iff (lt_of_le_of_lt hValid.1 (by decide))
        (lt_of_le_of_lt hValid.2 (by decide)) hLength).mp
        hHolds
    rw [size] at hLength
    simp only [decodeBody, opcode, bind_ok_iff, require_ok_iff, pure_ok_iff, exists_const,
      u32At_ok_iff, hLength, Nat.reduceAdd, Nat.reduceLeDiff, true_and, exists_eq_left']
    rw [hLock.1, hLock.2]
    exact ⟨hValid, rfl⟩

-----
-- Decoded Packets

variable {bytes : List UInt8} {p : Packet}

theorem Body.eq_bytes_iff {body : Body} {b : List UInt8} (hBounded : body.Bounded) :
    b = body.bytes ↔ body.LaidOut b := by
  rw [bytes, eq_puts_iff (placed hBounded)]
  exact ⟨fun hBoth => ⟨hBoth.1, hBoth.2⟩, fun hLaid => ⟨hLaid.length, hLaid.holds⟩⟩

theorem Body.opcode_lt (body : Body) : body.opcode < 2 ^ 16 := by
  cases body <;> simp [opcode]

theorem Packet.holds_iff (hScope : p.scope.Fits) (hBounded : p.body.Bounded)
    (hLength : bytes.length = packetSize) :
    Holds bytes 0 p.fields packetSize ↔ slice bytes 0 4 = shp1 ∧ leNat (slice bytes 4 6) = 1 ∧
        leNat (slice bytes 6 8) = p.body.opcode ∧
        leNat (slice bytes 8 12) = p.body.size ∧
        slice bytes 12 16 = zeros 4 ∧
        leNat (slice bytes 16 24) = p.scope.generation ∧
        leNat (slice bytes 24 32) = p.scope.lockEpoch ∧
        leNat (slice bytes 32 40) = p.scope.sequence ∧
        leNat (slice bytes 40 48) = p.scope.deadlineNs ∧
        leNat (slice bytes 48 56) = p.scope.nonce ∧
        slice bytes 56 64 = zeros 8 ∧
        p.body.LaidOut (slice bytes 64 (64 + p.body.size)) ∧
        slice bytes (64 + p.body.size) 512 = zeros (512 - (64 + p.body.size)) := by
  have hSize := size_le hBounded
  have hOpcode := p.body.opcode_lt
  have hMagic : shp1.length = 4 := rfl
  rw [packetSize] at hLength
  simp only [Packet.fields, Scope.fields, List.cons_append, List.nil_append, Holds, length_leBytes,
    slice_self, Nat.reduceAdd, Nat.reduceSub, Nat.sub_self, true_and, length_bytes, hMagic,
    packetSize]
  rw [slice_eq_leBytes_iff 2 (by omega) rfl (by omega),
    slice_eq_leBytes_iff 2 (by omega) rfl hOpcode,
    slice_eq_leBytes_iff 4 (by omega) rfl (by omega),
    slice_eq_leBytes_iff 8 (by omega) rfl hScope.generation,
    slice_eq_leBytes_iff 8 (by omega) rfl hScope.lockEpoch,
    slice_eq_leBytes_iff 8 (by omega) rfl hScope.sequence,
    slice_eq_leBytes_iff 8 (by omega) rfl hScope.deadlineNs,
    slice_eq_leBytes_iff 8 (by omega) rfl hScope.nonce,
    eq_bytes_iff hBounded]

/- Exactly the valid packets are decoded, from their bytes. -/
theorem decode_iff : decode bytes = .ok p ↔ p.Valid ∧ bytes = p.bytes := by
  constructor
  · intro hDecode
    have hLength : bytes.length = 512 := by
      rw [decode, bind_ok_iff] at hDecode
      rcases hDecode with ⟨_, hLength, _⟩
      exact require_ok_iff.mp hLength
    simp only [decode, bind_ok_iff, span_ok_iff, u16At_ok_iff, u64At_ok_iff, u32At_ok_iff, hLength,
      Nat.reduceAdd, Nat.reduceLeDiff, true_and, and_true, require_ok_iff, packetSize,
      exists_eq_left', zero_ok_iff, exists_const, pure_ok_iff, and_assoc,
      exists_and_left] at hDecode
    rcases hDecode with ⟨hMagic, hVersion, hSize, hZero, hReserved, _, hTail, _, _,
      body, hBody, rfl⟩
    rw [length_slice (by omega)] at hZero hReserved hTail
    rcases decodeBody_sound hBody with ⟨hOpcode, hValid, hLaid⟩
    have hScope : Scope.Fits ⟨leNat (slice bytes 16 24), leNat (slice bytes 24 32),
        leNat (slice bytes 32 40), leNat (slice bytes 40 48),
        leNat (slice bytes 48 56)⟩ := by
      constructor <;> exact leNat_slice_lt (by omega)
    have hBodySize : body.size = leNat (slice bytes 8 12) := by
      rw [← hLaid.length, length_slice (by omega)]
      omega
    refine ⟨⟨hScope, hValid⟩, ?_⟩
    rw [Packet.bytes, eq_puts_iff (Packet.placed hValid.bounded),
      Packet.holds_iff hScope hValid.bounded hLength]
    dsimp only
    rw [hBodySize]
    exact ⟨hLength, hMagic, hVersion, hOpcode, rfl, hZero, rfl, rfl,
      rfl, rfl, rfl, hReserved, hLaid, hTail⟩
  · rintro ⟨⟨hScope, hValid⟩, hBytes⟩
    have hBounded := hValid.bounded
    have hRoom := size_le hBounded
    rw [Packet.bytes, eq_puts_iff (Packet.placed hBounded)] at hBytes
    rcases hBytes with ⟨hLength, hHolds⟩
    rw [Packet.holds_iff hScope hBounded hLength] at hHolds
    rw [packetSize] at hLength
    rcases hHolds with ⟨hMagic, hVersion, hOpcode, hSize, hZero, hGeneration,
      hEpoch, hSequence, hDeadline, hNonce, hReserved, hLaid,
      hTail⟩
    simp only [decode, bind_ok_iff, span_ok_iff, u16At_ok_iff, u64At_ok_iff, u32At_ok_iff, hLength,
      Nat.reduceAdd, Nat.reduceLeDiff, true_and, and_true, require_ok_iff, packetSize,
      exists_eq_left', zero_ok_iff, exists_const, pure_ok_iff, and_assoc, exists_and_left]
    rw [hMagic, hVersion, hOpcode, hSize, hZero, hGeneration,
      hEpoch, hSequence, hDeadline, hNonce, hReserved, hTail]
    simp only [length_zeros, true_and]
    exact
      ⟨hRoom, by omega, by omega, by omega, p.body,
        decodeBody_complete hValid hLaid, rfl⟩

-----
-- Encoded Packets

theorem writes_body (hBounded : body.Bounded) :
    (writes (zeros body.size) body.fields : Decoded (List UInt8)) = .ok body.bytes := by
  have hPlaced : Placed 0 body.fields (zeros body.size).length := by
    rw [length_zeros]
    exact placed hBounded
  exact writes_placed hPlaced

theorem u16From_eq {n : Nat} (hFits : n < 2 ^ 16) : u16From n = .ok n := by
  rw [u16From, require, ensure, if_pos hFits]
  rfl

theorem encodeIdentity_eq {i : Identity} (hBounded : i.Bounded) :
    encodeIdentity i = .ok (Body.hello i).bytes := by
  have hHash := hBounded.apiHash
  have hArtifact := hBounded.artifact
  have hHello : (Body.hello i).Bounded := hBounded
  have hWrite := writes_body hHello
  rw [size, fields] at hWrite
  simp only [encodeIdentity, bind_ok_iff, require_ok_iff,
    exists_const, u16From_eq (hHash.trans_lt (by decide)),
    u16From_eq (hArtifact.trans_lt (by decide)),
    Except.ok.injEq, exists_eq_left']
  exact ⟨⟨hHash, hArtifact⟩, hWrite⟩

theorem encodeEvent_eq {e : Event} (hBounded : (asBytes e.focus).length ≤ 256) :
    encodeEvent e = .ok (Body.event e).bytes := by
  have hEvent : (Body.event e).Bounded := hBounded
  simp only [encodeEvent, bind_ok_iff, require_ok_iff,
    exists_const, u16From_eq (hBounded.trans_lt (by decide)),
    Except.ok.injEq, exists_eq_left']
  exact ⟨hBounded, writes_body hEvent⟩

/- A body with bounded texts is written as it is laid out. -/
theorem encodeFields_eq (hBounded : body.Bounded) : encodeFields body = .ok body.bytes := by
  cases body with
  | hello i | helloAck i => exact encodeIdentity_eq hBounded
  | event e => exact encodeEvent_eq hBounded
  | _ => exact writes_body hBounded

/- Nothing is written for a body with longer texts. -/
theorem bounded_of_encodeFields {b : List UInt8} (hWrite : encodeFields body = .ok b) :
    body.Bounded := by
  cases body with
  | hello i | helloAck i =>
    simp only [encodeFields, encodeIdentity, bind_ok_iff, require_ok_iff, exists_const] at hWrite
    exact ⟨hWrite.1.1, hWrite.1.2⟩
  | event e =>
    simp only [encodeFields, encodeEvent, bind_ok_iff, require_ok_iff, exists_const] at hWrite
    exact hWrite.1
  | _ => trivial

theorem u32From_eq {n : Nat} (hFits : n < 2 ^ 32) : u32From n = .ok n := by
  rw [u32From, require, ensure, if_pos hFits]
  rfl

/- The two series of writes of the source. -/
def Packet.envelope (p : Packet) : List (Nat × List UInt8) :=
  [(0, shp1), (4, leBytes 2 1)] ++ p.scope.fields

def Packet.content (p : Packet) : List (Nat × List UInt8) :=
  [(6, leBytes 2 p.body.opcode), (8, leBytes 4 p.body.size)] ++ [(64, p.body.bytes)]

/- Together they are the layout, in another order. -/
theorem puts_packet (hBounded : p.body.Bounded) :
    puts (puts (zeros packetSize) p.envelope) p.content = p.bytes := by
  have hPerm : p.fields.Perm (p.envelope ++ p.content) := by
    rw [Packet.fields, Packet.envelope, List.append_assoc]
    apply List.Perm.append_left
    exact List.perm_append_comm_assoc _ _ _
  rw [Packet.bytes, puts_perm (Packet.placed hBounded) hPerm]
  exact (List.foldl_append ..).symm

theorem writes_envelope :
    (writes (zeros packetSize) p.envelope : Decoded (List UInt8)) =
      .ok (puts (zeros packetSize) p.envelope) := by
  have hPlaced : Placed 0 p.envelope (zeros packetSize).length := by
    simp [Placed, Packet.envelope, Scope.fields, shp1, packetSize]
  exact writes_placed hPlaced

theorem writes_content (hBounded : p.body.Bounded) :
    (writes (puts (zeros packetSize) p.envelope) p.content : Decoded (List UInt8)) =
      .ok p.bytes := by
  have hSize := size_le hBounded
  have hPlaced : Placed 0 p.content (puts (zeros packetSize) p.envelope).length := by
    simp only [Packet.content, List.cons_append, List.nil_append, Placed, length_leBytes,
      length_bytes, length_puts, length_zeros, packetSize]
    omega
  rw [writes_placed hPlaced, puts_packet hBounded]

/- Encoding writes the packet and decodes it once more. -/
theorem encode_ok_iff :
    encode p = .ok bytes ↔ p.body.Bounded ∧ bytes = p.bytes ∧ ∃ q, decode bytes = .ok q := by
  have hHeader := writes_envelope (p := p)
  rw [Packet.envelope, Scope.fields] at hHeader
  simp only [encode, encodeBody, bind_ok_iff, pure_ok_iff]
  constructor
  · rintro ⟨_, hFirst, _, ⟨b, hFields, rfl⟩, _, hLength, written, hSecond, q, hDecode, rfl⟩
    have hBounded := bounded_of_encodeFields hFields
    have hSize := size_le hBounded
    rw [encodeFields_eq hBounded] at hFields
    cases hFields
    rw [length_bytes, u32From_eq (hSize.trans_lt (by decide))] at hLength
    cases hLength
    have hSame := Eq.trans hFirst.symm hHeader
    cases hSame
    have hContent := writes_content hBounded
    have hWritten := Eq.trans hSecond.symm hContent
    cases hWritten
    exact ⟨hBounded, rfl, q, hDecode⟩
  · rintro ⟨hBounded, rfl, q, hDecode⟩
    have hSize := size_le hBounded
    refine ⟨_, hHeader, _, ⟨_, encodeFields_eq hBounded, rfl⟩,
      p.body.size, ?_, _, writes_content hBounded, q, hDecode,
      rfl⟩
    rw [length_bytes]
    exact u32From_eq (hSize.trans_lt (by decide))

-----
-- One Reading

attribute [ext] Scope Identity Event Outcome Packet

theorem Identity.unique {i j : Identity} (hI : i.capabilities < 2 ^ 64 ∧ i.Bounded)
    (hJ : j.capabilities < 2 ^ 64 ∧ j.Bounded) (hLength : b.length = 400)
    (hFirst : Holds b 0 i.fields 400) (hSecond : Holds b 0 j.fields 400) : i = j := by
  rw [Identity.holds_iff hI.1 hI.2 hLength] at hFirst
  rw [Identity.holds_iff hJ.1 hJ.2 hLength] at hSecond
  rcases hFirst with ⟨hMask, hHashLength, hArtifactLength, _, hHash, _, hArtifact, _⟩
  rcases hSecond with ⟨hMask', hHashLength', hArtifactLength', _, hHash', _, hArtifact', _⟩
  rw [← hHashLength] at hHash
  rw [← hHashLength'] at hHash'
  rw [← hArtifactLength] at hArtifact
  rw [← hArtifactLength'] at hArtifact'
  apply Identity.ext
  · exact hMask.symm.trans hMask'
  · exact asBytes_inj.mp (hHash.symm.trans hHash')
  · exact asBytes_inj.mp (hArtifact.symm.trans hArtifact')

theorem Event.unique {e f : Event} (hE : e.Fits ∧ (asBytes e.focus).length ≤ 256)
    (hF : f.Fits ∧ (asBytes f.focus).length ≤ 256) (hFirst : (Body.event e).LaidOut b)
    (hSecond : (Body.event f).LaidOut b) : e = f := by
  have hHoldsE := (Event.holds_iff hE.1 hE.2 hFirst.length).mp hFirst.holds
  have hHoldsF := (Event.holds_iff hF.1 hF.2 hSecond.length).mp hSecond.holds
  rcases hHoldsE with ⟨hKey, hState, hTime, hModifiers, hEpoch, hKind, _, _, hFocus⟩
  rcases hHoldsF with ⟨hKey', hState', hTime', hModifiers', hEpoch', hKind', _, _, hFocus'⟩
  apply Event.ext
  case focus => exact asBytes_inj.mp (hFocus.symm.trans hFocus')
  all_goals omega

theorem Decision.unique {d e : Decision} (hD : d.Fits) (hE : e.Fits) (hLength : b.length = 16)
    (hFirst : Holds b 0 d.fields 16) (hSecond : Holds b 0 e.fields 16) : d = e := by
  rw [Decision.holds_iff hD hLength] at hFirst
  rw [Decision.holds_iff hE hLength] at hSecond
  have hParts : d.parts = e.parts := by
    apply Prod.ext
    · exact hFirst.1.symm.trans hSecond.1
    · apply Prod.ext
      · exact hFirst.2.1.symm.trans hSecond.2.1
      · exact hFirst.2.2.1.symm.trans hSecond.2.2.1
  cases d <;> cases e <;> simp_all [Decision.parts]

theorem Outcome.unique {o q : Outcome} (hO : o.Fits) (hQ : q.Fits) (hLength : b.length = 24)
    (hFirst : Holds b 0 o.fields 24) (hSecond : Holds b 0 q.fields 24) : o = q := by
  rw [Outcome.holds_iff hO hLength] at hFirst
  rw [Outcome.holds_iff hQ hLength] at hSecond
  rcases hFirst with ⟨hResult, hReason, hKey, hState, hEpoch⟩
  rcases hSecond with ⟨hResult', hReason', hKey', hState', hEpoch'⟩
  apply Outcome.ext
  · apply Option.some.inj
    rw [← ResultKind.ofCode_eq_some_iff.mpr hResult, ← ResultKind.ofCode_eq_some_iff.mpr hResult']
  all_goals omega

/- A buffer is the layout of at most one body per opcode. -/
theorem Body.LaidOut.unique {body other : Body} (hFits : body.Fits ∧ body.Bounded)
    (hOther : other.Fits ∧ other.Bounded) (hOpcode : body.opcode = other.opcode)
    (hFirst : body.LaidOut b) (hSecond : other.LaidOut b) : body = other := by
  cases body <;> cases other <;> cases hOpcode
  case hello.hello | helloAck.helloAck =>
    rw [Identity.unique hFits hOther hFirst.length hFirst.holds hSecond.holds]
  case event.event => rw [Event.unique hFits hOther hFirst hSecond]
  case decision.decision | inject.inject =>
    rw [Decision.unique hFits.1 hOther.1 hFirst.length hFirst.holds hSecond.holds]
  case outcome.outcome =>
    rw [Outcome.unique hFits.1 hOther.1 hFirst.length hFirst.holds hSecond.holds]
  case reset.reset | retire.retire =>
    rw [← ((reason_holds_iff hFits.1 hFirst.length).mp hFirst.holds).1,
      ← ((reason_holds_iff hOther.1 hFirst.length).mp hSecond.holds).1]
  case lock.lock =>
    have hLock := (lock_holds_iff hFits.1.1 hFits.1.2 hFirst.length).mp hFirst.holds
    have hLock' := (lock_holds_iff hOther.1.1 hOther.1.2 hFirst.length).mp hSecond.holds
    rw [← hLock.1, ← hLock.2, hLock'.1, hLock'.2]

/- A packet that fits is the only one with its bytes. -/
theorem Packet.bytes_inj {p q : Packet} (hP : p.Fits ∧ p.body.Bounded)
    (hQ : q.Fits ∧ q.body.Bounded) (hSame : p.bytes = q.bytes) : p = q := by
  have hLength : p.bytes.length = packetSize := by rw [Packet.bytes, length_puts, length_zeros]
  have hFirst : Holds p.bytes 0 p.fields packetSize := ((eq_puts_iff (Packet.placed hP.2)).mp rfl).2
  have hSecond : Holds p.bytes 0 q.fields packetSize :=
    ((eq_puts_iff (Packet.placed hQ.2)).mp hSame).2
  rw [Packet.holds_iff hP.1.scope hP.2 hLength] at hFirst
  rw [Packet.holds_iff hQ.1.scope hQ.2 hLength] at hSecond
  rcases hFirst with ⟨_, _, hOpcode, hSize, _, hGeneration, hEpoch, hSequence,
    hDeadline, hNonce, _, hLaid, _⟩
  rcases hSecond with ⟨_, _, hOpcode', hSize', _, hGeneration', hEpoch',
    hSequence', hDeadline', hNonce', _, hLaid', _⟩
  rw [← hSize] at hLaid
  rw [← hSize'] at hLaid'
  have hBody : p.body = q.body := LaidOut.unique ⟨hP.1.body, hP.2⟩ ⟨hQ.1.body, hQ.2⟩
      (hOpcode.symm.trans hOpcode') hLaid hLaid'
  have hScope : p.scope = q.scope := by
    apply Scope.ext <;> omega
  exact Packet.ext hScope hBody

/- Exactly the valid packets are encoded, to their bytes. -/
theorem encode_iff {p : Packet} {bytes : List UInt8} (hFits : p.Fits) :
    encode p = .ok bytes ↔ p.Valid ∧ bytes = p.bytes := by
  rw [encode_ok_iff]
  constructor
  · rintro ⟨hBounded, rfl, q, hDecode⟩
    rcases decode_iff.mp hDecode with ⟨hValid, hSame⟩
    have hPacket : p = q := Packet.bytes_inj ⟨hFits, hBounded⟩
        ⟨hValid.fits, hValid.body.bounded⟩ hSame
    exact ⟨hPacket ▸ hValid, rfl⟩
  · rintro ⟨hValid, rfl⟩
    exact ⟨hValid.body.bounded, rfl, p, decode_iff.mpr ⟨hValid, rfl⟩⟩

-----
-- No Panic

@[simp]
theorem zero_safe : Safe (zero b) := safe_ensure _ _

@[simp]
theorem text_safe : Safe (text b) := by
  refine safe_bind_iff.mpr ⟨safe_ensure _ _, fun _ _ => ?_⟩
  split
  · exact safe_fail _
  · exact safe_pure _

attribute [local simp] require u16At u32At u64At

theorem hello_safe (hLength : b.length = 400) : Safe (hello b) := by
  simp [hello, hLength, -bind_pure_comp]
  grind

theorem event_safe (hLength : 32 ≤ b.length) : Safe (event b) := by
  simp [event, hLength, -bind_pure_comp]
  omega

theorem decision_safe (hLength : b.length = 16) : Safe (decision b) := by
  simp [decision, hLength]
  intros
  split_ifs <;> simp

theorem outcome_safe (hLength : b.length = 24) : Safe (outcome b) := by
  simp [outcome, hLength, -bind_pure_comp]
  split <;> simp [hLength, -bind_pure_comp]

theorem lifecycle_safe {opcode generation : Nat} (hLength : b.length = 8) :
    Safe (lifecycle opcode generation b) := by
  simp [lifecycle, hLength, -bind_pure_comp]
  intros
  split_ifs <;> simp [-bind_pure_comp]

/- The length is checked before a body is read. -/
theorem decodeBody_safe (opcode generation : Nat) : Safe (decodeBody opcode generation b) := by
  unfold decodeBody
  split <;>
    simp +contextual [hello_safe, event_safe, decision_safe, outcome_safe, lifecycle_safe,
      -bind_pure_comp]

/- Decoding reads inside of the bytes it is given. -/
theorem decode_safe (bytes : List UInt8) : Safe (decode bytes) := by
  refine safe_bind_iff.mpr ⟨safe_ensure _ _, fun _ hFits => ?_⟩
  have hLength : bytes.length = 512 := require_ok_iff.mp hFits
  simp [hLength, decodeBody_safe, -bind_pure_comp]
  grind

-----
-- The Codec

/- Accepted bytes and encodable packets, one for one. -/
theorem codec_bijective : (∀ p bytes, p.Fits → encode p = .ok bytes → decode bytes = .ok p) ∧
      (∀ bytes p, decode bytes = .ok p → p.Fits ∧ encode p = .ok bytes) ∧
      ∀ bytes, decode bytes ≠ .error .panicked := by
  refine ⟨?_, ?_, decode_safe⟩
  · intro p bytes hFits hEncode
    exact decode_iff.mpr ((encode_iff hFits).mp hEncode)
  · intro bytes p hDecode
    have hPacket := decode_iff.mp hDecode
    have hFits := hPacket.1.fits
    exact ⟨hFits, (encode_iff hFits).mpr hPacket⟩

/- A replacement by the key 30 on keyboard 1. -/
def sampleDecision : Packet := ⟨⟨1, 2, 3, 4, 5⟩, .decision (.replace 30 1)⟩

theorem codec_bijective_sampleDecision : encode sampleDecision = .ok sampleDecision.bytes ∧
      decode sampleDecision.bytes = .ok sampleDecision := by
  have hFits : sampleDecision.Fits :=
    ⟨⟨by decide, by decide, by decide, by decide, by decide⟩,
      by decide, by decide⟩
  have hValid : sampleDecision.Valid := ⟨hFits.scope, by decide, by decide⟩
  have hEncode : encode sampleDecision = .ok sampleDecision.bytes :=
    (encode_iff hFits).mpr ⟨hValid, rfl⟩
  exact ⟨hEncode, codec_bijective.1 sampleDecision _ hFits hEncode⟩

end Sledge.Linux
