import Sledge.Linux.Canonical

/-
  The text of a focused application
  (`native/hyprland/focus_identity.hpp`).

  The validator walks over the bytes one character at a time.
  A read behind the last byte is a panic of the model, and the
  walk never makes one.

  Main results:
    * `character_some_iff`
    * `scan_iff`
    * `validFocusIdentity_exact`
-/

-----
-- The Validator

namespace Sledge.Native.Focus

open Checked

/- Reading ends at the last byte, without a further error. -/
abbrev Reading (α : Type) := Checked Unit α

/- `text[i++]` of the source, on the bytes from `i` on. -/
def take : List UInt8 → Reading (UInt8 × List UInt8)
  | [] => .error .panicked
  | byte :: rest => .ok (byte, rest)

/- How many bytes follow, the first bits, and the minimum. -/
def lead (first : Nat) : Option (Nat × Nat × Nat) :=
  if 0xC2 ≤ first ∧ first ≤ 0xDF then
    some (1, first &&& 31, 128)
  else if 0xE0 ≤ first ∧ first ≤ 0xEF then
    some (2, first &&& 15, 2048)
  else if 0xF0 ≤ first ∧ first ≤ 0xF4 then
    some (3, first &&& 7, 65536)
  else none

/- The loop over the bytes that follow. -/
def continuation : Nat → Nat → List UInt8 → Reading (Option (Nat × List UInt8))
  | 0, value, rest => .ok (some (value, rest))
  | remaining + 1, value, rest => do
      let (next, rest) ← take rest
      if next.toNat &&& 0xC0 ≠ 0x80 then return none
      else
        continuation remaining ((value <<< 6) ||| (next.toNat &&& 63)) rest

/- The bytes of one character behind its lead. -/
def multibyte (first : Nat) (rest : List UInt8) : Reading (Option (List UInt8)) :=
  match lead first with
  | none => .ok none
  | some (remaining, value, minimum) =>
    if rest.length < remaining then .ok none
    else do
      match ← continuation remaining value rest with
      | none => return none
      | some (value, rest) =>
        if value < minimum ∨ 0x10FFFF < value ∨ (0xD800 ≤ value ∧ value ≤ 0xDFFF) then
          return none
        else return some rest

/- One round: what is left behind an accepted character. -/
def character (text : List UInt8) : Reading (Option (List UInt8)) := do
  let (byte, rest) ← take text
  if byte.toNat = 0 then return none
  else if byte.toNat < 128 then return some rest
  else multibyte byte.toNat rest

/- A round takes one byte or more, so they are enough. -/
def scan : Nat → List UInt8 → Reading Bool
  | _, [] => .ok true
  | 0, _ :: _ => .error .panicked
  | rounds + 1, byte :: rest => do
      match ← character (byte :: rest) with
      | none => return false
      | some rest => scan rounds rest

def validFocusIdentity (text : List UInt8) : Reading Bool :=
  if text.length = 0 ∨ 256 < text.length then .ok false
  else scan text.length text

-----
-- Characters

variable {text rest tail : List UInt8}

/- The number a lead and its continuation bytes stand for. -/
def extend (value : Nat) (bytes : List UInt8) : Nat :=
  bytes.foldl (fun value byte => value * 64 + byte.toNat % 64) value

theorem and_192_eq_iff (byte : UInt8) :
    byte.toNat &&& 0xC0 = 0x80 ↔ 128 ≤ byte.toNat ∧ byte.toNat < 192 := by
  have hAll : ∀ n < 256, (n &&& 0xC0 = 0x80 ↔ 128 ≤ n ∧ n < 192) := by decide +kernel
  exact hAll byte.toNat byte.toNat_lt

theorem shift_or (value : Nat) (byte : UInt8) :
    (value <<< 6) ||| (byte.toNat &&& 63) = value * 64 + byte.toNat % 64 := by
  have hLow : byte.toNat &&& 63 = byte.toNat % 64 := Nat.and_two_pow_sub_one_eq_mod byte.toNat 6
  have hFits : byte.toNat % 64 < 2 ^ 6 := Nat.mod_lt _ (by decide)
  rw [hLow, ← Nat.shiftLeft_add_eq_or_of_lt hFits, Nat.shiftLeft_eq]

variable {value : Nat} {byte : UInt8} {bytes : List UInt8}

/- The continuation reads as many bytes as it was told. -/
theorem continuation_some_iff {remaining result : Nat} :
    continuation remaining value rest = .ok (some (result, tail)) ↔ ∃ bytes,
        bytes.length = remaining ∧ rest = bytes ++ tail ∧ (∀ byte ∈ bytes,
            128 ≤ byte.toNat ∧ byte.toNat < 192) ∧
          result = extend value bytes := by
  induction remaining generalizing value rest with
  | zero =>
    simp only [continuation, List.length_eq_zero_iff, exists_eq_left, List.nil_append, extend,
      List.foldl_nil]
    constructor
    · intro hSame
      cases hSame
      simp
    · rintro ⟨rfl, _, rfl⟩
      rfl
  | succ remaining ih =>
    cases rest with
    | nil =>
      constructor
      · intro hRead
        cases hRead
      · rintro ⟨bytes, hLength, hSplit, _⟩
        have hEmpty := (List.append_eq_nil_iff.mp hSplit.symm).1
        rw [hEmpty] at hLength
        cases hLength
    | cons next rest =>
      have hStep : continuation (remaining + 1) value (next :: rest) =
          if next.toNat &&& 0xC0 ≠ 0x80 then
            .ok none
          else
            continuation remaining ((value <<< 6) ||| (next.toNat &&& 63))
              rest :=
        rfl
      rw [hStep, shift_or]
      constructor
      · intro hRead
        split_ifs at hRead with hNext
        · cases hRead
        rw [not_not, and_192_eq_iff] at hNext
        rcases ih.mp hRead with ⟨bytes, hLength, rfl, hBytes, rfl⟩
        refine ⟨next :: bytes, congrArg (· + 1) hLength, rfl, ?_, rfl⟩
        intro byte hByte
        rcases List.mem_cons.mp hByte with rfl | hRest
        · exact hNext
        · exact hBytes byte hRest
      · rintro ⟨bytes, hLength, hSplit, hBytes, rfl⟩
        cases bytes with
        | nil => cases hLength
        | cons first bytes =>
          cases hSplit
          have hNext := (and_192_eq_iff next).mpr (hBytes next List.mem_cons_self)
          rw [if_neg (not_not_intro hNext)]
          refine ih.mpr ⟨bytes, Nat.succ.inj hLength, rfl, ?_, rfl⟩
          intro byte hByte
          exact hBytes byte (List.mem_cons_of_mem _ hByte)

theorem lead_some_iff {first remaining minimum : Nat} :
    lead first = some (remaining, value, minimum) ↔ (0xC2 ≤ first ∧ first ≤ 0xDF ∧ remaining = 1 ∧
          value = first % 32 ∧ minimum = 128) ∨
        (0xE0 ≤ first ∧ first ≤ 0xEF ∧ remaining = 2 ∧ value = first % 16 ∧ minimum = 2048) ∨
        (0xF0 ≤ first ∧ first ≤ 0xF4 ∧ remaining = 3 ∧ value = first % 8 ∧ minimum = 65536) := by
  have hTwo : first &&& 31 = first % 32 := Nat.and_two_pow_sub_one_eq_mod first 5
  have hThree : first &&& 15 = first % 16 := Nat.and_two_pow_sub_one_eq_mod first 4
  have hFour : first &&& 7 = first % 8 := Nat.and_two_pow_sub_one_eq_mod first 3
  unfold lead
  rw [hTwo, hThree, hFour]
  split_ifs <;>
    simp only [Option.some.injEq, Prod.mk.injEq, false_iff] <;>
    omega

/- The bytes of a scalar value, as numbers. -/
theorem utf8EncodeChar_toNat (c : Char) :
    (String.utf8EncodeChar c).map UInt8.toNat = if c.toNat ≤ 127 then [c.toNat]
      else if c.toNat ≤ 2047 then
        [c.toNat / 64 + 192, c.toNat % 64 + 128]
      else if c.toNat ≤ 65535 then
        [c.toNat / 4096 + 224, c.toNat / 64 % 64 + 128, c.toNat % 64 + 128]
      else
        [c.toNat / 262144 + 240, c.toNat / 4096 % 64 + 128,
          c.toNat / 64 % 64 + 128, c.toNat % 64 + 128] := by
  have hBound : c.val.toNat < 1114112 := by
    rcases c.valid with hLow | hHigh
    · have hLess : c.val.toNat < 55296 := hLow
      omega
    · exact hHigh.2
  unfold String.utf8EncodeChar Char.toNat
  dsimp only
  split_ifs <;>
    simp only [List.map_cons, List.map_nil, UInt8.toNat_ofNat', List.cons.injEq, and_true] <;>
    omega

/- A lead with its continuation bytes is accepted. -/
structure Wide (byte : UInt8) (bytes : List UInt8) (value : Nat) : Prop where
  starts : ∃ first minimum, lead byte.toNat = some (bytes.length, first, minimum) ∧
        value = extend first bytes ∧ minimum ≤ value
  continues : ∀ next ∈ bytes, 128 ≤ next.toNat ∧ next.toNat < 192
  scalar : value ≤ 0x10FFFF ∧ ¬ (0xD800 ≤ value ∧ value ≤ 0xDFFF)

theorem multibyte_some_iff : multibyte byte.toNat rest = .ok (some tail) ↔ ∃ bytes value,
        Wide byte bytes value ∧ rest = bytes ++ tail := by
  unfold multibyte
  constructor
  · intro hRead
    split at hRead
    · cases hRead
    rename_i remaining first minimum hLead
    split_ifs at hRead
    · cases hRead
    rw [bind_ok_iff] at hRead
    rcases hRead with ⟨found, hContinuation, hRead⟩
    cases found with
    | none => cases hRead
    | some pair =>
      rcases pair with ⟨value, left⟩
      rcases continuation_some_iff.mp hContinuation with ⟨bytes, rfl, rfl, hBytes, rfl⟩
      dsimp only at hRead
      split_ifs at hRead with hScalar
      · cases hRead
      cases hRead
      push Not at hScalar
      refine ⟨bytes, extend first bytes, ⟨?_, hBytes, ?_⟩, rfl⟩
      · exact ⟨first, minimum, hLead, rfl, hScalar.1⟩
      · refine ⟨hScalar.2.1, ?_⟩
        rintro ⟨hLow, hHigh⟩
        have hAbove := hScalar.2.2 hLow
        omega
  · rintro ⟨bytes, value, ⟨hStarts, hBytes, hScalar⟩, rfl⟩
    rcases hStarts with ⟨first, minimum, hLead, rfl, hMinimum⟩
    have hRoom : ¬ (bytes ++ tail).length < bytes.length := by
      rw [List.length_append]
      omega
    have hContinuation : continuation bytes.length first (bytes ++ tail) =
        .ok (some (extend first bytes, tail)) :=
      continuation_some_iff.mpr ⟨bytes, rfl, rfl, hBytes, rfl⟩
    have hAccepted : ¬ (extend first bytes < minimum ∨ 0x10FFFF < extend first bytes ∨
        (0xD800 ≤ extend first bytes ∧ extend first bytes ≤ 0xDFFF)) := by
      omega
    simp only [hLead, hRoom, hContinuation, if_false]
    change (if _ then _ else _) = _
    rw [if_neg hAccepted]
    rfl

theorem toNat_ofNat_scalar (hBound : value ≤ 0x10FFFF)
    (hScalar : ¬ (0xD800 ≤ value ∧ value ≤ 0xDFFF)) : (Char.ofNat value).toNat = value := by
  have hValid : value.isValidChar := by
    unfold Nat.isValidChar
    omega
  rw [Char.ofNat, dif_pos hValid]
  rfl

/- Accepted bytes are the encoding of a scalar value. -/
theorem utf8EncodeChar_of_wide (hWide : Wide byte bytes value) :
    127 < value ∧ String.utf8EncodeChar (Char.ofNat value) = byte :: bytes := by
  have hBound := hWide.scalar.1
  have hNat := toNat_ofNat_scalar hBound hWide.scalar.2
  have hBytes := hWide.continues
  rcases hWide.starts with ⟨first, minimum, hLead, hValue, hMinimum⟩
  have hMap := utf8EncodeChar_toNat (Char.ofNat value)
  rw [hNat] at hMap
  have hSame : (String.utf8EncodeChar (Char.ofNat value)).map UInt8.toNat =
      (byte :: bytes).map UInt8.toNat →
      String.utf8EncodeChar (Char.ofNat value) = byte :: bytes :=
    fun hEq => List.map_injective_iff.mpr (fun _ _ => UInt8.toNat.inj) hEq
  rcases lead_some_iff.mp hLead with ⟨hLow, hHigh, hLength, rfl, rfl⟩ |
    ⟨hLow, hHigh, hLength, rfl, rfl⟩ |
    ⟨hLow, hHigh, hLength, rfl, rfl⟩
  · rcases List.length_eq_one_iff.mp hLength with ⟨b, rfl⟩
    have hB := hBytes b (by simp)
    simp only [extend, List.foldl_cons, List.foldl_nil] at hValue
    refine ⟨by omega, hSame ?_⟩
    rw [hMap, if_neg (by omega), if_pos (by omega)]
    simp only [List.map_cons, List.map_nil, List.cons.injEq, and_true]
    omega
  · rcases List.length_eq_two.mp hLength with ⟨b, c, rfl⟩
    have hB := hBytes b (by simp)
    have hC := hBytes c (by simp)
    simp only [extend, List.foldl_cons, List.foldl_nil] at hValue
    refine ⟨by omega, hSame ?_⟩
    rw [hMap, if_neg (by omega), if_neg (by omega),
      if_pos (by omega)]
    simp only [List.map_cons, List.map_nil, List.cons.injEq, and_true]
    omega
  · rcases List.length_eq_three.mp hLength with ⟨b, c, d, rfl⟩
    have hB := hBytes b (by simp)
    have hC := hBytes c (by simp)
    have hD := hBytes d (by simp)
    simp only [extend, List.foldl_cons, List.foldl_nil] at hValue
    refine ⟨by omega, hSame ?_⟩
    rw [hMap, if_neg (by omega), if_neg (by omega),
      if_neg (by omega)]
    simp only [List.map_cons, List.map_nil, List.cons.injEq, and_true]
    omega

theorem wide_of_utf8EncodeChar {c : Char} (hWide : 127 < c.toNat)
    (hEncode : String.utf8EncodeChar c = byte :: bytes) : Wide byte bytes c.toNat := by
  have hValid : c.toNat ≤ 0x10FFFF ∧ ¬ (0xD800 ≤ c.toNat ∧ c.toNat ≤ 0xDFFF) := by
    have hChar : c.toNat.isValidChar := c.valid
    unfold Nat.isValidChar at hChar
    omega
  have hMap := utf8EncodeChar_toNat c
  rw [hEncode, if_neg (by omega)] at hMap
  split_ifs at hMap with hTwo hThree
  · rcases bytes with _ | ⟨b, _ | ⟨e, rest⟩⟩ <;>
      simp only [List.map_cons, List.map_nil, List.cons.injEq,
        and_true, reduceCtorEq, and_false] at hMap
    have hLead : 2 ≤ c.toNat / 64 ∧ c.toNat / 64 < 32 := by omega
    refine ⟨⟨byte.toNat % 32, 128, ?_, ?_, by omega⟩, ?_, hValid⟩
    · rw [lead_some_iff]
      exact .inl ⟨by omega, by omega, rfl, rfl, rfl⟩
    · simp only [extend, List.foldl_cons, List.foldl_nil]
      omega
    · simp only [List.mem_singleton, forall_eq]
      omega
  · rcases bytes with _ | ⟨b, _ | ⟨d, _ | ⟨e, rest⟩⟩⟩ <;>
      simp only [List.map_cons, List.map_nil, List.cons.injEq,
        and_true, reduceCtorEq, and_false] at hMap
    have hLead : c.toNat / 4096 < 16 := by omega
    refine ⟨⟨byte.toNat % 16, 2048, ?_, ?_, by omega⟩, ?_, hValid⟩
    · rw [lead_some_iff]
      exact .inr (.inl ⟨by omega, by omega, rfl, rfl, rfl⟩)
    · simp only [extend, List.foldl_cons, List.foldl_nil]
      omega
    · simp only [List.mem_cons, List.not_mem_nil, or_false, forall_eq_or_imp, forall_eq]
      omega
  · rcases bytes with _ | ⟨b, _ | ⟨d, _ | ⟨f, _ | ⟨e, rest⟩⟩⟩⟩ <;>
      simp only [List.map_cons, List.map_nil, List.cons.injEq,
        and_true, reduceCtorEq, and_false] at hMap
    have hLead : c.toNat / 262144 < 5 := by omega
    refine ⟨⟨byte.toNat % 8, 65536, ?_, ?_, by omega⟩, ?_, hValid⟩
    · rw [lead_some_iff]
      exact .inr (.inr ⟨by omega, by omega, rfl, rfl, rfl⟩)
    · simp only [extend, List.foldl_cons, List.foldl_nil]
      omega
    · simp only [List.mem_cons, List.not_mem_nil, or_false, forall_eq_or_imp, forall_eq]
      omega

theorem utf8EncodeChar_ascii_iff {c : Char} (hAscii : byte.toNat < 128) :
    String.utf8EncodeChar c = byte :: bytes ↔ c.toNat = byte.toNat ∧ bytes = [] := by
  have hMap := utf8EncodeChar_toNat c
  constructor
  · intro hEncode
    rw [hEncode, List.map_cons] at hMap
    split_ifs at hMap <;>
      rw [List.cons.injEq] at hMap
    · exact ⟨hMap.1.symm, List.map_eq_nil_iff.mp hMap.2⟩
    all_goals omega
  · rintro ⟨hSame, rfl⟩
    rw [if_pos (by omega), hSame] at hMap
    apply List.map_injective_iff.mpr (fun _ _ => UInt8.toNat.inj)
    exact hMap

/- A round accepts exactly one encoded character but NUL. -/
theorem character_some_iff : character text = .ok (some tail) ↔ ∃ c : Char, c.toNat ≠ 0 ∧
          text = String.utf8EncodeChar c ++ tail := by
  cases text with
  | nil =>
    constructor
    · intro hRead
      cases hRead
    · rintro ⟨c, _, hSplit⟩
      have hEmpty := (List.append_eq_nil_iff.mp hSplit.symm).1
      exact absurd hEmpty String.utf8EncodeChar_ne_nil
  | cons byte rest =>
    have hStep : character (byte :: rest) = if byte.toNat = 0 then .ok none
        else if byte.toNat < 128 then .ok (some rest)
        else multibyte byte.toNat rest :=
      rfl
    have hSplit : ∀ c : Char, byte :: rest = String.utf8EncodeChar c ++ tail ↔ ∃ bytes,
        String.utf8EncodeChar c = byte :: bytes ∧ rest = bytes ++ tail := by
      intro c
      rw [List.cons_eq_append_iff]
      constructor
      · rintro (⟨hEmpty, _⟩ | hBytes)
        · exact absurd hEmpty String.utf8EncodeChar_ne_nil
        · exact hBytes
      · exact .inr
    simp only [hSplit]
    rw [hStep]
    split_ifs with hZero hAscii
    · constructor
      · intro hRead
        cases hRead
      · rintro ⟨c, hChar, bytes, hEncode, _⟩
        rw [utf8EncodeChar_ascii_iff (by omega)] at hEncode
        omega
    · constructor
      · intro hRead
        cases hRead
        have hNat : (Char.ofNat byte.toNat).toNat = byte.toNat :=
          toNat_ofNat_scalar (by omega) (by omega)
        refine ⟨Char.ofNat byte.toNat, by omega, [], ?_, rfl⟩
        exact (utf8EncodeChar_ascii_iff hAscii).mpr ⟨hNat, rfl⟩
      · rintro ⟨c, _, bytes, hEncode, rfl⟩
        rw [utf8EncodeChar_ascii_iff hAscii] at hEncode
        rw [hEncode.2]
        rfl
    · rw [multibyte_some_iff]
      constructor
      · rintro ⟨bytes, value, hWide, rfl⟩
        have hNat := toNat_ofNat_scalar hWide.scalar.1 hWide.scalar.2
        rcases utf8EncodeChar_of_wide hWide with ⟨hValue, hEncode⟩
        exact ⟨Char.ofNat value, by omega, bytes, hEncode, rfl⟩
      · rintro ⟨c, _, bytes, hEncode, rfl⟩
        have hChar : 127 < c.toNat := by
          by_contra hLow
          have hMap := utf8EncodeChar_toNat c
          rw [hEncode, if_pos (by omega), List.map_cons,
            List.cons.injEq] at hMap
          omega
        exact ⟨bytes, _, wide_of_utf8EncodeChar hChar hEncode, rfl⟩

-----
-- Texts

theorem character_shrinks (hRead : character text = .ok (some tail)) :
    tail.length < text.length := by
  rcases character_some_iff.mp hRead with ⟨c, _, rfl⟩
  have hBytes : 0 < (String.utf8EncodeChar c).length :=
    List.length_pos_iff.mpr String.utf8EncodeChar_ne_nil
  rw [List.length_append]
  omega

variable {rounds : Nat}

/- The walk ends well exactly on encoded characters. -/
theorem scan_true_iff (hRounds : text.length ≤ rounds) :
    scan rounds text = .ok true ↔ ∃ cs : List Char, (∀ c ∈ cs, c.toNat ≠ 0) ∧
          text = cs.flatMap String.utf8EncodeChar := by
  induction rounds generalizing text with
  | zero =>
    have hEmpty : text = [] := List.length_eq_zero_iff.mp (Nat.le_zero.mp hRounds)
    subst hEmpty
    exact ⟨fun _ => ⟨[], by simp, rfl⟩, fun _ => rfl⟩
  | succ rounds ih =>
    cases text with
    | nil => exact ⟨fun _ => ⟨[], by simp, rfl⟩, fun _ => rfl⟩
    | cons byte rest =>
      rw [scan, bind_ok_iff]
      constructor
      · rintro ⟨found, hRead, hScan⟩
        cases found with
        | none => cases hScan
        | some tail =>
          have hShrinks := character_shrinks hRead
          rcases (ih (by omega)).mp hScan with ⟨cs, hChars, rfl⟩
          rcases character_some_iff.mp hRead with ⟨c, hChar, hSplit⟩
          refine ⟨c :: cs, ?_, hSplit⟩
          intro d hD
          rcases List.mem_cons.mp hD with rfl | hRest
          · exact hChar
          · exact hChars d hRest
      · rintro ⟨cs, hChars, hSplit⟩
        cases cs with
        | nil => cases hSplit
        | cons c cs =>
          have hRead : character (byte :: rest) = .ok (some (cs.flatMap String.utf8EncodeChar)) :=
            character_some_iff.mpr ⟨c, hChars c List.mem_cons_self, hSplit⟩
          have hShrinks := character_shrinks hRead
          refine ⟨_, hRead, ?_⟩
          refine (ih (by omega)).mpr ⟨cs, ?_, rfl⟩
          intro d hD
          exact hChars d (List.mem_cons_of_mem _ hD)

theorem continuation_safe {remaining value : Nat} (hRoom : remaining ≤ rest.length) :
    Safe (continuation remaining value rest) := by
  induction remaining generalizing value rest with
  | zero => exact safe_pure _
  | succ remaining ih =>
    cases rest with
    | nil => cases hRoom
    | cons next rest =>
      change Safe (if _ then _ else _)
      split_ifs
      · exact safe_pure _
      · exact ih (Nat.le_of_succ_le_succ hRoom)

theorem character_safe (byte : UInt8) : Safe (character (byte :: rest)) := by
  change Safe (if byte.toNat = 0 then .ok none
    else if byte.toNat < 128 then .ok (some rest)
    else multibyte byte.toNat rest)
  split_ifs
  · exact safe_pure _
  · exact safe_pure _
  unfold multibyte
  split
  · exact safe_pure _
  split_ifs with hRoom
  · exact safe_pure _
  refine safe_bind_iff.mpr ⟨continuation_safe (Nat.le_of_not_lt hRoom), fun found _ => ?_⟩
  cases found with
  | none => exact safe_pure _
  | some pair =>
    dsimp only
    split_ifs
    · exact safe_pure _
    · exact safe_pure _

/- The walk stays inside of the text. -/
theorem scan_safe (hRounds : text.length ≤ rounds) : Safe (scan rounds text) := by
  induction rounds generalizing text with
  | zero =>
    have hEmpty : text = [] := List.length_eq_zero_iff.mp (Nat.le_zero.mp hRounds)
    subst hEmpty
    exact safe_pure _
  | succ rounds ih =>
    cases text with
    | nil => exact safe_pure _
    | cons byte rest =>
      rw [scan]
      refine safe_bind_iff.mpr ⟨character_safe byte, fun found hRead => ?_⟩
      cases found with
      | none => exact safe_pure _
      | some tail =>
        have hShrinks := character_shrinks hRead
        exact ih (by omega)

/- Encoded characters without NUL have no zero byte. -/
theorem zero_mem_utf8EncodeChar_iff {c : Char} : 0 ∈ String.utf8EncodeChar c ↔ c.toNat = 0 := by
  have hMap := utf8EncodeChar_toNat c
  have hMem : 0 ∈ String.utf8EncodeChar c ↔ 0 ∈ (String.utf8EncodeChar c).map UInt8.toNat := by
    rw [List.mem_map]
    constructor
    · intro hZero
      exact ⟨0, hZero, rfl⟩
    · rintro ⟨byte, hByte, hNat⟩
      have hSame : byte = 0 := UInt8.toNat.inj hNat
      exact hSame ▸ hByte
  rw [hMem, hMap]
  split_ifs <;>
    simp only [List.mem_cons, List.not_mem_nil, or_false] <;>
    omega

theorem scan_iff (hRounds : text.length ≤ rounds) :
    scan rounds text = .ok true ↔ ¬ 0 ∈ text ∧ (⟨text.toArray⟩ : ByteArray).IsValidUTF8 := by
  have hZero : ∀ cs : List Char, ¬ 0 ∈ cs.flatMap String.utf8EncodeChar ↔
      ∀ c ∈ cs, c.toNat ≠ 0 := by
    intro cs
    simp only [List.mem_flatMap, zero_mem_utf8EncodeChar_iff, not_exists, not_and]
  have hArray : ∀ cs : List Char, cs.utf8Encode.data =
      (cs.flatMap String.utf8EncodeChar).toArray := by
    intro cs
    exact List.data_toByteArray
  rw [scan_true_iff hRounds]
  constructor
  · rintro ⟨cs, hChars, rfl⟩
    refine ⟨(hZero cs).mpr hChars, ⟨cs, ?_⟩⟩
    exact ByteArray.ext (hArray cs).symm
  · rintro ⟨hClean, ⟨cs, hSame⟩⟩
    have hText : text = cs.flatMap String.utf8EncodeChar := by
      have hData := congrArg ByteArray.data hSame
      rw [hArray cs] at hData
      exact List.toArray_inj hData
    subst hText
    exact ⟨cs, (hZero cs).mp hClean, rfl⟩

theorem text_ok_iff_isValidUTF8 :
    (∃ s, Linux.text text = .ok s) ↔ ¬ 0 ∈ text ∧ (⟨text.toArray⟩ : ByteArray).IsValidUTF8 := by
  simp only [Linux.text_ok_iff, exists_and_left]
  refine and_congr_right fun _ => ?_
  constructor
  · rintro ⟨s, hBytes⟩
    have hSame : (⟨text.toArray⟩ : ByteArray) = s.toByteArray := by
      apply ByteArray.ext
      rw [← hBytes]
      rfl
    exact hSame ▸ s.isValidUTF8
  · intro hValid
    exact ⟨.fromUTF8 _ hValid, rfl⟩

/- Bytes of ASCII without NUL are a text. -/
theorem text_ok_of_ascii (hAscii : ∀ byte ∈ text, byte.toNat ≠ 0 ∧ byte.toNat < 128) :
    ∃ s, Linux.text text = .ok s := by
  rw [text_ok_iff_isValidUTF8, ← scan_iff le_rfl, scan_true_iff le_rfl]
  induction text with
  | nil => exact ⟨[], by simp, rfl⟩
  | cons byte rest ih =>
    rcases hAscii byte List.mem_cons_self with ⟨hZero, hByte⟩
    rcases ih (fun other hOther =>
        hAscii other (List.mem_cons_of_mem _ hOther)) with
      ⟨cs, hChars, hRest⟩
    have hNat : (Char.ofNat byte.toNat).toNat = byte.toNat :=
      toNat_ofNat_scalar (by omega) (by omega)
    have hEncode : String.utf8EncodeChar (Char.ofNat byte.toNat) = [byte] :=
      (utf8EncodeChar_ascii_iff hByte).mpr ⟨hNat, rfl⟩
    refine ⟨Char.ofNat byte.toNat :: cs, ?_, ?_⟩
    · intro c hC
      rcases List.mem_cons.mp hC with rfl | hRest
      · rwa [hNat]
      · exact hChars c hRest
    · rw [List.flatMap_cons, hEncode, ← hRest]
      rfl

theorem validFocusIdentity_iff (text : List UInt8) :
    validFocusIdentity text = .ok true ↔ 1 ≤ text.length ∧ text.length ≤ 256 ∧ ¬ 0 ∈ text ∧
        (⟨text.toArray⟩ : ByteArray).IsValidUTF8 := by
  unfold validFocusIdentity
  split_ifs with hLength
  · constructor
    · intro hTrue
      cases hTrue
    · rintro ⟨hLow, hHigh, _⟩
      omega
  · rw [scan_iff le_rfl]
    constructor
    · intro hBoth
      exact ⟨by omega, by omega, hBoth⟩
    · rintro ⟨_, _, hBoth⟩
      exact hBoth

theorem validFocusIdentity_iff_text (text : List UInt8) :
    validFocusIdentity text = .ok true ↔ text ≠ [] ∧ text.length ≤ 256 ∧
        ∃ s, Linux.text text = .ok s := by
  rw [validFocusIdentity_iff, text_ok_iff_isValidUTF8, ← List.length_pos_iff]
  rfl

/- Exactly the texts of the daemon with 1 to 256 bytes. -/
theorem validFocusIdentity_exact (text : List UInt8) :
    Safe (validFocusIdentity text) ∧ (validFocusIdentity text = .ok true ↔
        1 ≤ text.length ∧ text.length ≤ 256 ∧ ¬ 0 ∈ text ∧
          (⟨text.toArray⟩ : ByteArray).IsValidUTF8) ∧
      (validFocusIdentity text = .ok true ↔ text ≠ [] ∧ text.length ≤ 256 ∧
          ∃ s, Linux.text text = .ok s) := by
  refine ⟨?_, validFocusIdentity_iff text, validFocusIdentity_iff_text text⟩
  unfold validFocusIdentity
  split_ifs
  · exact safe_pure _
  · exact scan_safe le_rfl

end Sledge.Native.Focus
