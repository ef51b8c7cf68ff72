import Sledge.Linux.Wire

/-
  The start time of a process, read from its stat line
  (`parse_start` in `packages/linux/src/hyprland/session.rs`).

  A string slice is its list of characters; offsets into it
  are counted in bytes of UTF-8, and a slice that does not
  start at a character aborts.

  Main results:
    * `rfind_eq_some_iff`
    * `splitWhitespace_spaced`
    * `parseStart_unspoofed`
-/

-----
-- Byte Offsets

namespace Sledge.Linux

def byteLen (text : List Char) : Nat := (text.map Char.utf8Size).sum

/- The offset of the last occurrence of a character. -/
def rfind (c : Char) : List Char → Option Nat
  | [] => none
  | head :: rest =>
    match rfind c rest with
    | some offset => some (head.utf8Size + offset)
    | none => if head = c then some 0 else none

/- The slice `&text[offset..]`; `none` is the panic off a character boundary. -/
def sliceFrom : List Char → Nat → Option (List Char)
  | text, 0 => some text
  | [], _ + 1 => none
  | head :: rest, offset => if offset < head.utf8Size then none else sliceFrom rest (offset - head.utf8Size)

theorem sliceFrom_byteLen (front rest : List Char) :
    sliceFrom (front ++ rest) (byteLen front) = some rest := by
  induction front with
  | nil => cases rest <;> rfl
  | cons head front ih =>
    have hPos := head.utf8Size_pos
    have hLen : byteLen (head :: front) = head.utf8Size + byteLen front := by simp [byteLen]
    rw [hLen, List.cons_append, sliceFrom.eq_3 _ _ _ (by omega), if_neg (by omega),
      Nat.add_sub_cancel_left, ih]

theorem rfind_eq_none_iff {c : Char} {text : List Char} : rfind c text = none ↔ c ∉ text := by
  induction text with
  | nil => simp [rfind]
  | cons head rest ih =>
    rw [rfind, List.mem_cons, not_or, ← ih]
    cases rfind c rest with
    | none => simp [eq_comm]
    | some offset => simp

/- The occurrence that is found has no other after it. -/
theorem rfind_eq_some_iff {c : Char} {text : List Char} {offset : Nat} :
    rfind c text = some offset ↔
      ∃ front rest, text = front ++ c :: rest ∧ c ∉ rest ∧ offset = byteLen front := by
  induction text generalizing offset with
  | nil => simp [rfind]
  | cons head rest ih =>
    constructor
    · intro hFind
      rw [rfind] at hFind
      split at hFind
      · rename_i inner hInner
        cases hFind
        rcases ih.mp hInner with ⟨front, tail, rfl, hTail, rfl⟩
        exact ⟨head :: front, tail, rfl, hTail, by simp [byteLen]⟩
      · rename_i hNone
        split_ifs at hFind with hHead
        cases hFind
        exact ⟨[], rest, by rw [hHead]; rfl, rfind_eq_none_iff.mp hNone, rfl⟩
    · rintro ⟨front, tail, hText, hTail, rfl⟩
      rw [rfind]
      cases front with
      | nil =>
        cases hText
        rw [rfind_eq_none_iff.mpr hTail]
        simp [byteLen]
      | cons first front =>
        cases hText
        rw [ih.mpr ⟨front, tail, rfl, hTail, rfl⟩]
        simp [byteLen]

-----
-- Fields And Numbers

/- The characters with the Unicode property `White_Space`. -/
def isWhitespace (c : Char) : Bool :=
  (9 ≤ c.toNat && c.toNat ≤ 13) || (0x2000 ≤ c.toNat && c.toNat ≤ 0x200A) ||
    [0x20, 0x85, 0xA0, 0x1680, 0x2028, 0x2029, 0x202F, 0x205F, 0x3000].contains c.toNat

def splitWhitespace (text : List Char) : List (List Char) :=
  (text.splitOnP isWhitespace).filter (fun field => !field.isEmpty)

theorem splitWhitespace_cons {c : Char} (hSpace : isWhitespace c = true) (text : List Char) :
    splitWhitespace (c :: text) = splitWhitespace text := by
  rw [splitWhitespace, List.splitOnP_cons_eq_if_modifyHead, if_pos hSpace]
  rfl

/- A field ends at white space or with the text. -/
theorem splitWhitespace_append {field rest : List Char} (hNonempty : field ≠ [])
    (hField : ∀ c ∈ field, isWhitespace c = false)
    (hRest : ∀ c ∈ rest.head?, isWhitespace c = true) :
    splitWhitespace (field ++ rest) = field :: splitWhitespace rest := by
  cases rest with
  | nil =>
    rw [List.append_nil, splitWhitespace, List.splitOnP_eq_singleton hField]
    simp [splitWhitespace, hNonempty]
  | cons c rest =>
    have hSpace : isWhitespace c = true := hRest c rfl
    rw [splitWhitespace_cons hSpace, splitWhitespace,
      List.splitOnP_append_cons_of_forall_mem hField c hSpace]
    simp [splitWhitespace, hNonempty]

/- A run of fields, each with the white space before it. -/
def spaced (fields : List (List Char × List Char)) : List Char := fields.flatMap (fun f => f.1 ++ f.2)

/- White space that separates, and a field with none in it. -/
def Separated (f : List Char × List Char) : Prop :=
  (f.1 ≠ [] ∧ ∀ c ∈ f.1, isWhitespace c = true) ∧ f.2 ≠ [] ∧ ∀ c ∈ f.2, isWhitespace c = false

theorem splitWhitespace_blank {blank : List Char} (hBlank : ∀ c ∈ blank, isWhitespace c = true)
    (text : List Char) : splitWhitespace (blank ++ text) = splitWhitespace text := by
  induction blank with
  | nil => rfl
  | cons c blank ih =>
    rw [List.forall_mem_cons] at hBlank
    rw [List.cons_append, splitWhitespace_cons hBlank.1, ih hBlank.2]

/- Separated fields are read back, whatever white space ends the text. -/
theorem splitWhitespace_spaced {fields : List (List Char × List Char)} {trailing : List Char}
    (hFields : ∀ f ∈ fields, Separated f) (hTrailing : ∀ c ∈ trailing, isWhitespace c = true) :
    splitWhitespace (spaced fields ++ trailing) = fields.map Prod.snd := by
  induction fields with
  | nil =>
    have hBlank := splitWhitespace_blank hTrailing []
    rwa [List.append_nil] at hBlank
  | cons f fields ih =>
    rw [List.forall_mem_cons] at hFields
    rcases hFields with ⟨⟨⟨_, hBlank⟩, hNonempty, hField⟩, hRest⟩
    rw [spaced, List.flatMap_cons, List.append_assoc, List.append_assoc, splitWhitespace_blank hBlank,
      splitWhitespace_append hNonempty hField]
    · exact congrArg (f.2 :: ·) (ih hRest)
    · intro c hHead
      cases fields with
      | nil => exact hTrailing c (List.mem_of_mem_head? hHead)
      | cons next fields =>
        rcases (hRest next List.mem_cons_self).1 with ⟨hNext, hSpace⟩
        rw [List.flatMap_cons, List.append_assoc, List.append_assoc, List.head?_append_of_ne_nil _ hNext]
          at hHead
        exact hSpace c (List.mem_of_mem_head? hHead)

/- The digits of a `u64`, each step checked for overflow. -/
def parseDigits : List Char → Nat → Option Nat
  | [], value => some value
  | c :: rest, value =>
    if c.isDigit then
      let next := 10 * value + (c.toNat - '0'.toNat)
      if next < 2 ^ 64 then parseDigits rest next else none
    else none

/- `str::parse::<u64>`, which takes a leading plus sign. -/
def parseU64 : List Char → Option Nat
  | [] => none
  | '+' :: digits => if digits.isEmpty then none else parseDigits digits 0
  | digits => parseDigits digits 0

theorem parseDigits_ofDigitChars {digits : List Char} {value : Nat}
    (hDigits : ∀ c ∈ digits, c.isDigit = true) (hBound : Nat.ofDigitChars 10 digits value < 2 ^ 64) :
    parseDigits digits value = some (Nat.ofDigitChars 10 digits value) := by
  induction digits generalizing value with
  | nil => rfl
  | cons c rest ih =>
    rw [List.forall_mem_cons] at hDigits
    rw [Nat.ofDigitChars_cons] at hBound ⊢
    -- the value only grows with the digits that follow
    have hGrows : 10 * value + (c.toNat - '0'.toNat) ≤
        Nat.ofDigitChars 10 rest (10 * value + (c.toNat - '0'.toNat)) := by
      rw [Nat.ofDigitChars_eq_ofDigitChars_zero]
      exact Nat.le_add_right_of_le (Nat.le_mul_of_pos_left _ (Nat.pow_pos (by omega)))
    rw [parseDigits, if_pos hDigits.1, if_pos (by omega), ih hDigits.2 hBound]

theorem parseU64_toDigits {n : Nat} (hBound : n < 2 ^ 64) : parseU64 (Nat.toDigits 10 n) = some n := by
  have hDigits (c : Char) (hMem : c ∈ Nat.toDigits 10 n) : c.isDigit = true :=
    Nat.isDigit_of_mem_toDigits (by omega) (by omega) hMem
  have hParse : parseDigits (Nat.toDigits 10 n) 0 = some n := by
    rw [parseDigits_ofDigitChars hDigits (by rwa [Nat.ofDigitChars_ten_toDigits]),
      Nat.ofDigitChars_ten_toDigits]
  cases hText : Nat.toDigits 10 n with
  | nil => exact absurd hText Nat.toDigits_ne_nil
  | cons c rest =>
    have hPlain : c ≠ '+' := by
      rintro rfl
      exact absurd (hDigits '+' (by simp [hText])) (by decide)
    rw [parseU64.eq_3 _ (by simp) (fun _ hPlus => hPlain (List.cons.inj hPlus).1), ← hText, hParse]

-----
-- The Start Time

def parseStart (stat : List Char) : Option (Except IoError Nat) :=
  let denied (message : String) : IoError := ⟨.permissionDenied, message⟩
  match rfind ')' stat with
  | none => some (.error (denied "invalid process stat"))
  | some offset =>
    (sliceFrom stat (offset + 1)).map (fun rest =>
      match (splitWhitespace rest)[19]? with
      | none => .error (denied "missing process starttime")
      | some field =>
        match parseU64 field with
        | none => .error (denied "invalid process starttime")
        | some start => .ok start)

/- The line `pid (name) f1 .. fn`, with white space at its end. -/
def statLine (pid : Nat) (name : List Char) (fields : List (List Char × List Char))
    (trailing : List Char) : List Char :=
  Nat.toDigits 10 pid ++ " (".toList ++ name ++ ')' :: (spaced fields ++ trailing)

/- The text after the last closing parenthesis is sliced at a character. -/
theorem sliceFrom_rfind {text front rest : List Char} (hText : text = front ++ ')' :: rest)
    (hLast : ')' ∉ rest) :
    rfind ')' text = some (byteLen front) ∧ sliceFrom text (byteLen front + 1) = some rest := by
  refine ⟨rfind_eq_some_iff.mpr ⟨front, rest, hText, hLast, rfl⟩, ?_⟩
  have hOne : (')').utf8Size = 1 := by decide
  have hLen : byteLen front + 1 = byteLen (front ++ [')']) := by simp [byteLen, hOne]
  rw [hText, hLen, List.append_cons, sliceFrom_byteLen]

/-
  The start time is the twentieth field whatever the command is named, and no text makes
  the parser abort.
-/
theorem parseStart_unspoofed : (∀ stat, (parseStart stat).isSome = true) ∧
    ∀ (pid : Nat) (name : List Char) (fields : List (List Char × List Char)) (trailing : List Char)
      (start : Nat), 20 ≤ fields.length → (∀ f ∈ fields, Separated f ∧ ')' ∉ f.2) →
      (∀ c ∈ trailing, isWhitespace c = true) →
      fields[19]?.map Prod.snd = some (Nat.toDigits 10 start) → start < 2 ^ 64 →
      parseStart (statLine pid name fields trailing) = some (.ok start) := by
  refine ⟨fun stat => ?_, ?_⟩
  · rw [parseStart]
    split
    · rfl
    · rename_i offset hFind
      rcases rfind_eq_some_iff.mp hFind with ⟨front, rest, hText, hLast, rfl⟩
      rw [(sliceFrom_rfind hText hLast).2]
      rfl
  · intro pid name fields trailing start _ hFields hTrailing hStart hBound
    have hSplit := splitWhitespace_spaced (fun f hMem => (hFields f hMem).1) hTrailing
    have hBlank (blank : List Char) (hSpace : ∀ c ∈ blank, isWhitespace c = true) : ')' ∉ blank :=
      fun hMem => absurd (hSpace _ hMem) (by decide)
    have hLast : ')' ∉ spaced fields ++ trailing := by
      rw [List.mem_append, spaced, List.mem_flatMap]
      rintro (⟨f, hMem, hChar⟩ | hMem)
      · rcases List.mem_append.mp hChar with hSpace | hChar
        · exact hBlank f.1 (hFields f hMem).1.1.2 hSpace
        · exact (hFields f hMem).2 hChar
      · exact hBlank trailing hTrailing hMem
    have hLine : statLine pid name fields trailing = Nat.toDigits 10 pid ++ " (".toList ++ name ++
        ')' :: (spaced fields ++ trailing) := rfl
    rcases sliceFrom_rfind hLine hLast with ⟨hFind, hSlice⟩
    simp only [parseStart, hFind, hSlice, Option.map_some, hSplit, List.getElem?_map, hStart,
      parseU64_toDigits hBound]

instance (text : List Char) (space : Bool) : Decidable (∀ c ∈ text, isWhitespace c = space) :=
  List.decidableBAll _ text

instance (f : List Char × List Char) : Decidable (Separated f) := inferInstanceAs (Decidable (_ ∧ _))

/- A command named like the end of a stat line. -/
theorem parseStart_unspoofed_nested :
    parseStart (statLine 1 "x) S 0".toList (List.replicate 20 ([' '], ['4', '2'])) ['\n']) =
      some (.ok 42) :=
  parseStart_unspoofed.2 1 _ _ _ 42 (by decide) (by decide) (by decide) (by decide) (by decide)

end Sledge.Linux
