import Sledge.Core.Event

/-
  Linux key codes and modifier masks
  (`packages/linux/src/keymap.rs`, and the two conversions at
  the end of `packages/linux/src/hyprland/matcher.rs`).

  Main results:
    * `fromEvdev_injective`
-/

-----
-- Key Table

namespace Sledge.Linux

open Core

namespace Keymap

/- The physical keys the matcher knows about. -/
def keys : List (Nat × KeyCode) :=
  [(1, .escape), (2, .digit1), (3, .digit2), (4, .digit3),
    (5, .digit4), (6, .digit5), (7, .digit6), (8, .digit7),
    (9, .digit8), (10, .digit9), (11, .digit0), (12, .minus),
    (13, .equal), (14, .backspace), (15, .tab), (16, .keyQ),
    (17, .keyW), (18, .keyE), (19, .keyR), (20, .keyT),
    (21, .keyY), (22, .keyU), (23, .keyI), (24, .keyO),
    (25, .keyP), (26, .leftBracket), (27, .rightBracket),
    (28, .returnKey), (29, .leftCtrl), (30, .keyA), (31, .keyS),
    (32, .keyD), (33, .keyF), (34, .keyG), (35, .keyH),
    (36, .keyJ), (37, .keyK), (38, .keyL), (39, .semicolon),
    (40, .quote), (41, .backquote), (42, .leftShift),
    (43, .backslash), (44, .keyZ), (45, .keyX), (46, .keyC),
    (47, .keyV), (48, .keyB), (49, .keyN), (50, .keyM),
    (51, .comma), (52, .period), (53, .slash),
    (54, .rightShift), (56, .leftAlt), (57, .space),
    (58, .capsLock), (59, .f1), (60, .f2), (61, .f3), (62, .f4),
    (63, .f5), (64, .f6), (65, .f7), (66, .f8), (67, .f9),
    (68, .f10), (87, .f11), (88, .f12), (97, .rightCtrl),
    (100, .rightAlt), (102, .home), (103, .arrowUp),
    (104, .pageUp), (105, .arrowLeft), (106, .arrowRight),
    (107, .endKey), (108, .arrowDown), (109, .pageDown),
    (110, .insert), (111, .delete), (125, .leftCmd),
    (126, .rightCmd), (183, .f13), (184, .f14), (185, .f15),
    (186, .f16), (187, .f17), (188, .f18), (189, .f19),
    (190, .f20), (191, .f21), (192, .f22), (193, .f23),
    (194, .f24), (464, .fn)]

end Keymap

def fromEvdev (code : Nat) : Option KeyCode :=
  Keymap.keys.findSome? (fun entry =>
    if entry.1 = code then some entry.2 else none)

def toEvdev (key : KeyCode) : Option Nat :=
  Keymap.keys.findSome? (fun entry =>
    if entry.2 = key then some entry.1 else none)

/- `u16::try_from` and the table lookup of a wire key. -/
def codeOf (key : Nat) : Option KeyCode := if key < 2 ^ 16 then fromEvdev key else none

/- Every row is found by its key code. -/
theorem toEvdev_of_mem : ∀ entry ∈ Keymap.keys, toEvdev entry.2 = some entry.1 := by
  decide +kernel

variable {key : KeyCode}

theorem mem_of_fromEvdev {code : Nat} (hFrom : fromEvdev code = some key) :
    (code, key) ∈ Keymap.keys := by
  rcases List.exists_of_findSome?_eq_some hFrom with ⟨⟨raw, mapped⟩, hMem, hEntry⟩
  simp only [Option.ite_none_right_eq_some, Option.some.injEq] at hEntry
  rcases hEntry with ⟨rfl, rfl⟩
  exact hMem

/- Two physical keys never share a key code. -/
theorem fromEvdev_injective {first second : Nat} (hFirst : fromEvdev first = some key)
    (hSecond : fromEvdev second = some key) : first = second := by
  have hOne := toEvdev_of_mem _ (mem_of_fromEvdev hFirst)
  have hTwo := toEvdev_of_mem _ (mem_of_fromEvdev hSecond)
  exact Option.some.inj (hOne.symm.trans hTwo)

theorem codeOf_injective {first second : Nat} (hFirst : codeOf first = some key)
    (hSecond : codeOf second = some key) : first = second := by
  unfold codeOf at hFirst hSecond
  rw [Option.ite_none_right_eq_some] at hFirst hSecond
  exact fromEvdev_injective hFirst.2 hSecond.2

-----
-- Modifier Masks

/- The modifier bits of a Linux key, by its code. -/
def modifier (code : Nat) : Modifiers :=
  match code with
  | 29 => .union .ctrl .leftCtrl
  | 97 => .union .ctrl .rightCtrl
  | 42 => .union .shift .leftShift
  | 54 => .union .shift .rightShift
  | 56 => .union .alt .leftAlt
  | 100 => .union .alt .rightAlt
  | 125 => .union .cmd .leftCmd
  | 126 => .union .cmd .rightCmd
  | 464 => .fn
  | _ => .empty

/- The keys of the eight wire modifier bits, in bit order. -/
def modifierKeys : List Nat := [42, 54, 29, 97, 56, 100, 125, 126]

/- The modifiers a wire mask stands for. -/
def physicalModifiers (bits : Nat) : Modifiers :=
  modifierKeys.zipIdx.foldl (fun mods entry =>
      if bits.testBit entry.2 then
        mods.union (modifier entry.1)
      else mods)
    .empty

/- The left, right and generic bit of each family. -/
def modifierFamilies : List (Modifiers × Modifiers × Modifiers × Nat) :=
  [(.leftShift, .rightShift, .shift, 0), (.leftCtrl, .rightCtrl, .ctrl, 2),
    (.leftAlt, .rightAlt, .alt, 4),
    (.leftCmd, .rightCmd, .cmd, 6)]

/- The wire bits one family asks for. -/
def familyBits (mods : Modifiers) (family : Modifiers × Modifiers × Modifiers × Nat) (bits : Nat) :
    Nat :=
  let (left, right, generic, offset) := family
  let bits := if mods.contains left || (mods.contains generic && !mods.contains right) then
      bits ||| 1 <<< offset
    else bits
  if mods.contains right then bits ||| 1 <<< (offset + 1)
  else bits

/- The wire mask of a replacement; Fn has no wire bit. -/
def requestedModifiers (mods : Modifiers) : Option Nat :=
  if mods.contains .fn then none
  else
    some (modifierFamilies.foldl (fun bits family => familyBits mods family bits) 0)

end Sledge.Linux
