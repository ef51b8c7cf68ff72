import Mathlib.Data.BitVec

/-
  The normalized key events every platform backend delivers
  to the matching engine (`packages/core/src/event.rs`).
-/

-----
-- Devices And Modifier Sets

namespace Sledge.Core

/- Identity of a physical input stream.  Zero is the legacy stream. -/
structure DeviceId where
  id : Nat
deriving DecidableEq, Repr

/-
  A set of modifier bits.  Backends set a side bit together with its generic bit, but the
  type admits every 32-bit value.
-/
structure Modifiers where
  bits : BitVec 32
deriving DecidableEq, Repr

namespace Modifiers

def empty : Modifiers := ⟨0⟩

def ctrl : Modifiers := ⟨1 <<< 0⟩
def shift : Modifiers := ⟨1 <<< 1⟩
def alt : Modifiers := ⟨1 <<< 2⟩
def cmd : Modifiers := ⟨1 <<< 3⟩
def fn : Modifiers := ⟨1 <<< 4⟩

def leftCtrl : Modifiers := ⟨1 <<< 8⟩
def rightCtrl : Modifiers := ⟨1 <<< 9⟩
def leftShift : Modifiers := ⟨1 <<< 10⟩
def rightShift : Modifiers := ⟨1 <<< 11⟩
def leftAlt : Modifiers := ⟨1 <<< 12⟩
def rightAlt : Modifiers := ⟨1 <<< 13⟩
def leftCmd : Modifiers := ⟨1 <<< 14⟩
def rightCmd : Modifiers := ⟨1 <<< 15⟩

def union (a b : Modifiers) : Modifiers := ⟨a.bits ||| b.bits⟩

/- Every bit of `required` is set in `mods`. -/
def contains (mods required : Modifiers) : Bool := mods.bits &&& required.bits == required.bits

def difference (a b : Modifiers) : Modifiers := ⟨a.bits &&& ~~~b.bits⟩

def isEmpty (mods : Modifiers) : Bool := mods.bits == 0

/- Generic bits match either side, side bits that side. -/
def «matches» (mods required : Modifiers) : Bool := mods.contains required

def any (mods : Modifiers) : Bool := !mods.isEmpty

end Modifiers

-----
-- Key Codes

/- Normalized key codes. -/
inductive KeyCode where
  | keyA | keyB | keyC | keyD | keyE | keyF | keyG | keyH
  | keyI | keyJ | keyK | keyL | keyM | keyN | keyO | keyP
  | keyQ | keyR | keyS | keyT | keyU | keyV | keyW | keyX
  | keyY | keyZ
  | digit0 | digit1 | digit2 | digit3 | digit4
  | digit5 | digit6 | digit7 | digit8 | digit9
  | f1 | f2 | f3 | f4 | f5 | f6 | f7 | f8 | f9 | f10
  | f11 | f12 | f13 | f14 | f15 | f16 | f17 | f18 | f19
  | f20 | f21 | f22 | f23 | f24
  | arrowUp | arrowDown | arrowLeft | arrowRight
  | leftShift | rightShift | leftCtrl | rightCtrl
  | leftAlt | rightAlt | leftCmd | rightCmd
  | fn | capsLock
  | returnKey | tab | space | backspace | delete | escape
  | semicolon | quote | comma | period | slash | backslash
  | backquote | minus | equal | leftBracket | rightBracket
  | home | endKey | pageUp | pageDown | insert
deriving DecidableEq, Repr

namespace KeyCode

def isModifier : KeyCode → Bool
  | .leftShift | .rightShift => true
  | .leftCtrl | .rightCtrl => true
  | .leftAlt | .rightAlt => true
  | .leftCmd | .rightCmd => true
  | .fn | .capsLock => true
  | _ => false

/- The bit of the specific side being pressed. -/
def modifierBit : KeyCode → Modifiers
  | .leftShift => .leftShift
  | .rightShift => .rightShift
  | .leftCtrl => .leftCtrl
  | .rightCtrl => .rightCtrl
  | .leftAlt => .leftAlt
  | .rightAlt => .rightAlt
  | .leftCmd => .leftCmd
  | .rightCmd => .rightCmd
  | .fn => .fn
  | _ => .empty

/- The bit shared by both sides of a modifier family. -/
def genericBit : KeyCode → Modifiers
  | .leftShift | .rightShift => .shift
  | .leftCtrl | .rightCtrl => .ctrl
  | .leftAlt | .rightAlt => .alt
  | .leftCmd | .rightCmd => .cmd
  | .fn => .fn
  | _ => .empty

end KeyCode

-----
-- Key Events

inductive EventKind where
  | keyDown
  | keyUp
  | modifiersChanged
deriving DecidableEq, Repr

/-
  One event of a backend.  For `modifiersChanged`, `code` is the modifier that changed and
  `mods` the aggregate state after the change.
-/
structure KeyEvent where
  code : KeyCode
  kind : EventKind
  mods : Modifiers
deriving DecidableEq, Repr

/- A physical key of one device. -/
abbrev Press := DeviceId × KeyCode

end Sledge.Core
