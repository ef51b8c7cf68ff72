import Sledge.Core.Event

/-
  Actions, triggers and compiled rule sets
  (`packages/core/src/action.rs`, `trigger.rs`, `rule.rs`).
-/

-----
-- Actions And Triggers

namespace Sledge.Core

/- What a matched rule asks the backend to do. -/
inductive Action where
  | sendKey (key : KeyCode) (mods : Modifiers)
  | setInputSource (id : String)
deriving DecidableEq, Repr

structure HotkeyTrigger where
  key : KeyCode
  mods : Modifiers
deriving DecidableEq, Repr

/-
  A modifier pressed `count` times in a row, with at most `withinMs` between consecutive
  releases.
-/
structure TapTrigger where
  tap : KeyCode
  count : Nat
  withinMs : Nat
deriving DecidableEq, Repr

inductive Trigger where
  | hotkey (trigger : HotkeyTrigger)
  | tap (trigger : TapTrigger)
deriving DecidableEq, Repr

namespace Trigger

def hotkey? : Trigger → Option HotkeyTrigger
  | .hotkey trigger => some trigger
  | .tap _ => none

def tap? : Trigger → Option TapTrigger
  | .hotkey _ => none
  | .tap trigger => some trigger

end Trigger

/- A rule fires in any app, or only in the listed ones. -/
structure Rule where
  trigger : Trigger
  action : Action
  whenAppIn : Option (List String)
deriving DecidableEq, Repr

-----
-- Rule Sets

/-
  Rules split by trigger kind.  The fields of the source struct are private and filled by
  `new` only, so each half holds triggers of its own kind.
-/
structure RuleSet where
  hotkeys : List Rule
  taps : List Rule
  hotkeys_hotkey : ∀ rule ∈ hotkeys, rule.trigger.hotkey?.isSome
  taps_tap : ∀ rule ∈ taps, rule.trigger.tap?.isSome

namespace RuleSet

/- Split rules by trigger kind, keeping their order. -/
def new (rules : List Rule) : RuleSet where
  hotkeys := rules.filter (·.trigger.hotkey?.isSome)
  taps := rules.filter (·.trigger.tap?.isSome)
  hotkeys_hotkey := by
    intro rule hRule
    exact (List.mem_filter.mp hRule).2
  taps_tap := by
    intro rule hRule
    exact (List.mem_filter.mp hRule).2

def hotkeyMatches (trigger : HotkeyTrigger) (event : KeyEvent) : Bool :=
  event.kind == .keyDown && event.code == trigger.key && event.mods.matches trigger.mods

def scopeMatches (rule : Rule) (focusedApp : Option String) : Bool :=
  match rule.whenAppIn, focusedApp with
  | none, _ => true
  | some apps, some app => apps.any (· == app)
  | some _, none => false

/- A hotkey rule fires on this event in this app. -/
def hotkeyFires (rule : Rule) (event : KeyEvent) (focusedApp : Option String) : Bool :=
  match rule.trigger with
  | .hotkey trigger => hotkeyMatches trigger event && scopeMatches rule focusedApp
  | .tap _ => false

/- The first hotkey rule that fires, in rule order. -/
def findHotkey (rules : RuleSet) (event : KeyEvent) (focusedApp : Option String) : Option Rule :=
  rules.hotkeys.find? (hotkeyFires · event focusedApp)

/- The tap rules with their triggers, in rule order. -/
def tapTriggers (rules : RuleSet) : List TapTrigger := rules.taps.filterMap (·.trigger.tap?)

end RuleSet

end Sledge.Core
