import Sledge.Daemon.Sink

/-
  Validation of a parsed configuration
  (`packages/config/src/lib.rs`, `aliases.rs`; the document's
  shape is that of `packages/config/models/src/lib.rs`).

  A document is checked in the order of the source and its
  bindings are compiled into rules.  A duplicate identifier is
  kept in its error as a value; the source prints it.

  Main results:
    * `validate_compiled`
-/

-----
-- Documents

namespace Sledge.Config

open Core

inductive Platform where
  | macOS
  | linux
  | windows
deriving DecidableEq

structure InputSourceAlias where
  macos : Option String
  linux : Option String
  windows : Option String
deriving DecidableEq

structure WhenDoc where
  appIn : List String
deriving DecidableEq

inductive TriggerDoc where
  | hotkey (key : String) (mods : List String)
  | tap (tap : String) (count withinMs : Nat)
deriving DecidableEq

inductive ActionDoc where
  | sendKey (key : String) (mods : List String)
  | setInputSource (id source : Option String)
deriving DecidableEq

structure BindingDoc where
  scope : Option WhenDoc
  trigger : TriggerDoc
  action : ActionDoc
deriving DecidableEq

structure ConfigDoc where
  logLevel : String
  appAliases : Dict String AppAlias
  inputSourceAliases : Dict String InputSourceAlias
  bindings : List BindingDoc

/- A fully validated configuration. -/
structure ValidConfig where
  logLevel : String
  appAliases : Dict String AppAlias
  inputSourceAliases : Dict String InputSourceAlias
  rules : RuleSet

/- An identifier that two aliases may not share. -/
inductive Identifier where
  | app (identity : AppIdentity)
  | inputSource (platform : Platform) (id : String)
deriving DecidableEq

inductive ConfigError where
  | invalidLogLevel (level : String)
  | unknownKey (name : String) (index : Nat)
  | unknownModifier (name : String) (index : Nat)
  | unknownAlias (name : String) (index : Nat)
  | tapCountTooLow (index count : Nat)
  | tapWindowZero (index : Nat)
  | tapNotModifier (index : Nat) (name : String)
  | invalidInputSourceAction (index : Nat)
  | unknownInputSource (index : Nat) (name : String)
  | missingInputSourcePlatform (index : Nat) (name : String) (platform : Platform)
  | emptyIdentifier (kind name : String)
  | duplicateIdentifier (kind : String) (identity : Identifier) (first second : String)
deriving DecidableEq

-----
-- Aliases

/- `char::is_whitespace` of the source. -/
def isWhitespace (c : Char) : Bool :=
  let n := c.toNat
  (decide (9 ≤ n) && decide (n ≤ 13)) || n == 32 || n == 133 || n == 160 || n == 5760 ||
    (decide (8192 ≤ n) && decide (n ≤ 8202)) || n == 8232 ||
    n == 8233 || n == 8239 || n == 8287 || n == 12288

def validateIdentifier (kind name id : String) : Except ConfigError Unit :=
  if id.toList.all isWhitespace then
    .error (.emptyIdentifier kind name)
  else .ok ()

/- Aliases are visited in the order of their names. -/
def sortedAliases {A : Type} (aliases : Dict String A) : List (String × A) :=
  (inOrder aliases.keys).filterMap (fun name =>
    (aliases.get? name).map (fun entry => (name, entry)))

/- One use of an identifier by an alias. -/
structure Use where
  name : String
  identity : Identifier
  id : String

/- Identifiers are not blank, and no two aliases share one. -/
def validateIdentifiers (kind : String) :
    Dict Identifier String → List Use → Except ConfigError Unit
  | _, [] => .ok ()
  | seen, use :: rest =>
    match validateIdentifier kind use.name use.id with
    | .error error => .error error
    | .ok () =>
      match seen.get? use.identity with
      | some first =>
        .error (.duplicateIdentifier kind use.identity first
            use.name)
      | none => validateIdentifiers kind (seen.insert use.identity use.name) rest

namespace AppIdentity

def value : AppIdentity → String
  | .macOS id => id
  | .linuxLegacy id => id
  | .linuxWayland id => id
  | .linuxX11Class id => id
  | .windows id => id

end AppIdentity

def appUses (name : String) (entry : AppAlias) : List Use :=
  (appIdentities entry).map (fun identity =>
    ⟨name, .app identity, identity.value⟩)

def validateAppAliases (aliases : Dict String AppAlias) : Except ConfigError Unit :=
  validateIdentifiers "app" ∅ ((sortedAliases aliases).flatMap (fun entry =>
      appUses entry.1 entry.2))

def inputSourceId (entry : InputSourceAlias) (platform : Platform) : Option String :=
  match platform with
  | .macOS => entry.macos
  | .linux => entry.linux
  | .windows => entry.windows

def resolveInputSource (aliases : Dict String InputSourceAlias) (name : String)
    (platform : Platform) : Option String :=
  (aliases.get? name).bind (inputSourceId · platform)

def inputSourceUses (name : String) (entry : InputSourceAlias) : List Use :=
  [Platform.macOS, .linux, .windows].filterMap (fun platform =>
      (inputSourceId entry platform).map (fun id =>
        ⟨name, .inputSource platform id, id⟩))

def validateInputSources (aliases : Dict String InputSourceAlias) : Except ConfigError Unit :=
  validateIdentifiers "input source" ∅ ((sortedAliases aliases).flatMap (fun entry =>
      inputSourceUses entry.1 entry.2))

-----
-- Bindings

def keyNames : List (String × KeyCode) :=
  [("KeyA", .keyA), ("KeyB", .keyB), ("KeyC", .keyC),
    ("KeyD", .keyD), ("KeyE", .keyE), ("KeyF", .keyF),
    ("KeyG", .keyG), ("KeyH", .keyH), ("KeyI", .keyI),
    ("KeyJ", .keyJ), ("KeyK", .keyK), ("KeyL", .keyL),
    ("KeyM", .keyM), ("KeyN", .keyN), ("KeyO", .keyO),
    ("KeyP", .keyP), ("KeyQ", .keyQ), ("KeyR", .keyR),
    ("KeyS", .keyS), ("KeyT", .keyT), ("KeyU", .keyU),
    ("KeyV", .keyV), ("KeyW", .keyW), ("KeyX", .keyX),
    ("KeyY", .keyY), ("KeyZ", .keyZ), ("Digit0", .digit0),
    ("Digit1", .digit1), ("Digit2", .digit2),
    ("Digit3", .digit3), ("Digit4", .digit4),
    ("Digit5", .digit5), ("Digit6", .digit6),
    ("Digit7", .digit7), ("Digit8", .digit8),
    ("Digit9", .digit9), ("F1", .f1), ("F2", .f2), ("F3", .f3),
    ("F4", .f4), ("F5", .f5), ("F6", .f6), ("F7", .f7),
    ("F8", .f8), ("F9", .f9), ("F10", .f10), ("F11", .f11),
    ("F12", .f12), ("F13", .f13), ("F14", .f14), ("F15", .f15),
    ("F16", .f16), ("F17", .f17), ("F18", .f18), ("F19", .f19),
    ("F20", .f20), ("F21", .f21), ("F22", .f22), ("F23", .f23),
    ("F24", .f24), ("ArrowUp", .arrowUp),
    ("ArrowDown", .arrowDown), ("ArrowLeft", .arrowLeft),
    ("ArrowRight", .arrowRight), ("LeftShift", .leftShift),
    ("RightShift", .rightShift), ("LeftCtrl", .leftCtrl),
    ("RightCtrl", .rightCtrl), ("LeftAlt", .leftAlt),
    ("RightAlt", .rightAlt), ("LeftCmd", .leftCmd),
    ("RightCmd", .rightCmd), ("Fn", .fn),
    ("CapsLock", .capsLock), ("Return", .returnKey),
    ("Tab", .tab), ("Space", .space), ("Backspace", .backspace),
    ("Delete", .delete), ("Escape", .escape),
    ("Semicolon", .semicolon), ("Quote", .quote),
    ("Comma", .comma), ("Period", .period), ("Slash", .slash),
    ("Backslash", .backslash), ("Backquote", .backquote),
    ("Minus", .minus), ("Equal", .equal),
    ("LeftBracket", .leftBracket),
    ("RightBracket", .rightBracket), ("Home", .home),
    ("End", .endKey), ("PageUp", .pageUp),
    ("PageDown", .pageDown), ("Insert", .insert)]

def keycodeFromName (name : String) : Option KeyCode :=
  keyNames.findSome? (fun entry =>
    if entry.1 = name then some entry.2 else none)

def modNames : List (String × Modifiers) :=
  [("ctrl", .ctrl), ("shift", .shift), ("alt", .alt),
    ("cmd", .cmd), ("meta", .cmd), ("super", .cmd),
    ("fn", .fn),
    ("left_ctrl", .union .leftCtrl .ctrl),
    ("right_ctrl", .union .rightCtrl .ctrl),
    ("left_shift", .union .leftShift .shift),
    ("right_shift", .union .rightShift .shift),
    ("left_alt", .union .leftAlt .alt),
    ("right_alt", .union .rightAlt .alt),
    ("left_cmd", .union .leftCmd .cmd),
    ("right_cmd", .union .rightCmd .cmd)]

def modFromName (name : String) : Option Modifiers :=
  modNames.findSome? (fun entry =>
    if entry.1 = name then some entry.2 else none)

def parseKeycode (index : Nat) (name : String) : Except ConfigError KeyCode :=
  match keycodeFromName name with
  | some key => .ok key
  | none => .error (.unknownKey name index)

def parseMods (index : Nat) : Modifiers → List String → Except ConfigError Modifiers
  | mods, [] => .ok mods
  | mods, name :: rest =>
    match modFromName name with
    | none => .error (.unknownModifier name index)
    | some more => parseMods index (mods.union more) rest

def parseTrigger (index : Nat) : TriggerDoc → Except ConfigError Trigger
  | .hotkey name mods =>
    match parseKeycode index name with
    | .error error => .error error
    | .ok key =>
      match parseMods index .empty mods with
      | .error error => .error error
      | .ok mods => .ok (.hotkey ⟨key, mods⟩)
  | .tap name count withinMs =>
    match parseKeycode index name with
    | .error error => .error error
    | .ok key =>
      if ¬ key.isModifier then
        .error (.tapNotModifier index name)
      else if count < 2 then
        .error (.tapCountTooLow index count)
      else if withinMs = 0 then
        .error (.tapWindowZero index)
      else .ok (.tap ⟨key, count, withinMs⟩)

def parseAction (index : Nat) (sources : Dict String InputSourceAlias) (platform : Platform) :
    ActionDoc → Except ConfigError Action
  | .sendKey name mods =>
    match parseKeycode index name with
    | .error error => .error error
    | .ok key =>
      match parseMods index .empty mods with
      | .error error => .error error
      | .ok mods => .ok (.sendKey key mods)
  | .setInputSource (some id) none =>
    match validateIdentifier "native input source" ("binding #" ++ toString index) id with
    | .error error => .error error
    | .ok () => .ok (.setInputSource id)
  | .setInputSource none (some name) =>
    if (sources.get? name).isNone then
      .error (.unknownInputSource index name)
    else
      match resolveInputSource sources name platform with
      | none => .error (.missingInputSourcePlatform index name platform)
      | some id => .ok (.setInputSource id)
  | .setInputSource _ _ => .error (.invalidInputSourceAction index)

/- Scopes name aliases of the document only. -/
def validateWhen (index : Nat) (aliases : Dict String AppAlias) (scope : WhenDoc) :
    Except ConfigError (List String) :=
  match scope.appIn.find? (fun name =>
      (aliases.get? name).isNone) with
  | some name => .error (.unknownAlias name index)
  | none => .ok scope.appIn

def validateScope (index : Nat) (aliases : Dict String AppAlias) : Option WhenDoc →
      Except ConfigError (Option (List String))
  | none => .ok none
  | some scope => (validateWhen index aliases scope).map some

def validateBinding (aliases : Dict String AppAlias) (sources : Dict String InputSourceAlias)
    (platform : Platform) (index : Nat) (binding : BindingDoc) : Except ConfigError Rule :=
  match parseTrigger index binding.trigger with
  | .error error => .error error
  | .ok trigger =>
    match parseAction index sources platform binding.action with
    | .error error => .error error
    | .ok action =>
      match validateScope index aliases binding.scope with
      | .error error => .error error
      | .ok scope => .ok ⟨trigger, action, scope⟩

/- Bindings are numbered from zero; the first fault is kept. -/
def validateBindings (aliases : Dict String AppAlias) (sources : Dict String InputSourceAlias)
    (platform : Platform) :
    Nat → List BindingDoc → Except ConfigError (List Rule)
  | _, [] => .ok []
  | index, binding :: rest =>
    match validateBinding aliases sources platform index binding with
    | .error error => .error error
    | .ok rule =>
      match validateBindings aliases sources platform (index + 1) rest with
      | .error error => .error error
      | .ok rules => .ok (rule :: rules)

def validateLogLevel (level : String) : Except ConfigError Unit :=
  if level ∈ ["trace", "debug", "info", "warn", "error"] then
    .ok ()
  else .error (.invalidLogLevel level)

def validate (doc : ConfigDoc) (platform : Platform) : Except ConfigError ValidConfig :=
  match validateLogLevel doc.logLevel with
  | .error error => .error error
  | .ok () =>
    match validateAppAliases doc.appAliases with
    | .error error => .error error
    | .ok () =>
      match validateInputSources doc.inputSourceAliases with
      | .error error => .error error
      | .ok () =>
        match validateBindings doc.appAliases doc.inputSourceAliases platform 0 doc.bindings with
        | .error error => .error error
        | .ok rules =>
          .ok
            { logLevel := doc.logLevel
              appAliases := doc.appAliases
              inputSourceAliases := doc.inputSourceAliases
              rules := RuleSet.new rules }

-----
-- Compiled Rules

/- What a rule has passed. -/
structure Compiled (aliases : Dict String AppAlias) (rule : Rule) : Prop where
  scope : ∀ names, rule.whenAppIn = some names → ∀ name ∈ names, (aliases.get? name).isSome = true
  tap : ∀ trigger, rule.trigger = .tap trigger → trigger.tap.isModifier = true ∧ 2 ≤ trigger.count ∧
        0 < trigger.withinMs

variable {aliases : Dict String AppAlias} {sources : Dict String InputSourceAlias}
variable {platform : Platform} {index : Nat}

theorem parseTrigger_tap {doc : TriggerDoc} {trigger : TapTrigger}
    (hParse : parseTrigger index doc = .ok (.tap trigger)) :
    trigger.tap.isModifier = true ∧ 2 ≤ trigger.count ∧ 0 < trigger.withinMs := by
  cases doc with
  | hotkey name mods =>
    simp only [parseTrigger] at hParse
    split at hParse
    · cases hParse
    · split at hParse <;> cases hParse
  | tap name count withinMs =>
    simp only [parseTrigger] at hParse
    split at hParse
    · cases hParse
    rename_i key hKey
    by_cases hModifier : key.isModifier = true
    swap
    · rw [if_pos hModifier] at hParse
      cases hParse
    rw [if_neg (not_not_intro hModifier)] at hParse
    split_ifs at hParse with hCount hWindow
    cases hParse
    exact ⟨hModifier, Nat.le_of_not_lt hCount, Nat.pos_of_ne_zero hWindow⟩

theorem validateScope_known {scope : Option WhenDoc} {names : List String}
    (hScope : validateScope index aliases scope = .ok (some names)) :
    ∀ name ∈ names, (aliases.get? name).isSome = true := by
  cases scope with
  | none => cases hScope
  | some scope =>
    simp only [validateScope, validateWhen] at hScope
    cases hUnknown : scope.appIn.find? (fun name =>
          (aliases.get? name).isNone) with
    | some name =>
      rw [hUnknown] at hScope
      cases hScope
    | none =>
      rw [hUnknown] at hScope
      cases hScope
      rw [List.find?_eq_none] at hUnknown
      intro name hMem
      rw [Option.isSome_iff_ne_none]
      simpa using hUnknown name hMem

theorem validateBinding_compiled {binding : BindingDoc} {rule : Rule}
    (hBinding : validateBinding aliases sources platform index binding = .ok rule) :
    Compiled aliases rule := by
  unfold validateBinding at hBinding
  split at hBinding
  · cases hBinding
  rename_i trigger hTrigger
  split at hBinding
  · cases hBinding
  split at hBinding
  · cases hBinding
  rename_i scope hScope
  cases hBinding
  refine ⟨?_, ?_⟩
  · intro names hNames
    dsimp only at hNames
    rw [hNames] at hScope
    exact validateScope_known hScope
  · intro tap hTap
    dsimp only at hTap
    rw [hTap] at hTrigger
    exact parseTrigger_tap hTrigger

theorem validateBindings_compiled {bindings : List BindingDoc} {rules : List Rule}
    (hBindings : validateBindings aliases sources platform index bindings = .ok rules) :
    ∀ rule ∈ rules, Compiled aliases rule := by
  induction bindings generalizing index rules with
  | nil =>
    cases hBindings
    intro rule hMem
    cases hMem
  | cons binding rest ih =>
    unfold validateBindings at hBindings
    split at hBindings
    · cases hBindings
    rename_i first hFirst
    split at hBindings
    · cases hBindings
    rename_i others hOthers
    cases hBindings
    exact List.forall_mem_cons.mpr ⟨validateBinding_compiled hFirst, ih hOthers⟩

/- Every rule of an accepted document has passed. -/
theorem validate_compiled {doc : ConfigDoc} {config : ValidConfig}
    (hValid : validate doc platform = .ok config) :
    ∀ rule ∈ config.rules.hotkeys ++ config.rules.taps, Compiled doc.appAliases rule := by
  unfold validate at hValid
  split at hValid
  · cases hValid
  split at hValid
  · cases hValid
  split at hValid
  · cases hValid
  split at hValid
  · cases hValid
  rename_i rules hRules
  cases hValid
  intro rule hMem
  refine validateBindings_compiled hRules rule ?_
  rcases List.mem_append.mp hMem with hHotkey | hTap
  · exact List.mem_of_mem_filter hHotkey
  · exact List.mem_of_mem_filter hTap

end Sledge.Config
