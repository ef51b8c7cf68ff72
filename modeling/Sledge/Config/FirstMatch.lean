import Sledge.Config.Validate
import Sledge.Core.Firing

/-
  Hotkey bindings, from the document to the verdict.

  A document denotes the action of its first binding that
  applies to a key going down.  The matcher answers with this
  action for every key but the modifiers: their events go to
  the tap rules, so a hotkey on one of them never fires.

  Main results:
    * `validateBindings_denotes`
    * `findHotkey_eq_firstAction`
    * `firstMatch_iff`
-/

-----
-- What A Document Says

namespace Sledge

namespace Config

open Core

/- Every modifier of the list is held. -/
def modsHeld (mods : Modifiers) (names : List String) : Bool :=
  names.all (fun name =>
    (modFromName name).any (fun bits => mods.contains bits))

def scopeAdmits (scope : Option WhenDoc) (focusedApp : Option String) : Bool :=
  match scope, focusedApp with
  | none, _ => true
  | some scope, some app => decide (app ∈ scope.appIn)
  | some _, none => false

namespace BindingDoc

/- The binding is a hotkey on this key, held and in scope. -/
def appliesTo (event : KeyEvent) (focusedApp : Option String) (binding : BindingDoc) : Bool :=
  match binding.trigger with
  | .hotkey name mods =>
    keycodeFromName name == some event.code && modsHeld event.mods mods &&
      scopeAdmits binding.scope focusedApp
  | .tap _ _ _ => false

end BindingDoc

/- The bits a list of modifier names stands for. -/
def modsNamed : List String → Option Modifiers
  | [] => some .empty
  | name :: rest =>
    (modFromName name).bind (fun bits =>
      (modsNamed rest).map (fun others => bits.union others))

namespace ActionDoc

def meaning (sources : Dict String InputSourceAlias) (platform : Platform) : ActionDoc → Option Action
  | .sendKey name mods =>
    (keycodeFromName name).bind (fun key =>
      (modsNamed mods).map (fun bits => .sendKey key bits))
  | .setInputSource (some id) none => some (.setInputSource id)
  | .setInputSource none (some name) =>
    (resolveInputSource sources name platform).map Action.setInputSource
  | .setInputSource _ _ => none

end ActionDoc

namespace ConfigDoc

/- The first binding of the document that applies. -/
def firstBinding (doc : ConfigDoc) (event : KeyEvent) (focusedApp : Option String) :
    Option BindingDoc :=
  doc.bindings.find? (BindingDoc.appliesTo event focusedApp)

/- Its action. -/
def firstAction (doc : ConfigDoc) (platform : Platform) (event : KeyEvent)
    (focusedApp : Option String) : Option Action :=
  (doc.firstBinding event focusedApp).bind (fun binding =>
    binding.action.meaning doc.inputSourceAliases platform)

end ConfigDoc

end Config

-----
-- What Its Rules Say

namespace Core.Modifiers

theorem union_empty (mods : Modifiers) : mods.union .empty = mods := by
  simp [union, empty]

theorem empty_union (mods : Modifiers) : Modifiers.empty.union mods = mods := by
  simp [union, empty]

theorem union_assoc (a b c : Modifiers) : (a.union b).union c = a.union (b.union c) := by
  simp [union, BitVec.or_assoc]

theorem contains_empty (mods : Modifiers) : mods.contains .empty = true := by
  simp [contains, empty]

theorem contains_union (mods a b : Modifiers) :
    mods.contains (a.union b) = (mods.contains a && mods.contains b) := by
  rw [Bool.eq_iff_iff, Bool.and_eq_true]
  simp only [contains, union, beq_iff_eq, BitVec.and_or_distrib_left]
  constructor
  · intro hBoth
    -- Bit by bit, what is required of either is held.
    have hBit : ∀ i, (mods.bits.getLsbD i && a.bits.getLsbD i ||
          mods.bits.getLsbD i && b.bits.getLsbD i) =
        (a.bits.getLsbD i || b.bits.getLsbD i) := by
      intro i
      simpa using congrArg (fun bits => bits.getLsbD i) hBoth
    constructor <;>
    · refine BitVec.eq_of_getLsbD_eq ?_
      intro i _
      have hHere := hBit i
      rw [BitVec.getLsbD_and]
      revert hHere
      cases mods.bits.getLsbD i <;> cases a.bits.getLsbD i <;>
        cases b.bits.getLsbD i <;> decide
  · rintro ⟨hLeft, hRight⟩
    rw [hLeft, hRight]

end Core.Modifiers

namespace Config

open Core RuleSet

variable {aliases : Dict String AppAlias} {sources : Dict String InputSourceAlias}
variable {platform : Platform} {index : Nat}

theorem parseMods_ok {start mods : Modifiers} {names : List String}
    (hParse : parseMods index start names = .ok mods) :
    ∃ bits, modsNamed names = some bits ∧ mods = start.union bits ∧ ∀ held : Modifiers,
        modsHeld held names = held.contains bits := by
  induction names generalizing start with
  | nil =>
    cases hParse
    refine ⟨.empty, rfl, (Modifiers.union_empty _).symm, ?_⟩
    intro held
    exact (Modifiers.contains_empty held).symm
  | cons name rest ih =>
    unfold parseMods at hParse
    cases hName : modFromName name with
    | none =>
      rw [hName] at hParse
      cases hParse
    | some more =>
      rw [hName] at hParse
      rcases ih hParse with ⟨others, hOthers, rfl, hHeld⟩
      refine ⟨more.union others, ?_, ?_, ?_⟩
      · simp [modsNamed, hName, hOthers]
      · exact Modifiers.union_assoc _ _ _
      · intro held
        rw [Modifiers.contains_union, ← hHeld]
        simp [modsHeld, hName]

theorem parseKeycode_ok {name : String} {key : KeyCode} (hParse : parseKeycode index name = .ok key) :
    keycodeFromName name = some key := by
  unfold parseKeycode at hParse
  split at hParse
  · rename_i found hFound
    cases hParse
    exact hFound
  · cases hParse

theorem parseAction_ok {doc : ActionDoc} {action : Action}
    (hParse : parseAction index sources platform doc = .ok action) :
    doc.meaning sources platform = some action := by
  unfold parseAction at hParse
  split at hParse
  · -- A key is sent.
    split at hParse
    · cases hParse
    rename_i key hKey
    split at hParse
    · cases hParse
    rename_i mods hMods
    cases hParse
    rcases parseMods_ok hMods with ⟨bits, hBits, rfl, _⟩
    simp [ActionDoc.meaning, parseKeycode_ok hKey, hBits, Modifiers.empty_union]
  · -- A source is selected by its own identifier.
    split at hParse
    · cases hParse
    cases hParse
    rfl
  · -- A source is selected by its alias.
    split_ifs at hParse
    split at hParse
    · cases hParse
    rename_i id hId
    cases hParse
    simp [ActionDoc.meaning, hId]
  · cases hParse

/- A scope is compiled to the names it lists. -/
theorem validateScope_admits {scope : Option WhenDoc} {names : Option (List String)}
    (hScope : validateScope index aliases scope = .ok names) (trigger : Trigger) (action : Action)
    (focusedApp : Option String) :
    scopeMatches ⟨trigger, action, names⟩ focusedApp = scopeAdmits scope focusedApp := by
  cases scope with
  | none =>
    cases hScope
    rfl
  | some scope =>
    simp only [validateScope, validateWhen] at hScope
    split at hScope
    · cases hScope
    cases hScope
    cases focusedApp with
    | none => rfl
    | some app => simp [scopeMatches, scopeAdmits, List.any_beq']

/- What the rule of a binding keeps of it. -/
structure Denotes (sources : Dict String InputSourceAlias) (platform : Platform)
    (binding : BindingDoc) (rule : Rule) : Prop where
  action : binding.action.meaning sources platform = some rule.action
  fires : ∀ event focusedApp, event.kind = .keyDown → hotkeyFires rule event focusedApp =
        binding.appliesTo event focusedApp

theorem validateBinding_denotes {binding : BindingDoc} {rule : Rule}
    (hBinding : validateBinding aliases sources platform index binding = .ok rule) :
    Denotes sources platform binding rule := by
  unfold validateBinding at hBinding
  split at hBinding
  · cases hBinding
  rename_i trigger hTrigger
  split at hBinding
  · cases hBinding
  rename_i action hAction
  split at hBinding
  · cases hBinding
  rename_i scope hScope
  cases hBinding
  refine ⟨parseAction_ok hAction, ?_⟩
  intro event focusedApp hKind
  have hAdmits := validateScope_admits hScope trigger action focusedApp
  unfold BindingDoc.appliesTo
  cases hDoc : binding.trigger with
  | hotkey name mods =>
    rw [hDoc] at hTrigger
    simp only [parseTrigger] at hTrigger
    split at hTrigger
    · cases hTrigger
    rename_i key hKey
    split at hTrigger
    · cases hTrigger
    rename_i bits hBits
    cases hTrigger
    rcases parseMods_ok hBits with ⟨named, _, rfl, hHeld⟩
    simp only [hotkeyFires, hotkeyMatches, ← hAdmits, hHeld, parseKeycode_ok hKey,
      Modifiers.empty_union, Modifiers.matches, hKind]
    rw [beq_self_eq_true, Bool.true_and, Bool.beq_comm (a := event.code), Option.some_beq_some]
  | tap name count withinMs =>
    rw [hDoc] at hTrigger
    simp only [parseTrigger] at hTrigger
    split at hTrigger
    · cases hTrigger
    split_ifs at hTrigger
    cases hTrigger
    rfl

variable {bindings : List BindingDoc} {rules : List Rule} {event : KeyEvent} {doc : ConfigDoc}
variable {config : ValidConfig}

theorem validateBindings_denotes
    (hBindings : validateBindings aliases sources platform index bindings = .ok rules) :
    List.Forall₂ (Denotes sources platform) bindings rules := by
  induction bindings generalizing index rules with
  | nil =>
    cases hBindings
    exact .nil
  | cons binding rest ih =>
    unfold validateBindings at hBindings
    split at hBindings
    · cases hBindings
    rename_i first hFirst
    split at hBindings
    · cases hBindings
    rename_i others hOthers
    cases hBindings
    exact .cons (validateBinding_denotes hFirst) (ih hOthers)

/- The first rule that fires is that of the first binding. -/
theorem find_of_denotes (hDenotes : List.Forall₂ (Denotes sources platform) bindings rules)
    (hKind : event.kind = .keyDown) (focusedApp : Option String) :
    (rules.find? (hotkeyFires · event focusedApp)).map Rule.action = (bindings.find?
          (BindingDoc.appliesTo event focusedApp)).bind
        (fun binding =>
          binding.action.meaning sources platform) := by
  induction hDenotes with
  | nil => rfl
  | cons hFirst _ ih =>
    rw [List.find?_cons, List.find?_cons, hFirst.fires event focusedApp hKind]
    split
    · exact hFirst.action.symm
    · exact ih

theorem fires_none_iff (hDenotes : List.Forall₂ (Denotes sources platform) bindings rules)
    (hKind : event.kind = .keyDown) (focusedApp : Option String) :
    (∀ rule ∈ rules, ¬ hotkeyFires rule event focusedApp = true) ↔ ∀ binding ∈ bindings,
        binding.appliesTo event focusedApp = false := by
  induction hDenotes with
  | nil => simp
  | cons hFirst _ ih =>
    rw [List.forall_mem_cons, List.forall_mem_cons, ih, hFirst.fires event focusedApp hKind,
      Bool.not_eq_true]

/- Splitting the rules by kind loses no hotkey. -/
theorem findHotkey_new (rules : List Rule) (event : KeyEvent) (focusedApp : Option String) :
    (new rules).findHotkey event focusedApp =
      rules.find? (hotkeyFires · event focusedApp) := by
  unfold findHotkey new
  rw [List.find?_filter]
  congr 1
  funext rule
  cases hTrigger : rule.trigger <;>
    simp [hotkeyFires, Trigger.hotkey?, hTrigger]

theorem validate_bindings (hValid : validate doc platform = .ok config) :
    ∃ rules, validateBindings doc.appAliases doc.inputSourceAliases platform 0 doc.bindings =
        .ok rules ∧
      config.rules = new rules := by
  unfold validate at hValid
  split at hValid
  · cases hValid
  split at hValid
  · cases hValid
  split at hValid
  · cases hValid
  split at hValid
  · cases hValid
  rename_i rules hRules
  cases hValid
  exact ⟨rules, hRules, rfl⟩

theorem findHotkey_eq_firstAction (hValid : validate doc platform = .ok config)
    (hKind : event.kind = .keyDown) (focusedApp : Option String) :
    (config.rules.findHotkey event focusedApp).map Rule.action =
      doc.firstAction platform event focusedApp := by
  rcases validate_bindings hValid with ⟨rules, hRules, hNew⟩
  rw [hNew, findHotkey_new]
  exact find_of_denotes (validateBindings_denotes hRules) hKind focusedApp

/- An applicable binding of an accepted document fires. -/
theorem firstAction_eq_none_iff (hValid : validate doc platform = .ok config)
    (hKind : event.kind = .keyDown) (focusedApp : Option String) :
    doc.firstAction platform event focusedApp = none ↔ ∀ binding ∈ doc.bindings,
        binding.appliesTo event focusedApp = false := by
  rcases validate_bindings hValid with ⟨rules, hRules, _⟩
  have hDenotes := validateBindings_denotes hRules
  unfold ConfigDoc.firstAction ConfigDoc.firstBinding
  rw [← find_of_denotes hDenotes hKind, Option.map_eq_none_iff, List.find?_eq_none]
  exact fires_none_iff hDenotes hKind focusedApp

-----
-- Documents Against Verdicts

/- The verdict is the action of the first applicable binding. -/
def FirstMatch (doc : ConfigDoc) (platform : Platform) (m : Matcher) (device : DeviceId)
    (event : KeyEvent) (focusedApp : Option String) (now : Instant) : Prop :=
  (m.dispatchDevice device event focusedApp now).2 = Verdict.ofAction
      (doc.firstAction platform event focusedApp)

/- It is, unless a hotkey on a modifier applies. -/
theorem firstMatch_iff {doc : ConfigDoc} {config : ValidConfig} {platform : Platform} {m : Matcher}
    {device : DeviceId} {event : KeyEvent} (hValid : validate doc platform = .ok config)
    (hRules : m.rules = config.rules) (hKind : event.kind = .keyDown)
    (hSwallowed : (device, event.code) ∉ m.swallowedDowns)
    (hForwarded : (device, event.code) ∉ m.forwardedDowns) (focusedApp : Option String)
    (now : Instant) :
    FirstMatch doc platform m device event focusedApp now ↔ event.code.isModifier = false ∨
        ∀ binding ∈ doc.bindings, binding.appliesTo event focusedApp = false := by
  unfold FirstMatch
  rw [Matcher.dispatchDevice_of_unowned m focusedApp now hKind hSwallowed hForwarded, hRules,
    findHotkey_eq_firstAction hValid hKind, ← firstAction_eq_none_iff hValid hKind]
  cases hModifier : event.code.isModifier with
  | false => simp
  | true =>
    cases doc.firstAction platform event focusedApp <;>
      simp [Verdict.ofAction]

/- One binding: the named key sends Escape. -/
def remapDoc (name : String) : ConfigDoc where
  logLevel := "info"
  appAliases := ∅
  inputSourceAliases := ∅
  bindings := [⟨none, .hotkey name [], .sendKey "Escape" []⟩]

def remapConfig (key : KeyCode) : ValidConfig where
  logLevel := "info"
  appAliases := ∅
  inputSourceAliases := ∅
  rules := new [⟨.hotkey ⟨key, .empty⟩, .sendKey .escape .empty, none⟩]

theorem validate_remapDoc {name : String} {key : KeyCode} (hName : keycodeFromName name = some key)
    (platform : Platform) : validate (remapDoc name) platform = .ok (remapConfig key) := by
  have hLevel : validateLogLevel "info" = .ok () := by decide
  have hApps : validateAppAliases ∅ = .ok () := by
    simp [validateAppAliases, sortedAliases, validateIdentifiers]
  have hSources : validateInputSources ∅ = .ok () := by
    simp [validateInputSources, sortedAliases, validateIdentifiers]
  have hEscape : keycodeFromName "Escape" = some .escape := by decide
  simp only [validate, remapDoc, hLevel, hApps, hSources, validateBindings, validateBinding,
    parseTrigger, parseAction, parseKeycode, parseMods, hName, hEscape, validateScope]
  rfl

/- A hotkey on a letter answers as the document says. -/
theorem firstMatch_letter :
    FirstMatch (remapDoc "KeyK") .linux (Matcher.new (remapConfig .keyK).rules) ⟨1⟩
      ⟨.keyK, .keyDown, .empty⟩ none 0 := by
  refine (firstMatch_iff (validate_remapDoc (by decide) .linux)
      rfl rfl ?_ ?_ none 0).mpr
    (.inl rfl)
  · exact Finset.notMem_empty _
  · exact Finset.notMem_empty _

/- A hotkey on Caps Lock is accepted and never fires. -/
theorem capsLock_passes : validate (remapDoc "CapsLock") .linux = .ok (remapConfig .capsLock) ∧
      (remapDoc "CapsLock").firstAction .linux ⟨.capsLock, .keyDown, .empty⟩ none =
        some (.sendKey .escape .empty) ∧
      ((Matcher.new (remapConfig .capsLock).rules).dispatchDevice
          ⟨1⟩ ⟨.capsLock, .keyDown, .empty⟩ none 0).2 =
        .pass ∧
      ¬ FirstMatch (remapDoc "CapsLock") .linux (Matcher.new (remapConfig .capsLock).rules) ⟨1⟩
        ⟨.capsLock, .keyDown, .empty⟩ none 0 := by
  have hAction : (remapDoc "CapsLock").firstAction .linux ⟨.capsLock, .keyDown, .empty⟩ none =
      some (.sendKey .escape .empty) := by
    decide +kernel
  have hPass : ((Matcher.new (remapConfig .capsLock).rules).dispatchDevice
        ⟨1⟩ ⟨.capsLock, .keyDown, .empty⟩ none 0).2 =
      .pass := by
    rw [Matcher.dispatchDevice_of_unowned _ none 0 rfl
      (Finset.notMem_empty _) (Finset.notMem_empty _)]
    rfl
  refine ⟨validate_remapDoc (by decide) .linux, hAction, hPass, ?_⟩
  unfold FirstMatch
  rw [hPass, hAction]
  decide

end Config

end Sledge
