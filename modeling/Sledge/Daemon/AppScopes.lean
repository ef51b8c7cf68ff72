import Sledge.Config.Validate
import Sledge.Core.Firing
import Sledge.Daemon.Handler

/-
  Rules scoped to applications, on Linux.

  A focused application is known by the alias that lists it,
  or else by its own name.  A scoped rule fires where that
  name is one of its own, so an application that calls itself
  like an alias meets the rules of the alias.

  Main results:
    * `logicalFocus_cases`
    * `scopeSound_iff`
-/

-----
-- The Focused Application

namespace Sledge.Daemon.Linux

open Core Config Sledge.Linux

variable {aliases : Dict String AppAlias}

/- An alias lists an application by its own category. -/
def Listed (aliases : Dict String AppAlias) (name : String) (identity : AppIdentity) : Prop :=
  ∃ entry, aliases.get? name = some entry ∧ identity ∈ appIdentities entry

theorem resolveAppIdentity_some {identity : AppIdentity} {name : String}
    (hResolved : resolveAppIdentity aliases identity = some name) :
    Listed aliases name identity := by
  unfold resolveAppIdentity inOrder at hResolved
  have hMem := List.mem_of_mem_head? hResolved
  rw [Finset.mem_sort, Finset.mem_filter, Option.any_eq_true] at hMem
  rcases hMem.2 with ⟨entry, hEntry, hListed⟩
  rw [List.any_eq_true] at hListed
  rcases hListed with ⟨found, hFound, hSame⟩
  rw [beq_iff_eq] at hSame
  subst hSame
  exact ⟨entry, hEntry, hFound⟩

theorem resolveAppIdentity_none {identity : AppIdentity}
    (hResolved : resolveAppIdentity aliases identity = none) (name : String) :
    ¬ Listed aliases name identity := by
  rintro ⟨entry, hEntry, hFound⟩
  unfold resolveAppIdentity inOrder at hResolved
  rw [List.head?_eq_none_iff] at hResolved
  have hMem : name ∈ aliases.keys.filter (fun name =>
        (aliases.get? name).any (fun entry =>
          (appIdentities entry).any (· == identity))) := by
    rw [Finset.mem_filter, Dict.mem_keys_iff, hEntry]
    refine ⟨rfl, ?_⟩
    exact List.any_eq_true.mpr ⟨identity, hFound, by simp⟩
  rw [← Finset.mem_sort (· ≤ ·), hResolved] at hMem
  cases hMem

/- The alias lists the focus, or its name as a legacy string. -/
def Claims (aliases : Dict String AppAlias) (name : String) (focus : FocusIdentity) : Prop :=
  Listed aliases name (identityOf focus) ∨ Listed aliases name (.linuxLegacy focus.value)

/- The application the rules see for a native identity. -/
def logicalFocus (aliases : Dict String AppAlias) (focus : Option FocusIdentity) : Option String :=
  resolveFocusedApp aliases (focus.map (·.value)) (focus.map identityOf)

/- An alias that claims the focus, or else its own name. -/
theorem logicalFocus_cases (aliases : Dict String AppAlias) (focus : FocusIdentity) :
    (∃ name, logicalFocus aliases (some focus) = some name ∧ Claims aliases name focus) ∨
      (logicalFocus aliases (some focus) = some focus.value ∧ ∀ name, ¬ Claims aliases name focus) := by
  unfold logicalFocus resolveFocusedApp
  simp only [Option.map_some, Option.bind_some]
  cases hOwn : resolveAppIdentity aliases (identityOf focus) with
  | some name => exact .inl ⟨name, rfl, .inl (resolveAppIdentity_some hOwn)⟩
  | none =>
    cases hLegacy : resolveAppIdentity aliases (.linuxLegacy focus.value) with
    | some name => exact .inl ⟨name, rfl, .inr (resolveAppIdentity_some hLegacy)⟩
    | none =>
      refine .inr ⟨rfl, ?_⟩
      rintro name (hListed | hListed)
      · exact resolveAppIdentity_none hOwn name hListed
      · exact resolveAppIdentity_none hLegacy name hListed

-----
-- Scoped Rules

/-
  Whatever configuration was accepted with these aliases, a scoped rule that fires names
  an alias that claims the focus.
-/
def ScopeSound (aliases : Dict String AppAlias) (focus : Option FocusIdentity) : Prop :=
  ∀ doc config, doc.appAliases = aliases → validate doc .linux = .ok config →
    ∀ (m : Matcher) device event now rule names, m.rules = config.rules →
      m.Fires device event (logicalFocus aliases focus) now rule →
      rule.whenAppIn = some names →
      ∃ f, focus = some f ∧ ∃ name ∈ names, Claims aliases name f

variable {focus : Option FocusIdentity}

/- One binding: K sends T in the application of an alias. -/
def scopedDoc (aliases : Dict String AppAlias) (name : String) : ConfigDoc where
  logLevel := "info"
  appAliases := aliases
  inputSourceAliases := ∅
  bindings := [⟨some ⟨[name]⟩, .hotkey "KeyK" [], .sendKey "KeyT" []⟩]

def scopedRule (name : String) : Rule :=
  ⟨.hotkey ⟨.keyK, .empty⟩, .sendKey .keyT .empty, some [name]⟩

def scopedConfig (aliases : Dict String AppAlias) (name : String) : ValidConfig where
  logLevel := "info"
  appAliases := aliases
  inputSourceAliases := ∅
  rules := RuleSet.new [scopedRule name]

theorem validate_scopedDoc {name : String} (hAliases : validateAppAliases aliases = .ok ())
    (hKnown : (aliases.get? name).isSome = true) :
    validate (scopedDoc aliases name) .linux = .ok (scopedConfig aliases name) := by
  have hLevel : validateLogLevel "info" = .ok () := by decide
  have hSources : validateInputSources ∅ = .ok () := by
    have hEmpty : sortedAliases (∅ : Dict String InputSourceAlias) = [] := by simp [sortedAliases]
    rw [validateInputSources, hEmpty]
    rfl
  have hKey : parseKeycode 0 "KeyK" = .ok .keyK := by decide
  have hSent : parseKeycode 0 "KeyT" = .ok .keyT := by decide
  have hScope : validateWhen 0 aliases ⟨[name]⟩ = .ok [name] := by
    have hFound : aliases.get? name ≠ none := Option.isSome_iff_ne_none.mp hKnown
    simp [validateWhen, hFound]
  simp only [validate, scopedDoc, hLevel, hAliases, hSources, validateBindings, validateBinding,
    parseTrigger, parseAction, parseMods, hKey, hSent, validateScope, hScope, Except.map]
  rfl

/- The rule fires for an application of that name. -/
theorem scopedRule_fires (name : String) :
    (Matcher.new (RuleSet.new [scopedRule name])).Fires ⟨1⟩ ⟨.keyK, .keyDown, .empty⟩ (some name) 0
      (scopedRule name) := by
  have hFound : (RuleSet.new [scopedRule name]).findHotkey ⟨.keyK, .keyDown, .empty⟩ (some name) =
      some (scopedRule name) := by
    have hFires : RuleSet.hotkeyFires (scopedRule name) ⟨.keyK, .keyDown, .empty⟩ (some name) =
        true := by
      have hHeld : Modifiers.empty.matches .empty = true := by decide
      simp [RuleSet.hotkeyFires, scopedRule, RuleSet.hotkeyMatches, RuleSet.scopeMatches, hHeld]
    exact List.find?_cons_of_pos hFires
  refine .hotkey rfl hFound ?_
  have hKey : KeyCode.keyK.isModifier = false := by decide
  simp [Matcher.dispatchDevice, Matcher.new, Matcher.dispatchOwned, hKey,
    Matcher.dispatchKey_verdict, hFound]

/- Sound scopes, by the aliases and the focused identity. -/
theorem scopeSound_iff (hAliases : validateAppAliases aliases = .ok ()) :
    ScopeSound aliases focus ↔ ∀ f, focus = some f → (∃ name, Claims aliases name f) ∨
          aliases.get? f.value = none := by
  constructor
  · intro hSound f hFocus
    by_contra hNot
    push Not at hNot
    rcases hNot with ⟨hUnclaimed, hKnown⟩
    have hLogical : logicalFocus aliases focus = some f.value := by
      rw [hFocus]
      rcases logicalFocus_cases aliases f with ⟨name, _, hClaims⟩ | ⟨hRaw, _⟩
      · exact absurd hClaims (hUnclaimed name)
      · exact hRaw
    have hFires := scopedRule_fires f.value
    rw [← hLogical] at hFires
    rcases hSound _ _ rfl (validate_scopedDoc hAliases (Option.isSome_iff_ne_none.mpr hKnown))
        _ _ _ _ _ _ rfl hFires rfl with
      ⟨g, hSame, name, _, hClaims⟩
    rw [hFocus] at hSame
    cases hSame
    exact hUnclaimed name hClaims
  · intro hWhen doc config hDoc hValid m device event now rule names hRules hFires hNames
    rcases hFires.scoped with ⟨hMem, hScope⟩
    unfold RuleSet.scopeMatches at hScope
    rw [hNames] at hScope
    cases focus with
    | none => cases hScope
    | some f =>
      refine ⟨f, rfl, ?_⟩
      rcases logicalFocus_cases aliases f with ⟨name, hLogical, hClaims⟩ | ⟨hLogical, hUnclaimed⟩
      · rw [hLogical] at hScope
        refine ⟨name, ?_, hClaims⟩
        simpa using hScope
      · -- The raw name is a name of the rule, so an alias.
        rw [hLogical] at hScope
        have hNamed : f.value ∈ names := by simpa using hScope
        rw [hRules] at hMem
        have hKnown := (validate_compiled hValid rule hMem).scope names hNames f.value hNamed
        rw [hDoc] at hKnown
        rcases hWhen f rfl with ⟨name, hClaims⟩ | hNone
        · exact absurd hClaims (hUnclaimed name)
        · rw [hNone] at hKnown
          cases hKnown

/- An alias for another platform only. -/
def editorAliases : Dict String AppAlias :=
  (∅ : Dict String AppAlias).insert "editor" ⟨some "com.example.Editor", none, none, none⟩

theorem sortedAliases_single (name : String) (entry : AppAlias) :
    sortedAliases ((∅ : Dict String AppAlias).insert name entry) = [(name, entry)] := by
  simp [sortedAliases, inOrder, Dict.keys_insert, Dict.keys_empty]

theorem editorAliases_valid : validateAppAliases editorAliases = .ok () := by
  rw [validateAppAliases, editorAliases, sortedAliases_single]
  decide +kernel

/- No application of Linux is listed. -/
theorem editorAliases_unclaimed (name : String) (focus : FocusIdentity) :
    ¬ Claims editorAliases name focus := by
  have hOnly : ∀ identity, Listed editorAliases name identity →
      identity = .macOS "com.example.Editor" := by
    rintro identity ⟨entry, hEntry, hFound⟩
    rw [editorAliases, Dict.get?_insert, Dict.get?_empty] at hEntry
    split_ifs at hEntry
    cases hEntry
    simpa [appIdentities] using hFound
  rintro (hListed | hListed)
  · have hSame := hOnly _ hListed
    unfold identityOf at hSame
    split at hSame <;> cases hSame
  · cases hOnly _ hListed

/- An alias for an application of Wayland. -/
def browserAliases : Dict String AppAlias :=
  (∅ : Dict String AppAlias).insert "browser"
    ⟨none, none, none, some ⟨some "org.example.Browser", none⟩⟩

theorem scopeSound_browser :
    let focus := some ⟨.wayland, "org.example.Browser"⟩
    validateAppAliases browserAliases = .ok () ∧ ScopeSound browserAliases focus ∧
      (Matcher.new (scopedConfig browserAliases "browser").rules).Fires ⟨1⟩
        ⟨.keyK, .keyDown, .empty⟩ (logicalFocus browserAliases focus) 0 (scopedRule "browser") := by
  intro focus
  have hValid : validateAppAliases browserAliases = .ok () := by
    rw [validateAppAliases, browserAliases, sortedAliases_single]
    decide +kernel
  have hClaims : Claims browserAliases "browser" ⟨.wayland, "org.example.Browser"⟩ :=
    .inl ⟨_, rfl, List.mem_singleton_self _⟩
  have hLogical : logicalFocus browserAliases focus = some "browser" := by
    rcases logicalFocus_cases browserAliases ⟨.wayland, "org.example.Browser"⟩ with
      ⟨name, hLogical, hListed⟩ | ⟨_, hUnclaimed⟩
    · rw [hLogical]
      rcases hListed with ⟨entry, hEntry, _⟩ | ⟨entry, hEntry, _⟩
      all_goals
        rw [browserAliases, Dict.get?_insert, Dict.get?_empty] at hEntry
        split_ifs at hEntry with hName
        rw [hName]
    · exact absurd hClaims (hUnclaimed _)
  refine ⟨hValid, (scopeSound_iff hValid).mpr ?_, ?_⟩
  · intro f hFocus
    exact .inl ⟨_, Option.some.inj hFocus ▸ hClaims⟩
  · rw [hLogical]
    exact scopedRule_fires "browser"

/- An application named like an alias fires its rules. -/
theorem rawName_fires_scoped :
    validate (scopedDoc editorAliases "editor") .linux = .ok (scopedConfig editorAliases "editor") ∧
      (Matcher.new (scopedConfig editorAliases "editor").rules).Fires ⟨1⟩ ⟨.keyK, .keyDown, .empty⟩
        (logicalFocus editorAliases (some ⟨.wayland, "editor"⟩))
        0 (scopedRule "editor") ∧
      (scopedRule "editor").whenAppIn = some ["editor"] ∧
      ∀ name, ¬ Claims editorAliases name ⟨.wayland, "editor"⟩ := by
  have hLogical : logicalFocus editorAliases (some ⟨.wayland, "editor"⟩) = some "editor" := by
    rcases logicalFocus_cases editorAliases ⟨.wayland, "editor"⟩ with ⟨name, _, hClaims⟩ | ⟨hRaw, _⟩
    · exact absurd hClaims (editorAliases_unclaimed name _)
    · exact hRaw
  refine ⟨validate_scopedDoc editorAliases_valid rfl, ?_, rfl,
    fun name => editorAliases_unclaimed name _⟩
  rw [hLogical]
  exact scopedRule_fires "editor"

end Sledge.Daemon.Linux
