import Sledge.Core.Ownership

/-
  The rule whose action is the verdict on an event.

  A replacement comes from the first hotkey rule that matches
  a key going down, or from the first tap rule whose machine
  reports its count.

  Main results:
    * `Matcher.Fires.scoped`
    * `Matcher.fires_of_replace`
    * `Matcher.dispatchDevice_of_unowned`
-/

-----
-- Rules That Fire

namespace Sledge.Core

namespace Matcher

/- The first tap rule that fires, in rule order. -/
def firedTap (event : KeyEvent) (wasDown isDown : Bool) (focusedApp : Option String) (now : Instant) :
    List Rule → List TapFsm → Option Rule
| rule :: rules, fsm :: fsms =>
  let result :=
    (fsm.onTransition event.code wasDown isDown event.mods
      now).2
  if (tapAction rule result focusedApp).isSome then some rule
  else firedTap event wasDown isDown focusedApp now rules fsms
| _, _ => none

variable {m : Matcher} {device : DeviceId} {event : KeyEvent} {focusedApp : Option String}
variable {now : Instant} {rule : Rule}

variable {action : Action}

theorem tapAction_some {result : TapResult}
    (hAction : tapAction rule result focusedApp = some action) :
    action = rule.action ∧ RuleSet.scopeMatches rule focusedApp = true := by
  unfold tapAction at hAction
  split at hAction
  · split_ifs at hAction with hFires
    cases hAction
    exact ⟨rfl, hFires.2.2⟩
  · cases hAction

theorem feedTaps_action (wasDown isDown : Bool) (rules : List Rule) (fsms : List TapFsm) :
    (feedTaps event wasDown isDown focusedApp now rules fsms).2 =
      (firedTap event wasDown isDown focusedApp now rules fsms).map Rule.action := by
  induction rules generalizing fsms with
  | nil => rfl
  | cons rule rules ih =>
    cases fsms with
    | nil => rfl
    | cons fsm fsms =>
      simp only [feedTaps, firedTap, ih]
      cases hAction : tapAction rule (fsm.onTransition event.code wasDown isDown event.mods now).2
        focusedApp with
      | none => rfl
      | some action =>
        rw [(tapAction_some hAction).1]
        rfl

theorem firedTap_mem {wasDown isDown : Bool} {rules : List Rule} {fsms : List TapFsm}
    (hFired : firedTap event wasDown isDown focusedApp now rules fsms = some rule) :
    rule ∈ rules ∧ RuleSet.scopeMatches rule focusedApp = true := by
  induction rules generalizing fsms with
  | nil => cases hFired
  | cons first rules ih =>
    cases fsms with
    | nil => cases hFired
    | cons fsm fsms =>
      simp only [firedTap] at hFired
      split_ifs at hFired with hFires
      · cases hFired
        rcases Option.isSome_iff_exists.mp hFires with ⟨action, hAction⟩
        exact ⟨List.mem_cons_self, (tapAction_some hAction).2⟩
      · rcases ih hFired with ⟨hMem, hScope⟩
        exact ⟨List.mem_cons_of_mem _ hMem, hScope⟩

/- The rule whose action is the verdict on an event. -/
inductive Fires (m : Matcher) (device : DeviceId) (event : KeyEvent) (focusedApp : Option String)
    (now : Instant) (rule : Rule) : Prop where
  | hotkey (hKey : event.code.isModifier = false)
      (hFound : m.rules.findHotkey event focusedApp = some rule)
      (hVerdict : (m.dispatchDevice device event focusedApp now).2 = .replace rule.action)
  | tap (isDown : Bool) (hKey : event.code.isModifier = true)
      (hDown : isDownAfter event = some isDown)
      (hFound : firedTap event ((m.modifierState.get? (device, event.code)).getD false)
            isDown focusedApp now m.rules.taps
            (m.deviceFsms device) =
          some rule)
      (hVerdict : (m.dispatchDevice device event focusedApp now).2 = .replace rule.action)

theorem Fires.scoped (hFires : m.Fires device event focusedApp now rule) :
    rule ∈ m.rules.hotkeys ++ m.rules.taps ∧ RuleSet.scopeMatches rule focusedApp = true := by
  cases hFires with
  | hotkey _ hFound =>
    have hHotkey := List.find?_some hFound
    refine ⟨List.mem_append_left _ (List.mem_of_find?_eq_some hFound), ?_⟩
    unfold RuleSet.hotkeyFires at hHotkey
    split at hHotkey
    · exact (Bool.and_eq_true _ _ ▸ hHotkey).2
    · cases hHotkey
  | tap isDown _ _ hFound =>
    rcases firedTap_mem hFound with ⟨hMem, hScope⟩
    exact ⟨List.mem_append_right _ hMem, hScope⟩

theorem dispatchOwned_replace
    (hVerdict : (m.dispatchOwned device event focusedApp now).2 = .replace action) :
    (event.code.isModifier = true ∧ (m.dispatchModifier device event focusedApp now).2 =
          .replace action) ∨
      (event.code.isModifier = false ∧ (m.dispatchKey device event focusedApp).2 = .replace action) := by
  unfold dispatchOwned at hVerdict
  dsimp only at hVerdict
  split_ifs at hVerdict with _ _ hKey
  · exact .inl ⟨hKey, hVerdict⟩
  · exact .inr ⟨by simpa using hKey, hVerdict⟩

theorem dispatchModifier_replace
    (hVerdict : (m.dispatchModifier device event focusedApp now).2 = .replace action) :
    ∃ isDown rule, isDownAfter event = some isDown ∧ firedTap event ((m.modifierState.get?
              (device, event.code)).getD false)
            isDown focusedApp now m.rules.taps
            (m.deviceFsms device) =
          some rule ∧
        rule.action = action := by
  unfold dispatchModifier at hVerdict
  dsimp only at hVerdict
  split at hVerdict
  · cases hVerdict
  rename_i isDown hDown
  split_ifs at hVerdict
  dsimp only at hVerdict
  rw [feedTaps_action] at hVerdict
  split at hVerdict
  · rename_i fired hFired
    cases hVerdict
    rcases Option.map_eq_some_iff.mp hFired with ⟨rule, hRule, rfl⟩
    exact ⟨isDown, rule, hDown, hRule, rfl⟩
  · cases hVerdict

/- Every replacement is the action of a rule that fires. -/
theorem fires_of_replace
    (hVerdict : (m.dispatchDevice device event focusedApp now).2 = .replace action) :
    ∃ rule, m.Fires device event focusedApp now rule ∧ rule.action = action := by
  -- The reconciled matcher has the same rules and machines.
  have hReconciled : ∃ r : Matcher, r.rules = m.rules ∧ r.modifierState = m.modifierState ∧
      r.tapFsms = m.tapFsms ∧
      (r.dispatchOwned device event focusedApp now).2 = .replace action := by
    have hInner := hVerdict
    unfold dispatchDevice at hInner
    dsimp only at hInner
    by_cases hActive : m.deliveryActive = true
    · rw [if_pos hActive] at hInner
      split_ifs at hInner
      refine ⟨_, ?_, ?_, ?_, hInner⟩ <;> rw [reconcile_fst] <;>
        rfl
    · rw [if_neg hActive] at hInner
      exact ⟨m, rfl, rfl, rfl, hInner⟩
  rcases hReconciled with ⟨r, hRules, hModifiers, hTaps, hOwned⟩
  have hFsms : r.deviceFsms device = m.deviceFsms device := by
    unfold deviceFsms
    rw [hTaps, hRules]
  rcases dispatchOwned_replace hOwned with ⟨hKey, hModifier⟩ | ⟨hKey, hHotkey⟩
  · rcases dispatchModifier_replace hModifier with ⟨isDown, rule, hDown, hFound, rfl⟩
    rw [hModifiers, hRules, hFsms] at hFound
    exact ⟨rule, .tap isDown hKey hDown hFound hVerdict, rfl⟩
  · rw [dispatchKey_verdict, hRules] at hHotkey
    split_ifs at hHotkey
    split at hHotkey
    · rename_i rule hFound
      cases hHotkey
      exact ⟨rule, .hotkey hKey hFound hVerdict, rfl⟩
    · cases hHotkey

end Matcher

-----
-- Presses Nobody Owns

namespace Verdict

/- Replace where an action was found, else pass. -/
def ofAction : Option Action → Verdict
  | some action => .replace action
  | none => .pass

end Verdict

namespace Matcher

/- Once reconciled, a press that is not swallowed is matched. -/
theorem dispatchOwned_down (m : Matcher) {device : DeviceId} {event : KeyEvent}
    (focusedApp : Option String) (now : Instant) (hKind : event.kind = .keyDown)
    (hSwallowed : (device, event.code) ∉ m.swallowedDowns) :
    (m.dispatchOwned device event focusedApp now).2 = if event.code.isModifier then .pass
      else
        Verdict.ofAction ((m.rules.findHotkey event focusedApp).map Rule.action) := by
  rw [dispatchOwned_of_free m focusedApp now (.inr hSwallowed)]
  split_ifs with hModifier
  · have hDown : isDownAfter event = some true := by
      simp [isDownAfter, hKind]
    exact dispatchModifier_of_isDown m device event focusedApp now hDown
  · rw [dispatchKey_verdict, if_pos hKind]
    cases m.rules.findHotkey event focusedApp <;> rfl

/- A press nobody owns is decided by the rules alone. -/
theorem dispatchDevice_of_unowned (m : Matcher) {device : DeviceId} {event : KeyEvent}
    (focusedApp : Option String) (now : Instant) (hKind : event.kind = .keyDown)
    (hSwallowed : (device, event.code) ∉ m.swallowedDowns)
    (hForwarded : (device, event.code) ∉ m.forwardedDowns) :
    (m.dispatchDevice device event focusedApp now).2 = if event.code.isModifier then .pass
      else
        Verdict.ofAction ((m.rules.findHotkey event focusedApp).map Rule.action) := by
  unfold dispatchDevice
  dsimp only
  by_cases hActive : m.deliveryActive = true
  · rw [if_pos hActive]
    have hFlag : (m.reconcileDeliveryEvent (device, event.code) event.kind).2 = false := by
      simp [reconcile_snd, hForwarded]
    rw [if_neg (by simp [hFlag]),
      dispatchOwned_down _ focusedApp now hKind (by simpa using hSwallowed),
      reconcile_rules]
  · rw [if_neg hActive]
    exact dispatchOwned_down m focusedApp now hKind hSwallowed

end Matcher

end Sledge.Core
