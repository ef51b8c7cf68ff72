import Mathlib.Data.String.Basic
import Mathlib.Data.Finset.Sort
import Mathlib.Data.List.ReduceOption
import Sledge.Core.Pairing

/-
  The direct-verdict sink of the daemon
  (`packages/cli/src/daemon.rs`, non-Linux build).

  A sink resolves the focused application, dispatches the
  event and turns the verdict into the answer the event tap
  applies.  A replacement is injected and the original is
  swallowed, also when the original is a modifier release
  that completed a tap.

  Main results:
    * `MatchingState.step_matcher`
    * `MatchingState.step_press`
    * `MatchingState.step_release`
    * `MatchingState.modifier_stroke_paired_iff`
-/

-----
-- Application Identities

namespace Sledge

open Transition

namespace Config

structure LinuxAppIds where
  wayland : Option String
  x11Class : Option String
deriving DecidableEq

structure AppAlias where
  macos : Option String
  linux : Option String
  windows : Option String
  linuxIds : Option LinuxAppIds
deriving DecidableEq

/- Categories never match across protocols. -/
inductive AppIdentity where
  | macOS (id : String)
  | linuxLegacy (id : String)
  | linuxWayland (id : String)
  | linuxX11Class (id : String)
  | windows (id : String)
deriving DecidableEq

def appIdentities (entry : AppAlias) : List AppIdentity :=
  [entry.macos.map .macOS, entry.linux.map .linuxLegacy,
    (entry.linuxIds.bind LinuxAppIds.wayland).map .linuxWayland,
    (entry.linuxIds.bind LinuxAppIds.x11Class).map .linuxX11Class,
    entry.windows.map .windows].reduceOption

/- Names in lexicographic order. -/
def inOrder (names : Finset String) : List String := names.sort (· ≤ ·)

/- The lexicographically first alias with this identity. -/
def resolveAppIdentity (aliases : Dict String AppAlias) (identity : AppIdentity) : Option String :=
  (inOrder (aliases.keys.filter (fun name =>
    (aliases.get? name).any (fun entry =>
      (appIdentities entry).any (· == identity))))).head?

/- The identity category of a macOS build. -/
def appIdentity (id : String) : AppIdentity := .macOS id

end Config

-----
-- The Sink

namespace Daemon

open Sledge.Core Config

inductive BackendVerdict where
  | pass
  | swallow
deriving DecidableEq

inductive BackendError where
  | missingPermission (what : String)
  | tapInstall (what : String)
  | inject (what : String)
  | unknownInputSource (id : String)
  | other (what : String)
deriving DecidableEq

structure MatchingState where
  matcher : Matcher
  aliases : Dict String AppAlias

/- The alias of the focused application, or its own name. -/
def resolveFocusedApp (aliases : Dict String AppAlias) (focusedApp : Option String)
    (identity : Option AppIdentity) : Option String :=
  (identity.bind (resolveAppIdentity aliases)).or focusedApp

namespace MatchingState

def new (rules : RuleSet) (aliases : Dict String AppAlias) : MatchingState where
  matcher := Matcher.new rules
  aliases := aliases

def replace (s : MatchingState) (rules : RuleSet) (aliases : Dict String AppAlias) :
    MatchingState where
  matcher := s.matcher.swapRules rules
  aliases := aliases

/- The application the rules of an event are scoped by. -/
def logicalApp (s : MatchingState) (focusedApp : Option String) : Option String :=
  resolveFocusedApp s.aliases focusedApp (focusedApp.map appIdentity)

def dispatchDevice (s : MatchingState) (device : DeviceId) (event : KeyEvent)
    (focusedApp : Option String) (now : Instant) : MatchingState × Verdict :=
  let (matcher, verdict) := s.matcher.dispatchDevice device event (s.logicalApp focusedApp) now
  ({ s with matcher := matcher }, verdict)

/-
  Answer the tap.  A failed injection is only logged; the original is swallowed all the
  same.
-/
def apply (inject : Action → Except BackendError Unit) (verdict : Verdict) : BackendVerdict :=
  match verdict with
  | .pass => .pass
  | .swallow => .swallow
  | .replace action =>
    match inject action with
    | .ok _ => .swallow
    | .error _ => .swallow

def deliver (s : MatchingState) (inject : Action → Except BackendError Unit) (device : DeviceId)
    (event : KeyEvent) (focusedApp : Option String) (now : Instant) :
    MatchingState × BackendVerdict :=
  let (s, verdict) := s.dispatchDevice device event focusedApp now
  (s, apply inject verdict)

/- What the event tap and the reload callback call. -/
inductive Op where
  | deliver (inject : Action → Except BackendError Unit) (device : DeviceId) (event : KeyEvent)
      (focusedApp : Option String)
      (now : Instant)
  | reload (rules : RuleSet) (aliases : Dict String AppAlias)
  | deviceReset (device : DeviceId)
  | streamReset

def step (s : MatchingState) : Op → Option (MatchingState × Option BackendVerdict)
  | .deliver inject device event focusedApp now =>
    let (s, verdict) :=
      s.deliver inject device event focusedApp now
    some (s, some verdict)
  | .reload rules aliases => some (s.replace rules aliases, none)
  | .deviceReset device =>
    some ({ s with matcher := s.matcher.resetDevice device }, none)
  | .streamReset => some ({ s with matcher := s.matcher.reset }, none)

abbrev Entry := Transition.Entry MatchingState Op (Option BackendVerdict)

theorem apply_eq_pass_iff (inject : Action → Except BackendError Unit) (verdict : Verdict) :
    apply inject verdict = .pass ↔ verdict = .pass := by
  cases verdict with
  | pass | swallow => simp [apply]
  | replace action =>
    simp only [apply, reduceCtorEq, iff_false]
    split <;> simp

end MatchingState

end Daemon

-----
-- Answers To Modifier Changes

namespace Core.Matcher

/- The tap rule fires on a release of `key` at `now`. -/
def tapFires (key : KeyCode) (focusedApp : Option String) (now : Instant) (slot : Rule × TapFsm) :
    Bool :=
  match slot.1.trigger with
  | .tap trigger =>
    decide (trigger.tap = key) && slot.2.completes key trigger.count now &&
      RuleSet.scopeMatches slot.1 focusedApp
  | .hotkey _ => false

theorem tapAction_isSome (rule : Rule) (fsm : TapFsm) (event : KeyEvent)
    (focusedApp : Option String) (now : Instant) :
    (tapAction rule (fsm.onTransition event.code true false event.mods now).2 focusedApp).isSome =
      tapFires event.code focusedApp now (rule, fsm) := by
  have hTapped := fun key count =>
    TapFsm.onTransition_eq_tapped_iff fsm event.code key true false event.mods count now
  cases hTrigger : rule.trigger with
  | hotkey trigger =>
    simp only [tapFires, hTrigger, tapAction]
    split <;> simp_all
  | tap trigger =>
    simp only [tapFires, hTrigger]
    cases hResult : (fsm.onTransition event.code true false event.mods now).2 with
    | none =>
      have hNot : fsm.completes event.code trigger.count now =
          false := by
        have hNever := hTapped event.code trigger.count
        rw [hResult] at hNever
        simpa using hNever
      simp [tapAction, hNot]
    | tapped key count =>
      have hReported := (hTapped key count).mp hResult
      rcases hReported with ⟨_, _, rfl, hCount⟩
      have hNext := hCount
      simp only [TapFsm.completes, Bool.and_eq_true, beq_iff_eq] at hNext
      simp only [tapAction, hTrigger, TapFsm.completes, hNext]
      grind

/- Some rule fires on the release iff one is completed. -/
theorem feedTaps_release (event : KeyEvent) (focusedApp : Option String) (now : Instant)
    (rules : List Rule) (fsms : List TapFsm) :
    (feedTaps event true false focusedApp now rules fsms).2.isSome = (rules.zip fsms).any
        (tapFires event.code focusedApp now) := by
  induction rules generalizing fsms with
  | nil => rfl
  | cons rule rules ih =>
    cases fsms with
    | nil => rfl
    | cons fsm fsms =>
      simp only [feedTaps, List.zip_cons_cons, List.any_cons, Option.isSome_or, ih,
        tapAction_isSome]

/- A release passes iff it does not complete a tap. -/
theorem dispatchModifier_release (m : Matcher) (device : DeviceId) (event : KeyEvent)
    (focusedApp : Option String) (now : Instant) (hUp : isDownAfter event = some false)
    (hWas : m.modifierState.get? (device, event.code) = some true) :
    (m.dispatchModifier device event focusedApp now).2 = .pass ↔
      (m.rules.taps.zip (m.deviceFsms device)).any (tapFires event.code focusedApp now) = false := by
  rw [← feedTaps_release]
  unfold dispatchModifier
  simp only [hUp, hWas, Option.getD_some, Bool.false_and, Bool.false_eq_true, if_false]
  cases (feedTaps event true false focusedApp now m.rules.taps (m.deviceFsms device)).2 with
  | none | some action => simp

/- A modifier change always reaches the modifier branch. -/
theorem dispatchUngated_modifiersChanged (m : Matcher) (device : DeviceId) (event : KeyEvent)
    (focusedApp : Option String) (now : Instant) (hKind : event.kind = .modifiersChanged)
    (hModifier : event.code.isModifier = true) :
    m.dispatchUngated device event focusedApp now = (m.reconcileDeliveryEvent (device, event.code)
        event.kind).1.dispatchModifier device event focusedApp now := by
  rw [dispatchUngated_of_not_forwarded m focusedApp now (.inl hKind),
    dispatchOwned_of_free _ focusedApp now (.inl hKind)]
  simp [hModifier]

theorem dispatchModifier_press (m : Matcher) (device : DeviceId) (event : KeyEvent)
    (focusedApp : Option String) (now : Instant) (hDown : isDownAfter event = some true) :
    (m.dispatchModifier device event focusedApp now).1.modifierState.get? (device, event.code) =
      some true := by
  unfold dispatchModifier
  simp only [hDown]
  split <;> simp

/- Only its own events change the record of a modifier. -/
theorem dispatchUngated_modifierState (m : Matcher) (device : DeviceId) (event : KeyEvent)
    (focusedApp : Option String) (now : Instant) {p : Press} (hPress : p ≠ (device, event.code)) :
    (m.dispatchUngated device event focusedApp now).1.modifierState.get? p = m.modifierState.get? p := by
  have hReconciled : (m.reconcileDeliveryEvent (device, event.code)
      event.kind).1.modifierState = m.modifierState := by
    rw [reconcile_fst]
    rfl
  unfold dispatchUngated
  simp only
  split
  · rw [hReconciled]
  · unfold dispatchOwned dispatchModifier dispatchKey
    simp only
    repeat' split
    all_goals
      simp [hPress, hReconciled]

end Core.Matcher

namespace Daemon

open Sledge.Core Config Matcher

namespace MatchingState

namespace Op

/- The operation delivers an event of press `p`. -/
def touches (op : Op) (p : Press) : Bool :=
  match op with
  | .deliver _ device event _ _ => decide (p = (device, event.code))
  | _ => false

/- The operation reports modifier `p` as down or up. -/
def turns (op : Op) (p : Press) (down : Bool) : Bool :=
  match op with
  | .deliver _ device event _ _ =>
    decide (p = (device, event.code) ∧ event.kind = .modifiersChanged ∧
      event.mods.contains p.2.modifierBit = down)
  | _ => false

/- The operation delivers an event or reloads the rules. -/
def drives : Op → Bool
  | .deliver _ _ _ _ _ => true
  | .reload _ _ => true
  | _ => false

end Op

/- The matcher operation behind an operation of the sink. -/
def matcherOp (s : MatchingState) : Op → Matcher.Op
  | .deliver _ device event focusedApp now => .dispatch device event (s.logicalApp focusedApp) now
  | .reload rules _ => .swapRules rules
  | .deviceReset device => .resetDevice device
  | .streamReset => .reset

variable {s s' : MatchingState} {op : Op} {out : Option BackendVerdict} {p : Press}

theorem step_matcher (hStep : s.step op = some (s', out)) :
    ∃ answer, s.matcher.step (s.matcherOp op) = some (s'.matcher, answer) := by
  cases op with
  | _ =>
    simp only [step, Option.some.injEq, Prod.mk.injEq] at hStep
    rcases hStep with ⟨rfl, _⟩
    exact ⟨_, rfl⟩

theorem step_coherent (hCoherent : s.matcher.Coherent) (hStep : s.step op = some (s', out)) :
    s'.matcher.Coherent := by
  rcases step_matcher hStep with ⟨answer, hMatcher⟩
  exact Matcher.step_coherent hCoherent hMatcher

theorem run_coherent {trace : List Entry} (hCoherent : s.matcher.Coherent)
    (hRun : Run step s trace s') : s'.matcher.Coherent :=
  Run.invariant (P := fun s => s.matcher.Coherent) hCoherent
    (fun _ _ _ _ hPre hStep => step_coherent hPre hStep) hRun

theorem deliver_eq (hCoherent : s.matcher.Coherent) (inject : Action → Except BackendError Unit)
    (device : DeviceId) (event : KeyEvent) (focusedApp : Option String) (now : Instant) :
    s.deliver inject device event focusedApp now = ({ s with
          matcher := (s.matcher.dispatchUngated device event (s.logicalApp focusedApp) now).1 },
        apply inject (s.matcher.dispatchUngated device event (s.logicalApp focusedApp) now).2) := by
  unfold deliver dispatchDevice
  rw [dispatchDevice_eq_ungated hCoherent.active]

/- A held modifier stays recorded until its next event. -/
theorem run_held {trace : List Entry} (hCoherent : s.matcher.Coherent)
    (hHeld : s.matcher.modifierState.get? p = some true) (hRun : Run step s trace s')
    (hDrives : ∀ e ∈ trace, e.op.drives = true) (hOther : ∀ e ∈ trace, e.op.touches p = false) :
    s'.matcher.modifierState.get? p = some true := by
  have hKeep : s'.matcher.Coherent ∧ s'.matcher.modifierState.get? p = some true := by
    refine hRun.invariant_of (P := fun s =>
          s.matcher.Coherent ∧ s.matcher.modifierState.get? p = some true)
        (Q := fun e =>
          e.op.drives = true ∧ e.op.touches p = false)
        ⟨hCoherent, hHeld⟩ ?_
        (fun e he => ⟨hDrives e he, hOther e he⟩)
    intro last op next out hLast hEntry hStep
    refine ⟨step_coherent hLast.1 hStep, ?_⟩
    cases op with
    | deliver inject device event focusedApp now =>
      simp only [step, Option.some.injEq, Prod.mk.injEq] at hStep
      rcases hStep with ⟨rfl, _⟩
      rw [deliver_eq hLast.1]
      simp only
      rw [dispatchUngated_modifierState _ _ _ _ _ (by simpa [Op.touches] using hEntry.2)]
      exact hLast.2
    | reload rules aliases =>
      simp only [step, Option.some.injEq, Prod.mk.injEq] at hStep
      rcases hStep with ⟨rfl, _⟩
      exact hLast.2
    | deviceReset device | streamReset => simp [Op.drives] at hEntry
  exact hKeep.2

-----
-- Modifier Strokes

/-
  The release completes a tap rule of the application in focus, read off the state before
  the event.
-/
def tapCompletes (p : Press) (e : Entry) : Bool :=
  match e.op with
  | .deliver _ _ _ focusedApp now =>
    (e.pre.matcher.rules.taps.zip (e.pre.matcher.deviceFsms p.1)).any (tapFires p.2
          (e.pre.logicalApp focusedApp) now)
  | _ => false

theorem isModifier_of_modifierBit {key : KeyCode} (hBit : key.modifierBit.isEmpty = false) :
    key.isModifier = true := by
  cases key <;> first | rfl | exact absurd hBit (by decide)

theorem step_press (hCoherent : s.matcher.Coherent) (hBit : p.2.modifierBit.isEmpty = false)
    (hTurns : op.turns p true = true) (hStep : s.step op = some (s', out)) :
    out = some .pass ∧ s'.matcher.modifierState.get? p = some true := by
  cases op with
  | deliver inject device event focusedApp now =>
    simp only [Op.turns, decide_eq_true_eq] at hTurns
    rcases hTurns with ⟨rfl, hKind, hMods⟩
    have hDown : isDownAfter event = some true := by
      simp only [isDownAfter, hKind]
      simp only at hBit hMods
      simp [hBit, hMods]
    simp only [step, Option.some.injEq, Prod.mk.injEq] at hStep
    rcases hStep with ⟨rfl, rfl⟩
    rw [deliver_eq hCoherent,
      dispatchUngated_modifiersChanged _ _ _ _ _ hKind (isModifier_of_modifierBit hBit)]
    refine ⟨?_, ?_⟩
    · rw [dispatchModifier_of_isDown _ _ _ _ _ hDown]
      rfl
    · exact dispatchModifier_press _ _ _ _ _ hDown
  | _ => simp [Op.turns] at hTurns

theorem step_release (hCoherent : s.matcher.Coherent) (hBit : p.2.modifierBit.isEmpty = false)
    (hHeld : s.matcher.modifierState.get? p = some true) (hTurns : op.turns p false = true)
    (hStep : s.step op = some (s', out)) :
    out = some .pass ↔ tapCompletes p ⟨s, op, out⟩ = false := by
  cases op with
  | deliver inject device event focusedApp now =>
    simp only [Op.turns, decide_eq_true_eq] at hTurns
    rcases hTurns with ⟨rfl, hKind, hMods⟩
    have hUp : isDownAfter event = some false := by
      simp only [isDownAfter, hKind]
      simp only at hBit hMods
      simp [hBit, hMods]
    simp only [step, Option.some.injEq, Prod.mk.injEq] at hStep
    rcases hStep with ⟨rfl, rfl⟩
    rw [deliver_eq hCoherent,
      dispatchUngated_modifiersChanged _ _ _ _ _ hKind (isModifier_of_modifierBit hBit)]
    simp only [Option.some.injEq, apply_eq_pass_iff]
    rw [dispatchModifier_release _ _ _ _ _ hUp]
    · simp only [tapCompletes, reconcile_fst]
      rfl
    · rw [reconcile_fst]
      exact hHeld
  | _ => simp [Op.turns] at hTurns

/-
  One press of modifier `p` at the end of a trace, with no other event of it between the
  press and the release.
-/
structure ModifierStroke (p : Press) (trace : List Entry) where
  before : List Entry
  press : Entry
  between : List Entry
  release : Entry
  cut : trace = before ++ (press :: (between ++ [release]))
  press_down : press.op.turns p true = true
  release_up : release.op.turns p false = true
  held : ∀ e ∈ between, e.op.touches p = false

/- The tap passes the release iff it passed the press. -/
def ModifierStroke.Paired {p : Press} {trace : List Entry} (stroke : ModifierStroke p trace) :
    Prop :=
  stroke.release.out = some .pass ↔ stroke.press.out = some .pass

/-
  A modifier is answered consistently unless its release completes a tap rule: that
  release is swallowed although the press was passed on.
-/
theorem modifier_stroke_paired_iff {rules : RuleSet} {aliases : Dict String AppAlias}
    {trace : List Entry} {s : MatchingState} {p : Press} (hBit : p.2.modifierBit.isEmpty = false)
    (hRun : Run step (new rules aliases) trace s)
    (hDrives : ∀ e ∈ trace, e.op.drives = true) (stroke : ModifierStroke p trace) :
    stroke.Paired ↔ tapCompletes p stroke.release = false := by
  rcases stroke with ⟨before, press, between, release, rfl, hDown, hUp, hHeld⟩
  rcases hRun.split with ⟨s₁, hBefore, hStroke⟩
  rcases hStroke.cons_inv with ⟨hPre, s₂, hPress, hRest⟩
  rcases hRest.concat_inv with ⟨hBetween, hRelease⟩
  have hStart := run_coherent (new_coherent rules) hBefore
  rcases step_press hStart hBit hDown hPress with ⟨hPassed, hRecorded⟩
  have hMid := step_coherent hStart hPress
  have hDrivesBetween : ∀ e ∈ between, e.op.drives = true := fun e he => hDrives e (by simp [he])
  have hStill := run_held hMid hRecorded hBetween hDrivesBetween hHeld
  have hAnswer := step_release (run_coherent hMid hBetween) hBit hStill hUp hRelease
  simp only [ModifierStroke.Paired, hPassed, iff_true]
  exact hAnswer

/- One tap rule: right Option twice sends Option-T. -/
def doubleOption : RuleSet := RuleSet.new [⟨.tap ⟨.rightAlt, 2, 600⟩, .sendKey .keyT .alt, none⟩]

/- The right Option key reported down or up. -/
def optionChange (down : Bool) (now : Instant) : Op :=
  .deliver (fun _ => .ok ()) ⟨0⟩ ⟨.rightAlt, .modifiersChanged,
      if down then Modifiers.alt.union .rightAlt
      else .empty⟩ none now

/- Two quick taps of right Option. -/
def doubleTap : List Op :=
  [optionChange true 0, optionChange false 1, optionChange true 2, optionChange false 3]

/- The second of the two taps. -/
def doubleTapStroke :
    ModifierStroke (⟨0⟩, .rightAlt) (entriesOf step (new doubleOption ∅) doubleTap) where
  before := entriesOf step (new doubleOption ∅) (doubleTap.take 2)
  press := ⟨lastOf step (new doubleOption ∅) (doubleTap.take 2),
      optionChange true 2, some .pass⟩
  between := []
  release := ⟨lastOf step (new doubleOption ∅) (doubleTap.take 3),
      optionChange false 3, some .swallow⟩
  cut := rfl
  press_down := by decide
  release_up := by decide
  held := by simp

theorem doubleTap_unpaired :
    Run step (new doubleOption ∅) (entriesOf step (new doubleOption ∅)
          doubleTap)
        (lastOf step (new doubleOption ∅) doubleTap) ∧
      (∀ e ∈ entriesOf step (new doubleOption ∅) doubleTap, e.op.drives = true) ∧
      ¬ doubleTapStroke.Paired := by
  refine ⟨.of_isSome (by decide),
    by decide, ?_⟩
  intro hPaired
  have hPass := hPaired.mpr rfl
  simp [doubleTapStroke] at hPass

/- The first tap completes nothing. -/
def firstTapStroke : ModifierStroke (⟨0⟩, .rightAlt) (entriesOf step (new doubleOption ∅)
        (doubleTap.take 2))
    where
  before := []
  press :=
    ⟨new doubleOption ∅, optionChange true 0, some .pass⟩
  between := []
  release := ⟨lastOf step (new doubleOption ∅) (doubleTap.take 1),
      optionChange false 1, some .pass⟩
  cut := rfl
  press_down := by decide
  release_up := by decide
  held := by simp

theorem firstTap_paired :
    tapCompletes (⟨0⟩, .rightAlt) firstTapStroke.release = false ∧ firstTapStroke.Paired := by
  have hRun : Run step (new doubleOption ∅)
      (entriesOf step (new doubleOption ∅) (doubleTap.take 2))
      (lastOf step (new doubleOption ∅) (doubleTap.take 2)) :=
    Run.of_isSome (by decide)
  have hBit : ((⟨0⟩, .rightAlt) : Press).2.modifierBit.isEmpty =
      false := by decide
  have hNone : tapCompletes (⟨0⟩, .rightAlt) firstTapStroke.release =
      false := by decide
  exact ⟨hNone,
    (modifier_stroke_paired_iff hBit hRun (by decide)
      firstTapStroke).mpr hNone⟩

end MatchingState

end Daemon

end Sledge
