import Sledge.Core.TapFsm
import Sledge.Lib.Transition

/-
  The stateful matcher (`packages/core/src/rule.rs`).

  `Matcher.dispatchDevice` is cut at its early returns: the
  delivery gate, the press-ownership checks, then the
  modifier branch or the hotkey branch.  `Matcher.step` runs
  one public operation; it aborts where the source panics.
-/

-----
-- Matcher State

namespace Sledge.Core

open Transition

inductive Verdict where
  | pass
  | swallow
  | replace (action : Action)
deriving DecidableEq

/- Identity of one replacement awaiting its delivery report. -/
structure ReplacementToken where
  device : DeviceId
  key : KeyCode
  generation : Nat
deriving DecidableEq

namespace ReplacementToken

/- The physical press a token was issued for. -/
def press (token : ReplacementToken) : Press := (token.device, token.key)

end ReplacementToken

inductive ReplacementDelivery where
  | delivered
  | rejectedOriginalForwarded
  | uncertain
deriving DecidableEq

@[ext] structure Matcher where
  rules : RuleSet
  tapFsms : Dict DeviceId (List TapFsm)
  modifierState : Dict Press Bool
  swallowedDowns : Finset Press
  forwardedDowns : Finset Press
  pendingDeliveries : Dict Press Nat
  deliveryActive : Bool
  deliveryGeneration : Nat

def u64Max : Nat := 2 ^ 64 - 1

namespace Matcher

def new (rules : RuleSet) : Matcher where
  rules := rules
  tapFsms := ∅
  modifierState := ∅
  swallowedDowns := ∅
  forwardedDowns := ∅
  pendingDeliveries := ∅
  deliveryActive := false
  deliveryGeneration := 0

-----
-- Stream And Delivery Maintenance

def refreshDeliveryActive (m : Matcher) : Matcher :=
  { m with deliveryActive := !m.pendingDeliveries.isEmpty || decide (m.forwardedDowns ≠ ∅) }

def swapRules (m : Matcher) (newRules : RuleSet) : Matcher :=
  { m with rules := newRules, tapFsms := ∅ }

/-
  Settle one replacement.  A stale, duplicate or reset token is refused without touching
  the state.
-/
def reportDelivery (m : Matcher) (token : ReplacementToken) (delivery : ReplacementDelivery) :
    Matcher × Bool :=
  let press := token.press
  if m.pendingDeliveries.get? press ≠ some token.generation then
    (m, false)
  else
    let m := { m with pendingDeliveries := m.pendingDeliveries.erase press }
    let m := if delivery = .rejectedOriginalForwarded ∧ press ∈ m.swallowedDowns then
        { m with
          swallowedDowns := m.swallowedDowns.erase press
          forwardedDowns := insert press m.forwardedDowns }
      else m
    (m.refreshDeliveryActive, true)

def invalidateSpeculation (m : Matcher) : Matcher :=
  { m with tapFsms := ∅, pendingDeliveries := ∅ }.refreshDeliveryActive

def disqualifyTaps (m : Matcher) : Matcher :=
  { m with
    tapFsms := m.tapFsms.mapValues (fun fsms =>
        fsms.map TapFsm.onOtherKey) }

/- Observe a release the backend settled by itself. -/
def settleDeviceEvent (m : Matcher) (device : DeviceId) (event : KeyEvent) : Matcher :=
  if event.kind ≠ .keyUp then m
  else
    let press := (device, event.code)
    { m with
      swallowedDowns := m.swallowedDowns.erase press
      forwardedDowns := m.forwardedDowns.erase press
      pendingDeliveries := m.pendingDeliveries.erase press
      modifierState := m.modifierState.erase press
      tapFsms := m.tapFsms.erase device }.refreshDeliveryActive

def resetDevice (m : Matcher) (device : DeviceId) : Matcher :=
  { m with
    tapFsms := m.tapFsms.erase device
    modifierState := m.modifierState.retain (fun p _ => p.1 != device)
    swallowedDowns := m.swallowedDowns.filter (fun p => p.1 ≠ device)
    forwardedDowns := m.forwardedDowns.filter (fun p => p.1 ≠ device)
    pendingDeliveries := m.pendingDeliveries.retain
        (fun p _ => p.1 != device) }.refreshDeliveryActive

def reset (m : Matcher) : Matcher :=
  { m with
    tapFsms := ∅
    modifierState := ∅
    swallowedDowns := ∅
    forwardedDowns := ∅
    pendingDeliveries := ∅
    deliveryActive := false }

/-
  Retire the decision an event supersedes.  The flag says that the press was already
  forwarded to the consumer.
-/
def reconcileDeliveryEvent (m : Matcher) (press : Press) (kind : EventKind) : Matcher × Bool :=
  let m := if kind ≠ .keyDown ∨ (press ∉ m.swallowedDowns ∧ press ∉ m.forwardedDowns) then
      { m with pendingDeliveries := m.pendingDeliveries.erase press }
    else m
  match kind with
  | .keyUp =>
    ({ m with forwardedDowns := m.forwardedDowns.erase press }.refreshDeliveryActive,
      decide (press ∈ m.forwardedDowns))
  | .keyDown => (m.refreshDeliveryActive, decide (press ∈ m.forwardedDowns))
  | .modifiersChanged => (m.refreshDeliveryActive, false)

-----
-- Rule Matching

/- The device's tap machines, created on first use. -/
def deviceFsms (m : Matcher) (device : DeviceId) : List TapFsm :=
  (m.tapFsms.get? device).getD (m.rules.tapTriggers.map (fun trigger =>
      TapFsm.withWindow (fromMillis trigger.withinMs)))

/-
  Whether a modifier is down after an event.  Caps Lock has no bit, so `modifiersChanged`
  cannot tell for it.
-/
def isDownAfter (event : KeyEvent) : Option Bool :=
  match event.kind with
  | .keyDown => some true
  | .keyUp => some false
  | .modifiersChanged =>
    if event.code.modifierBit.isEmpty then none
    else some (event.mods.contains event.code.modifierBit)

/- The action of a tap rule on its machine's result. -/
def tapAction (rule : Rule) (result : TapResult) (focusedApp : Option String) : Option Action :=
  match result, rule.trigger with
  | .tapped key count, .tap trigger =>
    if trigger.tap = key ∧ trigger.count = count ∧ RuleSet.scopeMatches rule focusedApp then
      some rule.action
    else none
  | _, _ => none

/-
  Feed a transition to every tap rule's machine.  The first rule that fires gives the
  action; later machines are fed all the same.
-/
def feedTaps (event : KeyEvent) (wasDown isDown : Bool) (focusedApp : Option String) (now : Instant) :
    List Rule → List TapFsm → List TapFsm × Option Action
| rule :: rules, fsm :: fsms =>
  let (fsm', result) :=
    fsm.onTransition event.code wasDown isDown event.mods now
  let (fsms', action) :=
    feedTaps event wasDown isDown focusedApp now rules fsms
  (fsm' :: fsms', (tapAction rule result focusedApp).or action)
| _, fsms => (fsms, none)

/- The modifier branch of dispatch. -/
def dispatchModifier (m : Matcher) (device : DeviceId) (event : KeyEvent)
    (focusedApp : Option String) (now : Instant) : Matcher × Verdict :=
  let press := (device, event.code)
  let fsms := m.deviceFsms device
  let wasDown := (m.modifierState.get? press).getD false
  match isDownAfter event with
  | none => ({ m with tapFsms := m.tapFsms.insert device fsms }, .pass)
  | some isDown =>
    let modifierState := m.modifierState.insert press isDown
    if isDown && !wasDown && modifierState.any (fun p down =>
          p.1 == device && p.2 != event.code && down) then
      ({ m with
          modifierState := modifierState
          tapFsms := m.tapFsms.insert device (fsms.map TapFsm.onOtherKey) },
        .pass)
    else
      let (fsms', action) := feedTaps event wasDown isDown focusedApp now m.rules.taps fsms
      ({ m with modifierState := modifierState, tapFsms := m.tapFsms.insert device fsms' },
        match action with
        | some action => .replace action
        | none => .pass)

/- The non-modifier branch of dispatch. -/
def dispatchKey (m : Matcher) (device : DeviceId) (event : KeyEvent) (focusedApp : Option String) :
    Matcher × Verdict :=
  let press := (device, event.code)
  let fsms := m.deviceFsms device
  if event.kind = .keyDown then
    let m := { m with tapFsms := m.tapFsms.insert device (fsms.map TapFsm.onOtherKey) }
    match m.rules.findHotkey event focusedApp with
    | some rule =>
      ({ m with swallowedDowns := insert press m.swallowedDowns }, .replace rule.action)
    | none => (m, .pass)
  else
    ({ m with tapFsms := m.tapFsms.insert device fsms }, .pass)

/- Dispatch once the delivery state has been reconciled. -/
def dispatchOwned (m : Matcher) (device : DeviceId) (event : KeyEvent) (focusedApp : Option String)
    (now : Instant) : Matcher × Verdict :=
  let press := (device, event.code)
  if event.kind = .keyUp ∧ press ∈ m.swallowedDowns then
    ({ m with swallowedDowns := m.swallowedDowns.erase press }, .swallow)
  else if event.kind = .keyDown ∧ press ∈ m.swallowedDowns then
    (m, .swallow)
  else if event.code.isModifier then
    m.dispatchModifier device event focusedApp now
  else
    m.dispatchKey device event focusedApp

def dispatchDevice (m : Matcher) (device : DeviceId) (event : KeyEvent) (focusedApp : Option String)
    (now : Instant) : Matcher × Verdict :=
  let press := (device, event.code)
  let (m, forwarded) := if m.deliveryActive then
      m.reconcileDeliveryEvent press event.kind
    else (m, false)
  if forwarded then (m, .pass)
  else m.dispatchOwned device event focusedApp now

/- Dispatch on the legacy stream. -/
def dispatch (m : Matcher) (event : KeyEvent) (focusedApp : Option String) (now : Instant) :
    Matcher × Verdict :=
  m.dispatchDevice ⟨0⟩ event focusedApp now

/-
  Dispatch and issue a delivery token for a replacement. `none` is the panic on exhausted
  token generations.
-/
def dispatchDeviceWithDelivery (m : Matcher) (device : DeviceId) (event : KeyEvent)
    (focusedApp : Option String) (now : Instant) :
    Option (Matcher × Verdict × Option ReplacementToken) :=
  let (m, verdict) := m.dispatchDevice device event focusedApp now
  match verdict with
  | .replace _ =>
    if m.deliveryGeneration = u64Max then none
    else
      let generation := m.deliveryGeneration + 1
      some ({ m with
            deliveryGeneration := generation
            pendingDeliveries := m.pendingDeliveries.insert (device, event.code) generation
            deliveryActive := true },
          verdict,
          some ⟨device, event.code, generation⟩)
  | _ => some (m, verdict, none)

-----
-- Operations And Runs

/- The public operations that change a matcher. -/
inductive Op where
  | dispatch (device : DeviceId) (event : KeyEvent) (focusedApp : Option String) (now : Instant)
  | dispatchWithDelivery (device : DeviceId) (event : KeyEvent) (focusedApp : Option String)
      (now : Instant)
  | report (token : ReplacementToken) (delivery : ReplacementDelivery)
  | swapRules (rules : RuleSet)
  | invalidateSpeculation
  | disqualifyTaps
  | settle (device : DeviceId) (event : KeyEvent)
  | resetDevice (device : DeviceId)
  | reset

namespace Op

/- The event an operation dispatches. -/
def event? : Op → Option (DeviceId × KeyEvent)
  | .dispatch device event _ _ => some (device, event)
  | .dispatchWithDelivery device event _ _ => some (device, event)
  | _ => none

/- The focused application given with the event. -/
def focusedApp : Op → Option String
  | .dispatch _ _ focusedApp _ => focusedApp
  | .dispatchWithDelivery _ _ focusedApp _ => focusedApp
  | _ => none

/- The kind of event dispatched for press `p`, if any. -/
def kindOf (op : Op) (p : Press) : Option EventKind :=
  match op.event? with
  | some (device, event) =>
    if p = (device, event.code) then some event.kind
    else none
  | none => none

end Op

/- What an operation returns to its caller. -/
inductive Out where
  | verdict (verdict : Verdict) (token : Option ReplacementToken)
  | reported (settled : Bool)
  | done
deriving DecidableEq

def step (m : Matcher) : Op → Option (Matcher × Out)
  | .dispatch device event focusedApp now =>
    let (m, verdict) :=
      m.dispatchDevice device event focusedApp now
    some (m, .verdict verdict none)
  | .dispatchWithDelivery device event focusedApp now =>
    match m.dispatchDeviceWithDelivery device event focusedApp now with
    | none => none
    | some (m, verdict, token) => some (m, .verdict verdict token)
  | .report token delivery =>
    let (m, settled) := m.reportDelivery token delivery
    some (m, .reported settled)
  | .swapRules rules => some (m.swapRules rules, .done)
  | .invalidateSpeculation => some (m.invalidateSpeculation, .done)
  | .disqualifyTaps => some (m.disqualifyTaps, .done)
  | .settle device event => some (m.settleDeviceEvent device event, .done)
  | .resetDevice device => some (m.resetDevice device, .done)
  | .reset => some (m.reset, .done)

/- A matcher reached from a fresh one by public operations. -/
def Reachable (m : Matcher) : Prop := ∃ rules trace, Run step (new rules) trace m

abbrev Entry := Transition.Entry Matcher Op Out

end Matcher

end Sledge.Core
