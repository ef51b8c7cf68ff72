import Sledge.Linux.Keymap
import Sledge.Linux.Wire

/-
  Matcher transactions over native deliveries
  (`packages/linux/src/hyprland/matcher.rs`).

  At most one proposal is outstanding.  A delivery that
  cannot be trusted disables replacement until the native
  side attests quiescence under a nonce that was armed
  before.  The transaction state and its matcher are kept
  together, as `MatcherAdapter` does.
-/

-----
-- State

namespace Sledge.Linux

open Core

/- A proposal whose delivery has not been reported yet. -/
structure Pending where
  scope : Scope
  token : ReplacementToken
  decision : Decision
  key : Nat
  state : Nat
  focusEpoch : Nat
deriving DecidableEq

structure MatcherTransactions where
  pending : Option Pending
  modifierTapRelease : Bool
  physicalDowns : Finset (Nat × Nat)
  observation : Option (Nat × Nat × Nat × Nat)
  replacementDisabled : Bool
  recoveryNonce : Option Nat
  previousRecoveryNonce : Option Nat

namespace MatcherTransactions

/- `MatcherTransactions::default()`. -/
def default : MatcherTransactions where
  pending := none
  modifierTapRelease := false
  physicalDowns := ∅
  observation := none
  replacementDisabled := false
  recoveryNonce := none
  previousRecoveryNonce := none

def isReconciled (t : MatcherTransactions) (nonce : Nat) : Bool :=
  nonce != 0 && !t.replacementDisabled && t.recoveryNonce.isNone &&
    t.previousRecoveryNonce == some nonce

def needsReconciliation (t : MatcherTransactions) : Bool :=
  t.replacementDisabled && t.recoveryNonce.isNone

end MatcherTransactions

structure MatcherAdapter where
  matcher : Matcher
  transactions : MatcherTransactions

namespace MatcherAdapter

def new (matcher : Matcher) : MatcherAdapter where
  matcher := matcher
  transactions := .default

/- The press a packet is about, when its key is known. -/
def pressOf (scope : Scope) (key : Nat) : Option Press :=
  (codeOf key).map (fun code => (⟨scope.generation⟩, code))

def modifierTapRelease (a : MatcherAdapter) : Bool := a.transactions.modifierTapRelease

def setModifierTapRelease (a : MatcherAdapter) (enabled : Bool) : MatcherAdapter :=
  { a with transactions := { a.transactions with modifierTapRelease := enabled } }

-----
-- Proposals

/-
  Track the keys held in tap-release mode.  Taps never span connections, epochs, focus
  changes or keyboards.
-/
def observePhysical (a : MatcherAdapter) (scope : Scope) (event : Event) : MatcherAdapter × Bool :=
  let identity := (scope.nonce, scope.lockEpoch, event.focusEpoch, scope.generation)
  let matcher := if a.transactions.observation ≠ some identity then
      a.matcher.disqualifyTaps
    else a.matcher
  let press := (scope.generation, event.key)
  let downs := a.transactions.physicalDowns
  let (downs, changed) :=
    match event.state with
    | 1 => (insert press downs, decide (press ∉ downs))
    | 0 => (downs.erase press, decide (press ∈ downs))
    | _ => (downs, false)
  (⟨matcher, { a.transactions with observation := some identity, physicalDowns := downs }⟩, changed)

/- The adapter after the physical bookkeeping of an event. -/
def observed (a : MatcherAdapter) (scope : Scope) (event : Event) : MatcherAdapter :=
  if a.modifierTapRelease then
    (a.observePhysical scope event).1
  else a

/- The event as the matcher sees it. -/
def normalize (code : KeyCode) (event : Event) : KeyEvent where
  code := code
  kind := if event.state = 0 then .keyUp else .keyDown
  mods := physicalModifiers event.modifiers

/- The wire decision for a verdict. -/
def decisionOf (state : Nat) (admitSource : String → Bool) (verdict : Verdict) : Decision :=
  match verdict with
  | .pass => .pass
  | .swallow => if state = 0 then .pass else .swallow
  | .replace (.sendKey key mods) =>
    match toEvdev key, requestedModifiers mods with
    | some key, some modifiers => .replace key modifiers
    | _, _ => .pass
  | .replace (.setInputSource id) =>
    if admitSource id then .swallow else .pass

/- Another key is held while a modifier goes down. -/
def spoilsTaps (t : MatcherTransactions) (code : KeyCode) (scope : Scope) (event : Event) : Bool :=
  t.modifierTapRelease && code.isModifier && event.state == 1 && decide (∃ press ∈ t.physicalDowns,
      press ≠ (scope.generation, event.key))

/- The outstanding proposal after a dispatch. -/
def pendingAfter (pending : Option Pending) (scope : Scope) (event : Event) (decision : Decision)
    (token : Option ReplacementToken) : Option Pending :=
  match token with
  | some token =>
    some
      { scope := scope
        token := token
        decision := decision
        key := event.key
        state := event.state
        focusEpoch := event.focusEpoch }
  | none => pending

/- Dispatch an observed event and keep its token. -/
def proposeObserved (a : MatcherAdapter) (scope : Scope) (event : Event)
    (focusedApp : Option String) (now : Instant) (admitSource : String → Bool) :
    Option (MatcherAdapter × Decision) :=
  match codeOf event.key with
  | none => some ({ a with matcher := a.matcher.disqualifyTaps }, .pass)
  | some code =>
    match a.matcher.dispatchDeviceWithDelivery ⟨scope.generation⟩ (normalize code event) focusedApp
        now with
    | none => none
    | some (matcher, verdict, token) =>
      let matcher := if spoilsTaps a.transactions code scope event then
          matcher.disqualifyTaps
        else matcher
      let decision := decisionOf event.state admitSource verdict
      some (⟨matcher,
            { a.transactions with
              pending := pendingAfter a.transactions.pending scope event decision token }⟩,
          decision)

/-
  Propose a decision for one event.  `none` is the panic on exhausted token generations.
-/
def proposeWithSource (a : MatcherAdapter) (scope : Scope) (event : Event)
    (focusedApp : Option String) (now : Instant) (admitSource : String → Bool) :
    Option (MatcherAdapter × Except IoError Decision) :=
  if a.transactions.pending.isSome ∨ a.transactions.replacementDisabled then
    some (a, .error invalid)
  else if 1 < event.state ∨ (event.state = 0 ∧ ¬ a.modifierTapRelease) then
    some (a, .ok .pass)
  else if a.modifierTapRelease ∧ ¬ (a.observePhysical scope event).2 then
    some (a.observed scope event, .ok .pass)
  else
    ((a.observed scope event).proposeObserved scope event
      focusedApp now admitSource).map (fun (a, decision) =>
        (a, .ok decision))

/- No proposal is outstanding and none is uncertain. -/
structure Open (a : MatcherAdapter) : Prop where
  pending : a.transactions.pending = none
  enabled : a.transactions.replacementDisabled = false

theorem open_of_not {a : MatcherAdapter}
    (hNot : ¬ (a.transactions.pending.isSome = true ∨ a.transactions.replacementDisabled = true)) :
    a.Open := by
  push Not at hNot
  exact ⟨by simpa using hNot.1, by simpa using hNot.2⟩

/- The bookkeeping leaves the proposal and the gates alone. -/
theorem observed_transactions (a : MatcherAdapter) (scope : Scope) (event : Event) :
    ∃ observation downs, (a.observed scope event).transactions =
        { a.transactions with observation := observation, physicalDowns := downs } := by
  unfold observed
  split
  · exact ⟨_, _, rfl⟩
  · exact ⟨_, _, rfl⟩

/- An event the matcher is asked about. -/
def Asked (a : MatcherAdapter) (event : Event) : Prop :=
  event.state = 1 ∨ (event.state = 0 ∧ a.modifierTapRelease = true)

theorem asked_of_not {a : MatcherAdapter} {event : Event}
    (hNot : ¬ (1 < event.state ∨ (event.state = 0 ∧ ¬ a.modifierTapRelease = true))) :
    a.Asked event := by
  push Not at hNot
  by_cases hUp : event.state = 0
  · exact .inr ⟨hUp, hNot.2 hUp⟩
  · exact .inl (by omega)

/- The matcher after a dispatch and its tap bookkeeping. -/
def spoiled (a : MatcherAdapter) (matcher : Matcher) (code : KeyCode) (scope : Scope)
    (event : Event) : Matcher :=
  if spoilsTaps (a.observed scope event).transactions code scope event then
    matcher.disqualifyTaps
  else matcher

/- Everything a proposal can do. -/
inductive Proposed (a : MatcherAdapter) (scope : Scope) (event : Event) (focusedApp : Option String)
    (now : Instant) (admitSource : String → Bool) :
    MatcherAdapter → Except IoError Decision → Prop where
  | refused (hClosed : a.transactions.pending.isSome = true ∨
          a.transactions.replacementDisabled = true) :
      Proposed a scope event focusedApp now admitSource a (.error invalid)
  | skipped (hOpen : a.Open) (hState : ¬ a.Asked event) :
      Proposed a scope event focusedApp now admitSource a (.ok .pass)
  | repeated (hOpen : a.Open) (hAsked : a.Asked event) (hTap : a.modifierTapRelease = true)
      (hSame : (a.observePhysical scope event).2 = false) :
      Proposed a scope event focusedApp now admitSource (a.observed scope event) (.ok .pass)
  | unknown (hOpen : a.Open) (hAsked : a.Asked event) (hChanges : a.modifierTapRelease = true →
          (a.observePhysical scope event).2 = true)
      (hCode : codeOf event.key = none) :
      Proposed a scope event focusedApp now admitSource
        { a.observed scope event with matcher := (a.observed scope event).matcher.disqualifyTaps }
        (.ok .pass)
  | dispatched {code : KeyCode} {matcher : Matcher} {verdict : Verdict}
      {token : Option ReplacementToken}
      (hOpen : a.Open)
      (hAsked : a.Asked event)
      (hChanges : a.modifierTapRelease = true → (a.observePhysical scope event).2 = true)
      (hCode : codeOf event.key = some code)
      (hDispatch : (a.observed scope event).matcher.dispatchDeviceWithDelivery
              ⟨scope.generation⟩ (normalize code event)
              focusedApp now =
          some (matcher, verdict, token)) :
      Proposed a scope event focusedApp now admitSource ⟨a.spoiled matcher code scope event,
          { (a.observed scope event).transactions with
            pending := pendingAfter none scope event (decisionOf event.state admitSource verdict)
                token }⟩
        (.ok (decisionOf event.state admitSource verdict))

theorem proposed_of_proposeWithSource {a b : MatcherAdapter} {scope : Scope} {event : Event}
    {focusedApp : Option String} {now : Instant} {admitSource : String → Bool}
    {result : Except IoError Decision}
    (hPropose : a.proposeWithSource scope event focusedApp now admitSource = some (b, result)) :
    Proposed a scope event focusedApp now admitSource b result := by
  unfold proposeWithSource at hPropose
  split_ifs at hPropose with hClosed hState hSame
  · cases hPropose
    exact .refused hClosed
  · cases hPropose
    refine .skipped (open_of_not hClosed) ?_
    rintro (hDown | ⟨hUp, hTap⟩)
    · omega
    · rcases hState with hLarge | ⟨_, hNot⟩
      · omega
      · exact hNot hTap
  · cases hPropose
    exact .repeated (open_of_not hClosed) (asked_of_not hState) hSame.1
      (by simpa using hSame.2)
  · have hOpen := open_of_not hClosed
    have hAsked := asked_of_not hState
    have hChanges : a.modifierTapRelease = true → (a.observePhysical scope event).2 = true := by
      intro hTap
      simpa [hTap] using hSame
    unfold proposeObserved at hPropose
    split at hPropose
    · rename_i hCode
      cases hPropose
      exact .unknown hOpen hAsked hChanges hCode
    · rename_i code hCode
      split at hPropose
      · cases hPropose
      · rename_i matcher verdict token hDispatch
        cases hPropose
        have hNone : (a.observed scope event).transactions.pending =
            none := by
          rcases a.observed_transactions scope event with ⟨observation, downs, hObserved⟩
          rw [hObserved]
          exact hOpen.pending
        rw [hNone]
        exact .dispatched hOpen hAsked hChanges hCode hDispatch

end MatcherAdapter

-----
-- Deliveries

namespace Pending

/- An acknowledgement that cannot be for this proposal. -/
def contradicts (pending : Pending) (report : DeliveryReport) : Bool :=
  match report with
  | .acknowledged outcome =>
    outcome.key != pending.key || outcome.state != pending.state ||
      outcome.focusEpoch != pending.focusEpoch ||
      (outcome.result == .replaced && !pending.decision.isReplace) ||
      (outcome.result == .swallowCommitted && pending.decision != .swallow)
  | .uncertain => false

/- What a consistent report says about the token. -/
def settlement (pending : Pending) (report : DeliveryReport) : ReplacementDelivery :=
  if pending.decision = .pass ∧ report.result? = some .originalAdmitted then
    .rejectedOriginalForwarded
  else if pending.decision = .swallow ∧ report.result? = some .swallowCommitted then
    .delivered
  else report.replacementDelivery

/- What a report makes of the token, trusted or not. -/
def reading (pending : Pending) (report : DeliveryReport) : ReplacementDelivery :=
  if pending.contradicts report then .uncertain
  else pending.settlement report

end Pending

namespace MatcherAdapter

/- Settle the outstanding proposal of exactly this scope. -/
def onDelivery (a : MatcherAdapter) (scope : Scope) (report : DeliveryReport) :
    MatcherAdapter × Bool :=
  match a.transactions.pending with
  | none => (a, false)
  | some pending =>
    if pending.scope ≠ scope then (a, false)
    else
      let t := { a.transactions with pending := none }
      if pending.contradicts report then
        (⟨(a.matcher.reportDelivery pending.token .uncertain).1,
            { t with replacementDisabled := true }⟩,
          false)
      else
        let delivery := pending.settlement report
        let (matcher, settled) := a.matcher.reportDelivery pending.token delivery
        (⟨matcher,
            { t with replacementDisabled := t.replacementDisabled || delivery == .uncertain }⟩,
          settled)

/- A report that cannot settle this release or repeat. -/
def unsettled (event : Event) (outcome : Outcome) : Bool :=
  outcome.key != event.key || outcome.state != event.state ||
    outcome.focusEpoch != event.focusEpoch ||
    outcome.result == .partialUncertainFatal ||
    outcome.result == .replaced

/- A release retires the proposal of its own press. -/
def pendingSettled (pending : Option Pending) (scope : Scope) (event : Event) : Option Pending :=
  if event.state = 0 ∧ pending.any (fun p =>
        p.scope.generation == scope.generation && p.key == event.key) then
    none
  else pending

/- Settle an acknowledged release or repeat. -/
def settleDeviceEvent (a : MatcherAdapter) (scope : Scope) (event : Event) (report : DeliveryReport) :
    MatcherAdapter × Bool :=
  let disabled := { a with transactions := { a.transactions with replacementDisabled := true } }
  if event.state = 1 ∨ 2 < event.state ∨ scope.generation = 0 then
    (a, false)
  else
    match report with
    | .uncertain => (disabled, false)
    | .acknowledged outcome =>
      if unsettled event outcome then (disabled, false)
      else
        match codeOf event.key with
        | none => (a, false)
        | some code =>
          (⟨a.matcher.settleDeviceEvent ⟨scope.generation⟩ (normalize code event),
              { a.transactions with pending := pendingSettled a.transactions.pending scope event }⟩,
            true)

-----
-- Recovery

/- Drop speculation; an unreported proposal is uncertain. -/
def invalidateSpeculation (a : MatcherAdapter) : MatcherAdapter where
  matcher := a.matcher.invalidateSpeculation
  transactions :=
    { a.transactions with
      pending := none
      observation := none
      replacementDisabled := a.transactions.replacementDisabled || a.transactions.pending.isSome }

/- Disable replacement and wait for proof under `nonce`. -/
def arm (a : MatcherAdapter) (nonce : Nat) : MatcherAdapter :=
  let a := a.invalidateSpeculation
  { a with
    transactions :=
      { a.transactions with replacementDisabled := true, recoveryNonce := some nonce } }

/- Bind the nonce of a freshly authenticated connection. -/
def awaitReconciliation (a : MatcherAdapter) (nonce : Nat) : MatcherAdapter × Bool :=
  if nonce = 0 ∨ a.transactions.previousRecoveryNonce = some nonce ∨
      a.transactions.recoveryNonce = some nonce then
    (a, false)
  else (a.arm nonce, true)

/- Arm the nonce of a healthy session a second time. -/
def awaitLifecycleReconciliation (a : MatcherAdapter) (scope : Scope) (body : Body) :
    MatcherAdapter × Bool :=
  if ¬ body.isLifecycleReset ∨ scope.generation ≠ 0 ∨ a.transactions.replacementDisabled ∨
      a.transactions.pending.isSome ∨
      a.transactions.previousRecoveryNonce ≠ some scope.nonce then
    (a, false)
  else (a.arm scope.nonce, true)

/- Start over: clear all holds and enable replacement. -/
def renew (a : MatcherAdapter) : MatcherAdapter where
  matcher := a.matcher.reset
  transactions :=
    { a.transactions with
      physicalDowns := ∅
      observation := none
      pending := none
      replacementDisabled := false
      recoveryNonce := none
      previousRecoveryNonce := a.transactions.recoveryNonce }

/- Accept the native proof for the armed nonce. -/
def reconciled (a : MatcherAdapter) (scope : Scope) (body : Body) : MatcherAdapter × Bool :=
  if ¬ body.isReconciliation ∨ scope.generation ≠ 0 ∨
      a.transactions.recoveryNonce ≠ some scope.nonce then
    (a, false)
  else (a.renew, true)

/- Forget one keyboard that the native side has retired. -/
def retireDevice (a : MatcherAdapter) (generation : Nat) : MatcherAdapter :=
  if generation = 0 then a
  else
    let lost := a.transactions.pending.any (fun p =>
        p.scope.generation == generation)
    ⟨a.matcher.resetDevice ⟨generation⟩,
      { a.transactions with
        pending := if lost then none else a.transactions.pending
        replacementDisabled := a.transactions.replacementDisabled || lost
        physicalDowns := a.transactions.physicalDowns.filter (fun press => press.1 ≠ generation) }⟩

/- The transport is lost; only a new arming can recover. -/
def disconnected (a : MatcherAdapter) : MatcherAdapter :=
  let a := a.invalidateSpeculation
  { a with
    transactions := { a.transactions with recoveryNonce := none, replacementDisabled := true } }

/- Drop the observation and the matcher's speculation. -/
def forget (a : MatcherAdapter) : MatcherAdapter where
  matcher := a.matcher.invalidateSpeculation
  transactions := { a.transactions with observation := none }

/- An armed wait for proof under this nonce is underway. -/
def awaits (a : MatcherAdapter) (nonce : Nat) : Bool :=
  a.transactions.recoveryNonce == some nonce && a.transactions.replacementDisabled &&
    a.transactions.pending.isNone

def observeLockBoundary (a : MatcherAdapter) (nonce : Nat) : MatcherAdapter :=
  if a.awaits nonce then a.forget else a.disconnected

def observeUnlockedEpoch (a : MatcherAdapter) (nonce : Nat) : MatcherAdapter :=
  if a.transactions.isReconciled nonce ∧ a.transactions.pending.isNone then
    a.forget
  else a.observeLockBoundary nonce

/- Swap the rules of the matcher, as a reload does. -/
def swapRules (a : MatcherAdapter) (rules : RuleSet) : MatcherAdapter :=
  { a with matcher := a.matcher.swapRules rules }

-----
-- Operations

inductive Op where
  | setModifierTapRelease (enabled : Bool)
  | propose (scope : Scope) (event : Event) (focusedApp : Option String) (now : Instant)
      (admitSource : String → Bool)
  | onDelivery (scope : Scope) (report : DeliveryReport)
  | settleDeviceEvent (scope : Scope) (event : Event) (report : DeliveryReport)
  | awaitReconciliation (nonce : Nat)
  | awaitLifecycleReconciliation (scope : Scope) (body : Body)
  | reconciled (scope : Scope) (body : Body)
  | retireDevice (generation : Nat)
  | observeUnlockedEpoch (nonce : Nat)
  | observeLockBoundary (nonce : Nat)
  | invalidateSpeculation
  | disconnected
  | swapRules (rules : RuleSet)

/- The nonce an operation would arm. -/
def Op.nonce? : Op → Option Nat
  | .awaitReconciliation nonce => some nonce
  | .awaitLifecycleReconciliation scope _ => some scope.nonce
  | _ => none

/- A boundary the session survives: its wait goes on. -/
def heeds (a : MatcherAdapter) : Op → Bool
  | .observeLockBoundary nonce => a.awaits nonce
  | .observeUnlockedEpoch nonce =>
    (a.transactions.isReconciled nonce && a.transactions.pending.isNone) || a.awaits nonce
  | _ => false

/- A disconnection, or a boundary that amounts to one. -/
def disconnects (a : MatcherAdapter) : Op → Bool
  | .disconnected => true
  | .observeLockBoundary nonce => !a.heeds (.observeLockBoundary nonce)
  | .observeUnlockedEpoch nonce => !a.heeds (.observeUnlockedEpoch nonce)
  | _ => false

/- What an operation returns to its caller. -/
inductive Out where
  | decision (result : Except IoError Decision)
  | flag (value : Bool)
  | done

namespace Out

/- The operation returned `true`. -/
def succeeded : Out → Bool
  | .flag value => value
  | _ => false

end Out

def step (a : MatcherAdapter) : Op → Option (MatcherAdapter × Out)
  | .setModifierTapRelease enabled => some (a.setModifierTapRelease enabled, .done)
  | .propose scope event focusedApp now admitSource =>
    (a.proposeWithSource scope event focusedApp now admitSource).map (fun (a, result) =>
        (a, .decision result))
  | .onDelivery scope report =>
    let (a, settled) := a.onDelivery scope report
    some (a, .flag settled)
  | .settleDeviceEvent scope event report =>
    let (a, settled) := a.settleDeviceEvent scope event report
    some (a, .flag settled)
  | .awaitReconciliation nonce =>
    let (a, armed) := a.awaitReconciliation nonce
    some (a, .flag armed)
  | .awaitLifecycleReconciliation scope body =>
    let (a, armed) := a.awaitLifecycleReconciliation scope body
    some (a, .flag armed)
  | .reconciled scope body =>
    let (a, accepted) := a.reconciled scope body
    some (a, .flag accepted)
  | .retireDevice generation => some (a.retireDevice generation, .done)
  | .observeUnlockedEpoch nonce => some (a.observeUnlockedEpoch nonce, .done)
  | .observeLockBoundary nonce => some (a.observeLockBoundary nonce, .done)
  | .invalidateSpeculation => some (a.invalidateSpeculation, .done)
  | .disconnected => some (a.disconnected, .done)
  | .swapRules rules => some (a.swapRules rules, .done)

/- The proposal is settled as the report reads. -/
def reported (a : MatcherAdapter) (pending : Pending) (report : DeliveryReport) : MatcherAdapter :=
  ⟨(a.matcher.reportDelivery pending.token (pending.reading report)).1,
    { a.transactions with
      pending := none
      replacementDisabled :=
        a.transactions.replacementDisabled || pending.reading report == .uncertain }⟩

/- The operations that find nothing to do. -/
inductive Refused (a : MatcherAdapter) : Op → Out → Prop where
  | onDelivery {scope : Scope} (report : DeliveryReport) (hOther : ∀ pending,
          a.transactions.pending = some pending → pending.scope ≠ scope) :
      Refused a (.onDelivery scope report) (.flag false)
  | settleDeviceEvent (scope : Scope) (event : Event) (report : DeliveryReport) :
      Refused a (.settleDeviceEvent scope event report) (.flag false)
  | awaitReconciliation (nonce : Nat) : Refused a (.awaitReconciliation nonce) (.flag false)
  | awaitLifecycleReconciliation (scope : Scope) (body : Body) :
      Refused a (.awaitLifecycleReconciliation scope body) (.flag false)
  | reconciled (scope : Scope) (body : Body) : Refused a (.reconciled scope body) (.flag false)
  | retireDevice : Refused a (.retireDevice 0) .done

/- Everything an operation can do. -/
inductive Stepped (a : MatcherAdapter) : Op → MatcherAdapter → Out → Prop where
  | setModifierTapRelease (enabled : Bool) : Stepped a (.setModifierTapRelease enabled)
        (a.setModifierTapRelease enabled) .done
  | propose {scope : Scope} {event : Event} {focusedApp : Option String} {now : Instant}
      {admitSource : String → Bool}
      {b : MatcherAdapter}
      {result : Except IoError Decision}
      (hProposed : Proposed a scope event focusedApp now admitSource b result) :
      Stepped a (.propose scope event focusedApp now admitSource) b (.decision result)
  | refused {op : Op} {out : Out} (hRefused : Refused a op out) : Stepped a op a out
  | reported {scope : Scope} {pending : Pending} (report : DeliveryReport) (settled : Bool)
      (hPending : a.transactions.pending = some pending)
      (hScope : pending.scope = scope) :
      Stepped a (.onDelivery scope report) (a.reported pending report) (.flag settled)
  | distrusted (scope : Scope) (event : Event) (report : DeliveryReport) :
      Stepped a (.settleDeviceEvent scope event report)
        { a with transactions := { a.transactions with replacementDisabled := true } }
        (.flag false)
  | settled {scope : Scope} {event : Event} {code : KeyCode} (outcome : Outcome)
      (hState : event.state ≠ 1)
      (hGlobal : scope.generation ≠ 0)
      (hCode : codeOf event.key = some code) :
      Stepped a (.settleDeviceEvent scope event (.acknowledged outcome))
        ⟨a.matcher.settleDeviceEvent ⟨scope.generation⟩ (normalize code event),
          { a.transactions with pending := pendingSettled a.transactions.pending scope event }⟩
        (.flag true)
  | armed (op : Op) (nonce : Nat) (hOp : op.nonce? = some nonce) :
      Stepped a op (a.arm nonce) (.flag true)
  | reconciled (scope : Scope) (hGlobal : scope.generation = 0) (hNonce :
        a.transactions.recoveryNonce = some scope.nonce) :
      Stepped a (.reconciled scope (.reset 8)) a.renew (.flag true)
  | retired {generation : Nat} {lost : Bool} (hGlobal : generation ≠ 0) (hLost :
        a.transactions.pending.any (fun p => p.scope.generation == generation) = lost) :
      Stepped a (.retireDevice generation) ⟨a.matcher.resetDevice ⟨generation⟩,
          { a.transactions with
            pending := if lost then none else a.transactions.pending
            replacementDisabled := a.transactions.replacementDisabled || lost
            physicalDowns :=
              a.transactions.physicalDowns.filter (fun press => press.1 ≠ generation) }⟩
        .done
  | observed (op : Op) (hOp : a.heeds op = true) : Stepped a op a.forget .done
  | disconnected (op : Op) (hOp : a.disconnects op = true) : Stepped a op a.disconnected .done
  | invalidateSpeculation : Stepped a .invalidateSpeculation a.invalidateSpeculation .done
  | swapRules (rules : RuleSet) : Stepped a (.swapRules rules) (a.swapRules rules) .done

theorem onDelivery_stepped (a : MatcherAdapter) (scope : Scope) (report : DeliveryReport) :
    Stepped a (.onDelivery scope report) (a.onDelivery scope report).1
      (.flag (a.onDelivery scope report).2) := by
  unfold onDelivery
  split
  · rename_i hNone
    exact .refused (.onDelivery report (by simp [hNone]))
  · rename_i pending hPending
    split_ifs with hScope hContradicts
    · exact .refused (.onDelivery report (by simpa [hPending] using hScope))
    all_goals
      have hNext (settled : Bool) :=
        Stepped.reported report settled hPending (not_not.mp hScope)
      simp only [reported, Pending.reading, hContradicts] at hNext
    · simpa using hNext false
    · exact hNext _

theorem settleDeviceEvent_stepped (a : MatcherAdapter) (scope : Scope) (event : Event)
    (report : DeliveryReport) :
    Stepped a (.settleDeviceEvent scope event report) (a.settleDeviceEvent scope event report).1
      (.flag (a.settleDeviceEvent scope event report).2) := by
  unfold settleDeviceEvent
  dsimp only
  split_ifs with hIgnored
  · exact .refused (.settleDeviceEvent scope event report)
  push Not at hIgnored
  cases report with
  | uncertain => exact .distrusted scope event _
  | acknowledged outcome =>
    dsimp only
    split_ifs
    · exact .distrusted scope event _
    cases hCode : codeOf event.key with
    | none => exact .refused (.settleDeviceEvent scope event _)
    | some code => exact .settled outcome hIgnored.1 hIgnored.2.2 hCode

theorem stepped_of_step {a b : MatcherAdapter} {op : Op} {out : Out}
    (hStep : a.step op = some (b, out)) : Stepped a op b out := by
  cases op with
  | propose scope event focusedApp now admitSource =>
    simp only [step, Option.map_eq_some_iff] at hStep
    rcases hStep with ⟨⟨b', result⟩, hPropose, hEq⟩
    cases hEq
    exact .propose (proposed_of_proposeWithSource hPropose)
  | onDelivery scope report =>
    cases hStep
    exact onDelivery_stepped a scope report
  | settleDeviceEvent scope event report =>
    cases hStep
    exact settleDeviceEvent_stepped a scope event report
  | retireDevice generation =>
    cases hStep
    unfold retireDevice
    split_ifs with hGlobal
    · subst hGlobal
      exact .refused .retireDevice
    · exact .retired hGlobal rfl
  | awaitReconciliation nonce =>
    simp only [step, Option.some.injEq, Prod.mk.injEq] at hStep
    rcases hStep with ⟨rfl, rfl⟩
    unfold awaitReconciliation
    split_ifs with hRefused
    · exact .refused (.awaitReconciliation nonce)
    · exact .armed _ nonce rfl
  | awaitLifecycleReconciliation scope body =>
    simp only [step, Option.some.injEq, Prod.mk.injEq] at hStep
    rcases hStep with ⟨rfl, rfl⟩
    unfold awaitLifecycleReconciliation
    split_ifs with hRefused
    · exact .refused (.awaitLifecycleReconciliation scope body)
    · exact .armed _ scope.nonce rfl
  | reconciled scope body =>
    simp only [step, Option.some.injEq, Prod.mk.injEq] at hStep
    rcases hStep with ⟨rfl, rfl⟩
    unfold reconciled
    split_ifs with hRefused
    · exact .refused (.reconciled scope body)
    · push Not at hRefused
      obtain rfl := Body.eq_of_isReconciliation hRefused.1
      exact .reconciled scope hRefused.2.1 hRefused.2.2
  | observeUnlockedEpoch nonce =>
    cases hStep
    unfold observeUnlockedEpoch observeLockBoundary
    split_ifs with hReady hAwaits
    · exact .observed _ (by simp [heeds, hReady])
    · exact .observed _ (by simp [heeds, hAwaits])
    · rw [← Bool.and_eq_true] at hReady
      refine .disconnected _ ?_
      simp [disconnects, heeds, Bool.eq_false_of_not_eq_true hReady, hAwaits]
  | observeLockBoundary nonce =>
    cases hStep
    unfold observeLockBoundary
    split_ifs with hAwaits
    · exact .observed _ (by simp [heeds, hAwaits])
    · exact .disconnected _ (by simp [disconnects, heeds, hAwaits])
  | disconnected =>
    cases hStep
    exact .disconnected _ rfl
  | _ =>
    cases hStep
    constructor

abbrev Entry := Transition.Entry MatcherAdapter Op Out

end MatcherAdapter

end Sledge.Linux
