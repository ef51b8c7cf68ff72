import Sledge.Daemon.Handler
import Sledge.Linux.Recovery

/-
  Admission of decisions in the installed session
  (`packages/cli/src/daemon/hyprland_installed.rs`).

  The session thread runs its calls in small steps; reloads
  and changes of circumstance come in between at any point.
  The calls themselves are made in any order, which includes
  the order `run_session` makes them in.

  A decision other than Pass needs an enabled matcher, and
  the matcher is enabled only while the latest native proof
  of the current connection is undisturbed.

  Main results:
    * `Installed.step_guarded`
    * `Installed.admission`
    * `Installed.reload_overtakes`
-/

-----
-- The Installed Session

namespace Sledge

open Transition

namespace Daemon.Linux

open Core Config Sledge.Linux

/- The session thread and what it shares. -/
abbrev Installed := Session.Live Handler

namespace Installed

inductive Op where
  | act (act : Session.Act)
  | bind
  | observe
  | reload (rules : RuleSet) (aliases : Dict String AppAlias)
  | circumstances (circumstances : Circumstances)

namespace Op

/- What other threads and the outside do. -/
def isOutside : Op → Bool
  | .reload _ _ => true
  | .circumstances _ => true
  | _ => false

end Op

def reload (h : Handler) (rules : RuleSet) (aliases : Dict String AppAlias) : Handler :=
  { h with matching := h.matching.replace rules aliases }

def step (l : Installed) : Op → Option (Installed × Session.Returned)
  | .act act => Session.advance l act
  | .bind =>
    match l.phase with
    | .idle =>
      let (s, h, _) := l.handler.bindMatcher l.session
      some (⟨s, .idle, h⟩, none)
    | _ => none
  | .observe =>
    match l.phase with
    | .idle =>
      some ({ l with
            handler :=
              l.handler.observe l.session.health },
          none)
    | _ => none
  | .reload rules aliases => some ({ l with handler := reload l.handler rules aliases }, none)
  | .circumstances circumstances =>
    some ({ l with
          handler := { l.handler with circumstances := circumstances } },
        none)

abbrev Entry := Transition.Entry Installed Op Session.Returned

/- The transactions the handler works on. -/
def transactions (l : Installed) : MatcherTransactions := l.handler.matching.hyprland.transactions

/- A session handed out by admission, before its binding. -/
structure Starts (l : Installed) : Prop where
  idle : l.phase = .idle
  unbound : l.session.matcherBound = false
  downOnly : l.handler.matching.hyprlandDownOnly = true

-----
-- Histories

/- The control an entry passed on to the handler. -/
def notified? (e : Entry) : Option Packet :=
  match e.op, e.pre.phase with
  | .act .notify, .notifying packet _ => some packet
  | _, _ => none

/-
  A Reset(8) of this nonce that the bridge accepted, since it was passed on, and that the
  transactions accept.
-/
def reconciles (nonce : Nat) (e : Entry) : Bool :=
  (notified? e).any (fun packet =>
    packet.scope.nonce == nonce && (e.pre.handler.matching.hyprland.reconciled packet.scope
        packet.body).2)

def locks (e : Entry) : Bool :=
  (notified? e).any (fun packet =>
    match packet.body with
    | .lock state _ => state != 0
    | _ => false)

def resetsLifecycle (e : Entry) : Bool :=
  (notified? e).any (fun packet =>
    packet.body.isLifecycleReset && packet.scope.generation == 0)

/- The delivery of the outstanding proposal was uncertain. -/
def losesDelivery (e : Entry) : Bool :=
  match e.op, e.pre.phase with
  | .act .deliver, .delivering packet _ _ result =>
    e.pre.transactions.pending.any (fun pending =>
      pending.scope == packet.scope && pending.reading (Bridge.reportOf result) == .uncertain)
  | _, _ => false

def reloadsPending (e : Entry) : Bool :=
  match e.op with
  | .reload _ _ => e.pre.transactions.pending.isSome
  | _ => false

/- The connection was lost, given up or replaced. -/
def disconnects (e : Entry) : Bool :=
  match e.op with
  | .act .fail => true
  | .act .requestReconciliation => true
  | .act (.reconnect _ _) =>
    match e.out with
    | some (.ok _) => true
    | _ => false
  | _ => false

/- Nothing that takes the admission back. -/
def quiet (e : Entry) : Bool :=
  !locks e && !resetsLifecycle e && !losesDelivery e && !reloadsPending e && !disconnects e

/-
  A proof of this nonce was accepted, and nothing has taken it back since the latest one.
-/
def Reconciled (nonce : Nat) (history : List Entry) : Prop :=
  Since (fun _ => True) (fun e => reconciles nonce e = true)
    (fun e => quiet e = true) history

end Installed

end Daemon.Linux

-----
-- What The Handler Does To The Transactions

namespace Linux

open Core

namespace MatcherAdapter

variable {a b c : MatcherAdapter}

theorem Keeps.refl (a : MatcherAdapter) : Keeps a a := ⟨fun _ h => h, rfl⟩

theorem Keeps.trans (hFirst : Keeps a b) (hSecond : Keeps b c) : Keeps a c :=
  ⟨fun p h => hFirst.pending p (hSecond.pending p h), hSecond.tap.trans hFirst.tap⟩

theorem Steady.trans (hFirst : Steady a b) (hSecond : Steady b c) : Steady a c :=
  ⟨hSecond.recovery.trans hFirst.recovery, hSecond.previous.trans hFirst.previous,
    fun h => hSecond.disabled (hFirst.disabled h)⟩

theorem invalidateSpeculation_keeps : Keeps a a.invalidateSpeculation :=
  step_keeps .invalidateSpeculation rfl rfl

/- A lock boundary leaves replacement disabled. -/
theorem observeLockBoundary_disabled (nonce : Nat) :
    (a.observeLockBoundary nonce).transactions.replacementDisabled = true := by
  unfold observeLockBoundary
  split_ifs with hAwaits
  · simp only [awaits, Bool.and_eq_true] at hAwaits
    exact hAwaits.1.2
  · rfl

theorem reconciled_cases (a : MatcherAdapter) (scope : Scope) (body : Body) :
    a.reconciled scope body = (a, false) ∨ (a.transactions.recoveryNonce = some scope.nonce ∧
        a.reconciled scope body = (a.renew, true)) := by
  unfold reconciled
  split_ifs with hRefused
  · exact .inl rfl
  · push Not at hRefused
    exact .inr ⟨hRefused.2.2, rfl⟩

variable {scope : Scope} {event : Event} {focusedApp : Option String} {now : Instant}
variable {admitSource : String → Bool}

/- An uncertain delivery of the proposal disables it. -/
theorem onDelivery_uncertain {report : DeliveryReport} {pending : Pending}
    (hPending : a.transactions.pending = some pending) (hScope : pending.scope = scope)
    (hReading : pending.reading report = .uncertain) :
    (a.onDelivery scope report).1.transactions.replacementDisabled = true := by
  have hStepped := a.onDelivery_stepped scope report
  generalize a.onDelivery scope report = next at hStepped ⊢
  rcases next with ⟨b, settled⟩
  cases hStepped with
  | refused hRefused =>
    cases hRefused with
    | onDelivery _ hOther => exact absurd hScope (hOther pending hPending)
  | reported _ _ hFound _ =>
    cases hPending.symm.trans hFound
    simp [hReading]
  | armed _ nonce hOp => cases hOp

/- What a proposal leaves outstanding. -/
theorem propose_pending {result : Except IoError Decision}
    (hProposed : Proposed a scope event focusedApp now admitSource b result) {p : Pending}
    (hPending : b.transactions.pending = some p) :
    a.transactions.pending = some p ∨ (p.scope = scope ∧ p.state = event.state ∧ a.Asked event) := by
  have hObserved : (a.observed scope event).transactions.pending =
      a.transactions.pending :=
    observed_pending scope event
  cases hProposed with
  | refused hClosed | skipped hOpen hState => exact .inl hPending
  | repeated _ _ _ _ | unknown _ _ _ _ => exact .inl (hObserved ▸ hPending)
  | @dispatched code matcher verdict token hOpen hAsked hChanges hCode hDispatch =>
      cases token with
      | none => cases hPending
      | some token =>
        cases hPending
        exact .inr ⟨rfl, rfl, hAsked⟩

/- Only an open adapter decides anything but `pass`. -/
theorem propose_open {decision : Decision}
    (hProposed : Proposed a scope event focusedApp now admitSource b (.ok decision)) : a.Open := by
  cases hProposed <;> assumption

theorem observed_tap (scope : Scope) (event : Event) :
    (a.observed scope event).modifierTapRelease = a.modifierTapRelease := by
  rcases a.observed_transactions scope event with ⟨observation, downs, hObserved⟩
  simp [modifierTapRelease, hObserved]

theorem propose_tap {result : Except IoError Decision}
    (hProposed : Proposed a scope event focusedApp now admitSource b result) :
    b.modifierTapRelease = a.modifierTapRelease := by
  have hObserved := a.observed_tap scope event
  cases hProposed <;> first | rfl | exact hObserved

end MatcherAdapter

end Linux

end Sledge

namespace Sledge.Daemon.Linux

open Core Config Sledge.Linux Transition MatcherAdapter

namespace Handler

variable {h : Handler}

theorem closeGap_keeps : Keeps h.matching.hyprland h.closeGap.matching.hyprland := by
  unfold closeGap
  split_ifs
  · exact invalidateSpeculation_keeps
  · exact .refl _

theorem closeGap_steady :
    Steady h.matching.hyprland h.closeGap.matching.hyprland := by
  unfold closeGap
  split_ifs
  · exact invalidateSpeculation_steady
  · exact .refl _

theorem closeGap_downOnly : h.closeGap.matching.hyprlandDownOnly = h.matching.hyprlandDownOnly := by
  unfold closeGap
  split_ifs <;> rfl

variable {h' : Handler} {scope : Scope} {event : Event} {decision : Decision}

theorem Proposes.downOnly (hProposes : Proposes h scope event h' decision) :
    h'.matching.hyprlandDownOnly = h.matching.hyprlandDownOnly := by
  cases hProposes with
  | missed hMatching => rw [hMatching]
  | proposed hProposed => exact closeGap_downOnly

theorem Proposes.steady (hProposes : Proposes h scope event h' decision) :
    Steady h.matching.hyprland h'.matching.hyprland := by
  cases hProposes with
  | missed hMatching =>
    rw [hMatching]
    exact .refl _
  | proposed hProposed => exact closeGap_steady.trans (propose_steady hProposed)

theorem Proposes.tap (hProposes : Proposes h scope event h' decision) :
    h'.matching.hyprland.modifierTapRelease = h.matching.hyprland.modifierTapRelease := by
  cases hProposes with
  | missed hMatching => rw [hMatching]
  | proposed hProposed => exact (propose_tap hProposed).trans closeGap_keeps.tap

theorem Proposes.pending (hProposes : Proposes h scope event h' decision) {p : Pending}
    (hPending : h'.matching.hyprland.transactions.pending = some p) :
    h.matching.hyprland.transactions.pending = some p ∨ (p.scope = scope ∧ p.state = event.state ∧
        h.matching.hyprland.Asked event) := by
  cases hProposes with
  | missed hMatching =>
    rw [hMatching] at hPending
    exact .inl hPending
  | proposed hProposed =>
    rcases propose_pending hProposed hPending with hBefore | ⟨hScope, hState, hAsked⟩
    · exact .inl (closeGap_keeps.pending p hBefore)
    · refine .inr ⟨hScope, hState, ?_⟩
      simpa [Asked, closeGap_keeps.tap] using hAsked

/- A decision needs an enabled matcher. -/
theorem Proposes.enabled (hProposes : Proposes h scope event h' decision)
    (hDecision : decision ≠ .pass) :
    h.matching.hyprland.transactions.replacementDisabled = false := by
  cases hProposes with
  | missed hMatching => exact absurd rfl hDecision
  | @proposed b result hProposed =>
    cases result with
    | error error => exact absurd rfl hDecision
    | ok decision =>
      have hEnabled := (propose_open hProposed).enabled
      by_contra hDisabled
      rw [closeGap_steady.disabled (by simpa using hDisabled)] at hEnabled
      cases hEnabled

theorem delivery_downOnly (h : Handler) (scope : Scope) (event : Event) (report : DeliveryReport) :
    (h.delivery scope event report).matching.hyprlandDownOnly = h.matching.hyprlandDownOnly := by
  unfold delivery
  split_ifs <;> rfl

theorem delivery_steady (h : Handler) (scope : Scope) (event : Event) (report : DeliveryReport) :
    Steady h.matching.hyprland (h.delivery scope event report).matching.hyprland := by
  unfold delivery
  split_ifs
  · exact step_steady (.onDelivery scope report) rfl rfl rfl nofun
  · exact step_steady (.settleDeviceEvent scope event report) rfl rfl rfl nofun

theorem delivery_keeps (h : Handler) (scope : Scope) (event : Event) (report : DeliveryReport) :
    Keeps h.matching.hyprland (h.delivery scope event report).matching.hyprland := by
  unfold delivery
  split_ifs
  · exact step_keeps (.onDelivery scope report) rfl rfl
  · exact step_keeps (.settleDeviceEvent scope event report) rfl rfl

/- What a lifecycle control does to the transactions. -/
inductive Reacts (a : MatcherAdapter) (scope : Scope) (body : Body) : MatcherAdapter → Prop where
  | disabled {b : MatcherAdapter} (hKeeps : Keeps a b)
      (hDisabled : b.transactions.replacementDisabled = true) :
      Reacts a scope body b
  | steady {b : MatcherAdapter} (hKeeps : Keeps a b)
      (hSteady : Steady a b)
      (hLock : ∀ state reason, body = .lock state reason → state = 0)
      (hLifecycle : body.isLifecycleReset = true → scope.generation ≠ 0) :
      Reacts a scope body b
  | renewed (hNonce : a.transactions.recoveryNonce = some scope.nonce)
      (hReconciled : (a.reconciled scope body).2 = true) :
      Reacts a scope body a.renew

theorem Reacts.keeps {a b : MatcherAdapter} {body : Body} (hReacts : Reacts a scope body b) :
    Keeps a b := by
  cases hReacts with
  | disabled hKeeps | steady hKeeps => exact hKeeps
  | renewed => exact ⟨nofun, rfl⟩

theorem control_lock (a : MatcherAdapter) (scope : Scope) (state reason : Nat) :
    control true scope (.lock state reason) a = (a.observeLockBoundary
        scope.nonce).invalidateSpeculation := by
  simp [control, Body.isLock, Body.isLifecycleReset, Body.isRetire, reconciled,
    Body.isReconciliation]

theorem control_reset (a : MatcherAdapter) (scope : Scope) (reason : Nat) :
    control true scope (.reset reason) a =
      let b :=
        if (Body.reset reason).isLifecycleReset then
          (a.awaitLifecycleReconciliation scope (.reset reason)).1
        else a
      if (b.reconciled scope (.reset reason)).2 then
        (b.reconciled scope (.reset reason)).1
      else
        (b.reconciled scope (.reset reason)).1.invalidateSpeculation := by
  simp [control, Body.isLock, Body.isRetire]

variable {a : MatcherAdapter} {body : Body}

/- Any other control only drops speculation. -/
theorem control_other (hLock : body.isLock = false) (hReset : ∀ reason, body ≠ .reset reason) :
    control true scope body a = if body.isRetire then
        a.invalidateSpeculation.retireDevice scope.generation
      else a.invalidateSpeculation := by
  cases body with
  | reset reason => exact absurd rfl (hReset reason)
  | lock state reason => cases hLock
  | _ => simp [control, Body.isLock, Body.isLifecycleReset, Body.isRetire,
    reconciled, Body.isReconciliation]

/- A lifecycle reset of a healthy session disables it. -/
theorem lifecycleReset_disabled
    (hPrevious : a.transactions.replacementDisabled = false → a.transactions.previousRecoveryNonce =
          some scope.nonce) (hBody : body.isLifecycleReset = true) (hGlobal : scope.generation = 0) :
    (a.awaitLifecycleReconciliation scope
      body).1.invalidateSpeculation.transactions.replacementDisabled = true := by
  unfold awaitLifecycleReconciliation
  split_ifs with hRefused
  · simp only [invalidateSpeculation, Bool.or_eq_true]
    by_contra hOpen
    push Not at hOpen
    have hEnabled : a.transactions.replacementDisabled = false := by simpa using hOpen.1
    simp [hBody, hGlobal, hOpen, hPrevious hEnabled] at hRefused
  · rfl

theorem control_reset_reacts (reason : Nat)
    (hPrevious : a.transactions.replacementDisabled = false → a.transactions.previousRecoveryNonce =
          some scope.nonce) :
    Reacts a scope (.reset reason) (control true scope (.reset reason) a) := by
  rw [control_reset]
  by_cases hLifecycle : (Body.reset reason).isLifecycleReset = true
  · -- Reset(2) and Reset(3) are no native proof.
    have hProof : (Body.reset reason).isReconciliation = false := by
      simp only [Body.isLifecycleReset, Bool.or_eq_true, beq_iff_eq] at hLifecycle
      simp only [Body.isReconciliation, beq_eq_false_iff_ne]
      omega
    simp only [hLifecycle, if_true, reconciled, hProof, Bool.false_eq_true,
      not_false_eq_true, true_or, if_false]
    by_cases hGlobal : scope.generation = 0
    · have hArms := step_keeps
          (a := a) (.awaitLifecycleReconciliation scope (.reset reason)) rfl rfl
      exact .disabled (hArms.trans invalidateSpeculation_keeps)
        (lifecycleReset_disabled hPrevious hLifecycle hGlobal)
    · have hSame : a.awaitLifecycleReconciliation scope (.reset reason) = (a, false) := by
        simp [awaitLifecycleReconciliation, hGlobal]
      rw [hSame]
      exact .steady invalidateSpeculation_keeps
        invalidateSpeculation_steady (by simp) (fun _ => hGlobal)
  · simp only [hLifecycle, if_false, Bool.false_eq_true]
    rcases a.reconciled_cases scope (.reset reason) with hRefused | ⟨hNonce, hAccepted⟩
    · rw [hRefused]
      exact .steady invalidateSpeculation_keeps
        invalidateSpeculation_steady (by simp)
        (fun hBody => absurd hBody hLifecycle)
    · have hTrue := congrArg Prod.snd hAccepted
      rw [hAccepted]
      exact .renewed hNonce hTrue

theorem control_reacts
    (hPrevious : a.transactions.replacementDisabled = false → a.transactions.previousRecoveryNonce =
          some scope.nonce) : Reacts a scope body (control true scope body a) := by
  by_cases hReset : ∃ reason, body = .reset reason
  · rcases hReset with ⟨reason, rfl⟩
    exact control_reset_reacts reason hPrevious
  · push Not at hReset
    cases hLock : body.isLock with
    | true =>
      cases body with
      | lock state reason =>
        rw [control_lock]
        refine .disabled ((step_keeps (.observeLockBoundary _) rfl rfl).trans
            invalidateSpeculation_keeps)
          ?_
        simp [invalidateSpeculation, observeLockBoundary_disabled]
      | _ => cases hLock
    | false =>
      rw [control_other hLock hReset]
      refine .steady ?_ ?_ ?_ ?_
      · split_ifs
        · exact invalidateSpeculation_keeps.trans
            (step_keeps (.retireDevice _) rfl rfl)
        · exact invalidateSpeculation_keeps
      · split_ifs
        · exact invalidateSpeculation_steady.trans
            (step_steady (.retireDevice _) rfl rfl rfl (by simp))
        · exact invalidateSpeculation_steady
      · rintro state reason rfl
        cases hLock
      · intro hLifecycle
        cases body with
        | reset reason => exact absurd rfl (hReset reason)
        | _ => cases hLifecycle

theorem observeUnlockedEpoch_reacts (a : MatcherAdapter) (reason : Nat) :
    Reacts a scope (.lock 0 reason) (a.observeUnlockedEpoch scope.nonce) := by
  have hKeeps := step_keeps (a := a) (.observeUnlockedEpoch scope.nonce) rfl rfl
  unfold observeUnlockedEpoch at hKeeps ⊢
  split_ifs at hKeeps ⊢
  · exact .steady hKeeps ⟨rfl, rfl, id⟩ (by rintro _ _ ⟨⟩; rfl)
      (by simp [Body.isLifecycleReset])
  · exact .disabled hKeeps (observeLockBoundary_disabled _)

theorem reset_matching (scope : Scope) (body : Body) :
    (h.reset scope body).matching.hyprland = control h.matching.hyprlandDownOnly scope body
          h.matching.hyprland ∧
      (h.reset scope body).matching.hyprlandDownOnly = h.matching.hyprlandDownOnly := by
  unfold reset awaitHealth
  split_ifs <;> exact ⟨rfl, rfl⟩

theorem notify_reacts {packet : Packet} {unlocked : Bool}
    (hDownOnly : h.matching.hyprlandDownOnly = true)
    (hUnlocked : unlocked = true → ∃ reason, packet.body = .lock 0 reason)
    (hPrevious : h.matching.hyprland.transactions.replacementDisabled = false →
        h.matching.hyprland.transactions.previousRecoveryNonce = some packet.scope.nonce) :
    let next := (Bridge.notify h unlocked packet).matching
    Reacts h.matching.hyprland packet.scope packet.body next.hyprland ∧
      next.hyprlandDownOnly = true := by
  cases unlocked with
  | true =>
    rcases hUnlocked rfl with ⟨reason, hBody⟩
    have hNext : Bridge.notify h true packet = h.onMatching
        (·.observeUnlockedEpoch packet.scope.nonce) := by
      simp [Bridge.notify, EventHandler.unlockedEpoch, unlockedEpoch, hDownOnly]
    rw [hNext, hBody]
    exact ⟨observeUnlockedEpoch_reacts _ reason, hDownOnly⟩
  | false =>
    have hNext : Bridge.notify h false packet = h.reset packet.scope packet.body := rfl
    rcases reset_matching (h := h) packet.scope packet.body with ⟨hControl, hSame⟩
    dsimp only
    rw [hNext, hControl, hSame, hDownOnly]
    exact ⟨control_reacts hPrevious, rfl⟩

end Handler

-----
-- The Gate

namespace Installed

abbrev adapter (l : Installed) : MatcherAdapter := l.handler.matching.hyprland

/- An enabled matcher has an undisturbed proof. -/
def Vouched (a : MatcherAdapter) (nonce : Nat) (history : List Entry) : Prop :=
  a.transactions.replacementDisabled = false → a.transactions.previousRecoveryNonce = some nonce ∧
      Reconciled nonce history

/- Where the outstanding proposal comes from. -/
structure Outstanding (l : Installed) (p : Pending) : Prop where
  nonce : p.scope.nonce = l.session.bridge.nonce
  sequence : p.scope.sequence ≤ l.session.bridge.sequence
  down : l.adapter.modifierTapRelease = false → p.state = 1

/- The entry put this event to the handler. -/
def Proposes (packet : Packet) (event : Event) (e : Entry) : Prop :=
  e.op = .act .propose ∧ ∃ research, e.pre.phase = .proposing packet event research

/-
  The event was put to the handler while a proof stood, and only other threads have acted
  since.
-/
def Decided (packet : Packet) (event : Event) (history : List Entry) : Prop :=
  Since (Reconciled packet.scope.nonce) (Proposes packet event)
    (fun e => e.op.isOutside = true) history

/- A proposal of this scope is a proposal of this event. -/
def Own (l : Installed) (packet : Packet) (event : Event) : Prop :=
  ∀ p, l.transactions.pending = some p → p.scope = packet.scope → p.state = event.state

/- What each phase of a call can rely on. -/
def Standing (l : Installed) (history : List Entry) : Prop :=
  match l.phase with
  | .proposing packet _ _ =>
    packet.scope.nonce = l.session.bridge.nonce ∧
      packet.scope.sequence = l.session.bridge.sequence ∧
      ∀ p, l.transactions.pending = some p → p.scope ≠ packet.scope
  | .sending packet event decision =>
    Own l packet event ∧ (decision ≠ .pass → Decided packet event history)
  | .acknowledging packet event _ => Own l packet event
  | .delivering packet event _ _ => Own l packet event
  | .notifying packet unlocked =>
    packet.scope.nonce = l.session.bridge.nonce ∧ (unlocked = true →
        ∃ reason, packet.body = .lock 0 reason)
  | _ => True

structure Guarded (l : Installed) (history : List Entry) : Prop where
  downOnly : l.handler.matching.hyprlandDownOnly = true
  idle : l.phase = .idle ∨ l.session.matcherBound = true
  vouched : l.session.matcherBound = true → Vouched l.adapter l.session.bridge.nonce history
  outstanding : l.session.matcherBound = true →
      ∀ p, l.transactions.pending = some p → Outstanding l p
  standing : Standing l history

variable {l l' : Installed}

theorem Starts.guarded (hStarts : Starts l) : Guarded l [] where
  downOnly := hStarts.downOnly
  idle := .inl hStarts.idle
  vouched := fun hBound => by
    rw [hStarts.unbound] at hBound
    cases hBound
  outstanding := fun hBound => by
    rw [hStarts.unbound] at hBound
    cases hBound
  standing := by
    unfold Standing
    rw [hStarts.idle]
    trivial

variable {a b : MatcherAdapter} {nonce : Nat} {history : List Entry} {e : Entry}

/- A call in progress was made on a bound session. -/
theorem Guarded.bound (hGuarded : Guarded l history) (hBusy : l.phase ≠ .idle) :
    l.session.matcherBound = true :=
  hGuarded.idle.resolve_left hBusy

theorem Vouched.of_disabled (hDisabled : a.transactions.replacementDisabled = true) :
    Vouched a nonce history := by
  intro hEnabled
  rw [hDisabled] at hEnabled
  cases hEnabled

/- A proof stands while nothing takes it back. -/
theorem Vouched.keep (hVouched : Vouched a nonce history) (hSteady : Steady a b)
    (hQuiet : b.transactions.replacementDisabled = false → quiet e = true) :
    Vouched b nonce (history ++ [e]) := by
  intro hEnabled
  have hBefore : a.transactions.replacementDisabled = false := by
    by_contra hDisabled
    rw [hSteady.disabled (by simpa using hDisabled)] at hEnabled
    cases hEnabled
  rcases hVouched hBefore with ⟨hPrevious, hReconciled⟩
  exact ⟨hSteady.previous.trans hPrevious, hReconciled.keep (hQuiet hEnabled)⟩

/- A proof stands from the moment it is accepted. -/
theorem Vouched.renew (hNonce : a.transactions.recoveryNonce = some nonce)
    (hReconciles : reconciles nonce e = true) :
    Vouched a.renew nonce (history ++ [e]) := fun _ =>
  ⟨hNonce, Since.now trivial hReconciles⟩

theorem Outstanding.keep {p : Pending} (hOutstanding : Outstanding l p)
    (hNonce : l'.session.bridge.nonce = l.session.bridge.nonce)
    (hSequence : l.session.bridge.sequence ≤ l'.session.bridge.sequence)
    (hTap : l'.adapter.modifierTapRelease = l.adapter.modifierTapRelease) : Outstanding l' p where
  nonce := hOutstanding.nonce.trans hNonce.symm
  sequence := hOutstanding.sequence.trans hSequence
  down := fun hTapless =>
    hOutstanding.down (hTap.symm.trans hTapless)

theorem Own.keep {packet : Packet} {event : Event} (hOwn : Own l packet event)
    (hKeeps : Keeps l.adapter l'.adapter) :
    Own l' packet event := fun p hPending =>
  hOwn p (hKeeps.pending p hPending)

/- Other threads leave a call where it stands. -/
theorem Standing.keep (hStanding : Standing l history) (hSession : l'.session = l.session)
    (hPhase : l'.phase = l.phase) (hKeeps : Keeps l.adapter l'.adapter)
    (hOutside : e.op.isOutside = true) : Standing l' (history ++ [e]) := by
  unfold Standing at hStanding ⊢
  rw [hPhase, hSession]
  cases hCase : l.phase with
  | idle | failing error => trivial
  | notifying packet unlocked =>
    rw [hCase] at hStanding
    exact hStanding
  | acknowledging packet event decision | delivering packet event decision result =>
    rw [hCase] at hStanding
    exact hStanding.keep hKeeps
  | proposing packet event research =>
    rw [hCase] at hStanding
    exact ⟨hStanding.1, hStanding.2.1, fun p hPending =>
        hStanding.2.2 p (hKeeps.pending p hPending)⟩
  | sending packet event decision =>
    rw [hCase] at hStanding
    exact ⟨hStanding.1.keep hKeeps, fun hDecision =>
        (hStanding.2 hDecision).keep hOutside⟩

/- A step that neither proposes nor takes the proof back. -/
theorem Guarded.next (hGuarded : Guarded l history)
    (hDownOnly : l'.handler.matching.hyprlandDownOnly = true)
    (hIdle : l'.phase = .idle ∨ l'.session.matcherBound = true)
    (hBound : l'.session.matcherBound = true → l.session.matcherBound = true)
    (hNonce : l'.session.bridge.nonce = l.session.bridge.nonce)
    (hSequence : l.session.bridge.sequence ≤ l'.session.bridge.sequence)
    (hSteady : Steady l.adapter l'.adapter)
    (hKeeps : Keeps l.adapter l'.adapter)
    (hQuiet : l'.transactions.replacementDisabled = false → quiet e = true)
    (hStanding : Standing l' (history ++ [e])) : Guarded l' (history ++ [e]) where
  downOnly := hDownOnly
  idle := hIdle
  vouched := by
    intro hAfter
    rw [hNonce]
    exact (hGuarded.vouched (hBound hAfter)).keep hSteady hQuiet
  outstanding := by
    intro hAfter p hPending
    exact (hGuarded.outstanding (hBound hAfter) p (hKeeps.pending p hPending)).keep
      hNonce hSequence hKeeps.tap
  standing := hStanding

-----
-- Steps

variable {out : Session.Returned}

theorem poll_guarded (hGuarded : Guarded l history) (env : Surroundings) :
    let next := l.session.poll env
    Guarded ⟨next.1, next.2.1, l.handler⟩ (history ++ [⟨l, .act (.poll env), next.2.2⟩]) := by
  have hPolled := Session.poll_polled l.session env
  dsimp only
  generalize l.session.poll env = next at hPolled ⊢
  rcases next with ⟨s, phase, returned⟩
  cases hPolled with
  | returned result =>
    exact hGuarded.next hGuarded.downOnly (.inl rfl) id rfl le_rfl (.refl _) (.refl _)
      (fun _ => rfl) trivial
  | failing error bridge hBound hNonce hSequence =>
    exact hGuarded.next hGuarded.downOnly (.inr hBound) id hNonce hSequence (.refl _) (.refl _)
      (fun _ => rfl) trivial
  | @proposing packet event hBound hScope hBody =>
    refine hGuarded.next hGuarded.downOnly (.inr hBound) id rfl hScope.sequence.le (.refl _)
      (.refl _) (fun _ => rfl) ⟨hScope.nonce, rfl, ?_⟩
    intro p hPending hSame
    have hOld := (hGuarded.outstanding hBound p hPending).sequence
    have hNew := hScope.sequence
    rw [hSame] at hOld
    omega
  | @notifying packet bridge hBound hScope hControls =>
    have hNonce : bridge.nonce = l.session.bridge.nonce := hControls.nonce
    refine hGuarded.next hGuarded.downOnly (.inr hBound) id hNonce (hScope.sequence.le.trans_eq
        hControls.sequence.symm)
      (.refl _) (.refl _) (fun _ => rfl) ⟨hScope.nonce.trans hNonce.symm, ?_⟩
    intro hUnlocked
    simp only [Bridge.unlockedLock, Bool.and_eq_true] at hUnlocked
    split at hUnlocked
    · rename_i reason hBody
      exact ⟨reason, hBody⟩
    · simp at hUnlocked

variable {event : Event} {decision : Decision} {packet : Packet}

theorem filter_ne_pass (hDecision : DownOnly.filter event decision ≠ .pass) : decision ≠ .pass := by
  rintro rfl
  apply hDecision
  unfold DownOnly.filter
  split_ifs <;> rfl

theorem propose_guarded {research : Bool} (hGuarded : Guarded l history)
    (hPhase : l.phase = .proposing packet event research) :
    let next := l.session.propose l.handler packet event research
    Guarded ⟨l.session, .sending packet event next.2, next.1⟩
      (history ++ [⟨l, .act .propose, none⟩]) := by
  have hBound := hGuarded.bound (by simp [hPhase])
  have hStanding := hGuarded.standing
  unfold Standing at hStanding
  rw [hPhase] at hStanding
  rcases hStanding with ⟨hNonce, hSequence, hOther⟩
  have hVouched := hGuarded.vouched hBound
  have hBefore := hGuarded.outstanding hBound
  dsimp only
  rcases l.session.propose_cases l.handler packet event research with hPass | hAsked
  · rw [hPass]
    refine hGuarded.next hGuarded.downOnly (.inr hBound) id rfl le_rfl (.refl _) (.refl _)
      (fun _ => rfl) ⟨?_, ?_⟩
    · exact fun p hPending hSame =>
        absurd hSame (hOther p hPending)
    · exact fun hDecision => absurd rfl hDecision
  · rw [hAsked]
    have hProposes := Handler.propose_proposes l.handler packet.scope event
    refine ⟨hProposes.downOnly.trans hGuarded.downOnly,
      .inr hBound, fun _ => ?_, fun _ p hPending => ?_,
      ?_, ?_⟩
    · exact hVouched.keep hProposes.steady (fun _ => rfl)
    · rcases hProposes.pending hPending with hOld | ⟨hScope, hState, hEvent⟩
      · exact (hBefore p hOld).keep rfl le_rfl hProposes.tap
      · refine ⟨hScope ▸ hNonce, hScope ▸ hSequence.le, ?_⟩
        intro hTap
        rw [hState]
        rcases hEvent with hDown | ⟨_, hMode⟩
        · exact hDown
        · rw [← hProposes.tap, show (l.handler.propose packet.scope
            event).1.matching.hyprland.modifierTapRelease = false from hTap] at hMode
          cases hMode
    · intro p hPending hSame
      rcases hProposes.pending hPending with hOld | ⟨_, hState, _⟩
      · exact absurd hSame (hOther p hOld)
      · exact hState
    · intro hDecision
      have hEnabled := hProposes.enabled (filter_ne_pass hDecision)
      refine .now ?_ ⟨rfl, research, hPhase⟩
      rw [hNonce]
      exact (hVouched hEnabled).2

theorem send_guarded {phase : Session.Phase} (hGuarded : Guarded l history)
    (sent : Except IoError Unit) (hPhase : l.phase = .sending packet event decision)
    (hNext : Session.Phase.Settling packet event decision phase) :
    Guarded { l with phase := phase } (history ++ [⟨l, .act (.send sent), none⟩]) := by
  have hBound := hGuarded.bound (by simp [hPhase])
  have hStanding := hGuarded.standing
  unfold Standing at hStanding
  rw [hPhase] at hStanding
  refine hGuarded.next hGuarded.downOnly (.inr hBound) id rfl le_rfl (.refl _) (.refl _)
    (fun _ => rfl) ?_
  cases hNext with
  | acknowledging | delivering result => exact hStanding.1
  | failing error => trivial

theorem acknowledge_guarded (hGuarded : Guarded l history) (received : Except IoError Packet)
    (hPhase : l.phase = .acknowledging packet event decision) :
    Guarded
      { l with
        phase := .delivering packet event decision (Bridge.acknowledgement packet event decision
              received) }
      (history ++ [⟨l, .act (.acknowledge received), none⟩]) := by
  have hBound := hGuarded.bound (by simp [hPhase])
  have hStanding := hGuarded.standing
  unfold Standing at hStanding
  rw [hPhase] at hStanding
  exact hGuarded.next hGuarded.downOnly (.inr hBound) id rfl le_rfl (.refl _) (.refl _)
    (fun _ => rfl) hStanding

/- A lost delivery leaves the matcher disabled. -/
theorem deliver_quiet {result : Except IoError Outcome} (hGuarded : Guarded l history)
    (hPhase : l.phase = .delivering packet event decision result)
    (hEnabled : (l.handler.delivery packet.scope event
        (Bridge.reportOf result)).matching.hyprland.transactions.replacementDisabled = false) :
    quiet ⟨l, .act .deliver, out⟩ = true := by
  have hBound := hGuarded.bound (by simp [hPhase])
  have hOwn : Own l packet event := by
    have hStanding := hGuarded.standing
    unfold Standing at hStanding
    rwa [hPhase] at hStanding
  have hKept : losesDelivery ⟨l, .act .deliver, out⟩ = false := by
    by_contra hLost
    simp only [losesDelivery, hPhase, Bool.not_eq_false, Option.any_eq_true, Bool.and_eq_true,
      beq_iff_eq] at hLost
    rcases hLost with ⟨p, hPending, hScope, hReading⟩
    have hState := hOwn p hPending hScope
    have hDown := (hGuarded.outstanding hBound p hPending).down
    unfold Handler.delivery at hEnabled
    split_ifs at hEnabled with hAsked
    · have hDisabled := onDelivery_uncertain hPending hScope hReading
      exact Bool.false_ne_true (hEnabled.symm.trans hDisabled)
    · push Not at hAsked
      rw [hState] at hDown
      exact hAsked.1 (hDown (by simpa using hAsked.2))
  simp [quiet, hKept, locks, resetsLifecycle, notified?, reloadsPending, disconnects]

theorem deliver_guarded {result : Except IoError Outcome} (hGuarded : Guarded l history) (hPhase :
      l.phase = .delivering packet event decision result) :
    let next :=
      Session.deliver l.handler packet event decision result
    Guarded ⟨l.session, next.2.1, next.1⟩ (history ++ [⟨l, .act .deliver, next.2.2⟩]) := by
  have hHandler : (Session.deliver l.handler packet event decision result).1 =
      l.handler.delivery packet.scope event (Bridge.reportOf result) := by
    unfold Session.deliver
    split <;> rfl
  dsimp only
  rw [hHandler]
  refine hGuarded.next ((l.handler.delivery_downOnly _ _ _).trans hGuarded.downOnly)
    (.inr (hGuarded.bound (by simp [hPhase]))) id rfl le_rfl (l.handler.delivery_steady _ _ _)
    (l.handler.delivery_keeps _ _ _) (deliver_quiet hGuarded hPhase) ?_
  unfold Session.deliver
  split <;> trivial

/- What a notification leaves of the proof. -/
theorem notify_vouched {unlocked : Bool} {b : MatcherAdapter}
    (hPhase : l.phase = .notifying packet unlocked)
    (hVouched : Vouched l.adapter packet.scope.nonce history)
    (hReacts : Handler.Reacts l.adapter packet.scope packet.body b) :
    Vouched b packet.scope.nonce (history ++ [⟨l, .act .notify, out⟩]) := by
  have hNotified : notified? ⟨l, .act .notify, out⟩ = some packet := by simp [notified?, hPhase]
  cases hReacts with
  | disabled _ hDisabled => exact .of_disabled hDisabled
  | steady _ hSteady hLock hLifecycle =>
    refine hVouched.keep hSteady (fun _ => ?_)
    have hLocks : locks ⟨l, .act .notify, out⟩ = false := by
      simp only [locks, hNotified, Option.any_some]
      split
      · rename_i state reason hBody
        simp [hLock state reason hBody]
      · rfl
    have hResets : resetsLifecycle ⟨l, .act .notify, out⟩ = false := by
      simp only [resetsLifecycle, hNotified, Option.any_some, Bool.and_eq_false_imp,
        beq_eq_false_iff_ne]
      exact hLifecycle
    simp [quiet, hLocks, hResets, losesDelivery, reloadsPending, disconnects]
  | renewed hRecovery hReconciled =>
    refine .renew hRecovery ?_
    simp [reconciles, hNotified, hReconciled]

theorem notify_guarded {unlocked : Bool} (hGuarded : Guarded l history)
    (hPhase : l.phase = .notifying packet unlocked) :
    Guarded ⟨l.session, .idle, Bridge.notify l.handler unlocked packet⟩ (history ++
        [⟨l, .act .notify, some (.ok true)⟩]) := by
  have hBound := hGuarded.bound (by simp [hPhase])
  have hStanding := hGuarded.standing
  unfold Standing at hStanding
  rw [hPhase] at hStanding
  rcases hStanding with ⟨hNonce, hUnlocked⟩
  have hVouched := hGuarded.vouched hBound
  rw [← hNonce] at hVouched
  rcases Handler.notify_reacts hGuarded.downOnly hUnlocked
    (fun hEnabled => (hVouched hEnabled).1) with
    ⟨hReacts, hDownOnly⟩
  have hKeeps := hReacts.keeps
  refine ⟨hDownOnly, .inl rfl, fun _ => ?_, fun _ p hPending => ?_, trivial⟩
  · dsimp only
    rw [← hNonce]
    exact notify_vouched hPhase hVouched hReacts
  · exact (hGuarded.outstanding hBound p (hKeeps.pending p hPending)).keep rfl le_rfl hKeeps.tap

/- An unbound session vouches for nothing. -/
theorem Guarded.of_unbound (hDownOnly : l.handler.matching.hyprlandDownOnly = true)
    (hIdle : l.phase = .idle) (hUnbound : l.session.matcherBound = false) : Guarded l history where
  downOnly := hDownOnly
  idle := .inl hIdle
  vouched := fun hBound => by
    rw [hUnbound] at hBound
    cases hBound
  outstanding := fun hBound => by
    rw [hUnbound] at hBound
    cases hBound
  standing := by
    unfold Standing
    rw [hIdle]
    trivial

/- A disabled matcher vouches for nothing either. -/
theorem Guarded.of_disabled (hDownOnly : l.handler.matching.hyprlandDownOnly = true)
    (hIdle : l.phase = .idle) (hDisabled : l.transactions.replacementDisabled = true)
    (hPending : l.transactions.pending = none) : Guarded l history where
  downOnly := hDownOnly
  idle := .inl hIdle
  vouched := fun _ => Vouched.of_disabled hDisabled
  outstanding := fun _ p hSome => by
    rw [hPending] at hSome
    cases hSome
  standing := by
    unfold Standing
    rw [hIdle]
    trivial

theorem advance_guarded {act : Session.Act} (hGuarded : Guarded l history)
    (hAdvanced : Session.Advanced l act l' out) : Guarded l' (history ++ [⟨l, .act act, out⟩]) := by
  cases hAdvanced with
  | polled env hPhase => exact poll_guarded hGuarded env
  | proposed hPhase => exact propose_guarded hGuarded hPhase
  | sent sent hPhase hNext => exact send_guarded hGuarded sent hPhase hNext
  | acknowledged received hPhase => exact acknowledge_guarded hGuarded received hPhase
  | delivered hPhase => exact deliver_guarded hGuarded hPhase
  | notified hPhase => exact notify_guarded hGuarded hPhase
  | failed hPhase => exact .of_disabled hGuarded.downOnly rfl rfl rfl
  | requested hPhase => exact .of_unbound hGuarded.downOnly rfl rfl
  | reconnected transport greeting hPhase =>
    rcases l.session.reconnect_cases transport greeting with ⟨_, hUnbound⟩ | ⟨error, hRefused⟩
    · exact .of_unbound hGuarded.downOnly rfl hUnbound
    · rw [hRefused]
      exact hGuarded.next hGuarded.downOnly (.inl rfl) id rfl le_rfl (.refl _) (.refl _)
        (fun _ => rfl) trivial

theorem bind_guarded (hGuarded : Guarded l history) {e : Entry} :
    let next := l.handler.bindMatcher l.session
    Guarded ⟨next.1, .idle, next.2.1⟩ (history ++ [e]) := by
  dsimp only
  unfold Handler.bindMatcher awaitReconciliation
  split_ifs with hRefused
  · exact .of_unbound hGuarded.downOnly rfl rfl
  · exact .of_disabled hGuarded.downOnly rfl rfl rfl

/- A reload of an outstanding proposal disables it. -/
theorem reload_guarded (hGuarded : Guarded l history) (rules : RuleSet)
    (aliases : Dict String AppAlias) :
    Guarded { l with handler := reload l.handler rules aliases }
      (history ++ [⟨l, .reload rules aliases, none⟩]) := by
  have hKeeps : Keeps l.adapter (l.adapter.invalidateSpeculation.swapRules rules) := ⟨nofun, rfl⟩
  refine hGuarded.next hGuarded.downOnly hGuarded.idle id rfl le_rfl ⟨rfl, rfl,
      invalidateSpeculation_steady.disabled⟩
    hKeeps (fun hEnabled => ?_) (hGuarded.standing.keep rfl rfl hKeeps rfl)
  have hKept : reloadsPending ⟨l, .reload rules aliases, none⟩ =
      false :=
    (Bool.or_eq_false_iff.mp hEnabled).2
  simp [quiet, hKept, locks, resetsLifecycle, notified?, losesDelivery, disconnects]

/- A step beside the call and the transactions. -/
theorem Guarded.beside (hGuarded : Guarded l history) {e : Entry} (h : Handler)
    (hAdapter : h.matching.hyprland = l.adapter) (hDownOnly : h.matching.hyprlandDownOnly = true)
    (hQuiet : quiet e = true) (hBeside : l.phase = .idle ∨ e.op.isOutside = true) :
    Guarded { l with handler := h } (history ++ [e]) := by
  have hKeeps : Keeps l.adapter h.matching.hyprland := hAdapter ▸ Keeps.refl _
  refine hGuarded.next hDownOnly hGuarded.idle id rfl le_rfl (hAdapter ▸ .refl _) hKeeps
    (fun _ => hQuiet) ?_
  rcases hBeside with hIdle | hOutside
  · unfold Standing
    simp only [hIdle]
  · exact hGuarded.standing.keep rfl rfl hKeeps hOutside

/- Whatever a step does, the gate holds after it. -/
theorem step_guarded {op : Op} (hGuarded : Guarded l history) (hStep : step l op = some (l', out)) :
    Guarded l' (history ++ [⟨l, op, out⟩]) := by
  cases op with
  | act act => exact advance_guarded hGuarded (Session.advanced_of_advance hStep)
  | bind =>
    simp only [step] at hStep
    split at hStep <;> cases hStep
    exact bind_guarded hGuarded
  | observe =>
    simp only [step] at hStep
    split at hStep <;> cases hStep
    rename_i hPhase
    exact hGuarded.beside _ rfl hGuarded.downOnly rfl (.inl hPhase)
  | reload rules aliases =>
    cases hStep
    exact reload_guarded hGuarded rules aliases
  | circumstances circumstances =>
    cases hStep
    exact hGuarded.beside _ rfl hGuarded.downOnly rfl (.inr rfl)

theorem run_guarded {start : Installed} (hStarts : Starts start)
    (hRun : Run step start history l) : Guarded l history := by
  induction hRun with
  | nil => exact hStarts.guarded
  | snoc _ hLast ih => exact step_guarded ih hLast

-----
-- Admission

/- The decision an entry sends, and what it is about. -/
def sends? (e : Entry) : Option (Packet × Event × Decision) :=
  match e.op, e.pre.phase with
  | .act (.send _), .sending packet event decision => some (packet, event, decision)
  | _, _ => none

/-
  A decision other than Pass was made under a proof of its own nonce that nothing had
  taken back, and was sent before the session did anything else.  Reloads by other threads
  can come in between.
-/
theorem admission {start last : Installed} {history : List Entry} (hStarts : Starts start)
    (hRun : Run step start history last) :
    ∀ front e rest, history = front ++ e :: rest → ∀ packet event decision,
        sends? e = some (packet, event, decision) →
        decision ≠ .pass →
        Decided packet event front := by
  rintro front e rest rfl packet event decision hSends hDecision
  rcases hRun.split with ⟨mid, hFront, hTail⟩
  obtain rfl := hTail.cons_inv.1
  have hStanding := (run_guarded hStarts hFront).standing
  unfold sends? at hSends
  split at hSends
  · rename_i hPhase
    cases hSends
    unfold Standing at hStanding
    rw [hPhase] at hStanding
    exact hStanding.2 hDecision
  · cases hSends

/- A session with Option-K rules that is not bound yet. -/
def installedOptionK : Installed where
  session := .admitted (.fresh 5) Bridge.peerIdentity 1
  phase := .idle
  handler :=
    { matching := (MatchingState.new Matcher.optionK ∅).installed 1
      observationGap := false
      circumstances := ⟨true, 0, fun _ => false⟩ }

theorem installedOptionK_starts : Starts installedOptionK := ⟨rfl, rfl, rfl⟩

/- The proof is accepted and Option-K is put to the matcher. -/
def proposingOptionK : List Op :=
  [Op.bind, Op.act (.poll (.reading ⟨⟨0, 0, 1, 9, 5⟩, .reset 8⟩)), Op.act .notify, Op.act (.poll
        (.reading ⟨⟨1, 0, 2, 9, 5⟩, .event optionKPressed⟩)),
    Op.act .propose]

/- A reload comes between the decision and its sending. -/
def overtakenOptionK : List Op :=
  proposingOptionK ++ [Op.reload Matcher.optionK ∅, Op.act (.send (.ok ()))]

theorem admission_optionK :
    let entries :=
      entriesOf step installedOptionK overtakenOptionK
    entries.map sends? = [none, none, none, none, none, none, some (⟨⟨1, 0, 2, 9, 5⟩,
                .event optionKPressed⟩,
              optionKPressed,
              .replace 20 16)] ∧
      ∀ front e rest, entries = front ++ e :: rest → ∀ packet event decision,
          sends? e = some (packet, event, decision) →
          decision ≠ .pass →
          Decided packet event front :=
  ⟨by decide +kernel,
    admission installedOptionK_starts (Run.of_isSome (by decide +kernel))⟩

/- The last entry alone can take a proof back. -/
theorem not_reconciled_of_last {nonce : Nat} {history : List Entry}
    (hLast : history.getLast?.any (fun e => !quiet e && !reconciles nonce e) = true) :
    ¬ Reconciled nonce history := by
  rcases List.eq_nil_or_concat history with rfl | ⟨front, e, rfl⟩
  · exact not_since_nil
  · simp only [List.concat_eq_append, List.getLast?_concat, Option.any_some, Bool.and_eq_true,
      Bool.not_eq_true'] at hLast
    rw [List.concat_eq_append]
    intro hReconciled
    rcases since_snoc.mp hReconciled with ⟨_, hMark⟩ | ⟨_, hQuiet⟩
    · rw [hLast.2] at hMark
      cases hMark
    · rw [hLast.1] at hQuiet
      cases hQuiet

/-
  The proof itself need not stand any more when the decision is sent: the reload has given
  up the outstanding proposal.
-/
theorem reload_overtakes :
    let entries :=
      entriesOf step installedOptionK overtakenOptionK
    Starts installedOptionK ∧ Run step installedOptionK entries
        (lastOf step installedOptionK overtakenOptionK) ∧
      (entries.map sends?).getLast? = some (some (⟨⟨1, 0, 2, 9, 5⟩,
                .event optionKPressed⟩,
              optionKPressed,
              .replace 20 16)) ∧
      ¬ Reconciled 5 entries.dropLast := by
  refine ⟨installedOptionK_starts, .of_isSome (by decide +kernel),
    by decide +kernel,
    not_reconciled_of_last (by decide +kernel)⟩

end Installed

end Sledge.Daemon.Linux
