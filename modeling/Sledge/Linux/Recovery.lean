import Sledge.Core.Delivery
import Sledge.Lib.History
import Sledge.Linux.Transactions

/-
  Recovery authority and hold preservation of the matcher
  transactions.

  Every operation acts on the matcher through the matcher's
  own operations, so what it does to a press is read off the
  record of that press.  The armed nonce is a summary of the
  history: the latest arming that no disconnection and no
  proof has used up.

  Main results:
    * `MatcherAdapter.step_calls`
    * `MatcherAdapter.run_armed`
    * `MatcherAdapter.step_drops`
    * `MatcherAdapter.recovery_and_holds`
-/

-----
-- Calls On The Matcher

namespace Sledge.Linux

open Core Transition

namespace MatcherAdapter

/- The operations an operation may perform on the matcher. -/
inductive Calls (a : MatcherAdapter) : Op → Out → Matcher.Op → Prop where
  | taps (op : Op) (out : Out) : Calls a op out .disqualifyTaps
  | speculation (op : Op) (out : Out) : Calls a op out .invalidateSpeculation
  | rules (rules : RuleSet) : Calls a (.swapRules rules) .done (.swapRules rules)
  | dispatched {scope : Scope} {event : Event} {focusedApp : Option String} {now : Instant}
      {admitSource : String → Bool}
      {decision : Decision}
      {code : KeyCode}
      (hOpen : a.Open)
      (hAsked : a.Asked event)
      (hCode : codeOf event.key = some code) :
      Calls a (.propose scope event focusedApp now admitSource) (.decision (.ok decision))
        (.dispatchWithDelivery ⟨scope.generation⟩ (normalize code event) focusedApp now)
  | reported {scope : Scope} {report : DeliveryReport} {pending : Pending} (settled : Bool)
      (hPending : a.transactions.pending = some pending)
      (hScope : pending.scope = scope) :
      Calls a (.onDelivery scope report) (.flag settled)
        (.report pending.token (pending.reading report))
  | settled {scope : Scope} {event : Event} {outcome : Outcome} {code : KeyCode}
      (hState : event.state ≠ 1)
      (hGlobal : scope.generation ≠ 0)
      (hCode : codeOf event.key = some code) :
      Calls a (.settleDeviceEvent scope event (.acknowledged outcome)) (.flag true)
        (.settle ⟨scope.generation⟩ (normalize code event))
  | reset {scope : Scope} {body : Body} (hBody : body.isReconciliation = true)
      (hGlobal : scope.generation = 0)
      (hNonce : a.transactions.recoveryNonce = some scope.nonce) :
      Calls a (.reconciled scope body) (.flag true) .reset
  | retired {generation : Nat} (hGlobal : generation ≠ 0) : Calls a (.retireDevice generation) .done
        (.resetDevice ⟨generation⟩)

/- The matcher moved by operations `op` may perform. -/
def Drives (a b : MatcherAdapter) (op : Op) (out : Out) : Prop :=
  ∃ trace, Run Matcher.step a.matcher trace b.matcher ∧ ∀ e ∈ trace, Calls a op out e.op

variable {a b : MatcherAdapter} {op : Op} {out : Out}

theorem Drives.idle (hSame : b.matcher = a.matcher) : Drives a b op out :=
  ⟨[], Run.nil_iff.mpr hSame, by simp⟩

/- One operation on the matcher. -/
theorem Drives.one (call : Matcher.Op) {answer : Matcher.Out}
    (hStep : a.matcher.step call = some (b.matcher, answer)) (hCall : Calls a op out call) :
    Drives a b op out :=
  ⟨_, Run.single hStep, by simpa using hCall⟩

theorem Drives.speculate (hMatcher : b.matcher = a.matcher.invalidateSpeculation) :
    Drives a b op out :=
  Drives.one .invalidateSpeculation (by rw [hMatcher]; rfl) (Calls.speculation op out)

theorem observed_matcher (a : MatcherAdapter) (scope : Scope) (event : Event) :
    (a.observed scope event).matcher = a.matcher ∨ (a.observed scope event).matcher =
        a.matcher.disqualifyTaps := by
  unfold observed observePhysical
  split
  · dsimp only
    split
    · exact .inr rfl
    · exact .inl rfl
  · exact .inl rfl

/- The bookkeeping of an event comes before its dispatch. -/
theorem drives_of_observed {scope : Scope} {event : Event} {trace : List Matcher.Entry}
    (hRun : Run Matcher.step (a.observed scope event).matcher trace b.matcher)
    (hCalls : ∀ e ∈ trace, Calls a op out e.op) : Drives a b op out := by
  rcases a.observed_matcher scope event with hSame | hTaps
  · rw [hSame] at hRun
    exact ⟨trace, hRun, hCalls⟩
  · rw [hTaps] at hRun
    have hFirst : a.matcher.step .disqualifyTaps = some (a.matcher.disqualifyTaps, .done) := rfl
    refine ⟨_, .cons hFirst hRun, ?_⟩
    rw [List.forall_mem_cons]
    exact ⟨Calls.taps op out, hCalls⟩

/- A dispatch, and the tap bookkeeping that may follow it. -/
theorem spoiled_run {m m' : Matcher} {trace : List Matcher.Entry} (code : KeyCode) (scope : Scope)
    (event : Event) (hRun : Run Matcher.step m trace m')
    (hCalls : ∀ e ∈ trace, Calls a op out e.op) :
    ∃ trace', Run Matcher.step m trace' (a.spoiled m' code scope event) ∧
        ∀ e ∈ trace', Calls a op out e.op := by
  unfold spoiled
  split
  · have hLast : m'.step .disqualifyTaps = some (m'.disqualifyTaps, .done) := rfl
    exact ⟨_, hRun.snoc hLast, forall_mem_snoc.mpr ⟨hCalls, Calls.taps op out⟩⟩
  · exact ⟨trace, hRun, hCalls⟩

theorem propose_calls {scope : Scope} {event : Event} {focusedApp : Option String} {now : Instant}
    {admitSource : String → Bool} {result : Except IoError Decision}
    (hProposed : Proposed a scope event focusedApp now admitSource b result) :
    Drives a b (.propose scope event focusedApp now admitSource) (.decision result) := by
  cases hProposed with
  | refused hClosed | skipped hOpen hState => exact .idle rfl
  | repeated hOpen hAsked hTap hSame => exact drives_of_observed .nil (by simp)
  | unknown hOpen hAsked hChanges hCode =>
    have hStep : (a.observed scope event).matcher.step .disqualifyTaps = some ((a.observed scope
        event).matcher.disqualifyTaps, .done) := rfl
    exact drives_of_observed (.single hStep) (by simpa using Calls.taps _ _)
  | @dispatched code matcher verdict token hOpen hAsked hChanges hCode hDispatch =>
      have hStep : (a.observed scope event).matcher.step (.dispatchWithDelivery ⟨scope.generation⟩
              (normalize code event) focusedApp now) =
          some (matcher, .verdict verdict token) := by
        simp only [Matcher.step, hDispatch]
      have hCall : Calls a (.propose scope event focusedApp now admitSource) (.decision (.ok
              (decisionOf event.state admitSource verdict)))
          (.dispatchWithDelivery ⟨scope.generation⟩ (normalize code event) focusedApp now) :=
        Calls.dispatched hOpen hAsked hCode
      rcases spoiled_run code scope event (Run.single hStep) (by simpa using hCall) with
        ⟨trace, hRun, hCalls⟩
      exact drives_of_observed hRun hCalls

/- Every operation moves the matcher by its operations. -/
theorem step_calls (hStep : a.step op = some (b, out)) : Drives a b op out := by
  cases stepped_of_step hStep with
  | setModifierTapRelease enabled | refused hRefused | distrusted scope event report =>
    exact .idle rfl
  | propose hProposed => exact propose_calls hProposed
  | reported report settled hPending hScope =>
    exact .one (.report _ _) rfl (Calls.reported settled hPending hScope)
  | settled outcome hState hGlobal hCode =>
    exact .one (.settle _ _) rfl (Calls.settled hState hGlobal hCode)
  | armed op nonce hOp | observed op hOp | disconnected op hOp | invalidateSpeculation =>
    exact .speculate rfl
  | reconciled scope hGlobal hNonce => exact .one .reset rfl (Calls.reset rfl hGlobal hNonce)
  | retired hGlobal hLost => exact .one (.resetDevice _) rfl (Calls.retired hGlobal)
  | swapRules rules => exact .one (.swapRules rules) rfl (Calls.rules rules)

-----
-- The Armed Nonce

/- The nonce an entry armed. -/
def armed? (e : Entry) : Option Nat := if e.out.succeeded then e.op.nonce? else none

/- The entry was a proof that was accepted. -/
def proves (e : Entry) : Bool :=
  match e.op with
  | .reconciled _ _ => e.out.succeeded
  | _ => false

/- The recovery state stays, or gets more careful. -/
structure Steady (a b : MatcherAdapter) : Prop where
  recovery : b.transactions.recoveryNonce = a.transactions.recoveryNonce
  previous : b.transactions.previousRecoveryNonce = a.transactions.previousRecoveryNonce
  disabled : a.transactions.replacementDisabled = true → b.transactions.replacementDisabled = true

theorem Steady.refl (a : MatcherAdapter) : Steady a a := ⟨rfl, rfl, id⟩

theorem observed_steady (scope : Scope) (event : Event) : Steady a (a.observed scope event) := by
  rcases a.observed_transactions scope event with ⟨observation, downs, hObserved⟩
  constructor <;> simp [hObserved]

theorem propose_steady {scope : Scope} {event : Event} {focusedApp : Option String} {now : Instant}
    {admitSource : String → Bool} {result : Except IoError Decision}
    (hProposed : Proposed a scope event focusedApp now admitSource b result) : Steady a b := by
  rcases a.observed_steady scope event with ⟨hRecovery, hPrevious, hDisabled⟩
  cases hProposed with
  | refused hClosed | skipped hOpen hState => exact .refl a
  | repeated _ _ _ _ | unknown _ _ _ _ | dispatched _ _ _ _ _ =>
    exact ⟨hRecovery, hPrevious, hDisabled⟩

theorem invalidateSpeculation_steady : Steady a a.invalidateSpeculation :=
  ⟨rfl, rfl, fun hDisabled => by
    simp [invalidateSpeculation, hDisabled]⟩

/- What an entry does to the recovery state. -/
inductive Recovers (a b : MatcherAdapter) (op : Op) (out : Out) : Prop where
  | steady (hArmed : armed? ⟨a, op, out⟩ = none) (hDisconnects : a.disconnects op = false)
      (hProves : proves ⟨a, op, out⟩ = false)
      (hSteady : Steady a b)
  | armed (nonce : Nat) (hArmed : armed? ⟨a, op, out⟩ = some nonce) (hNext : b = a.arm nonce)
  | disconnected (hDisconnects : a.disconnects op = true) (hNext : b = a.disconnected)
  | proved (scope : Scope) (hOp : op = .reconciled scope (.reset 8)) (hOut : out = .flag true)
      (hGlobal : scope.generation = 0)
      (hNonce : a.transactions.recoveryNonce = some scope.nonce)
      (hNext : b = a.renew)

theorem step_recovers (hStep : a.step op = some (b, out)) : Recovers a b op out := by
  cases stepped_of_step hStep with
  | setModifierTapRelease enabled | settled outcome hState hGlobal hCode | swapRules rules =>
    exact .steady rfl rfl rfl ⟨rfl, rfl, id⟩
  | propose hProposed => exact .steady rfl rfl rfl (propose_steady hProposed)
  | refused hRefused => cases hRefused <;> exact Recovers.steady rfl rfl rfl (Steady.refl _)
  | reported report settled hPending hScope =>
    refine .steady (by simp [armed?, Op.nonce?]) rfl rfl ⟨rfl, rfl, ?_⟩
    exact fun hDisabled => by simp [reported, hDisabled]
  | distrusted scope event report => exact .steady rfl rfl rfl ⟨rfl, rfl, fun _ => rfl⟩
  | armed op nonce hOp => exact .armed nonce hOp rfl
  | reconciled scope hGlobal hNonce => exact .proved scope rfl rfl hGlobal hNonce rfl
  | retired hGlobal hLost =>
    exact .steady rfl rfl rfl ⟨rfl, rfl, fun hDisabled => by simp [hDisabled]⟩
  | observed op hOp =>
    refine .steady rfl ?_ ?_ ⟨rfl, rfl, id⟩
    · cases op <;>
        first | rfl | cases hOp | simp [disconnects, hOp]
    · cases op <;> rfl
  | disconnected op hOp => exact .disconnected hOp rfl
  | invalidateSpeculation => exact .steady rfl rfl rfl invalidateSpeculation_steady

theorem step_steady (op : Op) (hStep : a.step op = some (b, out)) (hArms : op.nonce? = none)
    (hDisconnects : a.disconnects op = false)
    (hProves : ∀ scope, op ≠ .reconciled scope (.reset 8)) : Steady a b := by
  cases step_recovers hStep with
  | steady _ _ _ hSteady => exact hSteady
  | armed nonce hArmed => simp [armed?, hArms] at hArmed
  | disconnected hLost =>
    rw [hDisconnects] at hLost
    cases hLost
  | proved scope hOp => exact absurd hOp (hProves scope)

/- No proposal appears, and the mode stays. -/
structure Keeps (a b : MatcherAdapter) : Prop where
  pending : ∀ p, b.transactions.pending = some p → a.transactions.pending = some p
  tap : b.modifierTapRelease = a.modifierTapRelease

/- Operations that propose nothing and keep the mode. -/
def Op.isPlain : Op → Bool
  | .setModifierTapRelease _ => false
  | .propose _ _ _ _ _ => false
  | _ => true

theorem step_keeps (op : Op) (hStep : a.step op = some (b, out)) (hPlain : op.isPlain = true) :
    Keeps a b := by
  cases stepped_of_step hStep with
  | setModifierTapRelease enabled | propose hProposed => cases hPlain
  | refused hRefused | distrusted scope event report | observed op hOp | swapRules rules =>
    exact ⟨fun _ => id, rfl⟩
  | reported report settled hPending hScope | armed op nonce hOp | reconciled scope hGlobal hNonce
  | disconnected op hOp | invalidateSpeculation => exact ⟨nofun, rfl⟩
  | settled outcome hState hGlobal hCode =>
    refine ⟨fun p hSome => ?_, rfl⟩
    simp only [pendingSettled, Option.ite_none_left_eq_some] at hSome
    exact hSome.2
  | retired hGlobal hLost =>
    refine ⟨fun p hSome => ?_, rfl⟩
    simp only [Option.ite_none_left_eq_some] at hSome
    exact hSome.2

/- Nothing has used up or replaced the arming since. -/
def keepsArming (e : Entry) : Prop :=
  armed? e = none ∧ e.pre.disconnects e.op = false ∧ proves e = false

/- The latest arming was of this nonce and is unused. -/
def Armed (nonce : Nat) (trace : List Entry) : Prop :=
  Since (fun _ => True) (fun e => armed? e = some nonce) keepsArming trace

/- The recovery nonce is the nonce of an unused arming. -/
theorem run_armed {matcher : Matcher} {trace : List Entry} {nonce : Nat}
    (hRun : Run step (new matcher) trace a)
    (hNonce : a.transactions.recoveryNonce = some nonce) : Armed nonce trace := by
  induction hRun with
  | nil => cases hNonce
  | snoc _ hLast ih =>
    cases step_recovers hLast with
    | steady hArmed hDisconnects hProves hSteady =>
      rw [hSteady.recovery] at hNonce
      exact (ih hNonce).keep ⟨hArmed, hDisconnects, hProves⟩
    | armed other hArmed hNext =>
      subst hNext
      obtain rfl := Option.some.inj hNonce
      exact .now trivial hArmed
    | disconnected hDisconnects hNext | proved scope hOp hOut hGlobal hBefore hNext =>
      subst hNext
      cases hNonce

/- Only an accepted proof turns replacement back on. -/
theorem step_reenables (hStep : a.step op = some (b, out))
    (hDisabled : a.transactions.replacementDisabled = true)
    (hEnabled : b.transactions.replacementDisabled = false) :
    ∃ scope, op = .reconciled scope (.reset 8) ∧ out = .flag true ∧ scope.generation = 0 ∧
        a.transactions.recoveryNonce = some scope.nonce := by
  cases step_recovers hStep with
  | steady hArmed hDisconnects hProves hSteady =>
    rw [hSteady.disabled hDisabled] at hEnabled
    cases hEnabled
  | armed nonce hArmed hNext | disconnected hDisconnects hNext =>
    subst hNext
    cases hEnabled
  | proved scope hOp hOut hGlobal hNonce hNext => exact ⟨scope, hOp, hOut, hGlobal, hNonce⟩

end MatcherAdapter

-----
-- Presses That Leave

namespace Pending

/- The report says that the original was forwarded. -/
def Forwarded (pending : Pending) (report : DeliveryReport) : Prop :=
  report.result? = some .rejectedOriginalAdmitted ∨ report.result? = some .timeoutOriginalAdmitted ∨
    (pending.decision = .pass ∧ report.result? = some .originalAdmitted)

theorem forwarded_of_reading {pending : Pending} {report : DeliveryReport}
    (hReading : pending.reading report = .rejectedOriginalForwarded) :
    pending.Forwarded report := by
  unfold reading settlement at hReading
  split_ifs at hReading with hContradicts hPass hSwallow
  · exact .inr (.inr hPass)
  · cases report with
    | uncertain => cases hReading
    | acknowledged outcome =>
      simp only [DeliveryReport.replacementDelivery] at hReading
      split at hReading
      · cases hReading
      · rename_i hResult
        exact .inl (by simp [DeliveryReport.result?, DeliveryReport.outcome?, hResult])
      · rename_i hResult
        exact .inr (.inl (by simp [DeliveryReport.result?, DeliveryReport.outcome?, hResult]))
      · cases hReading

end Pending

namespace MatcherAdapter

/- The ways in which a press can leave the swallowed ones. -/
inductive Drops (a : MatcherAdapter) (p : Press) : Op → Out → Prop where
  | reconciled (scope : Scope) (body : Body) : Drops a p (.reconciled scope body) (.flag true)
  | retired {generation : Nat} (hDevice : p.1 = ⟨generation⟩) :
      Drops a p (.retireDevice generation) .done
  | released {scope : Scope} {event : Event} (outcome : Outcome) (hUp : event.state = 0)
      (hPress : pressOf scope event.key = some p) :
      Drops a p (.settleDeviceEvent scope event (.acknowledged outcome)) (.flag true)
  | proposed {scope : Scope} {event : Event} (focusedApp : Option String) (now : Instant)
      (admitSource : String → Bool)
      (decision : Decision)
      (hTap : a.modifierTapRelease = true)
      (hUp : event.state = 0)
      (hPress : pressOf scope event.key = some p) :
      Drops a p (.propose scope event focusedApp now admitSource) (.decision (.ok decision))
  | forwarded {scope : Scope} {report : DeliveryReport} {pending : Pending} (settled : Bool)
      (hPending : a.transactions.pending = some pending)
      (hScope : pending.scope = scope)
      (hPress : pressOf scope pending.key = some p)
      (hForwarded : pending.Forwarded report) :
      Drops a p (.onDelivery scope report) (.flag settled)

/- The outstanding token belongs to the proposal's press. -/
def Bound (a : MatcherAdapter) : Prop :=
  ∀ pending, a.transactions.pending = some pending → pressOf pending.scope pending.key =
        some pending.token.press

variable {a b : MatcherAdapter} {op : Op} {out : Out}

theorem observed_pending (scope : Scope) (event : Event) :
    (a.observed scope event).transactions.pending = a.transactions.pending := by
  rcases a.observed_transactions scope event with ⟨observation, downs, hObserved⟩
  rw [hObserved]

theorem observed_coherent (hCoherent : a.matcher.Coherent) (scope : Scope) (event : Event) :
    (a.observed scope event).matcher.Coherent := by
  rcases a.observed_matcher scope event with hSame | hTaps
  · rw [hSame]
    exact hCoherent
  · have hStep : a.matcher.step .disqualifyTaps = some (a.matcher.disqualifyTaps, .done) := rfl
    rw [hTaps]
    exact Matcher.step_coherent hCoherent hStep

theorem propose_bound {scope : Scope} {event : Event} {focusedApp : Option String} {now : Instant}
    {admitSource : String → Bool} {result : Except IoError Decision}
    (hCoherent : a.matcher.Coherent) (hBound : a.Bound)
    (hProposed : Proposed a scope event focusedApp now admitSource b result) : b.Bound := by
  have hObserved : (a.observed scope event).transactions.pending =
      a.transactions.pending :=
    observed_pending scope event
  cases hProposed with
  | refused hClosed | skipped hOpen hState => exact hBound
  | repeated _ _ _ _ | unknown _ _ _ _ =>
    exact fun pending hSome => hBound pending (hObserved ▸ hSome)
  | @dispatched code matcher verdict token hOpen hAsked hChanges hCode hDispatch =>
      intro pending hPending
      cases hToken : token with
      | none =>
        rw [hToken] at hPending
        cases hPending
      | some token =>
        rw [hToken] at hPending hDispatch
        cases hPending
        have hStep : (a.observed scope event).matcher.step (.dispatchWithDelivery ⟨scope.generation⟩
                (normalize code event) focusedApp now) =
            some (matcher, .verdict verdict (some token)) := by
          simp only [Matcher.step, hDispatch]
        rcases Matcher.step_issued (observed_coherent hCoherent scope event) hStep rfl with
          ⟨_, _, _, _, issued, hEvent, hKey⟩
        simp only [Matcher.Op.event?, Option.some.injEq, Prod.mk.injEq] at hEvent
        rcases hEvent with ⟨hDevice, rfl⟩
        simp [pressOf, hCode, ReplacementToken.press, ← hDevice, ← hKey, normalize]

theorem step_bound (hCoherent : a.matcher.Coherent) (hBound : a.Bound)
    (hStep : a.step op = some (b, out)) : b.Bound := by
  cases hPlain : op.isPlain with
  | true =>
    exact fun pending hSome => hBound pending ((step_keeps op hStep hPlain).pending pending hSome)
  | false =>
    cases stepped_of_step hStep with
    | setModifierTapRelease enabled => exact hBound
    | propose hProposed => exact propose_bound hCoherent hBound hProposed
    | armed op | observed op | disconnected op => cases op <;> simp_all [Op.isPlain, Op.nonce?,
      heeds, disconnects]
    | refused hRefused => exact hBound
    | _ => cases hPlain

theorem step_coherent (hCoherent : a.matcher.Coherent) (hStep : a.step op = some (b, out)) :
    b.matcher.Coherent := by
  rcases step_calls hStep with ⟨trace, hRun, _⟩
  exact hRun.invariant hCoherent (fun _ _ _ _ hBefore hNext =>
        Matcher.step_coherent hBefore hNext)

theorem pressOf_eq_some {scope : Scope} {key : Nat} {code : KeyCode}
    (hCode : codeOf key = some code) : pressOf scope key = some (⟨scope.generation⟩, code) := by
  simp [pressOf, hCode]

theorem normalize_keyUp {code : KeyCode} {event : Event}
    (hKind : (normalize code event).kind = .keyUp) : event.state = 0 := by
  by_contra hNot
  simp [normalize, hNot] at hKind

theorem drops_of_call (hBound : a.Bound) {p : Press} {e : Matcher.Entry}
    (hCall : Calls a op out e.op) (hLeaves : e.op.ends p = true ∨ Matcher.forwards p e = true) :
    Drops a p op out := by
  rcases e with ⟨pre, call, answer⟩
  dsimp only at hCall hLeaves
  cases hCall with
  | taps op out | rules rules => simp_all [Matcher.Op.ends, Matcher.Op.kindOf, Matcher.Op.event?,
    Matcher.forwards]
  | speculation op out => simp_all [Matcher.Op.ends, Matcher.Op.kindOf, Matcher.Op.event?,
    Matcher.forwards]
  | @dispatched scope event focusedApp now admitSource decision code hOpen hAsked hCode =>
      rcases hLeaves with hEnds | hForwards
      · simp only [Matcher.Op.ends, decide_eq_true_eq, Matcher.Op.kindOf, Matcher.Op.event?,
          Option.ite_none_right_eq_some, Option.some.injEq] at hEnds
        rcases hEnds with ⟨rfl, hKind⟩
        have hUp := normalize_keyUp hKind
        have hTap : a.modifierTapRelease = true := by
          rcases hAsked with hDown | ⟨_, hTap⟩
          · omega
          · exact hTap
        exact Drops.proposed focusedApp now admitSource decision hTap hUp (pressOf_eq_some hCode)
      · simp [Matcher.forwards] at hForwards
  | @reported scope report pending settled hPending hScope =>
    rcases hLeaves with hEnds | hForwards
    · simp [Matcher.Op.ends, Matcher.Op.kindOf, Matcher.Op.event?] at hEnds
    · cases answer with
      | reported accepted =>
        simp only [Matcher.forwards, Bool.and_eq_true, decide_eq_true_eq] at hForwards
        rcases hForwards with ⟨⟨rfl, hReading⟩, _⟩
        refine Drops.forwarded settled hPending hScope ?_ (Pending.forwarded_of_reading hReading)
        rw [← hScope]
        exact hBound pending hPending
      | _ => simp [Matcher.forwards] at hForwards
  | @settled scope event outcome code hState hGlobal hCode =>
    rcases hLeaves with hEnds | hForwards
    · simp only [Matcher.Op.ends, decide_eq_true_eq] at hEnds
      rcases hEnds with ⟨rfl, hKind⟩
      exact Drops.released outcome (normalize_keyUp hKind) (pressOf_eq_some hCode)
    · simp [Matcher.forwards] at hForwards
  | reset hBody hGlobal hNonce => exact Drops.reconciled _ _
  | retired hGlobal =>
    rcases hLeaves with hEnds | hForwards
    · exact Drops.retired (by simpa [Matcher.Op.ends] using hEnds)
    · simp [Matcher.forwards] at hForwards

/- A press leaves the swallowed ones in these ways only. -/
theorem step_drops (hCoherent : a.matcher.Coherent) (hBound : a.Bound)
    (hStep : a.step op = some (b, out)) {p : Press} (hBefore : p ∈ a.matcher.swallowedDowns)
    (hAfter : p ∉ b.matcher.swallowedDowns) : Drops a p op out := by
  rcases step_calls hStep with ⟨trace, hRun, hCalls⟩
  by_contra hNever
  have hHeld : ∀ e ∈ trace, e.op.ends p = false := by
    intro e hMem
    by_contra hEnds
    exact hNever (drops_of_call hBound (hCalls e hMem) (.inl (by simpa using hEnds)))
  have hReports : trace.any (Matcher.forwards p) = false := by
    rw [List.any_eq_false]
    intro e hMem hForwards
    exact hNever (drops_of_call hBound (hCalls e hMem) (.inr hForwards))
  have hHolding := (Matcher.run_holding hCoherent hRun p).2
  rw [Matcher.mem_swallowedDowns_iff] at hBefore hAfter
  apply hAfter
  rw [← Matcher.holding_owner, hHolding, Holding.along_of_swallowed hBefore hHeld, hReports]
  rfl

-----
-- Recovery Authority

variable {matcher : Matcher} {trace : List Entry} {last : MatcherAdapter}

/- The entry turned replacement back on. -/
def reenables (e : Entry) : Bool :=
  e.pre.transactions.replacementDisabled &&
    match e.pre.step e.op with
    | some (post, _) => !post.transactions.replacementDisabled
    | none => false

namespace Op

/- Boundaries and armings; none of them ends a press. -/
def isBoundary : Op → Bool
  | .invalidateSpeculation => true
  | .disconnected => true
  | .awaitReconciliation _ => true
  | .awaitLifecycleReconciliation _ _ => true
  | .observeLockBoundary _ => true
  | .observeUnlockedEpoch _ => true
  | _ => false

end Op

theorem Drops.not_boundary {a : MatcherAdapter} {p : Press} {op : Op} {out : Out}
    (hDrop : Drops a p op out) : op.isBoundary = false := by
  cases hDrop <;> rfl

theorem run_bound (hMatcher : matcher.Reachable)
    (hRun : Run step (new matcher) trace last) : last.matcher.Coherent ∧ last.Bound := by
  refine hRun.invariant (P := fun a => a.matcher.Coherent ∧ a.Bound) ?_ ?_
  · exact ⟨hMatcher.coherent, fun _ hPending => by cases hPending⟩
  · intro a op b out hBefore hStep
    exact ⟨step_coherent hBefore.1 hStep, step_bound hBefore.1 hBefore.2 hStep⟩

/- Every entry of a run starts where its prefix ended. -/
theorem run_reenables {front rest : List Entry} {e : Entry}
    (hRun : Run step (new matcher) (front ++ e :: rest) last)
    (hReenables : reenables e = true) :
    ∃ scope, e.op = .reconciled scope (.reset 8) ∧ scope.generation = 0 ∧ e.out = .flag true ∧
        Armed scope.nonce front := by
  rcases hRun.upto with ⟨post, hUpto⟩
  rcases hUpto.concat_inv with ⟨hFront, hStep⟩
  simp only [reenables, hStep, Bool.and_eq_true, Bool.not_eq_true'] at hReenables
  rcases step_reenables hStep hReenables.1 hReenables.2 with ⟨scope, hOp, hOut, hGlobal, hNonce⟩
  exact ⟨scope, hOp, hGlobal, hOut, run_armed hFront hNonce⟩

/- Two re-enables never share an arming. -/
theorem run_rearmed {front middle rest : List Entry} {e f : Entry}
    (hRun : Run step (new matcher) (front ++ e :: (middle ++ f :: rest)) last)
    (hFirst : reenables e = true) (hSecond : reenables f = true) :
    ∃ g ∈ middle, (armed? g).isSome = true := by
  rcases run_reenables hRun hFirst with ⟨scope, hOp, _, hOut, _⟩
  have hProves : proves e = true := by simp [proves, hOp, hOut, Out.succeeded]
  have hPlain : armed? e = none := by simp [armed?, hOp, Op.nonce?]
  rw [← List.cons_append, ← List.append_assoc] at hRun
  rcases run_reenables hRun hSecond with ⟨later, _, _, _, hArmed⟩
  rcases hArmed.mark_after (fun hKeeps => by simp [hKeeps.2.2] at hProves) (by simp [hPlain]) with
    ⟨g, hMem, hMark⟩
  exact ⟨g, hMem, by simp [hMark]⟩

/-
  Replacement is re-enabled only by the native proof for an arming that is still unused,
  so once for each arming; and a swallowed press leaves in the listed ways only.
-/
theorem recovery_and_holds (hMatcher : matcher.Reachable)
    (hRun : Run step (new matcher) trace last) :
    (∀ front e rest, trace = front ++ e :: rest → reenables e = true → ∃ scope,
        e.op = .reconciled scope (.reset 8) ∧ scope.generation = 0 ∧ e.out = .flag true ∧
          Armed scope.nonce front) ∧
    (∀ front e middle f rest, trace = front ++ e :: (middle ++ f :: rest) →
      reenables e = true → reenables f = true →
      ∃ g ∈ middle, (armed? g).isSome = true) ∧
    (∀ e ∈ trace, ∀ post, e.pre.step e.op = some (post, e.out) → ∀ p ∈ e.pre.matcher.swallowedDowns,
        p ∉ post.matcher.swallowedDowns → Drops e.pre p e.op e.out) ∧
    (∀ e ∈ trace, ∀ post, e.pre.step e.op = some (post, e.out) → e.op.isBoundary = true →
      ∀ p ∈ e.pre.matcher.swallowedDowns, p ∈ post.matcher.swallowedDowns) := by
  have hDrops : ∀ e ∈ trace, ∀ post, e.pre.step e.op = some (post, e.out) →
      ∀ p ∈ e.pre.matcher.swallowedDowns, p ∉ post.matcher.swallowedDowns →
          Drops e.pre p e.op e.out := by
    intro e hMem post hStep p hBefore hAfter
    rcases List.append_of_mem hMem with ⟨front, rest, rfl⟩
    rcases hRun.split with ⟨mid, hFront, hTail⟩
    obtain rfl := hTail.cons_inv.1
    rcases run_bound hMatcher hFront with ⟨hCoherent, hBound⟩
    exact step_drops hCoherent hBound hStep hBefore hAfter
  refine ⟨?_, ?_, hDrops, ?_⟩
  · rintro front e rest rfl
    exact run_reenables hRun
  · rintro front e middle f rest rfl
    exact run_rearmed hRun
  · intro e hMem post hStep hBoundary p hBefore
    by_contra hAfter
    have hDrop := hDrops e hMem post hStep p hBefore hAfter
    rw [hDrop.not_boundary] at hBoundary
    cases hBoundary

/- Option-K is pressed on one keyboard. -/
def optionKPressed : Event where
  key := 37
  state := 1
  timeMs := 0
  modifiers := 16
  focusEpoch := 1
  focusKind := 0
  focus := ""

/-
  A press is replaced, the transport is lost, and a second connection is armed and proved.
-/
def twoConnections : List Op :=
  let pressed : Scope := ⟨1, 0, 2, 0, 5⟩
  [Op.awaitReconciliation 5, Op.reconciled ⟨0, 0, 1, 0, 5⟩ (.reset 8),
    Op.propose pressed optionKPressed none 0 (fun _ => false),
    Op.onDelivery pressed (.acknowledged ⟨.replaced, 0, 37, 1, 1⟩),
    Op.disconnected,
    Op.awaitReconciliation 6,
    Op.reconciled ⟨0, 0, 1, 0, 6⟩ (.reset 8)]

theorem recovery_and_holds_twoConnections :
    let entries :=
      entriesOf step (new (Matcher.new Matcher.optionK)) twoConnections
    entries.map (fun e =>
          (reenables e, decide ((⟨1⟩, .keyK) ∈ e.pre.matcher.swallowedDowns))) =
      [(false, false), (true, false), (false, false), (false, true), (false, true), (false, true),
        (true, true)] ∧
    ∀ front e middle f rest, entries = front ++ e :: (middle ++ f :: rest) →
      reenables e = true → reenables f = true →
      ∃ g ∈ middle, (armed? g).isSome = true :=
  ⟨by decide +kernel,
    (recovery_and_holds ⟨Matcher.optionK, [], Run.nil⟩
      (Run.of_isSome (by decide +kernel))).2.1⟩

end MatcherAdapter

end Sledge.Linux
