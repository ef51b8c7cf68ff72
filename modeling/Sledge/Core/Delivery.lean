import Sledge.Core.Pairing

/-
  The lifetime of a delivery token.

  A token is outstanding from the dispatch that issued it to
  the first entry that voids it, and generations are never
  reused, so a later token of the same press cannot be
  mistaken for it.

  Main results:
    * `Matcher.step_generation`
    * `Matcher.step_pending`
    * `Matcher.token_lifetime`
-/

-----
-- Issuing Tokens

namespace Sledge.Core.Matcher

open Transition Holding

namespace Out

/- The token an operation hands out. -/
def issued? : Out → Option ReplacementToken
  | .verdict _ token => token
  | _ => none

end Out

variable {m m' : Matcher} {op : Op} {out : Out} {token : ReplacementToken}

theorem dispatchUngated_generation (hCoherent : m.Coherent) (device : DeviceId) (event : KeyEvent)
    (focusedApp : Option String) (now : Instant) :
    (m.dispatchUngated device event focusedApp now).1.deliveryGeneration = m.deliveryGeneration := by
  rw [dispatchUngated_frame hCoherent.disjoint]
  rfl

theorem step_issued (hCoherent : m.Coherent) (hStep : m.step op = some (m', out))
    (hIssued : out.issued? = some token) :
    token.generation = m.deliveryGeneration + 1 ∧ m.deliveryGeneration ≠ u64Max ∧
      m'.deliveryGeneration = m.deliveryGeneration + 1 ∧
      m'.pendingDeliveries.get? token.press = some token.generation ∧
      ∃ event, op.event? = some (token.device, event) ∧ event.code = token.key := by
  cases (step_iff hCoherent.active).mp hStep with
  | @issued device event focusedApp now _ _ hInner _ hMax =>
    have hGeneration := dispatchUngated_generation hCoherent device event focusedApp now
    rw [hInner] at hGeneration
    simp only at hGeneration
    simp only [Out.issued?, Option.some.injEq] at hIssued
    subst hIssued
    rw [hGeneration] at hMax
    simp [issue, hGeneration, hMax, Op.event?, ReplacementToken.press]
  | _ => simp [Out.issued?] at hIssued

theorem step_generation (hCoherent : m.Coherent) (hStep : m.step op = some (m', out)) :
    m'.deliveryGeneration = if out.issued?.isSome then m.deliveryGeneration + 1
      else m.deliveryGeneration := by
  cases hIssued : out.issued? with
  | some token => simpa using (step_issued hCoherent hStep hIssued).2.2.1
  | none =>
    have hDispatch := @dispatchUngated_generation m hCoherent
    simp only [Option.isSome_none, Bool.false_eq_true, if_false]
    cases (step_iff hCoherent.active).mp hStep with
    | @dispatch device event focusedApp now _ _ hInner
    | @unissued device event focusedApp now _ _ hInner =>
      have hNext := hDispatch device event focusedApp now
      rwa [hInner] at hNext
    | issued => simp [Out.issued?] at hIssued
    | report token delivery =>
      unfold reportDelivery
      simp only
      repeat' split
      all_goals rfl
    | settle device event =>
      unfold settleDeviceEvent
      split <;> rfl
    | _ => rfl

-----
-- Voiding Tokens

/-
  The entry ends the life of a token: an accepted report of it, a release or modifier
  change of its press, a key down of its press while nobody owns it, a settled release, or
  an operation that discards outstanding deliveries.
-/
def voids (token : ReplacementToken) (e : Entry) : Bool :=
  match e.op with
  | .report token' _ => decide (token' = token ∧ e.out = .reported true)
  | .settle device event => decide (token.press = (device, event.code) ∧ event.kind = .keyUp)
  | .resetDevice device => decide (token.device = device)
  | .reset => true
  | .invalidateSpeculation => true
  | op =>
    match op.kindOf token.press with
    | some .keyDown =>
      decide (token.press ∉ e.pre.swallowedDowns ∧ token.press ∉ e.pre.forwardedDowns)
    | some _ => true
    | none => false

theorem voids_of_event {e : Entry} {device : DeviceId} {event : KeyEvent}
    (hEvent : e.op.event? = some (device, event)) :
    voids token e = true ↔ token.press = (device, event.code) ∧ (event.kind = .keyDown →
          e.pre.owner token.press = .free) := by
  rcases e with ⟨pre, op, out⟩
  rw [owner_eq_free_iff]
  cases op with
  | dispatch device' event' focusedApp now | dispatchWithDelivery device' event' focusedApp now =>
    simp only [Op.event?, Option.some.injEq, Prod.mk.injEq] at hEvent
    rcases hEvent with ⟨rfl, rfl⟩
    simp only [voids, Op.kindOf, Op.event?]
    cases hKind : event'.kind <;> grind
  | _ => simp [Op.event?] at hEvent

/- A dispatch keeps a token unless it voids it. -/
theorem step_pending_of_event {device : DeviceId} {event : KeyEvent} (hCoherent : m.Coherent)
    (hOld : token.generation ≤ m.deliveryGeneration) (hEvent : op.event? = some (device, event))
    (hStep : m.step op = some (m', out)) :
    m'.pendingDeliveries.get? token.press = some token.generation ↔
      m.pendingDeliveries.get? token.press = some token.generation ∧
        voids token ⟨m, op, out⟩ = false := by
  rcases step_dispatch hCoherent hEvent hStep with ⟨_, verdict, issued, rfl, _, hToken⟩
  have hPending := congrArg pending (step_holding hCoherent hStep token.press)
  rw [after_of_event hEvent] at hPending
  rw [← Bool.not_eq_true, voids_of_event hEvent]
  by_cases hPress : token.press = (device, event.code)
  · rw [if_pos hPress] at hPending
    cases hIssued : issued with
    | none =>
      subst hIssued
      simp only [dispatched, holding_owner, holding_pending] at hPending
      rw [hPending]
      grind
    | some fresh =>
      have hFresh := step_issued hCoherent hStep (show Out.issued? (.verdict verdict issued) =
          some fresh from hIssued)
      subst hIssued
      simp only [dispatched, holding_pending] at hPending
      have hFree : event.kind = .keyDown → m.owner token.press = .free := by
        intro hKind
        by_contra hOwned
        have hKindOf : op.kindOf token.press = some .keyDown := by
          rw [hPress]
          exact Op.kindOf_eq_some_iff.mpr ⟨event, hEvent, rfl, hKind⟩
        rcases step_of_owned hCoherent hKindOf (by simp) hOwned with ⟨m₂, hOther⟩
        rw [hOther] at hStep
        simp at hStep
      rw [hPending]
      constructor
      · intro hSame
        simp only [Option.some.injEq] at hSame
        omega
      · intro hKept
        exact absurd ⟨hPress, hFree⟩ hKept.2
  · rw [if_neg hPress] at hPending
    simp only [holding_pending] at hPending
    rw [hPending]
    simp [hPress]

theorem pending_after_report (m : Matcher) (token token' : ReplacementToken)
    (delivery : ReplacementDelivery) :
    ((m.holding token.press).after token.press (.report token' delivery) (.reported (decide
            (m.pendingDeliveries.get? token'.press = some token'.generation)))).pending =
        some token.generation ↔
      m.pendingDeliveries.get? token.press = some token.generation ∧
        voids token ⟨m, .report token' delivery, .reported (decide
            (m.pendingDeliveries.get? token'.press = some token'.generation))⟩ = false := by
  simp only [after, voids]
  by_cases hPress : token.press = token'.press
  · rw [← hPress]
    by_cases hAccepted : m.pendingDeliveries.get? token.press = some token'.generation
    · -- The accepted report is of the outstanding token.
      simp only [hAccepted, Option.some.injEq, true_and, decide_true, if_true, settled]
      constructor
      · intro hNone
        simp at hNone
      · intro hKept
        have hSame : token' = token := by
          rcases token with ⟨device, key, generation⟩
          rcases token' with ⟨device', key', generation'⟩
          simp only [ReplacementToken.press, Prod.mk.injEq] at hPress
          simp only at hKept
          rcases hPress with ⟨rfl, rfl⟩
          rw [hKept.1]
        simp [hSame] at hKept
    · simp [hAccepted]
  · have hOther : token' ≠ token := by
      intro hSame
      exact hPress (by rw [hSame])
    simp [hPress, hOther]

theorem step_pending (hCoherent : m.Coherent) (hOld : token.generation ≤ m.deliveryGeneration)
    (hStep : m.step op = some (m', out)) :
    m'.pendingDeliveries.get? token.press = some token.generation ↔
      m.pendingDeliveries.get? token.press = some token.generation ∧
        voids token ⟨m, op, out⟩ = false := by
  cases hEvent : op.event? with
  | some dispatched => exact step_pending_of_event hCoherent hOld hEvent hStep
  | none =>
    have hPending := congrArg pending (step_holding hCoherent hStep token.press)
    simp only [holding_pending] at hPending
    rw [hPending]
    cases op with
    | dispatch | dispatchWithDelivery => simp [Op.event?] at hEvent
    | report token' delivery =>
      simp only [step, Option.some.injEq, Prod.mk.injEq] at hStep
      rcases hStep with ⟨rfl, rfl⟩
      rw [reportDelivery_snd]
      exact pending_after_report m token token' delivery
    | swapRules rules | disqualifyTaps => simp [after, voids, Op.kindOf, Op.event?]
    | invalidateSpeculation => simp [after, voids]
    | settle device event =>
      simp only [after, voids]
      split <;> simp_all [released]
    | resetDevice device =>
      by_cases hDevice : token.device = device
      · simp [after, released, voids, ReplacementToken.press, hDevice]
      · simp [after, voids, ReplacementToken.press, hDevice]
    | reset => simp [after, released, voids]

/- A token stays outstanding until an entry voids it. -/
theorem run_pending {trace : List Entry} (hCoherent : m.Coherent)
    (hOld : token.generation ≤ m.deliveryGeneration)
    (hPending : m.pendingDeliveries.get? token.press = some token.generation)
    (hRun : Run step m trace m') :
    token.generation ≤ m'.deliveryGeneration ∧ (m'.pendingDeliveries.get? token.press =
          some token.generation ↔
        ∀ e ∈ trace, voids token e = false) := by
  induction hRun with
  | nil => exact ⟨hOld, by simpa using hPending⟩
  | @snoc front last next op out hFront hLast ih =>
    have hMid := (run_holding hCoherent hFront token.press).1
    rcases ih with ⟨hBound, hFrontPending⟩
    have hNext := step_generation hMid hLast
    refine ⟨?_, ?_⟩
    · rw [hNext]
      split <;> omega
    · rw [step_pending hMid hBound hLast, hFrontPending, forall_mem_snoc]

theorem reportDelivery_ownership (m : Matcher) (token : ReplacementToken)
    (delivery : ReplacementDelivery) (hAccepted : (m.reportDelivery token delivery).2 = true) :
    let m' := (m.reportDelivery token delivery).1
    if delivery = .rejectedOriginalForwarded ∧ token.press ∈ m.swallowedDowns then
      m'.swallowedDowns = m.swallowedDowns.erase token.press ∧ m'.forwardedDowns =
          insert token.press m.forwardedDowns
    else
      m'.swallowedDowns = m.swallowedDowns ∧ m'.forwardedDowns = m.forwardedDowns := by
  rw [reportDelivery_snd, decide_eq_true_eq] at hAccepted
  simp only [reportDelivery, hAccepted, ne_eq, not_true, if_false]
  split <;> exact ⟨rfl, rfl⟩

theorem reportDelivery_refused (m : Matcher) (token : ReplacementToken)
    (delivery : ReplacementDelivery) (hRefused : (m.reportDelivery token delivery).2 = false) :
    (m.reportDelivery token delivery).1 = m := by
  rw [reportDelivery_snd, decide_eq_false_iff_not] at hRefused
  simp [reportDelivery, hRefused]

/-
  The exact lifetime of a token: after any run since it was issued, its report is accepted
  iff no entry voided it.
-/
theorem token_lifetime {rules : RuleSet} {before after : List Entry} {m₁ m₂ m₃ : Matcher} {op : Op}
    {verdict : Verdict} {token : ReplacementToken}
    (hBefore : Run step (new rules) before m₁)
    (hIssued : m₁.step op = some (m₂, .verdict verdict (some token)))
    (hAfter : Run step m₂ after m₃) (delivery : ReplacementDelivery) :
    (∃ kind, op.kindOf token.press = some kind) ∧ ((m₃.reportDelivery token delivery).2 = true ↔
        ∀ e ∈ after, voids token e = false) ∧
      ((m₃.reportDelivery token delivery).2 = false → (m₃.reportDelivery token delivery).1 = m₃) ∧
      ((m₃.reportDelivery token delivery).2 = true →
        let m₄ := (m₃.reportDelivery token delivery).1
        if delivery = .rejectedOriginalForwarded ∧ token.press ∈ m₃.swallowedDowns then
          m₄.swallowedDowns = m₃.swallowedDowns.erase token.press ∧ m₄.forwardedDowns =
              insert token.press m₃.forwardedDowns
        else
          m₄.swallowedDowns = m₃.swallowedDowns ∧ m₄.forwardedDowns = m₃.forwardedDowns) := by
  have hStart := (run_holding (new_coherent rules) hBefore token.press).1
  have hCoherent := step_coherent hStart hIssued
  rcases step_issued hStart hIssued rfl with ⟨hFresh, _, hNext, hPending, event, hEvent, hCode⟩
  refine ⟨⟨event.kind, ?_⟩, ?_, ?_, ?_⟩
  · exact Op.kindOf_eq_some_iff.mpr ⟨event, hEvent, hCode, rfl⟩
  · rw [reportDelivery_snd, decide_eq_true_eq]
    exact (run_pending hCoherent (by omega) hPending hAfter).2
  · exact reportDelivery_refused m₃ token delivery
  · exact reportDelivery_ownership m₃ token delivery

/- Option-K is repeated and then reported. -/
def optionKRepeated : List Op := [.dispatch ⟨1⟩ ⟨.keyK, .keyDown, .alt⟩ none 1, .disqualifyTaps]

theorem token_lifetime_optionK :
    ((lastOf step (lastOf step (new optionK) [optionKDown])
        optionKRepeated).reportDelivery ⟨⟨1⟩, .keyK, 1⟩ .rejectedOriginalForwarded).2 = true := by
  have hIssued : (new optionK).step optionKDown = some (lastOf step (new optionK)
        [optionKDown],
      .verdict (.replace (.sendKey .keyT .alt)) (some ⟨⟨1⟩, .keyK, 1⟩)) := rfl
  have hAfter : Run step (lastOf step (new optionK) [optionKDown])
      (entriesOf step (lastOf step (new optionK)
          [optionKDown]) optionKRepeated)
      (lastOf step (lastOf step (new optionK)
          [optionKDown]) optionKRepeated) :=
    Run.of_isSome (by decide)
  exact (token_lifetime .nil hIssued hAfter
    .rejectedOriginalForwarded).2.1.mpr (by decide)

-----
-- The Cached Flag

/- Dispatch with delivery, reconciling unconditionally. -/
def dispatchUngatedWithDelivery (m : Matcher) (device : DeviceId) (event : KeyEvent)
    (focusedApp : Option String) (now : Instant) :
    Option (Matcher × Verdict × Option ReplacementToken) :=
  let (m, verdict) := m.dispatchUngated device event focusedApp now
  match verdict with
  | .replace _ =>
    if m.deliveryGeneration = u64Max then none
    else
      some (m.issue (device, event.code), verdict,
        some ⟨device, event.code, m.deliveryGeneration + 1⟩)
  | _ => some (m, verdict, none)

/- The matcher that reconciles every event it dispatches. -/
def stepUngated (m : Matcher) : Op → Option (Matcher × Out)
  | .dispatch device event focusedApp now =>
    let (m, verdict) := m.dispatchUngated device event focusedApp now
    some (m, .verdict verdict none)
  | .dispatchWithDelivery device event focusedApp now =>
    match m.dispatchUngatedWithDelivery device event focusedApp now with
    | none => none
    | some (m, verdict, token) => some (m, .verdict verdict token)
  | op => m.step op

theorem stepUngated_eq_step (hCoherent : m.Coherent) (op : Op) : m.stepUngated op = m.step op := by
  have hSame := @dispatchDevice_eq_ungated m hCoherent.active
  cases op with
  | dispatch device event focusedApp now => rw [stepUngated, step, hSame]
  | dispatchWithDelivery device event focusedApp now =>
    rw [stepUngated, step, dispatchUngatedWithDelivery, dispatchDeviceWithDelivery, hSame]
    rfl
  | _ => rfl

/- The flag is set exactly while a token is outstanding or a press is forwarded. -/
theorem Coherent.deliveryActive_iff (hCoherent : m.Coherent) :
    m.deliveryActive = true ↔ (∃ p, m.pendingDeliveries.get? p ≠ none) ∨ m.forwardedDowns ≠ ∅ := by
  rw [← hCoherent.active]
  simp only [refreshDeliveryActive, Bool.or_eq_true, Bool.not_eq_true', decide_eq_true_eq]
  rw [← Bool.not_eq_true, Dict.isEmpty_iff, not_forall]

/-
  The fast path cannot be observed: whatever operations are called on a fresh matcher, the
  unconditional one passes through the same states and gives the same results.
-/
theorem fastPath_unobservable (rules : RuleSet) (ops : List Op) :
    let m := lastOf step (new rules) ops
    (m.deliveryActive = true ↔ (∃ p, m.pendingDeliveries.get? p ≠ none) ∨ m.forwardedDowns ≠ ∅) ∧
    exec stepUngated (new rules) ops = exec step (new rules) ops := by
  have hKeeps (a : Matcher) (op : Op) (b : Matcher) (out : Out) (hBefore : a.Coherent)
      (hStep : a.step op = some (b, out)) : b.Coherent := step_coherent hBefore hStep
  refine ⟨?_, ?_⟩
  · have hLast := lastOf_invariant (new_coherent rules) hKeeps ops
    exact hLast.deliveryActive_iff
  · exact exec_congr (new_coherent rules) (fun _ => fun op hPre =>
      stepUngated_eq_step hPre op) hKeeps ops

end Sledge.Core.Matcher
