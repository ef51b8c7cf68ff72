import Sledge.Linux.Recovery

/-
  The outstanding decision, as the transactions and the
  matcher remember it.

  The transactions keep the raw scope and key of a proposal,
  the matcher its press and token.  Every operation moves both
  records together, so a report for the proposal always finds
  its token.

  Main results:
    * `MatcherAdapter.step_paired`
    * `MatcherAdapter.onDelivery_settles`
    * `MatcherAdapter.pending_coherent`
-/

-----
-- Dictionaries With One Entry

namespace Dict

variable {α β : Type} [DecidableEq α]

theorem erase_empty (a : α) : (∅ : Dict α β).erase a = ∅ := by
  refine ext_get? ?_
  simp

theorem erase_single (a : α) (b : β) : ((∅ : Dict α β).insert a b).erase a = ∅ := by
  refine ext_get? ?_
  intro key
  simp

theorem erase_single_of_ne {a c : α} (hNe : c ≠ a) (b : β) :
    ((∅ : Dict α β).insert a b).erase c = (∅ : Dict α β).insert a b := by
  refine ext_get? ?_
  intro key
  by_cases hKey : key = c
  · subst hKey
    simp [hNe]
  · simp [hKey]

theorem retain_empty (p : α → β → Bool) : (∅ : Dict α β).retain p = ∅ := by
  refine ext_get? ?_
  simp

theorem retain_single (p : α → β → Bool) (a : α) (b : β) :
    ((∅ : Dict α β).insert a b).retain p = if p a b then (∅ : Dict α β).insert a b else ∅ := by
  refine ext_get? ?_
  intro key
  by_cases hKey : key = a
  · subst hKey
    cases hKeep : p key b <;> simp [hKeep]
  · split_ifs <;> simp [hKey]

theorem insert_ne_empty (a : α) (b : β) : (∅ : Dict α β).insert a b ≠ ∅ := by
  intro hEmpty
  have hLookup := congrArg (fun m => m.get? a) hEmpty
  simp at hLookup

end Dict

-----
-- Dispatch

namespace Sledge

open Transition Dict

namespace Core.Matcher

/- The entry of one token. -/
def entryOf : Option ReplacementToken → Dict Press Nat
  | none => ∅
  | some token => (∅ : Dict Press Nat).insert token.press token.generation

/- With nothing outstanding, a dispatch leaves its token. -/
theorem dispatch_entryOf {m m' : Matcher} {device : DeviceId} {event : KeyEvent}
    {focusedApp : Option String} {now : Instant} {verdict : Verdict}
    {token : Option ReplacementToken} (hCoherent : m.Coherent) (hNone : m.pendingDeliveries = ∅)
    (hDispatch : m.dispatchDeviceWithDelivery device event focusedApp now =
        some (m', verdict, token)) : m'.pendingDeliveries = entryOf token := by
  have hStep : m.step (.dispatchWithDelivery device event focusedApp now) =
      some (m', .verdict verdict token) := by
    simp only [step, hDispatch]
  refine ext_get? ?_
  intro p
  have hHolding := congrArg Holding.pending (step_holding hCoherent hStep p)
  simp only [Holding.after, holding_pending] at hHolding
  rw [hHolding]
  cases token with
  | none => split_ifs <;> simp [Holding.dispatched, hNone, entryOf]
  | some token =>
    rcases step_issued hCoherent hStep rfl with ⟨_, _, _, _, issued, hEvent, hKey⟩
    cases hEvent
    have hPress : token.press = (token.device, event.code) := by
      rw [hKey]
      rfl
    by_cases hHere : p = (token.device, event.code)
    · simp [hHere, Holding.dispatched, entryOf, hPress]
    · simp [hHere, entryOf, hPress, hNone]

end Core.Matcher

-----
-- Two Records Of One Decision

namespace Linux

open Core Matcher

namespace MatcherAdapter

/- What the matcher should remember of a proposal. -/
def outstanding (pending : Option Pending) : Dict Press Nat :=
  entryOf (pending.map (·.token))

/- The matcher remembers the proposal, and nothing else. -/
def Paired (a : MatcherAdapter) : Prop :=
  a.matcher.pendingDeliveries = outstanding a.transactions.pending

variable {a b : MatcherAdapter} {op : Op} {out : Out}

theorem observed_deliveries (a : MatcherAdapter) (scope : Scope) (event : Event) :
    (a.observed scope event).matcher.pendingDeliveries = a.matcher.pendingDeliveries := by
  rcases a.observed_matcher scope event with hSame | hTaps
  · rw [hSame]
  · rw [hTaps]
    rfl

theorem spoiled_deliveries (a : MatcherAdapter) (m : Matcher) (code : KeyCode) (scope : Scope)
    (event : Event) : (a.spoiled m code scope event).pendingDeliveries = m.pendingDeliveries := by
  unfold spoiled
  split_ifs <;> rfl

theorem propose_paired {scope : Scope} {event : Event} {focusedApp : Option String} {now : Instant}
    {admitSource : String → Bool} {result : Except IoError Decision}
    (hCoherent : a.matcher.Coherent) (hPaired : a.Paired)
    (hProposed : Proposed a scope event focusedApp now admitSource b result) : b.Paired := by
  have hObserved : (a.observed scope event).Paired := by
    unfold Paired
    rw [observed_deliveries, observed_pending]
    exact hPaired
  cases hProposed with
  | refused hClosed | skipped hOpen hState => exact hPaired
  | repeated _ _ _ _ | unknown _ _ _ _ => exact hObserved
  | @dispatched code matcher verdict token hOpen hAsked hChanges hCode hDispatch =>
      have hNone : (a.observed scope event).matcher.pendingDeliveries = ∅ := by
        rw [hObserved, observed_pending, hOpen.pending]
        rfl
      unfold Paired
      dsimp only
      rw [spoiled_deliveries,
        dispatch_entryOf (observed_coherent hCoherent scope event) hNone hDispatch]
      cases token <;> rfl

variable {pending : Pending}

/- A report for the proposal finds its token. -/
theorem Paired.accepts (hPaired : a.Paired) (hPending : a.transactions.pending = some pending)
    (delivery : ReplacementDelivery) :
    (a.matcher.reportDelivery pending.token delivery).2 = true ∧
      (a.matcher.reportDelivery pending.token delivery).1.pendingDeliveries = ∅ := by
  have hEntry : a.matcher.pendingDeliveries = (∅ : Dict Press Nat).insert pending.token.press
      pending.token.generation := by
    rw [hPaired, hPending]
    rfl
  have hFound : a.matcher.pendingDeliveries.get? pending.token.press =
      some pending.token.generation := by
    rw [hEntry]
    simp
  unfold reportDelivery
  dsimp only
  rw [if_neg (not_not_intro hFound)]
  refine ⟨rfl, ?_⟩
  split_ifs <;>
  · simp only [refreshDeliveryActive]
    rw [hEntry, erase_single]

/- It uses the proposal up. -/
theorem onDelivery_settles (hPaired : a.Paired) (hPending : a.transactions.pending = some pending)
    (report : DeliveryReport) :
    let b := (a.onDelivery pending.scope report).1
    b.transactions.pending = none ∧ b.matcher.pendingDeliveries = ∅ := by
  unfold onDelivery
  rw [hPending]
  dsimp only
  rw [if_neg (not_not_intro rfl)]
  split_ifs
  · exact ⟨rfl, (hPaired.accepts hPending _).2⟩
  · exact ⟨rfl, (hPaired.accepts hPending _).2⟩

/- The raw key of a press determines it. -/
theorem token_press_eq_iff {key : Nat} {code : KeyCode}
    (hPress : pressOf pending.scope pending.key = some pending.token.press)
    (hCode : codeOf key = some code) (scope : Scope) :
    pending.token.press = (⟨scope.generation⟩, code) ↔ pending.scope.generation = scope.generation ∧
        pending.key = key := by
  rcases Option.map_eq_some_iff.mp hPress with ⟨own, hOwn, hToken⟩
  rw [← hToken, Prod.mk.injEq, DeviceId.mk.injEq]
  constructor
  · rintro ⟨hGeneration, rfl⟩
    exact ⟨hGeneration, codeOf_injective hOwn hCode⟩
  · rintro ⟨hGeneration, rfl⟩
    rw [hOwn] at hCode
    exact ⟨hGeneration, Option.some.inj hCode⟩

/- A settled release drops its own press from both. -/
theorem settled_paired {scope : Scope} {event : Event} {code : KeyCode} (hBound : a.Bound)
    (hPaired : a.Paired) (hCode : codeOf event.key = some code) :
    Paired ⟨a.matcher.settleDeviceEvent ⟨scope.generation⟩ (normalize code event),
      { a.transactions with pending := pendingSettled a.transactions.pending scope event }⟩ := by
  unfold Paired Matcher.settleDeviceEvent pendingSettled
  dsimp only [normalize]
  by_cases hUp : event.state = 0
  swap
  · simp only [hUp, if_false, ne_eq, reduceCtorEq, not_false_eq_true, if_true, false_and]
    exact hPaired
  simp only [hUp, if_true, ne_eq, not_true, if_false, true_and, refreshDeliveryActive]
  rw [hPaired]
  cases hPending : a.transactions.pending with
  | none => exact erase_empty _
  | some pending =>
    have hPress := token_press_eq_iff (hBound pending hPending) hCode scope
    by_cases hOwn : pending.scope.generation = scope.generation ∧ pending.key = event.key
    · simp only [Option.any_some, hOwn, beq_self_eq_true, Bool.and_self, if_true, outstanding,
        Option.map_some, Option.map_none, entryOf]
      rw [hPress.mpr hOwn]
      exact erase_single _ _
    · have hKeep : (pending.scope.generation == scope.generation && pending.key == event.key) =
          false := by
        simpa using hOwn
      simp only [Option.any_some, hKeep, Bool.false_eq_true, if_false, outstanding,
        Option.map_some, entryOf]
      refine erase_single_of_ne ?_ _
      intro hSame
      exact hOwn (hPress.mp hSame.symm)

/- A retired keyboard takes its proposal with it. -/
theorem retired_deliveries (hBound : a.Bound) (hPaired : a.Paired) (generation : Nat) :
    (a.matcher.resetDevice ⟨generation⟩).pendingDeliveries =
      outstanding (if a.transactions.pending.any (fun p => p.scope.generation == generation) then
          none
        else a.transactions.pending) := by
  unfold resetDevice
  simp only [refreshDeliveryActive]
  rw [hPaired]
  cases hPending : a.transactions.pending with
  | none => exact retain_empty _
  | some pending =>
    rcases Option.map_eq_some_iff.mp (hBound pending hPending) with ⟨own, hOwn, hToken⟩
    simp only [outstanding, Option.map_some, entryOf, Option.any_some, beq_iff_eq,
      retain_single, ← hToken]
    by_cases hLost : pending.scope.generation = generation
    · simp [hLost]
    · simp [hLost, ← hToken]

/- A boundary is heeded only with nothing outstanding. -/
theorem pending_of_heeds (hHeeds : a.heeds op = true) : a.transactions.pending = none := by
  unfold heeds awaits at hHeeds
  split at hHeeds
  · simp only [Bool.and_eq_true, Option.isNone_iff_eq_none] at hHeeds
    exact hHeeds.2
  · simp only [Bool.or_eq_true, Bool.and_eq_true, Option.isNone_iff_eq_none] at hHeeds
    rcases hHeeds with ⟨_, hNone⟩ | ⟨_, hNone⟩
    · exact hNone
    · exact hNone
  · cases hHeeds

theorem step_paired (hCoherent : a.matcher.Coherent) (hBound : a.Bound) (hPaired : a.Paired)
    (hStep : a.step op = some (b, out)) : b.Paired := by
  cases stepped_of_step hStep with
  | setModifierTapRelease enabled | refused hRefused | distrusted scope event report
  | swapRules rules => exact hPaired
  | propose hProposed => exact propose_paired hCoherent hPaired hProposed
  | reported report settled hPending hScope => exact (hPaired.accepts hPending _).2
  | settled outcome hState hGlobal hCode => exact settled_paired hBound hPaired hCode
  | armed op nonce hOp | reconciled scope hGlobal hNonce | disconnected op hOp
  | invalidateSpeculation => rfl
  | retired hGlobal hLost =>
    subst hLost
    exact retired_deliveries hBound hPaired _
  | observed op hOp =>
    have hNone := pending_of_heeds hOp
    unfold Paired forget
    dsimp only
    rw [hNone]
    rfl

theorem new_paired (rules : RuleSet) : (new (Matcher.new rules)).Paired := rfl

theorem new_bound (rules : RuleSet) : (new (Matcher.new rules)).Bound := by
  intro pending hPending
  cases hPending

theorem run_paired {rules : RuleSet} {trace : List Entry}
    (hRun : Run step (new (Matcher.new rules)) trace a) : a.Bound ∧ a.Paired := by
  let Kept (b : MatcherAdapter) : Prop := b.matcher.Coherent ∧ b.Bound ∧ b.Paired
  have hStart : Kept (new (Matcher.new rules)) := ⟨Matcher.new_coherent rules, new_bound rules,
      new_paired rules⟩
  have hKept : Kept a := by
    refine hRun.invariant hStart ?_
    rintro b op c out ⟨hCoherent, hBound, hPaired⟩ hNext
    exact ⟨step_coherent hCoherent hNext, step_bound hCoherent hBound hNext,
      step_paired hCoherent hBound hPaired hNext⟩
  exact hKept.2

-----
-- Runs

/- Both records agree on the outstanding decision. -/
structure Agreed (a : MatcherAdapter) : Prop where
  single : a.matcher.pendingDeliveries.keys.card ≤ 1
  none_iff : a.transactions.pending = none ↔ a.matcher.pendingDeliveries = ∅
  exact_entry : ∀ pending, a.transactions.pending = some pending → ∃ press,
        pressOf pending.scope pending.key = some press ∧ a.matcher.pendingDeliveries =
            (∅ : Dict Press Nat).insert press pending.token.generation
  no_orphan : ∀ press generation, a.matcher.pendingDeliveries.get? press = some generation →
        ∃ pending, a.transactions.pending = some pending ∧
          pending.token = ⟨press.1, press.2, generation⟩
  settles : ∀ pending, a.transactions.pending = some pending → (∀ delivery,
        (a.matcher.reportDelivery pending.token delivery).2 = true) ∧
      ∀ report, (a.onDelivery pending.scope report).1.transactions.pending = none ∧
          (a.onDelivery pending.scope report).1.matcher.pendingDeliveries = ∅

theorem agreed_of_paired {a : MatcherAdapter} (hBound : a.Bound) (hPaired : a.Paired) :
    a.Agreed := by
  cases hPending : a.transactions.pending with
  | none =>
    have hEmpty : a.matcher.pendingDeliveries = ∅ := by
      rw [hPaired, hPending]
      rfl
    refine ⟨?_, iff_of_true hPending hEmpty, ?_, ?_, ?_⟩
    · rw [hEmpty, keys_empty]
      exact Nat.zero_le 1
    · intro pending hSome
      rw [hPending] at hSome
      cases hSome
    · intro press generation hEntry
      rw [hEmpty, get?_empty] at hEntry
      cases hEntry
    · intro pending hSome
      rw [hPending] at hSome
      cases hSome
  | some pending =>
    have hEntry : a.matcher.pendingDeliveries = (∅ : Dict Press Nat).insert pending.token.press
        pending.token.generation := by
      rw [hPaired, hPending]
      rfl
    refine ⟨?_, iff_of_false ?_ ?_, ?_, ?_, ?_⟩
    · rw [hEntry, keys_insert, keys_empty]
      simp
    · rw [hPending]
      simp
    · rw [hEntry]
      exact insert_ne_empty _ _
    · intro other hSome
      rw [hPending] at hSome
      cases hSome
      exact ⟨_, hBound pending hPending, hEntry⟩
    · intro press generation hLookup
      rw [hEntry, get?_insert] at hLookup
      split_ifs at hLookup with hPress
      · cases hLookup
        exact ⟨pending, hPending, by rw [hPress]; rfl⟩
      · cases hLookup
    · intro other hSome
      rw [hPending] at hSome
      cases hSome
      refine ⟨fun delivery => (hPaired.accepts hPending delivery).1, ?_⟩
      intro report
      exact onDelivery_settles hPaired hPending report

/- After every operation of every run from a fresh pair. -/
theorem pending_coherent {rules : RuleSet} {trace : List Entry} {a : MatcherAdapter}
    (hRun : Run step (new (Matcher.new rules)) trace a) : a.Agreed :=
  agreed_of_paired (run_paired hRun).1 (run_paired hRun).2

/- A press is replaced and its delivery not reported yet. -/
def proposedOnce : List Op := [Op.propose ⟨1, 0, 2, 0, 5⟩ optionKPressed none 0 (fun _ => false)]

theorem pending_coherent_proposedOnce :
    let a :=
      lastOf step (new (Matcher.new Matcher.optionK)) proposedOnce
    a.transactions.pending.isSome = true ∧ a.Agreed :=
  ⟨by decide +kernel,
    pending_coherent (Run.of_isSome (by decide +kernel))⟩

end MatcherAdapter

end Linux

end Sledge
