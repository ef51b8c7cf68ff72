import Sledge.Linux.TapRelease

/-
  Release actions in tap-release mode.

  The taps that a release action counts were made alone: from
  the first press on, every accepted edge belongs to the same
  session and focus, no other key goes down or is held, and no
  operation that took effect starts the count afresh.

  Main results:
    * `MatcherAdapter.step_within`
    * `MatcherAdapter.run_within`
    * `MatcherAdapter.spans_pairs`
    * `MatcherAdapter.replace_pure`
-/

-----
-- The Window Of A Release Action

namespace Sledge.Linux

open Core Transition Matcher

namespace MatcherAdapter

/- A proposal that was not rejected. -/
def accepted? (e : Entry) : Option (Scope × Event × Instant) :=
  match e.op, e.out with
  | .propose scope event _ now _, .decision (.ok _) => some (scope, event, now)
  | _, _ => none

/-
  An accepted edge has this identity; if it goes down it is of this key, with no other
  press held.
-/
def PureEntry (generation key : Nat) (ident : Nat × Nat × Nat × Nat) (e : Entry) : Prop :=
  ∀ scope event now, accepted? e = some (scope, event, now) → event.state ≤ 1 →
      identity scope event = ident ∧ (event.state = 1 → event.key = key ∧
            ∀ press ∈ e.pre.transactions.physicalDowns, press = (generation, key))

/- The last edge had this identity; nothing else is held. -/
structure Within (generation key : Nat) (ident : Nat × Nat × Nat × Nat) (a : MatcherAdapter) :
    Prop where
  observation : a.transactions.observation = some ident
  alone : ∀ press ∈ a.transactions.physicalDowns, press = (generation, key)

variable {a b : MatcherAdapter} {op : Op} {out : Out} {scope : Scope} {event : Event}
variable {focusedApp : Option String} {now : Instant} {admitSource : String → Bool} {d : DeviceId}
variable {generation key : Nat} {code : KeyCode} {ident : Nat × Nat × Nat × Nat}

/- A key that is not held is not remembered either. -/
theorem observed_unanswered (hTracked : a.Tracked) (scope : Scope) (event : Event)
    (keyEvent : KeyEvent) (hFree : ¬ HeldKey a.transactions.physicalDowns (d, keyEvent.code)) :
    (a.observed scope event).matcher.answered d keyEvent = false ∧
      (a.observed scope event).matcher.wasDown d keyEvent = false := by
  have hMemory := observed_shrinks (a := a) scope event
  constructor
  · have hOwner : (a.observed scope event).matcher.owner (d, keyEvent.code) =
        .free := by
      by_contra hOwned
      exact hFree (hTracked.owned _ (hMemory.owner _ hOwned))
    rcases (owner_eq_free_iff _ _).mp hOwner with ⟨hSwallowed, hForwarded⟩
    simp [answered, hSwallowed, hForwarded]
  · unfold wasDown
    cases hHeld : (a.observed scope event).matcher.modifierState.get? (d, keyEvent.code) with
    | none => rfl
    | some down =>
      cases down with
      | false => rfl
      | true => exact absurd (hTracked.held _ (hMemory.held _ hHeld)).2 hFree

/- Another key that goes down breaks the taps. -/
theorem edgeCall_breaks {calls : TapFsm.Calls} {s : Nat} (hTracked : a.Tracked)
    (hCall : calls s = a.edgeCall ⟨scope.generation⟩ scope event now) (hDown : event.state = 1)
    (hFresh : (scope.generation, event.key) ∉ a.transactions.physicalDowns)
    (hKey : codeOf key = some code) (hOther : event.key ≠ key) : calls.Breaks code s := by
  unfold edgeCall at hCall
  cases hCode : codeOf event.key with
  | none =>
    rw [hCode] at hCall
    exact .inl hCall
  | some other =>
    rw [hCode] at hCall
    dsimp only at hCall
    rw [if_pos rfl] at hCall
    have hFree : ¬ HeldKey a.transactions.physicalDowns (⟨scope.generation⟩, other) := by
      rintro ⟨held, hHeld, hMem⟩
      obtain rfl := codeOf_injective hCode hHeld
      exact hFresh hMem
    rcases observed_unanswered hTracked scope event (normalize other event) hFree with
      ⟨hUnanswered, hWas⟩
    have hKind : (normalize other event).kind = .keyDown := by simp [normalize, hDown]
    cases hModifier : other.isModifier with
    | true =>
      refine breaks_of_down hCall hModifier hUnanswered
        (by simp [isDownAfter, hKind]) hWas ?_
      intro hSame
      have hSameCode : other = code := hSame
      rw [hSameCode] at hCode
      exact hOther (codeOf_injective hCode hKey)
    | false => exact breaks_of_key hCall hModifier hUnanswered hKind

/- The window goes on over an accepted edge. -/
theorem propose_within (hTracked : a.Tracked) (hWithin : a.Within generation key ident)
    (hKey : codeOf key = some code) (hIdent : ident.2.2.2 = generation)
    (hStep : a.step (.propose scope event focusedApp now admitSource) = some (b, out))
    (hUnbroken : ∀ s < 2, ¬ (a.slot ⟨generation⟩ (.propose scope event focusedApp now
              admitSource)).Breaks code s) :
    b.Within generation key ident ∧ PureEntry generation key ident
        ⟨a, .propose scope event focusedApp now admitSource, out⟩ := by
  have hMode := hTracked.mode
  rcases answered_of_step hMode hStep with ⟨result, rfl, hAnswered⟩
  cases hHears : a.hears event with
  | false =>
    rcases unheard_same hHears hAnswered with ⟨rfl, hRefused⟩
    refine ⟨hWithin, ?_⟩
    intro scope' event' now' hAccepted hState
    rcases hRefused with rfl | hLarge
    · cases hAccepted
    · cases result with
      | error error => cases hAccepted
      | ok decision =>
        cases hAccepted
        omega
  | true =>
    rcases heard_transactions hHears hAnswered with ⟨⟨decision, rfl⟩, hObservation, hDowns⟩
    rw [observed_observation hMode] at hObservation
    rw [observed_downs hMode (hears_asked hMode hHears)] at hDowns
    -- A change of identity would have broken the taps.
    have hIdentity : identity scope event = ident := by
      by_contra hNe
      refine hUnbroken 0 (by decide) (.inl ?_)
      rw [slot_zero hHears, identityCall, hWithin.observation, if_neg]
      intro hSame
      exact hNe (Option.some.inj hSame).symm
    have hGeneration : scope.generation = generation := by
      rw [← hIdent, ← hIdentity]
      rfl
    subst hGeneration
    -- So would another key that goes down.
    have hOwn : event.state = 1 → event.key = key := by
      intro hDown
      by_contra hOther
      have hFresh : (scope.generation, event.key) ∉
          a.transactions.physicalDowns := by
        intro hMem
        have hSame := hWithin.alone _ hMem
        simp only [Prod.mk.injEq, true_and] at hSame
        exact hOther hSame
      have hCall : a.slot ⟨scope.generation⟩ (.propose scope event focusedApp now admitSource) 1 =
          a.edgeCall ⟨scope.generation⟩ scope event
            now := by
        rw [slot_one hHears, if_pos ((changes_down hDown).mpr hFresh)]
      exact hUnbroken 1 (by decide) (edgeCall_breaks hTracked hCall hDown hFresh hKey
        hOther)
    refine ⟨⟨hObservation.trans (by rw [hIdentity]), ?_⟩, ?_⟩
    · intro press hMem
      rw [hDowns] at hMem
      split_ifs at hMem with hDown
      · rcases Finset.mem_insert.mp hMem with rfl | hOld
        · rw [hOwn hDown]
        · exact hWithin.alone press hOld
      · exact hWithin.alone press (Finset.mem_of_mem_erase hMem)
    · intro scope' event' now' hAccepted _
      cases hAccepted
      exact ⟨hIdentity, fun hDown =>
          ⟨hOwn hDown, hWithin.alone⟩⟩

/- Operations that are no proposal have no edge. -/
theorem pureEntry_of_quiet (hQuiet : accepted? ⟨a, op, out⟩ = none) :
    PureEntry generation key ident ⟨a, op, out⟩ := by
  intro scope event now hAccepted
  rw [hQuiet] at hAccepted
  cases hAccepted

/- What neither proposes nor interrupts keeps the window. -/
theorem step_within (hTracked : a.Tracked) (hWithin : a.Within generation key ident)
    (hKey : codeOf key = some code) (hIdent : ident.2.2.2 = generation)
    (hStep : a.step op = some (b, out)) (hQuiet : interrupts generation ⟨a, op, out⟩ = false)
    (hUnbroken : ∀ s < 2, ¬ (a.slot ⟨generation⟩ op).Breaks code s) :
    b.Within generation key ident ∧ PureEntry generation key ident ⟨a, op, out⟩ := by
  cases stepped_of_step hStep with
  | setModifierTapRelease enabled | reported report settled hPending hScope
  | distrusted scope event report | settled outcome hState hGlobal hCode =>
    exact ⟨⟨hWithin.observation, hWithin.alone⟩, pureEntry_of_quiet rfl⟩
  | propose hProposed => exact propose_within hTracked hWithin hKey hIdent hStep hUnbroken
  | refused hRefused => cases hRefused <;> exact ⟨hWithin, pureEntry_of_quiet rfl⟩
  | armed op nonce hOp =>
    cases op with
    | awaitReconciliation nonce | awaitLifecycleReconciliation scope body => cases hQuiet
    | _ => cases hOp
  | reconciled scope hGlobal hNonce | invalidateSpeculation | swapRules rules => cases hQuiet
  | retired hGlobal hLost =>
    refine ⟨⟨hWithin.observation, ?_⟩, pureEntry_of_quiet rfl⟩
    intro press hMem
    exact hWithin.alone press (Finset.mem_filter.mp hMem).1
  | observed op hOp =>
    cases op with
    | observeLockBoundary nonce | observeUnlockedEpoch nonce => cases hQuiet
    | _ => cases hOp
  | disconnected op hOp =>
    cases op with
    | disconnected | observeLockBoundary nonce | observeUnlockedEpoch nonce => cases hQuiet
    | _ => cases hOp

/- An entry of the window after its first press. -/
structure Calm (generation : Nat) (code : KeyCode) (e : Entry) : Prop where
  mode : e.op ≠ .setModifierTapRelease false
  quiet : interrupts generation e = false
  unbroken : ∀ s < 2, ¬ (e.pre.slot ⟨generation⟩ e.op).Breaks code s

theorem run_within {log : List Entry} (hTracked : a.Tracked)
    (hWithin : a.Within generation key ident) (hKey : codeOf key = some code)
    (hIdent : ident.2.2.2 = generation) (hRun : Run step a log b)
    (hCalm : ∀ e ∈ log, Calm generation code e) : ∀ e ∈ log, PureEntry generation key ident e := by
  let Kept (c : MatcherAdapter) : Prop := c.Tracked ∧ c.Within generation key ident
  intro e hMem
  rcases List.mem_iff_append.mp hMem with ⟨front, rest, rfl⟩
  rcases hRun.split with ⟨mid, hFront, hRest⟩
  rcases hRest.cons_inv with ⟨hPre, next, hNext, _⟩
  have hKept : Kept mid := by
    refine hFront.invariant_of (P := Kept) (Q := Calm generation code) ⟨hTracked, hWithin⟩ ?_ ?_
    · rintro c op c' out ⟨hBefore, hInside⟩ hEntry hTaken
      exact ⟨step_tracked hBefore hEntry.mode hTaken,
        (step_within hBefore hInside hKey hIdent hTaken hEntry.quiet hEntry.unbroken).1⟩
    · intro e hEarlier
      exact hCalm e (List.mem_append_left _ hEarlier)
  have hEntry := hCalm e hMem
  rw [← hPre] at hKept hNext
  exact (step_within hKept.1 hKept.2 hKey hIdent hNext hEntry.quiet hEntry.unbroken).2

/- Only an edge that is dispatched makes a transition. -/
theorem slot_transition {s : Nat} {wasDown isDown : Bool} {mods : Modifiers}
    (hCall : a.slot d op s = some (.transition code wasDown isDown mods now)) :
    ∃ scope event focusedApp admitSource, op = .propose scope event focusedApp now admitSource ∧
        s = 1 ∧ a.hears event = true ∧
        a.changes scope event = true ∧
        codeOf event.key = some code ∧
        code.isModifier = true ∧
        (⟨scope.generation⟩ : DeviceId) = d ∧
        isDown = decide (event.state ≠ 0) := by
  cases op with
  | propose scope event focusedApp t admitSource =>
    unfold slot at hCall
    dsimp only at hCall
    split_ifs at hCall with hHears hZero hChanges hOne
    · unfold identityCall at hCall
      split_ifs at hCall
      cases hCall
    · unfold edgeCall at hCall
      split at hCall
      · cases hCall
      · rename_i found hFound
        split_ifs at hCall with hHere
        rcases dispatchCall_transition hCall with ⟨hCode, hModifier, hDown, rfl⟩
        have hSame : found = code := hCode
        subst hSame
        refine ⟨scope, event, focusedApp, admitSource, rfl, hOne,
          hHears, hChanges, hFound, hModifier, hHere, ?_⟩
        by_cases hUp : event.state = 0
        · simp [isDownAfter, normalize, hUp] at hDown
          simp [hUp, hDown]
        · simp [isDownAfter, normalize, hUp] at hDown
          simp [hUp, hDown]
    · unfold spoilCall at hCall
      split at hCall
      · cases hCall
      · split_ifs at hCall
        cases hCall
  | _ => cases hCall

/- The press of a tap, with no other key held. -/
theorem press_within {mods : Modifiers} {t : Instant} (hTracked : a.Tracked)
    (hStep : a.step op = some (b, out))
    (hPressed : a.slot ⟨generation⟩ op 1 = some (.transition code false true mods t))
    (hAlone : a.slot ⟨generation⟩ op 2 ≠ some .otherKey) (hKey : codeOf key = some code) :
    ∃ ident, ident.2.2.2 = generation ∧ b.Within generation key ident ∧
        PureEntry generation key ident ⟨a, op, out⟩ := by
  have hMode := hTracked.mode
  rcases slot_transition hPressed with ⟨scope, event, focusedApp, admitSource, rfl, _, hHears,
    hChanges, hCode, hModifier, hHere, hEdge⟩
  cases hHere
  obtain rfl := codeOf_injective hCode hKey
  have hDown : event.state = 1 := by
    have hState := hears_state hHears
    have hNot : event.state ≠ 0 := by simpa using hEdge
    omega
  rcases answered_of_step hMode hStep with ⟨result, rfl, hAnswered⟩
  rcases heard_transactions hHears hAnswered with ⟨⟨decision, rfl⟩, hObservation, hDowns⟩
  -- Otherwise the press would have been disqualified.
  have hOnly : ∀ press ∈ (a.observed scope event).transactions.physicalDowns,
      press = (scope.generation, event.key) := by
    intro press hMem
    by_contra hOther
    refine hAlone ?_
    rw [slot_two hHears, if_pos hChanges, spoilCall, hCode]
    dsimp only
    rw [if_pos]
    have hFound : ∃ press ∈ (a.observed scope event).transactions.physicalDowns,
        press ≠ (scope.generation, event.key) :=
      ⟨press, hMem, hOther⟩
    have hObserved : (a.observed scope event).transactions.modifierTapRelease =
        true := by
      rcases a.observed_transactions scope event with ⟨observation, downs, hSame⟩
      rw [hSame]
      exact hMode
    unfold spoilsTaps
    rw [hObserved, hModifier, hDown, decide_eq_true hFound]
    rfl
  refine ⟨identity scope event, rfl, ⟨?_, ?_⟩, ?_⟩
  · rw [hObservation, observed_observation hMode]
  · rw [hDowns]
    exact hOnly
  · intro scope' event' now' hAccepted _
    cases hAccepted
    refine ⟨rfl, fun _ => ⟨rfl, ?_⟩⟩
    intro press hMem
    refine hOnly press ?_
    rw [observed_downs hMode (hears_asked hMode hHears), if_pos hDown]
    exact Finset.mem_insert_of_mem hMem

end MatcherAdapter

-----
-- Release Actions Are Pure

open Timeline

namespace MatcherAdapter

/- An accepted edge of a key, at a point of the log. -/
def EdgeAt (log : List Entry) (l generation key state : Nat) (now : Instant) : Prop :=
  ∃ e scope event, log[l]? = some e ∧ accepted? e = some (scope, event, now) ∧
      scope.generation = generation ∧ event.key = key ∧
      event.state = state

/- A Down of the key and a later Up. -/
def TapPair (log : List Entry) (generation key down up : Nat) (now : Instant) : Prop :=
  down < up ∧ (∃ t, EdgeAt log down generation key 1 t) ∧ EdgeAt log up generation key 0 now

/- A tap rule fires on the release of a key. -/
def ReleaseFires (a : MatcherAdapter) (scope : Scope) (event : Event) (focusedApp : Option String)
    (now : Instant) (trigger : TapTrigger) : Prop :=
  ∃ code rule, codeOf event.key = some code ∧ rule.trigger = .tap trigger ∧
      (a.observed scope event).matcher.Fires ⟨scope.generation⟩ (normalize code event) focusedApp
        now rule

/-
  The taps of a trigger that end with the Up at `i`: from the first Down on, every entry
  is pure and none stops the count.
-/
def ReleasePure (log : List Entry) (stops : Entry → Bool) (scope : Scope) (event : Event)
    (now : Instant) (i : Nat) (trigger : TapTrigger) : Prop :=
  ∃ first, Spans (TapPair log scope.generation event.key)
        (TapFsm.Near (fromMillis trigger.withinMs))
        trigger.count first i now ∧
      ∀ l e, first ≤ l → l ≤ i → log[l]? = some e → PureEntry scope.generation event.key
            (identity scope event) e ∧
          stops e = false

variable {rules : RuleSet} {log : List Entry} {a b : MatcherAdapter} {scope : Scope} {event : Event}
variable {focusedApp : Option String} {now : Instant} {admitSource : String → Bool}
variable {generation key start : Nat} {code : KeyCode}

/- A transition of the machines is an edge of the log. -/
theorem edgeAt_of_transition {p : Nat} {wasDown isDown : Bool} {mods : Modifiers}
    (hRun : Run step (tapping rules) log a) (hMode : KeepsMode log)
    (hCall : timeline ⟨generation⟩ log start p = some (.transition code wasDown isDown mods now))
    (hKey : codeOf key = some code) :
    p % 3 = 1 ∧ EdgeAt log (start + p / 3) generation key (if isDown then 1 else 0) now := by
  rcases Option.bind_eq_some_iff.mp hCall with ⟨e, hEntry, hSlot⟩
  rcases slot_transition hSlot with ⟨scope, event, focusedApp, admitSource, hOp, hOne, hHears,
    _, hCode, _, hHere, hEdge⟩
  rcases hRun.around hEntry with ⟨front, rest, next, rfl, _, hFront, hStep, _⟩
  have hTracked : e.pre.Tracked := run_tracked hFront (fun e hMem =>
      hMode e (List.mem_append_left _ hMem))
  rw [hOp] at hStep
  rcases answered_of_step hTracked.mode hStep with ⟨result, hOut, hAnswered⟩
  rcases heard_transactions hHears hAnswered with ⟨⟨decision, rfl⟩, _⟩
  refine ⟨hOne, e, scope, event, hEntry, ?_, ?_, codeOf_injective hCode hKey, ?_⟩
  · rw [accepted?, hOp, hOut]
  · cases hHere
    rfl
  · have hState := hears_state hHears
    rw [hEdge]
    by_cases hUp : event.state = 0
    · simp [hUp]
    · simp only [ne_eq, hUp, not_false_eq_true, decide_true, if_true]
      omega

/- Counted taps are pairs of edges, in the same order. -/
theorem spans_pairs {within : Duration} {count first stop : Nat}
    (hRun : Run step (tapping rules) log a) (hMode : KeepsMode log)
    (hKey : codeOf key = some code)
    (hSpans : Spans (TapFsm.TapSpan (timeline ⟨generation⟩ log start) code)
        (TapFsm.Near within) count first stop now) :
    Spans (TapPair log generation key) (TapFsm.Near within)
      count (start + first / 3) (start + stop / 3) now := by
  refine hSpans.map (fun p => start + p / 3) ?_ ?_
  · rintro p q t ⟨hOpens, _, hReleased⟩
    rcases hOpens.pressed with ⟨_, ⟨_, hPressed⟩, _⟩
    rcases edgeAt_of_transition hRun hMode hPressed hKey with ⟨hP, hDown⟩
    rcases edgeAt_of_transition hRun hMode hReleased hKey with ⟨hQ, hUp⟩
    have hBefore := hOpens.before
    exact ⟨by omega, ⟨_, hDown⟩, hUp⟩
  · rintro p q r s t u ⟨_, _, hReleased⟩ ⟨hOpens, _⟩ hOrder
    rcases hOpens.pressed with ⟨_, ⟨_, hPressed⟩, _⟩
    have hQ := (edgeAt_of_transition hRun hMode hReleased hKey).1
    have hR := (edgeAt_of_transition hRun hMode hPressed hKey).1
    omega

/- The points of an entry are its slots. -/
theorem timeline_at {d : DeviceId} {e : Entry} {l s : Nat} (hEntry : log[start + l]? = some e)
    (hSlot : s < 3) : timeline d log start (3 * l + s) = e.pre.slot d e.op s := by
  have hIndex : (3 * l + s) / 3 = l := by omega
  have hRest : (3 * l + s) % 3 = s := by omega
  unfold timeline
  rw [hIndex, hRest, hEntry, Option.bind_some]

/- From a press on that nothing breaks, entries are pure. -/
theorem pure_since {j last : Nat} (hRun : Run step (tapping rules) log a)
    (hMode : KeepsMode log) (hKey : codeOf key = some code)
    (hPressed : (timeline ⟨generation⟩ log start).PressedAlone code j) (hBefore : j < 3 * last + 1)
    (hUnbroken : ∀ p, j < p → p ≤ 3 * last + 1 → ¬ (timeline ⟨generation⟩ log start).Breaks code p)
    (hLength : log.length = start + last + 1)
    (hQuiet : ∀ l e, start ≤ l → log[l]? = some e → interrupts generation e = false) :
    ∃ ident, ∀ l e, start + j / 3 ≤ l → log[l]? = some e → PureEntry generation key ident e := by
  rcases hPressed with ⟨mods, ⟨t, hCall⟩, _⟩
  have hOne : j % 3 = 1 := (edgeAt_of_transition hRun hMode hCall hKey).1
  rcases Option.bind_eq_some_iff.mp hCall with ⟨first, hFirst, hSlot⟩
  rw [hOne] at hSlot
  rcases hRun.around hFirst with ⟨front, rest, next, rfl, hFront, hEarlier, hStep, hRest⟩
  have hTracked : first.pre.Tracked := run_tracked hEarlier (fun e hMem =>
      hMode e (List.mem_append_left _ hMem))
  have hAlone : first.pre.slot ⟨generation⟩ first.op 2 ≠ some .otherKey := by
    rw [← timeline_at hFirst (by decide)]
    intro hOther
    exact hUnbroken (3 * (j / 3) + 2) (by omega) (by omega) (.inl hOther)
  rcases press_within hTracked hStep hSlot hAlone hKey with ⟨ident, hIdent, hWithin, hPure⟩
  have hIndex : ∀ m, (front ++ first :: rest)[start + (j / 3 + 1 + m)]? = rest[m]? := by
    intro m
    rw [List.getElem?_append_right (by omega)]
    have hOffset : start + (j / 3 + 1 + m) - front.length = m + 1 := by omega
    rw [hOffset, List.getElem?_cons_succ]
  have hCalm : ∀ e ∈ rest, Calm generation code e := by
    intro e hMem
    rcases List.mem_iff_getElem?.mp hMem with ⟨m, hEntry⟩
    rw [← hIndex m] at hEntry
    have hBound := (List.getElem?_eq_some_iff.mp hEntry).1
    refine ⟨hMode e (List.mem_of_getElem? hEntry), hQuiet _ e (by omega) hEntry, ?_⟩
    intro s hSlot
    rw [← TapFsm.Calls.breaks_congr (timeline_at hEntry (by omega))]
    exact hUnbroken _ (by omega) (by omega)
  refine ⟨ident, ?_⟩
  intro l e hFrom hEntry
  rcases Nat.eq_or_lt_of_le hFrom with rfl | hLater
  · rw [hFirst] at hEntry
    cases hEntry
    exact hPure
  · refine run_within (step_tracked hTracked (hMode first
          (List.mem_append_right _ List.mem_cons_self))
        hStep)
      hWithin hKey hIdent hRest hCalm e ?_
    have hOffset : start + (j / 3 + 1 + (l - (start + j / 3) - 1)) =
        l := by
      omega
    have hFound := hIndex (l - (start + j / 3) - 1)
    rw [hOffset, hEntry] at hFound
    exact List.mem_of_getElem? hFound.symm

section Replacement

variable {target modifiers : Nat}

/- A replacement is the verdict on a dispatched edge. -/
theorem replaced_of_step (hMode : a.modifierTapRelease = true) (hState : event.state ≤ 1)
    (hStep : a.step (.propose scope event focusedApp now admitSource) = some
          (b, .decision (.ok (.replace target modifiers)))) :
    a.hears event = true ∧ a.changes scope event = true ∧ ∃ code matcher action token,
        codeOf event.key = some code ∧ (a.observed scope event).matcher.dispatchDeviceWithDelivery
                ⟨scope.generation⟩ (normalize code event)
                focusedApp now =
            some (matcher, .replace action, token) := by
  rcases answered_of_step hMode hStep with ⟨result, hOut, hAnswered⟩
  cases hAnswered with
  | unheard _ _ hRefused =>
    cases hOut
    rcases hRefused with hError | hLarge
    · cases hError
    · omega
  | same _ _ | unknown _ _ _ => cases hOut
  | @dispatched code matcher verdict token hHears hChanges hCode hDispatch =>
      refine ⟨hHears, hChanges, code, matcher, ?_⟩
      simp only [Out.decision.injEq, Except.ok.injEq] at hOut
      cases verdict with
      | pass => cases hOut
      | swallow =>
        simp only [decisionOf] at hOut
        split_ifs at hOut
      | replace action => exact ⟨action, token, hCode, hDispatch⟩

/- A key that is no modifier replaces nothing on release. -/
theorem keyUp_of_replace {m : Matcher} {d : DeviceId} {keyEvent : KeyEvent} {action : Action}
    (hActive : m.refreshDeliveryActive = m) (hUp : keyEvent.kind = .keyUp)
    (hReplace : (m.dispatchDevice d keyEvent focusedApp now).2 = .replace action) :
    keyEvent.code.isModifier = true := by
  rw [dispatchDevice_eq_ungated hActive] at hReplace
  rw [dispatchUngated_of_unanswered focusedApp now (unanswered_of_replace hReplace),
    dispatchMatched] at hReplace
  by_contra hKey
  rw [if_neg hKey, dispatchKey] at hReplace
  dsimp only at hReplace
  rw [if_neg (by rw [hUp]; decide)] at hReplace
  cases hReplace

/- A release is replaced by a tap rule only. -/
theorem releaseFires_of_step (hTracked : a.Tracked) (hUp : event.state = 0)
    (hStep : a.step (.propose scope event focusedApp now admitSource) = some
          (b, .decision (.ok (.replace target modifiers)))) :
    ∃ trigger, ReleaseFires a scope event focusedApp now trigger := by
  rcases replaced_of_step hTracked.mode (by omega) hStep with
    ⟨_, _, code, matcher, action, token, hCode, hDispatch⟩
  have hRemembers := hTracked.observed scope event
  have hActive := hRemembers.coherent.active
  have hInner : (a.observed scope event).matcher.step (.dispatchWithDelivery ⟨scope.generation⟩
          (normalize code event) focusedApp now) =
      some (matcher, .verdict (.replace action) token) := by
    simp only [Matcher.step, hDispatch]
  have hReplace : ((a.observed scope event).matcher.dispatchDevice
        ⟨scope.generation⟩ (normalize code event) focusedApp
        now).2 =
      .replace action := by
    rw [dispatchDevice_eq_ungated hActive]
    cases (step_iff hActive).mp hInner with
    | issued hUngated _ _ | unissued hUngated _ => rw [hUngated]
  have hModifier := keyUp_of_replace hActive (by simp [normalize, hUp]) hReplace
  rcases fires_of_replace hReplace with ⟨rule, hFires, _⟩
  cases hFires with
  | hotkey hKey hFound hVerdict =>
    rw [hModifier] at hKey
    cases hKey
  | tap isDown hKey hDown hFound hVerdict =>
    have hTap := (a.observed scope event).matcher.rules.taps_tap rule
        (firedTap_mem hFound).1
    rcases Option.isSome_iff_exists.mp hTap with ⟨trigger, hTrigger⟩
    exact ⟨trigger, code, rule, hCode, Trigger.eq_of_tap? hTrigger,
      Fires.tap isDown hKey hDown hFound hVerdict⟩

/- The taps behind a release that a rule replaces. -/
theorem release_began (last : Entry) {trigger : TapTrigger} (hTracked : a.Tracked)
    (hCounting : Counting scope.generation log a start)
    (hHears : a.hears event = true)
    (hChanges : a.changes scope event = true)
    (hFires : ReleaseFires a scope event focusedApp now trigger)
    (hPre : last.pre = a)
    (hOp : last.op = .propose scope event focusedApp now admitSource) :
    let calls :=
      timeline ⟨scope.generation⟩ (log ++ [last]) start
    let i := 3 * (log.length - start) + 1
    codeOf event.key = some trigger.tap ∧ calls.Tap i trigger.tap now ∧ ∃ j,
        TapFsm.Began (fromMillis trigger.withinMs) calls trigger.tap trigger.count i j := by
  intro calls i
  subst hPre
  have hSlots : ∀ s < 3, calls (3 * (log.length - start) + s) =
      last.pre.slot ⟨scope.generation⟩ last.op s :=
    fun s hSlot => timeline_last last hCounting.within hSlot
  have hZero := hSlots 0 (by decide)
  rw [hOp, slot_zero hHears] at hZero
  have hFed : (last.pre.observed scope event).matcher.Fed ⟨scope.generation⟩ calls i := by
    refine Advanced.fed ?_ (hCounting.fed_append [last])
    have hAdvanced := observed_advanced hTracked.mode scope event ⟨scope.generation⟩
    rw [← hZero] at hAdvanced
    exact hAdvanced
  rcases hFires with ⟨code, rule, hCode, hTrigger, hRule⟩
  rcases fires_tapped (hTracked.observed scope event).coherent.active hFed
      hRule hTrigger with
    ⟨hDispatch, hSame, _, hTapped⟩
  have hTap : code = trigger.tap := hSame
  subst hTap
  have hCall : calls i = some (.transition trigger.tap true false
      (normalize trigger.tap event).mods now) := by
    rw [hSlots 1 (by decide), hOp, slot_one hHears,
      if_pos hChanges, edgeCall, hCode]
    dsimp only
    rw [if_pos rfl]
    exact hDispatch
  have hReported : TapFsm.Reported (fromMillis trigger.withinMs) calls i
      trigger.tap trigger.count := by
    rw [← TapFsm.result_eq_tapped_iff]
    unfold TapFsm.result
    rw [hCall]
    exact hTapped
  refine ⟨hCode, ?_, hReported.began⟩
  rcases hReported.1 with ⟨t, hReleased, hArmed⟩
  have hNow : calls.Released i trigger.tap now := ⟨_, hCall⟩
  exact ⟨hNow, hArmed⟩

/-
  A release that is replaced was counted by a tap rule, and the taps of the rule were made
  alone: accepted edges since the first Down have one identity, no other key went down or
  was held, and nothing that took effect came in between.
-/
theorem replace_pure (hRun : Run step (tapping rules) log a) (hMode : KeepsMode log)
    (hUp : event.state = 0)
    (hStep : a.step (.propose scope event focusedApp now admitSource) = some
          (b, .decision (.ok (.replace target modifiers)))) :
    (∃ trigger, ReleaseFires a scope event focusedApp now trigger) ∧ ∀ trigger,
        ReleaseFires a scope event focusedApp now trigger →
        ReleasePure (log ++ [⟨a, .propose scope event focusedApp now admitSource, .decision
                (.ok (.replace target modifiers))⟩])
          (interrupts scope.generation) scope event now
          log.length trigger := by
  have hTracked := run_tracked hRun hMode
  refine ⟨releaseFires_of_step hTracked hUp hStep, ?_⟩
  intro trigger hFires
  generalize hLast : (⟨a, .propose scope event focusedApp now admitSource,
    .decision (.ok (.replace target modifiers))⟩ : Entry) =
    last
  have hFull : Run step (tapping rules) (log ++ [last])
      b := by
    rw [← hLast]
    exact .snoc hRun hStep
  have hFullMode : KeepsMode (log ++ [last]) := by
    refine forall_mem_snoc.mpr ⟨hMode, ?_⟩
    rw [← hLast]
    simp
  rcases replaced_of_step hTracked.mode (by omega) hStep with ⟨hHears, hChanges, _⟩
  rcases run_counting hRun hMode scope.generation with ⟨start, hCounting⟩
  have hWithin := hCounting.within
  rcases release_began last hTracked hCounting hHears
      hChanges hFires (by rw [← hLast]) (by rw [← hLast]) with
    ⟨hKey, hTap, j, hBegan⟩
  rcases hBegan.unbroken with ⟨hBefore, hUnbroken⟩
  have hPressed : (timeline ⟨scope.generation⟩ (log ++ [last])
      start).PressedAlone trigger.tap j := by
    rcases hBegan with ⟨_, _, _, hOpens⟩
    exact hOpens.pressed
  have hQuiet : ∀ l e, start ≤ l → (log ++ [last])[l]? = some e →
      interrupts scope.generation e = false := by
    intro l e hFrom hEntry
    rcases entry_snoc hEntry with hOld | ⟨_, rfl⟩
    · exact hCounting.uninterrupted l e hFrom hOld
    · rw [← hLast]
      rfl
  rcases pure_since hFull hFullMode hKey hPressed hBefore (fun p hAfter hUntil => by
        rcases Nat.eq_or_lt_of_le hUntil with rfl | hLess
        · exact hTap.unbroken
        · exact hUnbroken p hAfter hLess)
      (by
        rw [List.length_append, List.length_singleton]
        omega)
      hQuiet with
    ⟨ident, hPure⟩
  have hIndex : start + (3 * (log.length - start) + 1) / 3 =
      log.length := by
    omega
  -- The release itself shows which identity it is.
  have hOwn : identity scope event = ident := by
    refine
      (hPure log.length last (by omega)
        List.getElem?_concat_length scope event now ?_
        (by omega)).1
    rw [← hLast]
    rfl
  refine ⟨start + j / 3, ?_, ?_⟩
  · have hSpans := spans_pairs hFull hFullMode hKey (hBegan.spans hTap)
    rw [hIndex] at hSpans
    exact hSpans
  · intro l e hFrom _ hEntry
    rw [hOwn]
    exact ⟨hPure l e hFrom hEntry, hQuiet l e (by omega) hEntry⟩

/- The right Option of keyboard 1 goes down, and up. -/
def optionEdge (state : Nat) : Event := ⟨100, state, 0, 0, 3, 0, ""⟩

def proposeOption (state : Nat) (now : Instant) : Op :=
  .propose ⟨1, 0, 1, 0, 5⟩ (optionEdge state) none now (fun _ => false)

/- Everything but the last release of two taps. -/
def optionTapped : List Op := [proposeOption 1 0, proposeOption 0 100, proposeOption 1 200]

/- An arming that is refused comes before the last release. -/
def optionTappedRefused : List Op := optionTapped ++ [.awaitReconciliation 0]

/- The decision of a proposal that succeeds. -/
def Out.decision? : Out → Option Decision
  | .decision (.ok answer) => some answer
  | _ => none

theorem step_of_decision? {op : Op} {decision : Decision}
    (hDecision : ((a.step op).bind (fun next => next.2.decision?)) = some decision) :
    ∃ b, a.step op = some (b, .decision (.ok decision)) := by
  rcases Option.bind_eq_some_iff.mp hDecision with ⟨⟨b, out⟩, hStep, hOut⟩
  refine ⟨b, ?_⟩
  rw [hStep]
  dsimp only at hOut
  unfold Out.decision? at hOut
  split at hOut
  · cases hOut
    rfl
  · cases hOut

theorem keepsMode_entriesOf {ops : List Op} (hOps : ∀ op ∈ ops, op ≠ .setModifierTapRelease false) :
    KeepsMode (entriesOf step (tapping rules) ops) :=
  fun e hMem => hOps e.op (op_mem_of_entriesOf hMem)

theorem optionTapped_keepsMode : ∀ op ∈ optionTappedRefused, op ≠ .setModifierTapRelease false := by
  simp [optionTappedRefused, optionTapped, proposeOption]

theorem replace_pure_optionTapped :
    let start := tapping tapAndKey
    let log := entriesOf step start optionTapped
    let a := lastOf step start optionTapped
    ∃ trigger, ReleaseFires a ⟨1, 0, 1, 0, 5⟩ (optionEdge 0) none 300 trigger ∧ ReleasePure (log ++
            [⟨a, proposeOption 0 300, .decision (.ok (.replace 1 0))⟩])
          (interrupts 1) ⟨1, 0, 1, 0, 5⟩ (optionEdge 0) 300
          log.length trigger := by
  intro start log a
  have hStep : ((a.step (proposeOption 0 300)).bind (fun next => next.2.decision?)) =
      some (.replace 1 0) := by
    decide +kernel
  rcases step_of_decision? hStep with ⟨b, hNext⟩
  rcases replace_pure (Run.of_isSome (by decide +kernel))
      (keepsMode_entriesOf (fun op hMem =>
        optionTapped_keepsMode op (List.mem_append_left _ hMem)))
      rfl hNext with
    ⟨⟨trigger, hFires⟩, hPure⟩
  exact ⟨trigger, hFires, hPure trigger hFires⟩

/-
  The refused arming stands between the taps, so a window that no such call may enter is
  not the window of the rule.
-/
theorem refusal_within_taps :
    let start := tapping tapAndKey
    let log :=
      entriesOf step start optionTappedRefused
    let a := lastOf step start optionTappedRefused
    Run step start log a ∧ KeepsMode log ∧ (∃ b, a.step (proposeOption 0 300) =
          some (b, .decision (.ok (.replace 1 0)))) ∧
      ReleaseFires a ⟨1, 0, 1, 0, 5⟩ (optionEdge 0) none 300 ⟨.rightAlt, 2, 600⟩ ∧
      ¬ ReleasePure (log ++ [⟨a, proposeOption 0 300, .decision (.ok (.replace 1 0))⟩])
          (fun e => e.op.interrupts 1) ⟨1, 0, 1, 0, 5⟩
          (optionEdge 0) 300 log.length
          ⟨.rightAlt, 2, 600⟩ := by
  intro start log a
  refine
    ⟨Run.of_isSome (by decide +kernel),
      keepsMode_entriesOf optionTapped_keepsMode,
      step_of_decision? (by decide +kernel), ?_, ?_⟩
  · refine ⟨.rightAlt, tapRule, by decide +kernel, rfl, ?_⟩
    refine .tap false ?_ ?_ ?_ ?_ <;>
      decide +kernel
  · rintro ⟨first, hSpans, hWindow⟩
    have hLength : log.length = 4 := by decide +kernel
    have hBefore : first < log.length := hSpans.lt (fun _ _ _ hPair => hPair.1)
    have hRefused : ((log[3]?).map (fun e => e.op.interrupts 1)) = some true := by decide +kernel
    rcases Option.map_eq_some_iff.mp hRefused with ⟨e, hEntry, hStops⟩
    have hQuiet : e.op.interrupts 1 = false :=
      (hWindow 3 e (by omega) (by omega) (by
        rw [List.getElem?_append_left (by omega)]
        exact hEntry)).2
    rw [hStops] at hQuiet
    cases hQuiet

end Replacement

end MatcherAdapter

end Sledge.Linux
