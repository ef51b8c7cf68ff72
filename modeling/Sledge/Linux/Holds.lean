import Sledge.Core.TapPurity
import Sledge.Linux.Outstanding

/-
  The keys held, in tap-release mode.

  The transactions track every key that went down, and the
  matcher the presses it owns and the modifiers it saw go
  down.  In tap-release mode both see the same edges, so what
  the matcher remembers of a press is always a key that the
  transactions hold.

  Main results:
    * `MatcherAdapter.propose_tracked`
    * `MatcherAdapter.step_tracked`
    * `MatcherAdapter.run_tracked`
-/

-----
-- What The Matcher Remembers Of A Press

namespace Sledge

namespace Core.Matcher

/- Nothing new is remembered of any press. -/
structure Shrinks (m m' : Matcher) : Prop where
  owner : ∀ p, m'.owner p ≠ .free → m.owner p ≠ .free
  held : ∀ p, m'.modifierState.get? p = some true → m.modifierState.get? p = some true

variable {m : Matcher}

theorem Shrinks.same {m' : Matcher} (hSwallowed : m'.swallowedDowns = m.swallowedDowns)
    (hForwarded : m'.forwardedDowns = m.forwardedDowns) (hHeld : m'.modifierState = m.modifierState) :
    Shrinks m m' where
  owner := by
    intro p
    unfold Matcher.owner
    rw [hSwallowed, hForwarded]
    exact id
  held := by
    intro p
    rw [hHeld]
    exact id

theorem reportDelivery_shrinks (hCoherent : m.Coherent) (token : ReplacementToken)
    (delivery : ReplacementDelivery) : Shrinks m (m.reportDelivery token delivery).1 where
  owner := by
    intro p hOwned hFree
    have hHolding := congrArg Holding.owner (reportDelivery_holding hCoherent token delivery p)
    rw [holding_owner] at hHolding
    refine hOwned ?_
    rw [hHolding]
    split_ifs
    · simp [Holding.settled, hFree]
    · exact hFree
  held := by
    intro p hHeld
    unfold reportDelivery at hHeld
    dsimp only at hHeld
    split_ifs at hHeld <;> exact hHeld

theorem settleDeviceEvent_shrinks (hCoherent : m.Coherent) (device : DeviceId) (event : KeyEvent) :
    Shrinks m (m.settleDeviceEvent device event) where
  owner := by
    intro p hOwned hFree
    have hStep : m.step (.settle device event) =
        some (m.settleDeviceEvent device event, .done) := rfl
    have hHolding := congrArg Holding.owner (step_holding hCoherent hStep p)
    rw [holding_owner] at hHolding
    refine hOwned ?_
    rw [hHolding]
    simp only [Holding.after]
    split_ifs
    · rfl
    · exact hFree
  held := by
    intro p hHeld
    unfold settleDeviceEvent at hHeld
    split_ifs at hHeld
    · exact hHeld
    · simp only [refreshDeliveryActive, Dict.get?_erase] at hHeld
      split_ifs at hHeld
      exact hHeld

/- What a dispatch with delivery may add for its own press. -/
theorem dispatchWithDelivery_modifierState {m' : Matcher} {device : DeviceId} {event : KeyEvent}
    {focusedApp : Option String} {now : Instant} {verdict : Verdict}
    {token : Option ReplacementToken} (hCoherent : m.Coherent) (hSized : m.Sized)
    (hDispatch : m.dispatchDeviceWithDelivery device event focusedApp now =
        some (m', verdict, token)) : m'.modifierState = m.dispatchModifiers device event := by
  have hDispatched : Dispatched m _ device event now :=
    dispatchUngated_dispatched focusedApp now (hSized device)
  have hStep : m.step (.dispatchWithDelivery device event focusedApp now) =
      some (m', .verdict verdict token) := by
    simp only [step, hDispatch]
  cases (step_iff hCoherent.active).mp hStep with
  | unissued hInner _ | issued hInner _ _ =>
    rw [hInner] at hDispatched
    exact hDispatched.modifierState

end Core.Matcher

-----
-- Keys That Are Held

namespace Linux

open Core Matcher

namespace MatcherAdapter

/- The transactions hold the key of a press. -/
def HeldKey (downs : Finset (Nat × Nat)) (p : Press) : Prop :=
  ∃ key, codeOf key = some p.2 ∧ (p.1.id, key) ∈ downs

/- What the matcher remembers, the transactions hold. -/
structure Tracked (a : MatcherAdapter) : Prop where
  coherent : a.matcher.Coherent
  sized : a.matcher.Sized
  mode : a.modifierTapRelease = true
  modifiers : ∀ p : Press, p.2.isModifier = true → a.matcher.owner p = .free
  owned : ∀ p, a.matcher.owner p ≠ .free → HeldKey a.transactions.physicalDowns p
  held : ∀ p, a.matcher.modifierState.get? p = some true → p.2.isModifier = true ∧
        HeldKey a.transactions.physicalDowns p

variable {a b : MatcherAdapter} {op : Op} {out : Out} {scope : Scope} {event : Event}

variable {p : Press}

theorem HeldKey.mono {downs downs' : Finset (Nat × Nat)} (hHeld : HeldKey downs p)
    (hMono : downs ⊆ downs') : HeldKey downs' p := by
  rcases hHeld with ⟨key, hCode, hMem⟩
  exact ⟨key, hCode, hMono hMem⟩

/- The keys held after the bookkeeping of an event. -/
theorem observed_downs (hMode : a.modifierTapRelease = true) (hAsked : a.Asked event) :
    (a.observed scope event).transactions.physicalDowns = if event.state = 1 then
        insert (scope.generation, event.key) a.transactions.physicalDowns
      else
        a.transactions.physicalDowns.erase (scope.generation, event.key) := by
  unfold observed observePhysical
  rw [if_pos hMode]
  dsimp only
  rcases hAsked with hDown | ⟨hUp, _⟩
  · simp [hDown]
  · simp [hUp]

theorem observed_downs_same (hSame : (a.observePhysical scope event).2 = false) :
    (a.observed scope event).transactions.physicalDowns = a.transactions.physicalDowns := by
  unfold observed
  split_ifs with hMode
  · unfold observePhysical at hSame ⊢
    dsimp only at hSame ⊢
    split at hSame
    · exact Finset.insert_eq_self.mpr (by simpa using hSame)
    · exact Finset.erase_eq_of_notMem (by simpa using hSame)
    · rfl
  · rfl

theorem observed_shrinks (scope : Scope) (event : Event) :
    Shrinks a.matcher (a.observed scope event).matcher := by
  rcases a.observed_matcher scope event with hSame | hTaps
  · rw [hSame]
    exact .same rfl rfl rfl
  · rw [hTaps]
    exact .same rfl rfl rfl

/- What the matcher's own operations keep. -/
theorem step_matcher (hCoherent : a.matcher.Coherent) (hSized : a.matcher.Sized)
    (hModifiers : ∀ p : Press, p.2.isModifier = true → a.matcher.owner p = .free)
    (hStep : a.step op = some (b, out)) :
    b.matcher.Coherent ∧ b.matcher.Sized ∧ ∀ p : Press, p.2.isModifier = true →
        b.matcher.owner p = .free := by
  rcases step_calls hStep with ⟨trace, hRun, _⟩
  let Kept (m : Matcher) : Prop := m.Coherent ∧ m.Sized ∧
      ∀ p : Press, p.2.isModifier = true → m.owner p = .free
  have hStart : Kept a.matcher := ⟨hCoherent, hSized, hModifiers⟩
  refine (hRun.invariant hStart ?_ : Kept b.matcher)
  rintro m call m' answer ⟨hBefore, hCount, hFree⟩ hNext
  refine ⟨Matcher.step_coherent hBefore hNext, Matcher.step_sized hBefore.active hCount hNext, ?_⟩
  intro p hModifier
  exact step_modifier_free hBefore hModifier (hFree p hModifier) hNext

/- An operation that only forgets keeps what is tracked. -/
theorem Tracked.shrink (hTracked : a.Tracked) (hStep : a.step op = some (b, out))
    (hMode : b.modifierTapRelease = true) (hShrinks : Shrinks a.matcher b.matcher)
    (hDowns : ∀ p, HeldKey a.transactions.physicalDowns p → HeldKey b.transactions.physicalDowns p) :
    b.Tracked := by
  rcases step_matcher hTracked.coherent hTracked.sized hTracked.modifiers hStep with
    ⟨hCoherent, hSized, hModifiers⟩
  refine ⟨hCoherent, hSized, hMode, hModifiers, ?_, ?_⟩
  · intro p hOwned
    exact hDowns p (hTracked.owned p (hShrinks.owner p hOwned))
  · intro p hHeld
    rcases hTracked.held p (hShrinks.held p hHeld) with ⟨hModifier, hKey⟩
    exact ⟨hModifier, hDowns p hKey⟩

theorem HeldKey.erase {downs : Finset (Nat × Nat)} {generation key : Nat} (hHeld : HeldKey downs p)
    (hOther : ∀ code, codeOf key = some code → p ≠ (⟨generation⟩, code)) :
    HeldKey (downs.erase (generation, key)) p := by
  rcases hHeld with ⟨own, hCode, hMem⟩
  refine ⟨own, hCode, Finset.mem_erase.mpr ⟨?_, hMem⟩⟩
  intro hSame
  cases hSame
  exact hOther p.2 hCode rfl

section Dispatch

variable {m m' : Matcher} {code : KeyCode} {focusedApp : Option String} {now : Instant}
variable {verdict : Verdict} {token : Option ReplacementToken}

/-
  What is remembered of a press after a dispatched edge was there before, or is about the
  press of a key going down.
-/
def Justified (scope : Scope) (event : Event) (code : KeyCode) (p : Press) (before : Prop) : Prop :=
  (before ∧ p ≠ (⟨scope.generation⟩, code)) ∨ (p = (⟨scope.generation⟩, code) ∧ event.state ≠ 0)

theorem dispatched_owner (hCoherent : m.Coherent)
    (hDispatch : m.dispatchDeviceWithDelivery ⟨scope.generation⟩
          (normalize code event) focusedApp now = some (m', verdict, token))
    (hOwned : m'.owner p ≠ .free) : Justified scope event code p (m.owner p ≠ .free) := by
  have hStep : m.step (.dispatchWithDelivery ⟨scope.generation⟩
          (normalize code event) focusedApp now) =
      some (m', .verdict verdict token) := by
    simp only [Matcher.step, hDispatch]
  have hHolding := congrArg Holding.owner (step_holding hCoherent hStep p)
  rw [holding_owner] at hHolding
  rw [hHolding] at hOwned
  simp only [Holding.after] at hOwned
  by_cases hHere : p = (⟨scope.generation⟩, (normalize code event).code)
  · right
    rw [if_pos hHere] at hOwned
    refine ⟨hHere, ?_⟩
    intro hUp
    refine hOwned ?_
    simp [Holding.dispatched, normalize, hUp]
  · left
    rw [if_neg hHere] at hOwned
    exact ⟨hOwned, hHere⟩

theorem dispatched_modifier (hCoherent : m.Coherent) (hSized : m.Sized)
    (hModifiers : ∀ p : Press, p.2.isModifier = true → m.owner p = .free)
    (hOnly : ∀ p, m.modifierState.get? p = some true → p.2.isModifier = true)
    (hDispatch : m.dispatchDeviceWithDelivery ⟨scope.generation⟩
          (normalize code event) focusedApp now = some (m', verdict, token))
    (hHeld : m'.modifierState.get? p = some true) :
    p.2.isModifier = true ∧ Justified scope event code p (m.modifierState.get? p = some true) := by
  rw [dispatchWithDelivery_modifierState hCoherent hSized hDispatch] at hHeld
  unfold dispatchModifiers matchedModifiers at hHeld
  split_ifs at hHeld with hAnswered hModifier
  · -- The owner answered, so the key is not a modifier.
    have hKey := hOnly p hHeld
    refine ⟨hKey, .inl ⟨hHeld, ?_⟩⟩
    rintro rfl
    have hFree := (owner_eq_free_iff m _).mp (hModifiers _ hKey)
    rcases (of_decide_eq_true hAnswered).2 with hSwallowed | hForwarded
    · exact hFree.1 hSwallowed
    · exact hFree.2 hForwarded
  · by_cases hUp : event.state = 0
    · have hDown : isDownAfter (normalize code event) = some false := by
        simp [isDownAfter, normalize, hUp]
      rw [hDown] at hHeld
      dsimp only at hHeld
      rw [Dict.get?_insert] at hHeld
      split_ifs at hHeld with hHere
      · cases hHeld
      · exact ⟨hOnly p hHeld, .inl ⟨hHeld, hHere⟩⟩
    · have hDown : isDownAfter (normalize code event) = some true := by
        simp [isDownAfter, normalize, hUp]
      rw [hDown] at hHeld
      dsimp only at hHeld
      rw [Dict.get?_insert] at hHeld
      split_ifs at hHeld with hHere
      · refine ⟨?_, .inr ⟨hHere, hUp⟩⟩
        rw [hHere]
        exact hModifier
      · exact ⟨hOnly p hHeld, .inl ⟨hHeld, hHere⟩⟩
  · have hKey := hOnly p hHeld
    refine ⟨hKey, .inl ⟨hHeld, ?_⟩⟩
    rintro rfl
    exact hModifier hKey

end Dispatch

/- A dispatched edge is in the keys it justifies. -/
theorem Justified.heldKey {code : KeyCode} {before : Prop} (hMode : a.modifierTapRelease = true)
    (hAsked : a.Asked event) (hCode : codeOf event.key = some code)
    (hJustified : Justified scope event code p before)
    (hBefore : before → HeldKey a.transactions.physicalDowns p) :
    HeldKey (a.observed scope event).transactions.physicalDowns p := by
  rw [observed_downs hMode hAsked]
  rcases hJustified with ⟨hOld, hOther⟩ | ⟨rfl, hDown⟩
  · split_ifs
    · exact (hBefore hOld).mono (Finset.subset_insert _ _)
    · refine (hBefore hOld).erase ?_
      intro other hSame
      rw [hCode] at hSame
      cases hSame
      exact hOther
  · have hState : event.state = 1 := by
      rcases hAsked with hOne | ⟨hUp, _⟩
      · exact hOne
      · exact absurd hUp hDown
    rw [if_pos hState]
    exact ⟨event.key, hCode, Finset.mem_insert_self _ _⟩

/- What the observed matcher keeps of the tracking. -/
structure Remembers (m : Matcher) : Prop where
  coherent : m.Coherent
  sized : m.Sized
  modifiers : ∀ p : Press, p.2.isModifier = true → m.owner p = .free

theorem Tracked.observed (hTracked : a.Tracked) (scope : Scope) (event : Event) :
    Remembers (a.observed scope event).matcher := by
  rcases a.observed_matcher scope event with hSame | hTaps
  · rw [hSame]
    exact ⟨hTracked.coherent, hTracked.sized, hTracked.modifiers⟩
  · have hStep : a.matcher.step .disqualifyTaps = some (a.matcher.disqualifyTaps, .done) := rfl
    rw [hTaps]
    exact ⟨Matcher.step_coherent hTracked.coherent hStep,
      step_sized hTracked.coherent.active hTracked.sized hStep,
      hTracked.modifiers⟩

theorem propose_tracked {focusedApp : Option String} {now : Instant} {admitSource : String → Bool}
    {result : Except IoError Decision} (hTracked : a.Tracked)
    (hStep : a.step (.propose scope event focusedApp now admitSource) = some (b, .decision result))
    (hProposed : Proposed a scope event focusedApp now admitSource b result) : b.Tracked := by
  have hMode := hTracked.mode
  have hObserved : (a.observed scope event).modifierTapRelease = true := by
    rcases a.observed_transactions scope event with ⟨observation, downs, hSame⟩
    unfold modifierTapRelease
    rw [hSame]
    exact hMode
  have hMemory := observed_shrinks (a := a) scope event
  cases hProposed with
  | refused hClosed | skipped hOpen hState => exact hTracked
  | repeated hOpen hAsked hTap hSame =>
    refine hTracked.shrink hStep hObserved hMemory ?_
    rw [observed_downs_same hSame]
    exact fun _ => id
  | unknown hOpen hAsked hChanges hCode =>
    refine hTracked.shrink hStep hObserved ?_ ?_
    · exact ⟨hMemory.owner, hMemory.held⟩
    · intro p hHeld
      dsimp only
      rw [observed_downs hMode hAsked]
      split_ifs
      · exact hHeld.mono (Finset.subset_insert _ _)
      · refine hHeld.erase ?_
        intro code hSome
        rw [hCode] at hSome
        cases hSome
  | @dispatched code matcher verdict token hOpen hAsked hChanges hCode hDispatch =>
      rcases step_matcher hTracked.coherent hTracked.sized hTracked.modifiers hStep with
        ⟨hCoherent, hSized, hModifiers⟩
      have hBefore := hTracked.observed scope event
      have hSpoiled : Shrinks matcher (a.spoiled matcher code scope event) := by
        unfold spoiled
        split_ifs <;> exact Shrinks.same rfl rfl rfl
      refine ⟨hCoherent, hSized, hObserved, hModifiers, ?_, ?_⟩
      · intro p hOwned
        refine Justified.heldKey hMode hAsked hCode (dispatched_owner hBefore.coherent hDispatch
            (hSpoiled.owner p hOwned))
          ?_
        intro hOld
        exact hTracked.owned p (hMemory.owner p hOld)
      · intro p hHeld
        rcases dispatched_modifier hBefore.coherent hBefore.sized hBefore.modifiers (fun q hOld =>
              (hTracked.held q (hMemory.held q hOld)).1)
            hDispatch (hSpoiled.held p hHeld) with
          ⟨hModifier, hJustified⟩
        refine ⟨hModifier, hJustified.heldKey hMode hAsked hCode ?_⟩
        intro hOld
        exact (hTracked.held p (hMemory.held p hOld)).2

theorem HeldKey.retired {downs : Finset (Nat × Nat)} {generation : Nat} (hHeld : HeldKey downs p)
    (hOther : p.1 ≠ ⟨generation⟩) :
    HeldKey (downs.filter (fun press => press.1 ≠ generation)) p := by
  rcases hHeld with ⟨key, hCode, hMem⟩
  refine ⟨key, hCode, Finset.mem_filter.mpr ⟨hMem, ?_⟩⟩
  intro hSame
  exact hOther (by rw [← hSame])

theorem step_tracked (hTracked : a.Tracked) (hMode : op ≠ .setModifierTapRelease false)
    (hStep : a.step op = some (b, out)) : b.Tracked := by
  cases stepped_of_step hStep with
  | setModifierTapRelease enabled =>
    cases enabled with
    | false => exact absurd rfl hMode
    | true => exact hTracked.shrink hStep rfl (.same rfl rfl rfl) (fun _ => id)
  | propose hProposed => exact propose_tracked hTracked hStep hProposed
  | refused hRefused => exact hTracked
  | reported report settled hPending hScope =>
    exact hTracked.shrink hStep hTracked.mode
      (reportDelivery_shrinks hTracked.coherent _ _) (fun _ => id)
  | settled outcome hState hGlobal hCode =>
    exact hTracked.shrink hStep hTracked.mode
      (settleDeviceEvent_shrinks hTracked.coherent _ _) (fun _ => id)
  | distrusted scope event report | armed op nonce hOp | observed op hOp | disconnected op hOp
  | invalidateSpeculation | swapRules rules =>
    exact hTracked.shrink hStep hTracked.mode (.same rfl rfl rfl) (fun _ => id)
  | reconciled scope hGlobal hNonce =>
    rcases step_matcher hTracked.coherent hTracked.sized hTracked.modifiers hStep with
      ⟨hCoherent, hSized, hModifiers⟩
    refine ⟨hCoherent, hSized, hTracked.mode, hModifiers, ?_, ?_⟩
    · intro p hOwned
      exact absurd rfl hOwned
    · intro p hHeld
      cases hHeld
  | @retired generation lost hGlobal hLost =>
    -- The keyboard is forgotten on both sides.
    rcases step_matcher hTracked.coherent hTracked.sized hTracked.modifiers hStep with
      ⟨hCoherent, hSized, hModifiers⟩
    refine ⟨hCoherent, hSized, hTracked.mode, hModifiers, ?_, ?_⟩
    · intro p hOwned
      have hReset : a.matcher.step (.resetDevice ⟨generation⟩) =
          some (a.matcher.resetDevice ⟨generation⟩, .done) :=
        rfl
      have hHolding := congrArg Holding.owner (step_holding hTracked.coherent hReset p)
      rw [holding_owner] at hHolding
      dsimp only at hOwned
      rw [hHolding] at hOwned
      simp only [Holding.after] at hOwned
      split_ifs at hOwned with hHere
      · exact absurd rfl hOwned
      · exact (hTracked.owned p hOwned).retired hHere
    · intro p hHeld
      simp only [resetDevice, refreshDeliveryActive, Dict.get?_retain,
        Option.filter_eq_some_iff, bne_iff_ne] at hHeld
      rcases hTracked.held p hHeld.1 with ⟨hModifier, hKey⟩
      exact ⟨hModifier, hKey.retired hHeld.2⟩

/- A fresh pair in tap-release mode. -/
def tapping (rules : RuleSet) : MatcherAdapter :=
  (new (Matcher.new rules)).setModifierTapRelease true

theorem tapping_tracked (rules : RuleSet) : (tapping rules).Tracked where
  coherent := Matcher.new_coherent rules
  sized := Matcher.new_sized rules
  mode := rfl
  modifiers := fun _ _ => rfl
  owned := fun _ hOwned => absurd rfl hOwned
  held := fun _ hHeld => by cases hHeld

/- The mode is never switched off. -/
def KeepsMode (log : List Entry) : Prop := ∀ e ∈ log, e.op ≠ .setModifierTapRelease false

theorem run_tracked {rules : RuleSet} {log : List Entry}
    (hRun : Transition.Run step (tapping rules) log a) (hMode : KeepsMode log) : a.Tracked :=
  hRun.invariant_of (tapping_tracked rules) (fun _ _ _ _ hBefore hKeeps hNext =>
      step_tracked hBefore hKeeps hNext)
    hMode

end MatcherAdapter

end Linux

end Sledge
