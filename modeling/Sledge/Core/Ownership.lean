import Sledge.Core.Matcher

/-
  What one operation of the matcher does to one press.

  `Holding` is the abstract record of a press: who owns it
  and which delivery token is outstanding.  `Holding.after`
  says how one public operation changes it.  The matcher
  refines this record press by press, in every coherent
  state, and coherence is kept by every operation.

  Main results:
    * `Matcher.dispatchDevice_eq_ungated`
    * `Matcher.step_iff`
    * `Matcher.step_coherent`
    * `Matcher.step_holding`
-/

-----
-- Coherent Delivery State

namespace Sledge.Core

namespace Matcher

/-
  The joint invariant of the ownership sets, the outstanding tokens and the cached flag.
-/
structure Coherent (m : Matcher) : Prop where
  active : m.refreshDeliveryActive = m
  disjoint : Disjoint m.swallowedDowns m.forwardedDowns
  bounded : ∀ p g, m.pendingDeliveries.get? p = some g → g ≤ m.deliveryGeneration

theorem new_coherent (rules : RuleSet) : (new rules).Coherent where
  active := by
    simp [refreshDeliveryActive, new]
  disjoint := by
    simp [new]
  bounded := by
    intro p g hPending
    simp [new] at hPending

variable {m : Matcher}

/- An inactive flag means nothing is pending or forwarded. -/
theorem empty_of_inactive (hActive : m.refreshDeliveryActive = m)
    (hInactive : m.deliveryActive = false) :
    (∀ p, m.pendingDeliveries.get? p = none) ∧ m.forwardedDowns = ∅ := by
  rw [← hActive] at hInactive
  simp only [refreshDeliveryActive, Bool.or_eq_false_iff, Bool.not_eq_false',
    decide_eq_false_iff_not, not_not] at hInactive
  exact ⟨(Dict.isEmpty_iff _).mp hInactive.1, hInactive.2⟩

/- A press whose outstanding token an event retires. -/
def retires (m : Matcher) (press : Press) (kind : EventKind) : Prop :=
  kind ≠ .keyDown ∨ (press ∉ m.swallowedDowns ∧ press ∉ m.forwardedDowns)

instance (m : Matcher) (press : Press) (kind : EventKind) : Decidable (m.retires press kind) :=
  inferInstanceAs (Decidable (_ ∨ _))

theorem reconcile_fst (m : Matcher) (press : Press) (kind : EventKind) :
    (m.reconcileDeliveryEvent press kind).1 =
      { m with
        forwardedDowns := if kind = EventKind.keyUp then
            m.forwardedDowns.erase press
          else m.forwardedDowns
        pendingDeliveries := if m.retires press kind then
            m.pendingDeliveries.erase press
          else m.pendingDeliveries }.refreshDeliveryActive := by
  unfold reconcileDeliveryEvent retires
  cases kind with
  | keyDown =>
    simp only [ne_eq, not_true, false_or]
    split <;> rfl
  | keyUp | modifiersChanged => simp

theorem reconcile_snd (m : Matcher) (press : Press) (kind : EventKind) :
    (m.reconcileDeliveryEvent press kind).2 = decide (kind ≠ .modifiersChanged ∧
        press ∈ m.forwardedDowns) := by
  unfold reconcileDeliveryEvent
  cases kind with
  | keyDown =>
    simp only [ne_eq, not_true, false_or]
    split <;> simp
  | keyUp | modifiersChanged => simp

/- With nothing to reconcile the event changes nothing. -/
theorem reconcile_of_inactive (hActive : m.refreshDeliveryActive = m)
    (hInactive : m.deliveryActive = false) (press : Press) (kind : EventKind) :
    m.reconcileDeliveryEvent press kind = (m, false) := by
  rcases empty_of_inactive hActive hInactive with ⟨hPending, hForwarded⟩
  have hErase : m.pendingDeliveries.erase press =
      m.pendingDeliveries := by
    apply Dict.ext_get?
    intro p
    simp [hPending]
  have hNone : m.forwardedDowns.erase press =
      m.forwardedDowns := by
    simp [hForwarded]
  apply Prod.ext
  · rw [reconcile_fst, hErase, hNone]
    simpa using hActive
  · simp [reconcile_snd, hForwarded]

/- Dispatch with the reconciliation always made. -/
def dispatchUngated (m : Matcher) (device : DeviceId) (event : KeyEvent)
    (focusedApp : Option String) (now : Instant) : Matcher × Verdict :=
  let (m, forwarded) := m.reconcileDeliveryEvent (device, event.code) event.kind
  if forwarded then (m, .pass)
  else m.dispatchOwned device event focusedApp now

/- The cached flag only skips work that changes nothing. -/
theorem dispatchDevice_eq_ungated (hActive : m.refreshDeliveryActive = m) (device : DeviceId)
    (event : KeyEvent) (focusedApp : Option String) (now : Instant) :
    m.dispatchDevice device event focusedApp now = m.dispatchUngated device event focusedApp now := by
  unfold dispatchDevice dispatchUngated
  cases hFlag : m.deliveryActive with
  | true => rfl
  | false =>
    rw [reconcile_of_inactive hActive hFlag]
    rfl

end Matcher

-----
-- What Rule Matching Leaves Alone

namespace Verdict

def isReplace : Verdict → Bool
  | .replace _ => true
  | _ => false

end Verdict

namespace Matcher

theorem dispatchOwned_frame (m : Matcher) (device : DeviceId) (event : KeyEvent)
    (focusedApp : Option String) (now : Instant) :
    (m.dispatchOwned device event focusedApp now).1 =
      { m with
        tapFsms := (m.dispatchOwned device event focusedApp now).1.tapFsms
        modifierState := (m.dispatchOwned device event focusedApp now).1.modifierState
        swallowedDowns := (m.dispatchOwned device event focusedApp now).1.swallowedDowns } := by
  unfold dispatchOwned dispatchModifier dispatchKey
  simp only
  repeat' split
  all_goals rfl

/- Only a completed release fires a tap rule. -/
theorem feedTaps_of_not_release (event : KeyEvent) {wasDown isDown : Bool}
    (focusedApp : Option String) (now : Instant) (hDown : isDown = true) (rules : List Rule)
    (fsms : List TapFsm) : (feedTaps event wasDown isDown focusedApp now rules fsms).2 = none := by
  induction rules generalizing fsms with
  | nil => simp [feedTaps]
  | cons rule rules ih =>
    cases fsms with
    | nil => simp [feedTaps]
    | cons fsm fsms =>
      have hResult : (fsm.onTransition event.code wasDown isDown event.mods now).2 = .none := by
        subst hDown
        cases wasDown <;> rfl
      simp [feedTaps, hResult, tapAction, ih fsms]

theorem dispatchModifier_swallowedDowns (m : Matcher) (device : DeviceId) (event : KeyEvent)
    (focusedApp : Option String) (now : Instant) :
    (m.dispatchModifier device event focusedApp now).1.swallowedDowns = m.swallowedDowns := by
  unfold dispatchModifier
  simp only
  repeat' split
  all_goals rfl

theorem dispatchModifier_of_isDown (m : Matcher) (device : DeviceId) (event : KeyEvent)
    (focusedApp : Option String) (now : Instant) (hDown : isDownAfter event = some true) :
    (m.dispatchModifier device event focusedApp now).2 = .pass := by
  unfold dispatchModifier
  simp only [hDown]
  split
  · rfl
  · rw [feedTaps_of_not_release event focusedApp now rfl]

/- The hotkey branch decides by the first firing rule. -/
theorem dispatchKey_verdict (m : Matcher) (device : DeviceId) (event : KeyEvent)
    (focusedApp : Option String) :
    (m.dispatchKey device event focusedApp).2 = if event.kind = .keyDown then
        match m.rules.findHotkey event focusedApp with
        | some rule => .replace rule.action
        | none => .pass
      else .pass := by
  unfold dispatchKey
  simp only
  split
  · split <;> simp_all
  · rfl

/- The hotkey branch claims exactly the press it replaces. -/
theorem dispatchKey_swallowedDowns (m : Matcher) (device : DeviceId) (event : KeyEvent)
    (focusedApp : Option String) :
    (m.dispatchKey device event focusedApp).1.swallowedDowns = if (m.dispatchKey device event
          focusedApp).2.isReplace then
        insert (device, event.code) m.swallowedDowns
      else m.swallowedDowns := by
  unfold dispatchKey
  simp only
  repeat' split
  all_goals simp_all [Verdict.isReplace]

theorem dispatchOwned_of_swallowed (m : Matcher) {device : DeviceId} {event : KeyEvent}
    (focusedApp : Option String) (now : Instant) (hKind : event.kind ≠ .modifiersChanged)
    (hOwned : (device, event.code) ∈ m.swallowedDowns) :
    (m.dispatchOwned device event focusedApp now).2 = .swallow := by
  unfold dispatchOwned
  cases hEvent : event.kind with
  | keyDown | keyUp => simp [hOwned]
  | modifiersChanged => exact absurd hEvent hKind

theorem dispatchOwned_of_free (m : Matcher) {device : DeviceId} {event : KeyEvent}
    (focusedApp : Option String) (now : Instant)
    (hFree : event.kind = .modifiersChanged ∨ (device, event.code) ∉ m.swallowedDowns) :
    m.dispatchOwned device event focusedApp now = if event.code.isModifier then
        m.dispatchModifier device event focusedApp now
      else m.dispatchKey device event focusedApp := by
  unfold dispatchOwned
  rcases hFree with hKind | hNot
  · simp [hKind]
  · simp [hNot]

/- A press is claimed by a replaced down and freed by its up. -/
theorem dispatchOwned_swallowedDowns (m : Matcher) (device : DeviceId) (event : KeyEvent)
    (focusedApp : Option String) (now : Instant) :
    (m.dispatchOwned device event focusedApp now).1.swallowedDowns = if event.kind = .keyUp then
        m.swallowedDowns.erase (device, event.code)
      else if event.kind = .keyDown ∧ (m.dispatchOwned device event focusedApp now).2.isReplace then
        insert (device, event.code) m.swallowedDowns
      else m.swallowedDowns := by
  by_cases hFree : event.kind = .modifiersChanged ∨ (device, event.code) ∉ m.swallowedDowns
  · rw [dispatchOwned_of_free m focusedApp now hFree]
    cases hModifier : event.code.isModifier with
    | true =>
      simp only [if_true, dispatchModifier_swallowedDowns]
      cases hKind : event.kind with
      | keyDown =>
        have hPass := dispatchModifier_of_isDown m device event
            focusedApp now (by simp [isDownAfter, hKind])
        simp [hPass, Verdict.isReplace]
      | keyUp =>
        have hNot : (device, event.code) ∉ m.swallowedDowns := by simpa [hKind] using hFree
        simp [Finset.erase_eq_of_notMem hNot]
      | modifiersChanged => simp
    | false =>
      simp only [Bool.false_eq_true, if_false]
      rw [dispatchKey_swallowedDowns]
      cases hKind : event.kind with
      | keyDown => simp
      | keyUp =>
        have hNot : (device, event.code) ∉ m.swallowedDowns := by simpa [hKind] using hFree
        simp [dispatchKey_verdict, hKind, Verdict.isReplace, Finset.erase_eq_of_notMem hNot]
      | modifiersChanged => simp [dispatchKey_verdict, hKind, Verdict.isReplace]
  · push Not at hFree
    rw [dispatchOwned_of_swallowed m focusedApp now hFree.1 hFree.2]
    unfold dispatchOwned
    cases hKind : event.kind with
    | keyDown => simp [hFree.2, Verdict.isReplace]
    | keyUp => simp [hFree.2]
    | modifiersChanged => exact absurd hKind hFree.1

end Matcher

-----
-- The Abstract Record Of A Press

/- Who answers for a press until it is released. -/
inductive Owner where
  | free
  | swallowed
  | forwarded
deriving DecidableEq

/- The owner of a press and its outstanding token. -/
structure Holding where
  owner : Owner
  pending : Option Nat
deriving DecidableEq

namespace Holding

def released : Holding := ⟨.free, none⟩

/- The record after an event of the press was dispatched. -/
def dispatched (h : Holding) (kind : EventKind) (verdict : Verdict)
    (token : Option ReplacementToken) : Holding where
  owner :=
    match kind with
    | .keyUp => .free
    | .keyDown =>
      if h.owner = .free ∧ verdict.isReplace then .swallowed
      else h.owner
    | .modifiersChanged => h.owner
  pending :=
    match token with
    | some token => some token.generation
    | none =>
      if kind = .keyDown ∧ h.owner ≠ .free then h.pending
      else none

/- The record after a delivery report was accepted. -/
def settled (h : Holding) (delivery : ReplacementDelivery) : Holding where
  owner := if delivery = .rejectedOriginalForwarded ∧ h.owner = .swallowed then .forwarded
    else h.owner
  pending := none

/- How one operation changes the record of press `p`. -/
def after (h : Holding) (p : Press) : Matcher.Op → Matcher.Out → Holding
  | .dispatch device event _ _, .verdict verdict token =>
    if p = (device, event.code) then
      h.dispatched event.kind verdict token
    else h
  | .dispatchWithDelivery device event _ _, .verdict verdict token =>
      if p = (device, event.code) then
        h.dispatched event.kind verdict token
      else h
  | .report token delivery, .reported ok =>
    if p = token.press ∧ ok then h.settled delivery else h
  | .invalidateSpeculation, _ => { h with pending := none }
  | .settle device event, _ =>
    if p = (device, event.code) ∧ event.kind = .keyUp then
      released
    else h
  | .resetDevice device, _ =>
    if p.1 = device then released else h
  | .reset, _ => released
  | _, _ => h

end Holding

namespace Matcher

def owner (m : Matcher) (p : Press) : Owner :=
  if p ∈ m.swallowedDowns then .swallowed
  else if p ∈ m.forwardedDowns then .forwarded
  else .free

def holding (m : Matcher) (p : Press) : Holding where
  owner := m.owner p
  pending := m.pendingDeliveries.get? p

@[simp] theorem holding_owner (m : Matcher) (p : Press) : (m.holding p).owner = m.owner p := rfl

@[simp] theorem holding_pending (m : Matcher) (p : Press) : (m.holding p).pending =
      m.pendingDeliveries.get? p := rfl

theorem mem_swallowedDowns_iff (m : Matcher) (p : Press) :
    p ∈ m.swallowedDowns ↔ m.owner p = .swallowed := by
  unfold owner
  split
  · simp_all
  · split <;> simp_all

variable {m : Matcher} {device : DeviceId} {event : KeyEvent}

theorem mem_forwardedDowns_iff (hCoherent : m.Coherent) (p : Press) :
    p ∈ m.forwardedDowns ↔ m.owner p = .forwarded := by
  unfold owner
  split
  · rename_i hSwallowed
    have hNot := Finset.disjoint_left.mp hCoherent.disjoint hSwallowed
    simp [hNot]
  · split <;> simp_all

theorem owner_eq_free_iff (m : Matcher) (p : Press) :
    m.owner p = .free ↔ p ∉ m.swallowedDowns ∧ p ∉ m.forwardedDowns := by
  unfold owner
  split
  · simp_all
  · split <;> simp_all

-----
-- Dispatch Refines The Record

/- A forwarded press passes its repeats and its release. -/
theorem dispatchUngated_of_forwarded (m : Matcher) (focusedApp : Option String) (now : Instant)
    (hKind : event.kind ≠ .modifiersChanged) (hOwned : (device, event.code) ∈ m.forwardedDowns) :
    m.dispatchUngated device event focusedApp now = ((m.reconcileDeliveryEvent (device, event.code)
        event.kind).1, .pass) := by
  unfold dispatchUngated
  simp [reconcile_snd, hKind, hOwned]

/- Any other event goes on to ownership and rules. -/
theorem dispatchUngated_of_not_forwarded (m : Matcher) (focusedApp : Option String) (now : Instant)
    (hNot : event.kind = .modifiersChanged ∨ (device, event.code) ∉ m.forwardedDowns) :
    m.dispatchUngated device event focusedApp now = (m.reconcileDeliveryEvent (device, event.code)
        event.kind).1.dispatchOwned device event focusedApp now := by
  unfold dispatchUngated
  rcases hNot with hKind | hNot
  · simp [reconcile_snd, hKind]
  · simp [reconcile_snd, hNot]

@[simp] theorem reconcile_swallowedDowns (m : Matcher) (press : Press) (kind : EventKind) :
    (m.reconcileDeliveryEvent press kind).1.swallowedDowns = m.swallowedDowns := by
  rw [reconcile_fst]
  rfl

@[simp] theorem reconcile_rules (m : Matcher) (press : Press) (kind : EventKind) :
    (m.reconcileDeliveryEvent press kind).1.rules = m.rules := by
  rw [reconcile_fst]
  rfl

/- All bookkeeping effects of a dispatch in one update. -/
theorem dispatchUngated_frame (hDisjoint : Disjoint m.swallowedDowns m.forwardedDowns)
    (device : DeviceId) (event : KeyEvent) (focusedApp : Option String) (now : Instant) :
    (m.dispatchUngated device event focusedApp now).1 =
      { m with
        tapFsms := (m.dispatchUngated device event focusedApp now).1.tapFsms
        modifierState := (m.dispatchUngated device event focusedApp now).1.modifierState
        swallowedDowns := if event.kind = EventKind.keyUp then
            m.swallowedDowns.erase (device, event.code)
          else if event.kind = EventKind.keyDown ∧ (m.dispatchUngated device event focusedApp
                now).2.isReplace then
            insert (device, event.code) m.swallowedDowns
          else m.swallowedDowns
        forwardedDowns := if event.kind = EventKind.keyUp then
            m.forwardedDowns.erase (device, event.code)
          else m.forwardedDowns
        pendingDeliveries := if m.retires (device, event.code) event.kind then
            m.pendingDeliveries.erase (device, event.code)
          else m.pendingDeliveries }.refreshDeliveryActive := by
  by_cases hForwarded : event.kind ≠ .modifiersChanged ∧ (device, event.code) ∈ m.forwardedDowns
  · rw [dispatchUngated_of_forwarded m focusedApp now hForwarded.1 hForwarded.2]
    have hNot : (device, event.code) ∉ m.swallowedDowns :=
      Finset.disjoint_right.mp hDisjoint hForwarded.2
    simp only [reconcile_fst, Verdict.isReplace, Finset.erase_eq_of_notMem hNot, Bool.false_eq_true,
      and_false, if_false, ite_self]
    rfl
  · have hOther : event.kind = .modifiersChanged ∨ (device, event.code) ∉ m.forwardedDowns := by
      by_contra hNeither
      push Not at hNeither
      exact hForwarded hNeither
    rw [dispatchUngated_of_not_forwarded m focusedApp now hOther, dispatchOwned_frame,
      dispatchOwned_swallowedDowns]
    simp only [reconcile_fst]
    rfl

theorem refresh_refresh (m : Matcher) : m.refreshDeliveryActive.refreshDeliveryActive =
      m.refreshDeliveryActive := rfl

/- A replaced event belonged to no forwarded press. -/
theorem not_forwarded_of_replace {focusedApp : Option String} {now : Instant}
    (hKind : event.kind ≠ .modifiersChanged)
    (hReplace : (m.dispatchUngated device event focusedApp now).2.isReplace = true) :
    (device, event.code) ∉ m.forwardedDowns := by
  intro hForwarded
  rw [dispatchUngated_of_forwarded m focusedApp now hKind hForwarded] at hReplace
  simp [Verdict.isReplace] at hReplace

/- Dispatch updates the record of its own press only. -/
theorem dispatchUngated_holding (hDisjoint : Disjoint m.swallowedDowns m.forwardedDowns)
    (device : DeviceId) (event : KeyEvent) (focusedApp : Option String) (now : Instant) (p : Press) :
    (m.dispatchUngated device event focusedApp now).1.holding p = if p = (device, event.code) then
        (m.holding p).dispatched event.kind (m.dispatchUngated device event focusedApp now).2 none
      else m.holding p := by
  rw [dispatchUngated_frame hDisjoint]
  by_cases hPress : p = (device, event.code)
  · subst hPress
    have hNotBoth : (device, event.code) ∈ m.swallowedDowns →
        (device, event.code) ∉ m.forwardedDowns :=
      fun h => Finset.disjoint_left.mp hDisjoint h
    have hReplaced : event.kind = .keyDown → (m.dispatchUngated device event focusedApp
          now).2.isReplace = true →
        (device, event.code) ∉ m.forwardedDowns := by
      intro hKind
      exact not_forwarded_of_replace (by simp [hKind])
    unfold holding owner Holding.dispatched retires refreshDeliveryActive
    cases hKind : event.kind with
    | keyDown =>
      simp
      grind
    | keyUp | modifiersChanged => simp
  · unfold holding owner refreshDeliveryActive
    cases hKind : event.kind
    all_goals
      simp [hPress]
      grind

-----
-- Every Operation Refines The Record

theorem dispatchUngated_coherent (hCoherent : m.Coherent) (device : DeviceId) (event : KeyEvent)
    (focusedApp : Option String) (now : Instant) :
    (m.dispatchUngated device event focusedApp now).1.Coherent := by
  have hFrame := dispatchUngated_frame hCoherent.disjoint device event focusedApp now
  constructor
  · rw [hFrame]
    rfl
  · rw [hFrame]
    have hNot : event.kind = .keyDown → (m.dispatchUngated device event focusedApp
        now).2.isReplace = true →
        (device, event.code) ∉ m.forwardedDowns := by
      intro hKind
      exact not_forwarded_of_replace (by simp [hKind])
    have hDisjoint := hCoherent.disjoint
    simp only [Finset.disjoint_left] at hDisjoint ⊢
    intro p hp
    simp only [refreshDeliveryActive] at hp ⊢
    cases hKind : event.kind
    all_goals
      simp only [hKind] at hp hNot ⊢
      grind
  · intro p g hPending
    rw [hFrame] at hPending ⊢
    apply hCoherent.bounded p g
    simp only [refreshDeliveryActive] at hPending
    grind

/- Issue the next token for a press. -/
def issue (m : Matcher) (p : Press) : Matcher :=
  { m with
    deliveryGeneration := m.deliveryGeneration + 1
    pendingDeliveries := m.pendingDeliveries.insert p (m.deliveryGeneration + 1)
    deliveryActive := true }

/- A dispatch with delivery adds a token to a dispatch. -/
theorem dispatchDeviceWithDelivery_eq {m₁ : Matcher} {focusedApp : Option String} {now : Instant}
    {verdict : Verdict} (hActive : m.refreshDeliveryActive = m)
    (hInner : m.dispatchUngated device event focusedApp now = (m₁, verdict)) :
    m.dispatchDeviceWithDelivery device event focusedApp now = if verdict.isReplace then
        if m₁.deliveryGeneration = u64Max then none
        else
          some (m₁.issue (device, event.code), verdict, some ⟨device, event.code,
              m₁.deliveryGeneration + 1⟩)
      else some (m₁, verdict, none) := by
  unfold dispatchDeviceWithDelivery
  rw [dispatchDevice_eq_ungated hActive, hInner]
  cases verdict with
  | pass | swallow | replace action => rfl

/-
  What the operations do, with every dispatch ungated.  A dispatch with delivery either
  issues a token or not.
-/
inductive Stepped (m : Matcher) : Op → Matcher → Out → Prop where
  | dispatch {device : DeviceId} {event : KeyEvent} {focusedApp : Option String} {now : Instant}
      {m₁ : Matcher}
      {verdict : Verdict}
      (hInner : m.dispatchUngated device event focusedApp now = (m₁, verdict)) :
      Stepped m (.dispatch device event focusedApp now) m₁ (.verdict verdict none)
  | unissued {device : DeviceId} {event : KeyEvent} {focusedApp : Option String} {now : Instant}
      {m₁ : Matcher}
      {verdict : Verdict}
      (hInner : m.dispatchUngated device event focusedApp now = (m₁, verdict))
      (hNot : verdict.isReplace = false) :
      Stepped m (.dispatchWithDelivery device event focusedApp now) m₁ (.verdict verdict none)
  | issued {device : DeviceId} {event : KeyEvent} {focusedApp : Option String} {now : Instant}
      {m₁ : Matcher}
      {verdict : Verdict}
      (hInner : m.dispatchUngated device event focusedApp now = (m₁, verdict))
      (hReplace : verdict.isReplace = true)
      (hMax : m₁.deliveryGeneration ≠ u64Max) :
      Stepped m (.dispatchWithDelivery device event focusedApp now) (m₁.issue (device, event.code))
        (.verdict verdict (some ⟨device, event.code, m₁.deliveryGeneration + 1⟩))
  | report (token : ReplacementToken) (delivery : ReplacementDelivery) :
      Stepped m (.report token delivery) (m.reportDelivery token delivery).1
        (.reported (m.reportDelivery token delivery).2)
  | swapRules (rules : RuleSet) : Stepped m (.swapRules rules) (m.swapRules rules) .done
  | invalidateSpeculation : Stepped m .invalidateSpeculation m.invalidateSpeculation .done
  | disqualifyTaps : Stepped m .disqualifyTaps m.disqualifyTaps .done
  | settle (device : DeviceId) (event : KeyEvent) : Stepped m (.settle device event)
        (m.settleDeviceEvent device event) .done
  | resetDevice (device : DeviceId) : Stepped m (.resetDevice device) (m.resetDevice device) .done
  | reset : Stepped m .reset m.reset .done

/- The steps of a matcher whose flag is consistent. -/
theorem step_iff {m' : Matcher} {op : Op} {out : Out} (hActive : m.refreshDeliveryActive = m) :
    m.step op = some (m', out) ↔ Stepped m op m' out := by
  constructor
  · intro hStep
    cases op with
    | dispatch device event focusedApp now =>
      simp only [step, dispatchDevice_eq_ungated hActive, Option.some.injEq, Prod.mk.injEq] at hStep
      rcases hStep with ⟨rfl, rfl⟩
      exact .dispatch rfl
    | dispatchWithDelivery device event focusedApp now =>
      rcases hInner : m.dispatchUngated device event focusedApp now with ⟨m₁, verdict⟩
      simp only [step, dispatchDeviceWithDelivery_eq hActive hInner] at hStep
      cases hReplace : verdict.isReplace with
      | false =>
        simp only [hReplace, Bool.false_eq_true, if_false,
          Option.some.injEq, Prod.mk.injEq] at hStep
        rcases hStep with ⟨rfl, rfl⟩
        exact .unissued hInner hReplace
      | true =>
        by_cases hMax : m₁.deliveryGeneration = u64Max
        · simp [hReplace, hMax] at hStep
        · simp only [hReplace, hMax, if_true, if_false, Option.some.injEq, Prod.mk.injEq] at hStep
          rcases hStep with ⟨rfl, rfl⟩
          exact .issued hInner hReplace hMax
    | _ =>
      cases hStep
      constructor
  · intro hStepped
    cases hStepped with
    | dispatch hInner => simp only [step, dispatchDevice_eq_ungated hActive, hInner]
    | unissued hInner hNot => simp [step, hNot, dispatchDeviceWithDelivery_eq hActive hInner]
    | issued hInner hReplace hMax =>
      simp [step, hReplace, hMax, dispatchDeviceWithDelivery_eq hActive hInner]
    | _ => rfl

theorem issue_coherent (hCoherent : m.Coherent) (p : Press) : (m.issue p).Coherent := by
  refine ⟨?_, hCoherent.disjoint, ?_⟩
  · simp [issue, refreshDeliveryActive]
  · intro q g hPending
    have hOld := hCoherent.bounded q g
    simp only [issue, Dict.get?_insert] at hPending ⊢
    split at hPending
    · simp only [Option.some.injEq] at hPending
      omega
    · have hBound := hOld hPending
      omega

theorem reportDelivery_coherent (hCoherent : m.Coherent) (token : ReplacementToken)
    (delivery : ReplacementDelivery) : (m.reportDelivery token delivery).1.Coherent := by
  rcases hCoherent with ⟨hActive, hDisjoint, hBounded⟩
  unfold reportDelivery
  simp only
  split
  · exact ⟨hActive, hDisjoint, hBounded⟩
  · rw [Finset.disjoint_left] at hDisjoint
    split
    all_goals
      refine ⟨rfl, ?_, ?_⟩
      · simp only [refreshDeliveryActive, Finset.disjoint_left]
        grind
      · simp only [refreshDeliveryActive]
        grind

theorem settleDeviceEvent_coherent (hCoherent : m.Coherent) (device : DeviceId) (event : KeyEvent) :
    (m.settleDeviceEvent device event).Coherent := by
  rcases hCoherent with ⟨hActive, hDisjoint, hBounded⟩
  unfold settleDeviceEvent
  split
  · exact ⟨hActive, hDisjoint, hBounded⟩
  · rw [Finset.disjoint_left] at hDisjoint
    refine ⟨rfl, ?_, ?_⟩
    · simp only [refreshDeliveryActive, Finset.disjoint_left]
      grind
    · simp only [refreshDeliveryActive]
      grind

theorem resetDevice_coherent (hCoherent : m.Coherent) (device : DeviceId) :
    (m.resetDevice device).Coherent := by
  rcases hCoherent with ⟨hActive, hDisjoint, hBounded⟩
  rw [Finset.disjoint_left] at hDisjoint
  unfold resetDevice
  refine ⟨rfl, ?_, ?_⟩
  · simp only [refreshDeliveryActive, Finset.disjoint_left]
    grind
  · intro p g hPending
    simp only [refreshDeliveryActive, Dict.get?_retain, Option.filter_eq_some_iff] at hPending
    exact hBounded p g hPending.1

theorem step_coherent {m' : Matcher} {op : Op} {out : Out} (hCoherent : m.Coherent)
    (hStep : m.step op = some (m', out)) : m'.Coherent := by
  have hDispatch := @dispatchUngated_coherent m hCoherent
  cases (step_iff hCoherent.active).mp hStep with
  | @dispatch device event focusedApp now _ _ hInner
  | @unissued device event focusedApp now _ _ hInner =>
    have hNext := hDispatch device event focusedApp now
    rwa [hInner] at hNext
  | @issued device event focusedApp now _ _ hInner =>
    have hNext := hDispatch device event focusedApp now
    rw [hInner] at hNext
    exact issue_coherent hNext _
  | report token delivery => exact reportDelivery_coherent hCoherent ..
  | swapRules rules =>
    refine ⟨?_, hCoherent.disjoint, hCoherent.bounded⟩
    exact congrArg (fun k : Matcher => k.swapRules rules) hCoherent.active
  | invalidateSpeculation =>
    refine ⟨rfl, hCoherent.disjoint, ?_⟩
    intro p g hPending
    simp [invalidateSpeculation, refreshDeliveryActive] at hPending
  | disqualifyTaps =>
    refine ⟨?_, hCoherent.disjoint, hCoherent.bounded⟩
    exact congrArg disqualifyTaps hCoherent.active
  | settle device event => exact settleDeviceEvent_coherent hCoherent ..
  | resetDevice device => exact resetDevice_coherent hCoherent ..
  | reset =>
    refine ⟨?_, ?_, ?_⟩
    · simp [reset, refreshDeliveryActive]
    · simp [reset]
    · intro p g hPending
      simp [reset] at hPending

theorem Reachable.coherent (hReachable : m.Reachable) : m.Coherent := by
  rcases hReachable with ⟨rules, trace, hRun⟩
  exact hRun.invariant (new_coherent rules) (fun _ _ _ _ hPre hStep => step_coherent hPre hStep)

end Matcher

end Sledge.Core

namespace Sledge.Core.Matcher

theorem issue_holding (m : Matcher) (issued p : Press) :
    (m.issue issued).holding p = if p = issued then
        { m.holding p with pending := some (m.deliveryGeneration + 1) }
      else m.holding p := by
  have hOwner : (m.issue issued).owner p = m.owner p := rfl
  unfold holding
  rw [hOwner]
  by_cases hPress : p = issued
  · simp [hPress, issue]
  · simp [hPress, issue]

theorem reportDelivery_holding {m : Matcher} (hCoherent : m.Coherent) (token : ReplacementToken)
    (delivery : ReplacementDelivery) (p : Press) :
    (m.reportDelivery token delivery).1.holding p = if p = token.press ∧
          (m.reportDelivery token delivery).2 then
        (m.holding p).settled delivery
      else m.holding p := by
  have hNotBoth : p ∈ m.swallowedDowns → p ∉ m.forwardedDowns :=
    fun h => Finset.disjoint_left.mp hCoherent.disjoint h
  unfold reportDelivery
  simp only
  split
  · simp
  · unfold holding owner Holding.settled
    by_cases hPress : p = token.press
    · subst hPress
      split
      all_goals
        simp [refreshDeliveryActive]
        grind
    · split
      all_goals
        simp [refreshDeliveryActive, hPress]

theorem settleDeviceEvent_holding (m : Matcher) (device : DeviceId) (event : KeyEvent) (p : Press) :
    (m.settleDeviceEvent device event).holding p = if p = (device, event.code) ∧
          event.kind = .keyUp then Holding.released
      else m.holding p := by
  unfold settleDeviceEvent holding owner Holding.released
  by_cases hKind : event.kind = .keyUp
  · by_cases hPress : p = (device, event.code)
    · simp [hKind, hPress, refreshDeliveryActive]
    · simp [hKind, hPress, refreshDeliveryActive]
  · simp [hKind]

theorem resetDevice_holding (m : Matcher) (device : DeviceId) (p : Press) :
    (m.resetDevice device).holding p = if p.1 = device then Holding.released
      else m.holding p := by
  unfold resetDevice holding owner Holding.released
  by_cases hDevice : p.1 = device
  · simp [hDevice, refreshDeliveryActive]
  · have hKept : (p.1 != device) = true := by
      simpa using hDevice
    cases hPending : m.pendingDeliveries.get? p
    all_goals
      simp [hDevice, hKept, hPending, refreshDeliveryActive]

theorem step_holding {m m' : Matcher} {op : Op} {out : Out} (hCoherent : m.Coherent)
    (hStep : m.step op = some (m', out)) (p : Press) :
    m'.holding p = (m.holding p).after p op out := by
  have hDispatch := @dispatchUngated_holding m hCoherent.disjoint
  cases (step_iff hCoherent.active).mp hStep with
  | @dispatch device event focusedApp now _ _ hInner
  | @unissued device event focusedApp now _ _ hInner =>
    have hNext := hDispatch device event focusedApp now p
    rwa [hInner] at hNext
  | @issued device event focusedApp now _ _ hInner =>
    have hNext := hDispatch device event focusedApp now p
    rw [hInner] at hNext
    rw [issue_holding, hNext]
    by_cases hPress : p = (device, event.code)
    · simp [hPress, Holding.after, Holding.dispatched]
    · simp [hPress, Holding.after]
  | report token delivery => exact reportDelivery_holding hCoherent ..
  | swapRules rules | invalidateSpeculation | disqualifyTaps => rfl
  | settle device event => exact settleDeviceEvent_holding ..
  | resetDevice device => exact resetDevice_holding ..
  | reset => simp [holding, owner, reset, Holding.after, Holding.released]

end Sledge.Core.Matcher
