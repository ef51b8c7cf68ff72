import Mathlib.Data.Nat.Count
import Sledge.Core.Delivery

/-
  Device isolation of the matcher.

  The matcher keeps all devices in shared maps, with one
  cached flag and one token counter.  `Matcher.view` is what
  is left of it for one device, with the tokens of that
  device renumbered without gaps.  Operations of the device
  commute with the view and operations of other devices do
  not change it, so a run and its projection agree.

  Main results:
    * `Matcher.view_dispatchUngated`
    * `Matcher.view_of_other`
    * `Matcher.device_isolation`
-/

-----
-- The View Of One Device

namespace Sledge.Core

open Transition Holding

namespace Matcher

namespace Op

/- The device an operation concerns; `none` means all. -/
def device? : Op → Option DeviceId
  | .dispatch device _ _ _ => some device
  | .dispatchWithDelivery device _ _ _ => some device
  | .report token _ => some token.device
  | .settle device _ => some device
  | .resetDevice device => some device
  | _ => none

/- The token an operation reports on. -/
def reported? : Op → Option ReplacementToken
  | .report token _ => some token
  | _ => none

/- The operation stays in the projection to a device. -/
def keeps (op : Op) (device : DeviceId) : Bool :=
  match op.device? with
  | some other => decide (other = device)
  | none => true

end Op

/- The part of the state that belongs to one device. -/
def view (device : DeviceId) (number : Nat → Nat) (m : Matcher) : Matcher :=
  refreshDeliveryActive
    { rules := m.rules
      tapFsms := m.tapFsms.restrict (fun d => d == device)
      modifierState := m.modifierState.restrict (fun p => p.1 == device)
      swallowedDowns := m.swallowedDowns.filter (fun p => p.1 = device)
      forwardedDowns := m.forwardedDowns.filter (fun p => p.1 = device)
      pendingDeliveries := (m.pendingDeliveries.restrict (fun p => p.1 == device)).mapValues number
      deliveryActive := false
      deliveryGeneration := number m.deliveryGeneration }

section Fields

variable (device : DeviceId) (number : Nat → Nat) (m : Matcher)

@[simp] theorem view_rules : (m.view device number).rules = m.rules := rfl

@[simp, grind =] theorem view_generation : (m.view device number).deliveryGeneration =
      number m.deliveryGeneration := rfl

@[simp, grind =] theorem view_tapFsms (d : DeviceId) :
    (m.view device number).tapFsms.get? d = if d = device then m.tapFsms.get? d else none := by
  simp [view, refreshDeliveryActive]

@[simp, grind =] theorem view_modifierState (p : Press) :
    (m.view device number).modifierState.get? p = if p.1 = device then m.modifierState.get? p
      else none := by
  simp [view, refreshDeliveryActive]

@[simp, grind =] theorem view_swallowedDowns (p : Press) :
    p ∈ (m.view device number).swallowedDowns ↔ p ∈ m.swallowedDowns ∧ p.1 = device := by
  simp [view, refreshDeliveryActive]

@[simp, grind =] theorem view_forwardedDowns (p : Press) :
    p ∈ (m.view device number).forwardedDowns ↔ p ∈ m.forwardedDowns ∧ p.1 = device := by
  simp [view, refreshDeliveryActive]

@[simp, grind =] theorem view_pending (p : Press) :
    (m.view device number).pendingDeliveries.get? p = if p.1 = device then
        (m.pendingDeliveries.get? p).map number
      else none := by
  simp only [view, refreshDeliveryActive, Dict.get?_mapValues, Dict.get?_restrict, beq_iff_eq]
  split <;> rfl

theorem view_active : (m.view device number).refreshDeliveryActive = m.view device number := rfl

end Fields

/- Two states with consistent flags agree by their parts. -/
theorem ext_of_active {m m' : Matcher} (hActive : m.refreshDeliveryActive = m)
    (hActive' : m'.refreshDeliveryActive = m') (hRules : m.rules = m'.rules)
    (hTaps : ∀ d, m.tapFsms.get? d = m'.tapFsms.get? d)
    (hModifiers : ∀ p, m.modifierState.get? p = m'.modifierState.get? p)
    (hSwallowed : ∀ p, p ∈ m.swallowedDowns ↔ p ∈ m'.swallowedDowns)
    (hForwarded : ∀ p, p ∈ m.forwardedDowns ↔ p ∈ m'.forwardedDowns)
    (hPending : ∀ p, m.pendingDeliveries.get? p = m'.pendingDeliveries.get? p)
    (hGeneration : m.deliveryGeneration = m'.deliveryGeneration) : m = m' := by
  have hForwardedEq := Finset.ext hForwarded
  have hPendingEq := Dict.ext_get? hPending
  rw [← hActive, ← hActive']
  unfold refreshDeliveryActive
  rw [hRules, hGeneration, hForwardedEq, hPendingEq, Dict.ext_get? hTaps, Dict.ext_get? hModifiers,
    Finset.ext hSwallowed]

-----
-- Dispatch Commutes With The View

variable {device : DeviceId} {number : Nat → Nat}

theorem view_reconcile (m : Matcher) (key : KeyCode) (kind : EventKind) :
    (m.view device number).reconcileDeliveryEvent (device, key) kind =
      ((m.reconcileDeliveryEvent (device, key) kind).1.view device number,
        (m.reconcileDeliveryEvent (device, key) kind).2) := by
  have hRetires : (m.view device number).retires (device, key) kind ↔
      m.retires (device, key) kind := by
    simp [retires]
  apply Prod.ext
  · rw [reconcile_fst, reconcile_fst]
    refine ext_of_active rfl rfl rfl ?_ ?_ ?_ ?_ ?_ ?_
    all_goals
      intros
      simp only [refreshDeliveryActive, hRetires]
      grind
  · simp [reconcile_snd]

theorem view_deviceFsms (m : Matcher) :
    (m.view device number).deviceFsms device = m.deviceFsms device := by
  simp [deviceFsms]

/- The other held modifiers of a device are in its view. -/
theorem view_otherHeld (m : Matcher) (key : KeyCode) (isDown : Bool) :
    ((m.view device number).modifierState.insert (device, key) isDown).any (fun p down =>
            p.1 == device && p.2 != key && down) =
      (m.modifierState.insert (device, key) isDown).any (fun p down =>
            p.1 == device && p.2 != key && down) := by
  rw [Bool.eq_iff_iff, Dict.any_iff, Dict.any_iff]
  constructor
  · intro hAny
    rcases hAny with ⟨p, down, hGet, hHeld⟩
    refine ⟨p, down, ?_, hHeld⟩
    grind
  · intro hAny
    rcases hAny with ⟨p, down, hGet, hHeld⟩
    refine ⟨p, down, ?_, hHeld⟩
    grind

/-
  A dispatch changes taps, modifiers and swallowed presses only, and changes in view what
  it changes of the device.
-/
theorem view_modify (m : Matcher) {taps taps' : Dict DeviceId (List TapFsm)}
    {modifiers modifiers' : Dict Press Bool} {swallowed swallowed' : Finset Press}
    (hTaps : ∀ d, taps'.get? d = if d = device then taps.get? d else none)
    (hModifiers : ∀ p, modifiers'.get? p = if p.1 = device then modifiers.get? p else none)
    (hSwallowed : ∀ p, p ∈ swallowed' ↔ p ∈ swallowed ∧ p.1 = device) :
    { m.view device number with
        tapFsms := taps'
        modifierState := modifiers'
        swallowedDowns := swallowed' } =
      { m with
        tapFsms := taps
        modifierState := modifiers
        swallowedDowns := swallowed }.view device number := by
  refine ext_of_active rfl rfl rfl ?_ ?_ ?_ ?_ ?_ ?_
  all_goals
    intros
    simp [hTaps, hModifiers, hSwallowed]

/- The tap machines of the device are in its view. -/
theorem view_insertTaps (m : Matcher) (fsms : List TapFsm) (d : DeviceId) :
    ((m.view device number).tapFsms.insert device fsms).get? d = if d = device then
        (m.tapFsms.insert device fsms).get? d
      else none := by
  grind

theorem view_updateTaps (m : Matcher) (fsms : List TapFsm) :
    { m.view device number with tapFsms := (m.view device number).tapFsms.insert device fsms } =
      { m with tapFsms := m.tapFsms.insert device fsms }.view device number := by
  apply view_modify m (view_insertTaps m fsms)
  · exact view_modifierState device number m
  · exact view_swallowedDowns device number m

theorem view_update (m : Matcher) (key : KeyCode) (isDown : Bool) (fsms : List TapFsm) :
    { m.view device number with
        modifierState := (m.view device number).modifierState.insert (device, key) isDown
        tapFsms := (m.view device number).tapFsms.insert device fsms } =
      { m with
        modifierState := m.modifierState.insert (device, key) isDown
        tapFsms := m.tapFsms.insert device fsms }.view device number := by
  apply view_modify m (view_insertTaps m fsms)
  · intro p
    grind
  · exact view_swallowedDowns device number m

theorem view_dispatchModifier (m : Matcher) (event : KeyEvent) (focusedApp : Option String)
    (now : Instant) :
    (m.view device number).dispatchModifier device event focusedApp now =
      ((m.dispatchModifier device event focusedApp now).1.view device number,
        (m.dispatchModifier device event focusedApp now).2) := by
  have hWas : (m.view device number).modifierState.get? (device, event.code) =
      m.modifierState.get? (device, event.code) := by
    simp
  have hTaps : (m.view device number).rules.taps = m.rules.taps := rfl
  unfold dispatchModifier
  simp only [view_deviceFsms, hWas, view_otherHeld, hTaps]
  cases isDownAfter event with
  | none => simp only [view_updateTaps]
  | some isDown =>
    simp only [view_update]
    split
    · rfl
    · rfl

theorem view_claim (m : Matcher) (key : KeyCode) (fsms : List TapFsm) :
    { m.view device number with
        tapFsms := (m.view device number).tapFsms.insert device fsms
        swallowedDowns := insert (device, key) (m.view device number).swallowedDowns } =
      { m with
        tapFsms := m.tapFsms.insert device fsms
        swallowedDowns := insert (device, key) m.swallowedDowns }.view device number := by
  apply view_modify m (view_insertTaps m fsms)
  · exact view_modifierState device number m
  · intro p
    grind

theorem view_eraseSwallowed (m : Matcher) (key : KeyCode) :
    { m.view device number with
        swallowedDowns := (m.view device number).swallowedDowns.erase (device, key) } =
      { m with swallowedDowns := m.swallowedDowns.erase (device, key) }.view device number := by
  apply view_modify m
  · exact view_tapFsms device number m
  · exact view_modifierState device number m
  · intro p
    grind

theorem view_dispatchKey (m : Matcher) (event : KeyEvent) (focusedApp : Option String) :
    (m.view device number).dispatchKey device event focusedApp =
      ((m.dispatchKey device event focusedApp).1.view device number,
        (m.dispatchKey device event focusedApp).2) := by
  have hFind : (m.view device number).rules.findHotkey event focusedApp =
      m.rules.findHotkey event focusedApp := rfl
  unfold dispatchKey
  simp only [view_deviceFsms, hFind, view_updateTaps]
  split
  · split
    · simp only [view_claim]
    · rfl
  · rfl

theorem view_dispatchOwned (m : Matcher) (event : KeyEvent) (focusedApp : Option String)
    (now : Instant) :
    (m.view device number).dispatchOwned device event focusedApp now =
      ((m.dispatchOwned device event focusedApp now).1.view device number,
        (m.dispatchOwned device event focusedApp now).2) := by
  unfold dispatchOwned
  simp only [view_swallowedDowns, and_true, view_dispatchModifier, view_dispatchKey,
    view_eraseSwallowed]
  split
  · rfl
  · split
    · rfl
    · split <;> rfl

/- A dispatch for the device takes the same step in view. -/
theorem view_dispatchUngated (m : Matcher) (event : KeyEvent) (focusedApp : Option String)
    (now : Instant) :
    (m.view device number).dispatchUngated device event focusedApp now =
      ((m.dispatchUngated device event focusedApp now).1.view device number,
        (m.dispatchUngated device event focusedApp now).2) := by
  unfold dispatchUngated
  rw [view_reconcile]
  simp only [view_dispatchOwned]
  split <;> rfl

end Matcher

-----
-- Renumbering Tokens

namespace ReplacementToken

def renumber (number : Nat → Nat) (token : ReplacementToken) : ReplacementToken :=
  { token with generation := number token.generation }

end ReplacementToken

namespace Matcher

def Op.renumber (number : Nat → Nat) : Op → Op
  | .report token delivery => .report (token.renumber number) delivery
  | op => op

def Out.renumber (number : Nat → Nat) : Out → Out
  | .verdict answer token => .verdict answer (token.map (ReplacementToken.renumber number))
  | out => out

/- Number the generations of a set from one, in order. -/
def renumbering (issued : Finset Nat) (generation : Nat) : Nat :=
  Nat.count (· ∈ issued) (generation + 1)

theorem renumbering_succ (issued : Finset Nat) (generation : Nat) :
    renumbering issued (generation + 1) = renumbering issued generation +
        if generation + 1 ∈ issued then 1 else 0 :=
  Nat.count_succ _ _

theorem renumbering_zero {issued : Finset Nat} (hZero : 0 ∉ issued) : renumbering issued 0 = 0 := by
  simp [renumbering, Nat.count_succ, hZero]

theorem renumbering_le {issued : Finset Nat} (hZero : 0 ∉ issued) (generation : Nat) :
    renumbering issued generation ≤ generation := by
  induction generation with
  | zero => rw [renumbering_zero hZero]
  | succ generation ih =>
    rw [renumbering_succ]
    split <;> omega

theorem renumbering_strictMonoOn (issued : Finset Nat) :
    StrictMonoOn (renumbering issued) issued := by
  intro g hg g' hg' hLt
  have hMono : Nat.count (· ∈ issued) (g + 1) ≤ Nat.count (· ∈ issued) g' :=
    Nat.count_monotone _ hLt
  have hSucc : Nat.count (· ∈ issued) (g' + 1) = Nat.count (· ∈ issued) g' + 1 := by
    rw [Nat.count_succ, if_pos (by simpa using hg')]
  unfold renumbering
  omega

/- What the projection assumes of one entry of a run. -/
structure Genuine (device : DeviceId) (issued : Finset Nat) (e : Entry) : Prop where
  issues : ∀ token, e.out.issued? = some token → (token.generation ∈ issued ↔ token.device = device)
  reports : ∀ token ∈ e.op.reported?, token.device = device → token.generation ∈ issued

/- What the projection keeps true of the state. -/
structure Numbered (device : DeviceId) (issued : Finset Nat) (m : Matcher) : Prop where
  coherent : m.Coherent
  bounded : m.deliveryGeneration ≤ u64Max
  pending : ∀ key g, m.pendingDeliveries.get? (device, key) = some g → g ∈ issued

variable {m m' : Matcher} {op : Op} {out : Out} {number : Nat → Nat}

theorem pending_origin {p : Press} {g : Nat} (hCoherent : m.Coherent)
    (hStep : m.step op = some (m', out)) (hPending : m'.pendingDeliveries.get? p = some g) :
    m.pendingDeliveries.get? p = some g ∨ ∃ token, out.issued? = some token ∧ token.press = p ∧
          token.generation = g := by
  have hAfter := congrArg pending (step_holding hCoherent hStep p)
  rw [holding_pending, hPending] at hAfter
  cases hEvent : op.event? with
  | some dispatched =>
    rcases dispatched with ⟨device, event⟩
    rcases step_dispatch hCoherent hEvent hStep with ⟨_, verdict, issued, rfl, _, _⟩
    rw [after_of_event hEvent] at hAfter
    by_cases hPress : p = (device, event.code)
    · rw [if_pos hPress] at hAfter
      cases hIssued : issued with
      | none =>
        subst hIssued
        simp only [dispatched] at hAfter
        split at hAfter
        · exact .inl hAfter.symm
        · simp at hAfter
      | some token =>
        subst hIssued
        simp only [dispatched, Option.some.injEq] at hAfter
        rcases (step_issued hCoherent hStep rfl).2.2.2.2 with ⟨event', hEvent', hCode⟩
        rw [hEvent] at hEvent'
        simp only [Option.some.injEq, Prod.mk.injEq] at hEvent'
        rcases hEvent' with ⟨rfl, rfl⟩
        refine .inr ⟨token, rfl, ?_, hAfter.symm⟩
        rw [hPress, hCode]
        rfl
    · rw [if_neg hPress] at hAfter
      exact .inl hAfter.symm
  | none =>
    refine .inl ?_
    cases op <;> cases out
    all_goals
      simp [Op.event?] at hEvent
    all_goals
      simp only [after] at hAfter
      grind [released, settled, holding_pending]

-----
-- The Projected Run

variable {device : DeviceId} {issued : Finset Nat}

/- A consistent state is determined by its parts. -/
theorem view_congr (hCoherent : m.Coherent) (hCoherent' : m'.Coherent) (hRules : m'.rules = m.rules)
    (hTaps : m'.tapFsms.get? device = m.tapFsms.get? device)
    (hModifiers : ∀ key, m'.modifierState.get? (device, key) = m.modifierState.get? (device, key))
    (hHolding : ∀ key, m'.holding (device, key) = m.holding (device, key))
    (hGeneration : number m'.deliveryGeneration = number m.deliveryGeneration) :
    m'.view device number = m.view device number := by
  have hOwner : ∀ key, m'.owner (device, key) = m.owner (device, key) :=
    fun key => congrArg Holding.owner (hHolding key)
  apply ext_of_active
  · rfl
  · rfl
  · exact hRules
  · intro d
    simp only [view_tapFsms]
    split
    · rename_i hSame
      rw [hSame, hTaps]
    · rfl
  · intro p
    rcases p with ⟨d, key⟩
    simp only [view_modifierState]
    split
    · rename_i hSame
      rw [hSame, hModifiers]
    · rfl
  · intro p
    rcases p with ⟨d, key⟩
    simp only [view_swallowedDowns]
    apply and_congr_left
    intro hSame
    rw [hSame, mem_swallowedDowns_iff, mem_swallowedDowns_iff, hOwner]
  · intro p
    rcases p with ⟨d, key⟩
    simp only [view_forwardedDowns]
    apply and_congr_left
    intro hSame
    rw [hSame, mem_forwardedDowns_iff hCoherent', mem_forwardedDowns_iff hCoherent, hOwner]
  · intro p
    rcases p with ⟨d, key⟩
    simp only [view_pending]
    split
    · rename_i hSame
      have hPending := congrArg pending (hHolding key)
      simp only [holding_pending] at hPending
      rw [hSame, hPending]
    · rfl
  · exact hGeneration

theorem dispatchOwned_others (m : Matcher) (other : DeviceId) (event : KeyEvent)
    (focusedApp : Option String) (now : Instant) (hOther : other ≠ device) :
    (m.dispatchOwned other event focusedApp now).1.tapFsms.get? device = m.tapFsms.get? device ∧
      ∀ key, (m.dispatchOwned other event focusedApp now).1.modifierState.get? (device, key) =
            m.modifierState.get? (device, key) := by
  have hNot : device ≠ other := fun h => hOther h.symm
  unfold dispatchOwned dispatchModifier dispatchKey
  simp only
  repeat' split
  all_goals
    simp [hNot]

theorem dispatchUngated_others (m : Matcher) (other : DeviceId) (event : KeyEvent)
    (focusedApp : Option String) (now : Instant) (hOther : other ≠ device) :
    (m.dispatchUngated other event focusedApp now).1.tapFsms.get? device = m.tapFsms.get? device ∧
      ∀ key, (m.dispatchUngated other event focusedApp now).1.modifierState.get? (device, key) =
            m.modifierState.get? (device, key) := by
  have hOwned := dispatchOwned_others (m.reconcileDeliveryEvent (other, event.code)
      event.kind).1 other event focusedApp now hOther
  have hTaps : (m.reconcileDeliveryEvent (other, event.code) event.kind).1.tapFsms = m.tapFsms := by
    rw [reconcile_fst]
    rfl
  have hModifiers : (m.reconcileDeliveryEvent (other, event.code)
      event.kind).1.modifierState = m.modifierState := by
    rw [reconcile_fst]
    rfl
  rw [hTaps, hModifiers] at hOwned
  unfold dispatchUngated
  simp only
  split
  · rw [hTaps, hModifiers]
    exact ⟨rfl, fun _ => rfl⟩
  · exact hOwned

theorem after_of_other {h : Holding} (hKeeps : op.keeps device = false) (key : KeyCode) :
    h.after (device, key) op out = h := by
  have hNot : ∀ other, op.device? = some other → device ≠ other := by
    intro other hDevice hSame
    simp [Op.keeps, hDevice, hSame] at hKeeps
  cases op with
  | dispatch other event focusedApp now | dispatchWithDelivery other event focusedApp now =>
    cases out <;> simp [after, hNot other rfl]
  | report token delivery =>
    have hPress : (device, key) ≠ token.press := by
      intro hSame
      exact hNot token.device rfl (congrArg Prod.fst hSame)
    cases out <;> simp [after, hPress]
  | settle other event | resetDevice other => simp [after, hNot other rfl]
  | _ => simp [Op.keeps, Op.device?] at hKeeps

theorem dispatchUngated_parts {m₁ : Matcher} {other : DeviceId} {event : KeyEvent}
    {focusedApp : Option String} {now : Instant} {verdict : Verdict} (hCoherent : m.Coherent)
    (hOther : other ≠ device)
    (hInner : m.dispatchUngated other event focusedApp now = (m₁, verdict)) :
    m₁.rules = m.rules ∧ m₁.tapFsms.get? device = m.tapFsms.get? device ∧ ∀ key,
        m₁.modifierState.get? (device, key) = m.modifierState.get? (device, key) := by
  have hOthers := dispatchUngated_others m other event focusedApp now hOther
  have hRules : (m.dispatchUngated other event focusedApp now).1.rules =
      m.rules := by
    rw [dispatchUngated_frame hCoherent.disjoint]
    rfl
  rw [hInner] at hOthers hRules
  exact ⟨hRules, hOthers⟩

theorem parts_of_other (hCoherent : m.Coherent) (hStep : m.step op = some (m', out))
    (hKeeps : op.keeps device = false) :
    m'.rules = m.rules ∧ m'.tapFsms.get? device = m.tapFsms.get? device ∧ ∀ key,
        m'.modifierState.get? (device, key) = m.modifierState.get? (device, key) := by
  cases (step_iff hCoherent.active).mp hStep with
  | dispatch hInner | unissued hInner =>
    replace hKeeps := of_decide_eq_false hKeeps
    exact dispatchUngated_parts hCoherent hKeeps hInner
  | issued hInner =>
    replace hKeeps := of_decide_eq_false hKeeps
    -- issuing the token touches none of these parts
    have hParts := dispatchUngated_parts hCoherent hKeeps hInner
    exact hParts
  | report token delivery =>
    unfold reportDelivery
    simp only
    repeat' split
    all_goals exact ⟨rfl, rfl, fun _ => rfl⟩
  | settle other event =>
    replace hKeeps := of_decide_eq_false hKeeps
    unfold settleDeviceEvent
    split
    · exact ⟨rfl, rfl, fun _ => rfl⟩
    · simp [refreshDeliveryActive, Ne.symm hKeeps]
  | resetDevice other =>
    replace hKeeps := of_decide_eq_false hKeeps
    have hBool : (device != other) = true := by simpa using Ne.symm hKeeps
    refine ⟨rfl, ?_, ?_⟩
    · simp [resetDevice, refreshDeliveryActive, Ne.symm hKeeps]
    · intro key
      cases hGet : m.modifierState.get? (device, key)
      all_goals
        simp [resetDevice, refreshDeliveryActive, hGet, hBool]
  | _ => simp [Op.keeps, Op.device?] at hKeeps

/- An operation of another device is invisible. -/
theorem view_of_other (hCoherent : m.Coherent) (hGenuine : Genuine device issued ⟨m, op, out⟩)
    (hStep : m.step op = some (m', out)) (hKeeps : op.keeps device = false) :
    m'.view device (renumbering issued) = m.view device (renumbering issued) := by
  rcases parts_of_other hCoherent hStep hKeeps with ⟨hRules, hTaps, hModifiers⟩
  apply view_congr hCoherent (step_coherent hCoherent hStep) hRules hTaps hModifiers
  · intro key
    rw [step_holding hCoherent hStep]
    exact after_of_other hKeeps key
  · rw [step_generation hCoherent hStep]
    cases hIssued : out.issued? with
    | none => simp
    | some token =>
      rcases step_issued hCoherent hStep hIssued with ⟨hFresh, _, _, _, event, hEvent, _⟩
      have hOther : token.device ≠ device := by
        intro hSame
        cases op with
        | dispatch other event' focusedApp now | dispatchWithDelivery other event' focusedApp now =>
          simp_all [Op.keeps, Op.device?, Op.event?]
        | _ => simp [Op.event?] at hEvent
      have hNot : m.deliveryGeneration + 1 ∉ issued := by
        rw [← hFresh, hGenuine.issues token hIssued]
        exact hOther
      simp [renumbering_succ, hNot]

/- Issuing a token to the device, seen in its view. -/
theorem view_issue (key : KeyCode) (hIssued : m.deliveryGeneration + 1 ∈ issued) :
    (m.view device (renumbering issued)).issue (device, key) = (m.issue (device, key)).view device
        (renumbering issued) := by
  have hNext : renumbering issued (m.deliveryGeneration + 1) =
      renumbering issued m.deliveryGeneration + 1 := by
    rw [renumbering_succ, if_pos hIssued]
  apply ext_of_active
  case hActive' => rfl
  case hPending =>
    intro p
    simp only [issue, Dict.get?_insert, view_pending, view_generation]
    split
    · rename_i hSame
      simp [hSame, hNext]
    · rfl
  all_goals
    intros
    simp [issue, refreshDeliveryActive, hNext]

theorem view_generation_ne {m₁ : Matcher} {event : KeyEvent} {focusedApp : Option String}
    {now : Instant} {verdict : Verdict} (hZero : 0 ∉ issued) (hNumbered : Numbered device issued m)
    (hInner : m.dispatchUngated device event focusedApp now = (m₁, verdict))
    (hMax : m₁.deliveryGeneration ≠ u64Max) :
    (m₁.view device (renumbering issued)).deliveryGeneration ≠ u64Max := by
  have hGeneration := dispatchUngated_generation hNumbered.coherent device event focusedApp now
  rw [hInner] at hGeneration
  have hLe := renumbering_le hZero m₁.deliveryGeneration
  have hBound := hNumbered.bounded
  rw [view_generation]
  simp only at hGeneration
  omega

/- A genuine token is outstanding iff its number is. -/
theorem view_pending_iff {token : ReplacementToken} (hNumbered : Numbered device issued m)
    (hDevice : token.device = device) (hIssued : token.generation ∈ issued) :
    (m.view device (renumbering issued)).pendingDeliveries.get? token.press =
        some (renumbering issued token.generation) ↔
      m.pendingDeliveries.get? token.press = some token.generation := by
  have hPress : token.press = (device, token.key) := by
    rw [← hDevice]
    rfl
  rw [view_pending, hPress, if_pos rfl]
  cases hPending : m.pendingDeliveries.get? (device, token.key) with
  | none => simp
  | some g =>
    simp only [Option.map_some, Option.some.injEq]
    have hMem := hNumbered.pending token.key g hPending
    exact (renumbering_strictMonoOn issued).injOn.eq_iff
      (by simpa using hMem) (by simpa using hIssued)

theorem view_reportDelivery {token : ReplacementToken} (delivery : ReplacementDelivery)
    (hNumbered : Numbered device issued m) (hDevice : token.device = device)
    (hIssued : token.generation ∈ issued) :
    (m.view device (renumbering issued)).reportDelivery
        (token.renumber (renumbering issued)) delivery =
      ((m.reportDelivery token delivery).1.view device (renumbering issued),
        (m.reportDelivery token delivery).2) := by
  have hPress : (token.renumber (renumbering issued)).press =
      token.press := rfl
  have hNumber : (token.renumber (renumbering issued)).generation =
      renumbering issued token.generation := rfl
  have hFirst : token.press.1 = device := hDevice
  unfold reportDelivery
  simp only [hPress, hNumber, ne_eq, view_pending_iff hNumbered hDevice hIssued,
    view_swallowedDowns, hFirst, and_true]
  split
  · rfl
  · apply Prod.ext
    · split
      all_goals
        refine ext_of_active rfl rfl rfl ?_ ?_ ?_ ?_ ?_ ?_
        all_goals
          intros
          simp only [refreshDeliveryActive]
          grind
    · rfl

theorem view_settleDeviceEvent (m : Matcher) (event : KeyEvent) :
    (m.view device number).settleDeviceEvent device event =
      (m.settleDeviceEvent device event).view device number := by
  unfold settleDeviceEvent
  split
  · rfl
  · refine ext_of_active rfl rfl rfl ?_ ?_ ?_ ?_ ?_ ?_
    all_goals
      intros
      simp only [refreshDeliveryActive]
      grind

theorem view_swapRules (m : Matcher) (rules : RuleSet) :
    (m.view device number).swapRules rules = (m.swapRules rules).view device number := by
  refine ext_of_active rfl rfl rfl ?_ ?_ ?_ ?_ ?_ ?_
  all_goals
    intros
    simp [swapRules]

theorem view_invalidateSpeculation (m : Matcher) :
    (m.view device number).invalidateSpeculation = m.invalidateSpeculation.view device number := by
  refine ext_of_active rfl rfl rfl ?_ ?_ ?_ ?_ ?_ ?_
  all_goals
    intros
    simp [invalidateSpeculation, refreshDeliveryActive]

theorem view_disqualifyTaps (m : Matcher) :
    (m.view device number).disqualifyTaps = m.disqualifyTaps.view device number := by
  refine ext_of_active rfl rfl rfl ?_ ?_ ?_ ?_ ?_ ?_
  all_goals
    intros
    simp only [disqualifyTaps]
    grind

theorem view_resetDevice (m : Matcher) :
    (m.view device number).resetDevice device = (m.resetDevice device).view device number := by
  refine ext_of_active (refresh_refresh _) rfl rfl ?_ ?_ ?_ ?_ ?_ ?_
  all_goals
    intros
    simp only [resetDevice, refreshDeliveryActive, Dict.retain_key]
    grind

theorem view_reset (m : Matcher) : (m.view device number).reset = m.reset.view device number := by
  refine ext_of_active ?_ rfl rfl ?_ ?_ ?_ ?_ ?_ ?_
  all_goals
    intros
    simp [reset, refreshDeliveryActive]

/- An operation that is kept takes the same step in view. -/
theorem view_of_kept (hZero : 0 ∉ issued) (hNumbered : Numbered device issued m)
    (hGenuine : Genuine device issued ⟨m, op, out⟩) (hStep : m.step op = some (m', out))
    (hKeeps : op.keeps device = true) :
    (m.view device (renumbering issued)).step (op.renumber (renumbering issued)) =
      some (m'.view device (renumbering issued), out.renumber (renumbering issued)) := by
  rw [step_iff (view_active _ _ _)]
  have hView : ∀ {event focusedApp now m₁ verdict}, m.dispatchUngated device event focusedApp now =
        (m₁, verdict) →
      (m.view device (renumbering issued)).dispatchUngated device event focusedApp now =
        (m₁.view device (renumbering issued), verdict) := by
    intro event focusedApp now m₁ verdict hInner
    rw [view_dispatchUngated, hInner]
  cases (step_iff hNumbered.coherent.active).mp hStep with
  | dispatch hInner =>
    obtain rfl := of_decide_eq_true hKeeps
    exact .dispatch (hView hInner)
  | unissued hInner hNot =>
    obtain rfl := of_decide_eq_true hKeeps
    exact .unissued (hView hInner) hNot
  | issued hInner hReplace hMax =>
    obtain rfl := of_decide_eq_true hKeeps
    have hIssued := (hGenuine.issues _ rfl).mpr rfl
    have hStepped := Stepped.issued (hView hInner) hReplace
        (view_generation_ne hZero hNumbered hInner hMax)
    rw [view_issue _ hIssued] at hStepped
    simpa [Op.renumber, Out.renumber, ReplacementToken.renumber, renumbering_succ,
      hIssued] using hStepped
  | report token delivery =>
    replace hKeeps := of_decide_eq_true hKeeps
    have hIssued := hGenuine.reports token rfl hKeeps
    have hStepped := @Stepped.report (m.view device (renumbering issued))
        (token.renumber (renumbering issued)) delivery
    rw [view_reportDelivery delivery hNumbered hKeeps hIssued] at hStepped
    exact hStepped
  | swapRules rules =>
    rw [← view_swapRules]
    exact .swapRules rules
  | invalidateSpeculation =>
    rw [← view_invalidateSpeculation]
    exact .invalidateSpeculation
  | disqualifyTaps =>
    rw [← view_disqualifyTaps]
    exact .disqualifyTaps
  | settle other event =>
    obtain rfl := of_decide_eq_true hKeeps
    rw [← view_settleDeviceEvent]
    exact .settle _ event
  | resetDevice other =>
    obtain rfl := of_decide_eq_true hKeeps
    rw [← view_resetDevice]
    exact .resetDevice _
  | reset =>
    rw [← view_reset]
    exact .reset

/- Issued numbers stay bounded and outstanding ones issued. -/
theorem numbered_step (hNumbered : Numbered device issued m)
    (hGenuine : Genuine device issued ⟨m, op, out⟩) (hStep : m.step op = some (m', out)) :
    Numbered device issued m' := by
  have hCoherent := hNumbered.coherent
  refine ⟨step_coherent hCoherent hStep, ?_, ?_⟩
  · have hBound := hNumbered.bounded
    cases hIssued : out.issued? with
    | none =>
      rw [step_generation hCoherent hStep, hIssued]
      simpa using hBound
    | some token =>
      have hFresh := step_issued hCoherent hStep hIssued
      omega
  · intro key g hPending
    rcases pending_origin hCoherent hStep hPending with hOld | ⟨token, hIssued, hPress, rfl⟩
    · exact hNumbered.pending key g hOld
    · exact (hGenuine.issues token hIssued).mpr (congrArg Prod.fst hPress)

/- The projection of the matcher to one device. -/
def projection (device : DeviceId) (issued : Finset Nat) (hZero : 0 ∉ issued) :
    Projection step (Genuine device issued) where
  keeps := fun op => op.keeps device
  view := view device (renumbering issued)
  mapOp := Op.renumber (renumbering issued)
  mapOut := Out.renumber (renumbering issued)
  valid := Numbered device issued
  valid_step := by
    intro a op b out hNumbered hGenuine hStep
    exact numbered_step hNumbered hGenuine hStep
  kept_step := by
    intro a op b out hNumbered hGenuine hStep hKeeps
    exact view_of_kept hZero hNumbered hGenuine hStep hKeeps
  hidden_step := by
    intro a op b out hNumbered hGenuine hStep hKeeps
    exact view_of_other hNumbered.coherent hGenuine hStep hKeeps

/- The generations a run issued to one device. -/
def issuedTo (device : DeviceId) (trace : List Entry) : Finset Nat :=
  (((trace.filterMap (fun e => e.out.issued?)).filter (fun token => token.device = device)).map
      (fun token => token.generation)).toFinset

theorem mem_issuedTo_iff (trace : List Entry) (g : Nat) :
    g ∈ issuedTo device trace ↔ ∃ e ∈ trace, ∃ token, e.out.issued? = some token ∧
          token.device = device ∧ token.generation = g := by
  simp only [issuedTo, List.mem_toFinset, List.mem_map, List.mem_filter, List.mem_filterMap,
    decide_eq_true_eq]
  constructor
  · intro h
    rcases h with ⟨token, ⟨⟨e, he, hIssued⟩, hDevice⟩, hg⟩
    exact ⟨e, he, token, hIssued, hDevice, hg⟩
  · intro h
    rcases h with ⟨e, he, token, hIssued, hDevice, hg⟩
    exact ⟨token, ⟨⟨e, he, hIssued⟩, hDevice⟩, hg⟩

/- No generation is issued twice, and zero never is. -/
theorem run_issued {trace : List Entry} (hCoherent : m.Coherent)
    (hRun : Run step m trace m') :
    m'.Coherent ∧ (∀ e ∈ trace, ∀ token, e.out.issued? = some token → 0 < token.generation ∧
            token.generation ≤ m'.deliveryGeneration) ∧
      ∀ e ∈ trace, ∀ token, e.out.issued? = some token → ∀ e' ∈ trace, ∀ token',
          e'.out.issued? = some token' → token.generation = token'.generation → token = token' := by
  induction hRun with
  | nil => exact ⟨hCoherent, by simp, by simp⟩
  | @snoc front last next op out hFront hLast ih =>
    rcases ih with ⟨hMid, hBound, hUnique⟩
    have hNext := step_generation hMid hLast
    have hOld : ∀ e ∈ front, ∀ token, e.out.issued? = some token →
        token.generation ≤ last.deliveryGeneration :=
      fun e he token h => (hBound e he token h).2
    refine ⟨step_coherent hMid hLast, ?_, ?_⟩
    · refine forall_mem_snoc.mpr ⟨?_, ?_⟩
      · intro e he token hIssued
        have hFrontBound := hBound e he token hIssued
        rw [hNext]
        split <;> omega
      · intro token hIssued
        have hFresh := step_issued hMid hLast hIssued
        omega
    · intro e he token hIssued e' he' token' hIssued' hSame
      rcases List.mem_append.mp he with he | he
      · rcases List.mem_append.mp he' with he' | he'
        · exact hUnique e he token hIssued e' he' token' hIssued' hSame
        · rw [List.mem_singleton.mp he'] at hIssued'
          have hFresh := step_issued hMid hLast hIssued'
          have hSmall := hOld e he token hIssued
          omega
      · rw [List.mem_singleton.mp he] at hIssued
        have hFresh := step_issued hMid hLast hIssued
        rcases List.mem_append.mp he' with he' | he'
        · have hSmall := hOld e' he' token' hIssued'
          omega
        · rw [List.mem_singleton.mp he'] at hIssued'
          rw [hIssued] at hIssued'
          exact Option.some.inj hIssued'

/-
  Isolation: for every device there is an order-preserving renumbering of its tokens under
  which the operations of that device alone, and the global ones, give the results they
  gave in the full run.
-/
theorem device_isolation {rules : RuleSet} {trace : List Entry} {m : Matcher}
    (hRun : Run step (new rules) trace m) (device : DeviceId)
    (hTokens : ∀ e ∈ trace, ∀ token ∈ e.op.reported?, token.device = device →
          ∃ e' ∈ trace, e'.out.issued? = some token) :
    ∃ number : Nat → Nat, StrictMonoOn number (issuedTo device trace) ∧ ∃ projected last,
          Run step (new rules) projected last ∧ projected.map (fun e => (e.op, e.out)) =
              (trace.filter (fun e => e.op.keeps device)).map (fun e =>
                    (e.op.renumber number, e.out.renumber number)) := by
  rcases run_issued (new_coherent rules) hRun with ⟨_, hBound, hUnique⟩
  have hZero : 0 ∉ issuedTo device trace := by
    intro hMem
    rcases (mem_issuedTo_iff trace 0).mp hMem with ⟨e, he, token, hIssued, _, hGeneration⟩
    have hPositive := (hBound e he token hIssued).1
    omega
  have hGenuine : ∀ e ∈ trace, Genuine device (issuedTo device trace) e := by
    intro e he
    refine ⟨?_, ?_⟩
    · intro token hIssued
      rw [mem_issuedTo_iff]
      constructor
      · intro hMem
        rcases hMem with ⟨e', he', token', hIssued', hDevice, hSame⟩
        rw [hUnique e he token hIssued e' he' token' hIssued' hSame.symm]
        exact hDevice
      · intro hDevice
        exact ⟨e, he, token, hIssued, hDevice, rfl⟩
    · intro token hReport hDevice
      rcases hTokens e he token hReport hDevice with ⟨e', he', hIssued⟩
      exact (mem_issuedTo_iff trace _).mpr ⟨e', he', token, hIssued, hDevice, rfl⟩
  have hStart : Numbered device (issuedTo device trace) (new rules) := by
    refine ⟨new_coherent rules, by simp [new], ?_⟩
    intro key g hPending
    simp [new] at hPending
  have hNew : (new rules).view device (renumbering (issuedTo device trace)) = new rules := by
    refine ext_of_active rfl (new_coherent rules).active rfl ?_ ?_ ?_ ?_ ?_ ?_
    all_goals
      intros
      simp [new, renumbering_zero hZero]
  refine ⟨renumbering (issuedTo device trace), renumbering_strictMonoOn _, ?_⟩
  rcases (hRun.project (projection device (issuedTo device trace) hZero) hStart hGenuine).2 with
    ⟨projected, hProjected, hMap⟩
  have hFirst : Run step ((new rules).view device (renumbering (issuedTo device trace)))
      projected
      (m.view device (renumbering (issuedTo device trace))) := hProjected
  rw [hNew] at hFirst
  exact ⟨projected, _, hFirst, hMap⟩

/- Option-K on two keyboards, the second one reported. -/
def twoKeyboards : List Op :=
  [.dispatchWithDelivery ⟨1⟩ ⟨.keyK, .keyDown, .alt⟩ none 0,
    .dispatchWithDelivery ⟨2⟩ ⟨.keyK, .keyDown, .alt⟩ none 1,
    .report ⟨⟨2⟩, .keyK, 2⟩ .rejectedOriginalForwarded,
    .dispatch ⟨2⟩ ⟨.keyK, .keyUp, .empty⟩ none 2]

theorem device_isolation_twoKeyboards :
    ∃ number : Nat → Nat, StrictMonoOn number (issuedTo ⟨2⟩ (entriesOf step (new optionK)
              twoKeyboards)) ∧
        ∃ projected last, Run step (new optionK) projected last ∧
            projected.map (fun e => e.out) = [.verdict (.replace (.sendKey .keyT .alt))
                  (some ⟨⟨2⟩, .keyK, number 2⟩),
                .reported true,
                .verdict .pass none] := by
  have hRun : Run step (new optionK) (entriesOf step (new optionK)
        twoKeyboards)
      (lastOf step (new optionK) twoKeyboards) :=
    Run.of_isSome (by decide)
  rcases device_isolation hRun ⟨2⟩ (by decide) with
    ⟨number, hMono, projected, last, hProjected, hMap⟩
  refine ⟨number, hMono, projected, last, hProjected, ?_⟩
  have hOuts := congrArg (List.map Prod.snd) hMap
  rw [List.map_map] at hOuts
  exact hOuts

end Matcher

end Sledge.Core
