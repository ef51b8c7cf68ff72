import Sledge.Core.Firing
import Sledge.Core.Taps

/-
  The tap machines of a matcher along a run.

  Each operation feeds the machines of a device at most one
  call, the same for every rule, or renews them all.  So a
  machine is what its device's calls since the last renewal
  make of a fresh one, and a tap rule that fires has taps to
  show for its count.

  Main results:
    * `Matcher.step_machines`
    * `TapFsm.Reported.began`
    * `TapFsm.Began.unbroken`
    * `TapFsm.Began.spans`
    * `Matcher.fires_tapped`
-/

-----
-- Calls Of A Dispatch

namespace Sledge.Core

open TapFsm

namespace TapFsm

/- Feed at most one call. -/
def advance (fsm : TapFsm) : Option Call → TapFsm
  | some call => (fsm.feed call).1
  | none => fsm

theorem after_succ (within : Duration) (calls : Calls) (n : Nat) :
    after within calls (n + 1) = (after within calls n).advance (calls n) := by
  rw [after]
  cases calls n <;> rfl

/- Only the calls before a point matter to it. -/
theorem after_congr {calls calls' : Calls} {n : Nat} (within : Duration)
    (hSame : ∀ l < n, calls l = calls' l) : after within calls n = after within calls' n := by
  induction n with
  | zero => rfl
  | succ n ih =>
    rw [after_succ, after_succ, hSame n (Nat.lt_succ_self n), ih (fun l hBefore =>
        hSame l (Nat.lt_succ_of_lt hBefore))]

end TapFsm

namespace Matcher

/- The event is answered by the owner of its press. -/
def answered (m : Matcher) (device : DeviceId) (event : KeyEvent) : Bool :=
  event.kind ≠ .modifiersChanged ∧ ((device, event.code) ∈ m.swallowedDowns ∨
      (device, event.code) ∈ m.forwardedDowns)

/- Another modifier of the device is down. -/
def othersDown (m : Matcher) (device : DeviceId) (event : KeyEvent) (isDown : Bool) : Bool :=
  (m.modifierState.insert (device, event.code) isDown).any (fun p down =>
      p.1 == device && p.2 != event.code && down)

def wasDown (m : Matcher) (device : DeviceId) (event : KeyEvent) : Bool :=
  (m.modifierState.get? (device, event.code)).getD false

/- The call a modifier's transition makes. -/
def transitionCall (m : Matcher) (device : DeviceId) (event : KeyEvent) (now : Instant)
    (isDown : Bool) : Call :=
  if isDown && !m.wasDown device event && m.othersDown device event isDown then
    .otherKey
  else
    .transition event.code (m.wasDown device event) isDown event.mods now

/- The call an event makes once it is left to the rules. -/
def matchedCall (m : Matcher) (device : DeviceId) (event : KeyEvent) (now : Instant) :
    Option Call :=
  if event.code.isModifier then
    (isDownAfter event).map (m.transitionCall device event now)
  else if event.kind = .keyDown then some .otherKey
  else none

/- The call a dispatch makes on its device's machines. -/
def dispatchCall (m : Matcher) (device : DeviceId) (event : KeyEvent) (now : Instant) :
    Option Call :=
  if m.answered device event then none
  else m.matchedCall device event now

/- The modifiers held after an event left to the rules. -/
def matchedModifiers (m : Matcher) (device : DeviceId) (event : KeyEvent) : Dict Press Bool :=
  if event.code.isModifier then
    match isDownAfter event with
    | some isDown => m.modifierState.insert (device, event.code) isDown
    | none => m.modifierState
  else m.modifierState

/- The modifiers held after a dispatch. -/
def dispatchModifiers (m : Matcher) (device : DeviceId) (event : KeyEvent) : Dict Press Bool :=
  if m.answered device event then m.modifierState
  else m.matchedModifiers device event

/- Machines nothing was fed to. -/
def freshFsms (rules : RuleSet) : List TapFsm :=
  rules.tapTriggers.map (fun trigger =>
    withWindow (fromMillis trigger.withinMs))

theorem deviceFsms_eq (m : Matcher) (device : DeviceId) :
    m.deviceFsms device = (m.tapFsms.get? device).getD (freshFsms m.rules) :=
  rfl

variable {m : Matcher} {device d : DeviceId} {event : KeyEvent} {focusedApp : Option String}
variable {now : Instant}

theorem feedTaps_fst (wasDown isDown : Bool) {rules : List Rule} {fsms : List TapFsm}
    (hLength : fsms.length = rules.length) :
    (feedTaps event wasDown isDown focusedApp now rules fsms).1 = fsms.map (fun fsm =>
        (fsm.onTransition event.code wasDown isDown event.mods now).1) := by
  induction rules generalizing fsms with
  | nil =>
    obtain rfl := List.length_eq_zero_iff.mp hLength
    rfl
  | cons rule rules ih =>
    cases fsms with
    | nil => cases hLength
    | cons fsm fsms =>
      simp only [feedTaps, List.map_cons]
      rw [ih (Nat.succ.inj hLength)]

/- An event that is left to the rules. -/
def dispatchMatched (m : Matcher) (device : DeviceId) (event : KeyEvent)
    (focusedApp : Option String) (now : Instant) : Matcher × Verdict :=
  if event.code.isModifier then
    m.dispatchModifier device event focusedApp now
  else m.dispatchKey device event focusedApp

/- What such an event does besides claiming its press. -/
structure Matched (m m' : Matcher) (device : DeviceId) (event : KeyEvent) (now : Instant) :
    Prop where
  rules : m'.rules = m.rules
  tapFsms : m'.tapFsms = m.tapFsms.insert device ((m.deviceFsms device).map (fun fsm =>
          fsm.advance (m.matchedCall device event now)))
  modifierState : m'.modifierState = m.matchedModifiers device event

theorem dispatchModifier_matched (focusedApp : Option String) (now : Instant)
    (hModifier : event.code.isModifier = true)
    (hLength : (m.deviceFsms device).length = m.rules.taps.length) :
    Matched m (m.dispatchModifier device event focusedApp now).1 device event now := by
  have hCall : m.matchedCall device event now = (isDownAfter event).map
      (m.transitionCall device event now) :=
    if_pos hModifier
  have hHeld : m.matchedModifiers device event =
      match isDownAfter event with
      | some isDown => m.modifierState.insert (device, event.code) isDown
      | none => m.modifierState :=
    if_pos hModifier
  unfold dispatchModifier
  dsimp only
  cases hDown : isDownAfter event with
  | none =>
    rw [hDown] at hCall hHeld
    refine ⟨rfl, ?_, hHeld.symm⟩
    rw [hCall]
    simp [advance]
  | some isDown =>
    rw [hDown, Option.map_some] at hCall
    rw [hDown] at hHeld
    unfold transitionCall wasDown othersDown at hCall
    dsimp only
    split_ifs with hOthers
    · rw [if_pos hOthers] at hCall
      refine ⟨rfl, ?_, hHeld.symm⟩
      rw [hCall]
      rfl
    · rw [if_neg hOthers] at hCall
      refine ⟨rfl, ?_, hHeld.symm⟩
      rw [hCall]
      exact congrArg (m.tapFsms.insert device) (feedTaps_fst _ isDown hLength)

theorem dispatchKey_matched (focusedApp : Option String) (now : Instant)
    (hKey : event.code.isModifier = false) :
    Matched m (m.dispatchKey device event focusedApp).1 device event now := by
  have hCall : m.matchedCall device event now = if event.kind = .keyDown then some .otherKey
      else none := by
    simp [matchedCall, hKey]
  have hHeld : m.matchedModifiers device event = m.modifierState := by simp [matchedModifiers, hKey]
  unfold dispatchKey
  dsimp only
  by_cases hDown : event.kind = .keyDown
  · rw [if_pos hDown] at hCall
    rw [if_pos hDown]
    split <;>
    · refine ⟨rfl, ?_, hHeld.symm⟩
      rw [hCall]
      rfl
  · rw [if_neg hDown] at hCall
    rw [if_neg hDown]
    refine ⟨rfl, ?_, hHeld.symm⟩
    rw [hCall]
    simp [advance]

theorem dispatchMatched_matched (focusedApp : Option String) (now : Instant)
    (hLength : (m.deviceFsms device).length = m.rules.taps.length) :
    Matched m (m.dispatchMatched device event focusedApp now).1 device event now := by
  unfold dispatchMatched
  split_ifs with hModifier
  · exact dispatchModifier_matched focusedApp now hModifier hLength
  · exact dispatchKey_matched focusedApp now (by simpa using hModifier)

/- What dispatch reads and keeps besides ownership. -/
structure SameTaps (m m' : Matcher) : Prop where
  rules : m'.rules = m.rules
  tapFsms : m'.tapFsms = m.tapFsms
  modifierState : m'.modifierState = m.modifierState

variable {m' : Matcher}

theorem SameTaps.deviceFsms (hSame : SameTaps m m') (d : DeviceId) :
    m'.deviceFsms d = m.deviceFsms d := by
  rw [deviceFsms_eq, deviceFsms_eq, hSame.tapFsms, hSame.rules]

theorem SameTaps.matched {m'' : Matcher} (hSame : SameTaps m m')
    (hMatched : Matched m' m'' device event now) : Matched m m'' device event now := by
  rcases m with ⟨rules, fsms, held, _⟩
  rcases m' with ⟨rules', fsms', held', _⟩
  rcases hSame with ⟨rfl, rfl, rfl⟩
  exact ⟨hMatched.rules, hMatched.tapFsms, hMatched.modifierState⟩

theorem reconcile_sameTaps (m : Matcher) (press : Press) (kind : EventKind) :
    SameTaps m (m.reconcileDeliveryEvent press kind).1 := by
  rw [reconcile_fst]
  exact ⟨rfl, rfl, rfl⟩

/- An answered event leaves the machines alone. -/
theorem dispatchUngated_of_answered (focusedApp : Option String) (now : Instant)
    (hAnswered : m.answered device event = true) :
    SameTaps m (m.dispatchUngated device event focusedApp now).1 := by
  rcases of_decide_eq_true hAnswered with ⟨hKind, hOwned⟩
  have hReconciled := reconcile_sameTaps m (device, event.code) event.kind
  by_cases hForwarded : (device, event.code) ∈ m.forwardedDowns
  · rw [dispatchUngated_of_forwarded m focusedApp now hKind hForwarded]
    exact hReconciled
  · have hSwallowed := hOwned.resolve_right hForwarded
    rw [dispatchUngated_of_not_forwarded m focusedApp now (.inr hForwarded)]
    unfold dispatchOwned
    cases hEvent : event.kind with
    | modifiersChanged => exact absurd hEvent hKind
    | keyDown =>
      rw [hEvent] at hReconciled
      simpa [hSwallowed] using hReconciled
    | keyUp =>
      rw [hEvent] at hReconciled
      simp only [true_and, reconcile_swallowedDowns, hSwallowed, if_true]
      exact ⟨hReconciled.rules, hReconciled.tapFsms, hReconciled.modifierState⟩

/- Any other event is left to the rules. -/
theorem dispatchUngated_of_unanswered (focusedApp : Option String) (now : Instant)
    (hFree : m.answered device event = false) :
    m.dispatchUngated device event focusedApp now = (m.reconcileDeliveryEvent (device, event.code)
          event.kind).1.dispatchMatched device event
        focusedApp now := by
  have hCases : event.kind = .modifiersChanged ∨ ((device, event.code) ∉ m.swallowedDowns ∧
      (device, event.code) ∉ m.forwardedDowns) := by
    have hNot := of_decide_eq_false hFree
    by_cases hKind : event.kind = .modifiersChanged
    · exact .inl hKind
    · right
      push Not at hNot
      exact hNot hKind
  rw [dispatchUngated_of_not_forwarded m focusedApp now (hCases.imp_right And.right),
    dispatchOwned_of_free _ focusedApp now (by simpa using hCases.imp_right And.left)]
  rfl

theorem deviceFsms_insert {fsms : List TapFsm} (hRules : m'.rules = m.rules)
    (hTaps : m'.tapFsms = m.tapFsms.insert device fsms) (d : DeviceId) :
    m'.deviceFsms d = if device = d then fsms else m.deviceFsms d := by
  rw [deviceFsms_eq, hTaps, hRules, Dict.get?_insert]
  by_cases hHere : device = d
  · rw [if_pos hHere.symm, if_pos hHere]
    rfl
  · rw [if_neg (Ne.symm hHere), if_neg hHere]
    rfl

/- A dispatch feeds its call to its device's machines. -/
structure Dispatched (m m' : Matcher) (device : DeviceId) (event : KeyEvent) (now : Instant) :
    Prop where
  rules : m'.rules = m.rules
  machines : ∀ d, m'.deviceFsms d = (m.deviceFsms d).map (fun fsm =>
          fsm.advance (if device = d then
              m.dispatchCall device event now
            else none))
  modifierState : m'.modifierState = m.dispatchModifiers device event

theorem map_advance_none (fsms : List TapFsm) : fsms.map (fun fsm => fsm.advance none) = fsms := by
  simp [advance]

theorem dispatchUngated_dispatched (focusedApp : Option String) (now : Instant)
    (hLength : (m.deviceFsms device).length = m.rules.taps.length) :
    Dispatched m (m.dispatchUngated device event focusedApp now).1 device event now := by
  have hReconciled := reconcile_sameTaps m (device, event.code) event.kind
  cases hAnswered : m.answered device event with
  | true =>
    have hSame := dispatchUngated_of_answered focusedApp now hAnswered
    refine ⟨hSame.rules, ?_, ?_⟩
    · intro d
      rw [hSame.deviceFsms d]
      simp [dispatchCall, hAnswered, map_advance_none]
    · rw [hSame.modifierState]
      simp [dispatchModifiers, hAnswered]
  | false =>
    rw [dispatchUngated_of_unanswered focusedApp now hAnswered]
    have hMatched : Matched m _ device event now := hReconciled.matched
        (dispatchMatched_matched focusedApp now (by
          rw [hReconciled.deviceFsms, hReconciled.rules]
          exact hLength))
    refine ⟨hMatched.rules, ?_, ?_⟩
    · intro d
      rw [deviceFsms_insert hMatched.rules hMatched.tapFsms d]
      split_ifs with hHere
      · subst hHere
        simp [dispatchCall, hAnswered]
      · exact (map_advance_none _).symm
    · rw [hMatched.modifierState]
      simp [dispatchModifiers, hAnswered]

end Matcher

-----
-- Calls Of An Operation

namespace Trigger

theorem eq_of_tap? {trigger : Trigger} {tap : TapTrigger} (hTap : trigger.tap? = some tap) :
    trigger = .tap tap := by
  cases trigger with
  | hotkey other => cases hTap
  | tap other =>
    cases hTap
    rfl

end Trigger

namespace RuleSet

theorem length_tapTriggers (rules : RuleSet) : rules.tapTriggers.length = rules.taps.length := by
  unfold tapTriggers
  rw [List.length_filterMap_eq_countP, List.countP_eq_length]
  exact rules.taps_tap

end RuleSet

namespace Matcher

namespace Op

/- The operation starts the device's machines afresh. -/
def renews (d : DeviceId) : Op → Bool
  | .swapRules _ => true
  | .invalidateSpeculation => true
  | .reset => true
  | .settle device event => device == d && event.kind == .keyUp
  | .resetDevice device => device == d
  | _ => false

end Op

/- The call an operation makes on a device's machines. -/
def tapCall (m : Matcher) (d : DeviceId) : Op → Option Call
  | .dispatch device event _ now =>
    if device = d then m.dispatchCall device event now
    else none
  | .dispatchWithDelivery device event _ now =>
    if device = d then m.dispatchCall device event now
    else none
  | .disqualifyTaps => some .otherKey
  | _ => none

/- Every device has one machine for each tap rule. -/
def Sized (m : Matcher) : Prop := ∀ d, (m.deviceFsms d).length = m.rules.taps.length

variable {m m' : Matcher} {op : Op} {out : Out} {d : DeviceId}

theorem length_freshFsms (rules : RuleSet) : (freshFsms rules).length = rules.taps.length := by
  simp [freshFsms, RuleSet.length_tapTriggers]

theorem new_sized (rules : RuleSet) : (new rules).Sized := fun _ => length_freshFsms rules

/- An operation starts the machines afresh. -/
structure Renewed (m' : Matcher) (d : DeviceId) : Prop where
  machines : m'.deviceFsms d = freshFsms m'.rules

/- Or it feeds them all the same call, if any. -/
structure Advanced (m m' : Matcher) (d : DeviceId) (call : Option Call) : Prop where
  rules : m'.rules = m.rules
  machines : m'.deviceFsms d = (m.deviceFsms d).map (fun fsm => fsm.advance call)

theorem Advanced.idle (hRules : m'.rules = m.rules) (hTaps : m'.tapFsms.get? d = m.tapFsms.get? d) :
    Advanced m m' d none := by
  refine ⟨hRules, ?_⟩
  rw [map_advance_none, deviceFsms_eq, deviceFsms_eq, hTaps, hRules]

theorem Dispatched.advanced {device : DeviceId} {event : KeyEvent} {now : Instant}
    (hDispatched : Dispatched m m' device event now) (d : DeviceId) :
    Advanced m m' d (if device = d then m.dispatchCall device event now
        else none) :=
  ⟨hDispatched.rules, hDispatched.machines d⟩

theorem disqualifyTaps_advanced (m : Matcher) (d : DeviceId) :
    Advanced m m.disqualifyTaps d (some .otherKey) := by
  refine ⟨rfl, ?_⟩
  unfold disqualifyTaps
  rw [deviceFsms_eq, deviceFsms_eq, Dict.get?_mapValues]
  cases m.tapFsms.get? d with
  | some fsms => rfl
  | none =>
    -- A machine nothing was fed to has nothing to lose.
    simp only [Option.map_none, Option.getD_none, freshFsms, List.map_map]
    rfl

theorem step_machines (hActive : m.refreshDeliveryActive = m) (hSized : m.Sized)
    (hStep : m.step op = some (m', out)) (d : DeviceId) :
    (op.renews d = true ∧ Renewed m' d) ∨ (op.renews d = false ∧ Advanced m m' d (m.tapCall d op)) := by
  cases (step_iff hActive).mp hStep with
  | @dispatch device event focusedApp now m₁ verdict hInner
  | @unissued device event focusedApp now m₁ verdict hInner _ =>
    have hDispatched : Dispatched m _ device event now := dispatchUngated_dispatched focusedApp now
        (hSized device)
    rw [hInner] at hDispatched
    exact .inr ⟨rfl, hDispatched.advanced d⟩
  | @issued device event focusedApp now m₁ verdict hInner _ _ =>
    have hDispatched : Dispatched m _ device event now := dispatchUngated_dispatched focusedApp now
        (hSized device)
    rw [hInner] at hDispatched
    have hAdvanced := hDispatched.advanced d
    exact .inr ⟨rfl, hAdvanced.rules, hAdvanced.machines⟩
  | report token delivery =>
    refine .inr ⟨rfl, .idle ?_ ?_⟩ <;>
    · unfold reportDelivery
      dsimp only
      split_ifs <;> rfl
  | swapRules rules | invalidateSpeculation | reset => exact .inl ⟨rfl, ⟨rfl⟩⟩
  | disqualifyTaps => exact .inr ⟨rfl, disqualifyTaps_advanced m d⟩
  | settle device event =>
    unfold settleDeviceEvent
    by_cases hUp : event.kind = .keyUp
    · rw [if_neg (not_not_intro hUp)]
      by_cases hHere : device = d
      · refine .inl ⟨by simp [Op.renews, hHere, hUp], ⟨?_⟩⟩
        subst hHere
        simp [deviceFsms_eq, refreshDeliveryActive]
      · refine .inr ⟨by simp [Op.renews, hHere], .idle rfl ?_⟩
        simp [refreshDeliveryActive, Ne.symm hHere]
    · rw [if_pos hUp]
      exact .inr ⟨by simp [Op.renews, hUp], .idle rfl rfl⟩
  | resetDevice device =>
    by_cases hHere : device = d
    · refine .inl ⟨by simp [Op.renews, hHere], ⟨?_⟩⟩
      subst hHere
      simp [deviceFsms_eq, resetDevice, refreshDeliveryActive]
    · refine .inr ⟨by simp [Op.renews, hHere], .idle rfl ?_⟩
      simp [resetDevice, refreshDeliveryActive, Ne.symm hHere]

theorem step_sized (hActive : m.refreshDeliveryActive = m) (hSized : m.Sized)
    (hStep : m.step op = some (m', out)) : m'.Sized := by
  intro d
  rcases step_machines hActive hSized hStep d with ⟨_, hRenewed⟩ | ⟨_, hAdvanced⟩
  · rw [hRenewed.machines]
    exact length_freshFsms _
  · rw [hAdvanced.machines, hAdvanced.rules, List.length_map]
    exact hSized d

-----
-- Machines And Their Calls

/- The machines are what the calls make of fresh ones. -/
def Fed (m : Matcher) (d : DeviceId) (calls : Calls) (n : Nat) : Prop :=
  m.deviceFsms d = m.rules.tapTriggers.map (fun trigger =>
      after (fromMillis trigger.withinMs) calls n)

variable {calls : Calls} {n : Nat}

theorem Renewed.fed (hRenewed : Renewed m d) (calls : Calls) : m.Fed d calls 0 :=
  hRenewed.machines

theorem Advanced.fed (hAdvanced : Advanced m m' d (calls n)) (hFed : m.Fed d calls n) :
    m'.Fed d calls (n + 1) := by
  unfold Fed
  rw [hAdvanced.machines, hAdvanced.rules, hFed, List.map_map]
  refine List.map_congr_left ?_
  intro trigger _
  exact (after_succ _ calls n).symm

theorem Fed.congr {calls' : Calls} (hFed : m.Fed d calls n)
    (hSame : ∀ l < n, calls l = calls' l) : m.Fed d calls' n := by
  unfold Fed
  rw [hFed]
  refine List.map_congr_left ?_
  intro trigger _
  exact after_congr _ hSame

variable {event : KeyEvent} {focusedApp : Option String} {now : Instant}

/- The machine of a rule that fires reports its count. -/
theorem firedTap_tapped {wasDown isDown : Bool} {rules : List Rule} {rule : Rule}
    (machine : TapTrigger → TapFsm) (hTaps : ∀ rule ∈ rules, rule.trigger.tap?.isSome)
    (hFired : firedTap event wasDown isDown focusedApp now rules
          ((rules.filterMap (·.trigger.tap?)).map machine) = some rule) :
    ∃ trigger, rule.trigger = .tap trigger ∧ ((machine trigger).onTransition event.code wasDown
            isDown event.mods now).2 =
          .tapped trigger.tap trigger.count := by
  induction rules with
  | nil => cases hFired
  | cons first rules ih =>
    rw [List.forall_mem_cons] at hTaps
    rcases Option.isSome_iff_exists.mp hTaps.1 with ⟨trigger, hTrigger⟩
    have hTap := Trigger.eq_of_tap? hTrigger
    rw [List.filterMap_cons_some (f := fun rule : Rule => rule.trigger.tap?) hTrigger,
      List.map_cons] at hFired
    simp only [firedTap] at hFired
    split_ifs at hFired with hFires
    · cases hFired
      refine ⟨trigger, hTap, ?_⟩
      unfold tapAction at hFires
      rw [hTap] at hFires
      split at hFires
      · rename_i key count other hResult hSame
        cases hSame
        split_ifs at hFires with hAll
        · rw [hResult, ← hAll.1, ← hAll.2.1]
        · cases hFires
      · cases hFires
    · exact ih hTaps.2 hFired

theorem unanswered_of_replace {action : Action}
    (hReplace : (m.dispatchUngated d event focusedApp now).2 = .replace action) :
    m.answered d event = false := by
  by_contra hNot
  have hAnswered : m.answered d event = true := by simpa using hNot
  rcases of_decide_eq_true hAnswered with ⟨hKind, hOwned⟩
  by_cases hForwarded : (d, event.code) ∈ m.forwardedDowns
  · rw [dispatchUngated_of_forwarded m focusedApp now hKind hForwarded] at hReplace
    cases hReplace
  · rw [dispatchUngated_of_not_forwarded m focusedApp now (.inr hForwarded),
      dispatchOwned_of_swallowed _ focusedApp now hKind
        (by simpa using hOwned.resolve_right hForwarded)]
      at hReplace
    cases hReplace

/- A tap rule fires on the release its machine counts. -/
theorem fires_tapped {rule : Rule} {trigger : TapTrigger} (hActive : m.refreshDeliveryActive = m)
    (hFed : m.Fed d calls n) (hFires : m.Fires d event focusedApp now rule)
    (hTrigger : rule.trigger = .tap trigger) :
    m.dispatchCall d event now = some (.transition trigger.tap true false event.mods now) ∧
      event.code = trigger.tap ∧
      isDownAfter event = some false ∧
      ((after (fromMillis trigger.withinMs) calls n).feed
        (.transition trigger.tap true false event.mods now)).2 =
        .tapped trigger.tap trigger.count := by
  cases hFires with
  | hotkey hKey hFound hVerdict =>
    have hHotkey := m.rules.hotkeys_hotkey rule (List.mem_of_find?_eq_some hFound)
    rw [hTrigger] at hHotkey
    cases hHotkey
  | tap isDown hKey hDown hFound hVerdict =>
    rw [hFed] at hFound
    rcases firedTap_tapped (fun trigger =>
          after (fromMillis trigger.withinMs) calls n)
        m.rules.taps_tap hFound with
      ⟨found, hFoundTrigger, hTapped⟩
    rw [hTrigger] at hFoundTrigger
    cases hFoundTrigger
    rcases (onTransition_eq_tapped_iff _ _ _ _ _ _ _ _).mp hTapped with ⟨hWas, rfl, hCode, _⟩
    rw [dispatchDevice_eq_ungated hActive] at hVerdict
    have hFree := unanswered_of_replace hVerdict
    refine ⟨?_, hCode.symm, hDown, ?_⟩
    · have hWasDown : m.wasDown d event = true := hWas
      simp [dispatchCall, hFree, matchedCall, hKey, hDown, transitionCall, hWasDown, hCode]
    · rw [hWas, ← hCode] at hTapped
      exact hTapped

end Matcher

-----
-- Counted Taps

namespace TapFsm

open Timeline

/- The press at `j` began the first of the taps of a chain. -/
structure Opens (calls : Calls) (key : KeyCode) (j first : Nat) : Prop where
  before : j < first
  pressed : calls.PressedAlone key j
  undisturbed : ∀ l, j < l → l < first → calls.Undisturbed key l

/- The press at `j` began the first of the `count` taps that end at `i`. -/
def Began (within : Duration) (calls : Calls) (key : KeyCode) (count i j : Nat) : Prop :=
  ∃ earlier, Chain (calls.Linked within key) i earlier ∧ earlier.length + 1 = count ∧
      Opens calls key j (earlier.getLastD i)

variable {within : Duration} {calls : Calls} {key : KeyCode} {count i j : Nat}

variable {now : Instant}

theorem Opens.of_tap (hTap : calls.Tap i key now) : ∃ j, Opens calls key j i := by
  rcases hTap.2 with ⟨j, hBefore, hPressed, hQuiet⟩
  exact ⟨j, hBefore, hPressed, hQuiet⟩

/- The earliest point of a chain of taps is a tap. -/
theorem chain_first_tap {earlier : List Nat} (hChain : Chain (calls.Linked within key) i earlier)
    (hTap : calls.Tap i key now) : ∃ t, calls.Tap (earlier.getLastD i) key t := by
  induction earlier generalizing i now with
  | nil => exact ⟨now, hTap⟩
  | cons a rest ih =>
    rcases List.isChain_cons_cons.mp hChain with ⟨⟨start, stop, hStanding, _⟩, hRest⟩
    rcases hStanding with ⟨j, _, ⟨rfl, hStart⟩, _⟩
    rw [List.getLastD_cons]
    exact ih hRest hStart

/- A reported count has the taps to show for it. -/
theorem Reported.began (hReported : Reported within calls i key count) :
    ∃ j, Began within calls key count i j := by
  rcases hReported with ⟨⟨now, hTap⟩, length, ⟨⟨earlier, hChain, rfl⟩, _⟩, hCount⟩
  have hMax : 1 ≤ u32Max := by decide
  have hShort := hChain.take (count - 1)
  rcases chain_first_tap hShort hTap with ⟨t, hFirst⟩
  rcases Opens.of_tap hFirst with ⟨j, hOpens⟩
  refine ⟨j, _, hShort, ?_, hOpens⟩
  rw [List.length_take]
  omega

/- A tap breaks no sequence of its own key. -/
theorem Calls.Tap.unbroken (hTap : calls.Tap i key now) : ¬ calls.Breaks key i := by
  rcases hTap.1 with ⟨mods, hCall⟩
  refine Calls.not_breaks ?_ ?_
  · rw [hCall]
    simp
  · rintro other held ⟨t, hPressed⟩
    rw [hCall] at hPressed
    cases hPressed

theorem Calls.breaks_congr {calls' : Calls} (hSame : calls i = calls' j) :
    calls.Breaks key i ↔ calls'.Breaks key j := by
  unfold Calls.Breaks Calls.Pressed
  rw [hSame]

/- Nothing breaks a sequence between its taps. -/
theorem chain_unbroken {earlier : List Nat} (hChain : Chain (calls.Linked within key) i earlier) :
    earlier.getLastD i ≤ i ∧ ∀ l, earlier.getLastD i ≤ l → l < i → ¬ calls.Breaks key l := by
  induction earlier generalizing i with
  | nil =>
    refine ⟨Nat.le_refl i, ?_⟩
    intro l hFrom hBefore
    exact absurd hBefore (Nat.not_lt.mpr hFrom)
  | cons a rest ih =>
    rcases List.isChain_cons_cons.mp hChain with ⟨⟨start, stop, hStanding, _⟩, hRest⟩
    rcases hStanding with ⟨b, hBefore, ⟨rfl, hStart⟩, hQuiet⟩
    rcases ih hRest with ⟨hOrder, hEarlier⟩
    rw [List.getLastD_cons]
    refine ⟨Nat.le_trans hOrder (Nat.le_of_lt hBefore), ?_⟩
    intro l hFrom hLast
    rcases Nat.lt_trichotomy l b with hLess | rfl | hLater
    · exact hEarlier l hFrom hLess
    · exact hStart.unbroken
    · exact (hQuiet l hLater hLast).1

/- Nothing breaks the sequence from its first press on. -/
theorem Began.unbroken (hBegan : Began within calls key count i j) :
    j < i ∧ ∀ l, j < l → l < i → ¬ calls.Breaks key l := by
  rcases hBegan with ⟨earlier, hChain, _, hOpens⟩
  rcases chain_unbroken hChain with ⟨hOrder, hQuiet⟩
  refine ⟨Nat.lt_of_lt_of_le hOpens.before hOrder, ?_⟩
  intro l hAfter hBefore
  by_cases hFirst : l < earlier.getLastD i
  · rcases hOpens.undisturbed l hAfter hFirst with ⟨hTyped, hUnpressed, _⟩
    exact Calls.not_breaks hTyped hUnpressed
  · exact hQuiet l (Nat.not_lt.mp hFirst) hBefore

/- One tap, from its press to its release. -/
def TapSpan (calls : Calls) (key : KeyCode) (start stop : Nat) (now : Instant) : Prop :=
  Opens calls key start stop ∧ calls.Released stop key now

/- A tap that ends within the window of the one before. -/
def Near (within : Duration) (start stop : Instant) : Prop := start ≤ stop ∧ stop - start ≤ within

theorem Calls.Released.now_unique {t : Instant} (hNow : calls.Released i key now)
    (hThen : calls.Released i key t) : now = t := by
  rcases hNow with ⟨mods, hCall⟩
  rcases hThen with ⟨mods', hCall'⟩
  rw [hCall] at hCall'
  cases hCall'
  rfl

/- The press of a tap comes after the tap before it. -/
theorem Opens.after_tap {a start : Nat} (hOpens : Opens calls key start i)
    (hTap : calls.Tap a key now) (hBefore : a < i) : a < start := by
  rcases Nat.lt_trichotomy a start with hLess | rfl | hGreater
  · exact hLess
  · rcases hOpens.pressed with ⟨_, ⟨_, hPressed⟩, _⟩
    rcases hTap.1 with ⟨_, hReleased⟩
    rw [hPressed] at hReleased
    cases hReleased
  · exact absurd hTap.1 ((hOpens.undisturbed a hGreater hBefore).2.2 now)

/- The counted taps follow one another. -/
theorem Began.spans (hBegan : Began within calls key count i j) (hTap : calls.Tap i key now) :
    Spans (TapSpan calls key) (Near within) count j i now := by
  rcases hBegan with ⟨earlier, hChain, rfl, hOpens⟩
  induction earlier generalizing i now with
  | nil => exact .one ⟨hOpens, hTap.1⟩
  | cons a rest ih =>
    rcases List.isChain_cons_cons.mp hChain with ⟨⟨start, stop, hStanding, hStop, hNear⟩, hRest⟩
    rcases hStanding with ⟨b, hBefore, ⟨rfl, hStart⟩, _⟩
    obtain rfl := hTap.1.now_unique hStop.1
    rw [List.getLastD_cons] at hOpens
    rcases Opens.of_tap hTap with ⟨press, hPress⟩
    exact .more (ih hStart hRest hOpens) (hPress.after_tap hStart hBefore)
      ⟨hPress, hTap.1⟩ hNear

end TapFsm

end Sledge.Core
