import Sledge.Core.TapRuns

/-
  What may happen while a tap rule counts.

  A tap rule fires when its modifier was tapped often enough
  with nothing else pressed.  Ownership is looked at first,
  though: the repeats of a key that a hotkey has consumed are
  swallowed before they reach the tap machines, so they pass
  between counted taps unnoticed.  Nothing else does.

  Main results:
    * `Matcher.step_modifier_free`
    * `Matcher.run_othersUp`
    * `Matcher.pureSince_iff`
-/

-----
-- Ownership In Dispatch Runs

namespace Sledge.Core.Matcher

open Transition

variable {m m' : Matcher} {op : Op} {out : Out} {focusedApp : Option String} {event : KeyEvent}
variable {device : DeviceId} {now : Instant}

theorem dispatchUngated_modifier_down
    (hActive : m.refreshDeliveryActive = m)
    (hModifier : event.code.isModifier = true) (hKind : event.kind = .keyDown)
    (hFree : m.owner (device, event.code) = .free) :
    (m.dispatchUngated device event focusedApp now).2 = .pass := by
  rcases (owner_eq_free_iff m _).mp hFree with ⟨hSwallowed, hForwarded⟩
  rw [← dispatchDevice_eq_ungated hActive,
    dispatchDevice_of_unowned m focusedApp now hKind hSwallowed hForwarded, if_pos hModifier]

/- The record of a modifier that is not owned. -/
theorem dispatched_modifier_free {h : Holding} {kind : EventKind} {verdict : Verdict}
    {token : Option ReplacementToken} (hFree : h.owner = .free)
    (hDown : kind = .keyDown → verdict.isReplace = false) :
    (h.dispatched kind verdict token).owner = .free := by
  unfold Holding.dispatched
  cases kind with
  | keyUp => rfl
  | keyDown => simp [hDown rfl, hFree]
  | modifiersChanged => exact hFree

/- Modifiers are never owned. -/
theorem step_modifier_free {p : Press} (hCoherent : m.Coherent) (hModifier : p.2.isModifier = true)
    (hFree : m.owner p = .free) (hStep : m.step op = some (m', out)) : m'.owner p = .free := by
  have hHolding := congrArg Holding.owner (step_holding hCoherent hStep p)
  rw [holding_owner] at hHolding
  rw [hHolding]
  have hPass : ∀ device event focusedApp now, p = (device, event.code) → event.kind = .keyDown →
      (m.dispatchUngated device event focusedApp now).2.isReplace = false := by
    rintro device event focusedApp now rfl hKind
    rw [dispatchUngated_modifier_down hCoherent.active hModifier hKind hFree]
    rfl
  cases (step_iff hCoherent.active).mp hStep with
  | @dispatch device event focusedApp now _ _ hInner
  | @issued device event focusedApp now _ _ hInner hReplace _ =>
    simp only [Holding.after]
    split_ifs with hHere
    · refine dispatched_modifier_free hFree ?_
      intro hKind
      have hVerdict := hPass device event focusedApp now hHere hKind
      rw [hInner] at hVerdict
      exact hVerdict
    · exact hFree
  | @unissued device event focusedApp now _ _ hInner hNot =>
    simp only [Holding.after]
    split_ifs with hHere
    · exact dispatched_modifier_free hFree (fun _ => hNot)
    · exact hFree
  | report token delivery =>
    simp only [Holding.after]
    split_ifs
    · simp [Holding.settled, hFree]
    · exact hFree
  | settle device event | resetDevice device =>
    simp only [Holding.after]
    split_ifs
    · rfl
    · exact hFree
  | reset => rfl
  | _ => exact hFree

/- Only a report makes a press forwarded. -/
theorem step_unforwarded {p : Press}
    (hCoherent : m.Coherent)
    (hNot : m.owner p ≠ .forwarded)
    (hStep : m.step (.dispatch device event focusedApp now) = some (m', out)) :
    m'.owner p ≠ .forwarded := by
  have hHolding := congrArg Holding.owner (step_holding hCoherent hStep p)
  rw [holding_owner] at hHolding
  rw [hHolding]
  cases (step_iff hCoherent.active).mp hStep with
  | dispatch hInner =>
    simp only [Holding.after]
    split_ifs
    · unfold Holding.dispatched
      cases event.kind with
      | keyUp => simp
      | keyDown =>
        dsimp only
        split_ifs
        · simp
        · exact hNot
      | modifiersChanged => exact hNot
    · exact hNot

-----
-- Runs Of Dispatches

/- The calls a run makes on a device's machines. -/
def timeline (d : DeviceId) (log : List Entry) : TapFsm.Calls :=
  fun l => log[l]?.bind (fun e => e.pre.tapCall d e.op)

/- The run consists of plain dispatches. -/
def Dispatches (log : List Entry) : Prop :=
  ∀ e ∈ log, ∃ device event focusedApp now, e.op = .dispatch device event focusedApp now

variable {rules : RuleSet} {log : List Entry} {m : Matcher} {d : DeviceId}

theorem timeline_append (tail : List Entry) {l : Nat} (hBefore : l < log.length) :
    timeline d (log ++ tail) l = timeline d log l := by
  unfold timeline
  rw [List.getElem?_append_left hBefore]

theorem timeline_concat (e : Entry) :
    timeline d (log ++ [e]) log.length = e.pre.tapCall d e.op := by
  simp [timeline]

theorem timeline_dispatch (log : List Entry) (d : DeviceId) {e : Entry}
    (hOp : e.op = .dispatch device event focusedApp now) :
    timeline d (log ++ [e]) log.length = if device = d then e.pre.dispatchCall device event now
      else none := by
  rw [timeline_concat, hOp]
  rfl

theorem fed_append (hFed : m.Fed d (timeline d log) log.length) (tail : List Entry) :
    m.Fed d (timeline d (log ++ tail)) log.length :=
  hFed.congr (fun _ hBefore =>
    (timeline_append tail hBefore).symm)

/- What every state of a run of dispatches satisfies. -/
structure Tapping (rules : RuleSet) (log : List Entry) (m : Matcher) : Prop where
  coherent : m.Coherent
  sized : m.Sized
  rules_eq : m.rules = rules
  modifiers : ∀ p, p.2.isModifier = true → m.owner p = .free
  unforwarded : ∀ p, m.owner p ≠ .forwarded
  fed : ∀ d, m.Fed d (timeline d log) log.length

theorem tapping_new (rules : RuleSet) : Tapping rules [] (new rules) where
  coherent := new_coherent rules
  sized := new_sized rules
  rules_eq := rfl
  modifiers := fun _ _ => rfl
  unforwarded := fun _ => by simp [owner, new]
  fed := fun _ => rfl

theorem tapping_run (hRun : Run step (new rules) log m) (hDispatches : Dispatches log) :
    Tapping rules log m := by
  induction hRun with
  | nil => exact tapping_new rules
  | @snoc log m next op out _ hLast ih =>
    rcases forall_mem_snoc.mp hDispatches with
      ⟨hFront, device, event, focusedApp, now, hOp⟩
    dsimp only at hOp
    subst hOp
    have hTapping := ih hFront
    have hActive := hTapping.coherent.active
    refine ⟨step_coherent hTapping.coherent hLast,
      step_sized hActive hTapping.sized hLast, ?_, ?_, ?_,
      ?_⟩
    · rcases step_machines hActive hTapping.sized hLast device with ⟨hRenews, _⟩ | ⟨_, hAdvanced⟩
      · cases hRenews
      · rw [hAdvanced.rules, hTapping.rules_eq]
    · intro p hModifier
      exact step_modifier_free hTapping.coherent hModifier (hTapping.modifiers p hModifier) hLast
    · intro p
      exact step_unforwarded hTapping.coherent (hTapping.unforwarded p) hLast
    · intro d
      rcases step_machines hActive hTapping.sized hLast d with ⟨hRenews, _⟩ | ⟨_, hAdvanced⟩
      · cases hRenews
      · rw [List.length_append, List.length_singleton]
        refine Advanced.fed ?_ (fed_append (hTapping.fed d) _)
        rw [timeline_concat]
        exact hAdvanced

/- A press that nothing has answered goes to the rules. -/
theorem Tapping.answered_iff (hTapping : Tapping rules log m) (event : KeyEvent) :
    m.answered d event = true ↔ event.kind ≠ .modifiersChanged ∧ (d, event.code) ∈ m.swallowedDowns := by
  have hNot : (d, event.code) ∉ m.forwardedDowns := by
    intro hForwarded
    exact hTapping.unforwarded _ ((mem_forwardedDowns_iff hTapping.coherent _).mp hForwarded)
  unfold answered
  simp [hNot]

theorem Tapping.modifier_unanswered (hTapping : Tapping rules log m)
    (hModifier : event.code.isModifier = true) : m.answered d event = false := by
  by_contra hNot
  have hOwned := ((hTapping.answered_iff event).mp (by simpa using hNot)).2
  have hFree := hTapping.modifiers (d, event.code) hModifier
  exact ((owner_eq_free_iff m _).mp hFree).1 hOwned

-----
-- The Window Of Counted Taps

/-
  A press besides the modifier's own: a key going down, fresh or repeated, or another
  modifier.
-/
def Op.disturbs (d : DeviceId) (key : KeyCode) (op : Op) : Bool :=
  match op.event? with
  | some (device, event) =>
    device == d && if event.code.isModifier then
        event.code != key && isDownAfter event == some true
      else event.kind == .keyDown
  | none => false

/- A repeat of a key that a rule has consumed. -/
def ownedRepeat (d : DeviceId) (e : Entry) : Bool :=
  match e.op.event? with
  | some (device, event) =>
    device == d && !event.code.isModifier && event.kind == .keyDown &&
      decide ((device, event.code) ∈ e.pre.swallowedDowns)
  | none => false

/- Nothing disturbs the modifier after point `j`. -/
def PureSince (d : DeviceId) (key : KeyCode) (log : List Entry) (j : Nat) : Prop :=
  ∀ l e, j < l → log[l]? = some e → e.op.disturbs d key = false

variable {rules : RuleSet} {log : List Entry} {m m' : Matcher} {d : DeviceId}

/- No modifier of the device but `key` is down. -/
def OthersUp (m : Matcher) (d : DeviceId) (key : KeyCode) : Prop :=
  ∀ other, other ≠ key → (m.modifierState.get? (d, other)).getD false = false

variable {event : KeyEvent} {now : Instant} {key : KeyCode}

/- No candidate is accepted while another modifier is down. -/
theorem othersUp_of_not_othersDown (isDown : Bool) (hOthers : m.othersDown d event isDown = false) :
    m.OthersUp d event.code := by
  intro other hNe
  cases hHeld : m.modifierState.get? (d, other) with
  | none => rfl
  | some down =>
    cases down with
    | false => rfl
    | true =>
      have hAny : m.othersDown d event isDown = true := by
        unfold othersDown
        rw [Dict.any_iff]
        refine ⟨(d, other), true, ?_, by simp [hNe]⟩
        rw [Dict.get?_insert, if_neg (by simp [hNe])]
        exact hHeld
      rw [hOthers] at hAny
      cases hAny

/- What the call of a transition says about its event. -/
theorem dispatchCall_transition {t : Instant} {wasDown isDown : Bool} {mods : Modifiers}
    (hCall : m.dispatchCall d event now = some (.transition key wasDown isDown mods t)) :
    event.code = key ∧ event.code.isModifier = true ∧ isDownAfter event = some isDown ∧ now = t := by
  unfold dispatchCall at hCall
  split_ifs at hCall
  unfold matchedCall at hCall
  split_ifs at hCall with hModifier
  · rcases Option.map_eq_some_iff.mp hCall with ⟨after, hDown, hTransition⟩
    unfold transitionCall at hTransition
    split_ifs at hTransition
    cases hTransition
    exact ⟨rfl, hModifier, hDown, rfl⟩
  · cases hCall

/- What the call of a press alone says about its event. -/
theorem dispatchCall_press {t : Instant} {mods : Modifiers}
    (hCall : m.dispatchCall d event now = some (.transition key false true mods t)) :
    event.code = key ∧ event.code.isModifier = true ∧ m.answered d event = false ∧
      isDownAfter event = some true ∧
      m.OthersUp d key := by
  unfold dispatchCall at hCall
  split_ifs at hCall with hAnswered
  unfold matchedCall at hCall
  split_ifs at hCall with hModifier
  · rcases Option.map_eq_some_iff.mp hCall with ⟨isDown, hDown, hTransition⟩
    unfold transitionCall at hTransition
    split_ifs at hTransition with hOthers
    simp only [TapFsm.Call.transition.injEq] at hTransition
    rcases hTransition with ⟨rfl, hWas, rfl, _, _⟩
    refine ⟨rfl, hModifier, by simpa using hAnswered, hDown, ?_⟩
    refine othersUp_of_not_othersDown true ?_
    simpa [hWas] using hOthers
  · cases hCall

/- Another modifier that goes down breaks the taps. -/
theorem breaks_of_down {calls : TapFsm.Calls} {n : Nat}
    (hCall : calls n = m.dispatchCall d event now) (hModifier : event.code.isModifier = true)
    (hFree : m.answered d event = false) (hDown : isDownAfter event = some true)
    (hWas : m.wasDown d event = false) (hNe : event.code ≠ key) : calls.Breaks key n := by
  have hKinds : m.dispatchCall d event now = some .otherKey ∨ m.dispatchCall d event now = some
      (.transition event.code false true event.mods now) := by
    unfold dispatchCall matchedCall transitionCall
    simp only [hFree, Bool.false_eq_true, if_false, hModifier,
      if_true, hDown, Option.map_some, hWas]
    split_ifs
    · exact .inl rfl
    · exact .inr rfl
  rcases hKinds with hOther | hPressed
  · exact .inl (hCall.trans hOther)
  · exact .inr ⟨event.code, event.mods, ⟨now, hCall.trans hPressed⟩, .inl hNe⟩

/- So does any key that goes down unanswered. -/
theorem breaks_of_key {calls : TapFsm.Calls} {n : Nat}
    (hCall : calls n = m.dispatchCall d event now) (hKey : event.code.isModifier = false)
    (hFree : m.answered d event = false) (hKind : event.kind = .keyDown) : calls.Breaks key n := by
  left
  rw [hCall]
  simp [dispatchCall, matchedCall, hFree, hKey, hKind]

/- Points of a run, as points of the run it extends. -/
theorem breaks_append (tail : List Entry) {l : Nat} (hBefore : l < log.length) :
    (timeline d (log ++ tail)).Breaks key l ↔ (timeline d log).Breaks key l := by
  unfold TapFsm.Calls.Breaks TapFsm.Calls.Pressed
  rw [timeline_append tail hBefore]

theorem pressedAlone_append (tail : List Entry) {l : Nat} (hBefore : l < log.length) :
    (timeline d (log ++ tail)).PressedAlone key l ↔ (timeline d log).PressedAlone key l := by
  unfold TapFsm.Calls.PressedAlone TapFsm.Calls.Pressed
  rw [timeline_append tail hBefore]

/- One dispatch keeps the other modifiers up. -/
theorem dispatched_othersUp
    (hHeld : m'.modifierState = m.dispatchModifiers device event) (hUp : m.OthersUp d key)
    (hUnbroken : device = d → event.code ≠ key → event.code.isModifier = true →
        isDownAfter event = some true → m.wasDown d event = true) : m'.OthersUp d key := by
  intro other hNe
  rw [hHeld]
  unfold dispatchModifiers matchedModifiers
  split_ifs with hAnswered hModifier
  · exact hUp other hNe
  · split
    · rename_i isDown hDown
      rw [Dict.get?_insert]
      split_ifs with hHere
      · simp only [Prod.mk.injEq] at hHere
        rcases hHere with ⟨rfl, rfl⟩
        cases isDown with
        | false => rfl
        | true =>
          -- It was up, so its press would break the taps.
          have hWas := hUnbroken rfl hNe hModifier hDown
          unfold wasDown at hWas
          rw [hUp event.code hNe] at hWas
          cases hWas
      · exact hUp other hNe
    · exact hUp other hNe
  · exact hUp other hNe

/- While taps are counted, the other modifiers are up. -/
theorem run_othersUp {j : Nat} (hRun : Run step (new rules) log m)
    (hDispatches : Dispatches log) (hBefore : j < log.length)
    (hPressed : (timeline d log).PressedAlone key j)
    (hUnbroken : ∀ l, j < l → l < log.length → ¬ (timeline d log).Breaks key l) :
    m.OthersUp d key := by
  induction hRun with
  | nil => cases hBefore
  | @snoc log m next op out hFrontRun hLast ih =>
    rcases forall_mem_snoc.mp hDispatches with
      ⟨hFront, device, event, focusedApp, now, hOp⟩
    dsimp only at hOp
    subst hOp
    have hTapping := tapping_run hFrontRun hFront
    have hDispatched : Dispatched m _ device event now := dispatchUngated_dispatched focusedApp now
        (hTapping.sized device)
    have hHeld :
        next.modifierState = m.dispatchModifiers device event := by
      cases (step_iff hTapping.coherent.active).mp hLast with
      | dispatch hInner =>
        rw [hInner] at hDispatched
        exact hDispatched.modifierState
    rw [List.length_append, List.length_singleton] at hBefore hUnbroken
    rcases Nat.lt_succ_iff_lt_or_eq.mp hBefore with hEarlier | rfl
    · -- The press was earlier; this dispatch breaks nothing.
      have hUp : m.OthersUp d key := by
        refine ih hFront hEarlier ?_ ?_
        · exact (pressedAlone_append _ hEarlier).mp hPressed
        · intro l hAfter hLess hBreaks
          exact hUnbroken l hAfter (Nat.lt_succ_of_lt hLess) ((breaks_append _ hLess).mpr hBreaks)
      refine dispatched_othersUp hHeld hUp ?_
      rintro rfl hNe hModifier hDown
      by_contra hWas
      refine hUnbroken log.length hEarlier (Nat.lt_succ_self _) ?_
      exact breaks_of_down ((timeline_dispatch log device rfl).trans (if_pos rfl))
        hModifier (hTapping.modifier_unanswered hModifier)
        hDown (by simpa using hWas) hNe
    · -- This dispatch is the press.
      rcases hPressed with ⟨mods, ⟨t, hCall⟩, _⟩
      rw [timeline_dispatch log d rfl] at hCall
      split_ifs at hCall with hHere
      subst hHere
      rcases dispatchCall_press hCall with ⟨hCode, _, _, _, hUp⟩
      refine dispatched_othersUp hHeld hUp ?_
      intro _ hNe
      exact absurd hCode hNe

-----
-- Purity

variable {e : Entry} {key : KeyCode}

/- An owned repeat is a disturbance. -/
theorem disturbs_of_ownedRepeat (hRepeat : ownedRepeat d e = true) :
    e.op.disturbs d key = true := by
  unfold ownedRepeat at hRepeat
  unfold Op.disturbs
  split at hRepeat
  · simp only [Bool.and_eq_true, Bool.not_eq_true'] at hRepeat
    simp [hRepeat]
  · cases hRepeat

/- It is the only one the machines do not see. -/
theorem ownedRepeat_of_disturbs (hTapping : Tapping rules log e.pre)
    (hDispatch : ∃ device event focusedApp now, e.op = .dispatch device event focusedApp now)
    (hUp : e.pre.OthersUp d key) (hUnbroken : ¬ (timeline d (log ++ [e])).Breaks key log.length)
    (hDisturbs : e.op.disturbs d key = true) : ownedRepeat d e = true := by
  rcases hDispatch with ⟨device, event, focusedApp, now, hOp⟩
  have hCall := timeline_dispatch log d hOp
  unfold Op.disturbs at hDisturbs
  unfold ownedRepeat
  rw [hOp] at hDisturbs ⊢
  simp only [Op.event?, Bool.and_eq_true, beq_iff_eq] at hDisturbs
  rcases hDisturbs with ⟨rfl, hPress⟩
  rw [if_pos rfl] at hCall
  cases hModifier : event.code.isModifier with
  | true =>
    simp only [hModifier, if_true, Bool.and_eq_true, bne_iff_ne, beq_iff_eq] at hPress
    refine absurd (breaks_of_down hCall hModifier (hTapping.modifier_unanswered hModifier) hPress.2
        (hUp event.code hPress.1) hPress.1)
      hUnbroken
  | false =>
    simp only [hModifier, Bool.false_eq_true, if_false, beq_iff_eq] at hPress
    cases hAnswered : e.pre.answered device event with
    | false => exact absurd (breaks_of_key hCall hModifier hAnswered hPress) hUnbroken
    | true =>
      have hOwned := ((hTapping.answered_iff event).mp hAnswered).2
      simp [Op.event?, hModifier, hPress, hOwned]

/- An entry of a log, with what came before it. -/
theorem split_at {l : Nat} (hEntry : log[l]? = some e) :
    ∃ front rest, log = front ++ e :: rest ∧ front.length = l := by
  rcases List.getElem?_eq_some_iff.mp hEntry with ⟨hBound, rfl⟩
  refine ⟨log.take l, log.drop (l + 1), ?_, ?_⟩
  · rw [← List.drop_eq_getElem_cons hBound, List.take_append_drop]
  · rw [List.length_take]
    omega

/- The entry of the dispatch that fires a rule. -/
def firing (m : Matcher) (d : DeviceId) (event : KeyEvent) (focusedApp : Option String)
    (now : Instant) : Entry :=
  ⟨m, .dispatch d event focusedApp now, .verdict (m.dispatchDevice d event focusedApp now).2 none⟩

/- A tap rule that fires has the taps to show for it. -/
theorem fires_began {rule : Rule}
    {trigger : TapTrigger} (hTapping : Tapping rules log m)
    (hFires : m.Fires d event focusedApp now rule) (hTrigger : rule.trigger = .tap trigger) :
    ∃ j, TapFsm.Began (fromMillis trigger.withinMs) (timeline d
          (log ++ [firing m d event focusedApp now]))
        trigger.tap trigger.count log.length j := by
  have hFed := fed_append (hTapping.fed d) [firing m d event focusedApp now]
  rcases fires_tapped hTapping.coherent.active hFed hFires hTrigger with ⟨hCall, _, _, hTapped⟩
  have hNow : timeline d (log ++ [firing m d event focusedApp now]) log.length =
      m.dispatchCall d event now :=
    (timeline_dispatch log d rfl).trans (if_pos rfl)
  refine TapFsm.Reported.began ?_
  rw [← TapFsm.result_eq_tapped_iff]
  unfold TapFsm.result
  rw [hNow, hCall]
  exact hTapped

/- What the machines do not see is an owned repeat. -/
theorem ownedRepeat_since {tail : List Entry} {j l : Nat}
    (hRun : Run step (new rules) log m) (hDispatches : Dispatches log)
    (hPressed : (timeline d (log ++ tail)).PressedAlone key j)
    (hUnbroken : ∀ l, j < l → l < log.length → ¬ (timeline d (log ++ tail)).Breaks key l)
    (hAfter : j < l) (hEntry : log[l]? = some e) (hDisturbs : e.op.disturbs d key = true) :
    ownedRepeat d e = true := by
  rcases split_at hEntry with ⟨front, rest, rfl, rfl⟩
  rcases hRun.split with ⟨mid, hFrontRun, hRest⟩
  obtain rfl := hRest.cons_inv.1
  rcases List.forall_mem_append.mp hDispatches with ⟨hFront, hLast⟩
  have hWhole : front ++ e :: rest ++ tail = front ++ ([e] ++ (rest ++ tail)) := by simp
  rw [hWhole] at hPressed hUnbroken
  -- Up to this entry nothing broke the taps.
  have hUp : e.pre.OthersUp d key := by
    refine run_othersUp hFrontRun hFront hAfter ?_ ?_
    · exact (pressedAlone_append _ hAfter).mp hPressed
    · intro i hFrom hBefore hBreaks
      refine hUnbroken i hFrom ?_ ((breaks_append _ hBefore).mpr hBreaks)
      rw [List.length_append]
      omega
  refine ownedRepeat_of_disturbs (tapping_run hFrontRun hFront)
    (hLast e List.mem_cons_self) hUp ?_ hDisturbs
  intro hBreaks
  refine hUnbroken front.length hAfter (by simp) ?_
  rw [← List.append_assoc]
  exact (breaks_append _ (by simp)).mpr hBreaks

/-
  A tap rule that fires after a run of dispatches.  Its counted taps began with a press,
  and they are pure since then unless the key of a consumed press was repeated meanwhile.
-/
theorem pureSince_iff {event : KeyEvent} {focusedApp : Option String} {now : Instant} {rule : Rule}
    {trigger : TapTrigger}
    (hRun : Run step (new rules) log m)
    (hDispatches : Dispatches log)
    (hFires : m.Fires d event focusedApp now rule)
    (hTrigger : rule.trigger = .tap trigger) :
    let Counted :=
      TapFsm.Began (fromMillis trigger.withinMs) (timeline d
          (log ++ [firing m d event focusedApp now]))
        trigger.tap trigger.count log.length
    (∃ j, Counted j) ∧ ∀ j, Counted j → (PureSince d trigger.tap log j ↔
          ∀ l e, j < l → log[l]? = some e → ownedRepeat d e = false) := by
  intro Counted
  refine ⟨fires_began (tapping_run hRun hDispatches) hFires hTrigger, ?_⟩
  intro j hCounted
  constructor
  · intro hPure l e hAfter hEntry
    by_contra hNot
    have hDisturbs : e.op.disturbs d trigger.tap = true :=
      disturbs_of_ownedRepeat (by simpa using hNot)
    rw [hPure l e hAfter hEntry] at hDisturbs
    cases hDisturbs
  · intro hNone l e hAfter hEntry
    by_contra hNot
    rcases hCounted with ⟨earlier, hChain, hCount, hOpens⟩
    have hUnbroken := (TapFsm.Began.unbroken ⟨earlier, hChain, hCount, hOpens⟩).2
    have hRepeat := ownedRepeat_since hRun hDispatches hOpens.pressed
        hUnbroken hAfter hEntry (by simpa using hNot)
    rw [hNone l e hAfter hEntry] at hRepeat
    cases hRepeat

/- K sends T; two taps of the right Option send Escape. -/
def tapAndKey : RuleSet :=
  RuleSet.new [⟨.hotkey ⟨.keyK, .empty⟩, .sendKey .keyT .empty, none⟩,
      ⟨.tap ⟨.rightAlt, 2, 600⟩, .sendKey .escape .empty, none⟩]

def tapRule : Rule := ⟨.tap ⟨.rightAlt, 2, 600⟩, .sendKey .escape .empty, none⟩

/- The right Option goes down, and up again. -/
def optionDown (now : Instant) : Op :=
  .dispatch ⟨1⟩ ⟨.rightAlt, .keyDown, .union .rightAlt .alt⟩ none now

def optionUp (now : Instant) : Op := .dispatch ⟨1⟩ ⟨.rightAlt, .keyUp, .empty⟩ none now

def keyKDown (now : Instant) : Op := .dispatch ⟨1⟩ ⟨.keyK, .keyDown, .empty⟩ none now

/- Everything but the last release of two taps. -/
def tappedTwice : List Op := [optionDown 0, optionUp 100, optionDown 200]

theorem tappedTwice_fires :
    (lastOf step (new tapAndKey) tappedTwice).Fires ⟨1⟩ ⟨.rightAlt, .keyUp, .empty⟩ none
      300 tapRule := by
  refine .tap false ?_ ?_ ?_ ?_ <;> decide +kernel

/- A list of dispatches is a run of dispatches. -/
theorem dispatches_entriesOf {ops : List Op}
    (hOps : ∀ op ∈ ops, ∃ device event focusedApp now, op = .dispatch device event focusedApp now) :
    Dispatches (entriesOf step (new rules) ops) := by
  intro e hMem
  exact hOps e.op (op_mem_of_entriesOf hMem)

theorem pureSince_tappedTwice :
    ∃ j, TapFsm.Began (fromMillis 600) (timeline ⟨1⟩ (entriesOf step (new tapAndKey)
                tappedTwice ++
              [firing (lastOf step (new tapAndKey) tappedTwice)
                ⟨1⟩ ⟨.rightAlt, .keyUp, .empty⟩ none 300]))
          .rightAlt 2 3 j ∧
        PureSince ⟨1⟩ .rightAlt (entriesOf step (new tapAndKey) tappedTwice) j := by
  have hDispatches : Dispatches (entriesOf step (new tapAndKey) tappedTwice) := by
    refine dispatches_entriesOf ?_
    simp [tappedTwice, optionDown, optionUp]
  have hNone : ∀ e ∈ entriesOf step (new tapAndKey) tappedTwice,
      ownedRepeat ⟨1⟩ e = false := by
    decide +kernel
  rcases pureSince_iff (Run.of_isSome (by decide +kernel))
      hDispatches tappedTwice_fires rfl with
    ⟨⟨j, hCounted⟩, hPure⟩
  refine ⟨j, hCounted, (hPure j hCounted).mpr ?_⟩
  intro l e _ hEntry
  exact hNone e (List.mem_of_getElem? hEntry)

/- K is held and consumed while the taps are made. -/
def repeatedBetween : List Op :=
  [keyKDown 0, optionDown 10, optionUp 20, keyKDown 30, optionDown 40]

/- The whole run, up to the release that fires. -/
def repeatedLog : List Entry :=
  entriesOf step (new tapAndKey) repeatedBetween ++ [firing
      (lastOf step (new tapAndKey) repeatedBetween)
      ⟨1⟩ ⟨.rightAlt, .keyUp, .empty⟩ none 50]

theorem repeatedLog_calls : (List.range 6).map (timeline ⟨1⟩ repeatedLog) = [some .otherKey, some
          (.transition .rightAlt false true (.union .rightAlt .alt) 10),
        some (.transition .rightAlt true false .empty 20),
        none,
        some (.transition .rightAlt false true (.union .rightAlt .alt) 40),
        some (.transition .rightAlt true false .empty 50)] := by
  decide +kernel

/- The two taps that end the run began before the repeat. -/
theorem repeatedLog_began {j : Nat}
    (hBegan : TapFsm.Began (fromMillis 600) (timeline ⟨1⟩ repeatedLog) .rightAlt 2 5 j) :
    j < 3 := by
  rcases hBegan with ⟨earlier, hChain, hCount, hOpens⟩
  rcases List.length_eq_one_iff.mp (Nat.succ.inj hCount) with ⟨a, rfl⟩
  rcases (List.isChain_cons_cons.mp hChain).1 with ⟨start, _, ⟨b, hBefore, ⟨rfl, hTap⟩, _⟩, _⟩
  have hFirst : b ≠ 3 ∧ b ≠ 4 := by
    have hCalls := repeatedLog_calls
    simp only [List.range_succ, List.range_zero, List.nil_append, List.cons_append, List.map_cons,
      List.map_nil, List.cons.injEq, and_true] at hCalls
    rcases hTap.1 with ⟨mods, hReleased⟩
    constructor
    · rintro rfl
      rw [hCalls.2.2.2.1] at hReleased
      cases hReleased
    · rintro rfl
      rw [hCalls.2.2.2.2.1] at hReleased
      cases hReleased
  have hOrder := hOpens.before
  simp only [List.getLastD_cons, List.getLastD_nil] at hOrder
  omega

/- The key was repeated between the taps of a rule that fires. -/
theorem repeat_between_taps :
    let log :=
      entriesOf step (new tapAndKey) repeatedBetween
    let m := lastOf step (new tapAndKey) repeatedBetween
    Run step (new tapAndKey) log m ∧ Dispatches log ∧ log.map (·.out) =
        [.verdict (.replace (.sendKey .keyT .empty)) none, .verdict .pass none, .verdict .pass none,
          .verdict .swallow none, .verdict .pass none] ∧
      m.Fires ⟨1⟩ ⟨.rightAlt, .keyUp, .empty⟩ none 50 tapRule ∧
      ∃ j, TapFsm.Began (fromMillis 600) (timeline ⟨1⟩ repeatedLog) .rightAlt 2 5 j ∧
          ¬ PureSince ⟨1⟩ .rightAlt log j := by
  intro log m
  have hRun : Run step (new tapAndKey) log m :=
    Run.of_isSome (by decide +kernel)
  have hDispatches : Dispatches log := by
    refine dispatches_entriesOf ?_
    simp [repeatedBetween, optionDown, optionUp, keyKDown]
  have hFires : m.Fires ⟨1⟩ ⟨.rightAlt, .keyUp, .empty⟩ none 50
      tapRule := by
    refine .tap false ?_ ?_ ?_ ?_ <;> decide +kernel
  refine ⟨hRun, hDispatches, by decide +kernel, hFires, ?_⟩
  rcases fires_began (tapping_run hRun hDispatches) hFires rfl with ⟨j, hBegan⟩
  refine ⟨j, hBegan, ?_⟩
  intro hPure
  have hRepeat : ((log[3]?).map (fun e => e.op.disturbs ⟨1⟩ .rightAlt)) = some true := by
    decide +kernel
  rcases Option.map_eq_some_iff.mp hRepeat with ⟨e, hEntry, hDisturbs⟩
  rw [hPure 3 e (repeatedLog_began hBegan) hEntry] at hDisturbs
  cases hDisturbs

end Sledge.Core.Matcher
