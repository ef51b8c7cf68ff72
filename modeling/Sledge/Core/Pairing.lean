import Sledge.Core.Ownership

/-
  Press ownership along whole runs of the matcher.

  The record of a press after a run is the fold of
  `Holding.after` over the entries of the run, so a property
  of a press is an induction over a list.  A press the
  matcher consumed stays consumed up to its release, and a
  press is answered consistently exactly when no auto-repeat
  of it is claimed after its first down went through.

  Main results:
    * `Matcher.run_holding`
    * `Matcher.step_answer`
    * `Matcher.replaced_press_latched`
    * `Matcher.stroke_balanced_iff`
-/

-----
-- Records Along A Run

namespace Sledge.Core

open Transition Holding

namespace Holding

/- The record of `p` after all entries of a run. -/
def along (h : Holding) (p : Press) (trace : List Matcher.Entry) : Holding :=
  trace.foldl (fun h e => h.after p e.op e.out) h

@[simp] theorem along_nil (h : Holding) (p : Press) : h.along p [] = h := rfl

@[simp] theorem along_cons (h : Holding) (p : Press) (e : Matcher.Entry)
    (trace : List Matcher.Entry) :
    h.along p (e :: trace) = (h.after p e.op e.out).along p trace := rfl

@[simp] theorem along_concat (h : Holding) (p : Press) (trace : List Matcher.Entry)
    (e : Matcher.Entry) : h.along p (trace ++ [e]) = (h.along p trace).after p e.op e.out := by
  simp [along]

end Holding

namespace Matcher

theorem run_holding {m m' : Matcher} {trace : List Entry} (hCoherent : m.Coherent)
    (hRun : Run step m trace m') (p : Press) :
    m'.Coherent ∧ m'.holding p = (m.holding p).along p trace := by
  induction hRun with
  | nil => exact ⟨hCoherent, rfl⟩
  | snoc _ hLast ih =>
    rcases ih with ⟨hMid, hHolding⟩
    refine ⟨step_coherent hMid hLast, ?_⟩
    rw [along_concat, ← hHolding]
    exact step_holding hMid hLast p

end Matcher

-----
-- The Answer To An Event

namespace Owner

/-
  The verdict on an event of a non-modifier press, from its owner and the action of the
  first matching hotkey rule.
-/
def answer (owner : Owner) (kind : EventKind) (action : Option Action) : Verdict :=
  match owner, kind with
  | _, .modifiersChanged => .pass
  | .swallowed, _ => .swallow
  | .forwarded, _ => .pass
  | .free, .keyUp => .pass
  | .free, .keyDown =>
    match action with
    | some action => .replace action
    | none => .pass

end Owner

namespace Matcher

variable {m : Matcher} {event : KeyEvent} {device : DeviceId} {op : Op}

/- Ownership decides first, the hotkey rules second. -/
theorem dispatchUngated_answer (hDisjoint : Disjoint m.swallowedDowns m.forwardedDowns)
    (device : DeviceId) (focusedApp : Option String) (now : Instant)
    (hKey : event.code.isModifier = false) :
    (m.dispatchUngated device event focusedApp now).2 =
      (m.owner (device, event.code)).answer event.kind ((m.rules.findHotkey event focusedApp).map
          Rule.action) := by
  by_cases hForwarded : event.kind ≠ .modifiersChanged ∧ (device, event.code) ∈ m.forwardedDowns
  · have hNot : (device, event.code) ∉ m.swallowedDowns :=
      Finset.disjoint_right.mp hDisjoint hForwarded.2
    have hOwner : m.owner (device, event.code) = .forwarded := by simp [owner, hNot, hForwarded.2]
    rw [dispatchUngated_of_forwarded m focusedApp now hForwarded.1 hForwarded.2, hOwner]
    cases event.kind <;> rfl
  · have hOther : event.kind = .modifiersChanged ∨ (device, event.code) ∉ m.forwardedDowns := by
      by_contra hNeither
      push Not at hNeither
      exact hForwarded hNeither
    rw [dispatchUngated_of_not_forwarded m focusedApp now hOther]
    by_cases hFree : event.kind = .modifiersChanged ∨ (device, event.code) ∉ m.swallowedDowns
    · rw [dispatchOwned_of_free _ focusedApp now (by simpa using hFree)]
      simp only [hKey, Bool.false_eq_true, if_false, dispatchKey_verdict, reconcile_rules]
      cases hKind : event.kind with
      | keyDown =>
        have hOwner : m.owner (device, event.code) = .free := by
          simp only [hKind] at hFree hOther
          simp [owner, by simpa using hFree,
            by simpa using hOther]
        rw [hOwner]
        cases m.rules.findHotkey event focusedApp <;> rfl
      | keyUp =>
        have hOwner : m.owner (device, event.code) = .free := by
          simp only [hKind] at hFree hOther
          simp [owner, by simpa using hFree,
            by simpa using hOther]
        rw [hOwner]
        rfl
      | modifiersChanged =>
        cases m.owner (device, event.code) <;> rfl
    · push Not at hFree
      rw [dispatchOwned_of_swallowed _ focusedApp now hFree.1 (by simpa using hFree.2)]
      have hOwner : m.owner (device, event.code) = .swallowed := by simp [owner, hFree.2]
      rw [hOwner]
      cases hKind : event.kind with
      | keyDown | keyUp => rfl
      | modifiersChanged => exact absurd hKind hFree.1

/- Whatever the key, an owned press is not matched again. -/
theorem dispatchUngated_of_owned (hDisjoint : Disjoint m.swallowedDowns m.forwardedDowns)
    (focusedApp : Option String) (now : Instant) (hKind : event.kind ≠ .modifiersChanged)
    (hOwned : m.owner (device, event.code) ≠ .free) :
    (m.dispatchUngated device event focusedApp now).2 =
      if m.owner (device, event.code) = .forwarded then .pass
      else .swallow := by
  by_cases hForwarded : (device, event.code) ∈ m.forwardedDowns
  · have hNot : (device, event.code) ∉ m.swallowedDowns :=
      Finset.disjoint_right.mp hDisjoint hForwarded
    rw [dispatchUngated_of_forwarded m focusedApp now hKind hForwarded]
    simp [owner, hNot, hForwarded]
  · have hSwallowed : (device, event.code) ∈ m.swallowedDowns := by
      by_contra hNot
      exact hOwned ((owner_eq_free_iff _ _).mpr ⟨hNot, hForwarded⟩)
    rw [dispatchUngated_of_not_forwarded m focusedApp now (.inr hForwarded),
      dispatchOwned_of_swallowed _ focusedApp now hKind (by simpa using hSwallowed)]
    simp [owner, hSwallowed]

theorem step_dispatch {m' : Matcher} {out : Out} (hCoherent : m.Coherent)
    (hEvent : op.event? = some (device, event)) (hStep : m.step op = some (m', out)) :
    ∃ now verdict token, out = .verdict verdict token ∧ verdict =
          (m.dispatchUngated device event op.focusedApp now).2 ∧
        (verdict.isReplace = false → token = none) := by
  cases (step_iff hCoherent.active).mp hStep with
  | @dispatch _ _ focusedApp now _ _ hInner | @unissued _ _ focusedApp now _ _ hInner =>
    cases hEvent
    refine ⟨now, _, _, rfl, ?_, fun _ => rfl⟩
    simp only [Op.focusedApp, hInner]
  | @issued _ _ focusedApp now _ _ hInner hReplace =>
    cases hEvent
    refine ⟨now, _, _, rfl, ?_, ?_⟩
    · simp only [Op.focusedApp, hInner]
    · intro hNot
      rw [hNot] at hReplace
      simp at hReplace
  | _ => simp [Op.event?] at hEvent

/- Without a replacement neither dispatch can abort. -/
theorem step_of_not_replace {verdict : Verdict} (hCoherent : m.Coherent)
    (hEvent : op.event? = some (device, event))
    (hVerdict : ∀ now, (m.dispatchUngated device event op.focusedApp now).2 = verdict)
    (hNot : verdict.isReplace = false) : ∃ m', m.step op = some (m', .verdict verdict none) := by
  cases op with
  | dispatch device' event' focusedApp now =>
    simp only [Op.event?, Option.some.injEq, Prod.mk.injEq] at hEvent
    rcases hEvent with ⟨rfl, rfl⟩
    have hInner : m.dispatchUngated device' event' focusedApp now =
        ((m.dispatchUngated device' event' focusedApp now).1, verdict) :=
      Prod.ext rfl (hVerdict now)
    exact ⟨_, (step_iff hCoherent.active).mpr (.dispatch hInner)⟩
  | dispatchWithDelivery device' event' focusedApp now =>
    simp only [Op.event?, Option.some.injEq, Prod.mk.injEq] at hEvent
    rcases hEvent with ⟨rfl, rfl⟩
    have hInner : m.dispatchUngated device' event' focusedApp now =
        ((m.dispatchUngated device' event' focusedApp now).1, verdict) :=
      Prod.ext rfl (hVerdict now)
    exact ⟨_, (step_iff hCoherent.active).mpr (.unissued hInner hNot)⟩
  | _ => simp [Op.event?] at hEvent

/- The answer of a step to a non-modifier event. -/
theorem step_answer {m' : Matcher} {out : Out} (hCoherent : m.Coherent)
    (hEvent : op.event? = some (device, event)) (hKey : event.code.isModifier = false)
    (hStep : m.step op = some (m', out)) :
    ∃ verdict token, out = .verdict verdict token ∧ verdict =
          (m.owner (device, event.code)).answer event.kind
            ((m.rules.findHotkey event op.focusedApp).map Rule.action) ∧
        (verdict.isReplace = false → token = none) := by
  rcases step_dispatch hCoherent hEvent hStep with ⟨now, verdict, token, rfl, hVerdict, hToken⟩
  refine ⟨verdict, token, rfl, ?_, hToken⟩
  rw [hVerdict]
  exact dispatchUngated_answer hCoherent.disjoint device op.focusedApp now hKey

-----
-- A Consumed Press Stays Consumed

namespace Op

/- The operation releases or discards press `p`. -/
def ends (op : Op) (p : Press) : Bool :=
  match op with
  | .settle device event => decide (p = (device, event.code) ∧ event.kind = .keyUp)
  | .resetDevice device => decide (p.1 = device)
  | .reset => true
  | op => decide (op.kindOf p = some .keyUp)

end Op

/- The entry is an accepted report that `p` was forwarded. -/
def forwards (p : Press) (e : Entry) : Bool :=
  match e.op, e.out with
  | .report token delivery, .reported settled =>
    decide (token.press = p ∧ delivery = .rejectedOriginalForwarded) && settled
  | _, _ => false

end Matcher

namespace Holding

variable {h : Holding} {p : Press} {op : Matcher.Op} {out : Matcher.Out}

theorem after_of_event {device : DeviceId} {event : KeyEvent} {verdict : Verdict}
    {token : Option ReplacementToken} (hEvent : op.event? = some (device, event)) :
    h.after p op (.verdict verdict token) = if p = (device, event.code) then
        h.dispatched event.kind verdict token
      else h := by
  cases op with
  | dispatch device' event' focusedApp now | dispatchWithDelivery device' event' focusedApp now =>
    cases hEvent
    rfl
  | _ => simp [Matcher.Op.event?] at hEvent

theorem after_released (hEvent : op.event? = none) : released.after p op out = released := by
  cases op with
  | dispatch | dispatchWithDelivery => simp [Matcher.Op.event?] at hEvent
  | _ =>
    cases out
    all_goals
      simp [after, settled, released]

/- Only a key down can take a free press. -/
theorem after_of_free (hOwner : h.owner = .free) (hNot : op.kindOf p ≠ some .keyDown) :
    (h.after p op out).owner = .free := by
  cases op <;> cases out
  all_goals
    simp only [Matcher.Op.kindOf, Matcher.Op.event?] at hNot
    simp only [after, dispatched, settled]
    grind [released]

/- A forwarded press stays forwarded until it ends. -/
theorem after_of_forwarded (hOwner : h.owner = .forwarded) (hNot : op.ends p = false) :
    (h.after p op out).owner = .forwarded := by
  cases op <;> cases out
  all_goals
    simp only [Matcher.Op.ends, Matcher.Op.kindOf, Matcher.Op.event?, decide_eq_false_iff_not]
      at hNot
    simp only [after, dispatched, settled]
    grind

/- A swallowed press leaves only through a report. -/
theorem after_of_swallowed {e : Matcher.Entry} (hOwner : h.owner = .swallowed)
    (hNot : e.op.ends p = false) :
    (h.after p e.op e.out).owner = if Matcher.forwards p e then .forwarded
      else .swallowed := by
  rcases e with ⟨pre, op, out⟩
  cases op <;> cases out
  all_goals
    simp only [Matcher.Op.ends, Matcher.Op.kindOf, Matcher.Op.event?, decide_eq_false_iff_not]
      at hNot
    simp only [after, dispatched, settled, Matcher.forwards]
    grind

theorem along_of_forwarded {trace : List Matcher.Entry} (hOwner : h.owner = .forwarded)
    (hHeld : ∀ e ∈ trace, e.op.ends p = false) : (h.along p trace).owner = .forwarded := by
  induction trace generalizing h with
  | nil => exact hOwner
  | cons e trace ih =>
    rw [List.forall_mem_cons] at hHeld
    rw [along_cons]
    exact ih (after_of_forwarded hOwner hHeld.1) hHeld.2

theorem along_of_swallowed {trace : List Matcher.Entry} (hOwner : h.owner = .swallowed)
    (hHeld : ∀ e ∈ trace, e.op.ends p = false) :
    (h.along p trace).owner = if trace.any (Matcher.forwards p) then .forwarded
      else .swallowed := by
  induction trace generalizing h with
  | nil => simpa using hOwner
  | cons e trace ih =>
    rw [List.forall_mem_cons] at hHeld
    have hAfter := after_of_swallowed hOwner hHeld.1
    rw [along_cons, List.any_cons]
    cases hForwards : Matcher.forwards p e with
    | true =>
      rw [hForwards, if_pos rfl] at hAfter
      rw [along_of_forwarded hAfter hHeld.2]
      simp
    | false =>
      rw [hForwards, if_neg (by simp)] at hAfter
      rw [ih hAfter hHeld.2]
      simp

end Holding

namespace Matcher

variable {m m' : Matcher} {op : Op} {p : Press} {out : Out} {trace : List Entry}

/- A replaced key down leaves its press swallowed. -/
theorem owner_after_replaced_down {action : Action} {token : Option ReplacementToken}
    {device : DeviceId} {event : KeyEvent} (hCoherent : m.Coherent)
    (hEvent : op.event? = some (device, event)) (hKind : event.kind = .keyDown)
    (hKey : event.code.isModifier = false)
    (hStep : m.step op = some (m', .verdict (.replace action) token)) :
    m'.owner (device, event.code) = .swallowed := by
  rcases step_answer hCoherent hEvent hKey hStep with ⟨verdict, token', hOut, hVerdict, _⟩
  simp only [Out.verdict.injEq] at hOut
  rcases hOut with ⟨rfl, rfl⟩
  have hFree : m.owner (device, event.code) = .free := by
    cases hOwner : m.owner (device, event.code) with
    | free => rfl
    | swallowed | forwarded => simp [hOwner, hKind, Owner.answer] at hVerdict
  have hOwner := congrArg Holding.owner (step_holding hCoherent hStep (device, event.code))
  rw [after_of_event hEvent] at hOwner
  simpa [dispatched, hKind, hFree, Verdict.isReplace] using hOwner

theorem Op.kindOf_eq_some_iff {kind : EventKind} :
    op.kindOf p = some kind ↔ ∃ event, op.event? = some (p.1, event) ∧
          event.code = p.2 ∧ event.kind = kind := by
  unfold Op.kindOf
  cases op.event? with
  | none => simp
  | some dispatched =>
    rcases dispatched with ⟨device, event⟩
    rcases p with ⟨d, k⟩
    simp only [Prod.mk.injEq, Option.ite_none_right_eq_some, Option.some.injEq]
    constructor
    · intro h
      rcases h with ⟨⟨rfl, rfl⟩, rfl⟩
      exact ⟨event, ⟨rfl, rfl⟩, rfl, rfl⟩
    · intro h
      rcases h with ⟨_, ⟨rfl, rfl⟩, rfl, rfl⟩
      exact ⟨⟨rfl, rfl⟩, rfl⟩

theorem step_of_owned {kind : EventKind} (hCoherent : m.Coherent) (hKind : op.kindOf p = some kind)
    (hNot : kind ≠ .modifiersChanged) (hOwned : m.owner p ≠ .free) :
    ∃ m', m.step op = some (m', .verdict (if m.owner p = .forwarded then .pass
              else .swallow) none) := by
  rcases Op.kindOf_eq_some_iff.mp hKind with ⟨event, hEvent, hCode, hKind'⟩
  have hPress : p = (p.1, event.code) := by rw [hCode]
  apply step_of_not_replace hCoherent hEvent
  · intro now
    rw [hPress] at hOwned
    rw [dispatchUngated_of_owned hCoherent.disjoint
      op.focusedApp now (by rwa [hKind']) hOwned, ← hPress]
  · split <;> rfl

/- A dispatched release leaves nobody owning the press. -/
theorem owner_after_keyUp (hCoherent : m.Coherent) (hKind : op.kindOf p = some .keyUp)
    (hStep : m.step op = some (m', out)) : m'.owner p = .free := by
  rcases Op.kindOf_eq_some_iff.mp hKind with ⟨event, hEvent, hCode, hUp⟩
  rcases step_dispatch hCoherent hEvent hStep with ⟨_, verdict, token, rfl, _, _⟩
  have hOwner := congrArg Holding.owner (step_holding hCoherent hStep p)
  rw [after_of_event hEvent, hCode] at hOwner
  simpa [dispatched, hUp] using hOwner

/-
  Once a key down was replaced, repeats and the release are swallowed, or passed after an
  accepted report that the original was forwarded, whatever else happens meanwhile.
-/
theorem replaced_press_latched {m₀ m₁ m₂ : Matcher} {down : Op} {device : DeviceId}
    {event : KeyEvent} {action : Action} {token : Option ReplacementToken} {trace : List Entry}
    (hReachable : m₀.Reachable) (hDown : down.event? = some (device, event))
    (hKind : event.kind = .keyDown) (hKey : event.code.isModifier = false)
    (hReplaced : m₀.step down = some (m₁, .verdict (.replace action) token))
    (hRun : Run step m₁ trace m₂)
    (hHeld : ∀ e ∈ trace, e.op.ends (device, event.code) = false) :
    (∀ op kind, op.kindOf (device, event.code) = some kind → kind ≠ .modifiersChanged → ∃ m₃,
          m₂.step op = some (m₃, .verdict (if trace.any (forwards (device, event.code))
                  then .pass else .swallow) none) ∧
          (kind = .keyUp → (device, event.code) ∉ m₃.swallowedDowns ∧
              (device, event.code) ∉ m₃.forwardedDowns)) ∧
      ∀ m : Matcher, m.Reachable → Disjoint m.swallowedDowns m.forwardedDowns := by
  have hStart := hReachable.coherent
  have hCoherent := step_coherent hStart hReplaced
  rcases run_holding hCoherent hRun (device, event.code) with ⟨hEnd, hHolding⟩
  have hSwallowed : (m₁.holding (device, event.code)).owner =
      .swallowed :=
    owner_after_replaced_down hStart hDown hKind hKey hReplaced
  have hOwner : m₂.owner (device, event.code) = if trace.any (forwards (device, event.code)) then
        .forwarded
      else .swallowed := by
    rw [← holding_owner, hHolding]
    exact along_of_swallowed hSwallowed hHeld
  refine ⟨?_, fun m hm => hm.coherent.disjoint⟩
  intro op kind hOp hNot
  have hOwned : m₂.owner (device, event.code) ≠ .free := by
    rw [hOwner]
    split <;> simp
  rcases step_of_owned hEnd hOp hNot hOwned with ⟨m₃, hStep⟩
  refine ⟨m₃, ?_, ?_⟩
  · rw [hStep, hOwner]
    split <;> simp
  · intro hUp
    subst hUp
    exact (owner_eq_free_iff _ _).mp (owner_after_keyUp hEnd hOp hStep)

/- One hotkey rule: Option-K sends Option-T. -/
def optionK : RuleSet := RuleSet.new [⟨.hotkey ⟨.keyK, .alt⟩, .sendKey .keyT .alt, none⟩]

/- The first event of a consumed Option-K. -/
def optionKDown : Op := .dispatchWithDelivery ⟨1⟩ ⟨.keyK, .keyDown, .alt⟩ none 0

/- A reload, then the replacement is refused. -/
def optionKRefused : List Op :=
  [.swapRules (RuleSet.new []), .report ⟨⟨1⟩, .keyK, 1⟩ .rejectedOriginalForwarded]

theorem replaced_press_latched_optionK :
    ∃ m₃, (lastOf step (lastOf step (new optionK) [optionKDown])
          optionKRefused).step (.dispatch ⟨1⟩ ⟨.keyK, .keyUp, .empty⟩ none 5) =
        some (m₃, .verdict .pass none) ∧
      (⟨1⟩, .keyK) ∉ m₃.swallowedDowns ∧
      (⟨1⟩, .keyK) ∉ m₃.forwardedDowns := by
  have hEvent : optionKDown.event? = some (⟨1⟩, ⟨.keyK, .keyDown, .alt⟩) := rfl
  have hReplaced : (new optionK).step optionKDown = some (lastOf step (new optionK)
        [optionKDown],
      .verdict (.replace (.sendKey .keyT .alt)) (some ⟨⟨1⟩, .keyK, 1⟩)) := rfl
  have hRun : Run step (lastOf step (new optionK) [optionKDown])
      (entriesOf step (lastOf step (new optionK)
          [optionKDown]) optionKRefused)
      (lastOf step (lastOf step (new optionK)
          [optionKDown]) optionKRefused) :=
    Run.of_isSome (by decide)
  have hLatched := replaced_press_latched ⟨optionK, [], Run.nil⟩
      hEvent rfl rfl hReplaced hRun (by decide)
  rcases hLatched.1 (.dispatch ⟨1⟩ ⟨.keyK, .keyUp, .empty⟩ none 5) .keyUp rfl (by decide) with
    ⟨m₃, hStep, hGone⟩
  exact ⟨m₃, hStep, hGone rfl⟩

-----
-- Strokes

namespace Op

/- The operation belongs to an undisturbed event stream. -/
def streams : Op → Bool
  | .settle _ _ => false
  | .resetDevice _ => false
  | .reset => false
  | _ => true

end Op

/- The last event of `p` in the trace was a key down. -/
def heldAfter (p : Press) (trace : List Entry) : Bool :=
  trace.foldl (fun held e =>
      match e.op.kindOf p with
      | some .keyDown => true
      | some .keyUp => false
      | _ => held)
    false

/-
  One stroke of `p` at the end of a trace: its first key down, whatever happens while it
  is held, its key up.
-/
structure Stroke (p : Press) (trace : List Entry) where
  before : List Entry
  down : Entry
  during : List Entry
  up : Entry
  cut : trace = before ++ (down :: (during ++ [up]))
  fresh : heldAfter p before = false
  down_kind : down.op.kindOf p = some .keyDown
  up_kind : up.op.kindOf p = some .keyUp
  held : ∀ e ∈ during, e.op.kindOf p ≠ some .keyUp

/-
  The consumer sees the release exactly when it saw the first down, directly or handed
  back by an accepted report.
-/
def Stroke.Balanced {p : Press} {trace : List Entry} (stroke : Stroke p trace) : Prop :=
  stroke.up.out = .verdict .pass none ↔ (stroke.down.out = .verdict .pass none ∨
      stroke.during.any (forwards p) = true)

/- A repeat of `p`, owned by nobody, that a hotkey matches. -/
def claims (p : Press) (e : Entry) : Bool :=
  match e.op.event? with
  | some (device, event) =>
    decide (p = (device, event.code) ∧ event.kind = .keyDown ∧ p ∉ e.pre.swallowedDowns ∧
        p ∉ e.pre.forwardedDowns) &&
      (e.pre.rules.findHotkey event e.op.focusedApp).isSome
  | none => false

/- The outstanding replacement of `p` reported as refused. -/
def refuses (p : Press) (e : Entry) : Bool :=
  match e.op with
  | .report token delivery =>
    decide (token.press = p ∧ delivery = .rejectedOriginalForwarded ∧
      e.pre.pendingDeliveries.get? p = some token.generation)
  | _ => false

theorem reportDelivery_snd (m : Matcher) (token : ReplacementToken) (delivery : ReplacementDelivery) :
    (m.reportDelivery token delivery).2 = decide (m.pendingDeliveries.get? token.press =
        some token.generation) := by
  unfold reportDelivery
  simp only
  split <;> simp_all

theorem forwards_eq_refuses (hStep : m.step op = some (m', out)) (p : Press) :
    forwards p ⟨m, op, out⟩ = refuses p ⟨m, op, out⟩ := by
  cases op with
  | report token delivery =>
    simp only [step, Option.some.injEq, Prod.mk.injEq] at hStep
    rcases hStep with ⟨rfl, rfl⟩
    simp only [forwards, refuses, reportDelivery_snd]
    by_cases hPress : token.press = p
    · simp [hPress]
    · simp [hPress]
  | _ => rfl

/- Along a run both readings of a refusal agree. -/
theorem run_any_forwards (hRun : Run step m trace m') (p : Press) :
    trace.any (forwards p) = trace.any (refuses p) := by
  induction hRun with
  | nil => rfl
  | snoc _ hLast ih =>
    rw [List.any_append, List.any_append, ih]
    simp only [List.any_cons, List.any_nil, Bool.or_false, forwards_eq_refuses hLast]

theorem Op.ends_of_keyUp (hKind : op.kindOf p = some .keyUp) : op.ends p = true := by
  cases op with
  | settle | resetDevice => simp [Op.kindOf, Op.event?] at hKind
  | reset => rfl
  | _ => simpa [Op.ends] using hKind

/- Only a claimed key down takes a released press. -/
theorem step_of_released (hCoherent : m.Coherent) (hKey : p.2.isModifier = false)
    (hReleased : m.holding p = .released) (hStep : m.step op = some (m', out))
    (hNot : op.ends p = false) :
    forwards p ⟨m, op, out⟩ = false ∧ if claims p ⟨m, op, out⟩ then
        m'.owner p = .swallowed
      else m'.holding p = .released := by
  have hHolding := step_holding hCoherent hStep p
  rw [hReleased] at hHolding
  have hFree : m.owner p = .free := congrArg Holding.owner hReleased
  have hNone : m.pendingDeliveries.get? p = none := congrArg pending hReleased
  have hOwned := (owner_eq_free_iff m p).mp hFree
  constructor
  · rw [forwards_eq_refuses hStep]
    cases op with
    | report token delivery => simp [refuses, hNone]
    | _ => rfl
  · cases hEvent : op.event? with
    | none =>
      simp only [claims, hEvent, Bool.false_eq_true, if_false]
      rw [hHolding, after_released hEvent]
    | some dispatched =>
      rcases dispatched with ⟨device, event⟩
      rcases step_dispatch hCoherent hEvent hStep with ⟨_, verdict, token, rfl, _, _⟩
      rw [after_of_event hEvent] at hHolding
      by_cases hPress : p = (device, event.code)
      · subst hPress
        rcases step_answer hCoherent hEvent hKey hStep with
          ⟨verdict', token', hOut, hVerdict, hToken⟩
        simp only [Out.verdict.injEq] at hOut
        rcases hOut with ⟨rfl, rfl⟩
        rw [hFree] at hVerdict
        simp only [if_true] at hHolding
        simp only [claims, hEvent, hOwned, not_false_eq_true, and_true, true_and]
        cases hKind : event.kind with
        | keyDown =>
          cases hFind : m.rules.findHotkey event op.focusedApp with
          | none =>
            simp only [hKind, hFind, Option.map_none, Owner.answer] at hVerdict
            subst hVerdict
            rw [hToken rfl] at hHolding
            simpa [hKind, dispatched, released, Verdict.isReplace] using hHolding
          | some rule =>
            simp only [hKind, hFind, Option.map_some, Owner.answer] at hVerdict
            subst hVerdict
            have hOwner := congrArg Holding.owner hHolding
            simpa [hKind, dispatched, released, Verdict.isReplace] using hOwner
        | keyUp =>
          have hEnds : op.kindOf (device, event.code) = some .keyUp := Op.kindOf_eq_some_iff.mpr
              ⟨event, hEvent, rfl, hKind⟩
          rw [Op.ends_of_keyUp hEnds] at hNot
          simp at hNot
        | modifiersChanged =>
          simp only [hKind, Owner.answer] at hVerdict
          subst hVerdict
          rw [hToken rfl] at hHolding
          simpa [hKind, dispatched, released] using hHolding
      · simp only [claims, hEvent, hPress, false_and, decide_false, Bool.false_and,
          Bool.false_eq_true, if_false]
        simpa [hPress] using hHolding

/- A held press is taken by its first claimed repeat. -/
theorem run_of_released (hCoherent : m.Coherent) (hKey : p.2.isModifier = false)
    (hReleased : m.holding p = .released) (hRun : Run step m trace m')
    (hHeld : ∀ e ∈ trace, e.op.ends p = false) :
    (trace.any (claims p) = false ∧ trace.any (forwards p) = false ∧ m'.holding p = .released) ∨
      (trace.any (claims p) = true ∧ m'.owner p = if trace.any (forwards p) then .forwarded
          else .swallowed) := by
  induction hRun with
  | nil => exact .inl ⟨rfl, rfl, hReleased⟩
  | @snoc front last next op out hFront hLast ih =>
    have hMid := (run_holding hCoherent hFront p).1
    rcases forall_mem_snoc.mp hHeld with ⟨hPrior, hEnds⟩
    have hBefore := ih hPrior
    simp only [List.any_append, List.any_cons, List.any_nil, Bool.or_false]
    rcases hBefore with ⟨hClaims, hForwards, hHolding⟩ | ⟨hClaims, hOwner⟩
    · have hNext := step_of_released hMid hKey hHolding hLast hEnds
      rw [hClaims, hForwards, hNext.1]
      cases hClaim : claims p ⟨last, op, out⟩ with
      | true | false => simpa [hClaim] using hNext.2
    · refine .inr ⟨by simp [hClaims], ?_⟩
      have hStep := step_holding hMid hLast p
      rw [← holding_owner, hStep]
      cases hForwards : front.any (forwards p) with
      | true =>
        rw [hForwards, if_pos rfl] at hOwner
        rw [after_of_forwarded hOwner hEnds]
        simp
      | false =>
        rw [hForwards, if_neg (by simp)] at hOwner
        have hSwallowed : (last.holding p).owner = .swallowed := hOwner
        have hAfter := @after_of_swallowed _ p ⟨last, op, out⟩ hSwallowed hEnds
        simpa using hAfter

theorem Op.ends_eq_false (hStreams : op.streams = true) (hKind : op.kindOf p ≠ some .keyUp) :
    op.ends p = false := by
  cases op with
  | settle | resetDevice | reset => simp [Op.streams] at hStreams
  | _ => simpa [Op.ends] using hKind

theorem heldAfter_concat (p : Press) (trace : List Entry) (e : Entry) : heldAfter p (trace ++ [e]) =
      match e.op.kindOf p with
      | some .keyDown => true
      | some .keyUp => false
      | _ => heldAfter p trace := by
  simp [heldAfter]

/- Only held presses are owned. -/
theorem free_of_not_held (hCoherent : m.Coherent) (hFree : m.owner p = .free)
    (hRun : Run step m trace m') (hHeld : heldAfter p trace = false) :
    m'.owner p = .free := by
  induction hRun with
  | nil => exact hFree
  | @snoc front last next op out hFront hLast ih =>
    have hMid := (run_holding hCoherent hFront p).1
    rw [heldAfter_concat] at hHeld
    rw [← holding_owner, step_holding hMid hLast p]
    cases hKind : op.kindOf p with
    | none =>
      simp only [hKind] at hHeld
      exact after_of_free (ih hHeld) (by simp [hKind])
    | some kind =>
      cases kind with
      | keyDown => simp [hKind] at hHeld
      | keyUp =>
        rw [← step_holding hMid hLast p]
        exact owner_after_keyUp hMid hKind hLast
      | modifiersChanged =>
        simp only [hKind] at hHeld
        exact after_of_free (ih hHeld) (by simp [hKind])

/- An owned press is never claimed while it is held. -/
theorem no_claims_of_owned (hCoherent : m.Coherent) (hOwned : m.owner p ≠ .free)
    (hRun : Run step m trace m') (hHeld : ∀ e ∈ trace, e.op.ends p = false) :
    trace.any (claims p) = false := by
  induction hRun with
  | nil => rfl
  | @snoc front last next op out hFront _ ih =>
    have hEnds := (forall_mem_snoc.mp hHeld).1
    have hAlong : ((m.holding p).along p front).owner ≠ .free := by
      cases hOwner : m.owner p with
      | free => exact absurd hOwner hOwned
      | swallowed =>
        rw [along_of_swallowed hOwner hEnds]
        split <;> simp
      | forwarded =>
        rw [along_of_forwarded hOwner hEnds]
        simp
    rw [← (run_holding hCoherent hFront p).2, holding_owner, Ne, owner_eq_free_iff] at hAlong
    rw [List.any_append, ih hEnds]
    simp only [claims, List.any_cons, List.any_nil]
    split
    · simp only [Bool.false_or, Bool.or_false, Bool.and_eq_false_iff, decide_eq_false_iff_not]
      refine .inl ?_
      intro h
      exact hAlong h.2.2
    · rfl

theorem down_of_free (hCoherent : m.Coherent) (hKey : p.2.isModifier = false)
    (hFree : m.owner p = .free) (hKind : op.kindOf p = some .keyDown)
    (hStep : m.step op = some (m', out)) :
    (out = .verdict .pass none ∧ m'.holding p = .released) ∨ (out ≠ .verdict .pass none ∧
        m'.owner p = .swallowed) := by
  rcases Op.kindOf_eq_some_iff.mp hKind with ⟨event, hEvent, hCode, hDown⟩
  have hModifier : event.code.isModifier = false := by rwa [hCode]
  have hPress : (p.1, event.code) = p := by rw [hCode]
  rcases step_answer hCoherent hEvent hModifier hStep with ⟨verdict, token, rfl, hVerdict, hToken⟩
  rw [hPress, hFree, hDown] at hVerdict
  have hHolding := step_holding hCoherent hStep p
  rw [after_of_event hEvent, hPress, if_pos rfl, hDown] at hHolding
  cases hFind : m.rules.findHotkey event op.focusedApp with
  | none =>
    simp only [hFind, Option.map_none, Owner.answer] at hVerdict
    subst hVerdict
    have hNone := hToken rfl
    subst hNone
    refine .inl ⟨rfl, ?_⟩
    rw [hHolding]
    simp [dispatched, released, hFree, Verdict.isReplace]
  | some rule =>
    simp only [hFind, Option.map_some, Owner.answer] at hVerdict
    subst hVerdict
    refine .inr ⟨by simp, ?_⟩
    rw [← holding_owner, hHolding]
    simp [dispatched, hFree, Verdict.isReplace]

theorem up_passes_iff (hCoherent : m.Coherent) (hKey : p.2.isModifier = false)
    (hKind : op.kindOf p = some .keyUp) (hStep : m.step op = some (m', out)) :
    out = .verdict .pass none ↔ m.owner p ≠ .swallowed := by
  rcases Op.kindOf_eq_some_iff.mp hKind with ⟨event, hEvent, hCode, hUp⟩
  have hModifier : event.code.isModifier = false := by rwa [hCode]
  have hPress : (p.1, event.code) = p := by rw [hCode]
  rcases step_answer hCoherent hEvent hModifier hStep with ⟨verdict, token, rfl, hVerdict, hToken⟩
  rw [hPress, hUp] at hVerdict
  subst hVerdict
  cases hOwner : m.owner p with
  | free | forwarded =>
    have hNone : token = none := by
      apply hToken
      rw [hOwner]
      rfl
    simp [hNone, Owner.answer]
  | swallowed => simp [Owner.answer]

/-
  A stroke is balanced unless an auto-repeat of it, owned by nobody, matched a hotkey and
  was not handed back.
-/
theorem stroke_balanced_iff {rules : RuleSet} {m : Matcher} {trace : List Entry} {p : Press}
    (hKey : p.2.isModifier = false) (hRun : Run step (new rules) trace m)
    (hStreams : ∀ e ∈ trace, e.op.streams = true) (stroke : Stroke p trace) :
    stroke.Balanced ↔ (stroke.during.any (claims p) = true → stroke.during.any (refuses p) = true) := by
  rcases stroke with ⟨before, down, during, up, rfl, hFresh, hDown, hUp, hHeld⟩
  rcases hRun.split with ⟨m₁, hBefore, hStroke⟩
  rcases hStroke.cons_inv with ⟨hPre, m₂, hFirst, hRest⟩
  rcases hRest.concat_inv with ⟨hDuring, hLast⟩
  have hEnds : ∀ e ∈ during, e.op.ends p = false := by
    intro e he
    exact Op.ends_eq_false (hStreams e (by simp [he])) (hHeld e he)
  have hNew : (new rules).owner p = .free := rfl
  have hStart := (run_holding (new_coherent rules) hBefore p).1
  have hFree := free_of_not_held (new_coherent rules) hNew hBefore hFresh
  have hMid := step_coherent hStart hFirst
  have hEnd := (run_holding hMid hDuring p).1
  have hPasses := up_passes_iff hEnd hKey hUp hLast
  simp only [Stroke.Balanced]
  rw [hPasses, ← run_any_forwards hDuring p]
  rcases down_of_free hStart hKey hFree hDown hFirst with ⟨hPass, hReleased⟩ | ⟨hNot, hSwallowed⟩
  · rcases run_of_released hMid hKey hReleased hDuring hEnds
      with ⟨hClaims, hForwards, hHolding⟩ | ⟨hClaims, hOwner⟩
    · have hOwner : up.pre.owner p = .free := congrArg Holding.owner hHolding
      simp [hPass, hOwner, hClaims]
    · cases hForwards : during.any (forwards p) with
      | true => simp [hPass, hOwner, hForwards]
      | false => simp [hPass, hOwner, hForwards, hClaims]
  · have hClaims := no_claims_of_owned hMid (by simp [hSwallowed]) hDuring hEnds
    have hOwner : (m₂.holding p).owner = .swallowed := hSwallowed
    have hAlong := along_of_swallowed hOwner hEnds
    rw [← (run_holding hMid hDuring p).2, holding_owner] at hAlong
    cases hForwards : during.any (forwards p) with
    | true => simp [hAlong, hForwards]
    | false => simp [hAlong, hForwards, hNot, hClaims]

/-
  K pressed alone, then Option pressed while K repeats: the rule claims the repeat of a
  press already passed on.
-/
def lateOption : List Op :=
  [.dispatch ⟨1⟩ ⟨.keyK, .keyDown, .empty⟩ none 0, .dispatch ⟨1⟩ ⟨.keyK, .keyDown, .alt⟩ none 1,
    .dispatch ⟨1⟩ ⟨.keyK, .keyUp, .empty⟩ none 2]

/- The only stroke of that run. -/
def lateOptionStroke :
    Stroke (⟨1⟩, .keyK) (entriesOf step (new optionK) lateOption) where
  before := []
  down := ⟨new optionK, .dispatch ⟨1⟩ ⟨.keyK, .keyDown, .empty⟩ none 0, .verdict .pass none⟩
  during := [⟨lastOf step (new optionK) (lateOption.take 1),
      .dispatch ⟨1⟩ ⟨.keyK, .keyDown, .alt⟩ none 1,
      .verdict (.replace (.sendKey .keyT .alt)) none⟩]
  up := ⟨lastOf step (new optionK) (lateOption.take 2),
      .dispatch ⟨1⟩ ⟨.keyK, .keyUp, .empty⟩ none 2,
      .verdict .swallow none⟩
  cut := rfl
  fresh := rfl
  down_kind := rfl
  up_kind := rfl
  held := by decide

theorem lateOption_unbalanced :
    Run step (new optionK) (entriesOf step (new optionK) lateOption)
        (lastOf step (new optionK) lateOption) ∧
      (∀ e ∈ entriesOf step (new optionK) lateOption, e.op.streams = true) ∧
      ¬ lateOptionStroke.Balanced := by
  refine ⟨.of_isSome (by decide),
    by decide, ?_⟩
  intro hBalanced
  have hPass := hBalanced.mpr (.inl rfl)
  simp [lateOptionStroke] at hPass

/- The same keys, with the replacement handed back. -/
def lateOptionRefused : List Op :=
  [.dispatch ⟨1⟩ ⟨.keyK, .keyDown, .empty⟩ none 0,
    .dispatchWithDelivery ⟨1⟩ ⟨.keyK, .keyDown, .alt⟩ none 1,
    .report ⟨⟨1⟩, .keyK, 1⟩ .rejectedOriginalForwarded,
    .dispatch ⟨1⟩ ⟨.keyK, .keyUp, .empty⟩ none 2]

def lateOptionRefusedStroke :
    Stroke (⟨1⟩, .keyK) (entriesOf step (new optionK) lateOptionRefused) where
  before := []
  down := ⟨new optionK, .dispatch ⟨1⟩ ⟨.keyK, .keyDown, .empty⟩ none 0, .verdict .pass none⟩
  during := [⟨lastOf step (new optionK) (lateOptionRefused.take 1),
      .dispatchWithDelivery ⟨1⟩ ⟨.keyK, .keyDown, .alt⟩ none 1,
      .verdict (.replace (.sendKey .keyT .alt)) (some ⟨⟨1⟩, .keyK, 1⟩)⟩,
      ⟨lastOf step (new optionK) (lateOptionRefused.take 2),
        .report ⟨⟨1⟩, .keyK, 1⟩ .rejectedOriginalForwarded,
        .reported true⟩]
  up := ⟨lastOf step (new optionK) (lateOptionRefused.take 3),
      .dispatch ⟨1⟩ ⟨.keyK, .keyUp, .empty⟩ none 2,
      .verdict .pass none⟩
  cut := rfl
  fresh := rfl
  down_kind := rfl
  up_kind := rfl
  held := by decide

theorem lateOptionRefused_balanced :
    lateOptionRefusedStroke.during.any (claims (⟨1⟩, .keyK)) = true ∧
      lateOptionRefusedStroke.Balanced := by
  refine ⟨by decide, ?_⟩
  have hRun : Run step (new optionK) (entriesOf step (new optionK)
        lateOptionRefused)
      (lastOf step (new optionK) lateOptionRefused) :=
    Run.of_isSome (by decide)
  have hKey : ((⟨1⟩, .keyK) : Press).2.isModifier = false := rfl
  exact
    (stroke_balanced_iff hKey hRun (by decide)
      lateOptionRefusedStroke).mpr (fun _ => by decide)

end Matcher

end Sledge.Core
