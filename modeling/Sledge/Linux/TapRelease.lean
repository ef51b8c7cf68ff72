import Sledge.Linux.Holds

/-
  The calls that proposals make on the tap machines.

  In tap-release mode a proposal makes up to three calls on
  the machines of a keyboard: one when the connection, an
  epoch or the keyboard changed, one for the edge itself, and
  one when a modifier goes down while another key is held.
  Every other operation makes none, or starts the machines
  afresh.

  Main results:
    * `MatcherAdapter.answered_of_step`
    * `MatcherAdapter.propose_slots`
    * `MatcherAdapter.step_slots`
    * `MatcherAdapter.run_counting`
-/

-----
-- Proposals In Tap-Release Mode

namespace Sledge.Linux

open Core Transition Matcher

namespace MatcherAdapter

/- What taps never span. -/
def identity (scope : Scope) (event : Event) : Nat × Nat × Nat × Nat :=
  (scope.nonce, scope.lockEpoch, event.focusEpoch, scope.generation)

/- An edge that is proposed while replacement is open. -/
def hears (a : MatcherAdapter) (event : Event) : Bool :=
  a.transactions.pending.isNone && !a.transactions.replacementDisabled && decide (event.state ≤ 1)

/- The edge changes the keys held. -/
def changes (a : MatcherAdapter) (scope : Scope) (event : Event) : Bool :=
  (a.observePhysical scope event).2

variable {a b : MatcherAdapter} {scope : Scope} {event : Event} {focusedApp : Option String}
variable {now : Instant} {admitSource : String → Bool} {result : Except IoError Decision}

theorem hears_open (hHears : a.hears event = true) : a.Open := by
  simp only [hears, Bool.and_eq_true, Bool.not_eq_true', Option.isNone_iff_eq_none] at hHears
  exact ⟨hHears.1.1, hHears.1.2⟩

theorem hears_state (hHears : a.hears event = true) : event.state ≤ 1 := by
  simp only [hears, Bool.and_eq_true, decide_eq_true_eq] at hHears
  exact hHears.2

theorem hears_asked (hMode : a.modifierTapRelease = true) (hHears : a.hears event = true) :
    a.Asked event := by
  have hState := hears_state hHears
  by_cases hDown : event.state = 1
  · exact .inl hDown
  · exact .inr ⟨by omega, hMode⟩

theorem hears_of_open (hOpen : a.Open) (hState : event.state ≤ 1) : a.hears event = true := by
  simp [hears, hOpen.pending, hOpen.enabled, hState]

theorem hears_of_asked (hOpen : a.Open) (hAsked : a.Asked event) : a.hears event = true := by
  refine hears_of_open hOpen ?_
  rcases hAsked with hDown | ⟨hUp, _⟩ <;> omega

/- Everything a proposal can do in tap-release mode. -/
inductive Answered (a : MatcherAdapter) (scope : Scope) (event : Event) (focusedApp : Option String)
    (now : Instant) (admitSource : String → Bool) :
    MatcherAdapter → Except IoError Decision → Prop where
  | unheard (result : Except IoError Decision) (hNot : a.hears event = false) (hRefused :
        result = .error invalid ∨ 1 < event.state) :
      Answered a scope event focusedApp now admitSource a result
  | same (hHears : a.hears event = true) (hSame : a.changes scope event = false) :
      Answered a scope event focusedApp now admitSource (a.observed scope event) (.ok .pass)
  | unknown (hHears : a.hears event = true) (hChanges : a.changes scope event = true)
      (hCode : codeOf event.key = none) :
      Answered a scope event focusedApp now admitSource
        { a.observed scope event with matcher := (a.observed scope event).matcher.disqualifyTaps }
        (.ok .pass)
  | dispatched {code : KeyCode} {matcher : Matcher} {verdict : Verdict}
      {token : Option ReplacementToken}
      (hHears : a.hears event = true)
      (hChanges : a.changes scope event = true)
      (hCode : codeOf event.key = some code)
      (hDispatch : (a.observed scope event).matcher.dispatchDeviceWithDelivery
              ⟨scope.generation⟩ (normalize code event)
              focusedApp now =
          some (matcher, verdict, token)) :
      Answered a scope event focusedApp now admitSource ⟨a.spoiled matcher code scope event,
          { (a.observed scope event).transactions with
            pending := pendingAfter none scope event (decisionOf event.state admitSource verdict)
                token }⟩
        (.ok (decisionOf event.state admitSource verdict))

theorem answered_of_proposed (hMode : a.modifierTapRelease = true)
    (hProposed : Proposed a scope event focusedApp now admitSource b result) :
    Answered a scope event focusedApp now admitSource b result := by
  cases hProposed with
  | refused hClosed =>
    refine .unheard _ ?_ (.inl rfl)
    by_contra hHears
    have hOpen := hears_open (by simpa using hHears)
    simp [hOpen.pending, hOpen.enabled] at hClosed
  | skipped hOpen hState =>
    have hLarge : 1 < event.state := by
      by_contra hSmall
      exact hState (hears_asked hMode (hears_of_open hOpen (Nat.not_lt.mp hSmall)))
    exact .unheard _ (by simp [hears, hLarge]) (.inr hLarge)
  | repeated hOpen hAsked hTap hSame => exact .same (hears_of_asked hOpen hAsked) hSame
  | unknown hOpen hAsked hChanges hCode =>
    exact .unknown (hears_of_asked hOpen hAsked) (hChanges hMode) hCode
  | dispatched hOpen hAsked hChanges hCode hDispatch =>
    exact .dispatched (hears_of_asked hOpen hAsked) (hChanges hMode) hCode hDispatch

theorem answered_of_step {out : Out} (hMode : a.modifierTapRelease = true)
    (hStep : a.step (.propose scope event focusedApp now admitSource) = some (b, out)) :
    ∃ result, out = .decision result ∧ Answered a scope event focusedApp now admitSource b result := by
  simp only [step, Option.map_eq_some_iff] at hStep
  rcases hStep with ⟨⟨c, result⟩, hPropose, hEq⟩
  cases hEq
  exact ⟨result, rfl, answered_of_proposed hMode (proposed_of_proposeWithSource hPropose)⟩

theorem observed_observation (hMode : a.modifierTapRelease = true) :
    (a.observed scope event).transactions.observation = some (identity scope event) := by
  unfold observed
  rw [if_pos hMode]
  rfl

theorem changes_down (hDown : event.state = 1) :
    a.changes scope event = true ↔ (scope.generation, event.key) ∉ a.transactions.physicalDowns := by
  unfold changes observePhysical
  simp [hDown]

/- What is not heard changes nothing. -/
theorem unheard_same (hNot : a.hears event = false)
    (hAnswered : Answered a scope event focusedApp now admitSource b result) :
    b = a ∧ (result = .error invalid ∨ 1 < event.state) := by
  cases hAnswered with
  | unheard _ _ hRefused => exact ⟨rfl, hRefused⟩
  | same hHears _ | unknown hHears _ _ | dispatched hHears _ _ _ =>
    rw [hNot] at hHears
    cases hHears

/- An edge that is heard is accepted and observed. -/
theorem heard_transactions (hHears : a.hears event = true)
    (hAnswered : Answered a scope event focusedApp now admitSource b result) :
    (∃ decision, result = .ok decision) ∧ b.transactions.observation =
        (a.observed scope event).transactions.observation ∧
      b.transactions.physicalDowns = (a.observed scope event).transactions.physicalDowns := by
  cases hAnswered with
  | unheard _ hNot =>
    rw [hHears] at hNot
    cases hNot
  | same _ _ | unknown _ _ _ | dispatched _ _ _ _ => exact ⟨⟨_, rfl⟩, rfl, rfl⟩

-----
-- Calls Of A Proposal

/- Taps do not survive a change of identity. -/
def identityCall (a : MatcherAdapter) (scope : Scope) (event : Event) : Option TapFsm.Call :=
  if a.transactions.observation = some (identity scope event)
  then none
  else some .otherKey

/- The edge itself, on the machines of its keyboard. -/
def edgeCall (a : MatcherAdapter) (d : DeviceId) (scope : Scope) (event : Event) (now : Instant) :
    Option TapFsm.Call :=
  match codeOf event.key with
  | none => some .otherKey
  | some code =>
    if ⟨scope.generation⟩ = d then
      (a.observed scope event).matcher.dispatchCall ⟨scope.generation⟩ (normalize code event) now
    else none

/- A modifier that goes down beside another key. -/
def spoilCall (a : MatcherAdapter) (scope : Scope) (event : Event) : Option TapFsm.Call :=
  match codeOf event.key with
  | none => none
  | some code =>
    if spoilsTaps (a.observed scope event).transactions code scope event then
      some .otherKey
    else none

/- The three calls an operation may make, in order. -/
def slot (a : MatcherAdapter) (d : DeviceId) (op : Op) : TapFsm.Calls := fun s =>
  match op with
  | .propose scope event _ now _ =>
    if a.hears event then
      if s = 0 then a.identityCall scope event
      else if a.changes scope event then
        if s = 1 then a.edgeCall d scope event now
        else a.spoilCall scope event
      else none
    else none
  | _ => none

/- Operations after which taps are counted afresh. -/
def Op.interrupts (generation : Nat) : Op → Bool
  | .awaitReconciliation _ => true
  | .awaitLifecycleReconciliation _ _ => true
  | .reconciled _ _ => true
  | .retireDevice retired => retired == generation
  | .observeUnlockedEpoch _ => true
  | .observeLockBoundary _ => true
  | .invalidateSpeculation => true
  | .disconnected => true
  | .swapRules _ => true
  | _ => false

/- A refused operation changes nothing. -/
def tookEffect (e : Entry) : Bool :=
  match e.op with
  | .awaitReconciliation _ => e.out.succeeded
  | .awaitLifecycleReconciliation _ _ => e.out.succeeded
  | .reconciled _ _ => e.out.succeeded
  | .retireDevice retired => retired != 0
  | _ => true

def interrupts (generation : Nat) (e : Entry) : Bool := e.op.interrupts generation && tookEffect e

/- Three calls in a row, on the machines of one device. -/
structure Thrice (m m' : Matcher) (d : DeviceId) (calls : TapFsm.Calls) : Prop where
  advanced : ∃ m₁ m₂, Advanced m m₁ d (calls 0) ∧ Advanced m₁ m₂ d (calls 1) ∧
        Advanced m₂ m' d (calls 2)

variable {op : Op} {out : Out}
variable {d : DeviceId}

theorem advanced_none (m : Matcher) (d : DeviceId) : Advanced m m d none :=
  Advanced.idle rfl rfl

theorem Thrice.idle {m m' : Matcher} {calls : TapFsm.Calls} (hIdle : Advanced m m' d none)
    (hQuiet : ∀ s, calls s = none) : Thrice m m' d calls := by
  refine ⟨m, m, ?_, ?_, ?_⟩ <;> rw [hQuiet]
  · exact advanced_none m d
  · exact advanced_none m d
  · exact hIdle

theorem slot_unheard (hNot : a.hears event = false) (s : Nat) :
    a.slot d (.propose scope event focusedApp now admitSource) s = none := by
  simp [slot, hNot]

theorem slot_zero (hHears : a.hears event = true) :
    a.slot d (.propose scope event focusedApp now admitSource) 0 = a.identityCall scope event := by
  simp [slot, hHears]

theorem slot_one (hHears : a.hears event = true) :
    a.slot d (.propose scope event focusedApp now admitSource) 1 = if a.changes scope event then
        a.edgeCall d scope event now
      else none := by
  simp [slot, hHears]

theorem slot_two (hHears : a.hears event = true) :
    a.slot d (.propose scope event focusedApp now admitSource) 2 =
      if a.changes scope event then a.spoilCall scope event
      else none := by
  simp [slot, hHears]

/- The bookkeeping disqualifies taps of another identity. -/
theorem observed_advanced (hMode : a.modifierTapRelease = true) (scope : Scope) (event : Event)
    (d : DeviceId) :
    Advanced a.matcher (a.observed scope event).matcher d (a.identityCall scope event) := by
  unfold observed
  rw [if_pos hMode]
  unfold observePhysical identityCall identity
  dsimp only
  by_cases hSame : a.transactions.observation = some
    (scope.nonce, scope.lockEpoch, event.focusEpoch, scope.generation)
  · rw [if_neg (not_not_intro hSame), if_pos hSame]
    exact advanced_none _ d
  · rw [if_pos hSame, if_neg hSame]
    exact disqualifyTaps_advanced _ d

/- A dispatched edge feeds the machines of its keyboard. -/
theorem dispatched_advanced {m m' : Matcher} {device : DeviceId} {keyEvent : KeyEvent}
    {verdict : Verdict} {token : Option ReplacementToken} (hRemembers : Remembers m)
    (hDispatch : m.dispatchDeviceWithDelivery device keyEvent focusedApp now =
        some (m', verdict, token)) :
    Advanced m m' d (if device = d then m.dispatchCall device keyEvent now
        else none) := by
  have hStep : m.step (.dispatchWithDelivery device keyEvent focusedApp now) =
      some (m', .verdict verdict token) := by
    simp only [Matcher.step, hDispatch]
  rcases step_machines hRemembers.coherent.active hRemembers.sized hStep d with
    ⟨hRenews, _⟩ | ⟨_, hAdvanced⟩
  · cases hRenews
  · exact hAdvanced

/- A proposal makes its three calls. -/
theorem propose_slots (hTracked : a.Tracked)
    (hStep : a.step (.propose scope event focusedApp now admitSource) = some (b, out))
    (d : DeviceId) :
    Thrice a.matcher b.matcher d (a.slot d (.propose scope event focusedApp now admitSource)) := by
  have hMode := hTracked.mode
  have hObserved := observed_advanced hMode scope event d
  rcases answered_of_step hMode hStep with ⟨result, rfl, hAnswered⟩
  cases hAnswered with
  | unheard _ hNot => exact .idle (advanced_none _ d) (slot_unheard hNot)
  | same hHears hSame =>
    refine ⟨_, (a.observed scope event).matcher, by rw [slot_zero hHears]; exact hObserved, ?_, ?_⟩
    · rw [slot_one hHears, hSame]
      exact advanced_none _ d
    · rw [slot_two hHears, hSame]
      exact advanced_none _ d
  | unknown hHears hChanges hCode =>
    refine ⟨_, (a.observed scope event).matcher.disqualifyTaps,
      by rw [slot_zero hHears]; exact hObserved, ?_, ?_⟩
    · rw [slot_one hHears, hChanges, if_pos rfl, edgeCall, hCode]
      exact disqualifyTaps_advanced _ d
    · rw [slot_two hHears, hChanges, if_pos rfl, spoilCall, hCode]
      exact advanced_none _ d
  | @dispatched code matcher verdict token hHears hChanges hCode hDispatch =>
      refine
        ⟨_, matcher, by rw [slot_zero hHears]; exact hObserved,
          ?_, ?_⟩
      · rw [slot_one hHears, hChanges, if_pos rfl, edgeCall, hCode]
        exact dispatched_advanced (hTracked.observed scope event) hDispatch
      · rw [slot_two hHears, hChanges, if_pos rfl, spoilCall, hCode]
        dsimp only
        unfold spoiled
        split_ifs
        · exact disqualifyTaps_advanced _ d
        · exact advanced_none _ d

theorem reportDelivery_advanced (m : Matcher) (token : ReplacementToken)
    (delivery : ReplacementDelivery) (d : DeviceId) :
    Advanced m (m.reportDelivery token delivery).1 d none := by
  unfold reportDelivery
  dsimp only
  split_ifs <;> exact Advanced.idle rfl rfl

/-
  Every operation starts the machines of a keyboard afresh, or makes its three calls on
  them and does not interrupt.
-/
theorem step_slots (hTracked : a.Tracked) (hStep : a.step op = some (b, out)) (generation : Nat) :
    Renewed b.matcher ⟨generation⟩ ∨ (interrupts generation ⟨a, op, out⟩ = false ∧
        Thrice a.matcher b.matcher ⟨generation⟩ (a.slot ⟨generation⟩ op)) := by
  cases stepped_of_step hStep with
  | setModifierTapRelease enabled | distrusted scope event report =>
    exact .inr ⟨rfl, Thrice.idle (advanced_none _ _) (fun _ => rfl)⟩
  | propose hProposed => exact .inr ⟨rfl, propose_slots hTracked hStep _⟩
  | refused hRefused =>
    right
    cases hRefused <;>
      exact ⟨by simp [interrupts, tookEffect, Out.succeeded, Op.interrupts],
        Thrice.idle (advanced_none _ _) (fun _ => rfl)⟩
  | reported report settled hPending hScope =>
    exact .inr ⟨rfl, Thrice.idle (reportDelivery_advanced _ _ _ _) (fun _ => rfl)⟩
  | @settled scope event code outcome hState hGlobal hCode =>
    have hSettle : a.matcher.step (.settle ⟨scope.generation⟩ (normalize code event)) = some
        (a.matcher.settleDeviceEvent ⟨scope.generation⟩ (normalize code event), .done) :=
      rfl
    rcases step_machines hTracked.coherent.active hTracked.sized hSettle ⟨generation⟩ with
      ⟨_, hRenewed⟩ | ⟨_, hAdvanced⟩
    · exact .inl hRenewed
    · exact .inr ⟨rfl, Thrice.idle hAdvanced (fun _ => rfl)⟩
  | armed op nonce hOp | reconciled scope hGlobal hNonce | observed op hOp | disconnected op hOp
  | invalidateSpeculation | swapRules rules => exact .inl ⟨rfl⟩
  | @retired retired lost hGlobal hLost =>
    have hReset : a.matcher.step (.resetDevice ⟨retired⟩) =
        some (a.matcher.resetDevice ⟨retired⟩, .done) :=
      rfl
    rcases step_machines hTracked.coherent.active hTracked.sized hReset ⟨generation⟩ with
      ⟨_, hRenewed⟩ | ⟨hOther, hAdvanced⟩
    · exact .inl hRenewed
    · right
      refine ⟨?_, Thrice.idle hAdvanced (fun _ => rfl)⟩
      simp only [Op.renews, beq_eq_false_iff_ne, ne_eq, DeviceId.mk.injEq] at hOther
      simp [interrupts, Op.interrupts, hOther]

-----
-- Calls Of A Run

/- The calls of the operations from `start` on, three each. -/
def timeline (d : DeviceId) (log : List Entry) (start : Nat) : TapFsm.Calls := fun i =>
  log[start + i / 3]?.bind (fun e =>
    e.pre.slot d e.op (i % 3))

/- The machines count from `start`, uninterrupted. -/
structure Counting (generation : Nat) (log : List Entry) (a : MatcherAdapter) (start : Nat) :
    Prop where
  within : start ≤ log.length
  fed : a.matcher.Fed ⟨generation⟩ (timeline ⟨generation⟩ log start) (3 * (log.length - start))
  uninterrupted : ∀ l e, start ≤ l → log[l]? = some e → interrupts generation e = false

variable {rules : RuleSet} {log : List Entry}
variable {generation start : Nat}

theorem timeline_append (tail : List Entry) (hStart : start ≤ log.length) {i : Nat}
    (hBefore : i < 3 * (log.length - start)) :
    timeline d (log ++ tail) start i = timeline d log start i := by
  unfold timeline
  rw [List.getElem?_append_left (by omega)]

/- The calls of the last operation. -/
theorem timeline_last (e : Entry) (hStart : start ≤ log.length) {s : Nat} (hSlot : s < 3) :
    timeline d (log ++ [e]) start (3 * (log.length - start) + s) = e.pre.slot d e.op s := by
  have hIndex : start + (3 * (log.length - start) + s) / 3 =
      log.length := by
    omega
  have hRest : (3 * (log.length - start) + s) % 3 = s := by omega
  unfold timeline
  rw [hIndex, hRest, List.getElem?_concat_length, Option.bind_some]

theorem Counting.fed_append (hCounting : Counting generation log a start) (tail : List Entry) :
    a.matcher.Fed ⟨generation⟩ (timeline ⟨generation⟩ (log ++ tail) start)
      (3 * (log.length - start)) :=
  hCounting.fed.congr fun _ hBefore =>
    (timeline_append tail hCounting.within hBefore).symm

/- Three calls take the machines three points further. -/
theorem Thrice.fed {m m' : Matcher} {calls own : TapFsm.Calls} {n : Nat}
    (hThrice : Thrice m m' d own) (hFed : m.Fed d calls n) (hOwn : ∀ s < 3, calls (n + s) = own s) :
    m'.Fed d calls (n + 3) := by
  rcases hThrice.advanced with ⟨m₁, m₂, hFirst, hSecond, hThird⟩
  rw [← hOwn 0 (by decide)] at hFirst
  rw [← hOwn 1 (by decide)] at hSecond
  rw [← hOwn 2 (by decide)] at hThird
  exact hThird.fed (hSecond.fed (hFirst.fed hFed))

/- An entry of a longer log is an old one or the last. -/
theorem entry_snoc {e last : Entry} {l : Nat} (hEntry : (log ++ [last])[l]? = some e) :
    log[l]? = some e ∨ (l = log.length ∧ e = last) := by
  rw [List.getElem?_append] at hEntry
  split_ifs at hEntry with hBefore
  · exact .inl hEntry
  · rcases List.getElem?_eq_some_iff.mp hEntry with ⟨hBound, hLast⟩
    rw [List.length_singleton] at hBound
    right
    refine ⟨by omega, ?_⟩
    rw [← hLast, List.getElem_singleton]

/- Every run counts from its last interruption. -/
theorem run_counting (hRun : Run step (tapping rules) log a) (hMode : KeepsMode log)
    (generation : Nat) : ∃ start, Counting generation log a start := by
  induction hRun with
  | nil =>
    refine ⟨0, Nat.le_refl 0, rfl, ?_⟩
    intro l e _ hEntry
    cases hEntry
  | @snoc log a next op out hFront hLast ih =>
    rcases forall_mem_snoc.mp hMode with ⟨hModeFront, _⟩
    rcases ih hModeFront with ⟨start, hCounting⟩
    rcases step_slots (run_tracked hFront hModeFront) hLast generation with
      hRenewed | ⟨hQuiet, hThrice⟩
    · refine ⟨log.length + 1, ?_, ?_, ?_⟩
      · rw [List.length_append, List.length_singleton]
      · rw [List.length_append, List.length_singleton, Nat.sub_self]
        exact hRenewed.fed _
      · intro l e hFrom hEntry
        rcases entry_snoc hEntry with hFound | ⟨hLength, _⟩
        · have hLess := (List.getElem?_eq_some_iff.mp hFound).1
          omega
        · omega
    · have hWithin := hCounting.within
      refine ⟨start, ?_, ?_, ?_⟩
      · rw [List.length_append, List.length_singleton]
        omega
      · have hNext := hThrice.fed (hCounting.fed_append [⟨a, op, out⟩]) (fun s hSlot =>
              timeline_last ⟨a, op, out⟩ hWithin hSlot)
        have hLength : 3 * (log.length - start) + 3 = 3 * (log.length + 1 - start) := by omega
        rw [List.length_append, List.length_singleton, ← hLength]
        exact hNext
      · intro l e hFrom hEntry
        rcases entry_snoc hEntry with hFound | ⟨_, rfl⟩
        · exact hCounting.uninterrupted l e hFrom hFound
        · exact hQuiet

end MatcherAdapter

end Sledge.Linux
