import Sledge.Daemon.Handler

/-
  The event sink of the Linux daemon
  (`packages/cli/src/daemon/linux.rs`).

  A call holds the matching lock until its replacement is
  settled, so no token outlives the call that issued it.  The
  configurations loaded before a call, the focus cache, the
  clock, the source queue and the injection are given with
  each call.

  Main results:
    * `MatchingState.deliver_answers`
-/

-----
-- The Sink

namespace Sledge

namespace Daemon.Linux

open Core Config Sledge.Linux

/- What one call of the sink meets. -/
structure Occasion where
  reloads : List (RuleSet × Dict String AppAlias)
  desktop : Option (Option FocusIdentity)
  now : Instant
  sources : Option (String → Except BackendError Unit)
  inject : Action → Except BackendError Unit

namespace Occasion

/- A desktop cache replaces the focus of the backend. -/
def focus (o : Occasion) (focusedApp : Option String) : Option String × Option AppIdentity :=
  match o.desktop with
  | some current => (current.map (·.value), current.map identityOf)
  | none => (focusedApp, focusedApp.map .linuxLegacy)

/- Queue a source selection, or inject. -/
def perform (o : Occasion) (action : Action) : Except BackendError Unit :=
  match action with
  | .setInputSource id =>
    match o.sources with
    | none => .error (.unknownInputSource id)
    | some submit => submit id
  | .sendKey _ _ => o.inject action

end Occasion

namespace MatchingState

def matcher (s : MatchingState) : Matcher := s.hyprland.matcher

def withMatcher (s : MatchingState) (m : Matcher) : MatchingState :=
  { s with hyprland := { s.hyprland with matcher := m } }

def reload (s : MatchingState) (reloads : List (RuleSet × Dict String AppAlias)) : MatchingState :=
  reloads.foldl (fun s config => s.replace config.1 config.2) s

/-
  Answer the backend.  `none` is a panic; a failed injection leaves the original to the
  consumer.
-/
def deliver (s : MatchingState) (o : Occasion) (device : DeviceId) (event : KeyEvent)
    (focusedApp : Option String) : Option (MatchingState × BackendVerdict) :=
  let (focusedApp, identity) := o.focus focusedApp
  let logical := resolveFocusedApp s.aliases focusedApp identity
  match s.matcher.dispatchDeviceWithDelivery device event logical o.now with
  | none => none
  | some (m, .pass, _) => some (s.withMatcher m, .pass)
  | some (m, .swallow, _) => some (s.withMatcher m, .swallow)
  | some (_, .replace _, none) => none
  | some (m, .replace action, some token) =>
    let (delivery, verdict) :=
      match o.perform action with
      | .ok () => (ReplacementDelivery.delivered, .swallow)
      | .error _ => (.rejectedOriginalForwarded, .pass)
    some (s.withMatcher (m.reportDelivery token delivery).1, verdict)

end MatchingState

/- The sink, and what its next calls will meet. -/
structure MatcherSink where
  matching : MatchingState
  ahead : Nat → Occasion

namespace MatcherSink

/- Configurations are loaded between two calls. -/
def arrive (x : MatcherSink) : MatcherSink where
  matching := x.matching.reload (x.ahead 0).reloads
  ahead := fun n => x.ahead (n + 1)

def onDeviceEvent (x : MatcherSink) (device : DeviceId) (event : KeyEvent)
    (focusedApp : Option String) : Option (MatcherSink × BackendVerdict) :=
  (x.arrive.matching.deliver (x.ahead 0) device event focusedApp).map (fun (matching, verdict) =>
      ({ x.arrive with matching := matching }, verdict))

def onDeviceReset (x : MatcherSink) (device : DeviceId) : MatcherSink :=
  let matching := x.arrive.matching
  { x.arrive with matching := matching.withMatcher (matching.matcher.resetDevice device) }

end MatcherSink

end Daemon.Linux

-----
-- Owners Of Presses

namespace Core.Matcher

/- No replacement waits for its report. -/
structure Settled (m : Matcher) : Prop where
  coherent : m.Coherent
  idle : ∀ p, m.pendingDeliveries.get? p = none

theorem Settled.pendingDeliveries {m : Matcher} (hSettled : m.Settled) :
    m.pendingDeliveries = ∅ := by
  apply Dict.ext_get?
  intro p
  simpa using hSettled.idle p

theorem new_settled (rules : RuleSet) : (new rules).Settled := ⟨new_coherent rules, fun _ => rfl⟩

/-
  What a settled call does to the owners: a release frees its press, and a free press that
  is matched belongs to whom the verdict gives it.
-/
structure Answers (m m' : Matcher) (device : DeviceId) (event : KeyEvent)
    (verdict : Daemon.BackendVerdict) : Prop where
  others : ∀ p, p ≠ (device, event.code) → m'.owner p = m.owner p
  released : event.kind = .keyUp → m'.owner (device, event.code) = .free
  pressed : event.kind = .keyDown → m.owner (device, event.code) = .free →
      m'.owner (device, event.code) = .free ∨ (m'.owner (device, event.code) = .swallowed ∧
          verdict = .swallow) ∨
        (m'.owner (device, event.code) = .forwarded ∧ verdict = .pass)

variable {m m' : Matcher} {device : DeviceId} {event : KeyEvent} {focusedApp : Option String}
variable {now : Instant}

theorem Settled.unissued {verdict : Verdict} {token : Option ReplacementToken}
    {answer : Daemon.BackendVerdict} (hSettled : m.Settled)
    (hDispatch : m.dispatchDeviceWithDelivery device event focusedApp now =
        some (m', verdict, token)) (hNot : verdict.isReplace = false) :
    m'.Settled ∧ m.Answers m' device event answer := by
  have hStep : m.step (.dispatchWithDelivery device event focusedApp now) =
      some (m', .verdict verdict token) := by
    simp only [step, hDispatch]
  obtain rfl : token = none := by
    cases (step_iff hSettled.coherent.active).mp hStep with
    | unissued => rfl
    | issued _ hReplace =>
      rw [hNot] at hReplace
      cases hReplace
  have hHolding (p : Press) : m'.holding p = if p = (device, event.code) then
        (m.holding p).dispatched event.kind verdict none
      else m.holding p :=
    step_holding hSettled.coherent hStep p
  have hOwner (p : Press) : m'.owner p = (m'.holding p).owner := rfl
  refine ⟨⟨step_coherent hSettled.coherent hStep, ?_⟩, ?_⟩
  · intro p
    have hPending := congrArg Holding.pending (hHolding p)
    rw [holding_pending] at hPending
    rw [hPending]
    split_ifs
    · simp [Holding.dispatched, hSettled.idle p]
    · exact hSettled.idle p
  · refine ⟨?_, ?_, ?_⟩
    · intro p hOther
      rw [hOwner, hHolding, if_neg hOther]
      rfl
    · intro hKind
      rw [hOwner, hHolding, if_pos rfl]
      simp [Holding.dispatched, hKind]
    · intro hKind hFree
      refine .inl ?_
      rw [hOwner, hHolding, if_pos rfl]
      simp [Holding.dispatched, hKind, hFree, hNot]

theorem Settled.issued {action : Action} {token : ReplacementToken} {delivery : ReplacementDelivery}
    {answer : Daemon.BackendVerdict} (hSettled : m.Settled)
    (hDispatch : m.dispatchDeviceWithDelivery device event focusedApp now =
        some (m', .replace action, some token))
    (hAnswer : (delivery = .delivered ∧ answer = .swallow) ∨
        (delivery = .rejectedOriginalForwarded ∧ answer = .pass)) :
    (m'.reportDelivery token delivery).1.Settled ∧
      m.Answers (m'.reportDelivery token delivery).1 device event answer := by
  have hStep : m.step (.dispatchWithDelivery device event focusedApp now) =
      some (m', .verdict (.replace action) (some token)) := by
    simp only [step, hDispatch]
  have hHolding (p : Press) : m'.holding p = if p = (device, event.code) then
        (m.holding p).dispatched event.kind (.replace action) (some token)
      else m.holding p :=
    step_holding hSettled.coherent hStep p
  have hPress : token.press = (device, event.code) := by
    cases (step_iff hSettled.coherent.active).mp hStep with
    | issued => rfl
  have hCoherent := step_coherent hSettled.coherent hStep
  have hTaken : (m'.reportDelivery token delivery).2 = true := by
    have hPending := congrArg Holding.pending (hHolding (device, event.code))
    rw [if_pos rfl, holding_pending] at hPending
    rw [reportDelivery_snd, hPress, hPending]
    exact decide_eq_true rfl
  have hReport : m'.step (.report token delivery) = some ((m'.reportDelivery token delivery).1,
      .reported (m'.reportDelivery token delivery).2) :=
    rfl
  have hSettles (p : Press) : (m'.reportDelivery token delivery).1.holding p =
      if p = (device, event.code) then
        ((m.holding p).dispatched event.kind (.replace action) (some token)).settled delivery
      else m.holding p := by
    rw [reportDelivery_holding hCoherent, hTaken, hPress, hHolding]
    by_cases hSame : p = (device, event.code)
    · simp [hSame]
    · simp [hSame]
  have hOwner (p : Press) : (m'.reportDelivery token delivery).1.owner p =
      ((m'.reportDelivery token delivery).1.holding p).owner :=
    rfl
  refine ⟨⟨step_coherent hCoherent hReport, ?_⟩, ?_⟩
  · intro p
    have hPending := congrArg Holding.pending (hSettles p)
    rw [holding_pending] at hPending
    rw [hPending]
    split_ifs
    · rfl
    · exact hSettled.idle p
  · refine ⟨?_, ?_, ?_⟩
    · intro p hOther
      rw [hOwner, hSettles, if_neg hOther]
      rfl
    · intro hKind
      rw [hOwner, hSettles, if_pos rfl]
      simp [Holding.settled, Holding.dispatched, hKind]
    · intro hKind hFree
      rw [hOwner, hSettles, if_pos rfl]
      rcases hAnswer with ⟨rfl, rfl⟩ | ⟨rfl, rfl⟩
      · refine .inr (.inl ⟨?_, rfl⟩)
        simp [Holding.settled, Holding.dispatched, hKind, hFree, Verdict.isReplace]
      · refine .inr (.inr ⟨?_, rfl⟩)
        simp [Holding.settled, Holding.dispatched, hKind, hFree, Verdict.isReplace]

end Core.Matcher

namespace Daemon.Linux

open Core Config Sledge.Linux

namespace MatchingState

variable {s s' : MatchingState} {o : Occasion} {device : DeviceId} {event : KeyEvent}
variable {focusedApp : Option String} {verdict : BackendVerdict}

/- Every call of the sink settles what it starts. -/
theorem deliver_answers (hSettled : s.matcher.Settled)
    (hDeliver : s.deliver o device event focusedApp = some (s', verdict)) :
    s'.matcher.Settled ∧ s.matcher.Answers s'.matcher device event verdict := by
  unfold deliver at hDeliver
  dsimp only at hDeliver
  split at hDeliver
  · cases hDeliver
  · rename_i m token hDispatch
    cases hDeliver
    exact hSettled.unissued hDispatch rfl
  · rename_i m token hDispatch
    cases hDeliver
    exact hSettled.unissued hDispatch rfl
  · cases hDeliver
  · rename_i m action token hDispatch
    split at hDeliver
    · cases hDeliver
      exact hSettled.issued hDispatch (.inl ⟨rfl, rfl⟩)
    · cases hDeliver
      exact hSettled.issued hDispatch (.inr ⟨rfl, rfl⟩)

/- A reload leaves the owners of presses. -/
theorem reload_settled (hSettled : s.matcher.Settled)
    (reloads : List (RuleSet × Dict String AppAlias)) :
    (s.reload reloads).matcher.Settled ∧ ∀ p, (s.reload reloads).matcher.owner p = s.matcher.owner p := by
  induction reloads generalizing s with
  | nil => exact ⟨hSettled, fun _ => rfl⟩
  | cons config rest ih =>
    have hInvalidate : s.matcher.step .invalidateSpeculation =
        some (s.matcher.invalidateSpeculation, .done) :=
      rfl
    have hSwap (m : Matcher) : m.step (.swapRules config.1) = some (m.swapRules config.1, .done) :=
      rfl
    have hNext : (s.replace config.1 config.2).matcher.Settled := ⟨Matcher.step_coherent
        (Matcher.step_coherent hSettled.coherent hInvalidate)
        (hSwap _),
        fun _ => rfl⟩
    rcases ih hNext with ⟨hLast, hOwner⟩
    exact ⟨hLast, fun p => (hOwner p).trans rfl⟩

end MatchingState

namespace MatcherSink

variable {x x' : MatcherSink} {device : DeviceId}

def matcher (x : MatcherSink) : Matcher := x.matching.matcher

theorem onDeviceEvent_answers {event : KeyEvent} {focusedApp : Option String}
    {verdict : BackendVerdict} (hSettled : x.matcher.Settled)
    (hEvent : x.onDeviceEvent device event focusedApp = some (x', verdict)) :
    x'.matcher.Settled ∧ x.matcher.Answers x'.matcher device event verdict := by
  rcases MatchingState.reload_settled hSettled (x.ahead 0).reloads with ⟨hArrived, hOwner⟩
  unfold onDeviceEvent at hEvent
  rw [Option.map_eq_some_iff] at hEvent
  rcases hEvent with ⟨⟨matching, answer⟩, hDeliver, hSame⟩
  cases hSame
  rcases MatchingState.deliver_answers hArrived hDeliver with ⟨hLast, hAnswers⟩
  refine ⟨hLast, ?_, hAnswers.released, ?_⟩
  · intro p hOther
    exact (hAnswers.others p hOther).trans (hOwner p)
  · intro hKind hFree
    exact hAnswers.pressed hKind ((hOwner _).trans hFree)

/- A reset frees the presses of its device. -/
theorem onDeviceReset_settled (hSettled : x.matcher.Settled) :
    (x.onDeviceReset device).matcher.Settled ∧ ∀ p, (x.onDeviceReset device).matcher.owner p =
        if p.1 = device then .free else x.matcher.owner p := by
  rcases MatchingState.reload_settled hSettled (x.ahead 0).reloads with ⟨hArrived, hOwner⟩
  have hHolding (p : Press) : (x.onDeviceReset device).matcher.holding p =
      if p.1 = device then Holding.released
      else x.arrive.matcher.holding p :=
    Matcher.resetDevice_holding _ device p
  have hReset (m : Matcher) : m.step (.resetDevice device) = some (m.resetDevice device, .done) :=
    rfl
  refine ⟨⟨?_, ?_⟩, ?_⟩
  · exact Matcher.step_coherent hArrived.coherent (hReset _)
  · intro p
    have hPending := congrArg Holding.pending (hHolding p)
    rw [Matcher.holding_pending] at hPending
    rw [hPending]
    split_ifs
    · rfl
    · exact hArrived.idle p
  · intro p
    have hFreed := congrArg Holding.owner (hHolding p)
    rw [Matcher.holding_owner] at hFreed
    rw [hFreed]
    split_ifs
    · rfl
    · exact hOwner p

end MatcherSink

end Daemon.Linux

end Sledge
