import Sledge.Daemon.Admission
import Sledge.Linux.TapRelease

/-
  The keys held, when proposals may find the lock taken.

  A proposal that meets a reload is passed without being
  observed, and the next one that gets the lock drops the
  speculation of the matcher.  The keys held are not part of
  that repair: they follow the events exactly as long as no
  edge is missed.

  Main results:
    * `Handler.step_mirrors`
    * `Handler.run_mirrors`
    * `Handler.holds_tracked`
-/

-----
-- Keys Held By The Transactions

namespace Sledge

open Transition

namespace Linux

open Core

namespace MatcherAdapter

/- The same keys are held, and nothing is enabled. -/
structure SameHolds (a b : MatcherAdapter) : Prop where
  downs : b.transactions.physicalDowns = a.transactions.physicalDowns
  enabled : b.transactions.replacementDisabled = false → a.transactions.replacementDisabled = false
  mode : b.modifierTapRelease = a.modifierTapRelease

variable {a b c : MatcherAdapter} {scope : Scope} {event : Event} {body : Body}

namespace SameHolds

theorem refl (a : MatcherAdapter) : SameHolds a a := ⟨rfl, id, rfl⟩

theorem trans (hFirst : SameHolds a b) (hSecond : SameHolds b c) : SameHolds a c :=
  ⟨hSecond.downs.trans hFirst.downs, fun hEnabled => hFirst.enabled (hSecond.enabled hEnabled),
    hSecond.mode.trans hFirst.mode⟩

theorem of_disabled (hDowns : b.transactions.physicalDowns = a.transactions.physicalDowns)
    (hDisabled : b.transactions.replacementDisabled = true)
    (hMode : b.modifierTapRelease = a.modifierTapRelease) : SameHolds a b := by
  refine ⟨hDowns, ?_, hMode⟩
  intro hEnabled
  rw [hDisabled] at hEnabled
  cases hEnabled

end SameHolds

/- Operations that leave the keys held and the mode alone. -/
def Op.carries : Op → Bool
  | .setModifierTapRelease _ => false
  | .propose _ _ _ _ _ => false
  | .reconciled _ _ => false
  | .retireDevice _ => false
  | _ => true

theorem step_holds (op : Op) {out : Out} (hStep : a.step op = some (b, out))
    (hCarries : op.carries = true) : SameHolds a b := by
  cases stepped_of_step hStep with
  | setModifierTapRelease enabled | propose hProposed | reconciled scope hGlobal hNonce
  | retired hGlobal hLost => cases hCarries
  | refused hRefused => exact .refl a
  | settled outcome hState hGlobal hCode | observed op hOp | swapRules rules =>
    exact ⟨rfl, id, rfl⟩
  | distrusted scope event report | armed op nonce hOp | disconnected op hOp =>
    exact .of_disabled rfl rfl rfl
  | reported report settled hPending hScope | invalidateSpeculation =>
    exact ⟨rfl, fun hEnabled => (Bool.or_eq_false_iff.mp hEnabled).1, rfl⟩

theorem invalidateSpeculation_holds (a : MatcherAdapter) : SameHolds a a.invalidateSpeculation :=
  step_holds .invalidateSpeculation rfl rfl

/- A native proof that is accepted, or a keyboard retired. -/
def cleared (a : MatcherAdapter) (scope : Scope) (body : Body) (press : Nat × Nat) : Bool :=
  (a.reconciled scope body).2 || (body.isRetire && scope.generation != 0 &&
      press.1 == scope.generation)

/- What is left of the keys held. -/
structure Clears (a b : MatcherAdapter) (cleared : Nat × Nat → Bool) : Prop where
  downs : ∀ press, press ∈ b.transactions.physicalDowns ↔ press ∈ a.transactions.physicalDowns ∧
          cleared press = false
  mode : b.modifierTapRelease = a.modifierTapRelease
  enabled : b.transactions.replacementDisabled = false →
      a.transactions.replacementDisabled = false ∨ ∀ press, cleared press = true

theorem SameHolds.clears (hSame : SameHolds a b) : Clears a b (fun _ => false) where
  downs := by
    intro press
    rw [hSame.downs]
    simp
  mode := hSame.mode
  enabled := fun hEnabled => .inl (hSame.enabled hEnabled)

theorem renew_clears (a : MatcherAdapter) : Clears a a.renew (fun _ => true) where
  downs := by
    intro press
    simp [renew]
  mode := rfl
  enabled := fun _ => .inr fun _ => rfl

theorem retireDevice_clears (a : MatcherAdapter) (generation : Nat) :
    Clears a (a.retireDevice generation) (fun press =>
        generation != 0 && press.1 == generation) := by
  unfold retireDevice
  split_ifs with hGlobal
  · subst hGlobal
    exact (SameHolds.refl a).clears
  · refine ⟨?_, rfl, ?_⟩
    · intro press
      dsimp only
      rw [Finset.mem_filter]
      simp [hGlobal]
    · intro hEnabled
      simp only [Bool.or_eq_false_iff] at hEnabled
      exact .inl hEnabled.1

theorem Clears.after {cleared : Nat × Nat → Bool} (hSame : SameHolds a b)
    (hClears : Clears b c cleared) : Clears a c cleared where
  downs := by
    intro press
    rw [hClears.downs, hSame.downs]
  mode := hClears.mode.trans hSame.mode
  enabled := fun hEnabled =>
    (hClears.enabled hEnabled).imp_left hSame.enabled

end MatcherAdapter

end Linux

-----
-- Lifecycle Controls

namespace Daemon.Linux

open Core Config Sledge.Linux MatcherAdapter

namespace Handler

variable {a : MatcherAdapter} {scope : Scope} {body : Body}

/- An accepted proof starts over. -/
theorem control_accepted (downOnly : Bool) (hAccepted : (a.reconciled scope body).2 = true) :
    control downOnly scope body a = a.renew := by
  have hBody : body.isReconciliation = true := by
    unfold MatcherAdapter.reconciled at hAccepted
    split_ifs at hAccepted with hRefused
    push Not at hRefused
    exact hRefused.1
  obtain rfl := Body.eq_of_isReconciliation hBody
  rcases a.reconciled_cases scope (.reset 8) with hRefused | ⟨_, hRenewed⟩
  · rw [hRefused] at hAccepted
    cases hAccepted
  · simp [control, Body.isLock, Body.isLifecycleReset, Body.isRetire, hRenewed]

/- Any other control keeps the holds, or retires a keyboard. -/
theorem control_refused (downOnly : Bool) (hRefused : (a.reconciled scope body).2 = false) :
    ∃ c, SameHolds a c ∧ control downOnly scope body a =
          if body.isRetire then c.retireDevice scope.generation
          else c := by
  -- The proof is judged on the adapter the control found.
  have hBoundary : SameHolds a (if body.isLock = true ∧ downOnly = true then
        a.observeLockBoundary scope.nonce
      else a) := by
    split_ifs
    · exact step_holds (.observeLockBoundary scope.nonce) rfl rfl
    · exact .refl a
  unfold control
  dsimp only
  cases hBody : body.isReconciliation with
  | true =>
    obtain rfl := Body.eq_of_isReconciliation hBody
    rcases a.reconciled_cases scope (.reset 8) with hSame | ⟨_, hRenewed⟩
    · refine ⟨_, invalidateSpeculation_holds a, ?_⟩
      simp [Body.isLock, Body.isLifecycleReset, Body.isRetire, hSame]
    · rw [hRenewed] at hRefused
      cases hRefused
  | false =>
    generalize (if body.isLock = true ∧ downOnly = true then
        a.observeLockBoundary scope.nonce
      else a) = b at hBoundary ⊢
    have hArmed : SameHolds b (if body.isLifecycleReset = true then
          (b.awaitLifecycleReconciliation scope body).1
        else b) := by
      split_ifs
      · exact step_holds (.awaitLifecycleReconciliation scope body) rfl rfl
      · exact .refl b
    generalize (if body.isLifecycleReset = true then
        (b.awaitLifecycleReconciliation scope body).1
      else b) = c at hArmed ⊢
    refine ⟨c.invalidateSpeculation, hBoundary.trans (hArmed.trans (invalidateSpeculation_holds c)),
      ?_⟩
    simp [MatcherAdapter.reconciled, hBody]

theorem control_clears (downOnly : Bool) (scope : Scope) (body : Body) (a : MatcherAdapter) :
    Clears a (control downOnly scope body a) (a.cleared scope body) := by
  cases hProof : (a.reconciled scope body).2 with
  | true =>
    have hAll : a.cleared scope body = fun _ => true := by
      funext press
      simp [cleared, hProof]
    rw [control_accepted downOnly hProof, hAll]
    exact renew_clears a
  | false =>
    rcases control_refused downOnly hProof with ⟨c, hSame, hControl⟩
    rw [hControl]
    cases hRetire : body.isRetire with
    | true =>
      have hOwn : a.cleared scope body = fun press =>
            scope.generation != 0 && press.1 == scope.generation := by
        funext press
        simp [cleared, hProof, hRetire]
      rw [hOwn, if_pos rfl]
      exact .after hSame (retireDevice_clears c _)
    | false =>
      have hNone : a.cleared scope body = fun _ => false := by
        funext press
        simp [cleared, hProof, hRetire]
      rw [hNone, if_neg Bool.false_ne_true]
      exact hSame.clears

-----
-- Runs Of The Handler

/- The calls on a handler, and the reloads beside them. -/
inductive Op where
  | propose (circumstances : Circumstances) (scope : Scope) (event : Event)
  | delivery (scope : Scope) (event : Event) (report : DeliveryReport)
  | reset (scope : Scope) (body : Body)
  | unlockedEpoch (scope : Scope) (body : Body)
  | disconnected
  | bind (nonce : Nat)
  | reload (rules : RuleSet) (aliases : Dict String AppAlias)

/- `none` is the panic on exhausted token generations. -/
def step (h : Handler) : Op → Option (Handler × Option Decision)
  | .propose circumstances scope event =>
    ({ h with circumstances := circumstances }.proposeLocked scope event).map (fun (h, decision) =>
        (h, some decision))
  | .delivery scope event report => some (h.delivery scope event report, none)
  | .reset scope body => some (h.reset scope body, none)
  | .unlockedEpoch scope body => some (h.unlockedEpoch scope body, none)
  | .disconnected => some (h.disconnected, none)
  | .bind nonce =>
    some (h.onMatching (fun a =>
          (a.awaitReconciliation nonce).1),
        none)
  | .reload rules aliases => some (Installed.reload h rules aliases, none)

abbrev Entry := Transition.Entry Handler Op (Option Decision)

abbrev adapter (h : Handler) : MatcherAdapter := h.matching.hyprland

/- An event says that the key went down, or up. -/
def edge (state : Nat) (press : Nat × Nat) (e : Entry) : Bool :=
  match e.op with
  | .propose _ scope event => event.state == state && press == (scope.generation, event.key)
  | _ => false

/- A proof or a retirement ends what is known of the key. -/
def forgets (press : Nat × Nat) (e : Entry) : Bool :=
  match e.op with
  | .reset scope body => e.pre.adapter.cleared scope body press
  | .unlockedEpoch scope body =>
    !e.pre.matching.hyprlandDownOnly && e.pre.adapter.cleared scope body press
  | _ => false

/- The latest event of the key since then was a Down. -/
def HeldSince (log : List Entry) (press : Nat × Nat) : Prop :=
  Since (fun _ => True) (fun e => edge 1 press e = true)
    (fun e => edge 0 press e = false ∧ forgets press e = false)
    log

/- The latest event of the key was an Up. -/
def ReleasedLast (log : List Entry) (press : Nat × Nat) : Prop :=
  Since (fun _ => True) (fun e => edge 0 press e = true)
    (fun e => edge 1 press e = false)
    log

/-
  An edge is observed, or it does not matter: replacement is disabled, or the keys held
  show it already.
-/
def heard (e : Entry) : Bool :=
  match e.op with
  | .propose circumstances scope event =>
    let t := e.pre.adapter.transactions
    decide (1 < event.state) || t.replacementDisabled ||
      (circumstances.lockFree && t.pending.isNone) ||
      (decide ((scope.generation, event.key) ∈ t.physicalDowns) == (event.state == 1))
  | _ => true

/- The proposal is put to the matcher. -/
def Dispatched (h : Handler) (scope : Scope) (event : Event) : Prop :=
  h.proposeLocked scope event = ((h.closeGap.adapter.observed scope event).proposeObserved
      scope event (logicalApp h.closeGap.matching event)
      h.circumstances.now h.circumstances.submit).map (fun (b, decision) =>
          (h.closeGap.onMatching (fun _ => b), decision))

/- The handler of an installed session with tap features. -/
def tapHandler (rules : RuleSet) (aliases : Dict String AppAlias) : Handler where
  matching := (MatchingState.new rules aliases).installed tapFeatures
  observationGap := false
  circumstances := ⟨true, 0, fun _ => false⟩

variable {h next : Handler} {op : Op} {out : Option Decision} {event : Event}
variable {log : List Entry} {press : Nat × Nat}

/- An Up after the last Down: the key is not held. -/
theorem ReleasedLast.not_held (hReleased : ReleasedLast log press) : ¬ HeldSince log press := by
  induction log using List.reverseRecOn with
  | nil => exact not_since_nil
  | append_singleton front e ih =>
    intro hHeld
    rcases since_snoc.mp hHeld with ⟨_, hDown⟩ | ⟨hEarlier, hNoUp, _⟩
    · rcases since_snoc.mp hReleased with ⟨_, hUp⟩ | ⟨_, hNoDown⟩
      · rcases e with ⟨pre, op, out⟩
        cases op with
        | propose circumstances scope event =>
          simp only [edge, Bool.and_eq_true, beq_iff_eq] at hDown hUp
          omega
        | _ => cases hDown
      · rw [hDown] at hNoDown
        cases hNoDown
    · rcases since_snoc.mp hReleased with ⟨_, hUp⟩ | ⟨hBefore, _⟩
      · rw [hUp] at hNoUp
        cases hNoUp
      · exact ih hBefore hEarlier

/- A repaired gap changes no key, and opens nothing. -/
theorem closeGap_holds (h : Handler) : SameHolds h.adapter h.closeGap.adapter := by
  unfold closeGap
  split_ifs
  · exact invalidateSpeculation_holds h.adapter
  · exact .refl _

theorem closeGap_open (hOpen : h.adapter.Open) : h.closeGap.adapter.Open := by
  unfold closeGap
  split_ifs
  · refine ⟨rfl, ?_⟩
    simp [onMatching, invalidateSpeculation, hOpen.pending, hOpen.enabled]
  · exact hOpen

theorem closeGap_with (h : Handler) (circumstances : Circumstances) :
    { h with circumstances := circumstances }.closeGap =
      { h.closeGap with circumstances := circumstances } := by
  unfold closeGap
  split_ifs <;> rfl

variable {circumstances : Circumstances}

/- A proposal is missed, or made by the repaired handler. -/
theorem propose_taken (hStep : h.step (.propose circumstances scope event) = some (next, out)) :
    (circumstances.lockFree = false ∧
        next.adapter = h.adapter) ∨
      (circumstances.lockFree = true ∧ ∃ result, h.closeGap.adapter.proposeWithSource scope event
              (logicalApp h.closeGap.matching event)
              circumstances.now circumstances.submit =
            some (next.adapter, result)) := by
  simp only [step, Option.map_eq_some_iff] at hStep
  rcases hStep with ⟨⟨reached, decision⟩, hLocked, hEq⟩
  cases hEq
  unfold proposeLocked at hLocked
  dsimp only at hLocked
  cases hFree : circumstances.lockFree with
  | false =>
    left
    rw [hFree, if_pos Bool.false_ne_true] at hLocked
    cases hLocked
    exact ⟨rfl, rfl⟩
  | true =>
    right
    rw [hFree, if_neg (not_not_intro rfl), closeGap_with] at hLocked
    rcases Option.map_eq_some_iff.mp hLocked with ⟨⟨b, result⟩, hPropose, hEq⟩
    cases hEq
    exact ⟨rfl, result, hPropose⟩

/- The keys held after an edge. -/
def Follows (scope : Scope) (event : Event) (downs downs' : Finset (Nat × Nat)) : Prop :=
  ∀ press, press ∈ downs' ↔ (event.state = 1 ∧ press = (scope.generation, event.key)) ∨
        (press ∈ downs ∧ ¬ (event.state = 0 ∧ press = (scope.generation, event.key)))

/- An edge that the keys held show already. -/
theorem follows_shown {downs : Finset (Nat × Nat)}
    (hShown : (scope.generation, event.key) ∈ downs ↔ event.state = 1) :
    Follows scope event downs downs := by
  intro press
  by_cases hDown : event.state = 1
  · have hMem := hShown.mpr hDown
    constructor
    · intro hHeld
      exact .inr ⟨hHeld, by simp [hDown]⟩
    · rintro (⟨_, rfl⟩ | ⟨hHeld, _⟩)
      · exact hMem
      · exact hHeld
  · have hNot : (scope.generation, event.key) ∉ downs := fun hMem => hDown (hShown.mp hMem)
    constructor
    · intro hHeld
      refine .inr ⟨hHeld, ?_⟩
      rintro ⟨_, rfl⟩
      exact hNot hHeld
    · rintro (⟨hOne, _⟩ | ⟨hHeld, _⟩)
      · exact absurd hOne hDown
      · exact hHeld

theorem follows_repeat (downs : Finset (Nat × Nat)) (hRepeat : 1 < event.state) :
    Follows scope event downs downs := by
  intro press
  have hNotDown : event.state ≠ 1 := by omega
  have hNotUp : event.state ≠ 0 := by omega
  simp [hNotDown, hNotUp]

/- What is heard without being observed changes nothing. -/
theorem follows_of_heard (hHeard : heard ⟨h, .propose circumstances scope event, out⟩ = true)
    (hEnabled : h.adapter.transactions.replacementDisabled = false)
    (hNot : circumstances.lockFree = true → h.adapter.transactions.pending = none → 1 < event.state) :
    Follows scope event h.adapter.transactions.physicalDowns h.adapter.transactions.physicalDowns := by
  by_cases hRepeat : 1 < event.state
  · exact follows_repeat _ hRepeat
  · refine follows_shown ?_
    simp only [heard, hEnabled, hRepeat, decide_false, Bool.false_or, Bool.or_eq_true,
      Bool.and_eq_true, Option.isNone_iff_eq_none, beq_iff_eq] at hHeard
    rcases hHeard with ⟨hFree, hNone⟩ | hShown
    · exact absurd (hNot hFree hNone) hRepeat
    · rw [Bool.eq_iff_iff, decide_eq_true_iff, beq_iff_eq] at hShown
      exact hShown

/- The keys held after a proposal that was heard. -/
theorem propose_follows (hMode : h.adapter.modifierTapRelease = true) (hStep :
      h.step (.propose circumstances scope event) = some (next, out))
    (hHeard : heard ⟨h, .propose circumstances scope event, out⟩ = true)
    (hEnabled :
      next.adapter.transactions.replacementDisabled = false) :
    h.adapter.transactions.replacementDisabled = false ∧
      Follows scope event h.adapter.transactions.physicalDowns
        next.adapter.transactions.physicalDowns := by
  rcases propose_taken hStep with ⟨hBusy, hSame⟩ | ⟨hFree, result, hPropose⟩
  · rw [hSame] at hEnabled ⊢
    refine ⟨hEnabled, follows_of_heard hHeard hEnabled ?_⟩
    intro hFree
    rw [hBusy] at hFree
    cases hFree
  · have hGap := closeGap_holds h
    have hGapMode := hGap.mode.trans hMode
    have hAnswered := answered_of_proposed hGapMode (proposed_of_proposeWithSource hPropose)
    cases hHears : h.closeGap.adapter.hears event with
    | false =>
      have hSame := (unheard_same hHears hAnswered).1
      rw [hSame] at hEnabled ⊢
      have hBefore := hGap.enabled hEnabled
      rw [hGap.downs]
      refine ⟨hBefore, follows_of_heard hHeard hBefore ?_⟩
      intro _ hNone
      by_contra hRepeat
      have hOpen := closeGap_open (h := h) ⟨hNone, hBefore⟩
      rw [hears_of_open hOpen (Nat.not_lt.mp hRepeat)] at hHears
      cases hHears
    | true =>
      have hOpen := hears_open hHears
      have hDowns := (heard_transactions hHears hAnswered).2.2
      rw [observed_downs hGapMode (hears_asked hGapMode hHears), hGap.downs] at hDowns
      refine ⟨hGap.enabled hOpen.enabled, ?_⟩
      intro press
      rw [hDowns]
      have hState := hears_state hHears
      by_cases hDown : event.state = 1
      · rw [if_pos hDown, Finset.mem_insert]
        simp [hDown]
      · have hUp : event.state = 0 := by omega
        rw [if_neg hDown, Finset.mem_erase, and_comm]
        simp [hUp]

theorem reset_clears (h : Handler) (scope : Scope) (body : Body) :
    Clears h.adapter (h.reset scope body).adapter (h.adapter.cleared scope body) := by
  have hControl := (reset_matching (h := h) scope body).1
  unfold adapter
  rw [hControl]
  exact control_clears _ scope body _

theorem reload_holds (h : Handler) (rules : RuleSet) (aliases : Dict String AppAlias) :
    SameHolds h.adapter (Installed.reload h rules aliases).adapter := by
  have hHolds := invalidateSpeculation_holds h.adapter
  exact ⟨hHolds.downs, hHolds.enabled, hHolds.mode⟩

/- Every other call leaves what it does not forget. -/
theorem step_clears (hStep : h.step op = some (next, out))
    (hOther : ∀ circumstances scope event, op ≠ .propose circumstances scope event) :
    Clears h.adapter next.adapter (fun press => forgets press ⟨h, op, out⟩) := by
  cases op with
  | propose circumstances scope event => exact absurd rfl (hOther circumstances scope event)
  | delivery scope event report =>
    cases hStep
    refine SameHolds.clears ?_
    unfold delivery
    split_ifs
    · exact step_holds (.onDelivery scope report) rfl rfl
    · exact step_holds (.settleDeviceEvent scope event report) rfl rfl
  | reset scope body =>
    cases hStep
    exact reset_clears h scope body
  | unlockedEpoch scope body =>
    cases hStep
    unfold unlockedEpoch
    split_ifs with hDownOnly
    · have hNone : (fun press =>
              forgets press ⟨h, .unlockedEpoch scope body, none⟩) =
            fun _ => false := by
        funext press
        simp [forgets, hDownOnly]
      rw [hNone]
      exact (step_holds (.observeUnlockedEpoch scope.nonce) rfl rfl).clears
    · have hSame : (fun press =>
              forgets press ⟨h, .unlockedEpoch scope body, none⟩) =
            h.adapter.cleared scope body := by
        funext press
        simp [forgets, hDownOnly]
      rw [hSame]
      exact reset_clears h scope body
  | disconnected =>
    cases hStep
    exact (step_holds .disconnected rfl rfl).clears
  | bind nonce =>
    cases hStep
    exact (step_holds (.awaitReconciliation nonce) rfl rfl).clears
  | reload rules aliases =>
    cases hStep
    exact (reload_holds h rules aliases).clears

/- The mode is the one the handler started with. -/
theorem step_mode (hStep : h.step op = some (next, out)) :
    next.adapter.modifierTapRelease = h.adapter.modifierTapRelease := by
  by_cases hPropose : ∃ circumstances scope event, op = .propose circumstances scope event
  · rcases hPropose with ⟨circumstances, scope, event, rfl⟩
    rcases propose_taken hStep with ⟨_, hSame⟩ | ⟨_, result, hTaken⟩
    · rw [hSame]
    · exact (propose_tap (proposed_of_proposeWithSource hTaken)).trans (closeGap_holds h).mode
  · push Not at hPropose
    exact (step_clears hStep hPropose).mode

/- The keys held after one call, from those before it. -/
theorem step_downs (hMode : h.adapter.modifierTapRelease = true)
    (hStep : h.step op = some (next, out))
    (hHeard : heard ⟨h, op, out⟩ = true)
    (hEnabled :
      next.adapter.transactions.replacementDisabled = false) :
    (h.adapter.transactions.replacementDisabled = false ∨
        ∀ press, forgets press ⟨h, op, out⟩ = true) ∧
      ∀ press, press ∈ next.adapter.transactions.physicalDowns ↔ edge 1 press ⟨h, op, out⟩ = true ∨
            (press ∈ h.adapter.transactions.physicalDowns ∧ edge 0 press ⟨h, op, out⟩ = false ∧
              forgets press ⟨h, op, out⟩ = false) := by
  by_cases hPropose : ∃ circumstances scope event, op = .propose circumstances scope event
  · rcases hPropose with ⟨circumstances, scope, event, rfl⟩
    rcases propose_follows hMode hStep hHeard hEnabled with ⟨hBefore, hFollows⟩
    refine ⟨.inl hBefore, ?_⟩
    intro press
    rw [hFollows press]
    simp [edge, forgets]
  · push Not at hPropose
    have hClears := step_clears hStep hPropose
    refine ⟨hClears.enabled hEnabled, ?_⟩
    intro press
    have hNoEdge : ∀ state, edge state press ⟨h, op, out⟩ = false := by
      intro state
      cases op with
      | propose circumstances scope event => exact absurd rfl (hPropose circumstances scope event)
      | _ => rfl
    rw [hClears.downs press, hNoEdge 0, hNoEdge 1]
    simp

/- While enabled, the keys held follow the events. -/
structure Mirrors (log : List Entry) (h : Handler) : Prop where
  mode : h.adapter.modifierTapRelease = true
  downs : h.adapter.transactions.replacementDisabled = false → ∀ press,
        press ∈ h.adapter.transactions.physicalDowns ↔ HeldSince log press

theorem tapHandler_mirrors (rules : RuleSet) (aliases : Dict String AppAlias) :
    Mirrors [] (tapHandler rules aliases) where
  mode := rfl
  downs := by
    intro _ press
    refine iff_of_false ?_ not_since_nil
    exact Finset.notMem_empty press

theorem step_mirrors (hMirrors : Mirrors log h) (hStep : h.step op = some (next, out))
    (hHeard : heard ⟨h, op, out⟩ = true) : Mirrors (log ++ [⟨h, op, out⟩]) next where
  mode := (step_mode hStep).trans hMirrors.mode
  downs := by
    intro hEnabled press
    rcases step_downs hMirrors.mode hStep hHeard hEnabled with ⟨hCases, hDowns⟩
    rw [hDowns press, HeldSince, since_snoc, true_and]
    rcases hCases with hBefore | hAll
    · rw [hMirrors.downs hBefore press]
      exact Iff.rfl
    · -- Nothing is left of either side.
      simp [hAll press]

theorem run_mirrors {rules : RuleSet} {aliases : Dict String AppAlias}
    (hRun : Run step (tapHandler rules aliases) log h)
    (hHeard : ∀ e ∈ log, heard e = true) : Mirrors log h := by
  induction hRun with
  | nil => exact tapHandler_mirrors rules aliases
  | snoc _ hLast ih =>
    rcases forall_mem_snoc.mp hHeard with ⟨hFront, hEntry⟩
    exact step_mirrors (ih hFront) hLast hEntry

/- A fresh Down is put to the matcher. -/
theorem dispatched_of_fresh (hMode : h.adapter.modifierTapRelease = true) (hOpen : h.adapter.Open)
    (hFree : h.circumstances.lockFree = true) (hDown : event.state = 1)
    (hFresh : (scope.generation, event.key) ∉ h.adapter.transactions.physicalDowns) :
    h.Dispatched scope event := by
  have hGap := closeGap_holds h
  have hGapMode := hGap.mode.trans hMode
  have hGapOpen := closeGap_open hOpen
  have hChanges : h.closeGap.adapter.changes scope event = true := by
    rw [changes_down hDown, hGap.downs]
    exact hFresh
  unfold Dispatched proposeLocked
  rw [if_neg (not_not_intro hFree)]
  dsimp only
  rw [closeGap_circumstances]
  unfold proposeWithSource
  rw [if_neg (by simp [hGapOpen.pending, hGapOpen.enabled]),
    if_neg (by simp [hDown]),
    if_neg (by
      rintro ⟨_, hSame⟩
      exact hSame hChanges),
    Option.map_map]
  rfl

/-
  As long as every edge is heard, the keys held are those whose latest event was a Down,
  and a Down after an Up is put to the matcher.
-/
theorem holds_tracked {rules : RuleSet} {aliases : Dict String AppAlias}
    (hRun : Run step (tapHandler rules aliases) log h)
    (hHeard : ∀ e ∈ log, heard e = true) (hOpen : h.adapter.Open) :
    (∀ press, press ∈ h.adapter.transactions.physicalDowns ↔ HeldSince log press) ∧
      ∀ circumstances scope event, circumstances.lockFree = true → event.state = 1 →
          ReleasedLast log (scope.generation, event.key) →
          Dispatched { h with circumstances := circumstances } scope event := by
  have hMirrors := run_mirrors hRun hHeard
  have hDowns := hMirrors.downs hOpen.enabled
  refine ⟨hDowns, ?_⟩
  intro circumstances scope event hFree hDown hReleased
  refine dispatched_of_fresh hMirrors.mode hOpen hFree hDown ?_
  intro hMem
  exact hReleased.not_held ((hDowns _).mp hMem)

/- The Up is at this index, and no Down comes after it. -/
theorem releasedLast_of_index (l : Nat) (hUp : (log[l]?).any (edge 0 press) = true)
    (hQuiet : ∀ e ∈ log.drop (l + 1), edge 1 press e = false) : ReleasedLast log press := by
  cases hEntry : log[l]? with
  | none =>
    rw [hEntry] at hUp
    cases hUp
  | some e =>
    rw [hEntry, Option.any_some] at hUp
    exact .of_index hEntry trivial hUp hQuiet

/- Key K of keyboard 1 goes down, and up. -/
def keyKEdge (state : Nat) : Event := ⟨37, state, 0, 0, 3, 0, ""⟩

def proposeKeyK (lockFree : Bool) (state : Nat) : Op :=
  .propose ⟨lockFree, 0, fun _ => false⟩ ⟨1, 0, 2, 0, 5⟩ (keyKEdge state)

/- The connection is bound and the native proof accepted. -/
def reconciledOnce : List Op := [.bind 5, .reset ⟨0, 0, 1, 0, 5⟩ (.reset 8)]

def typedOnce : List Op := reconciledOnce ++ [proposeKeyK true 1, proposeKeyK true 0]

theorem holds_tracked_typedOnce :
    let start := tapHandler (RuleSet.new []) ∅
    let log := entriesOf step start typedOnce
    let h := lastOf step start typedOnce
    h.adapter.Open ∧ (∀ press, press ∈ h.adapter.transactions.physicalDowns ↔ HeldSince log press) ∧
      Dispatched { h with circumstances := ⟨true, 0, fun _ => false⟩ }
        ⟨1, 0, 2, 0, 5⟩ (keyKEdge 1) := by
  intro start log h
  have hRun : Run step start log h := Run.of_isSome (by decide +kernel)
  have hHeard : ∀ e ∈ log, heard e = true := by decide +kernel
  have hOpen : h.adapter.Open := ⟨by decide +kernel, by decide +kernel⟩
  have hReleased : ReleasedLast log (1, 37) := releasedLast_of_index 3 (by decide +kernel)
      (by decide +kernel)
  rcases holds_tracked hRun hHeard hOpen with ⟨hDowns, hDispatched⟩
  exact ⟨hOpen, hDowns, hDispatched _ _ _ rfl rfl hReleased⟩

/- A reload that binds K holds the lock when K goes up. -/
def missedOnce : List Op :=
  reconciledOnce ++ [proposeKeyK true 1, proposeKeyK false 0, .reload Matcher.tapAndKey ∅]

/- K is still held, and its next Down is not dispatched. -/
theorem missed_release :
    let start := tapHandler (RuleSet.new []) ∅
    let log := entriesOf step start missedOnce
    let h := lastOf step start missedOnce
    let free : Handler :=
      { h with circumstances := ⟨true, 0, fun _ => false⟩ }
    Run step start log h ∧ h.adapter.Open ∧
      (1, 37) ∈ h.adapter.transactions.physicalDowns ∧
      ¬ HeldSince log (1, 37) ∧
      ReleasedLast log (1, 37) ∧
      (free.proposeLocked ⟨1, 0, 2, 0, 5⟩ (keyKEdge 1)).map Prod.snd = some .pass ∧
      ¬ free.Dispatched ⟨1, 0, 2, 0, 5⟩ (keyKEdge 1) := by
  intro start log h free
  have hReleased : ReleasedLast log (1, 37) := releasedLast_of_index 3 (by decide +kernel)
      (by decide +kernel)
  have hPass : (free.proposeLocked ⟨1, 0, 2, 0, 5⟩ (keyKEdge 1)).map Prod.snd = some .pass := by
    decide +kernel
  refine
    ⟨Run.of_isSome (by decide +kernel),
      ⟨by decide +kernel, by decide +kernel⟩,
      by decide +kernel, hReleased.not_held, hReleased, hPass,
      ?_⟩
  intro hDispatched
  -- The matcher would have replaced it by T.
  have hReplace : (((free.closeGap.adapter.observed ⟨1, 0, 2, 0, 5⟩
        (keyKEdge 1)).proposeObserved ⟨1, 0, 2, 0, 5⟩
      (keyKEdge 1)
      (logicalApp free.closeGap.matching (keyKEdge 1))
      free.circumstances.now
      free.circumstances.submit).map Prod.snd) =
      some (.replace 20 0) := by
    decide +kernel
  rw [hDispatched, Option.map_map] at hPass
  have hSame := hReplace.symm.trans hPass
  cases hSame

end Handler

end Daemon.Linux

end Sledge
