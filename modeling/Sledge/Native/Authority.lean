import Sledge.Native.Calls

/-
  Who may put a key out.

  A replacement needs the ticket of one of two one-shot
  registers: `pending`, filled by `begin`, or `released`,
  filled from `pending` when a modifier goes up.  The history
  of a run shows that such a ticket was issued by `begin`, was
  never used before, is no settlement ticket, and that the
  epoch has not moved since it was issued.

  Main results:
    * `Router.run_epoch`
    * `Router.run_ledgered`
    * `Router.decision_authority`
-/

-----
-- Histories Of Tickets

namespace Sledge.Native

open Transition

namespace OutputCall

def isReplace : OutputCall → Bool
  | .replace .. => true
  | _ => false

end OutputCall

namespace Router

/- The ticket `begin` handed out in an entry. -/
def begunBy (e : Entry) : Option Ticket :=
  match e.op, e.out.value with
  | .begin .., .ticket ticket => ticket
  | _, _ => none

/- The ticket `settlement` handed out in an entry. -/
def settledBy (e : Entry) : Option Ticket :=
  match e.op, e.out.value with
  | .settlement .., .ticket ticket => ticket
  | _, _ => none

/- The ticket an entry put a key out for. -/
def spentBy (e : Entry) : Option Ticket :=
  if e.out.calls.any OutputCall.isReplace then
    e.op.offers.map Prod.fst
  else none

/- The calls that revoke all outstanding authority. -/
def bumps (r : Router) : Call → Bool
  | .focusChanged => true
  | .revoke _ => true
  | .lock _ => true
  | .unlockConfirmed => true
  | .disconnect => true
  | .retire id _ => r.tracks id
  | .recoverRetiredOutput exactRetirementProof => (r.recoverRetiredOutput exactRetirementProof).2
  | _ => false

/- A ticket of `begin` that has put nothing out. -/
structure Live (trace : List Entry) (t : Ticket) : Prop where
  begun : ∃ before e between, trace = before ++ e :: between ∧ begunBy e = some t
  unsettled : ∀ e ∈ trace, settledBy e ≠ some t
  unspent : ∀ e ∈ trace, spentBy e ≠ some t

/- What a history says about the registers of its router. -/
structure Ledgered (trace : List Entry) (r : Router) : Prop where
  numbered : ∀ e ∈ trace, ∀ t, begunBy e = some t ∨ settledBy e = some t ∨ spentBy e = some t →
      t.sequence ≤ r.sequence
  pending : ∀ t, r.pending = some t → Live trace t
  released : ∀ t, r.released = some t → Live trace t
  apart : ∀ t, r.pending = some t → r.released ≠ some t

variable {trace : List Entry} {t : Ticket} {e : Entry} {r after : Router}

theorem Live.snoc (hLive : Live trace t) (hSettled : settledBy e ≠ some t)
    (hSpent : spentBy e ≠ some t) : Live (trace ++ [e]) t := by
  rcases hLive.begun with ⟨before, b, between, rfl, hBegun⟩
  refine ⟨⟨before, b, between ++ [e], by simp, hBegun⟩, ?_, ?_⟩
  · exact forall_mem_snoc.mpr ⟨hLive.unsettled, hSettled⟩
  · exact forall_mem_snoc.mpr ⟨hLive.unspent, hSpent⟩

theorem Ledgered.live_le (hLedgered : Ledgered trace r) (hLive : Live trace t) :
    t.sequence ≤ r.sequence := by
  rcases hLive.begun with ⟨before, e, between, rfl, hBegun⟩
  exact hLedgered.numbered e (by simp) t (.inl hBegun)

-----
-- Registers And Counters

theorem beginReject_of_pending {pending : Ticket} (hPending : r.pending = some pending)
    (event : Event) (now budgetNs : Nat) (releaseAction : Bool) :
    r.beginReject event now budgetNs releaseAction ≠ .none := by
  simp only [beginReject, hPending, Option.isSome_some, if_true]
  split <;> simp

theorem begin_cases (r : Router) (event : Event) (now budgetNs : Nat) (releaseAction : Bool) :
    let result := r.begin event now budgetNs releaseAction
    (result.2 = none ∧ ∃ reject, result.1 = { r with lastBeginReject := reject }) ∨ ∃ reject,
        r.pending = none ∧
        result.2 = some (r.nextTicket event now budgetNs) ∧
        result.1 =
          { r with
            lastBeginReject := reject
            sequence := r.sequence + 1
            pending := some (r.nextTicket event now budgetNs) } := by
  unfold begin
  simp only
  split
  · exact .inl ⟨rfl, _, rfl⟩
  · rename_i hAccepted
    refine .inr ⟨_, ?_, rfl, rfl⟩
    cases hPending : r.pending with
    | none => rfl
    | some pending =>
      exact absurd (beginReject_of_pending hPending event now budgetNs releaseAction) hAccepted

theorem settlement_cases (r : Router) (event : Event) (now budgetNs : Nat) :
    let result := r.settlement event now budgetNs
    result = (r, none) ∨ result = ({ r with sequence := r.sequence + 1 },
          some (r.nextTicket event now budgetNs)) := by
  unfold settlement
  split
  · exact .inl rfl
  · exact .inr rfl

/- How a call that issues nothing moves the registers. -/
structure Registers (r after : Router) : Prop where
  sequence : after.sequence = r.sequence
  pending : after.pending = none ∨ after.pending = r.pending
  released : after.released = none ∨ after.released = r.released ∨
      (after.released = r.pending ∧ after.pending = none)

theorem Registers.of_eq (hSequence : after.sequence = r.sequence)
    (hPending : after.pending = none ∨ after.pending = r.pending)
    (hReleased : after.released = r.released) : Registers r after where
  sequence := hSequence
  pending := hPending
  released := .inr (.inl hReleased)

theorem admitted_eq {event : Event} {ticket : Option Ticket}
    (hAdmitted : r.admitted event ticket = true) : ticket = r.pending := by
  unfold admitted at hAdmitted
  split at hAdmitted
  · rename_i pending t hPending
    rw [hPending]
    simp only [decide_eq_true_eq] at hAdmitted
    rw [hAdmitted.1]
  · simp at hAdmitted

theorem routeOwned_registers (r : Router) (event : Event) (key : Key) (ticket : Option Ticket) :
    Registers r (r.routeOwned event key ticket).router := by
  unfold routeOwned
  simp only
  by_cases hUp : event.state = .up
  · simp only [hUp, if_true]
    refine ⟨rfl, .inl rfl, ?_⟩
    split
    · rename_i hAction
      exact .inr (.inr ⟨admitted_eq hAction.2.2.2, rfl⟩)
    · exact .inl rfl
  · simp only [hUp, if_false]
    exact .of_eq rfl (.inr rfl) rfl

/- Routing spends the pending ticket when it puts a key out. -/
theorem route_registers (r : Router) (event : Event) (ticket : Option Ticket)
    (reply : Option Decision) (now : Nat) (output : Output) :
    let e := r.route event ticket reply now output
    Registers r e.router ∧ (e.calls = [] ∨ e.router.pending = none ∧
          e.router.released = r.released) ∧
      e.router.epoch = r.epoch ∧
      (r.fatal = true → e.router.fatal = true) := by
  have hStay : Registers r r := Registers.of_eq rfl (.inr rfl) rfl
  rcases r.route_cases event ticket reply now output with ⟨key, _, _, hRoute⟩ | ⟨_, hRoute⟩
  · rw [hRoute]
    split
    · refine ⟨r.routeOwned_registers event key ticket, .inl rfl, ?_⟩
      unfold routeOwned
      simp only
      split <;> exact ⟨rfl, id⟩
    · split
      · exact ⟨hStay, .inl rfl, rfl, id⟩
      · split
        · exact ⟨.of_eq rfl (.inr rfl) rfl, .inl rfl, rfl, id⟩
        · refine ⟨.of_eq rfl (.inl rfl) rfl, .inr ⟨rfl, rfl⟩, rfl, ?_⟩
          intro hFatal
          rcases r.decideDown_cases event ticket reply now output with
            ⟨_, hSame⟩ | ⟨_, _, _, _, _, _, _, hKept⟩
          · exact hSame.trans hFatal
          · exact hKept hFatal
  · rw [hRoute]
    exact ⟨hStay, .inl rfl, rfl, id⟩

theorem originalOutcome_registers (r : Router) (event : Event) (proposal : RouteResult)
    (stockAdmitted : Bool) : let after :=
      (r.originalOutcome event proposal stockAdmitted).1
    Registers r after ∧ after.epoch = r.epoch ∧ after.fatal = r.fatal := by
  rcases r.originalOutcome_cases event proposal stockAdmitted with
    ⟨_, _, _, _, _, _, _, hResult⟩ | ⟨hResult, _⟩
  · rw [hResult]
    exact ⟨.of_eq rfl (.inr rfl) rfl, rfl, rfl⟩
  · rw [hResult]
    exact ⟨.of_eq rfl (.inr rfl) rfl, rfl, rfl⟩

/- A finished release spends the released ticket. -/
theorem finishRelease_registers (r : Router) (t : Ticket) (reply : Option Decision)
    (deliveredOriginal : Bool) (now : Nat) (output : Output) (original : Outcome) : let after :=
      (r.finishRelease t reply deliveredOriginal now output original).router
    Registers r after ∧ after.pending = r.pending ∧ after.released = none ∧ after.epoch = r.epoch ∧
      (r.fatal = true → after.fatal = true) := by
  rcases r.finishRelease_cases t reply deliveredOriginal now output original with
    ⟨_, hAfter⟩ | ⟨d, fatal, _, _, hAuthorised, _, hAfter⟩
  · rw [hAfter]
    exact ⟨⟨rfl, .inr rfl, .inl rfl⟩, rfl, rfl, rfl, id⟩
  · rw [hAfter]
    refine ⟨⟨rfl, .inr rfl, .inl rfl⟩, rfl, rfl, rfl, ?_⟩
    intro hFatal
    rw [hAuthorised.sound] at hFatal
    simp at hFatal

/- The calls that hand out a ticket. -/
def Call.issues : Call → Bool
  | .begin .. => true
  | .settlement .. => true
  | _ => false

variable {call : Call}

theorem perform_registers (r : Router) (hIssues : call.issues = false) :
    Registers r (r.perform call).1 := by
  cases call with
  | add id =>
    simp only [perform, add]
    split
    · exact .of_eq rfl (.inr rfl) rfl
    · exact .of_eq rfl (.inr rfl) rfl
  | begin event now budgetNs releaseAction | settlement event now budgetNs =>
    simp [Call.issues] at hIssues
  | route event ticket reply now output => exact (r.route_registers event ticket reply now output).1
  | finishRelease t reply deliveredOriginal now output original =>
      exact (r.finishRelease_registers t reply deliveredOriginal now output original).1
  | originalOutcome event proposal stockAdmitted =>
    exact (r.originalOutcome_registers event proposal stockAdmitted).1
  | focusChanged | revoke output | lock output | disconnect =>
    exact .of_eq rfl (.inl rfl) rfl
  | unlockConfirmed => exact .of_eq rfl (.inr rfl) rfl
  | retire id output =>
    simp only [perform, retire]
    split
    · exact .of_eq rfl (.inr rfl) rfl
    · exact .of_eq rfl (.inl rfl) rfl
  | recoverRetiredOutput exactRetirementProof =>
    simp only [perform, recoverRetiredOutput]
    split
    · exact .of_eq rfl (.inr rfl) rfl
    · exact .of_eq rfl (.inr rfl) rfl

/- The epoch moves exactly when authority is revoked. -/
theorem perform_epoch (r : Router) (call : Call) :
    (r.perform call).1.epoch = if r.bumps call then increment r.epoch else r.epoch := by
  cases call with
  | add id =>
    simp only [perform, add]
    split <;> rfl
  | begin event now budgetNs releaseAction =>
    rcases r.begin_cases event now budgetNs releaseAction with ⟨_, _, hAfter⟩ | ⟨_, _, _, hAfter⟩
    · simp [perform, hAfter, bumps]
    · simp [perform, hAfter, bumps]
  | settlement event now budgetNs =>
    rcases r.settlement_cases event now budgetNs with hAfter | hAfter
    · simp [perform, hAfter, bumps]
    · simp [perform, hAfter, bumps]
  | route event ticket reply now output =>
    exact (r.route_registers event ticket reply now output).2.2.1
  | finishRelease t reply deliveredOriginal now output original =>
      exact (r.finishRelease_registers t reply deliveredOriginal now output original).2.2.2.1
  | originalOutcome event proposal stockAdmitted =>
    exact (r.originalOutcome_registers event proposal stockAdmitted).2.1
  | focusChanged | revoke output | lock output | unlockConfirmed | disconnect => rfl
  | retire id output =>
    cases hTracks : r.tracks id
    all_goals simp [perform, retire, bumps, hTracks]
  | recoverRetiredOutput exactRetirementProof =>
    simp only [perform, bumps, recoverRetiredOutput]
    split <;> rfl

/- Every call but a recovery keeps the fault. -/
theorem perform_fatal_of_ne (hCall : ∀ proof, call ≠ .recoverRetiredOutput proof)
    (hFatal : r.fatal = true) : (r.perform call).1.fatal = true := by
  cases call with
  | add id =>
    simp only [perform, add]
    split <;> exact hFatal
  | begin event now budgetNs releaseAction =>
    rcases r.begin_cases event now budgetNs releaseAction with ⟨_, _, hAfter⟩ | ⟨_, _, _, hAfter⟩
    · simp [perform, hAfter, hFatal]
    · simp [perform, hAfter, hFatal]
  | settlement event now budgetNs =>
    rcases r.settlement_cases event now budgetNs with hAfter | hAfter
    · simp [perform, hAfter, hFatal]
    · simp [perform, hAfter, hFatal]
  | route event ticket reply now output =>
    exact (r.route_registers event ticket reply now output).2.2.2 hFatal
  | finishRelease t reply deliveredOriginal now output original =>
      exact (r.finishRelease_registers t reply deliveredOriginal now output original).2.2.2.2 hFatal
  | originalOutcome event proposal stockAdmitted =>
    exact (r.originalOutcome_registers event proposal stockAdmitted).2.2.trans hFatal
  | focusChanged | unlockConfirmed | disconnect => exact hFatal
  | revoke output => simp [perform, revoke, hFatal]
  | lock output => simp [perform, lock, revoke, hFatal]
  | retire id output =>
    simp only [perform, retire]
    split
    · exact hFatal
    · simp [hFatal]
  | recoverRetiredOutput proof => exact absurd rfl (hCall proof)

/- Only a proved retirement of the output clears the fault. -/
theorem perform_fatal_cleared (hFatal : r.fatal = true)
    (hCleared : (r.perform call).1.fatal = false) :
    call = .recoverRetiredOutput true ∧ r.locked = false ∧ r.ownershipEmpty = true := by
  by_cases hCall : ∀ proof, call ≠ .recoverRetiredOutput proof
  · rw [perform_fatal_of_ne hCall hFatal] at hCleared
    simp at hCleared
  · push Not at hCall
    rcases hCall with ⟨proof, rfl⟩
    simp only [perform, recoverRetiredOutput] at hCleared
    split at hCleared
    · rw [hFatal] at hCleared
      simp at hCleared
    · rename_i hGuard
      simp only [Bool.or_eq_true, Bool.not_eq_true', not_or,
        Bool.not_eq_true, Bool.not_eq_false] at hGuard
      rcases hGuard with ⟨⟨⟨_, hProof⟩, hEmpty⟩, hUnlocked⟩
      exact ⟨by rw [hProof], hUnlocked, hEmpty⟩

-----
-- Histories Of Runs

/- The epoch counts the revocations of a run. -/
theorem run_epoch (hRun : Run step init trace r) :
    r.epoch = (1 + trace.countP (fun e => e.pre.bumps e.op)) % 2 ^ 64 := by
  induction hRun with
  | nil => rfl
  | @snoc front last next call answer _ hStep ih =>
    rcases step_eq_some hStep with ⟨rfl, rfl⟩
    rw [last.perform_epoch call, List.countP_append, List.countP_singleton]
    split
    · rw [ih, increment]
      omega
    · rw [ih]
      rfl

/- The entry a call adds to its history. -/
def entryOf (r : Router) (call : Call) : Entry := ⟨r, call, (r.perform call).2⟩

theorem spentBy_entryOf (hSpent : spentBy (r.entryOf call) = some t) :
    ∃ d now, call.offers = some (t, d, now) ∧ call.register r = some t ∧ r.Authorises t d now ∧
      (r.perform call).2.calls = [r.replacement d] := by
  unfold spentBy entryOf at hSpent
  split at hSpent
  · rename_i hReplace
    rcases List.any_eq_true.mp hReplace with ⟨output, hMem, hOutput⟩
    cases output with
    | replace key requested restore =>
      rcases perform_replace hMem with ⟨t', d, now, hOffers, hRest⟩
      simp only [hOffers, Option.map_some, Option.some.injEq] at hSpent
      subst hSpent
      exact ⟨d, now, hOffers, hRest⟩
    | release key | reconcileModifiers sides => simp [OutputCall.isReplace] at hOutput
  · simp at hSpent

/- A spent ticket leaves the register it came from. -/
theorem spent_registers (hSpent : spentBy (r.entryOf call) = some t) :
    (r.pending = some t ∧ (r.perform call).1.pending = none ∧
        (r.perform call).1.released = r.released) ∨
      (r.released = some t ∧ (r.perform call).1.released = none ∧
        (r.perform call).1.pending = r.pending) := by
  rcases spentBy_entryOf hSpent with ⟨d, now, hOffers, hRegister, _, hCalls⟩
  cases call with
  | route event ticket reply now' output =>
    refine .inl ⟨hRegister, ?_⟩
    rcases (r.route_registers event ticket reply now' output).2.1 with hNone | hAfter
    · have hEmpty := hNone.symm.trans hCalls
      simp at hEmpty
    · exact hAfter
  | finishRelease t' reply deliveredOriginal now' output original =>
      have hAfter := r.finishRelease_registers t' reply deliveredOriginal now' output original
      exact .inr ⟨hRegister, hAfter.2.2.1, hAfter.2.1⟩
  | _ => simp [Call.offers] at hOffers

theorem Ledgered.spent_le (hLedgered : Ledgered trace r)
    (hSpent : spentBy (r.entryOf call) = some t) : t.sequence ≤ r.sequence := by
  rcases spent_registers hSpent with ⟨hPending, _⟩ | ⟨hReleased, _⟩
  · exact hLedgered.live_le (hLedgered.pending t hPending)
  · exact hLedgered.live_le (hLedgered.released t hReleased)

/- A call that issues nothing keeps the history in order. -/
theorem Ledgered.of_not_issues (hLedgered : Ledgered trace r) (hIssues : call.issues = false) :
    Ledgered (trace ++ [r.entryOf call]) (r.perform call).1 := by
  have hRegisters := r.perform_registers hIssues
  have hBegun : begunBy (r.entryOf call) = none := by
    cases call with
    | begin => simp [Call.issues] at hIssues
    | _ => rfl
  have hSettled : settledBy (r.entryOf call) = none := by
    cases call with
    | settlement => simp [Call.issues] at hIssues
    | _ => rfl
  have hSnoc : ∀ t, Live trace t → spentBy (r.entryOf call) ≠ some t →
      Live (trace ++ [r.entryOf call]) t := by
    intro t hLive hSpent
    exact hLive.snoc (by simp [hSettled]) hSpent
  have hPending : ∀ t, (r.perform call).1.pending = some t → r.pending = some t := by
    intro t hAfter
    rcases hRegisters.pending with hNone | hSame
    · rw [hNone] at hAfter
      simp at hAfter
    · rw [← hSame, hAfter]
  refine ⟨?_, ?_, ?_, ?_⟩
  · rw [hRegisters.sequence]
    refine forall_mem_snoc.mpr ⟨hLedgered.numbered, ?_⟩
    intro t hTicket
    rw [hBegun, hSettled] at hTicket
    simp only [reduceCtorEq, false_or] at hTicket
    exact hLedgered.spent_le hTicket
  · intro t hAfter
    have hBefore := hPending t hAfter
    apply hSnoc t (hLedgered.pending t hBefore)
    intro hSpent
    rcases spent_registers hSpent with ⟨_, hNone, _⟩ | ⟨hReleased, _⟩
    · rw [hNone] at hAfter
      simp at hAfter
    · exact hLedgered.apart t hBefore hReleased
  · intro t hAfter
    rcases hRegisters.released with hNone | hSame | ⟨hMoved, _⟩
    · rw [hNone] at hAfter
      simp at hAfter
    · have hBefore : r.released = some t := by
        rw [← hSame, hAfter]
      apply hSnoc t (hLedgered.released t hBefore)
      intro hSpent
      rcases spent_registers hSpent with ⟨hHeld, _⟩ | ⟨_, hNone, _⟩
      · exact hLedgered.apart t hHeld hBefore
      · rw [hNone] at hAfter
        simp at hAfter
    · have hBefore : r.pending = some t := by
        rw [← hMoved, hAfter]
      apply hSnoc t (hLedgered.pending t hBefore)
      intro hSpent
      rcases spent_registers hSpent with ⟨_, _, hSame⟩ | ⟨_, hNone, _⟩
      · rw [hSame] at hAfter
        exact hLedgered.apart t hBefore hAfter
      · rw [hNone] at hAfter
        simp at hAfter
  · intro t hAfter hReleased
    have hBefore := hPending t hAfter
    rcases hRegisters.released with hNone | hSame | ⟨_, hNone⟩
    · rw [hNone] at hReleased
      simp at hReleased
    · rw [hSame] at hReleased
      exact hLedgered.apart t hBefore hReleased
    · rw [hNone] at hAfter
      simp at hAfter

/- A quiet entry that spends nothing keeps tickets live. -/
theorem Ledgered.of_quiet (hLedgered : Ledgered trace r) (hPending : after.pending = r.pending)
    (hReleased : after.released = r.released) (hSequence : r.sequence ≤ after.sequence)
    (hBegun : begunBy e = none) (hSpent : spentBy e = none)
    (hSettled : ∀ t, settledBy e = some t → t.sequence = r.sequence + 1 ∧
          after.sequence = r.sequence + 1) : Ledgered (trace ++ [e]) after := by
  have hSnoc : ∀ t, Live trace t → Live (trace ++ [e]) t := by
    intro t hLive
    refine hLive.snoc ?_ (by simp [hSpent])
    intro hSame
    have hOld := hLedgered.live_le hLive
    have hNew := (hSettled t hSame).1
    omega
  refine ⟨?_, ?_, ?_, ?_⟩
  · refine forall_mem_snoc.mpr ⟨?_, ?_⟩
    · intro e' hOld t hTicket
      exact (hLedgered.numbered e' hOld t hTicket).trans hSequence
    · intro t hTicket
      rw [hBegun, hSpent] at hTicket
      simp only [reduceCtorEq, false_or, or_false] at hTicket
      have hNew := hSettled t hTicket
      omega
  · intro t hAfter
    rw [hPending] at hAfter
    exact hSnoc t (hLedgered.pending t hAfter)
  · intro t hAfter
    rw [hReleased] at hAfter
    exact hSnoc t (hLedgered.released t hAfter)
  · rw [hPending, hReleased]
    exact hLedgered.apart

/- A new ticket is numbered past every earlier one. -/
theorem Ledgered.of_begun (hLedgered : Ledgered trace r) (hPending : after.pending = some t)
    (hReleased : after.released = r.released) (hSequence : after.sequence = r.sequence + 1)
    (hNumber : t.sequence = r.sequence + 1) (hBegun : begunBy e = some t)
    (hSpent : spentBy e = none) (hSettled : settledBy e = none) :
    Ledgered (trace ++ [e]) after := by
  have hFresh : Live (trace ++ [e]) t := by
    refine ⟨⟨trace, e, [], rfl, hBegun⟩, ?_, ?_⟩
    · refine forall_mem_snoc.mpr ⟨?_, by simp [hSettled]⟩
      intro e' hOld hSame
      have hLe := hLedgered.numbered e' hOld t (.inr (.inl hSame))
      omega
    · refine forall_mem_snoc.mpr ⟨?_, by simp [hSpent]⟩
      intro e' hOld hSame
      have hLe := hLedgered.numbered e' hOld t (.inr (.inr hSame))
      omega
  refine ⟨?_, ?_, ?_, ?_⟩
  · refine forall_mem_snoc.mpr ⟨?_, ?_⟩
    · intro e' hOld t' hTicket
      have hLe := hLedgered.numbered e' hOld t' hTicket
      omega
    · intro t' hTicket
      rw [hBegun, hSettled, hSpent] at hTicket
      simp only [Option.some.injEq, reduceCtorEq, or_false] at hTicket
      rw [← hTicket]
      omega
  · intro t' hAfter
    rw [hPending, Option.some.injEq] at hAfter
    rw [← hAfter]
    exact hFresh
  · intro t' hAfter
    rw [hReleased] at hAfter
    exact (hLedgered.released t' hAfter).snoc (by simp [hSettled]) (by simp [hSpent])
  · intro t' hAfter hSame
    rw [hPending, Option.some.injEq] at hAfter
    rw [hReleased, ← hAfter] at hSame
    have hLe := hLedgered.live_le (hLedgered.released t hSame)
    omega

theorem Ledgered.perform (hLedgered : Ledgered trace r) (call : Call) :
    Ledgered (trace ++ [r.entryOf call]) (r.perform call).1 := by
  cases call with
  | begin event now budgetNs releaseAction =>
    rcases r.begin_cases event now budgetNs releaseAction with
      ⟨hNone, _, hAfter⟩ | ⟨_, _, hSome, hAfter⟩
    · apply hLedgered.of_quiet
      · simp [Router.perform, hAfter]
      · simp [Router.perform, hAfter]
      · simp [Router.perform, hAfter]
      · exact hNone
      · rfl
      · intro t hSettled
        simp [settledBy, entryOf] at hSettled
    · apply hLedgered.of_begun
      · simp only [Router.perform, hAfter]
        rfl
      · simp [Router.perform, hAfter]
      · simp [Router.perform, hAfter]
      · rfl
      · exact hSome
      · rfl
      · rfl
  | settlement event now budgetNs =>
    rcases r.settlement_cases event now budgetNs with hResult | hResult
    · apply hLedgered.of_quiet
      · simp [Router.perform, hResult]
      · simp [Router.perform, hResult]
      · simp [Router.perform, hResult]
      · rfl
      · rfl
      · intro t hSettled
        simp [settledBy, entryOf, Router.perform, hResult] at hSettled
    · apply hLedgered.of_quiet
      · simp [Router.perform, hResult]
      · simp [Router.perform, hResult]
      · simp [Router.perform, hResult]
      · rfl
      · rfl
      · intro t hSettled
        simp only [settledBy, entryOf, Router.perform, hResult, Option.some.injEq] at hSettled
        subst hSettled
        simp [Router.perform, hResult, nextTicket]
  | _ => exact hLedgered.of_not_issues rfl

/- The registers of every run match its history. -/
theorem run_ledgered (hRun : Run step init trace r) : Ledgered trace r := by
  induction hRun with
  | nil =>
    refine ⟨?_, ?_, ?_, ?_⟩
    · intro e hMem
      simp at hMem
    · intro t hPending
      simp [init] at hPending
    · intro t hReleased
      simp [init] at hReleased
    · intro t hPending
      simp [init] at hPending
  | @snoc front last next call answer _ hStep ih =>
    rcases step_eq_some hStep with ⟨rfl, rfl⟩
    exact ih.perform call

-----
-- Decision Authority

/- A ticket carries the epoch in which it was begun. -/
theorem begun_epoch {before between : List Entry}
    (hRun : Run step init (before ++ e :: between) r) (hBegun : begunBy e = some t) :
    t.epoch = (1 + before.countP (fun e => e.pre.bumps e.op)) % 2 ^ 64 ∧ e.pre.bumps e.op = false := by
  rcases hRun.split with ⟨mid, hFront, hBack⟩
  rcases hBack.cons_inv with ⟨hPre, next, hStep, _⟩
  rw [← run_epoch hFront]
  rcases e with ⟨pre, call, answer⟩
  simp only at hPre hStep ⊢
  subst hPre
  rcases step_eq_some hStep with ⟨_, rfl⟩
  cases call with
  | begin event now budgetNs releaseAction =>
    refine ⟨?_, rfl⟩
    rcases pre.begin_cases event now budgetNs releaseAction with ⟨hNone, _⟩ | ⟨_, _, hSome, _⟩
    · simp [begunBy, perform, hNone] at hBegun
    · simp only [begunBy, perform, hSome, Option.some.injEq] at hBegun
      rw [← hBegun]
      rfl
  | _ => simp [begunBy] at hBegun

/- No revocation lies between a ticket and its use. -/
theorem begun_since (hRun : Run step init trace r)
    (hBounded : trace.countP (fun e => e.pre.bumps e.op) < 2 ^ 64) (hLive : Live trace t)
    (hEpoch : t.epoch = r.epoch) :
    ∃ before e between, trace = before ++ e :: between ∧ begunBy e = some t ∧
      ∀ e' ∈ between, e'.pre.bumps e'.op = false := by
  rcases hLive.begun with ⟨before, e, between, rfl, hBegun⟩
  refine ⟨before, e, between, rfl, hBegun, ?_⟩
  rcases begun_epoch hRun hBegun with ⟨hStamp, hKeeps⟩
  have hNow := run_epoch hRun
  rw [List.countP_append, List.countP_cons, hKeeps] at hNow
  rw [List.countP_append, List.countP_cons, hKeeps] at hBounded
  simp only [Bool.false_eq_true, if_false, Nat.add_zero] at hNow hBounded
  have hNone : between.countP (fun e => e.pre.bumps e.op) = 0 := by omega
  intro e' hMem
  have hZero := List.countP_eq_zero.mp hNone e' hMem
  simpa using hZero

/-
  Decision authority.  Every replacement is put out once, for a ticket of `begin` that was
  never used, with the reply to that ticket, in time, and with nothing revoked since; its
  target is held by nobody.  A fault is cleared only by a proved retirement of the output.
-/
theorem decision_authority :
    (∀ (trace : List Entry) (r : Router) (call : Call) (key : Nat) (requested restore : Mask),
      Run step init trace r →
      trace.countP (fun e => e.pre.bumps e.op) < 2 ^ 64 →
      .replace key requested restore ∈ (r.perform call).2.calls →
      ∃ t d now, call.offers = some (t, d, now) ∧ (∃ before e between,
          trace = before ++ e :: between ∧
          begunBy e = some t ∧
          ∀ e' ∈ between, e'.pre.bumps e'.op = false) ∧
        (∀ e ∈ trace, spentBy e ≠ some t) ∧
        (r.perform call).2.calls = [.replace key requested restore] ∧
        (∀ e ∈ trace, settledBy e ≠ some t) ∧
        d.ticket = t ∧ now < t.deadline ∧
        r.locked = false ∧ r.fatal = false ∧
        key < keyCount ∧ key ≠ t.key ∧
        ∀ id (held : Key), held.val = key → r.owner id held = .none) ∧
    ∀ (r : Router) (call : Call), r.fatal = true → (r.perform call).1.fatal = false →
      call = .recoverRetiredOutput true ∧ r.locked = false ∧ r.pending = none ∧
        ∀ id key, r.owner id key = .none := by
  refine ⟨?_, ?_⟩
  · intro trace r call key requested restore hRun hBounded hCall
    have hLedgered := run_ledgered hRun
    rcases perform_replace hCall with ⟨t, d, now, hOffers, hRegister, hAuthorised, hCalls⟩
    have hLive : Live trace t := by
      cases call with
      | route => exact hLedgered.pending t hRegister
      | finishRelease => exact hLedgered.released t hRegister
      | _ => simp [Call.offers] at hOffers
    rw [hCalls, List.mem_singleton] at hCall
    have hKey : key = d.key := by
      simp only [replacement, OutputCall.replace.injEq] at hCall
      exact hCall.1
    have hFree := preflight_free hAuthorised.free
    rw [← hKey] at hFree
    exact ⟨t, d, now, hOffers, begun_since hRun hBounded hLive hAuthorised.epoch,
      hLive.unspent, by rw [hCalls, hCall],
      hLive.unsettled, hAuthorised.answered,
      hAuthorised.timely, hAuthorised.unlocked,
      hAuthorised.sound, hFree⟩
  · intro r call hFatal hCleared
    rcases perform_fatal_cleared hFatal hCleared with ⟨hCall, hUnlocked, hEmpty⟩
    simp only [ownershipEmpty, Bool.and_eq_true, Option.isNone_iff_eq_none] at hEmpty
    exact ⟨hCall, hUnlocked, hEmpty.2, r.devices.unowned_iff.mp hEmpty.1⟩

/- A keyboard asks about a press and is told to replace it. -/
def askedPress : List Call := [.add 1, .unlockConfirmed, .begin ⟨1, 30, .down, true⟩ 0 10 false]

def askedTicket : Ticket where
  device := 1
  epoch := 2
  focus := 2
  sequence := 1
  deadline := 10
  key := 30

def askedReply : Decision where
  ticket := askedTicket
  verdict := .replace
  key := 31

theorem decision_authority_askedPress :
    let r := lastOf step init askedPress
    let trace := entriesOf step init askedPress
    let call : Call :=
      .route ⟨1, 30, .down, true⟩ (some askedTicket) (some askedReply) 0 .compliant
    (r.perform call).2.calls = [.replace 31 0 0] ∧ ∃ before e between,
        trace = before ++ e :: between ∧
        begunBy e = some askedTicket ∧
        ∀ e' ∈ between, e'.pre.bumps e'.op = false := by
  intro r trace call
  have hCalls : (r.perform call).2.calls = [.replace 31 0 0] := by decide +kernel
  refine ⟨hCalls, ?_⟩
  have hRun : Run step init trace r := Run.of_isSome rfl
  have hAuthority := decision_authority.1 trace r call 31 0 0 hRun
      (by decide +kernel) (by rw [hCalls]; simp)
  rcases hAuthority with ⟨t, d, now, hOffers, hBegun, _⟩
  simp only [call, Call.offers, Option.some.injEq, Prod.mk.injEq] at hOffers
  rw [hOffers.1]
  exact hBegun

end Router

end Sledge.Native
