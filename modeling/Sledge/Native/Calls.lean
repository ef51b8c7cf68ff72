import Sledge.Native.Ledger

/-
  Sequences of router calls.

  `Router.Call` is the public interface with its arguments;
  tickets, replies, clocks and compositor answers are
  arbitrary.  `Router.ownerAfter` says once what each call
  does to the owner of one key on one device, and every
  ownership property of a run is derived from it.

  Main results:
    * `Router.perform_owner`
    * `Router.perform_tracked`
    * `Router.perform_locked`
    * `Router.perform_replace`
-/

-----
-- Calls

namespace Sledge.Native

open Transition Devices

namespace Router

/- The public operations that change a router. -/
inductive Call where
  | add (id : Nat)
  | begin (event : Event) (now budgetNs : Nat) (releaseAction : Bool)
  | settlement (event : Event) (now budgetNs : Nat)
  | route (event : Event) (ticket : Option Ticket) (reply : Option Decision) (now : Nat)
      (output : Output)
  | finishRelease (ticket : Ticket) (reply : Option Decision) (deliveredOriginal : Bool) (now : Nat)
      (output : Output)
      (original : Outcome)
  | originalOutcome (event : Event) (proposal : RouteResult) (stockAdmitted : Bool)
  | focusChanged
  | revoke (output : Output)
  | lock (output : Output)
  | unlockConfirmed
  | disconnect
  | retire (id : Nat) (output : Output)
  | recoverRetiredOutput (exactRetirementProof : Bool)

/- What a call returns. -/
inductive Value where
  | flag (ok : Bool)
  | ticket (ticket : Option Ticket)
  | routed (result : RouteResult)
  | finished (outcome : Outcome)
  | done
deriving DecidableEq

/- The result of a call and the output calls it made. -/
structure Answer where
  value : Value
  calls : List OutputCall
deriving DecidableEq

def perform (r : Router) : Call → Router × Answer
  | .add id =>
    let (r, ok) := r.add id
    (r, ⟨.flag ok, []⟩)
  | .begin event now budgetNs releaseAction =>
    let (r, ticket) :=
      r.begin event now budgetNs releaseAction
    (r, ⟨.ticket ticket, []⟩)
  | .settlement event now budgetNs =>
    let (r, ticket) := r.settlement event now budgetNs
    (r, ⟨.ticket ticket, []⟩)
  | .route event ticket reply now output =>
    let e := r.route event ticket reply now output
    (e.router, ⟨.routed e.value, e.calls⟩)
  | .finishRelease ticket reply deliveredOriginal now output original =>
      let e := r.finishRelease ticket reply deliveredOriginal now output original
      (e.router, ⟨.finished e.value, e.calls⟩)
  | .originalOutcome event proposal stockAdmitted =>
    let (r, result) := r.originalOutcome event proposal stockAdmitted
    (r, ⟨.routed result, []⟩)
  | .focusChanged => (r.focusChanged, ⟨.done, []⟩)
  | .revoke output =>
    let e := r.revoke output
    (e.router, ⟨.done, e.calls⟩)
  | .lock output =>
    let e := r.lock output
    (e.router, ⟨.done, e.calls⟩)
  | .unlockConfirmed => (r.unlockConfirmed, ⟨.done, []⟩)
  | .disconnect => (r.disconnect, ⟨.done, []⟩)
  | .retire id output =>
    let e := r.retire id output
    (e.router, ⟨.done, e.calls⟩)
  | .recoverRetiredOutput exactRetirementProof =>
    let (r, ok) := r.recoverRetiredOutput exactRetirementProof
    (r, ⟨.flag ok, []⟩)

/- Every public call returns. -/
def step (r : Router) (call : Call) : Option (Router × Answer) := some (r.perform call)

theorem step_eq_some {r r' : Router} {call : Call} {answer : Answer}
    (hStep : r.step call = some (r', answer)) :
    r' = (r.perform call).1 ∧ answer = (r.perform call).2 := by
  simp only [step, Option.some.injEq] at hStep
  rw [hStep]
  exact ⟨rfl, rfl⟩

abbrev Entry := Transition.Entry Router Call Answer

/- A router reached from a fresh one by public calls. -/
def Reachable (r : Router) : Prop := ∃ trace, Run step init trace r

end Router

-----
-- What A Call Does To One Key

namespace Event

/- A modeled event of this key on this device. -/
def concerns (event : Event) (id : Nat) (key : Key) : Bool :=
  decide (event.device = id ∧ event.key? = some key) && event.modeled

end Event

namespace Router

/- The owner of a key in the router's ledger. -/
def owner (r : Router) (id : Nat) (key : Key) : Owner := r.devices.ownerOf id key

theorem init_owner (id : Nat) (key : Key) : init.owner id key = .none := by
  apply ownerOf_of_not_tracked
  exact not_tracked_empty id

/- The owner a routed event leaves behind. -/
def ownerRouted (r : Router) (state : State) (verdict : Verdict) (before : Owner) : Owner :=
  match before, state with
  | .none, .down =>
    if r.locked then .lockerOwned
    else if verdict = .pass then .forwarded
    else .consumed
  | .none, _ => .none
  | _, .up => .none
  | owner, _ => owner

/- The owner of a key of a tracked device after a call. -/
def ownerAfter (r : Router) (id : Nat) (key : Key) : Call → Owner
  | .route event ticket reply now output =>
    if event.concerns id key then
      r.ownerRouted event.state (r.decideDown event ticket reply now output).verdict
        (r.owner id key)
    else r.owner id key
  | .originalOutcome event proposal stockAdmitted =>
    if event.device = id ∧ event.key? = some key ∧ event.state = .down ∧
        (proposal.outcome = .merged ∨ proposal.deliverClient) ∧
        (r.owner id key = .forwarded ∨ r.owner id key = .lockerOwned) ∧
        ¬ stockAdmitted then .stockConsumed
    else r.owner id key
  | .revoke _ =>
    if r.owner id key = .none then .none else .quarantined
  | .lock _ =>
    if r.owner id key = .none then .none else .quarantined
  | .retire retired _ =>
    if id = retired then .none else r.owner id key
  | _ => r.owner id key

theorem tracks_iff (r : Router) (id : Nat) : r.tracks id = true ↔ r.devices.Tracked id :=
  r.devices.isSome_find_iff id

/- A routed event either bypasses or is handled by owner. -/
theorem route_cases (r : Router) (event : Event) (ticket : Option Ticket) (reply : Option Decision)
    (now : Nat) (output : Output) :
    (∃ key, event.concerns event.device key = true ∧ r.devices.Tracked event.device ∧
        r.route event ticket reply now output = if r.owner event.device key ≠ .none then
            r.routeOwned event key ticket
          else if event.state ≠ .down then ⟨r, bypass, []⟩
          else if r.locked then
            ⟨{ r with devices := r.devices.setOwner event.device key .lockerOwned },
              ⟨.lockerOwned, true, true, false⟩, []⟩
          else
            r.routeFresh event key (r.decideDown event ticket reply now output)) ∨
      ((∀ key, event.concerns event.device key = true → ¬ r.devices.Tracked event.device) ∧
        r.route event ticket reply now output = ⟨r, bypass, []⟩) := by
  unfold route
  cases hTracks : r.tracks event.device with
  | false =>
    refine .inr ⟨?_, by simp⟩
    intro key _ hTracked
    rw [← tracks_iff, hTracks] at hTracked
    simp at hTracked
  | true =>
    cases hKey : event.key? with
    | none =>
      refine .inr ⟨?_, by simp⟩
      intro key hConcerns
      simp [Event.concerns, hKey] at hConcerns
    | some key =>
      cases hModeled : event.modeled with
      | false =>
        refine .inr ⟨?_, by simp⟩
        intro key' hConcerns
        simp [Event.concerns, hModeled] at hConcerns
      | true =>
        refine .inl ⟨key, ?_, ?_, rfl⟩
        · simp [Event.concerns, hKey, hModeled]
        · exact (tracks_iff r event.device).mp hTracks

variable {event : Event} {id : Nat} {r : Router}

theorem concerns_iff {key key' : Key} (hConcerns : event.concerns event.device key = true) :
    event.concerns id key' = true ↔ id = event.device ∧ key' = key := by
  simp only [Event.concerns, true_and, Bool.and_eq_true, decide_eq_true_eq] at hConcerns
  simp only [Event.concerns, hConcerns, Option.some.injEq, Bool.and_true, decide_eq_true_eq]
  constructor
  · intro h
    exact ⟨h.1.symm, h.2.symm⟩
  · intro h
    exact ⟨h.1.symm, h.2.symm⟩

theorem routeOwned_owner (r : Router) (hTracked : r.devices.Tracked event.device) (key : Key)
    (ticket : Option Ticket) (id : Nat) (key' : Key) :
    (r.routeOwned event key ticket).router.owner id key' = if id = event.device ∧ key' = key ∧
          event.state = .up then .none
      else r.owner id key' := by
  unfold routeOwned owner
  by_cases hUp : event.state = .up
  · simp only [hUp, if_true, and_true]
    exact ownerOf_setOwner _ hTracked ..
  · simp [hUp]

theorem routeFresh_owner (r : Router) (hTracked : r.devices.Tracked event.device) (key : Key)
    (decided : Decided) (id : Nat) (key' : Key) :
    (r.routeFresh event key decided).router.owner id key' = if id = event.device ∧ key' = key then
        if decided.verdict = .pass then .forwarded
        else .consumed
      else r.owner id key' := by
  unfold routeFresh owner
  exact ownerOf_setOwner _ hTracked ..

theorem route_owner (r : Router) (event : Event) (ticket : Option Ticket) (reply : Option Decision)
    (now : Nat) (output : Output) (hTracked : r.devices.Tracked id) (key : Key) :
    (r.route event ticket reply now output).router.owner id key = if event.concerns id key then
        r.ownerRouted event.state (r.decideDown event ticket reply now output).verdict
          (r.owner id key)
      else r.owner id key := by
  rcases r.route_cases event ticket reply now output with
    ⟨key', hConcerns, hDevice, hRoute⟩ | ⟨hNone, hRoute⟩
  · rw [hRoute]
    simp only [concerns_iff hConcerns]
    by_cases hOwned : r.owner event.device key' = .none
    · simp only [hOwned, ne_eq, not_true, if_false]
      by_cases hDown : event.state = .down
      · simp only [hDown, not_true, if_false]
        cases hLocked : r.locked with
        | true =>
          simp only [if_true]
          unfold owner
          rw [ownerOf_setOwner _ hDevice]
          split
          · rename_i hSame
            rcases hSame with ⟨rfl, rfl⟩
            unfold owner at hOwned
            simp [ownerRouted, hOwned, hLocked]
          · rfl
        | false =>
          simp only [Bool.false_eq_true, if_false]
          rw [routeFresh_owner r hDevice]
          split
          · rename_i hSame
            rcases hSame with ⟨rfl, rfl⟩
            simp [ownerRouted, hOwned, hLocked]
          · rfl
      · simp only [hDown, not_false_eq_true, if_true]
        split
        · rename_i hSame
          rcases hSame with ⟨rfl, rfl⟩
          simp only [hOwned]
          cases hState : event.state with
          | down => exact absurd hState hDown
          | up | repeated => rfl
        · rfl
    · simp only [hOwned, ne_eq, not_false_eq_true, if_true]
      rw [routeOwned_owner r hDevice]
      by_cases hSame : id = event.device ∧ key = key'
      · rcases hSame with ⟨rfl, rfl⟩
        cases hOwner : r.owner event.device key with
        | none => exact absurd hOwner hOwned
        | _ =>
          cases hState : event.state
          all_goals
            simp [ownerRouted]
      · rw [if_neg hSame, if_neg]
        intro h
        exact hSame ⟨h.1, h.2.1⟩
  · rw [hRoute, if_neg]
    intro hConcerns
    have hDevice : id = event.device := by
      simp only [Event.concerns, Bool.and_eq_true, decide_eq_true_eq] at hConcerns
      exact hConcerns.1.1.symm
    subst hDevice
    exact hNone key hConcerns hTracked

theorem route_tracked (r : Router) (event : Event) (ticket : Option Ticket)
    (reply : Option Decision) (now : Nat) (output : Output) (id : Nat) :
    (r.route event ticket reply now output).router.devices.Tracked id ↔ r.devices.Tracked id := by
  rcases r.route_cases event ticket reply now output with ⟨key, _, _, hRoute⟩ | ⟨_, hRoute⟩
  · rw [hRoute]
    unfold routeOwned routeFresh
    repeat' split
    all_goals
      simp only [tracked_setOwner]
  · rw [hRoute]

theorem originalOutcome_cases (r : Router) (event : Event) (proposal : RouteResult)
    (stockAdmitted : Bool) :
    (∃ key, event.key? = some key ∧ r.devices.Tracked event.device ∧ event.state = .down ∧
        (proposal.outcome = .merged ∨ proposal.deliverClient = true) ∧
        (r.owner event.device key = .forwarded ∨ r.owner event.device key = .lockerOwned) ∧
        stockAdmitted = false ∧
        r.originalOutcome event proposal stockAdmitted = ({ r with
              devices := r.devices.setOwner event.device key .stockConsumed },
            ⟨.stockConsumed, true, false, false⟩)) ∨
      (r.originalOutcome event proposal stockAdmitted = (r, proposal) ∧ ¬ ∃ key,
          event.key? = some key ∧ event.state = .down ∧
          (proposal.outcome = .merged ∨ proposal.deliverClient = true) ∧
          (r.owner event.device key = .forwarded ∨ r.owner event.device key = .lockerOwned) ∧
          stockAdmitted = false) := by
  unfold originalOutcome
  cases hTracks : r.tracks event.device with
  | false =>
    refine .inr ⟨by simp, ?_⟩
    intro h
    rcases h with ⟨key, _, _, _, hOwner, _⟩
    have hTracked : r.devices.Tracked event.device := by
      apply r.devices.tracked_of_owned
      intro hNone
      unfold owner at hOwner
      rw [hNone] at hOwner
      simp at hOwner
    rw [← tracks_iff, hTracks] at hTracked
    simp at hTracked
  | true =>
    cases hKey : event.key? with
    | none => exact .inr ⟨by simp, by simp⟩
    | some key =>
      by_cases hOriginal : event.state = .down ∧ (proposal.outcome = .merged ∨
          proposal.deliverClient = true) ∧
        (r.owner event.device key = .forwarded ∨ r.owner event.device key = .lockerOwned) ∧
        stockAdmitted = false
      · refine .inl ⟨key, rfl, (tracks_iff _ _).mp hTracks,
          hOriginal.1, hOriginal.2.1, hOriginal.2.2.1,
          hOriginal.2.2.2, ?_⟩
        have hOwner := hOriginal.2.2.1
        unfold owner at hOwner
        simp [hOriginal.1, hOriginal.2.1, hOwner, hOriginal.2.2.2]
      · refine .inr ⟨?_, ?_⟩
        · unfold owner at hOriginal
          simp only
          split
          · rfl
          · rename_i hProposal
            rw [if_neg]
            intro hConsumed
            apply hOriginal
            simp only [not_or, not_not, ne_eq, Bool.or_eq_true, decide_eq_true_eq] at hProposal
            refine ⟨hProposal.1, ?_, hConsumed.1, ?_⟩
            · by_contra hNone
              push Not at hNone
              exact hProposal.2 hNone
            · simpa using hConsumed.2
        · intro h
          rcases h with ⟨key', hKey', hRest⟩
          simp only [Option.some.injEq] at hKey'
          subst hKey'
          exact hOriginal hRest

theorem originalOutcome_owner (r : Router) (event : Event) (proposal : RouteResult)
    (stockAdmitted : Bool) (id : Nat) (key : Key) :
    (r.originalOutcome event proposal stockAdmitted).1.owner id key =
      if event.device = id ∧ event.key? = some key ∧ event.state = .down ∧
          (proposal.outcome = .merged ∨ proposal.deliverClient) ∧
          (r.owner id key = .forwarded ∨ r.owner id key = .lockerOwned) ∧
          ¬ stockAdmitted then .stockConsumed
      else r.owner id key := by
  rcases r.originalOutcome_cases event proposal stockAdmitted with
    ⟨key', hKey, hDevice, hDown, hProposal, hOwner, hStock, hResult⟩ | ⟨hResult, hNone⟩
  · rw [hResult]
    have hRead := r.devices.ownerOf_setOwner hDevice key' .stockConsumed id key
    by_cases hSame : id = event.device ∧ key = key'
    · rw [if_pos hSame] at hRead
      rcases hSame with ⟨rfl, rfl⟩
      refine hRead.trans ?_
      simp [hKey, hDown, hProposal, hOwner, hStock]
    · rw [if_neg hSame] at hRead
      refine hRead.trans ?_
      rw [if_neg]
      · rfl
      · intro h
        rw [hKey] at h
        exact hSame ⟨h.1.symm, (Option.some.inj h.2.1).symm⟩
  · rw [hResult, if_neg]
    intro h
    rcases h with ⟨rfl, hKey, hDown, hProposal, hOwner, hStock⟩
    exact hNone ⟨key, hKey, hDown, hProposal, hOwner, by simpa using hStock⟩

theorem originalOutcome_tracked (r : Router) (event : Event) (proposal : RouteResult)
    (stockAdmitted : Bool) (id : Nat) :
    (r.originalOutcome event proposal stockAdmitted).1.devices.Tracked id ↔ r.devices.Tracked id := by
  rcases r.originalOutcome_cases event proposal stockAdmitted with
    ⟨key', _, _, _, _, _, _, hResult⟩ | ⟨hResult, _⟩
  · rw [hResult]
    simp only [tracked_setOwner]
  · rw [hResult]

theorem retire_owner (r : Router) (retired : Nat) (output : Output) (id : Nat) (key : Key) :
    (r.retire retired output).router.owner id key = if id = retired then .none else r.owner id key := by
  unfold retire
  cases hTracks : r.tracks retired with
  | true =>
    simp only [Bool.not_true, Bool.false_eq_true, if_false]
    exact ownerOf_clear ..
  | false =>
    simp only [Bool.not_false, if_true]
    split
    · rename_i hSame
      subst hSame
      apply ownerOf_of_not_tracked
      rw [← tracks_iff, hTracks]
      simp
    · rfl

theorem retire_tracked (r : Router) (retired : Nat) (output : Output) (id : Nat) :
    (r.retire retired output).router.devices.Tracked id ↔ r.devices.Tracked id ∧ id ≠ retired := by
  unfold retire
  cases hTracks : r.tracks retired with
  | true =>
    simp only [Bool.not_true, Bool.false_eq_true, if_false]
    exact r.devices.tracked_clear retired id
  | false =>
    simp only [Bool.not_false, if_true]
    constructor
    · intro hTracked
      refine ⟨hTracked, ?_⟩
      intro hSame
      rw [hSame, ← tracks_iff, hTracks] at hTracked
      simp at hTracked
    · intro h
      exact h.1

theorem add_owner (r : Router) (new id : Nat) (key : Key) :
    (r.add new).1.owner id key = r.owner id key := by
  unfold add
  cases hAdd : r.devices.add new with
  | none => rfl
  | some devices => exact (add_eq_some hAdd).2.2.2.2.2 id key

theorem add_tracked (r : Router) (new id : Nat) :
    (r.add new).1.devices.Tracked id ↔ r.devices.Tracked id ∨ ((r.add new).2 = true ∧ id = new) := by
  unfold add
  cases hAdd : r.devices.add new with
  | none => simp
  | some devices => simpa using (add_eq_some hAdd).2.2.2.2.1 id

-----
-- What The Other Calls Leave Alone

theorem begin_frame (r : Router) (event : Event) (now budgetNs : Nat) (releaseAction : Bool) :
    let after := (r.begin event now budgetNs releaseAction).1
    after.devices = r.devices ∧ after.locked = r.locked := by
  unfold begin
  simp only
  split <;> exact ⟨rfl, rfl⟩

theorem settlement_frame (r : Router) (event : Event) (now budgetNs : Nat) :
    let after := (r.settlement event now budgetNs).1
    after.devices = r.devices ∧ after.locked = r.locked := by
  unfold settlement
  split <;> exact ⟨rfl, rfl⟩

theorem finishRelease_frame (r : Router) (ticket : Ticket) (reply : Option Decision)
    (deliveredOriginal : Bool) (now : Nat) (output : Output) (original : Outcome) : let after :=
      (r.finishRelease ticket reply deliveredOriginal now output original).router
    after.devices = r.devices ∧ after.locked = r.locked := by
  unfold finishRelease
  simp only
  repeat' split
  all_goals exact ⟨rfl, rfl⟩

theorem recoverRetiredOutput_frame (r : Router) (exactRetirementProof : Bool) :
    let after := (r.recoverRetiredOutput exactRetirementProof).1
    after.devices = r.devices ∧ after.locked = r.locked := by
  unfold recoverRetiredOutput
  split <;> exact ⟨rfl, rfl⟩

theorem route_locked (r : Router) (event : Event) (ticket : Option Ticket) (reply : Option Decision)
    (now : Nat) (output : Output) :
    (r.route event ticket reply now output).router.locked = r.locked := by
  rcases r.route_cases event ticket reply now output with ⟨key, _, _, hRoute⟩ | ⟨_, hRoute⟩
  · rw [hRoute]
    unfold routeOwned routeFresh
    repeat' split
    all_goals rfl
  · rw [hRoute]

theorem originalOutcome_locked (r : Router) (event : Event) (proposal : RouteResult)
    (stockAdmitted : Bool) :
    (r.originalOutcome event proposal stockAdmitted).1.locked = r.locked := by
  rcases r.originalOutcome_cases event proposal stockAdmitted with
    ⟨_, _, _, _, _, _, _, hResult⟩ | ⟨hResult, _⟩
  · rw [hResult]
  · rw [hResult]

-----
-- One Lemma For Every Call

theorem owner_congr {r' : Router} (hDevices : r'.devices = r.devices) (id : Nat) (key : Key) :
    r'.owner id key = r.owner id key := by
  unfold owner
  rw [hDevices]

/- What every call does to a key of a tracked device. -/
theorem perform_owner (r : Router) (call : Call) (hTracked : r.devices.Tracked id) (key : Key) :
    (r.perform call).1.owner id key = r.ownerAfter id key call := by
  cases call with
  | add new => exact r.add_owner new id key
  | begin event now budgetNs releaseAction =>
    apply owner_congr
    exact (r.begin_frame event now budgetNs releaseAction).1
  | settlement event now budgetNs =>
    apply owner_congr
    exact (r.settlement_frame event now budgetNs).1
  | route event ticket reply now output =>
    exact route_owner r event ticket reply now output hTracked key
  | finishRelease ticket reply deliveredOriginal now output original =>
      apply owner_congr
      exact (r.finishRelease_frame ticket reply deliveredOriginal now output original).1
  | originalOutcome event proposal stockAdmitted =>
    exact r.originalOutcome_owner event proposal stockAdmitted id key
  | revoke output | lock output => exact ownerOf_quarantine ..
  | retire retired output => exact r.retire_owner retired output id key
  | recoverRetiredOutput exactRetirementProof =>
    apply owner_congr
    exact (r.recoverRetiredOutput_frame exactRetirementProof).1
  | focusChanged | unlockConfirmed | disconnect => rfl

/- Which devices a call leaves tracked. -/
def trackedAfter (r : Router) (id : Nat) (value : Value) : Call → Prop
  | .add new => r.devices.Tracked id ∨ (value = .flag true ∧ id = new)
  | .retire retired _ => r.devices.Tracked id ∧ id ≠ retired
  | _ => r.devices.Tracked id

/- Only `add` and `retire` change which devices are tracked. -/
theorem perform_tracked (r : Router) (call : Call) (id : Nat) :
    (r.perform call).1.devices.Tracked id ↔ r.trackedAfter id (r.perform call).2.value call := by
  cases call with
  | add new =>
    refine (r.add_tracked new id).trans ?_
    simp [trackedAfter, perform]
  | begin event now budgetNs releaseAction =>
    have hFrame := r.begin_frame event now budgetNs releaseAction
    simp only [perform, hFrame.1, trackedAfter]
  | settlement event now budgetNs =>
    have hFrame := r.settlement_frame event now budgetNs
    simp only [perform, hFrame.1, trackedAfter]
  | route event ticket reply now output => exact route_tracked r event ticket reply now output id
  | finishRelease ticket reply deliveredOriginal now output original =>
      have hFrame := r.finishRelease_frame ticket reply deliveredOriginal now output original
      simp only [perform, hFrame.1, trackedAfter]
  | originalOutcome event proposal stockAdmitted =>
    exact r.originalOutcome_tracked event proposal stockAdmitted id
  | retire retired output => exact r.retire_tracked retired output id
  | recoverRetiredOutput exactRetirementProof =>
    have hFrame := r.recoverRetiredOutput_frame exactRetirementProof
    simp only [perform, hFrame.1, trackedAfter]
  | revoke output | lock output | focusChanged | unlockConfirmed | disconnect => exact Iff.rfl

/- A device that was not tracked owns nothing after a call. -/
theorem perform_owner_of_not_tracked (r : Router) (call : Call) (hNot : ¬ r.devices.Tracked id)
    (key : Key) : (r.perform call).1.owner id key = .none := by
  by_cases hTracked : (r.perform call).1.devices.Tracked id
  · have hAdded := (r.perform_tracked call id).mp hTracked
    cases call with
    | add new =>
      refine (r.add_owner new id key).trans ?_
      exact r.devices.ownerOf_of_not_tracked hNot key
    | retire retired output => exact absurd hAdded.1 hNot
    | _ => exact absurd hAdded hNot
  · exact ownerOf_of_not_tracked _ hTracked key

/- Whether a call leaves the session locked. -/
def lockedAfter (r : Router) : Call → Bool
  | .lock _ => true
  | .unlockConfirmed => false
  | _ => r.locked

/- Only `lock` and `unlockConfirmed` move the lock. -/
theorem perform_locked (r : Router) (call : Call) :
    (r.perform call).1.locked = r.lockedAfter call := by
  cases call with
  | add new =>
    simp only [perform, add]
    split <;> rfl
  | begin event now budgetNs releaseAction =>
    exact (r.begin_frame event now budgetNs releaseAction).2
  | settlement event now budgetNs => exact (r.settlement_frame event now budgetNs).2
  | route event ticket reply now output => exact r.route_locked event ticket reply now output
  | finishRelease ticket reply deliveredOriginal now output original =>
      exact (r.finishRelease_frame ticket reply deliveredOriginal now output original).2
  | originalOutcome event proposal stockAdmitted =>
    exact r.originalOutcome_locked event proposal stockAdmitted
  | retire retired output =>
    simp only [perform, retire]
    split <;> rfl
  | recoverRetiredOutput exactRetirementProof =>
    exact (r.recoverRetiredOutput_frame exactRetirementProof).2
  | focusChanged | revoke output | lock output | unlockConfirmed | disconnect => rfl

-----
-- Replacements

/- What a ticket and a reply must satisfy to put a key out. -/
structure Authorises (r : Router) (t : Ticket) (reply : Decision) (now : Nat) : Prop where
  unlocked : r.locked = false
  sound : r.fatal = false
  timely : now < t.deadline
  epoch : t.epoch = r.epoch
  focus : t.focus = r.focus
  answered : reply.ticket = t
  replaces : reply.verdict = .replace
  free : r.preflight t.key reply = true

/- The ticket and reply a call offers for a replacement. -/
def Call.offers : Call → Option (Ticket × Decision × Nat)
  | .route _ (some t) (some reply) now _ => some (t, reply, now)
  | .finishRelease t (some reply) _ now _ _ => some (t, reply, now)
  | _ => none

/- The one-shot register a call takes its ticket from. -/
def Call.register (r : Router) : Call → Option Ticket
  | .route .. => r.pending
  | .finishRelease .. => r.released
  | _ => none

theorem verdictFor_eq_replace {ticket : Option Ticket} {reply : Option Decision} {now : Nat}
    (hVerdict : r.verdictFor event ticket reply now = .replace) :
    ∃ t d, ticket = some t ∧ reply = some d ∧ r.pending = some t ∧ t.key = event.key ∧
      r.locked = false ∧ r.fatal = false ∧
      now < t.deadline ∧ t.epoch = r.epoch ∧
      t.focus = r.focus ∧ d.ticket = t ∧
      d.verdict = .replace := by
  cases ticket with
  | none => simp [verdictFor] at hVerdict
  | some t =>
    cases reply with
    | none => simp [verdictFor] at hVerdict
    | some d =>
      simp only [verdictFor] at hVerdict
      split at hVerdict
      · rename_i hGuard
        rcases hGuard with ⟨hLocked, hFatal, hAdmitted, hNow, _, hKey, hEpoch, hFocus, hTicket, _⟩
        have hPending : r.pending = some t := by
          unfold admitted at hAdmitted
          cases hPending : r.pending with
          | none => simp [hPending] at hAdmitted
          | some pending =>
            simp only [hPending, decide_eq_true_eq] at hAdmitted
            rw [hAdmitted.1]
        exact ⟨t, d, rfl, rfl, hPending, hKey, by simpa using hLocked, by simpa using hFatal,
          hNow, hEpoch, hFocus, hTicket, hVerdict⟩
      · simp at hVerdict

/- The one call an authorised replacement makes. -/
def replacement (r : Router) (d : Decision) : OutputCall :=
  .replace d.key d.modifiers r.devices.forwardedModifiers

/- A decided key down calls `replace` once or not at all. -/
theorem decideDown_cases (r : Router) (event : Event) (ticket : Option Ticket)
    (reply : Option Decision) (now : Nat) (output : Output) :
    let decided := r.decideDown event ticket reply now output
    (decided.calls = [] ∧ decided.fatal = r.fatal) ∨ ∃ t d, ticket = some t ∧ reply = some d ∧
        r.pending = some t ∧ r.Authorises t d now ∧
        decided.calls = [r.replacement d] ∧
        (r.fatal = true → decided.fatal = true) := by
  unfold decideDown
  cases hVerdict : r.verdictFor event ticket reply now with
  | replace =>
    rcases verdictFor_eq_replace hVerdict with ⟨t, d, rfl, rfl, hPending, hKey, hLocked, hFatal,
      hNow, hEpoch, hFocus, hTicket, hReplace⟩
    cases hFree : r.preflight event.key d with
    | false => exact .inl (by simp [hFree])
    | true =>
      have hAuthorised : r.Authorises t d now :=
        { unlocked := hLocked
          sound := hFatal
          timely := hNow
          epoch := hEpoch
          focus := hFocus
          answered := hTicket
          replaces := hReplace
          free := by rw [hKey, hFree] }
      refine .inr ⟨t, d, rfl, rfl, hPending, hAuthorised, ?_⟩
      simp only [hFree, Bool.not_true, Bool.false_eq_true, if_false, hFatal,
        false_implies, and_true]
      split <;> rfl
  | pass | swallow | invalid code => exact .inl ⟨rfl, rfl⟩

/- A finished release calls `replace` once or not at all. -/
theorem finishRelease_cases (r : Router) (t : Ticket) (reply : Option Decision)
    (deliveredOriginal : Bool)
    (now : Nat)
    (output : Output)
    (original : Outcome) :
    let e :=
      r.finishRelease t reply deliveredOriginal now output original
    (e.calls = [] ∧ e.router = { r with released := none }) ∨ ∃ d fatal,
        reply = some d ∧ r.released = some t ∧
        r.Authorises t d now ∧ e.calls = [r.replacement d] ∧
        e.router = { r with released := none, fatal := fatal } := by
  unfold finishRelease
  simp only
  cases reply with
  | none => exact .inl ⟨rfl, rfl⟩
  | some d =>
    by_cases hVerdict : d.verdict = .replace
    · simp only [hVerdict, ne_eq, not_true, if_false]
      split
      · exact .inl ⟨rfl, rfl⟩
      · rename_i hGuard
        simp only [Bool.or_eq_true, not_or, Bool.not_eq_true, decide_eq_true_eq,
          decide_eq_false_iff_not, Bool.not_eq_eq_eq_not, Bool.not_true, Bool.not_eq_false,
          not_not] at hGuard
        rcases hGuard with ⟨⟨⟨⟨⟨⟨⟨⟨hReleased, _⟩, hLocked⟩, hFatal⟩,
          hNow⟩, hEpoch⟩, hFocus⟩, hTicket⟩, hFree⟩
        have hAuthorised : r.Authorises t d now :=
          { unlocked := hLocked
            sound := hFatal
            timely := by omega
            epoch := hEpoch
            focus := hFocus
            answered := hTicket
            replaces := hVerdict
            free := hFree }
        refine .inr ?_
        split
        · exact ⟨d, r.fatal, rfl, hReleased, hAuthorised, rfl, rfl⟩
        · exact ⟨d, true, rfl, hReleased, hAuthorised, rfl, rfl⟩
        · exact ⟨d, r.fatal, rfl, hReleased, hAuthorised, rfl, rfl⟩
    · refine .inl ?_
      simp [hVerdict]

/- A target that passes the check is owned by nobody. -/
theorem preflight_free {original : Nat} {d : Decision} (hFree : r.preflight original d = true) :
    d.key < keyCount ∧ d.key ≠ original ∧ ∀ id (key : Key), key.val = d.key → r.owner id key = .none := by
  simp only [preflight, Bool.not_eq_true', Bool.or_eq_false_iff,
    decide_eq_false_iff_not, Nat.not_le] at hFree
  rcases hFree with ⟨⟨hKey, hOriginal⟩, hTarget⟩
  refine ⟨by omega, hOriginal, ?_⟩
  intro id key hSame
  rcases (r.devices.targetHeld_eq_false_iff d.key).mp hTarget with ⟨hLt, hOwner⟩
  have hKeyEq : key = ⟨d.key, hLt⟩ := Fin.ext hSame
  rw [hKeyEq]
  exact hOwner id

/- Every `replace` comes from an authorised offer. -/
theorem perform_replace {call : Call} {key : Nat} {requested restore : Mask}
    (hCall : .replace key requested restore ∈ (r.perform call).2.calls) :
    ∃ t d now, call.offers = some (t, d, now) ∧ call.register r = some t ∧ r.Authorises t d now ∧
      (r.perform call).2.calls = [r.replacement d] := by
  cases call with
  | route event ticket reply now output =>
    simp only [perform] at hCall ⊢
    rcases r.route_cases event ticket reply now output with ⟨k, _, _, hRoute⟩ | ⟨_, hRoute⟩
    · rw [hRoute] at hCall ⊢
      by_cases hOwned : r.owner event.device k = .none
      · cases hState : event.state with
        | up | repeated => simp [hOwned, hState] at hCall
        | down =>
          cases hLocked : r.locked with
          | true => simp [hOwned, hState, hLocked] at hCall
          | false =>
            simp only [hOwned, hState, hLocked, ne_eq, not_true, if_false, Bool.false_eq_true,
              routeFresh] at hCall ⊢
            rcases r.decideDown_cases event ticket reply now output with ⟨hCalls, _⟩ |
              ⟨t, d, rfl, rfl, hPending, hAuthorised, hCalls, _⟩
            · rw [hCalls] at hCall
              simp at hCall
            · exact ⟨t, d, now, rfl, hPending, hAuthorised, hCalls⟩
      · simp [hOwned, routeOwned] at hCall
    · rw [hRoute] at hCall
      simp at hCall
  | finishRelease t reply deliveredOriginal now output original =>
      simp only [perform] at hCall ⊢
      rcases r.finishRelease_cases t reply deliveredOriginal now output original with ⟨hCalls, _⟩ |
        ⟨d, _, rfl, hReleased, hAuthorised, hCalls, _⟩
      · rw [hCalls] at hCall
        simp at hCall
      · exact ⟨t, d, now, rfl, hReleased, hAuthorised, hCalls⟩
  | revoke output => simp [perform, revoke] at hCall
  | lock output => simp [perform, lock, revoke] at hCall
  | retire id output =>
    simp only [perform, retire] at hCall
    split at hCall
    · simp at hCall
    · simp at hCall
  | _ => simp [perform] at hCall

end Router

end Sledge.Native
