import Sledge.Native.Calls

/-
  What a press keeps until it ends.

  A press of a key on a tracked device ends when its release
  is routed or its device is retired.  Until then its owner
  only moves towards `quarantined` or `stockConsumed`, so a
  press that was held across a lock, made under a lock or
  consumed by the stock route stays withheld.

  Main results:
    * `Router.run_owner`
    * `Router.Reachable.confined`
    * `Router.lock_confinement`
-/

-----
-- The End Of A Press

namespace Sledge.Native

open Transition

namespace Owner

/- The owners a press made under a lock can have. -/
def confined : Owner → Bool
  | .quarantined | .stockConsumed | .lockerOwned => true
  | _ => false

end Owner

namespace Router

/- The calls that end a press of a key on a device. -/
def Call.frees (id : Nat) (key : Key) : Call → Bool
  | .route event _ _ _ _ => event.concerns id key && decide (event.state = .up)
  | .retire retired _ => decide (retired = id)
  | _ => false

variable {r r' : Router} {call : Call} {id : Nat} {key : Key} {trace : List Entry} {event : Event}

/- How the owner of a press can move before its end. -/
theorem ownerAfter_of_owned (hFrees : call.frees id key = false) (hOwned : r.owner id key ≠ .none) :
    r.ownerAfter id key call = r.owner id key ∨ r.ownerAfter id key call = .quarantined ∨
      ((r.owner id key = .forwarded ∨ r.owner id key = .lockerOwned) ∧
        r.ownerAfter id key call = .stockConsumed) := by
  cases call with
  | route event ticket reply now output =>
    refine .inl ?_
    simp only [ownerAfter]
    split
    · rename_i hConcerns
      simp only [Call.frees, hConcerns, Bool.true_and, decide_eq_false_iff_not] at hFrees
      unfold ownerRouted
      cases hOwner : r.owner id key with
      | none => exact absurd hOwner hOwned
      | _ =>
        cases hState : event.state with
        | up => exact absurd hState hFrees
        | down | repeated => rfl
    · rfl
  | originalOutcome event proposal stockAdmitted =>
    simp only [ownerAfter]
    split
    · rename_i h
      exact .inr (.inr ⟨h.2.2.2.2.1, rfl⟩)
    · exact .inl rfl
  | revoke output | lock output => simp [ownerAfter, hOwned]
  | retire retired output =>
    simp only [Call.frees, decide_eq_false_iff_not] at hFrees
    simp [ownerAfter, Ne.symm hFrees]
  | _ => exact .inl rfl

theorem tracked_of_not_freed (hFrees : call.frees id key = false) (hTracked : r.devices.Tracked id) :
    (r.perform call).1.devices.Tracked id := by
  refine (r.perform_tracked call id).mpr ?_
  cases call with
  | add new => exact .inl hTracked
  | retire retired output =>
    simp only [Call.frees, decide_eq_false_iff_not] at hFrees
    exact ⟨hTracked, .symm hFrees⟩
  | _ => exact hTracked

/-
  An owner class that every call but the end of the press keeps is kept by every run
  without that end.
-/
theorem run_owner {P : Owner → Prop}
    (hClosed : ∀ (a : Router) (call : Call), call.frees id key = false → P (a.owner id key) →
        P (a.ownerAfter id key call)) (hTracked : r.devices.Tracked id)
    (hOwner : P (r.owner id key)) (hRun : Run step r trace r')
    (hHeld : ∀ e ∈ trace, e.op.frees id key = false) :
    r'.devices.Tracked id ∧ P (r'.owner id key) := by
  refine hRun.invariant_of (P := fun r =>
        r.devices.Tracked id ∧ P (r.owner id key))
      ⟨hTracked, hOwner⟩ ?_ hHeld
  intro last call next answer hLast hFrees hStep
  rcases step_eq_some hStep with ⟨rfl, rfl⟩
  refine ⟨tracked_of_not_freed hFrees hLast.1, ?_⟩
  rw [last.perform_owner call hLast.1 key]
  exact hClosed last call hFrees hLast.2

theorem ownerAfter_quarantined (r : Router) (call : Call) (hFrees : call.frees id key = false)
    (hOwner : r.owner id key = .quarantined) : r.ownerAfter id key call = .quarantined := by
  have hOwned : r.owner id key ≠ .none := by
    rw [hOwner]
    simp
  rcases ownerAfter_of_owned hFrees hOwned with hSame | hQuarantined | ⟨hOther, _⟩
  · rw [hSame, hOwner]
  · exact hQuarantined
  · rw [hOwner] at hOther
    simp at hOther

theorem owned_of_confined {owner : Owner} (hConfined : owner.confined = true) : owner ≠ .none := by
  intro hNone
  rw [hNone] at hConfined
  simp [Owner.confined] at hConfined

theorem ownerAfter_confined (r : Router) (call : Call) (hFrees : call.frees id key = false)
    (hOwner : (r.owner id key).confined = true) : (r.ownerAfter id key call).confined = true := by
  rcases ownerAfter_of_owned hFrees (owned_of_confined hOwner) with
    hSame | hQuarantined | ⟨_, hStock⟩
  · rw [hSame, hOwner]
  · rw [hQuarantined]
    rfl
  · rw [hStock]
    rfl

-----
-- Results By Owner

theorem device_of_concerns (hConcerns : event.concerns id key = true) :
    event.device = id ∧ event.key? = some key := by
  simp only [Event.concerns, Bool.and_eq_true, decide_eq_true_eq] at hConcerns
  exact hConcerns.1

theorem route_of_owned (hConcerns : event.concerns id key = true) (hOwned : r.owner id key ≠ .none)
    (ticket : Option Ticket) (reply : Option Decision) (now : Nat) (output : Output) :
    r.route event ticket reply now output = r.routeOwned event key ticket := by
  have hTracked : r.devices.Tracked id := r.devices.tracked_of_owned hOwned
  have hDevice := (device_of_concerns hConcerns).1
  subst hDevice
  rcases r.route_cases event ticket reply now output with ⟨key', hConcerns', _, hRoute⟩ | ⟨hNone, _⟩
  · rcases (concerns_iff hConcerns').mp hConcerns with ⟨_, rfl⟩
    rw [hRoute, if_pos hOwned]
  · exact absurd hTracked (hNone key hConcerns)

/- A fresh key down goes to the locker or gets decided. -/
theorem route_of_unowned (hTracked : r.devices.Tracked id)
    (hConcerns : event.concerns id key = true) (hDown : event.state = .down)
    (hOwner : r.owner id key = .none) (ticket : Option Ticket) (reply : Option Decision) (now : Nat)
    (output : Output) :
    r.route event ticket reply now output = if r.locked then
        ⟨{ r with devices := r.devices.setOwner id key .lockerOwned },
          ⟨.lockerOwned, true, true, false⟩, []⟩
      else
        r.routeFresh event key (r.decideDown event ticket reply now output) := by
  rcases device_of_concerns hConcerns with ⟨rfl, _⟩
  rcases r.route_cases event ticket reply now output with ⟨key', hConcerns', _, hRoute⟩ | ⟨hNone, _⟩
  · rcases (concerns_iff hConcerns').mp hConcerns with ⟨_, rfl⟩
    rw [hRoute, hOwner, hDown]
    simp
  · exact absurd hTracked (hNone key hConcerns)

/- A quarantined key is withheld from everyone. -/
theorem route_quarantined (hConcerns : event.concerns id key = true)
    (hOwner : r.owner id key = .quarantined) (ticket : Option Ticket) (reply : Option Decision)
    (now : Nat) (output : Output) :
    (r.route event ticket reply now output).value = ⟨.quarantined, false, false, false⟩ := by
  have hOwned : r.owner id key ≠ .none := by
    rw [hOwner]
    simp
  rw [route_of_owned hConcerns hOwned]
  have hDevice := (device_of_concerns hConcerns).1
  unfold owner at hOwner
  simp only [routeOwned, hDevice, hOwner]

/- A confined key reaches clients only under the lock. -/
theorem route_confined (hConcerns : event.concerns id key = true)
    (hOwner : (r.owner id key).confined = true) (hUnlocked : r.locked = false)
    (ticket : Option Ticket) (reply : Option Decision) (now : Nat) (output : Output) : let result :=
      (r.route event ticket reply now output).value
    result.deliverClient = false ∧ result.outcome ≠ .merged := by
  rw [route_of_owned hConcerns (owned_of_confined hOwner)]
  have hDevice := (device_of_concerns hConcerns).1
  unfold owner at hOwner
  unfold routeOwned
  rw [hDevice]
  cases hPrevious : r.devices.ownerOf id key
  all_goals simp_all [Owner.confined]

/- A result nobody is waiting for stays as it is. -/
theorem originalOutcome_of_withheld (r : Router) (event : Event) {proposal : RouteResult}
    (hClient : proposal.deliverClient = false) (hMerged : proposal.outcome ≠ .merged)
    (stockAdmitted : Bool) : r.originalOutcome event proposal stockAdmitted = (r, proposal) := by
  rcases r.originalOutcome_cases event proposal stockAdmitted with
    ⟨_, _, _, _, hOriginal, _⟩ | ⟨hResult, _⟩
  · rcases hOriginal with hOutcome | hDeliver
    · exact absurd hOutcome hMerged
    · rw [hClient] at hDeliver
      simp at hDeliver
  · exact hResult

-----
-- Under The Lock

/- Under the lock no key is forwarded or consumed. -/
def Confined (r : Router) : Prop :=
  r.locked = true → ∀ id key, r.owner id key = .none ∨ (r.owner id key).confined = true

theorem init_confined : init.Confined := by
  intro _ id key
  exact .inl (init_owner id key)

theorem perform_confined (hConfined : r.Confined) (call : Call) : (r.perform call).1.Confined := by
  intro hLocked id key
  by_cases hTracked : r.devices.Tracked id
  · rw [r.perform_owner call hTracked key]
    rw [r.perform_locked call] at hLocked
    cases call with
    | lock output | revoke output =>
      simp only [ownerAfter]
      split
      · exact .inl rfl
      · exact .inr rfl
    | unlockConfirmed => simp [lockedAfter] at hLocked
    | route event ticket reply now output =>
      have hOwner := hConfined hLocked id key
      simp only [lockedAfter] at hLocked
      simp only [ownerAfter]
      split
      · cases hBefore : r.owner id key
        all_goals
          cases event.state
          all_goals
            simp_all [ownerRouted, Owner.confined]
      · exact hOwner
    | originalOutcome event proposal stockAdmitted =>
      simp only [ownerAfter]
      split
      · exact .inr rfl
      · exact hConfined hLocked id key
    | retire retired output =>
      simp only [ownerAfter]
      split
      · exact .inl rfl
      · exact hConfined hLocked id key
    | _ => exact hConfined hLocked id key
  · exact .inl (r.perform_owner_of_not_tracked call hTracked key)

/- Every reachable router confines keys under the lock. -/
theorem Reachable.confined (hReachable : r.Reachable) : r.Confined := by
  rcases hReachable with ⟨trace, hRun⟩
  refine hRun.invariant init_confined ?_
  intro a call b answer hConfined hStep
  rcases step_eq_some hStep with ⟨rfl, rfl⟩
  exact perform_confined hConfined call

/- A press routed under the lock gets a confined owner. -/
theorem route_down_confined (hConfined : r.Confined) (hLocked : r.locked = true)
    (hTracked : r.devices.Tracked id) (hConcerns : event.concerns id key = true)
    (hDown : event.state = .down) (ticket : Option Ticket) (reply : Option Decision) (now : Nat)
    (output : Output) :
    ((r.route event ticket reply now output).router.owner id key).confined = true := by
  rw [r.route_owner event ticket reply now output hTracked key, if_pos hConcerns, hDown]
  have hOwner := hConfined hLocked id key
  cases hBefore : r.owner id key
  all_goals
    simp_all [ownerRouted, Owner.confined]

/- A press with another owner is not what is counted. -/
theorem counted_elsewhere {counted : Owner} (hCounted : counted ≠ .none)
    (hOwner : r.owner id key ≠ counted) (hKey : r.devices.ownedKeys counted key = true) :
    ∃ other, other ≠ id ∧ r.owner other key = counted := by
  rcases (r.devices.ownedKeys_iff hCounted key).mp hKey with ⟨other, hOther⟩
  refine ⟨other, ?_, hOther⟩
  intro hSame
  rw [hSame] at hOther
  exact hOwner hOther

-----
-- Confinement Across A Lock

/- A press held across `lock` stays quarantined. -/
theorem quarantined_after_lock {output : Output} (hOwned : r.owner id key ≠ .none)
    (hRun : Run step (r.lock output).router trace r')
    (hHeld : ∀ e ∈ trace, e.op.frees id key = false) : r'.owner id key = .quarantined := by
  have hTracked : r.devices.Tracked id := r.devices.tracked_of_owned hOwned
  have hLock : (r.lock output).router.owner id key = .quarantined := by
    refine (r.perform_owner (.lock output) hTracked key).trans ?_
    simp [ownerAfter, hOwned]
  have hStart : (r.lock output).router.devices.Tracked id :=
    (r.perform_tracked (.lock output) id).mpr hTracked
  exact (run_owner (P := fun owner => owner = .quarantined)
    ownerAfter_quarantined hStart hLock hRun hHeld).2

/- A press made under a lock stays confined. -/
theorem confined_after_route (hReachable : r.Reachable) (hLocked : r.locked = true)
    (hTracked : r.devices.Tracked id) (hConcerns : event.concerns id key = true)
    (hDown : event.state = .down) {ticket : Option Ticket} {reply : Option Decision} {now : Nat}
    {output : Output}
    (hRun : Run step (r.route event ticket reply now output).router trace r')
    (hHeld : ∀ e ∈ trace, e.op.frees id key = false) : (r'.owner id key).confined = true := by
  have hOwner := route_down_confined hReachable.confined hLocked hTracked
      hConcerns hDown ticket reply now output
  have hStart := (r.route_tracked event ticket reply now output id).mpr hTracked
  exact (run_owner (P := fun owner => owner.confined = true)
    ownerAfter_confined hStart hOwner hRun hHeld).2

theorem begin_of_locked (hLocked : r.locked = true) (event : Event) (now budgetNs : Nat)
    (releaseAction : Bool) : (r.begin event now budgetNs releaseAction).2 = none := by
  have hReject : r.beginReject event now budgetNs releaseAction ≠
      .none := by
    simp only [beginReject, hLocked, if_true]
    repeat' split
    all_goals simp
  simp [begin, hReject]

theorem settlement_of_locked (hLocked : r.locked = true) (event : Event) (now budgetNs : Nat) :
    (r.settlement event now budgetNs).2 = none := by
  simp [settlement, hLocked]

/- Nothing is put out under the lock, or by locking. -/
theorem no_replace_of_locked (hLocked : r.locked = true ∨ (r.perform call).1.locked = true)
    (key : Nat) (requested restore : Mask) :
    .replace key requested restore ∉ (r.perform call).2.calls := by
  intro hCall
  rcases perform_replace hCall with ⟨t, d, now, hOffers, _, hAuthorised, _⟩
  rw [r.perform_locked call] at hLocked
  have hUnlocked := hAuthorised.unlocked
  rcases hLocked with hBefore | hAfter
  · rw [hUnlocked] at hBefore
    simp at hBefore
  · cases call with
    | lock output => simp [Call.offers] at hOffers
    | unlockConfirmed => simp [lockedAfter] at hAfter
    | _ =>
      have hBefore : r.locked = true := hAfter
      rw [hUnlocked] at hBefore
      simp at hBefore

/-
  Lock confinement.  A press held when the session locks is withheld, through any later
  unlock, up to and including its release.  A press made under the lock reaches no client
  and is not carried to a focus while the session is unlocked.  Under the lock there are
  no tickets and no replacements.
-/
theorem lock_confinement :
    (∀ (r r' : Router) (output : Output) (id : Nat) (key : Key) (trace : List Entry), r.Reachable →
      r.owner id key ≠ .none →
      Run step (r.lock output).router trace r' →
      (∀ e ∈ trace, e.op.frees id key = false) →
      (∀ event ticket reply now output stockAdmitted, event.concerns id key = true →
        let e := r'.route event ticket reply now output
        let final := e.router.originalOutcome event e.value stockAdmitted
        e.value.processStock = false ∧ e.value.deliverClient = false ∧
          final = (e.router, e.value)) ∧
      (r'.devices.focusEnterKeys key = true → ∃ other,
          other ≠ id ∧ r'.owner other key = .forwarded) ∧
      (r'.devices.lockerEnterKeys key = true → ∃ other,
          other ≠ id ∧ r'.owner other key = .lockerOwned)) ∧
    (∀ (r r' : Router) (press : Event) (ticket : Option Ticket)
        (reply : Option Decision) (now : Nat) (output : Output)
        (id : Nat) (key : Key) (trace : List Entry),
      r.Reachable →
      r.locked = true →
      r.devices.Tracked id →
      press.concerns id key = true →
      press.state = .down →
      Run step (r.route press ticket reply now output).router trace r' →
      (∀ e ∈ trace, e.op.frees id key = false) →
      r'.locked = false →
      (∀ event ticket reply now output stockAdmitted, event.concerns id key = true →
        let e := r'.route event ticket reply now output
        let final := e.router.originalOutcome event e.value stockAdmitted
        e.value.deliverClient = false ∧ final = (e.router, e.value)) ∧
      (r'.devices.focusEnterKeys key = true → ∃ other,
          other ≠ id ∧ r'.owner other key = .forwarded)) ∧
    (∀ r : Router, r.locked = true → (∀ event now budgetNs releaseAction,
        (r.begin event now budgetNs releaseAction).2 = none) ∧
      (∀ event now budgetNs, (r.settlement event now budgetNs).2 = none)) ∧
    ∀ (r : Router) (call : Call) (key : Nat) (requested restore : Mask),
      r.locked = true ∨ (r.perform call).1.locked = true →
      .replace key requested restore ∉ (r.perform call).2.calls := by
  refine ⟨?_, ?_, ?_, ?_⟩
  · intro r r' output id key trace _ hOwned hRun hHeld
    have hOwner := quarantined_after_lock hOwned hRun hHeld
    refine ⟨?_, ?_, ?_⟩
    · intro event ticket reply now output stockAdmitted hConcerns
      have hValue := route_quarantined hConcerns hOwner ticket reply now output
      simp only [hValue, true_and]
      exact originalOutcome_of_withheld _ _ rfl (by simp) _
    · apply counted_elsewhere (by simp)
      simp [hOwner]
    · apply counted_elsewhere (by simp)
      simp [hOwner]
  · intro r r' press ticket reply now output id key trace
      hReachable hLocked hTracked hPress hDown hRun hHeld
      hUnlocked
    have hOwner := confined_after_route hReachable hLocked hTracked hPress hDown hRun hHeld
    refine ⟨?_, ?_⟩
    · intro event ticket reply now output stockAdmitted hConcerns
      have hValue := route_confined hConcerns hOwner hUnlocked ticket reply now output
      refine ⟨hValue.1, ?_⟩
      exact originalOutcome_of_withheld _ _ hValue.1 hValue.2 _
    · apply counted_elsewhere (by simp)
      intro hForwarded
      rw [hForwarded] at hOwner
      simp [Owner.confined] at hOwner
  · intro r hLocked
    exact ⟨begin_of_locked hLocked, settlement_of_locked hLocked⟩
  · intro r call key requested restore hLocked
    exact no_replace_of_locked hLocked key requested restore

/- A keyboard is attached and one of its keys pressed. -/
def heldKey : List Call :=
  [.add 1, .unlockConfirmed, .route ⟨1, 30, .down, true⟩ none none 0 .compliant]

/- The session locks and unlocks while the key is down. -/
theorem lock_confinement_heldKey :
    let key : Key := ⟨30, by decide⟩
    let r := lastOf step init heldKey
    let r' := (r.lock .compliant).router.unlockConfirmed
    let result :=
      (r'.route ⟨1, 30, .up, true⟩ none none 0 .compliant).value
    r.owner 1 key = .forwarded ∧ r'.locked = false ∧ result.processStock = false ∧
      result.deliverClient = false := by
  have hOwner : (lastOf step init heldKey).owner 1 ⟨30, by decide⟩ = .forwarded := by
    decide +kernel
  have hReachable : (lastOf step init heldKey).Reachable :=
    ⟨_, Run.of_isSome rfl⟩
  have hRun (r : Router) : Run step r [⟨r, .unlockConfirmed, ⟨.done, []⟩⟩]
      r.unlockConfirmed :=
    Run.single rfl
  have hResults :=
    (lock_confinement.1 _ _ .compliant 1 ⟨30, by decide⟩ _
      hReachable (by simp [hOwner]) (hRun _)
      (by simp [Call.frees])).1 ⟨1, 30, .up, true⟩ none none 0
      .compliant true (by decide)
  exact ⟨hOwner, rfl, hResults.1, hResults.2.1⟩

end Router

end Sledge.Native
