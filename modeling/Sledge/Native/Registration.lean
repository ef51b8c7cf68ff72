import Sledge.Native.Adapter

/-
  Physical keyboards and the devices of the router.

  The registry and the router keep tables of their own, with
  their own slots and counters.  Keyboards come and go through
  the registry, and every event of the registry is routed.
  The other calls of the router come in between in any order,
  and its stock outcomes with any arguments.  Both tables then
  list the same keyboards, and a key has an owner exactly
  while it is physically held.

  Main results:
    * `Coupled.attach_succeeds`
    * `Registration.step_coupled`
    * `Registration.physical_coupled`
    * `Adapter.run_tracking`
-/

-----
-- Calls In Between

namespace Sledge.Native

open Transition Router

namespace Router

/- The calls that are neither registrations nor events. -/
def Call.interim : Call → Bool
  | .add _ => false
  | .retire .. => false
  | .route .. => false
  | _ => true

variable {r : Router} {call : Call}

/- Only a registration moves the last generation. -/
theorem perform_lastGeneration (r : Router) (call : Call) (hAdd : ∀ id, call ≠ .add id) :
    (r.perform call).1.devices.lastGeneration = r.devices.lastGeneration := by
  cases call with
  | add id => exact absurd rfl (hAdd id)
  | begin event now budgetNs releaseAction =>
    exact congrArg _ (r.begin_frame event now budgetNs releaseAction).1
  | settlement event now budgetNs => exact congrArg _ (r.settlement_frame event now budgetNs).1
  | finishRelease ticket reply deliveredOriginal now output original =>
    exact congrArg _ (r.finishRelease_frame ticket reply deliveredOriginal now output original).1
  | recoverRetiredOutput exactRetirementProof =>
    exact congrArg _ (r.recoverRetiredOutput_frame exactRetirementProof).1
  | route event ticket reply now output =>
    simp only [perform]
    rcases r.route_cases event ticket reply now output with ⟨key, _, _, hRoute⟩ | ⟨_, hRoute⟩
    · rw [hRoute]
      unfold routeOwned routeFresh
      repeat' split
      all_goals rfl
    · rw [hRoute]
  | originalOutcome event proposal stockAdmitted =>
    simp only [perform]
    rcases r.originalOutcome_cases event proposal stockAdmitted with
      ⟨key, _, _, _, _, _, _, hResult⟩ | ⟨hResult, _⟩
    · rw [hResult]
      rfl
    · rw [hResult]
  | retire id output =>
    simp only [perform, retire]
    split <;> rfl
  | revoke | lock | focusChanged | unlockConfirmed | disconnect => rfl

/- In between, presses neither begin nor end. -/
theorem perform_owned_iff (hInterim : call.interim = true) (id : Nat) (key : Key) :
    (r.perform call).1.owner id key = .none ↔ r.owner id key = .none := by
  by_cases hTracked : r.devices.Tracked id
  · rw [r.perform_owner call hTracked key]
    cases call with
    | add | retire | route => cases hInterim
    | revoke | lock => simp [ownerAfter]
    | originalOutcome event proposal stockAdmitted =>
      simp only [ownerAfter]
      split_ifs with hRefused
      · rcases hRefused with ⟨_, _, _, _, hOwner | hOwner, _⟩ <;> simp [hOwner]
      · exact Iff.rfl
    | _ => exact Iff.rfl
  · rw [r.perform_owner_of_not_tracked call hTracked key]
    simp [owner, r.devices.ownerOf_of_not_tracked hTracked key]

theorem perform_tracked_iff (hInterim : call.interim = true) (id : Nat) :
    (r.perform call).1.devices.Tracked id ↔ r.devices.Tracked id := by
  rw [perform_tracked]
  cases call with
  | add | retire | route => cases hInterim
  | _ => exact Iff.rfl

end Router

-----
-- Both Tables

/- Both tables list the same keyboards, and what is held is owned. -/
structure Coupled (p : PhysicalDevices) (r : Router) : Prop where
  tracked : ∀ id, p.Attached id ↔ r.devices.Tracked id
  owned : ∀ id key, p.Holds id key ↔ r.owner id key ≠ .none
  numbered : r.devices.lastGeneration < p.next

namespace PhysicalDevices

/- The slots of the attached keyboards. -/
def occupied (p : PhysicalDevices) : Finset Slot :=
  Finset.univ.filter (fun i => (p.slots i).identity ≠ 0)

/- The checks of `attach` before it looks for a slot. -/
structure Attachable (p : PhysicalDevices) (identity : Nat) (verifiedEvdev virtualDevice : Bool)
    (translation : Key → Nat) : Prop where
  named : identity ≠ 0
  verified : verifiedEvdev = true
  physical : virtualDevice = false
  unspent : p.next ≠ uint64Max
  fresh : ∀ i, (p.slots i).identity ≠ identity
  mapped : translates translation = true

end PhysicalDevices

namespace Coupled

variable {p p' : PhysicalDevices} {r : Router}

theorem init : Coupled PhysicalDevices.init init := by
  refine ⟨fun id => ?_, fun id key => ?_, by decide⟩
  · constructor
    · rintro ⟨i, hNonzero, _⟩
      exact absurd rfl hNonzero
    · rintro ⟨hNonzero, i, hId⟩
      exact absurd hId.symm hNonzero
  · constructor
    · rintro ⟨i, raw, hNonzero, _⟩
      exact absurd rfl hNonzero
    · intro hOwned
      exact absurd (init_owner id key) hOwned

theorem attach (hCoupled : Coupled p r) (identity : Nat) (verifiedEvdev virtualDevice : Bool)
    (translation : Key → Nat) :
    let result := p.attach identity verifiedEvdev virtualDevice translation r
    Coupled result.1 result.2.1 := by
  have hNumbered := hCoupled.numbered
  rcases p.attach_cases identity verifiedEvdev virtualDevice translation r with
    ⟨hHolds, ⟨hRouter, _, hNext, hAttached⟩ | ⟨hRouter, hAdded, _, hNext, hAttached⟩⟩
  · simp only [hRouter]
    refine ⟨fun id => (hAttached id).trans (hCoupled.tracked id),
      fun id key => (hHolds id key).trans (hCoupled.owned id key), by omega⟩
  · simp only [hRouter]
    refine ⟨fun id => ?_, fun id key => ?_, ?_⟩
    · rw [hAttached, add_tracked, hCoupled.tracked, hAdded]
      simp
    · rw [hHolds, add_owner]
      exact hCoupled.owned id key
    · unfold add at hAdded ⊢
      cases hAdd : r.devices.add p.next with
      | none => simp [hAdd] at hAdded
      | some devices =>
        have hLast := (Devices.add_eq_some hAdd).2.2.2.1
        simp only
        omega

theorem detach (hCoupled : Coupled p r) (identity : Nat) (output : Output) :
    let result := p.detach identity r output
    Coupled result.1 result.2.router := by
  have hNext := p.detach_next identity r output
  rcases p.detach_cases identity r output with hNone | ⟨id, _, hRouter, _, hAttached, hHolds⟩
  · rw [hNone]
    exact hCoupled
  · simp only [hRouter]
    refine ⟨fun id' => ?_, fun id' key => ?_, ?_⟩
    · rw [hAttached, retire_tracked, hCoupled.tracked]
    · rw [hHolds, retire_owner, hCoupled.owned]
      split_ifs with hSame <;> simp [hSame]
    · rw [hNext]
      have hLast := r.perform_lastGeneration (.retire id output) (by simp)
      exact hLast.trans_lt hCoupled.numbered

/- An event of the registry, routed. -/
theorem routed (hCoupled : Coupled p r) {id : Nat} {key : Key} {state : State} {down : Bool}
    (hReported : p.Reported p' id key state down) (hNext : p'.next = p.next)
    (ticket : Option Ticket) (reply : Option Decision) (now : Nat) (output : Output) :
    Coupled p' (r.route (.ofKey id key state) ticket reply now output).router := by
  refine ⟨fun id' => ?_, fun id' key' => ?_, ?_⟩
  · rw [hReported.attached_iff, route_tracked, hCoupled.tracked]
  · rw [hReported.holds_iff]
    by_cases hSame : id' = id ∧ key' = key
    · rw [if_pos hSame]
      rcases hSame with ⟨rfl, rfl⟩
      have hTracked := (hCoupled.tracked id').mp hReported.attached
      rw [route_owner_self _ _ _ _ _ _ _ _ hTracked]
      have hOwned := hCoupled.owned id' key'
      cases hReported.reports with
      | down hFree =>
        rw [hOwned, not_not] at hFree
        simp only [hFree, ownerRouted]
        split_ifs <;> simp
      | repeated hHeld | up hHeld =>
        rw [hOwned] at hHeld
        cases hOwner : r.owner id' key' <;>
          simp_all [ownerRouted]
    · rw [if_neg hSame, route_owner_other]
      · exact hCoupled.owned id' key'
      · rw [← Bool.not_eq_true, Event.concerns_ofKey]
        exact hSame
  · rw [hNext]
    have hLast := r.perform_lastGeneration (.route (.ofKey id key state) ticket reply now output)
        (by simp)
    exact hLast.trans_lt hCoupled.numbered

theorem interim (hCoupled : Coupled p r) {call : Call} (hInterim : call.interim = true) :
    Coupled p (r.perform call).1 where
  tracked := fun id => (hCoupled.tracked id).trans (perform_tracked_iff hInterim id).symm
  owned := fun id key =>
    (hCoupled.owned id key).trans (not_congr (perform_owned_iff hInterim id key)).symm
  numbered := by
    rw [r.perform_lastGeneration call (by rintro id rfl; cases hInterim)]
    exact hCoupled.numbered

/- The router has no more devices than there are keyboards. -/
theorem card_le (hCoupled : Coupled p r) :
    (Finset.univ.filter (fun i => (r.devices.slots i).id ≠ 0)).card ≤ p.occupied.card := by
  have hDistinct : Set.InjOn (fun i => (r.devices.slots i).id)
      (Finset.univ.filter (fun i => (r.devices.slots i).id ≠ 0)) := by
    intro i hi j _ hSame
    exact r.devices.distinct i j hSame (by simpa using hi)
  rw [← Finset.card_image_of_injOn hDistinct]
  refine (Finset.card_le_card ?_).trans
    (Finset.card_image_le (s := p.occupied) (f := fun i => (p.slots i).generation))
  intro id hMem
  simp only [Finset.mem_image, Finset.mem_filter_univ] at hMem
  rcases hMem with ⟨i, hNonzero, rfl⟩
  rcases (hCoupled.tracked _).mpr ⟨hNonzero, i, rfl⟩ with ⟨j, hOccupied, hSame⟩
  simp only [Finset.mem_image, PhysicalDevices.occupied, Finset.mem_filter_univ]
  exact ⟨j, hOccupied, hSame⟩

/- A keyboard that passes the checks finds a slot in both tables. -/
theorem attach_succeeds (hCoupled : Coupled p r) {identity : Nat} {verifiedEvdev virtualDevice : Bool}
    {translation : Key → Nat}
    (hAttachable : p.Attachable identity verifiedEvdev virtualDevice translation)
    (hRoom : p.occupied.card < deviceCount) :
    (p.attach identity verifiedEvdev virtualDevice translation r).2.2 = p.next ∧ p.next ≠ 0 := by
  have hNumbered := hCoupled.numbered
  refine ⟨?_, by omega⟩
  rcases Slots.exists_vacant hRoom with ⟨slot, hVacant⟩
  rcases Slots.exists_vacant (hCoupled.card_le.trans_lt hRoom) with ⟨place, hPlace⟩
  have hAdded : (r.add p.next).2 = true := by
    have hUnknown : (r.devices.find p.next).isSome = false := by
      rw [← Bool.not_eq_true, r.devices.isSome_find_iff]
      rintro ⟨_, i, hId⟩
      have hIssued := r.devices.issued i
      omega
    unfold add Devices.add
    rw [dif_neg (by simp [hUnknown]; omega)]
    split
    · rfl
    · rename_i hNone
      split at hNone
      · rename_i hFull
        rw [hPlace] at hFull
        cases hFull
      · cases hNone
  unfold PhysicalDevices.attach
  rw [if_neg (by simp [hAttachable.named, hAttachable.verified, hAttachable.physical,
    hAttachable.unspent]), dif_pos hAttachable.fresh, dif_pos hAttachable.mapped]
  simp only [hVacant, hAdded, if_true]

end Coupled

-----
-- Runs

/- A keyboard with a single key. -/
def Adapter.oneKey (raw : Key) : Nat := if raw.val = 30 then 30 else unmapped

namespace Registration

inductive Op where
  | attach (identity : Nat) (verifiedEvdev virtualDevice : Bool) (translation : Key → Nat)
  | detach (identity : Nat) (output : Output)
  | event (identity raw : Nat) (down : Bool) (ticket : Option Ticket) (reply : Option Decision)
      (now : Nat)
      (output : Output)
  | call (call : Call)

/- The result of `attach`, and the event that was routed. -/
inductive Out where
  | done
  | attached (generation : Nat)
  | routed (event : Event)
deriving DecidableEq

def step (a : Adapter) : Op → Option (Adapter × Out)
  | .attach identity verifiedEvdev virtualDevice translation =>
    let (physical, router, generation) :=
      a.physical.attach identity verifiedEvdev virtualDevice translation a.router
    some (⟨physical, router⟩, .attached generation)
  | .detach identity output =>
    let (physical, e) := a.physical.detach identity a.router output
    some (⟨physical, e.router⟩, .done)
  | .event identity raw down ticket reply now output =>
    match a.physical.event identity raw down with
    | (physical, none) => some (⟨physical, a.router⟩, .done)
    | (physical, some event) =>
      some (⟨physical, (a.router.route event ticket reply now output).router⟩, .routed event)
  | .call call =>
    if call.interim then some ({ a with router := (a.router.perform call).1 }, .done)
    else none

abbrev Entry := Transition.Entry Adapter Op Out

/- The generation a step hands out. -/
def Out.generation? : Out → Option Nat
  | .attached generation => if generation = 0 then none else some generation
  | _ => none

/- The generations handed out, in order. -/
def issued (trace : List Entry) : List Nat := trace.filterMap (fun e => e.out.generation?)

/- Down comes to keys without owner, Repeat and Up to owned keys. -/
def Matched (r : Router) (event : Event) : Prop :=
  ∃ key, event.key? = some key ∧ (event.state = .down ↔ r.owner event.device key = .none)

variable {a a' : Adapter} {op : Op} {out : Out} {trace : List Entry}

theorem step_coupled (hCoupled : Coupled a.physical a.router) (hStep : step a op = some (a', out)) :
    Coupled a'.physical a'.router ∧ ∀ event, out = .routed event → Matched a.router event := by
  cases op with
  | attach identity verifiedEvdev virtualDevice translation =>
    cases hStep
    exact ⟨hCoupled.attach identity verifiedEvdev virtualDevice translation, by simp⟩
  | detach identity output =>
    cases hStep
    exact ⟨hCoupled.detach identity output, by simp⟩
  | event identity raw down ticket reply now output =>
    have hNext := a.physical.event_next identity raw down
    rcases a.physical.event_cases identity raw down with
      hNone | ⟨p', id, key, state, hSome, hReported⟩
    · simp only [step, hNone] at hStep
      cases hStep
      exact ⟨hCoupled, by simp⟩
    · simp only [step, hSome] at hStep
      cases hStep
      rw [hSome] at hNext
      refine ⟨hCoupled.routed hReported hNext ticket reply now output, ?_⟩
      rintro event ⟨⟩
      refine ⟨key, Event.key?_ofKey .., ?_⟩
      have hOwned := hCoupled.owned id key
      cases hReported.reports with
      | down hFree => simpa [hOwned] using hFree
      | repeated hHeld | up hHeld => simpa [hOwned] using hHeld
  | call call =>
    simp only [step] at hStep
    split_ifs at hStep with hInterim
    cases hStep
    exact ⟨hCoupled.interim hInterim, by simp⟩

theorem run_coupled (hRun : Run step Adapter.init trace a) :
    Coupled a.physical a.router :=
  hRun.invariant (P := fun a => Coupled a.physical a.router) Coupled.init
    (fun _ _ _ _ hBefore hStep => (step_coupled hBefore hStep).1)

/- A generation is handed out once. -/
theorem step_next (hStep : step a op = some (a', out)) :
    a.physical.next ≤ a'.physical.next ∧ ∀ generation, out.generation? = some generation →
      generation = a.physical.next ∧ generation < a'.physical.next := by
  cases op with
  | attach identity verifiedEvdev virtualDevice translation =>
    simp only [step, Option.some.injEq, Prod.mk.injEq] at hStep
    rcases hStep with ⟨rfl, rfl⟩
    rcases a.physical.attach_cases identity verifiedEvdev virtualDevice translation a.router with
      ⟨_, ⟨_, hNone, hNext, _⟩ | ⟨_, _, hSome, hNext, _⟩⟩
    · exact ⟨hNext, by simp [hNone, Out.generation?]⟩
    · refine ⟨by simp only; omega, fun generation hIssued => ?_⟩
      simp only [hSome, Out.generation?] at hIssued
      split_ifs at hIssued
      cases hIssued
      exact ⟨rfl, by simp only; omega⟩
  | detach identity output =>
    cases hStep
    exact ⟨(a.physical.detach_next identity a.router output).ge, by simp [Out.generation?]⟩
  | event identity raw down ticket reply now output =>
    have hNext := a.physical.event_next identity raw down
    simp only [step] at hStep
    split at hStep
    all_goals
      rename_i hEvent
      rw [hEvent] at hNext
      cases hStep
      exact ⟨hNext.ge, by simp [Out.generation?]⟩
  | call call =>
    simp only [step] at hStep
    split_ifs at hStep
    cases hStep
    exact ⟨le_rfl, by simp [Out.generation?]⟩

theorem run_issued (hRun : Run step Adapter.init trace a) :
    (issued trace).Pairwise (· < ·) ∧ ∀ generation ∈ issued trace, generation < a.physical.next := by
  induction hRun with
  | nil => simp [issued]
  | @snoc trace last next op out _ hStep ih =>
    rcases step_next hStep with ⟨hNext, hIssued⟩
    have hSplit : issued (trace ++ [⟨last, op, out⟩]) = issued trace ++ out.generation?.toList := by
      rw [issued, List.filterMap_append]
      cases hOut : out.generation? <;> simp [issued, hOut]
    rw [hSplit]
    cases hOut : out.generation? with
    | none =>
      rw [Option.toList_none, List.append_nil]
      exact ⟨ih.1, fun g hMem => (ih.2 g hMem).trans_le hNext⟩
    | some generation =>
      rcases hIssued generation hOut with ⟨rfl, hLess⟩
      rw [Option.toList_some]
      refine ⟨List.pairwise_append.mpr ⟨ih.1, List.pairwise_singleton _ _, ?_⟩, ?_⟩
      · simpa using ih.2
      · rw [List.forall_mem_append, List.forall_mem_singleton]
        exact ⟨fun g hMem => (ih.2 g hMem).trans_le hNext, hLess⟩

/-
  The keyboards are the devices of the router, room for one means that one can be attached,
  no generation is used twice, and owned are exactly the keys whose raw code is held.
-/
theorem physical_coupled (hRun : Run step Adapter.init trace a) :
    (∀ id, a.physical.Attached id ↔ a.router.devices.Tracked id) ∧
      (∀ identity verifiedEvdev virtualDevice translation,
        a.physical.Attachable identity verifiedEvdev virtualDevice translation →
        a.physical.occupied.card < deviceCount →
        let result :=
          a.physical.attach identity verifiedEvdev virtualDevice translation a.router
        result.2.2 = a.physical.next ∧ result.2.2 ≠ 0) ∧
      (issued trace).Pairwise (· < ·) ∧
      (∀ i key raw, (a.physical.slots i).identity ≠ 0 → (a.physical.slots i).physical raw = key.val →
        (a.router.owner (a.physical.slots i).generation key ≠ .none ↔
          (a.physical.slots i).held raw = true) ∧
        ∀ raw', (a.physical.slots i).physical raw' = key.val → raw' = raw) ∧
      (∀ id key, a.router.owner id key ≠ .none → a.physical.Holds id key) ∧
      ∀ e ∈ trace, ∀ event, e.out = .routed event → Matched e.pre.router event := by
  have hCoupled := run_coupled hRun
  refine ⟨hCoupled.tracked, ?_, (run_issued hRun).1, ?_, ?_, ?_⟩
  · intro identity verifiedEvdev virtualDevice translation hAttachable hRoom
    rcases hCoupled.attach_succeeds hAttachable hRoom with ⟨hSame, hNonzero⟩
    exact ⟨hSame, hSame.trans_ne hNonzero⟩
  · intro i key raw hNonzero hKey
    refine ⟨?_, ?_⟩
    · rw [← hCoupled.owned, PhysicalDevices.holds_iff hNonzero hKey]
    · intro raw' hKey'
      by_contra hOther
      have hNone := (a.physical.translated i hNonzero).injective raw' raw hOther
          (hKey'.trans hKey.symm)
      exact PhysicalDevices.mapped_of_val key (hKey'.symm.trans hNone)
  · intro id key hOwned
    exact (hCoupled.owned id key).mpr hOwned
  · intro e hMem event hRouted
    rcases List.append_of_mem hMem with ⟨front, rest, rfl⟩
    rcases hRun.upto with ⟨mid, hUpto⟩
    rcases hUpto.concat_inv with ⟨hFront, hStep⟩
    exact (step_coupled (run_coupled hFront) hStep).2 event hRouted

/- A keyboard is attached and its key pressed twice. -/
def repeatedPress : List Op :=
  [.attach 1 true false Adapter.oneKey, .event 1 30 true none none 0 .compliant,
    .call .unlockConfirmed, .event 1 30 true none none 0 .compliant]

theorem physical_coupled_repeatedPress :
    let trace := entriesOf step Adapter.init repeatedPress
    let a := lastOf step Adapter.init repeatedPress
    issued trace = [1] ∧ a.router.owner 1 ⟨30, by decide⟩ = .lockerOwned ∧
      ∀ id, a.physical.Attached id ↔ a.router.devices.Tracked id := by
  refine ⟨by decide +kernel, by decide +kernel, ?_⟩
  exact (physical_coupled (.of_isSome (by decide +kernel))).1

end Registration

-----
-- Adapters

namespace Adapter

variable {a a' : Adapter} {op : Op} {answer : Answer} {trace : List Entry}

theorem step_coupled (hCoupled : Coupled a.physical a.router) (hRegistered : a.Registered op)
    (hStep : a.step op = some (a', answer)) : Coupled a'.physical a'.router := by
  cases op with
  | attach identity verifiedEvdev virtualDevice translation =>
    cases hStep
    exact hCoupled.attach identity verifiedEvdev virtualDevice translation
  | detach identity output =>
    cases hStep
    exact hCoupled.detach identity output
  | key identity raw down ticket reply now output stockAdmitted =>
    have hNext := a.physical.event_next identity raw down
    rcases a.physical.event_cases identity raw down with
      hNone | ⟨p', id, key, state, hSome, hReported⟩
    · simp only [step, hNone] at hStep
      cases hStep
      exact hCoupled
    · simp only [step, hSome] at hStep
      cases hStep
      rw [hSome] at hNext
      have hRouted := hCoupled.routed hReported hNext ticket reply now output
      simp only [routeFinal]
      split
      · exact hRouted.interim (show (Call.originalOutcome _ _ stockAdmitted).interim from rfl)
      · exact hRouted
  | call call =>
    simp only [step] at hStep
    split_ifs at hStep with hDirect
    cases hStep
    cases call with
    | retire id output =>
      have hUnknown : a.router.tracks id = false := by
        rw [← Bool.not_eq_true, tracks_iff, ← hCoupled.tracked]
        exact hRegistered
      simp only [perform, retire, hUnknown]
      exact hCoupled
    | add | route | originalOutcome => cases hDirect
    | _ => exact hCoupled.interim rfl

/- Registered runs own exactly the keys that are held. -/
theorem run_tracking (hRun : Run step init trace a)
    (hRegistered : ∀ e ∈ trace, e.pre.Registered e.op) : a.Tracking := by
  have hCoupled : Coupled a.physical a.router :=
    hRun.invariant_of (P := fun a => Coupled a.physical a.router) Coupled.init
      (fun _ _ _ _ hBefore hOp hStep => step_coupled hBefore hOp hStep) hRegistered
  intro id hAttached
  exact ⟨(hCoupled.tracked id).mp hAttached, fun key => (hCoupled.owned id key).mp⟩

end Adapter

end Sledge.Native
