import Sledge.Native.PhysicalDevices
import Sledge.Native.StockOutcome

/-
  The router driven by physical keyboards.

  Keyboards are attached and detached through the registry,
  every event of the registry is routed, and the stock route
  answers every routed key down at once.  The other router
  calls come in between in any order.  What reaches clients
  is read off the results and the calls on the compositor.

  Main results:
    * `Adapter.step_moves`
    * `Adapter.Reachable.backed`
    * `Adapter.Reachable.confined`
-/

-----
-- Steps

namespace Sledge.Native

open Transition Event

namespace Router

/- Route an event; a key down gets its stock outcome at once. -/
def routeFinal (r : Router) (event : Event) (ticket : Option Ticket) (reply : Option Decision)
    (now : Nat) (output : Output) (stockAdmitted : Bool) : Effect RouteResult :=
  let e := r.route event ticket reply now output
  if event.state = .down then
    let (router, final) := e.router.originalOutcome event e.value stockAdmitted
    ⟨router, final, e.calls⟩
  else e

/- The calls that are not made by the registry or a key. -/
def Call.direct : Call → Bool
  | .add _ => false
  | .route .. => false
  | .originalOutcome .. => false
  | _ => true

end Router

structure Adapter where
  physical : PhysicalDevices
  router : Router

namespace Adapter

def init : Adapter where
  physical := PhysicalDevices.init
  router := Router.init

inductive Op where
  | attach (identity : Nat) (verifiedEvdev virtualDevice : Bool) (translation : Key → Nat)
  | detach (identity : Nat) (output : Output)
  | key (identity raw : Nat) (down : Bool) (ticket : Option Ticket) (reply : Option Decision)
      (now : Nat)
      (output : Output)
      (stockAdmitted : Bool)
  | call (call : Router.Call)

/- The final result of a key event, and the output calls. -/
structure Answer where
  final : Option (Event × RouteResult)
  calls : List OutputCall

def step (a : Adapter) : Op → Option (Adapter × Answer)
  | .attach identity verifiedEvdev virtualDevice translation =>
      let (physical, router, _) :=
        a.physical.attach identity verifiedEvdev virtualDevice translation a.router
      some (⟨physical, router⟩, ⟨none, []⟩)
  | .detach identity output =>
    let (physical, e) := a.physical.detach identity a.router output
    some (⟨physical, e.router⟩, ⟨none, e.calls⟩)
  | .key identity raw down ticket reply now output stockAdmitted =>
      match a.physical.event identity raw down with
      | (physical, none) => some (⟨physical, a.router⟩, ⟨none, []⟩)
      | (physical, some event) =>
        let e := a.router.routeFinal event ticket reply now output stockAdmitted
        some (⟨physical, e.router⟩, ⟨some (event, e.value), e.calls⟩)
  | .call call =>
    if call.direct then
      let (router, answer) := a.router.perform call
      some ({ a with router := router }, ⟨none, answer.calls⟩)
    else none

abbrev Entry := Transition.Entry Adapter Op Answer

def Reachable (a : Adapter) : Prop := ∃ trace, Run step init trace a

/- What a client or the locker sees of a step. -/
inductive Observation where
  | down (key : Key) (locker : Bool)
  | up (key : Key) (locker : Bool)
  | replaced (target : Nat) (restore : Mask)
  | released (key : Key)
  | reconciled (sides : Mask)
deriving DecidableEq

def observeCall : OutputCall → Observation
  | .replace key _ restore => .replaced key restore
  | .release key => .released key
  | .reconcileModifiers sides => .reconciled sides

/- Delivered presses and releases; repeats are not counted. -/
def observeFinal (event : Event) (result : RouteResult) : List Observation :=
  let locker := decide (result.outcome = .lockerOwned)
  match event.key?, result.deliverClient, event.state with
  | some key, true, .down => [.down key locker]
  | some key, true, .up => [.up key locker]
  | _, _, _ => []

theorem observeFinal_down (id : Nat) (key : Key) (result : RouteResult) :
    observeFinal (.ofKey id key .down) result = if result.deliverClient then
        [.down key (decide (result.outcome = .lockerOwned))]
      else [] := by
  unfold observeFinal
  rw [key?_ofKey]
  cases result.deliverClient <;> rfl

theorem observeFinal_up (id : Nat) (key : Key) (result : RouteResult) :
    observeFinal (.ofKey id key .up) result = if result.deliverClient then
        [.up key (decide (result.outcome = .lockerOwned))]
      else [] := by
  unfold observeFinal
  rw [key?_ofKey]
  cases result.deliverClient <;> rfl

theorem observeFinal_repeated (id : Nat) (key : Key) (result : RouteResult) :
    observeFinal (.ofKey id key .repeated) result = [] := by
  unfold observeFinal
  rw [key?_ofKey]
  cases result.deliverClient <;> rfl

def Answer.observed (answer : Answer) : List Observation :=
  answer.calls.map observeCall ++
    match answer.final with
    | some (event, result) => observeFinal event result
    | none => []

/- Everything seen in a run, in order. -/
def observations (trace : List Entry) : List Observation := trace.flatMap (fun e => e.out.observed)

theorem observations_snoc (front : List Entry) (last : Adapter) (op : Op) (answer : Answer) :
    observations (front ++ [⟨last, op, answer⟩]) = observations front ++ answer.observed := by
  simp [observations]

-----
-- Kinds Of Steps

/- What a step does, in terms of held and owned keys. -/
inductive Moves (a a' : Adapter) : Op → Answer → Prop where
  | idle {op : Op} (hRouter : a'.router = a.router) (hAttached :
        ∀ id, a'.physical.Attached id ↔ a.physical.Attached id)
      (hHolds : ∀ id key, a'.physical.Holds id key ↔ a.physical.Holds id key) :
      Moves a a' op ⟨none, []⟩
  | attached {op : Op} (new : Nat) (hNew : ¬ a.physical.Attached new)
      (hAdded : (a.router.add new).2 = true)
      (hRouter : a'.router = (a.router.add new).1)
      (hAttached : ∀ id, a'.physical.Attached id ↔ a.physical.Attached id ∨ id = new)
      (hHolds : ∀ id key, a'.physical.Holds id key ↔ a.physical.Holds id key) :
      Moves a a' op ⟨none, []⟩
  | detached {identity : Nat} {output : Output} (id : Nat)
      (hGeneration : a.physical.generation? identity = some id)
      (hRouter : a'.router = (a.router.retire id output).router)
      (hAttached : ∀ id', a'.physical.Attached id' ↔ a.physical.Attached id' ∧ id' ≠ id)
      (hHolds : ∀ id' key, a'.physical.Holds id' key ↔ a.physical.Holds id' key ∧ id' ≠ id) :
      Moves a a' (.detach identity output) ⟨none, (a.router.retire id output).calls⟩
  | routed {identity raw : Nat} {down : Bool} {ticket : Option Ticket} {reply : Option Decision}
      {now : Nat}
      {output : Output}
      {stockAdmitted : Bool}
      (id : Nat)
      (key : Key)
      (state : State)
      (hEvent : (a.physical.event identity raw down).2 = some (.ofKey id key state))
      (hReported : a.physical.Reported a'.physical id key state down)
      (hRouter : a'.router = (a.router.routeFinal (.ofKey id key state)
            ticket reply now output stockAdmitted).router) :
      Moves a a' (.key identity raw down ticket reply now output stockAdmitted) ⟨some
            ((.ofKey id key state), (a.router.routeFinal (.ofKey id key state)
                ticket reply now output stockAdmitted).value),
          (a.router.routeFinal (.ofKey id key state) ticket reply now output stockAdmitted).calls⟩
  | called {call : Router.Call} (hDirect : call.direct = true)
      (hRouter : a'.router = (a.router.perform call).1)
      (hPhysical : a'.physical = a.physical) :
      Moves a a' (.call call) ⟨none, (a.router.perform call).2.calls⟩

theorem step_moves {a a' : Adapter} {op : Op} {answer : Answer}
    (hStep : a.step op = some (a', answer)) : Moves a a' op answer := by
  cases op with
  | attach identity verifiedEvdev virtualDevice translation =>
    cases hStep
    have hCases := a.physical.attach_cases identity verifiedEvdev virtualDevice translation a.router
    rcases hCases with ⟨hHolds, ⟨hRouter, _, _, hAttached⟩ | ⟨hRouter, hAdded, _, _, hAttached⟩⟩
    · exact .idle hRouter hAttached hHolds
    · refine .attached a.physical.next ?_ hAdded hRouter hAttached hHolds
      intro hOld
      have hLt := hOld.lt_next
      omega
  | detach identity output =>
    simp only [step, Option.some.injEq, Prod.mk.injEq] at hStep
    rcases hStep with ⟨rfl, rfl⟩
    rcases a.physical.detach_cases identity a.router output with hNone |
      ⟨id, hId, hRouter, hCalls, hAttached, hHolds⟩
    · rw [hNone]
      exact .idle rfl (fun _ => Iff.rfl) (fun _ _ => Iff.rfl)
    · rw [hCalls]
      exact .detached id hId hRouter hAttached hHolds
  | key identity raw down ticket reply now output stockAdmitted =>
      rcases a.physical.event_cases identity raw down with
        hNone | ⟨p', id, key, state, hSome, hReported⟩
      · simp only [step, hNone, Option.some.injEq, Prod.mk.injEq] at hStep
        rcases hStep with ⟨rfl, rfl⟩
        exact .idle rfl (fun _ => Iff.rfl) (fun _ _ => Iff.rfl)
      · simp only [step, hSome, Option.some.injEq, Prod.mk.injEq] at hStep
        rcases hStep with ⟨rfl, rfl⟩
        exact .routed id key state (by rw [hSome]) hReported rfl
  | call call =>
    simp only [step] at hStep
    split at hStep
    · rename_i hDirect
      cases hStep
      exact .called hDirect rfl rfl
    · simp at hStep

end Adapter

-----
-- Routed Events

namespace Router

variable (r : Router) (id : Nat) (key : Key) (state : State) (ticket : Option Ticket)
variable (reply : Option Decision) (now : Nat) (output : Output) (stockAdmitted : Bool)

theorem routeFinal_tracked (id' : Nat) : (r.routeFinal (.ofKey id key state) ticket reply now
        output stockAdmitted).router.devices.Tracked id' ↔
      r.devices.Tracked id' := by
  unfold routeFinal
  simp only
  split
  · rw [originalOutcome_tracked, route_tracked]
  · rw [route_tracked]

theorem route_owner_other {event : Event} {id' : Nat} {key' : Key}
    (hOther : event.concerns id' key' = false) :
    (r.route event ticket reply now output).router.owner id' key' = r.owner id' key' := by
  by_cases hTracked : r.devices.Tracked id'
  · rw [r.route_owner event ticket reply now output hTracked]
    simp [hOther]
  · refine (r.perform_owner_of_not_tracked (.route event ticket reply now output) hTracked
      key').trans ?_
    exact (r.devices.ownerOf_of_not_tracked hTracked key').symm

theorem routeFinal_owner_other {id' : Nat} {key' : Key} (hOther : ¬ (id' = id ∧ key' = key)) :
    (r.routeFinal (.ofKey id key state) ticket reply now
        output stockAdmitted).router.owner id' key' =
      r.owner id' key' := by
  have hConcerns : (ofKey id key state).concerns id' key' =
      false := by
    rw [← Bool.not_eq_true, concerns_ofKey]
    exact hOther
  unfold routeFinal
  simp only
  split
  · rw [originalOutcome_owner, if_neg]
    · exact route_owner_other _ _ _ _ _ hConcerns
    · intro h
      simp only [key?_ofKey, Option.some.injEq] at h
      exact hOther ⟨h.1.symm, h.2.1.symm⟩
  · exact route_owner_other _ _ _ _ _ hConcerns

/- The owner of the routed key before its stock outcome. -/
theorem route_owner_self (hTracked : r.devices.Tracked id) :
    (r.route (.ofKey id key state) ticket reply now output).router.owner id key =
      r.ownerRouted state (r.decideDown (.ofKey id key state) ticket reply now output).verdict
        (r.owner id key) := by
  rw [r.route_owner _ ticket reply now output hTracked, if_pos (concerns_ofKey_self ..)]
  rfl

theorem routeFinal_owner_up : (r.routeFinal (.ofKey id key .up) ticket reply now
        output stockAdmitted).router.owner id key = .none := by
  by_cases hTracked : r.devices.Tracked id
  · have hOwner := r.route_owner_self id key .up ticket reply now output hTracked
    simp only [routeFinal, ofKey, reduceCtorEq, if_false] at hOwner ⊢
    rw [hOwner]
    cases r.owner id key <;> rfl
  · apply Devices.ownerOf_of_not_tracked
    rw [routeFinal_tracked]
    exact hTracked

theorem routeFinal_repeated :
    (r.routeFinal (.ofKey id key .repeated) ticket reply now output stockAdmitted).router = r ∧
      (r.routeFinal (.ofKey id key .repeated) ticket reply now output stockAdmitted).calls = [] := by
  simp only [routeFinal, ofKey, reduceCtorEq, if_false]
  rcases r.route_cases (.ofKey id key .repeated) ticket reply now output with
    ⟨key', _, _, hRoute⟩ | ⟨_, hRoute⟩
  · simp only [ofKey] at hRoute
    rw [hRoute]
    by_cases hOwned : r.owner id key' = .none
    · simp [hOwned]
    · simp [hOwned, routeOwned]
  · simp only [ofKey] at hRoute
    rw [hRoute]
    exact ⟨rfl, rfl⟩

/- A router property kept by every call is kept by events. -/
theorem routeFinal_invariant {P : Router → Prop} (hPerform : ∀ r call, P r → P (r.perform call).1)
    (hStart : P r) (event : Event) :
    P (r.routeFinal event ticket reply now output stockAdmitted).router := by
  have hRoute := hPerform r (.route event ticket reply now output) hStart
  unfold routeFinal
  simp only
  split
  · exact hPerform _ (.originalOutcome event (r.route event ticket reply now output).value
      stockAdmitted) hRoute
  · exact hRoute

-----
-- Final Results

variable {r : Router} {id : Nat} {key : Key}

theorem routeFinal_original {e : Effect RouteResult}
    (hRoute : r.route (.ofKey id key .down) ticket reply now output = e)
    (hOriginal : e.value.outcome = .merged ∨ e.value.deliverClient = true)
    (hOwner : e.router.owner id key = .forwarded ∨ e.router.owner id key = .lockerOwned) :
    let final :=
      r.routeFinal (.ofKey id key .down) ticket reply now output stockAdmitted
    (stockAdmitted = true → final = e) ∧ (stockAdmitted = false →
        final.value = ⟨.stockConsumed, true, false, false⟩ ∧
          final.router.owner id key = .stockConsumed) := by
  have hDown : (ofKey id key .down).state = .down := rfl
  simp only [routeFinal, hRoute, hDown, if_true]
  rcases e.router.originalOutcome_cases (.ofKey id key .down) e.value stockAdmitted with
    ⟨key', hKey, hDevice, _, _, _, rfl, hResult⟩ | ⟨hResult, hNone⟩
  · simp only [key?_ofKey, Option.some.injEq] at hKey
    subst hKey
    rw [hResult]
    refine ⟨by simp, fun _ => ⟨rfl, ?_⟩⟩
    refine (e.router.devices.ownerOf_setOwner hDevice ..).trans ?_
    simp [ofKey]
  · rw [hResult]
    refine ⟨fun _ => rfl, ?_⟩
    intro hRefused
    exact absurd ⟨key, key?_ofKey .., rfl, hOriginal, hOwner, hRefused⟩ hNone

/- Output is made before the stock route is asked. -/
theorem routeFinal_calls (event : Event) :
    (r.routeFinal event ticket reply now output stockAdmitted).calls =
      (r.route event ticket reply now output).calls := by
  unfold routeFinal
  simp only
  split <;> rfl

/- The stock route delivers nothing by itself. -/
theorem routeFinal_undelivered {event : Event}
    (hClient : (r.route event ticket reply now output).value.deliverClient = false) :
    (r.routeFinal event ticket reply now output stockAdmitted).value.deliverClient = false := by
  unfold routeFinal
  simp only
  split
  · rcases (r.route event ticket reply now output).router.originalOutcome_cases event
          (r.route event ticket reply now output).value
          stockAdmitted with
      ⟨_, _, _, _, _, _, _, hResult⟩ | ⟨hResult, _⟩
    · rw [hResult]
    · rw [hResult]
      exact hClient
  · exact hClient

theorem routeFinal_consumed {e : Effect RouteResult}
    (hRoute : r.route (.ofKey id key .down) ticket reply now output = e)
    (hOwner : e.router.owner id key = .consumed) :
    r.routeFinal (.ofKey id key .down) ticket reply now output stockAdmitted = e := by
  have hDown : (ofKey id key .down).state = .down := rfl
  simp only [routeFinal, hRoute, hDown, if_true]
  rcases e.router.originalOutcome_cases (.ofKey id key .down) e.value stockAdmitted with
    ⟨key', hKey, _, _, _, hOriginal, _, _⟩ | ⟨hResult, _⟩
  · simp only [key?_ofKey, Option.some.injEq] at hKey
    subst hKey
    have hSame : e.router.owner (ofKey id key .down).device key =
        .consumed := hOwner
    rw [hSame] at hOriginal
    simp at hOriginal
  · rw [hResult]

/- A press under the lock goes to the locker if admitted. -/
theorem routeFinal_down_locked (hTracked : r.devices.Tracked id) (hOwner : r.owner id key = .none)
    (hLocked : r.locked = true) :
    let e :=
      r.routeFinal (.ofKey id key .down) ticket reply now output stockAdmitted
    e.calls = [] ∧ e.value.deliverClient = stockAdmitted ∧ (e.value.outcome = .lockerOwned ↔
        stockAdmitted = true) ∧
      e.router.owner id key = if stockAdmitted then .lockerOwned
        else .stockConsumed := by
  have hConcerns := concerns_ofKey_self id key .down
  have hRoute := route_of_unowned hTracked hConcerns rfl hOwner ticket reply now output
  rw [hLocked, if_pos rfl] at hRoute
  have hSet : (r.devices.setOwner id key .lockerOwned).ownerOf id key = .lockerOwned := by
    rw [r.devices.ownerOf_setOwner hTracked]
    simp
  have hFinal := routeFinal_original ticket reply now output stockAdmitted
      hRoute (.inr rfl) (.inr hSet)
  refine ⟨?_, ?_⟩
  · rw [routeFinal_calls, hRoute]
  · cases stockAdmitted with
    | true =>
      rw [hFinal.1 rfl]
      exact ⟨rfl, by simp, hSet⟩
    | false =>
      rcases hFinal.2 rfl with ⟨hValue, hAfter⟩
      rw [hValue, hAfter]
      exact ⟨rfl, by simp, rfl⟩

/- A press while unlocked is delivered when nobody holds it. -/
theorem routeFinal_down_unlocked (hTracked : r.devices.Tracked id) (hOwner : r.owner id key = .none)
    (hUnlocked : r.locked = false) :
    let e :=
      r.routeFinal (.ofKey id key .down) ticket reply now output stockAdmitted
    e.calls = (r.decideDown (.ofKey id key .down) ticket reply now output).calls ∧
      ((e.value.deliverClient = true ∧ e.value.outcome ≠ .lockerOwned ∧
          e.router.owner id key = .forwarded ∧
          r.devices.otherForwarded id key = false) ∨
        (e.value.deliverClient = false ∧ (e.router.owner id key = .forwarded →
            r.devices.otherForwarded id key = true))) := by
  have hConcerns := concerns_ofKey_self id key .down
  have hRoute := route_fresh hTracked hConcerns rfl hOwner hUnlocked ticket reply now output
  have hDevice : r.devices.Tracked (ofKey id key .down).device := hTracked
  have hFresh := r.routeFresh_owner hDevice key (r.decideDown (.ofKey id key .down) ticket reply now
      output) id key
  rw [if_pos ⟨rfl, rfl⟩] at hFresh
  refine ⟨by rw [routeFinal_calls, hRoute]; rfl, ?_⟩
  by_cases hPass : (r.decideDown (.ofKey id key .down) ticket reply now output).verdict = .pass
  · rw [if_pos hPass] at hFresh
    cases hOther : r.devices.otherForwarded id key with
    | true =>
      refine .inr ⟨?_, by simp⟩
      apply routeFinal_undelivered
      rw [hRoute, routeFresh_deliverClient]
      simp [hOther]
    | false =>
      have hDeliver : (r.routeFresh (.ofKey id key .down) key
          (r.decideDown (.ofKey id key .down) ticket reply now output)).value.deliverClient =
          true := by
        rw [routeFresh_deliverClient]
        simp [hPass, hOther]
      have hFinal := routeFinal_original ticket reply now output
          stockAdmitted hRoute (.inr hDeliver)
          (.inl hFresh)
      cases stockAdmitted with
      | true =>
        rw [hFinal.1 rfl]
        refine .inl ⟨hDeliver, ?_, hFresh, rfl⟩
        apply routeFresh_outcome
        rw [decideDown_pass hPass]
        split <;> simp
      | false =>
        rcases hFinal.2 rfl with ⟨hValue, hAfter⟩
        rw [hValue, hAfter]
        exact .inr ⟨rfl, by simp⟩
  · rw [if_neg hPass] at hFresh
    rw [routeFinal_consumed ticket reply now output stockAdmitted hRoute hFresh]
    refine .inr ⟨?_, ?_⟩
    · rw [routeFresh_deliverClient]
      simp [hPass]
    · rw [hFresh]
      simp

/- Unknown keyboards and unowned releases bypass. -/
theorem routeFinal_bypass {state : State}
    (hUnknown : ¬ r.devices.Tracked id ∨ (r.owner id key = .none ∧ state ≠ .down)) :
    r.routeFinal (.ofKey id key state) ticket reply now output stockAdmitted = ⟨r, bypass, []⟩ := by
  have hRoute : r.route (.ofKey id key state) ticket reply now output = ⟨r, bypass, []⟩ := by
    rcases r.route_cases (.ofKey id key state) ticket reply now output with
      ⟨key', hConcerns, hTracked, hRoute⟩ | ⟨_, hRoute⟩
    · rcases hUnknown with hNot | ⟨hOwner, hState⟩
      · exact absurd hTracked hNot
      · have hKey := ((concerns_ofKey ..).mp hConcerns).2
        subst hKey
        have hFree : r.owner (ofKey id key' state).device key' =
            .none := hOwner
        have hNotDown : (ofKey id key' state).state ≠ .down := hState
        rw [hRoute, if_neg (not_not.mpr hFree), if_pos hNotDown]
    · exact hRoute
  simp only [routeFinal, hRoute]
  split
  · rename_i hDown
    rcases hUnknown with hNot | ⟨_, hState⟩
    · rcases r.originalOutcome_cases (.ofKey id key state) bypass stockAdmitted with
        ⟨_, _, hTracked, _⟩ | ⟨hResult, _⟩
      · exact absurd hTracked hNot
      · rw [hResult]
    · exact absurd hDown hState
  · rfl

/- A release goes to whoever got the press. -/
theorem routeFinal_up (hOwner : r.owner id key ≠ .none) :
    let e :=
      r.routeFinal (.ofKey id key .up) ticket reply now output stockAdmitted
    e.calls = [] ∧ ((e.value.deliverClient = true ∧ e.value.outcome ≠ .lockerOwned ∧
          r.owner id key = .forwarded ∧
          r.devices.otherForwarded id key = false) ∨
        (e.value.deliverClient = true ∧ e.value.outcome = .lockerOwned ∧ r.locked = true ∧
          r.owner id key = .lockerOwned) ∨
        (e.value.deliverClient = false ∧ (r.owner id key = .lockerOwned → r.locked = false) ∧
          (r.owner id key = .forwarded → r.devices.otherForwarded id key = true))) := by
  have hConcerns := concerns_ofKey_self id key .up
  have hRoute := route_of_owned hConcerns hOwner ticket reply now output
  simp only [routeFinal, ofKey, reduceCtorEq, if_false] at hRoute ⊢
  rw [hRoute]
  refine ⟨rfl, ?_⟩
  unfold owner at hOwner ⊢
  simp only [routeOwned]
  cases hPrevious : r.devices.ownerOf id key with
  | none => exact absurd hPrevious hOwner
  | forwarded =>
    cases hOther : r.devices.otherForwarded id key
    all_goals simp
  | lockerOwned =>
    cases hLocked : r.locked
    all_goals simp
  | consumed | quarantined | stockConsumed => simp

end Router

-----
-- Held And Owned Keys

namespace Adapter

/- Whatever the router owns is physically held. -/
def Backed (a : Adapter) : Prop := ∀ id key, a.router.owner id key ≠ .none → a.physical.Holds id key

/- Attached keyboards are tracked and their keys owned. -/
def Tracking (a : Adapter) : Prop :=
  ∀ id, a.physical.Attached id → a.router.devices.Tracked id ∧ ∀ key, a.physical.Holds id key →
        a.router.owner id key ≠ .none

/- Only events of keyboards give a key an owner. -/
theorem perform_owner_of_direct {r : Router} {call : Router.Call} (hDirect : call.direct = true)
    {id : Nat} {key : Key} (hOwner : r.owner id key = .none) :
    (r.perform call).1.owner id key = .none := by
  by_cases hTracked : r.devices.Tracked id
  · rw [r.perform_owner call hTracked key]
    cases call with
    | add | route | originalOutcome => simp [Router.Call.direct] at hDirect
    | revoke | lock | retire => simp [Router.ownerAfter, hOwner]
    | _ => exact hOwner
  · exact r.perform_owner_of_not_tracked call hTracked key

variable {a a' : Adapter} {op : Op} {answer : Answer}

theorem Moves.backed (hMoves : Moves a a' op answer) (hBacked : a.Backed) : a'.Backed := by
  intro id' key' hOwned
  cases hMoves with
  | idle hRouter _ hHolds =>
    rw [hRouter] at hOwned
    exact (hHolds id' key').mpr (hBacked id' key' hOwned)
  | attached new _ _ hRouter _ hHolds =>
    rw [hRouter, Router.add_owner] at hOwned
    exact (hHolds id' key').mpr (hBacked id' key' hOwned)
  | detached id _ hRouter _ hHolds =>
    rw [hRouter, Router.retire_owner] at hOwned
    split at hOwned
    · simp at hOwned
    · rename_i hOther
      exact (hHolds id' key').mpr ⟨hBacked id' key' hOwned, hOther⟩
  | routed id key state _ hReported hRouter =>
    rw [hRouter] at hOwned
    rw [hReported.holds_iff]
    by_cases hSame : id' = id ∧ key' = key
    · rw [if_pos hSame]
      rcases hSame with ⟨rfl, rfl⟩
      cases hReported.reports with
      | down | repeated => rfl
      | up => exact absurd (Router.routeFinal_owner_up ..) hOwned
    · rw [if_neg hSame]
      rw [Router.routeFinal_owner_other _ _ _ _ _ _ _ _ _ hSame] at hOwned
      exact hBacked id' key' hOwned
  | called hDirect hRouter hPhysical =>
    rw [hPhysical]
    apply hBacked
    intro hNone
    rw [hRouter] at hOwned
    exact hOwned (perform_owner_of_direct hDirect hNone)

theorem init_backed : init.Backed := by
  intro id key hOwned
  exact absurd (Router.init_owner id key) hOwned

theorem Reachable.backed (hReachable : a.Reachable) : a.Backed := by
  rcases hReachable with ⟨trace, hRun⟩
  refine hRun.invariant init_backed ?_
  intro b op c answer hBacked hStep
  exact (step_moves hStep).backed hBacked

/- A retirement goes through the registry. -/
def Registered (a : Adapter) : Op → Prop
  | .call (.retire id _) => ¬ a.physical.Attached id
  | _ => True

/- The router of an adapter keeps what every call keeps. -/
theorem Reachable.router {P : Router → Prop} (hInit : P Router.init)
    (hPerform : ∀ r call, P r → P (r.perform call).1) (hReachable : a.Reachable) : P a.router := by
  rcases hReachable with ⟨trace, hRun⟩
  refine hRun.invariant (P := fun a => P a.router) hInit ?_
  intro b op c answer hStart hStep
  cases step_moves hStep with
  | idle hRouter =>
    rw [hRouter]
    exact hStart
  | attached new _ _ hRouter =>
    rw [hRouter]
    exact hPerform b.router (.add new) hStart
  | @detached _ output id _ hRouter =>
    rw [hRouter]
    exact hPerform b.router (.retire id output) hStart
  | routed id key state _ _ hRouter =>
    rw [hRouter]
    exact Router.routeFinal_invariant _ _ _ _ _ _ hPerform hStart _
  | called _ hRouter =>
    rw [hRouter]
    exact hPerform _ _ hStart

theorem Reachable.confined (hReachable : a.Reachable) : a.router.Confined :=
  hReachable.router Router.init_confined
    (fun _ call hBefore => Router.perform_confined hBefore call)

theorem Reachable.next (hReachable : a.Reachable) (hStep : a.step op = some (a', answer)) :
    a'.Reachable := by
  rcases hReachable with ⟨trace, hRun⟩
  exact ⟨_, .snoc hRun hStep⟩

end Adapter

end Sledge.Native
