import Mathlib.Algebra.Ring.Nat
import Sledge.Lib.Slots
import Sledge.Lib.Transition

/-
  The native key router
  (`native/hyprland/routing.hpp`).

  A router keeps, for up to sixteen keyboards, who owns each
  pressed key.  The calls it makes on the compositor are
  returned as a list next to its result; what the compositor
  answers is given by an `Output`, one for each operation.
-/

-----
-- Events, Tickets And Results

namespace Sledge.Native

def keyCount : Nat := 768

def deviceCount : Nat := 16

abbrev Key := Fin keyCount

abbrev Slot := Fin deviceCount

/- One bit for each side of each modifier. -/
abbrev Mask := BitVec 8

def uint64Max : Nat := 2 ^ 64 - 1

/- `++` on a `uint64_t`. -/
def increment (n : Nat) : Nat := (n + 1) % 2 ^ 64

inductive State where
  | up
  | down
  | repeated
deriving DecidableEq

/- A wire verdict may lie outside the enumeration. -/
inductive Verdict where
  | pass
  | swallow
  | replace
  | invalid (code : Nat)
deriving DecidableEq

inductive Delivery where
  | accepted
  | rejectedNoOutput
  | partialFatal
deriving DecidableEq

inductive Outcome where
  | forwarded
  | merged
  | swallowed
  | replaced
  | rejected
  | partialFatal
  | stockConsumed
  | lockerOwned
  | quarantined
deriving DecidableEq

structure RouteResult where
  outcome : Outcome
  processStock : Bool
  deliverClient : Bool
  reconcile : Bool
deriving DecidableEq

structure Event where
  device : Nat
  key : Nat
  state : State
  modeled : Bool := true
deriving DecidableEq

namespace Event

/- The key as an index into the ownership tables. -/
def key? (event : Event) : Option Key :=
  if h : event.key < keyCount then some ⟨event.key, h⟩
  else none

end Event

structure Ticket where
  device : Nat
  epoch : Nat
  focus : Nat
  sequence : Nat
  deadline : Nat
  key : Nat
deriving DecidableEq

structure Decision where
  ticket : Ticket
  verdict : Verdict
  key : Nat := 0
  modifiers : Mask := 0
deriving DecidableEq

/- What the compositor answers to the calls of one operation. -/
structure Output where
  replace : Nat → Mask → Mask → Delivery
  release : Key → Bool
  reconcileModifiers : Mask → Bool

namespace Output

/- A compositor that does everything it is asked. -/
def compliant : Output where
  replace := fun _ _ _ => .accepted
  release := fun _ => true
  reconcileModifiers := fun _ => true

end Output

/- A call on the compositor. -/
inductive OutputCall where
  | replace (key : Nat) (requested restore : Mask)
  | release (key : Key)
  | reconcileModifiers (sides : Mask)
deriving DecidableEq

inductive BeginReject where
  | none
  | device
  | pending
  | sequence
  | locked
  | fatal
  | unmodeled
  | key
  | state
  | owned
  | budget
  | overflow
deriving DecidableEq

/- The bit of a modifier key, by its Linux key code. -/
def modifier (key : Key) : Mask :=
  match key.val with
  | 42 => 1
  | 54 => 2
  | 29 => 4
  | 97 => 8
  | 56 => 16
  | 100 => 32
  | 125 => 64
  | 126 => 128
  | _ => 0

-----
-- Device Tables

inductive Owner where
  | none
  | forwarded
  | consumed
  | quarantined
  | stockConsumed
  | lockerOwned
deriving DecidableEq

structure Device where
  id : Nat
  owners : Key → Owner

namespace Device

/- `Device{}`. -/
def empty : Device where
  id := 0
  owners := fun _ => .none

end Device

/-
  The device array of a router.  Identifiers are used once, in increasing order, and a
  vacant slot owns nothing.
-/
structure Devices where
  slots : Slot → Device
  lastGeneration : Nat
  distinct : Slots.Distinct (fun i => (slots i).id)
  vacant : ∀ i, (slots i).id = 0 → ∀ key, (slots i).owners key = .none
  issued : ∀ i, (slots i).id ≤ lastGeneration

namespace Devices

def empty : Devices where
  slots := fun _ => Device.empty
  lastGeneration := 0
  distinct := by
    intro i j _ hNonzero
    exact absurd rfl hNonzero
  vacant := by
    intro i _ key
    rfl
  issued := by
    intro i
    exact Nat.le_refl 0

def find (t : Devices) (id : Nat) : Option Slot := Slots.find (fun i => (t.slots i).id) id

/- The owner of a key on a device; untracked ones own none. -/
def ownerOf (t : Devices) (id : Nat) (key : Key) : Owner :=
  match t.find id with
  | some i => (t.slots i).owners key
  | none => .none

/- Change the owners of one tracked device. -/
def mapOwners (t : Devices) (id : Nat) (f : (Key → Owner) → Key → Owner) : Devices where
  slots := fun i =>
    if (t.slots i).id = id ∧ id ≠ 0 then
      { t.slots i with owners := f (t.slots i).owners }
    else t.slots i
  lastGeneration := t.lastGeneration
  distinct := by
    apply t.distinct.clear
    intro i
    refine .inl ?_
    split <;> rfl
  vacant := by
    intro i hZero key
    split at hZero
    · rename_i hTracked
      exact absurd (hTracked.1.symm.trans hZero) hTracked.2
    · rename_i hOther
      rw [if_neg hOther]
      exact t.vacant i hZero key
  issued := by
    intro i
    split <;> exact t.issued i

/- Write one owner of a tracked device. -/
def setOwner (t : Devices) (id : Nat) (key : Key) (owner : Owner) : Devices :=
  t.mapOwners id (fun owners => Function.update owners key owner)

/- Every owned key of every device becomes quarantined. -/
def quarantine (t : Devices) : Devices where
  slots := fun i =>
    { t.slots i with
      owners := fun key =>
        if (t.slots i).owners key = .none then .none
        else .quarantined }
  lastGeneration := t.lastGeneration
  distinct := t.distinct
  vacant := by
    intro i hZero key
    simp [t.vacant i hZero key]
  issued := t.issued

/- Give the first vacant slot a new identifier. -/
def add (t : Devices) (id : Nat) : Option Devices :=
  if h : id = 0 ∨ id ≤ t.lastGeneration ∨ (t.find id).isSome then
    none
  else
    match hVacant : Slots.vacant (fun i => (t.slots i).id) with
    | none => none
    | some slot =>
      some
        { slots := Function.update t.slots slot { t.slots slot with id := id }
          lastGeneration := id
          distinct := by
            have hFresh : ∀ i, (t.slots i).id ≠ id := by
              intro i hSame
              have hOld := t.issued i
              push Not at h
              omega
            have hFill := t.distinct.fill hFresh slot
            intro i j
            have hId : ∀ k, (Function.update t.slots slot { t.slots slot with id := id } k).id =
                Function.update (fun i => (t.slots i).id) slot id k := by
              intro k
              by_cases hk : k = slot
              · simp [hk]
              · simp [hk]
            simp only [hId]
            exact hFill i j
          vacant := by
            intro i hZero key
            have hEmpty := Slots.vacant_eq_some hVacant
            push Not at h
            by_cases hi : i = slot
            · subst hi
              rw [Function.update_self] at hZero
              exact absurd hZero h.1
            · rw [Function.update_of_ne hi] at hZero ⊢
              exact t.vacant i hZero key
          issued := by
            intro i
            push Not at h
            by_cases hi : i = slot
            · simp [hi]
            · rw [Function.update_of_ne hi]
              have hOld := t.issued i
              omega }

/- Reset the slot of a tracked device. -/
def clear (t : Devices) (id : Nat) : Devices where
  slots := fun i =>
    if (t.slots i).id = id ∧ id ≠ 0 then Device.empty
    else t.slots i
  lastGeneration := t.lastGeneration
  distinct := by
    apply t.distinct.clear
    intro i
    split
    · exact .inr rfl
    · exact .inl rfl
  vacant := by
    intro i hZero key
    split at hZero
    · rename_i hTracked
      rw [if_pos hTracked]
      rfl
    · rename_i hOther
      rw [if_neg hOther]
      exact t.vacant i hZero key
  issued := by
    intro i
    split
    · exact Nat.zero_le _
    · exact t.issued i

/- Another tracked device forwards the key. -/
def otherForwarded (t : Devices) (id : Nat) (key : Key) : Bool :=
  (List.finRange deviceCount).any (fun i =>
    (t.slots i).id != id && (t.slots i).id != 0 && (t.slots i).owners key == .forwarded)

/- The keys whose owner on some tracked device is `owner`. -/
def ownedKeys (t : Devices) (owner : Owner) (key : Key) : Bool :=
  (List.finRange deviceCount).any (fun i =>
    (t.slots i).id != 0 && (t.slots i).owners key == owner)

def focusEnterKeys (t : Devices) : Key → Bool := t.ownedKeys .forwarded

def lockerEnterKeys (t : Devices) : Key → Bool := t.ownedKeys .lockerOwned

/- The modifier bits of the forwarded keys of one device. -/
def deviceModifiers (device : Device) (mask : Mask) : Mask :=
  (List.finRange keyCount).foldl (fun mask key =>
      if device.owners key = .forwarded then
        mask ||| modifier key
      else mask)
    mask

def forwardedModifiers (t : Devices) : Mask :=
  (List.finRange deviceCount).foldl (fun mask i =>
      if (t.slots i).id ≠ 0 then
        deviceModifiers (t.slots i) mask
      else mask)
    0

/- Some device owns the key, or it is out of range. -/
def targetHeld (t : Devices) (key : Nat) : Bool :=
  if h : key < keyCount then
    (List.finRange deviceCount).any (fun i =>
      (t.slots i).id != 0 && (t.slots i).owners ⟨key, h⟩ != .none)
  else true

/- No device owns any key. -/
def unowned (t : Devices) : Bool :=
  (List.finRange deviceCount).all (fun i =>
    (List.finRange keyCount).all (fun key =>
      (t.slots i).owners key == .none))

end Devices

-----
-- Routers

structure Router where
  devices : Devices
  epoch : Nat
  focus : Nat
  sequence : Nat
  locked : Bool
  fatal : Bool
  pending : Option Ticket
  released : Option Ticket
  lastBeginReject : BeginReject

/- An operation's new state, result and output calls. -/
structure Effect (α : Type) where
  router : Router
  value : α
  calls : List OutputCall

namespace Router

def init : Router where
  devices := Devices.empty
  epoch := 1
  focus := 1
  sequence := 0
  locked := true
  fatal := false
  pending := none
  released := none
  lastBeginReject := .none

def tracks (r : Router) (id : Nat) : Bool := (r.devices.find id).isSome

def ownershipEmpty (r : Router) : Bool := r.devices.unowned && r.pending.isNone

def quiescent (r : Router) : Bool := r.ownershipEmpty && !r.fatal

def recoverRetiredOutput (r : Router) (exactRetirementProof : Bool) : Router × Bool :=
  if !r.fatal || !exactRetirementProof || !r.ownershipEmpty || r.locked then
    (r, false)
  else
    ({ r with fatal := false, epoch := increment r.epoch, focus := increment r.focus }, true)

def add (r : Router) (id : Nat) : Router × Bool :=
  match r.devices.add id with
  | some devices => ({ r with devices := devices }, true)
  | none => (r, false)

/- Why `begin` refuses an event, tested in this order. -/
def beginReject (r : Router) (event : Event) (now budgetNs : Nat) (releaseAction : Bool) :
    BeginReject :=
  if !r.tracks event.device then .device
  else if r.pending.isSome then .pending
  else if r.sequence = uint64Max then .sequence
  else if r.locked then .locked
  else if r.fatal then .fatal
  else if !event.modeled then .unmodeled
  else
    match event.key? with
    | none => .key
    | some key =>
      if ¬ (event.state = .down ∨ (releaseAction ∧ event.state = .up ∧ modifier key ≠ 0 ∧
            r.devices.ownerOf event.device key = .forwarded ∧
            ¬ r.devices.otherForwarded event.device key)) then .state
      else if event.state = .down ∧ r.devices.ownerOf event.device key ≠ .none then
        .owned
      else if budgetNs > 10000000 then .budget
      else if now > uint64Max - budgetNs then .overflow
      else .none

/- The ticket the next `begin` or `settlement` hands out. -/
def nextTicket (r : Router) (event : Event) (now budgetNs : Nat) : Ticket where
  device := event.device
  epoch := r.epoch
  focus := r.focus
  sequence := r.sequence + 1
  deadline := now + budgetNs
  key := event.key

def begin (r : Router) (event : Event) (now budgetNs : Nat) (releaseAction : Bool) :
    Router × Option Ticket :=
  let reject := r.beginReject event now budgetNs releaseAction
  let r := { r with lastBeginReject := reject }
  if reject ≠ .none then (r, none)
  else
    let ticket := r.nextTicket event now budgetNs
    ({ r with sequence := r.sequence + 1, pending := some ticket }, some ticket)

/- A ticket for lifecycle settlement, without authority. -/
def settlement (r : Router) (event : Event) (now budgetNs : Nat) : Router × Option Ticket :=
  if !r.tracks event.device || r.locked || !event.modeled || event.key?.isNone ||
      decide (event.state = .down) ||
      decide (r.sequence = uint64Max) ||
      decide (budgetNs > 10000000) ||
      decide (now > uint64Max - budgetNs) then
    (r, none)
  else
    ({ r with sequence := r.sequence + 1 }, some (r.nextTicket event now budgetNs))

/- The target of a replacement is free to be pressed. -/
def preflight (r : Router) (original : Nat) (reply : Decision) : Bool :=
  !(decide (reply.key ≥ keyCount) || decide (reply.key = original) ||
    r.devices.targetHeld reply.key)

/- The routed event holds the outstanding ticket. -/
def admitted (r : Router) (event : Event) (ticket : Option Ticket) : Bool :=
  match r.pending, ticket with
  | some pending, some ticket =>
    decide (pending = ticket ∧ pending.device = event.device ∧ pending.key = event.key)
  | _, _ => false

/- The verdict a routed key down is decided by. -/
def verdictFor (r : Router) (event : Event) (ticket : Option Ticket) (reply : Option Decision)
    (now : Nat) : Verdict :=
  match ticket, reply with
  | some t, some reply =>
    if ¬ r.locked ∧ ¬ r.fatal ∧ r.admitted event ticket ∧
        now < t.deadline ∧ t.device = event.device ∧
        t.key = event.key ∧ t.epoch = r.epoch ∧
        t.focus = r.focus ∧ reply.ticket = t ∧
        (reply.verdict = .pass ∨ reply.verdict = .swallow ∨ reply.verdict = .replace) then
      reply.verdict
    else .pass
  | _, _ => .pass

/-
  An event of a key somebody owns.  A release frees the key and may leave its ticket for
  the release action.
-/
def routeOwned (r : Router) (event : Event) (key : Key) (ticket : Option Ticket) :
    Effect RouteResult :=
  let previous := r.devices.ownerOf event.device key
  let router := if event.state = .up then
      { r with
        devices := r.devices.setOwner event.device key .none
        released := if previous = .forwarded ∧ modifier key ≠ 0 ∧
              ¬ r.devices.otherForwarded event.device key ∧
              r.admitted event ticket then
            ticket
          else none
        pending := none }
    else r
  let result : RouteResult :=
    match previous with
    | .stockConsumed => ⟨.stockConsumed, true, false, false⟩
    | .lockerOwned => ⟨.lockerOwned, r.locked, r.locked, false⟩
    | .quarantined => ⟨.quarantined, false, false, false⟩
    | .consumed => ⟨.swallowed, false, false, r.fatal⟩
    | _ =>
      let merged := decide (event.state = .up) && r.devices.otherForwarded event.device key
      ⟨if merged then .merged else .forwarded, true, !merged, false⟩
  ⟨router, result, []⟩

/- How a key down is decided before it gets its owner. -/
structure Decided where
  verdict : Verdict
  outcome : Outcome
  fatal : Bool
  calls : List OutputCall

/- A replacement that puts nothing out falls back to pass. -/
def decideDown (r : Router) (event : Event) (ticket : Option Ticket) (reply : Option Decision)
    (now : Nat) (output : Output) : Decided :=
  match r.verdictFor event ticket reply now, reply with
  | .replace, some reply =>
    if !r.preflight event.key reply then
      ⟨.pass, .rejected, r.fatal, []⟩
    else
      let restore := r.devices.forwardedModifiers
      let calls := [OutputCall.replace reply.key reply.modifiers restore]
      match output.replace reply.key reply.modifiers restore with
      | .rejectedNoOutput => ⟨.pass, .rejected, r.fatal, calls⟩
      | .partialFatal => ⟨.replace, .partialFatal, true, calls⟩
      | .accepted => ⟨.replace, .replaced, r.fatal, calls⟩
  | verdict, _ => ⟨verdict, .forwarded, r.fatal, []⟩

/- A key down nobody owns, decided while unlocked. -/
def routeFresh (r : Router) (event : Event) (key : Key) (decided : Decided) : Effect RouteResult :=
  let owner := if decided.verdict = .pass then Owner.forwarded
    else .consumed
  let outcome := if decided.verdict = .swallow then .swallowed
    else decided.outcome
  let merged := decide (owner = .forwarded) && r.devices.otherForwarded event.device key
  let outcome := if merged ∧ outcome = .forwarded then .merged else outcome
  ⟨{ r with
      devices := r.devices.setOwner event.device key owner
      pending := none
      fatal := decided.fatal },
    ⟨outcome, decide (owner = .forwarded), decide (owner = .forwarded) && !merged, decided.fatal⟩,
    decided.calls⟩

/- Events of untracked devices or unknown keys bypass. -/
def bypass : RouteResult := ⟨.forwarded, true, true, false⟩

def route (r : Router) (event : Event) (ticket : Option Ticket) (reply : Option Decision)
    (now : Nat) (output : Output) : Effect RouteResult :=
  match r.tracks event.device, event.key?, event.modeled with
  | true, some key, true =>
    if r.devices.ownerOf event.device key ≠ .none then
      r.routeOwned event key ticket
    else if event.state ≠ .down then ⟨r, bypass, []⟩
    else if r.locked then
      ⟨{ r with devices := r.devices.setOwner event.device key .lockerOwned },
        ⟨.lockerOwned, true, true, false⟩, []⟩
    else
      r.routeFresh event key (r.decideDown event ticket reply now output)
  | _, _, _ => ⟨r, bypass, []⟩

/-
  Commit the action of a release that has already gone through.  The ticket is spent
  whatever happens.
-/
def finishRelease (r : Router) (ticket : Ticket) (reply : Option Decision)
    (deliveredOriginal : Bool) (now : Nat) (output : Output) (original : Outcome) :
    Effect Outcome :=
  let eligible := decide (r.released = some ticket)
  let r := { r with released := none }
  match reply with
  | none => ⟨r, original, []⟩
  | some reply =>
    if reply.verdict ≠ .replace then ⟨r, original, []⟩
    else if !eligible || !deliveredOriginal || r.locked ||
        r.fatal || decide (now ≥ ticket.deadline) ||
        decide (ticket.epoch ≠ r.epoch) ||
        decide (ticket.focus ≠ r.focus) ||
        decide (reply.ticket ≠ ticket) ||
        !r.preflight ticket.key reply then
      ⟨r, .rejected, []⟩
    else
      let restore := r.devices.forwardedModifiers
      let calls := [OutputCall.replace reply.key reply.modifiers restore]
      match output.replace reply.key reply.modifiers restore with
      | .rejectedNoOutput => ⟨r, .rejected, calls⟩
      | .partialFatal => ⟨{ r with fatal := true }, .partialFatal, calls⟩
      | .accepted => ⟨r, .replaced, calls⟩

/- Report what the stock route did with a passed key down. -/
def originalOutcome (r : Router) (event : Event) (proposal : RouteResult) (stockAdmitted : Bool) :
    Router × RouteResult :=
  let originalProposal := decide (proposal.outcome = .merged) || proposal.deliverClient
  match r.tracks event.device, event.key? with
  | true, some key =>
    if event.state ≠ .down ∨ ¬ originalProposal then
      (r, proposal)
    else if (r.devices.ownerOf event.device key = .forwarded ∨ r.devices.ownerOf event.device key =
            .lockerOwned) ∧ ¬ stockAdmitted then
      ({ r with devices := r.devices.setOwner event.device key .stockConsumed },
        ⟨.stockConsumed, true, false, false⟩)
    else (r, proposal)
  | _, _ => (r, proposal)

def focusChanged (r : Router) : Router :=
  { r with pending := none, focus := increment r.focus, epoch := increment r.epoch }

/- One device's keys in the release scan of `revoke`. -/
def revokeDevice (device : Device) (released : List Key) : List Key :=
  (List.finRange keyCount).foldl (fun released key =>
      if device.owners key = .forwarded ∧ key ∉ released then
        released ++ [key]
      else released)
    released

/- The keys `revoke` releases, in the order it does. -/
def revokedKeys (t : Devices) : List Key :=
  (List.finRange deviceCount).foldl (fun released i => revokeDevice (t.slots i) released) []

/-
  Release every forwarded key once, to the old focus, and quarantine everything that is
  held.
-/
def revoke (r : Router) (output : Output) : Effect Unit :=
  let beforeModifiers := r.devices.forwardedModifiers
  let keys := revokedKeys r.devices
  let releaseFailed := keys.any (fun key => !output.release key)
  let reconciles := decide (beforeModifiers ≠ 0)
  let reconcileFailed := reconciles && !output.reconcileModifiers 0
  ⟨{ r with
      devices := r.devices.quarantine
      pending := none
      epoch := increment r.epoch
      fatal := r.fatal || releaseFailed || reconcileFailed },
    (),
    keys.map OutputCall.release ++ if reconciles then [.reconcileModifiers 0] else []⟩

def lock (r : Router) (output : Output) : Effect Unit := { r with locked := true }.revoke output

def unlockConfirmed (r : Router) : Router :=
  { r with epoch := increment r.epoch, focus := increment r.focus, locked := false }

/- Ownership survives the loss of the transport. -/
def disconnect (r : Router) : Router := { r with pending := none, epoch := increment r.epoch }

/- The keys a retired device alone forwards. -/
def retiredKeys (t : Devices) (id : Nat) : List Key :=
  (List.finRange keyCount).filter (fun key =>
    t.ownerOf id key == .forwarded && !t.otherForwarded id key)

def retire (r : Router) (id : Nat) (output : Output) : Effect Unit :=
  if !r.tracks id then ⟨r, (), []⟩
  else
    let beforeModifiers := r.devices.forwardedModifiers
    let keys := retiredKeys r.devices id
    let releaseFailed := keys.any (fun key => !output.release key)
    let devices := r.devices.clear id
    let sides := devices.forwardedModifiers
    let reconciles := !keys.isEmpty || decide (beforeModifiers ≠ sides)
    let reconcileFailed := reconciles && !output.reconcileModifiers sides
    ⟨{ r with
        devices := devices
        epoch := increment r.epoch
        pending := none
        fatal := r.fatal || releaseFailed || reconcileFailed },
      (),
      keys.map OutputCall.release ++ if reconciles then [.reconcileModifiers sides]
        else []⟩

end Router

end Sledge.Native
