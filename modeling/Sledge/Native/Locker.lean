import Sledge.Native.Mirror

/-
  What the locker sees of a key while the session is locked.

  The locker should get alternating presses and releases of
  each key, and no press it never gets the end of.  The
  locker route neither merges keyboards nor releases what a
  second lock or a detached keyboard takes away, so this
  holds only for runs that avoid those steps.

  Main results:
    * `Adapter.Moves.locker`
    * `Adapter.locker_pairing`
-/

-----
-- Alternation

namespace Sledge.Native

open Transition Router

/- Presses and releases alternate; `true` is a press. -/
def Alternates : Bool → List Bool → Prop
  | _, [] => True
  | opened, event :: rest => event ≠ opened ∧ Alternates event rest

/- A press is open after the events. -/
def openAfter (opened : Bool) (events : List Bool) : Bool :=
  events.foldl (fun _ event => event) opened

theorem alternates_append (opened : Bool) (events rest : List Bool) :
    Alternates opened (events ++ rest) ↔ Alternates opened events ∧
        Alternates (openAfter opened events) rest := by
  induction events generalizing opened with
  | nil => simp [Alternates, openAfter]
  | cons event events ih =>
    simp only [List.cons_append, Alternates, ih, and_assoc]
    rfl

theorem openAfter_append (opened : Bool) (events rest : List Bool) :
    openAfter opened (events ++ rest) = openAfter (openAfter opened events) rest :=
  List.foldl_append

-----
-- Locker Events

namespace Adapter

/- What the locker is told about a key. -/
def lockerEvent (key : Key) : Observation → Option Bool
  | .down key' true => if key' = key then some true else none
  | .up key' true => if key' = key then some false else none
  | .released key' =>
    if key' = key then some false else none
  | _ => none

def lockerEvents (key : Key) (seen : List Observation) : List Bool :=
  seen.filterMap (lockerEvent key)

theorem lockerEvents_append (key : Key) (seen rest : List Observation) :
    lockerEvents key (seen ++ rest) = lockerEvents key seen ++ lockerEvents key rest :=
  List.filterMap_append

/- At most one keyboard holds a key for the locker. -/
def Sole (r : Router) : Prop :=
  ∀ key id id', r.owner id key = .lockerOwned → r.owner id' key = .lockerOwned → id = id'

/- The locker's presses are those `lockerEnterKeys` reports. -/
structure LockerStep (r r' : Router) (seen : List Observation) : Prop where
  sole : Sole r'
  alternates : ∀ key, Alternates (r.devices.lockerEnterKeys key) (lockerEvents key seen)
  opened : ∀ key, openAfter (r.devices.lockerEnterKeys key) (lockerEvents key seen) =
        r'.devices.lockerEnterKeys key

variable {r : Router} {a s : Adapter}

/- A step the locker does not notice. -/
theorem LockerStep.quiet {r' : Router} {seen : List Observation} (hSole : Sole r)
    (hSame : ∀ id key, r'.owner id key = .lockerOwned ↔ r.owner id key = .lockerOwned)
    (hSeen : ∀ key, lockerEvents key seen = []) : LockerStep r r' seen := by
  refine ⟨?_, ?_, ?_⟩
  · intro key id id' hId hId'
    exact hSole key id id' ((hSame id key).mp hId) ((hSame id' key).mp hId')
  · intro key
    rw [hSeen]
    trivial
  · intro key
    rw [hSeen]
    symm
    rw [Bool.eq_iff_iff, Devices.lockerEnterKeys_iff]
    refine Iff.trans ?_ (r.devices.lockerEnterKeys_iff key).symm
    exact exists_congr (fun id => hSame id key)

section OneKey

variable {r' : Router} {id : Nat} {key : Key}

theorem locker_false_iff (r : Router) (key : Key) :
    r.devices.lockerEnterKeys key = false ↔ ∀ id, r.owner id key ≠ .lockerOwned := by
  rw [← Bool.not_eq_true, Devices.lockerEnterKeys_iff]
  exact not_exists

theorem locker_other
    (hOther : ∀ id' key', ¬ (id' = id ∧ key' = key) → r'.owner id' key' = r.owner id' key')
    {key' : Key} (hKey : key' ≠ key) :
    r'.devices.lockerEnterKeys key' = r.devices.lockerEnterKeys key' := by
  rw [Bool.eq_iff_iff, Devices.lockerEnterKeys_iff]
  refine Iff.trans ?_ (r.devices.lockerEnterKeys_iff key').symm
  refine exists_congr ?_
  intro id'
  have hSame := hOther id' key' (fun h => hKey h.2)
  unfold owner at hSame
  rw [hSame]

/- The locker gets a press nobody else holds there. -/
theorem LockerStep.press (hSole : Sole r)
    (hOther : ∀ id' key', ¬ (id' = id ∧ key' = key) → r'.owner id' key' = r.owner id' key')
    (hFree : r.devices.lockerEnterKeys key = false) (hOwner : r'.owner id key = .lockerOwned) :
    LockerStep r r' [.down key true] := by
  refine ⟨?_, ?_, ?_⟩
  · intro key' id₁ id₂ h₁ h₂
    by_cases hKey : key' = key
    · have hOnly : ∀ id', r'.owner id' key' = .lockerOwned → id' = id := by
        intro id' hLocker
        by_contra hNe
        rw [hOther id' key' (fun h => hNe h.1), hKey] at hLocker
        exact (locker_false_iff r key).mp hFree id' hLocker
      rw [hOnly id₁ h₁, hOnly id₂ h₂]
    · rw [hOther id₁ key' (fun h => hKey h.2)] at h₁
      rw [hOther id₂ key' (fun h => hKey h.2)] at h₂
      exact hSole key' id₁ id₂ h₁ h₂
  · intro key'
    by_cases hKey : key' = key
    · simp [hKey, lockerEvents, lockerEvent, Alternates, hFree]
    · simp [lockerEvents, lockerEvent, Ne.symm hKey, Alternates]
  · intro key'
    by_cases hKey : key' = key
    · rw [hKey]
      have hAfter := (r'.devices.lockerEnterKeys_iff key).mpr ⟨id, hOwner⟩
      simp [lockerEvents, lockerEvent, openAfter, hAfter]
    · rw [locker_other hOther hKey]
      simp [lockerEvents, lockerEvent, Ne.symm hKey, openAfter]

/- The locker gets the release of a press it got. -/
theorem LockerStep.release (hSole : Sole r)
    (hOther : ∀ id' key', ¬ (id' = id ∧ key' = key) → r'.owner id' key' = r.owner id' key')
    (hOwner : r.owner id key = .lockerOwned) (hAfter : r'.owner id key = .none) :
    LockerStep r r' [.up key true] := by
  have hHeld := (r.devices.lockerEnterKeys_iff key).mpr ⟨id, hOwner⟩
  have hSub : ∀ id' key', r'.owner id' key' = .lockerOwned → r.owner id' key' = .lockerOwned ∧
      ¬ (id' = id ∧ key' = key) := by
    intro id' key' hLocker
    by_cases hSame : id' = id ∧ key' = key
    · rw [hSame.1, hSame.2, hAfter] at hLocker
      simp at hLocker
    · rw [hOther id' key' hSame] at hLocker
      exact ⟨hLocker, hSame⟩
  refine ⟨?_, ?_, ?_⟩
  · intro key' id₁ id₂ h₁ h₂
    exact hSole key' id₁ id₂ (hSub id₁ key' h₁).1 (hSub id₂ key' h₂).1
  · intro key'
    by_cases hKey : key' = key
    · simp [hKey, lockerEvents, lockerEvent, Alternates, hHeld]
    · simp [lockerEvents, lockerEvent, Ne.symm hKey, Alternates]
  · intro key'
    by_cases hKey : key' = key
    · rw [hKey]
      have hFree : r'.devices.lockerEnterKeys key = false := by
        rw [locker_false_iff]
        intro id' hLocker
        rcases hSub id' key hLocker with ⟨hOld, hNe⟩
        exact hNe ⟨hSole key id' id hOld hOwner, rfl⟩
      simp [lockerEvents, lockerEvent, openAfter, hFree]
    · rw [locker_other hOther hKey]
      simp [lockerEvents, lockerEvent, Ne.symm hKey, openAfter]

end OneKey

/- Output calls other than releases are no locker events. -/
theorem lockerEvents_calls {key : Key} {calls : List OutputCall}
    (hCalls : ∀ key', .release key' ∉ calls) : lockerEvents key (calls.map observeCall) = [] := by
  apply List.filterMap_eq_nil_iff.mpr
  intro o hMem
  rcases List.mem_map.mp hMem with ⟨call, hCall, rfl⟩
  cases call with
  | replace key' requested restore | reconcileModifiers sides => rfl
  | release key' => exact absurd hCall (hCalls key')

-----
-- Steps Under The Lock

/- Under the lock nothing is left to release. -/
theorem no_release_of_retire (hConfined : r.Confined) (hLocked : r.locked = true) (id : Nat)
    (output : Output) (key : Key) : .release key ∉ (r.retire id output).calls := by
  intro hMem
  unfold retire at hMem
  split at hMem
  · simp at hMem
  · simp only [List.mem_append, List.mem_map] at hMem
    rcases hMem with ⟨key', hKey, _⟩ | hReconcile
    · rw [mem_retiredKeys_iff] at hKey
      have hFocus := focus_of_locked hConfined hLocked key'
      rw [← Bool.not_eq_true, Devices.focusEnterKeys_iff] at hFocus
      exact hFocus ⟨id, hKey.1⟩
    · split at hReconcile
      all_goals simp at hReconcile

theorem no_release_of_revoke (hConfined : r.Confined) (hLocked : r.locked = true) (output : Output)
    (key : Key) : .release key ∉ (r.revoke output).calls := by
  intro hMem
  simp only [revoke, List.mem_append, List.mem_map] at hMem
  rcases hMem with ⟨key', hKey, _⟩ | hReconcile
  · rw [mem_revokedKeys_iff, focus_of_locked hConfined hLocked] at hKey
    simp at hKey
  · split at hReconcile
    all_goals simp at hReconcile

/- Retiring a device the locker has nothing from. -/
theorem retire_locker (hConfined : r.Confined) (hLocked : r.locked = true) (hSole : Sole r)
    {id : Nat} (hSafe : ∀ key, r.owner id key ≠ .lockerOwned) (output : Output) :
    LockerStep r (r.retire id output).router ((r.retire id output).calls.map observeCall) := by
  apply LockerStep.quiet hSole
  · intro id' key
    rw [retire_owner]
    split
    · rename_i hSame
      rw [hSame]
      simp [hSafe key]
    · exact Iff.rfl
  · intro key
    apply lockerEvents_calls
    exact no_release_of_retire hConfined hLocked id output

/- Quarantine when the locker holds nothing. -/
theorem revoke_locker (hConfined : r.Confined) (hLocked : r.locked = true) (hSole : Sole r)
    (hSafe : ∀ key, r.devices.lockerEnterKeys key = false) (output : Output) :
    LockerStep r (r.revoke output).router ((r.revoke output).calls.map observeCall) := by
  apply LockerStep.quiet hSole
  · intro id key
    have hFree : r.owner id key ≠ .lockerOwned := by
      intro hOwner
      have hKey := (r.devices.lockerEnterKeys_iff key).mpr ⟨id, hOwner⟩
      rw [hSafe key] at hKey
      simp at hKey
    have hAfter : (r.revoke output).router.owner id key ≠
        .lockerOwned := by
      simp only [revoke, owner, Devices.ownerOf_quarantine]
      split <;> simp
    simp [hFree, hAfter]
  · intro key
    apply lockerEvents_calls
    exact no_release_of_revoke hConfined hLocked output

section Routed

variable {id : Nat} {key : Key} (ticket : Option Ticket) (reply : Option Decision)
variable (now : Nat) (output : Output) (stockAdmitted : Bool)

/- Events that leave the locker's presses as they are. -/
theorem routeFinal_quiet {state : State} (hSole : Sole r) (hBefore : r.owner id key ≠ .lockerOwned)
    (hAfter : (r.routeFinal (.ofKey id key state) ticket reply now
        output stockAdmitted).router.owner id key ≠ .lockerOwned) {seen : List Observation}
    (hSeen : ∀ key', lockerEvents key' seen = []) :
    LockerStep r (r.routeFinal (.ofKey id key state) ticket reply now
        output stockAdmitted).router seen := by
  refine .quiet hSole ?_ hSeen
  intro id' key'
  by_cases hSame : id' = id ∧ key' = key
  · rw [hSame.1, hSame.2]
    simp [hBefore, hAfter]
  · rw [routeFinal_owner_other _ _ _ _ _ _ _ _ _ hSame]

/- A press goes to the locker if nobody else holds it there. -/
theorem down_locker (hLocked : r.locked = true) (hSole : Sole r) (hTracked : r.devices.Tracked id)
    (hOwner : r.owner id key = .none)
    (hSafe : stockAdmitted = true → r.devices.lockerEnterKeys key = false) :
    let e :=
      r.routeFinal (.ofKey id key .down) ticket reply now output stockAdmitted
    LockerStep r e.router (e.calls.map observeCall ++
        observeFinal (.ofKey id key .down) e.value) := by
  rcases routeFinal_down_locked ticket reply now
      output stockAdmitted hTracked hOwner hLocked with
    ⟨hCalls, hDeliver, hOutcome, hAfter⟩
  simp only [observeFinal_down, hCalls, hDeliver, List.map_nil, List.nil_append]
  cases stockAdmitted with
  | false =>
    apply routeFinal_quiet _ _ _ _ _ hSole
    · simp [hOwner]
    · simp [hAfter]
    · intro key'
      rfl
  | true =>
    rw [decide_eq_true (hOutcome.mpr rfl), if_pos rfl]
    refine .press hSole ?_ (hSafe rfl) hAfter
    intro id' key' hOther
    exact routeFinal_owner_other _ _ _ _ _ _ _ _ _ hOther

theorem up_locker (hLocked : r.locked = true) (hSole : Sole r) (hOwner : r.owner id key ≠ .none) :
    let e :=
      r.routeFinal (.ofKey id key .up) ticket reply now output stockAdmitted
    LockerStep r e.router (e.calls.map observeCall ++
        observeFinal (.ofKey id key .up) e.value) := by
  have hAfter := r.routeFinal_owner_up id key ticket reply now output stockAdmitted
  rcases routeFinal_up ticket reply now output stockAdmitted hOwner with
    ⟨hCalls, ⟨hDeliver, hOutcome, hForwarded, _⟩ | ⟨hDeliver, hOutcome, _, hLocker⟩ |
      ⟨hDeliver, hUnlocked, _⟩⟩
  · simp only [observeFinal_up, hCalls, hDeliver, decide_eq_false hOutcome, if_true, List.map_nil,
      List.nil_append]
    apply routeFinal_quiet _ _ _ _ _ hSole
    · simp [hForwarded]
    · simp [hAfter]
    · intro key'
      rfl
  · simp only [observeFinal_up, hCalls, hDeliver, decide_eq_true hOutcome, if_true, List.map_nil,
      List.nil_append]
    refine .release hSole ?_ hLocker hAfter
    intro id' key' hOther
    exact routeFinal_owner_other _ _ _ _ _ _ _ _ _ hOther
  · simp only [observeFinal_up, hCalls, hDeliver, Bool.false_eq_true, if_false, List.map_nil,
      List.nil_append]
    apply routeFinal_quiet _ _ _ _ _ hSole
    · intro hLocker
      rw [hUnlocked hLocker] at hLocked
      simp at hLocked
    · simp [hAfter]
    · intro key'
      rfl

end Routed

-----
-- Runs Under The Lock

/- A device has a key down at the locker. -/
def atLocker (r : Router) (id : Nat) : Bool :=
  (List.finRange keyCount).any (fun key =>
    r.owner id key == .lockerOwned)

/- Some key is down at the locker. -/
def lockerBusy (r : Router) : Bool := (List.finRange keyCount).any r.devices.lockerEnterKeys

/-
  The steps the locker route is made for: no second keyboard joins a key the locker holds,
  and nothing the locker holds is retired, revoked or locked away.
-/
def lockerSafe (a : Adapter) : Op → Bool
  | .key identity raw down _ _ _ _ stockAdmitted =>
    match (a.physical.event identity raw down).2 with
    | none => true
    | some event =>
      match event.key? with
      | none => true
      | some key =>
        !(decide (event.state = .down) && stockAdmitted && a.router.devices.lockerEnterKeys key)
  | .detach identity _ =>
    match a.physical.generation? identity with
    | none => true
    | some id => !atLocker a.router id
  | .call (.retire id _) => !atLocker a.router id
  | .call (.revoke _) => !lockerBusy a.router
  | .call (.lock _) => !lockerBusy a.router
  | _ => true

theorem atLocker_eq_false {id : Nat} (hFree : (!atLocker r id) = true) (key : Key) :
    r.owner id key ≠ .lockerOwned := by
  simp only [atLocker, Bool.not_eq_true', List.any_eq_false, List.mem_finRange,
    forall_true_left, beq_iff_eq] at hFree
  exact hFree key

theorem lockerBusy_eq_false (hFree : (!lockerBusy r) = true) (key : Key) :
    r.devices.lockerEnterKeys key = false := by
  simp only [lockerBusy, Bool.not_eq_true', List.any_eq_false, List.mem_finRange,
    forall_true_left, Bool.not_eq_true] at hFree
  exact hFree key

/- Where a locked interval begins. -/
def LockStart (s : Adapter) : Prop :=
  s = init ∨ ∃ (before : Adapter) (output : Output) (answer : Answer),
      before.Reachable ∧ before.router.locked = false ∧
        before.step (.call (.lock output)) = some (s, answer)

theorem quiet_of_devices {r' : Router} (hSole : Sole r) (hDevices : r'.devices = r.devices)
    {calls : List OutputCall} (hCalls : ∀ key, .release key ∉ calls) :
    LockerStep r r' (calls.map observeCall) := by
  refine .quiet hSole ?_ ?_
  · intro id key
    rw [owner_congr hDevices]
  · intro key
    exact lockerEvents_calls hCalls

theorem call_locker (hConfined : a.router.Confined) (hLocked : a.router.locked = true)
    (hSole : Sole a.router) {call : Call} (hDirect : call.direct = true)
    (hSafe : a.lockerSafe (.call call) = true) :
    LockerStep a.router (a.router.perform call).1 ((a.router.perform call).2.calls.map observeCall) := by
  cases call with
  | add | route | originalOutcome => simp [Call.direct] at hDirect
  | begin event now budgetNs releaseAction =>
    exact quiet_of_devices hSole (a.router.begin_frame event now budgetNs
      releaseAction).1 (by simp [perform])
  | settlement event now budgetNs =>
    exact quiet_of_devices hSole (a.router.settlement_frame event now budgetNs).1
      (by simp [perform])
  | finishRelease t reply deliveredOriginal now output original =>
      refine quiet_of_devices hSole (a.router.finishRelease_frame t reply
        deliveredOriginal now output original).1 ?_
      intro key
      simp only [perform]
      rcases a.router.finishRelease_cases t reply deliveredOriginal now output original with
        ⟨hCalls, _⟩ | ⟨_, _, _, _, _, hCalls, _⟩
      · simp [hCalls]
      · simp [hCalls, replacement]
  | revoke output =>
    simp only [lockerSafe] at hSafe
    exact revoke_locker hConfined hLocked hSole (lockerBusy_eq_false hSafe) output
  | lock output =>
    have hRelocked : { a.router with locked := true } = a.router := by rw [← hLocked]
    simp only [lockerSafe] at hSafe
    simp only [perform, lock, hRelocked]
    exact revoke_locker hConfined hLocked hSole (lockerBusy_eq_false hSafe) output
  | retire id output =>
    simp only [lockerSafe] at hSafe
    exact retire_locker hConfined hLocked hSole (atLocker_eq_false hSafe) output
  | recoverRetiredOutput exactRetirementProof =>
    exact quiet_of_devices hSole (a.router.recoverRetiredOutput_frame
      exactRetirementProof).1 (by simp [perform])
  | focusChanged | unlockConfirmed | disconnect =>
    apply quiet_of_devices hSole
    · rfl
    · simp [perform]

/- A bypassed event is not the locker's. -/
theorem bypass_locker (hSole : Sole r) (event : Event) :
    LockerStep r r (observeFinal event bypass) := by
  refine .quiet hSole (fun _ _ => Iff.rfl) ?_
  intro key
  unfold observeFinal bypass
  split
  all_goals rfl

/- One step under the lock keeps the locker's presses. -/
theorem Moves.locker {a' : Adapter} {op : Op} {answer : Answer} (hMoves : Moves a a' op answer)
    (hConfined : a.router.Confined) (hBacked : a.Backed) (hLocked : a.router.locked = true)
    (hSole : Sole a.router) (hSafe : a.lockerSafe op = true) :
    LockerStep a.router a'.router answer.observed := by
  cases hMoves with
  | idle hRouter =>
    rw [hRouter]
    exact .quiet hSole (fun _ _ => Iff.rfl) (fun _ => rfl)
  | attached new _ _ hRouter =>
    rw [hRouter]
    refine .quiet hSole ?_ (fun _ => rfl)
    intro id key
    rw [add_owner]
  | @detached _ output id hGeneration hRouter =>
    rw [hRouter]
    simp only [lockerSafe, hGeneration] at hSafe
    simpa [Answer.observed] using retire_locker hConfined hLocked hSole
      (atLocker_eq_false hSafe) output
  | @routed _ _ _ ticket reply now output stockAdmitted id key state hEvent hReported hRouter =>
      rw [hRouter]
      by_cases hTracked : a.router.devices.Tracked id
      · cases hReported.reports with
        | down hFree =>
          apply down_locker _ _ _ _ _ hLocked hSole hTracked
          · by_contra hOwned
            exact hFree (hBacked id key hOwned)
          · intro hAdmitted
            simpa [lockerSafe, hEvent, hAdmitted, Event.state_ofKey] using hSafe
        | repeated =>
          have hSame := a.router.routeFinal_repeated id key ticket reply now output stockAdmitted
          simp only [Answer.observed, observeFinal_repeated, hSame]
          exact .quiet hSole (fun _ _ => Iff.rfl) (fun _ => rfl)
        | up =>
          by_cases hOwner : a.router.owner id key = .none
          · have hBypass := routeFinal_bypass ticket reply now output stockAdmitted (.inr
                ⟨hOwner, (by simp : State.up ≠ State.down)⟩)
            simp only [Answer.observed, hBypass]
            exact bypass_locker hSole _
          · exact up_locker _ _ _ _ _ hLocked hSole hOwner
      · have hBypass : a.router.routeFinal (.ofKey id key state) ticket
            reply now output stockAdmitted =
            ⟨a.router, bypass, []⟩ :=
          routeFinal_bypass ticket reply now output stockAdmitted (.inl hTracked)
        simp only [Answer.observed, hBypass]
        exact bypass_locker hSole _
  | called hDirect hRouter =>
    rw [hRouter]
    simpa [Answer.observed] using call_locker hConfined hLocked hSole hDirect hSafe

theorem LockStart.reachable (hStart : LockStart s) : s.Reachable := by
  rcases hStart with rfl | ⟨before, output, answer, hBefore, _, hStep⟩
  · exact ⟨[], .nil⟩
  · exact hBefore.next hStep

/- A locked interval begins with nothing at the locker. -/
theorem LockStart.free (hStart : LockStart s) (id : Nat) (key : Key) :
    s.router.owner id key ≠ .lockerOwned := by
  rcases hStart with rfl | ⟨before, output, answer, _, _, hStep⟩
  · have hNone : init.router.owner id key = .none := init_owner id key
    simp [hNone]
  · simp only [step, Call.direct, if_true, Option.some.injEq, Prod.mk.injEq] at hStep
    rw [← hStep.1]
    simp only [perform, lock, revoke, owner, Devices.ownerOf_quarantine]
    split <;> simp

/- What a run under the lock has shown the locker. -/
theorem run_locker {trace : List Entry} (hStart : LockStart s)
    (hRun : Run step s trace a) (hLocked : ∀ e ∈ trace, e.pre.router.locked = true)
    (hSafe : ∀ e ∈ trace, e.pre.lockerSafe e.op = true) :
    a.Reachable ∧ Sole a.router ∧ ∀ key, Alternates false (lockerEvents key (observations trace)) ∧
          openAfter false (lockerEvents key (observations trace)) =
            a.router.devices.lockerEnterKeys key := by
  induction hRun with
  | nil =>
    refine ⟨hStart.reachable, ?_, ?_⟩
    · intro key id _ hOwner
      exact absurd hOwner (hStart.free id key)
    · intro key
      refine ⟨trivial, ?_⟩
      exact ((locker_false_iff s.router key).mpr (fun id => hStart.free id key)).symm
  | @snoc front last next op answer hFront hStep ih =>
    rcases forall_mem_snoc.mp hLocked with ⟨hLockedFront, hLockedLast⟩
    rcases forall_mem_snoc.mp hSafe with ⟨hSafeFront, hSafeLast⟩
    rcases ih hLockedFront hSafeFront with ⟨hReachable, hSole, hKeys⟩
    have hMove := (step_moves hStep).locker hReachable.confined
        hReachable.backed hLockedLast hSole hSafeLast
    refine ⟨hReachable.next hStep, hMove.sole, ?_⟩
    intro key
    rw [observations_snoc, lockerEvents_append, alternates_append, openAfter_append, (hKeys key).2]
    exact ⟨⟨(hKeys key).1, hMove.alternates key⟩, hMove.opened key⟩

/-
  Locker pairing.  In a locked interval whose steps are all safe for the locker, presses
  and releases of every key alternate, beginning with a press, and a key no attached
  keyboard holds any more has no press left open.
-/
theorem locker_pairing {s a : Adapter} {trace : List Entry} (hStart : LockStart s)
    (hRun : Run step s trace a) (hLocked : ∀ e ∈ trace, e.pre.router.locked = true)
    (hSafe : ∀ e ∈ trace, e.pre.lockerSafe e.op = true) (key : Key) :
    Alternates false (lockerEvents key (observations trace)) ∧ ((∀ id, ¬ a.physical.Holds id key) →
        openAfter false (lockerEvents key (observations trace)) = false) := by
  rcases run_locker hStart hRun hLocked hSafe with ⟨hReachable, _, hKeys⟩
  rcases hKeys key with ⟨hAlternates, hOpen⟩
  refine ⟨hAlternates, ?_⟩
  intro hReleased
  rw [hOpen, locker_false_iff]
  intro id hOwner
  apply hReleased id
  apply hReachable.backed
  simp [hOwner]

/- A stroke of one keyboard at the locker. -/
theorem locker_pairing_lockedStroke :
    let key : Key := ⟨30, by decide⟩
    let trace := entriesOf step init lockedStroke
    lockerEvents key (observations trace) = [true, false] ∧ Alternates false [true, false] := by
  have hSeen : lockerEvents ⟨30, by decide⟩ (observations
        (entriesOf step init lockedStroke)) =
      [true, false] := by
    decide +kernel
  have hStart : LockStart init := .inl rfl
  have hRun : Run step init (entriesOf step init lockedStroke)
      (lastOf step init lockedStroke) :=
    Run.of_isSome (by decide +kernel)
  have hLocked : (entriesOf step init lockedStroke).all
      (fun e => e.pre.router.locked) = true := by
    decide +kernel
  have hSafe : (entriesOf step init lockedStroke).all
      (fun e => e.pre.lockerSafe e.op) = true := by
    decide +kernel
  have hPairing := locker_pairing hStart hRun (List.all_eq_true.mp hLocked)
      (List.all_eq_true.mp hSafe) ⟨30, by decide⟩
  rw [hSeen] at hPairing
  exact ⟨hSeen, hPairing.1⟩

/- Two keyboards press the same key at the locker. -/
def twoKeyboards : List Op :=
  [.attach 1 true false oneKey, .attach 2 true false oneKey,
    .key 1 30 true none none 0 .compliant true,
    .key 2 30 true none none 0 .compliant true]

/- The locker gets two presses in a row. -/
theorem locker_pairing_twoKeyboards :
    let key : Key := ⟨30, by decide⟩
    let trace := entriesOf step init twoKeyboards
    let seen := lockerEvents key (observations trace)
    LockStart init ∧ Run step init trace (lastOf step init twoKeyboards) ∧
      (∀ e ∈ trace, e.pre.router.locked = true) ∧
      seen = [true, true] ∧ ¬ Alternates false seen := by
  have hSeen : lockerEvents ⟨30, by decide⟩ (observations
        (entriesOf step init twoKeyboards)) =
      [true, true] := by
    decide +kernel
  have hLocked : (entriesOf step init twoKeyboards).all
      (fun e => e.pre.router.locked) = true := by
    decide +kernel
  refine ⟨.inl rfl, ?_, List.all_eq_true.mp hLocked, hSeen, ?_⟩
  · exact .of_isSome (by decide +kernel)
  · simp only [hSeen]
    simp [Alternates]

end Adapter

end Sledge.Native
