import Sledge.Native.Registration

/-
  The router's ledger mirrors what clients hold.

  A client holds a key from its delivered press to its
  delivered release.  Folding the observations of a run gives
  the keys clients hold, and after every step these are the
  keys `focusEnterKeys` reports.  Modifier masks sent to the
  compositor are masks of the same set.

  Main results:
    * `Adapter.Moves.mirrors`
    * `Adapter.client_mirror`
-/

-----
-- Keys Held By Clients

namespace Sledge.Native.Adapter

open Transition Router

namespace Observation

/- The keys clients hold after an observation. -/
def after (held : Key → Bool) : Observation → Key → Bool
  | .down key false => Function.update held key true
  | .up key _ => Function.update held key false
  | .released key => Function.update held key false
  | _ => held

/-
  Presses are of free keys and releases of held ones; masks are those of the held keys;
  targets are free.  Releases the locker gets are its own.
-/
def Sound (held : Key → Bool) : Observation → Prop
  | .down key _ => held key = false
  | .up key locker => locker = true ∨ held key = true
  | .released key => held key = true
  | .reconciled sides => sides = maskOf held
  | .replaced target restore =>
    restore = maskOf held ∧ ∀ key : Key, key.val = target → held key = false

end Observation

def heldAfter (held : Key → Bool) (seen : List Observation) : Key → Bool :=
  seen.foldl Observation.after held

/- Every observation is sound when it is made. -/
def Mirrors : (Key → Bool) → List Observation → Prop
  | _, [] => True
  | held, seen :: rest => seen.Sound held ∧ Mirrors (seen.after held) rest

theorem mirrors_append (held : Key → Bool) (seen rest : List Observation) :
    Mirrors held (seen ++ rest) ↔ Mirrors held seen ∧ Mirrors (heldAfter held seen) rest := by
  induction seen generalizing held with
  | nil => simp [Mirrors, heldAfter]
  | cons o seen ih =>
    simp only [List.cons_append, Mirrors, ih, and_assoc]
    rfl

theorem heldAfter_append (held : Key → Bool) (seen rest : List Observation) :
    heldAfter held (seen ++ rest) = heldAfter (heldAfter held seen) rest :=
  List.foldl_append

/- The observations take one set of held keys to another. -/
def Carries (held held' : Key → Bool) (seen : List Observation) : Prop :=
  Mirrors held seen ∧ heldAfter held seen = held'

theorem Carries.nil (held : Key → Bool) : Carries held held [] := ⟨trivial, rfl⟩

variable {held : Key → Bool} {r : Router} {answer : Answer}

theorem Carries.append {mid held' : Key → Bool} {seen rest : List Observation}
    (hFirst : Carries held mid seen) (hSecond : Carries mid held' rest) :
    Carries held held' (seen ++ rest) := by
  refine ⟨?_, ?_⟩
  · rw [mirrors_append, hFirst.2]
    exact ⟨hFirst.1, hSecond.1⟩
  · rw [heldAfter_append, hFirst.2, hSecond.2]

theorem Carries.single {seen : Observation} (hSound : seen.Sound held) :
    Carries held (seen.after held) [seen] :=
  ⟨⟨hSound, trivial⟩, rfl⟩

/- Releasing distinct held keys frees exactly those. -/
theorem carries_releases {keys : List Key} (hNodup : keys.Nodup)
    (hHeld : ∀ key ∈ keys, held key = true) :
    Carries held (fun key => held key && decide (key ∉ keys)) (keys.map Observation.released) := by
  induction keys generalizing held with
  | nil => simpa using Carries.nil held
  | cons key keys ih =>
    rcases List.nodup_cons.mp hNodup with ⟨hNew, hRest⟩
    have hSingle : Carries held (Function.update held key false) [.released key] :=
      Carries.single (hHeld key (by simp))
    have hLeft : ∀ key' ∈ keys, Function.update held key false key' = true := by
      intro key' hMem
      have hNe : key' ≠ key := by
        intro hSame
        rw [hSame] at hMem
        exact hNew hMem
      rw [Function.update_of_ne hNe]
      exact hHeld key' (by simp [hMem])
    have hBoth := hSingle.append (ih hRest hLeft)
    have hEnd : (fun key' =>
          Function.update held key false key' && decide (key' ∉ keys)) =
        fun key' =>
          held key' && decide (key' ∉ key :: keys) := by
      funext key'
      by_cases hSame : key' = key
      · simp [hSame]
      · simp [hSame]
    rw [hEnd] at hBoth
    exact hBoth

-----
-- Revocation And Retirement

theorem maskOf_none : maskOf (fun _ => false) = 0 := by
  apply BitVec.eq_of_getLsbD_eq
  intro n _
  rw [Bool.eq_iff_iff, getLsbD_maskOf]
  simp

theorem observeCall_release (keys : List Key) :
    (keys.map OutputCall.release).map observeCall = keys.map Observation.released := by
  rw [List.map_map]
  rfl

/- A reconciliation with the right mask, made or not. -/
theorem carries_reconcile {sides : Mask} (hSides : sides = maskOf held) (reconciles : Bool) :
    Carries held held ((if reconciles then
          [OutputCall.reconcileModifiers sides]
        else []).map observeCall) := by
  cases reconciles with
  | false => exact .nil held
  | true =>
    have hSound : (Observation.reconciled sides).Sound held := hSides
    exact .single hSound

theorem quarantine_focusEnterKeys (t : Devices) : t.quarantine.focusEnterKeys = fun _ => false := by
  funext key
  rw [← Bool.not_eq_true, Devices.focusEnterKeys_iff]
  intro h
  rcases h with ⟨id, hOwner⟩
  rw [Devices.ownerOf_quarantine] at hOwner
  split at hOwner
  · simp at hOwner
  · simp at hOwner

theorem revoke_carries (r : Router) (output : Output) :
    Carries r.devices.focusEnterKeys (r.revoke output).router.devices.focusEnterKeys
      ((r.revoke output).calls.map observeCall) := by
  have hReleases := carries_releases (nodup_revokedKeys r.devices) (fun key =>
        (mem_revokedKeys_iff r.devices key).mp)
  have hNone : (fun key =>
        r.devices.focusEnterKeys key && decide (key ∉ revokedKeys r.devices)) =
      fun _ => false := by
    funext key
    simp only [mem_revokedKeys_iff]
    cases r.devices.focusEnterKeys key <;> simp
  rw [hNone] at hReleases
  simp only [revoke, List.map_append, observeCall_release, quarantine_focusEnterKeys]
  exact hReleases.append (carries_reconcile maskOf_none.symm _)

/- What clients still hold once a device is gone. -/
theorem retiredKeys_left (t : Devices) (id : Nat) : (fun key =>
      t.focusEnterKeys key && decide (key ∉ retiredKeys t id)) =
      (t.clear id).focusEnterKeys := by
  funext key
  rw [Bool.eq_iff_iff]
  simp only [Bool.and_eq_true, decide_eq_true_eq, mem_retiredKeys_iff,
    Devices.focusEnterKeys_iff, Devices.ownerOf_clear]
  constructor
  · intro h
    rcases h with ⟨⟨other, hOwner⟩, hShared⟩
    by_cases hSame : other = id
    · rw [hSame] at hOwner
      push Not at hShared
      rcases hShared hOwner with ⟨third, hNe, hThird⟩
      exact ⟨third, by rw [if_neg hNe, hThird]⟩
    · exact ⟨other, by rw [if_neg hSame, hOwner]⟩
  · intro h
    rcases h with ⟨other, hOwner⟩
    split at hOwner
    · simp at hOwner
    · rename_i hNe
      exact ⟨⟨other, hOwner⟩, fun h => h.2 other hNe hOwner⟩

theorem retire_carries (r : Router) (id : Nat) (output : Output) :
    Carries r.devices.focusEnterKeys (r.retire id output).router.devices.focusEnterKeys
      ((r.retire id output).calls.map observeCall) := by
  cases hTracks : r.tracks id with
  | false =>
    simp only [retire, hTracks, Bool.not_false, if_true]
    exact .nil _
  | true =>
    have hHeld : ∀ key ∈ retiredKeys r.devices id, r.devices.focusEnterKeys key = true := by
      intro key hMem
      rw [mem_retiredKeys_iff] at hMem
      exact (r.devices.focusEnterKeys_iff key).mpr ⟨id, hMem.1⟩
    have hReleases := carries_releases (nodup_retiredKeys r.devices id) hHeld
    rw [retiredKeys_left] at hReleases
    simp only [retire, hTracks, Bool.not_true, Bool.false_eq_true, if_false, List.map_append,
      observeCall_release]
    exact hReleases.append (carries_reconcile (Devices.forwardedModifiers_eq _) _)

-----
-- Replacements And Routed Keys

theorem focus_of_unowned {key : Key} (hFree : ∀ id, r.owner id key ≠ .forwarded) :
    r.devices.focusEnterKeys key = false := by
  rw [← Bool.not_eq_true, Devices.focusEnterKeys_iff]
  intro h
  rcases h with ⟨id, hOwner⟩
  exact hFree id hOwner

/- A replacement restores the mask of the held keys. -/
theorem replacement_carries {original : Nat} {d : Decision} (hFree : r.preflight original d = true) :
    Carries r.devices.focusEnterKeys r.devices.focusEnterKeys ([r.replacement d].map observeCall) := by
  have hSound : (observeCall (r.replacement d)).Sound
      r.devices.focusEnterKeys := by
    refine ⟨r.devices.forwardedModifiers_eq, ?_⟩
    intro key hKey
    apply focus_of_unowned
    intro id
    rw [(preflight_free hFree).2.2 id key hKey]
    simp
  exact .single hSound

/- Under the lock clients hold nothing. -/
theorem focus_of_locked (hConfined : r.Confined) (hLocked : r.locked = true) (key : Key) :
    r.devices.focusEnterKeys key = false := by
  apply focus_of_unowned
  intro id hForwarded
  rcases hConfined hLocked id key with hNone | hOwner
  · rw [hNone] at hForwarded
    simp at hForwarded
  · rw [hForwarded] at hOwner
    simp [Owner.confined] at hOwner

section Routed

variable {id : Nat} {key : Key} (ticket : Option Ticket) (reply : Option Decision)
variable (now : Nat) (output : Output) (stockAdmitted : Bool)

theorem focus_routeFinal (state : State) : (r.routeFinal (.ofKey id key state) ticket reply now
        output stockAdmitted).router.devices.focusEnterKeys =
      Function.update r.devices.focusEnterKeys key (decide
            ((r.routeFinal (.ofKey id key state) ticket reply
              now output stockAdmitted).router.owner id key =
              .forwarded) ||
          r.devices.otherForwarded id key) := by
  apply Devices.focusEnterKeys_update
  intro id' key' hOther
  exact r.routeFinal_owner_other id key state ticket reply now output stockAdmitted hOther

/- The calls of a decided key down. -/
theorem decideDown_carries (event : Event) :
    Carries r.devices.focusEnterKeys r.devices.focusEnterKeys
      ((r.decideDown event ticket reply now output).calls.map observeCall) := by
  rcases r.decideDown_cases event ticket reply now output with
    ⟨hCalls, _⟩ | ⟨_, _, _, _, _, hAuthorised, hCalls, _⟩
  · rw [hCalls]
    exact .nil _
  · rw [hCalls]
    exact replacement_carries hAuthorised.free

/- A key whose holders do not change stays as it is. -/
theorem focus_routeFinal_same {state : State}
    (hSame : (decide ((r.routeFinal (.ofKey id key state) ticket reply
            now output stockAdmitted).router.owner id key = .forwarded) ||
        r.devices.otherForwarded id key) = r.devices.focusEnterKeys key) :
    (r.routeFinal (.ofKey id key state) ticket reply now
        output stockAdmitted).router.devices.focusEnterKeys =
      r.devices.focusEnterKeys := by
  rw [focus_routeFinal, hSame]
  exact Function.update_eq_self key _

theorem down_carries (hConfined : r.Confined) (hTracked : r.devices.Tracked id)
    (hOwner : r.owner id key = .none) :
    let e :=
      r.routeFinal (.ofKey id key .down) ticket reply now output stockAdmitted
    Carries r.devices.focusEnterKeys e.router.devices.focusEnterKeys (e.calls.map observeCall ++
        observeFinal (.ofKey id key .down) e.value) := by
  have hOwned : r.devices.ownerOf id key = .none := hOwner
  have hBefore := r.devices.focusEnterKeys_eq id key
  rw [hOwned] at hBefore
  simp only [reduceCtorEq, decide_false, Bool.false_or] at hBefore
  simp only [observeFinal_down]
  cases hLocked : r.locked with
  | true =>
    have hKey := focus_of_locked hConfined hLocked key
    rcases routeFinal_down_locked ticket reply now
        output stockAdmitted hTracked hOwner hLocked with
      ⟨hCalls, hDeliver, hOutcome, hAfter⟩
    rw [focus_routeFinal_same ticket reply now output stockAdmitted (by
        rw [hAfter, ← hBefore]
        cases stockAdmitted <;> simp), hCalls, hDeliver]
    cases stockAdmitted with
    | true =>
      rw [decide_eq_true (hOutcome.mpr rfl)]
      have hSound : (Observation.down key true).Sound
          r.devices.focusEnterKeys := hKey
      exact .single hSound
    | false => exact .nil _
  | false =>
    rcases routeFinal_down_unlocked ticket reply now
        output stockAdmitted hTracked hOwner hLocked with
      ⟨hCalls, ⟨hDeliver, hOutcome, hAfter, hOther⟩ | ⟨hDeliver, hAfter⟩⟩
    · rw [hCalls, hDeliver, focus_routeFinal, hAfter, decide_eq_false hOutcome]
      refine (decideDown_carries ..).append ?_
      have hSound : (Observation.down key false).Sound
          r.devices.focusEnterKeys :=
        hBefore.trans hOther
      exact .single hSound
    · rw [hCalls, hDeliver, focus_routeFinal_same ticket reply now output stockAdmitted (by
          rw [hBefore]
          cases hOther : r.devices.otherForwarded id key with
          | true => simp
          | false =>
            rw [hOther] at hAfter
            simpa using hAfter)]
      simpa using decideDown_carries ticket reply now output (.ofKey id key .down)

theorem up_carries (hConfined : r.Confined) (hOwner : r.owner id key ≠ .none) :
    let e :=
      r.routeFinal (.ofKey id key .up) ticket reply now output stockAdmitted
    Carries r.devices.focusEnterKeys e.router.devices.focusEnterKeys (e.calls.map observeCall ++
        observeFinal (.ofKey id key .up) e.value) := by
  have hBefore := r.devices.focusEnterKeys_eq id key
  have hAfter := r.routeFinal_owner_up id key ticket reply now output stockAdmitted
  simp only [observeFinal_up]
  rcases routeFinal_up ticket reply now output stockAdmitted hOwner with
    ⟨hCalls, ⟨hDeliver, hOutcome, hForwarded, hOther⟩ | ⟨hDeliver, hOutcome, hLocked, hLocker⟩ |
      ⟨hDeliver, _, hMerged⟩⟩
  · rw [hCalls, hDeliver, focus_routeFinal, hAfter, hOther, decide_eq_false hOutcome]
    have hSound : (Observation.up key false).Sound
        r.devices.focusEnterKeys := by
      refine .inr ?_
      rw [hBefore]
      simp only [owner] at hForwarded
      simp [hForwarded]
    exact .single hSound
  · have hKey := focus_of_locked hConfined hLocked key
    have hOther : r.devices.otherForwarded id key = false := by
      rw [hKey] at hBefore
      simp only [Bool.false_eq, Bool.or_eq_false_iff] at hBefore
      exact hBefore.2
    rw [hCalls, hDeliver, focus_routeFinal, hAfter, hOther, decide_eq_true hOutcome]
    have hSound : (Observation.up key true).Sound
        r.devices.focusEnterKeys := .inl rfl
    exact .single hSound
  · rw [hCalls, hDeliver, focus_routeFinal_same ticket reply now output stockAdmitted (by
        rw [hAfter, hBefore]
        simp only [owner] at hMerged
        cases hOther : r.devices.otherForwarded id key with
        | true => simp
        | false =>
          rw [hOther] at hMerged
          simpa using hMerged)]
    exact .nil _

end Routed

-----
-- The Mirror

theorem carries_of_devices {r' : Router} (hDevices : r'.devices = r.devices) :
    Carries r.devices.focusEnterKeys r'.devices.focusEnterKeys [] := by
  rw [hDevices]
  exact .nil _

/- Calls that come between the events of keyboards. -/
theorem call_carries (r : Router) {call : Call} (hDirect : call.direct = true) :
    Carries r.devices.focusEnterKeys (r.perform call).1.devices.focusEnterKeys
      ((r.perform call).2.calls.map observeCall) := by
  cases call with
  | add | route | originalOutcome => simp [Call.direct] at hDirect
  | begin event now budgetNs releaseAction =>
    exact carries_of_devices (r.begin_frame event now budgetNs releaseAction).1
  | settlement event now budgetNs =>
    exact carries_of_devices (r.settlement_frame event now budgetNs).1
  | finishRelease t reply deliveredOriginal now output original =>
      simp only [perform]
      rw [(r.finishRelease_frame t reply deliveredOriginal now output original).1]
      rcases r.finishRelease_cases t reply deliveredOriginal now output original with
        ⟨hCalls, _⟩ | ⟨_, _, _, _, hAuthorised, hCalls, _⟩
      · rw [hCalls]
        exact .nil _
      · rw [hCalls]
        exact replacement_carries hAuthorised.free
  | revoke output => exact revoke_carries r output
  | lock output => exact revoke_carries { r with locked := true } output
  | retire id output => exact retire_carries r id output
  | recoverRetiredOutput exactRetirementProof =>
    exact carries_of_devices (r.recoverRetiredOutput_frame exactRetirementProof).1
  | focusChanged | unlockConfirmed | disconnect => exact .nil _

/- One step keeps the ledger in step with the clients. -/
theorem Moves.mirrors {a a' : Adapter} {op : Op} (hMoves : Moves a a' op answer)
    (hConfined : a.router.Confined) (hBacked : a.Backed) (hTracking : a.Tracking) :
    Carries a.router.devices.focusEnterKeys a'.router.devices.focusEnterKeys answer.observed := by
  cases hMoves with
  | idle hRouter =>
    rw [hRouter]
    exact .nil _
  | attached new _ _ hRouter =>
    have hSame : (a.router.add new).1.devices.focusEnterKeys =
        a.router.devices.focusEnterKeys := by
      apply Devices.focusEnterKeys_congr
      intro id key
      have hOwner := a.router.add_owner new id key
      unfold owner at hOwner
      rw [hOwner]
    rw [hRouter, hSame]
    exact .nil _
  | @detached _ output id _ hRouter =>
    rw [hRouter]
    simpa [Answer.observed] using retire_carries a.router id output
  | routed id key state _ hReported hRouter =>
    rw [hRouter]
    have hOld := hTracking id hReported.attached
    cases hReported.reports with
    | down hFree =>
      apply down_carries _ _ _ _ _ hConfined hOld.1
      by_contra hOwned
      exact hFree (hBacked id key hOwned)
    | repeated hHeld =>
      have hSame := a.router.routeFinal_repeated id key
      simp only [Answer.observed, observeFinal_repeated, hSame]
      exact .nil _
    | up hHeld => exact up_carries _ _ _ _ _ hConfined (hOld.2 key hHeld)
  | called hDirect hRouter =>
    rw [hRouter]
    simpa [Answer.observed] using call_carries a.router hDirect

theorem replace_of_observed {target : Nat} {restore : Mask}
    (hSeen : .replaced target restore ∈ answer.observed) :
    ∃ requested, .replace target requested restore ∈ answer.calls := by
  rcases List.mem_append.mp hSeen with hCall | hFinal
  · rcases List.mem_map.mp hCall with ⟨call, hMem, hSame⟩
    cases call with
    | replace key requested restore' =>
      simp only [observeCall, Observation.replaced.injEq] at hSame
      rcases hSame with ⟨rfl, rfl⟩
      exact ⟨requested, hMem⟩
    | release key | reconcileModifiers sides => simp [observeCall] at hSame
  · exfalso
    cases hResult : answer.final with
    | none => simp [hResult] at hFinal
    | some final =>
      rcases final with ⟨event, result⟩
      simp only [hResult, observeFinal] at hFinal
      split at hFinal
      all_goals simp at hFinal

/- The target of a replacement is held by no keyboard. -/
theorem Moves.target_free {a a' : Adapter} {op : Op} (hMoves : Moves a a' op answer) {target : Nat}
    {restore : Mask} (hSeen : .replaced target restore ∈ answer.observed) (id : Nat) (key : Key)
    (hKey : key.val = target) : a.router.owner id key = .none := by
  rcases replace_of_observed hSeen with ⟨requested, hCall⟩
  have hFree : ∀ call, .replace target requested restore ∈ (a.router.perform call).2.calls →
      a.router.owner id key = .none := by
    intro call hMem
    rcases perform_replace hMem with ⟨t, d, _, _, _, hAuthorised, hCalls⟩
    rw [hCalls, List.mem_singleton] at hMem
    simp only [replacement, OutputCall.replace.injEq] at hMem
    rw [hMem.1] at hKey
    exact (preflight_free hAuthorised.free).2.2 id key hKey
  cases hMoves with
  | idle | attached => simp at hCall
  | @detached _ output id' => exact hFree (.retire id' output) hCall
  | @routed _ _ _ ticket reply now output stockAdmitted id' key' state =>
      rw [routeFinal_calls] at hCall
      exact hFree (.route (.ofKey id' key' state) ticket reply now output) hCall
  | @called call => exact hFree call hCall

/-
  Client mirror.  In every run whose retirements go through the registry, what clients
  hold is what `focusEnterKeys` reports; no press is repeated and no release unpaired,
  releases of the locker apart; masks are those of the held keys; and no replacement hits
  a key anyone holds.
-/
theorem client_mirror {trace : List Entry} {a : Adapter} (hRun : Run step init trace a)
    (hRegistered : ∀ e ∈ trace, e.pre.Registered e.op) :
    heldAfter (fun _ => false) (observations trace) = a.router.devices.focusEnterKeys ∧
      Mirrors (fun _ => false) (observations trace) ∧
      ∀ e ∈ trace, ∀ target restore, .replaced target restore ∈ e.out.observed → ∀ id (key : Key),
          key.val = target →
          e.pre.router.owner id key = .none := by
  induction hRun with
  | nil =>
    refine ⟨?_, trivial, by simp⟩
    symm
    funext key
    apply focus_of_unowned
    intro id hOwner
    have hNone := init_owner id key
    exact absurd (hNone.symm.trans hOwner) (by simp)
  | @snoc front last next op answer hFront hStep ih =>
    have hMoves := step_moves hStep
    have hPrior := (forall_mem_snoc.mp hRegistered).1
    rcases ih hPrior with ⟨hHeld, hMirrors, hTargets⟩
    have hReachable : last.Reachable := ⟨front, hFront⟩
    have hCarries := hMoves.mirrors hReachable.confined hReachable.backed
        (run_tracking hFront hPrior)
    have hAll := Carries.append ⟨hMirrors, hHeld⟩ hCarries
    rw [observations_snoc]
    refine ⟨hAll.2, hAll.1, ?_⟩
    refine forall_mem_snoc.mpr ⟨hTargets, ?_⟩
    intro target restore hSeen id key hKey
    exact hMoves.target_free hSeen id key hKey

/- A key is pressed while the session is unlocked. -/
def unlockedPress : List Op :=
  [.attach 1 true false oneKey, .call .unlockConfirmed, .key 1 30 true none none 0 .compliant true]

theorem client_mirror_unlockedPress :
    let key : Key := ⟨30, by decide⟩
    let trace :=
      entriesOf step init unlockedPress
    let a := lastOf step init unlockedPress
    observations trace = [.down key false] ∧ heldAfter (fun _ => false) (observations trace) =
        a.router.devices.focusEnterKeys := by
  refine ⟨by decide +kernel, ?_⟩
  apply And.left
  apply client_mirror
  · exact .of_isSome (by decide +kernel)
  · intro e hMem
    have hOp := op_mem_of_entriesOf hMem
    simp only [unlockedPress, List.mem_cons, List.not_mem_nil, or_false] at hOp
    rcases hOp with hOp | hOp | hOp
    all_goals
      rw [hOp]
      trivial

/- A key is pressed and released at the locker. -/
def lockedStroke : List Op :=
  [.attach 1 true false oneKey, .key 1 30 true none none 0 .compliant true,
    .key 1 30 false none none 0 .compliant true]

/- A keyboard is retired behind the registry's back. -/
def retiredPress : List Op :=
  [.attach 1 true false oneKey, .call .unlockConfirmed, .call (.retire 1 .compliant),
    .key 1 30 true none none 0 .compliant true]

/-
  The locker gets the release of a key no client holds, and a press of a retired keyboard
  reaches a client unrecorded.
-/
theorem client_mirror_broken :
    let key : Key := ⟨30, by decide⟩
    let stroke := entriesOf step init lockedStroke
    let press := entriesOf step init retiredPress
    let a := lastOf step init retiredPress
    (Run step init stroke (lastOf step init lockedStroke) ∧
        observations stroke = [.down key true, .up key true] ∧
        heldAfter (fun _ => false) [.down key true] key = false) ∧
      Run step init press a ∧ observations press = [.down key false] ∧
        a.router.devices.focusEnterKeys key = false := by
  refine ⟨⟨?_, ?_⟩, ?_, ?_⟩
  · exact .of_isSome (by decide +kernel)
  · decide +kernel
  · exact .of_isSome (by decide +kernel)
  · decide +kernel

end Sledge.Native.Adapter
