import Sledge.Lib.Ordered
import Sledge.Broker.Protocol

/-
  Ownership of one keyboard's keys in the broker
  (`packages/linux/src/state.rs`).

  A key that goes down is passed or swallowed until it comes
  up.  `output` runs ahead of the virtual keyboard by the
  frame that is not emitted yet; `committedOutput` is what the
  virtual keyboard was told.

  Main results:
    * `KeyState.apply_applies`
    * `KeyState.Applies.plays`
    * `KeyState.resync_plays`
-/

-----
-- Key State

namespace Sledge.Broker

open Ordered

def maxKey : Nat := 767

def key (code : Nat) (value : Int) : RawEvent := ⟨1, code, value⟩

structure KeyState where
  physical : Finset Nat
  output : Finset Nat
  committedOutput : Finset Nat
  swallowed : Finset Nat
  dropping : Bool
deriving DecidableEq

namespace KeyState

/- The state of a keyboard without held keys. -/
def fresh : KeyState where
  physical := ∅
  output := ∅
  committedOutput := ∅
  swallowed := ∅
  dropping := false

def commitOutput (s : KeyState) : KeyState := { s with committedOutput := s.output }

/- Give up output that was not emitted. -/
def rollbackOutput (s : KeyState) : KeyState := { s with output := s.committedOutput }

def press (s : KeyState) (event : RawEvent) (decision : Operation) : KeyState × List RawEvent :=
  if event.code ∈ s.physical then (s, [])
  else
    let s := { s with physical := insert event.code s.physical }
    if decision = .pass then
      ({ s with output := insert event.code s.output }, [event])
    else
      ({ s with swallowed := insert event.code s.swallowed }, [])

def release (s : KeyState) (event : RawEvent) : KeyState × List RawEvent :=
  ({ s with
      physical := s.physical.erase event.code
      swallowed := s.swallowed.erase event.code
      output := s.output.erase event.code },
    if event.code ∈ s.output then [event] else [])

/- The events one decided event puts out. -/
def apply (s : KeyState) (event : RawEvent) (decision : Operation) : KeyState × List RawEvent :=
  if ¬ decision.isDecision then (s, [])
  else if event.isDropped then ({ s with dropping := true }, [])
  else if s.dropping then (s, [])
  else if ¬ event.isKey then (s, [event])
  else if maxKey < event.code ∨ ¬ (0 ≤ event.value ∧ event.value ≤ 2) then
    (s, [])
  else if event.value = 0 then s.release event
  else if event.value = 2 then
    (s, if event.code ∈ s.output then [event] else [])
  else s.press event decision

/- The keys a snapshot adds to the output, in its order. -/
def discover (s : KeyState) (codes : List Nat) : KeyState × List RawEvent :=
  codes.foldl (fun (s, events) code =>
      if code ≤ maxKey ∧ code ∉ s.output ∧ code ∉ s.swallowed then
        ({ s with output := insert code s.output }, events ++ [key code 1])
      else (s, events))
    (s, [])

/- Reconcile with a snapshot, releases first. -/
def resync (s : KeyState) (keys : Finset Nat) : KeyState × List RawEvent :=
  let releases := (ascending (s.output \ keys)).map (fun code => key code 0)
  let s :=
    { s with output := s.output.filter (· ∈ keys), swallowed := s.swallowed.filter (· ∈ keys) }
  let (s, presses) := s.discover (ascending keys)
  ({ s with physical := keys, dropping := false }, releases ++ presses)

/- Release everything this proxy may have put out. -/
def releaseAll (s : KeyState) : KeyState × List RawEvent :=
  (fresh, (ascending (s.output ∪ s.committedOutput)).map (fun code => key code 0))

end KeyState

-----
-- What A Keyboard Holds

/- The keys held after one more event. -/
def hold (keys : Finset Nat) (event : RawEvent) : Finset Nat :=
  if ¬ event.isKey then keys
  else if event.value = 1 then insert event.code keys
  else if event.value = 0 then keys.erase event.code
  else keys

def held (keys : Finset Nat) (events : List RawEvent) : Finset Nat := events.foldl hold keys

/- Presses are of keys not held, releases of held ones. -/
def Plays : Finset Nat → List RawEvent → Prop
  | _, [] => True
  | keys, event :: rest =>
    (event.isKey = true → event.value = 1 → event.code ∉ keys) ∧
      (event.isKey = true → event.value = 0 → event.code ∈ keys) ∧
      Plays (hold keys event) rest

variable {keys : Finset Nat} {events rest : List RawEvent} {event : RawEvent} {code : Nat}

theorem held_append : held keys (events ++ rest) = held (held keys events) rest := List.foldl_append

theorem plays_append :
    Plays keys (events ++ rest) ↔ Plays keys events ∧ Plays (held keys events) rest := by
  induction events generalizing keys with
  | nil => simp [Plays, held]
  | cons event events ih =>
    simp only [List.cons_append, Plays, ih, and_assoc]
    rfl

theorem plays_releases {codes : List Nat} (hNodup : codes.Nodup)
    (hHeld : ∀ code ∈ codes, code ∈ keys) :
    Plays keys (codes.map (fun code => key code 0)) ∧
      held keys (codes.map (fun code => key code 0)) = keys \ codes.toFinset := by
  induction codes generalizing keys with
  | nil => simp [Plays, held]
  | cons code codes ih =>
    rcases List.nodup_cons.mp hNodup with ⟨hNew, hRest⟩
    have hStill : ∀ c ∈ codes, c ∈ keys.erase code := by
      intro c hMem
      refine Finset.mem_erase.mpr ⟨?_, hHeld c (by simp [hMem])⟩
      rintro rfl
      exact hNew hMem
    rcases ih hRest hStill with ⟨hPlays, hKeys⟩
    refine ⟨⟨?_, ?_, hPlays⟩, ?_⟩
    · intro _ hValue
      exact absurd hValue (by simp [key])
    · intro _ _
      exact hHeld code (by simp)
    · refine hKeys.trans ?_
      ext c
      simp only [Finset.mem_sdiff, Finset.mem_erase, List.toFinset_cons, Finset.mem_insert]
      tauto

namespace KeyState

variable {s : KeyState} {decision : Operation}

/-
  A walk over a snapshot adds every key that is neither put out nor swallowed, and puts
  each of them out once.
-/
theorem discover_spec (s : KeyState) (codes : List Nat) : (s.discover codes).1 =
        { s with
          output := s.output ∪ (codes.filter (fun code =>
                code ≤ maxKey ∧ code ∉ s.swallowed)).toFinset } ∧
      Plays s.output (s.discover codes).2 ∧
      held s.output (s.discover codes).2 = (s.discover codes).1.output ∧
      ∀ event ∈ (s.discover codes).2, ∃ code, event = key code 1 ∧ code ≤ maxKey ∧
          code ∉ s.swallowed ∧ code ∈ codes := by
  induction codes using List.reverseRecOn with
  | nil => simp [discover, Plays, held]
  | append_singleton codes code ih =>
    rcases ih with ⟨hState, hPlays, hHeld, hEvents⟩
    have hWalk : s.discover (codes ++ [code]) = if code ≤ maxKey ∧
            code ∉ (s.discover codes).1.output ∧
            code ∉ (s.discover codes).1.swallowed then
          ({ (s.discover codes).1 with output := insert code (s.discover codes).1.output },
            (s.discover codes).2 ++ [key code 1])
        else s.discover codes := by
      rw [discover, List.foldl_append]
      rfl
    have hSwallowed : (s.discover codes).1.swallowed = s.swallowed := by rw [hState]
    rw [hSwallowed] at hWalk
    rw [hWalk]
    split
    · rename_i hNew
      refine ⟨?_, ?_, ?_, ?_⟩
      · rw [hState]
        simp only [List.filter_append, List.toFinset_append, mk.injEq, true_and, and_true]
        ext c
        simp [hNew.1, hNew.2.2]
      · rw [plays_append]
        refine ⟨hPlays, ?_, ?_, trivial⟩
        · intro _ _
          rw [hHeld]
          exact hNew.2.1
        · intro _ hValue
          exact absurd hValue (by simp [key])
      · rw [held_append, hHeld]
        rfl
      · intro event hMem
        rcases List.mem_append.mp hMem with hOld | hLast
        · rcases hEvents event hOld with ⟨c, rfl, hRange, hFree, hFound⟩
          exact ⟨c, rfl, hRange, hFree, by simp [hFound]⟩
        · obtain rfl := List.mem_singleton.mp hLast
          exact ⟨code, rfl, hNew.1, hNew.2.2, by simp⟩
    · rename_i hKnown
      refine ⟨?_, hPlays, hHeld, ?_⟩
      · have hOutput : s.output ∪ ((codes ++ [code]).filter (fun code =>
                  code ≤ maxKey ∧ code ∉ s.swallowed)).toFinset =
              s.output ∪ (codes.filter (fun code =>
                  code ≤ maxKey ∧ code ∉ s.swallowed)).toFinset := by
          rw [hState] at hKnown
          ext c
          simp at hKnown ⊢
          grind
        rw [hOutput]
        exact hState
      · intro event hMem
        rcases hEvents event hMem with ⟨c, rfl, hRange, hFree, hFound⟩
        exact ⟨c, rfl, hRange, hFree, by simp [hFound]⟩

theorem resync_output : (s.resync keys).1 =
      { s with
        physical := keys
        output := s.output.filter (· ∈ keys) ∪ ((ascending keys).filter (fun code =>
              code ≤ maxKey ∧ code ∉ s.swallowed.filter (· ∈ keys))).toFinset
        swallowed := s.swallowed.filter (· ∈ keys)
        dropping := false } := by
  unfold resync
  dsimp only
  rw [(discover_spec _ _).1]

theorem resync_output_subset (s : KeyState) (keys : Finset Nat) :
    (s.resync keys).1.output ⊆ keys := by
  rw [resync_output]
  intro code hMem
  simp only [Finset.mem_union, Finset.mem_filter,
    List.mem_toFinset, List.mem_filter, mem_ascending] at hMem
  tauto

theorem resync_plays (s : KeyState) (keys : Finset Nat) :
    Plays s.output (s.resync keys).2 ∧ held s.output (s.resync keys).2 = (s.resync keys).1.output := by
  let kept : KeyState :=
    { s with output := s.output.filter (· ∈ keys), swallowed := s.swallowed.filter (· ∈ keys) }
  let releases := (ascending (s.output \ keys)).map (fun code => key code 0)
  have hReleases : Plays s.output releases ∧ held s.output releases = s.output \
      (ascending (s.output \ keys)).toFinset :=
    plays_releases nodup_ascending (fun code hMem =>
      (Finset.mem_sdiff.mp (mem_ascending.mp hMem)).1)
  have hKept : s.output \ (ascending (s.output \ keys)).toFinset =
      kept.output := by
    ext code
    simp only [kept, Finset.mem_sdiff, List.mem_toFinset, mem_ascending, Finset.mem_filter]
    tauto
  rcases hReleases with ⟨hPlays, hHeld⟩
  rw [hKept] at hHeld
  have hWalk := kept.discover_spec (ascending keys)
  have hEvents : (s.resync keys).2 = releases ++ (kept.discover (ascending keys)).2 := rfl
  have hOutput : (s.resync keys).1.output = (kept.discover (ascending keys)).1.output := rfl
  rw [hEvents, hOutput, plays_append, held_append, hHeld]
  exact ⟨⟨hPlays, hWalk.2.1⟩, hWalk.2.2.1⟩

theorem resync_events (hMem : event ∈ (s.resync keys).2) :
    (∃ code, event = key code 0) ∨ ∃ code, event = key code 1 ∧ code ≤ maxKey ∧
        code ∈ keys ∧ code ∉ s.swallowed := by
  rcases List.mem_append.mp hMem with hRelease | hPress
  · rcases List.mem_map.mp hRelease with ⟨code, _, rfl⟩
    exact .inl ⟨code, rfl⟩
  · rcases (discover_spec _ _).2.2.2 event hPress with ⟨code, rfl, hRange, hFree, hFound⟩
    rw [mem_ascending] at hFound
    refine .inr ⟨code, rfl, hRange, hFound, ?_⟩
    intro hSwallowed
    exact hFree (Finset.mem_filter.mpr ⟨hSwallowed, by simpa⟩)

/- The ways one decided event is applied. -/
inductive Applies (s : KeyState) (event : RawEvent) (decision : Operation) :
    KeyState → List RawEvent → Prop where
  | ignored : Applies s event decision s []
  | dropped (hDropped : event.isDropped = true) :
      Applies s event decision { s with dropping := true } []
  | forwarded (hOpen : s.dropping = false) (hKey : event.isKey = false) :
      Applies s event decision s [event]
  | released (hOpen : s.dropping = false) (hKey : event.isKey = true) (hValue : event.value = 0) :
      Applies s event decision (s.release event).1 (s.release event).2
  | repeated (hOpen : s.dropping = false) (hKey : event.isKey = true) (hValue : event.value = 2)
      (hOutput : event.code ∈ s.output) :
      Applies s event decision s [event]
  | pressed (hOpen : s.dropping = false) (hKey : event.isKey = true) (hValue : event.value = 1)
      (hRange : event.code ≤ maxKey)
      (hFresh : event.code ∉ s.physical)
      (hDecision : decision = .pass) :
      Applies s event decision
        { s with physical := insert event.code s.physical, output := insert event.code s.output }
        [event]
  | swallowed (hOpen : s.dropping = false) (hKey : event.isKey = true) (hValue : event.value = 1)
      (hRange : event.code ≤ maxKey)
      (hFresh : event.code ∉ s.physical)
      (hDecision : decision = .swallow) :
      Applies s event decision
        { s with
          physical := insert event.code s.physical
          swallowed := insert event.code s.swallowed }
        []

theorem press_applies (hOpen : s.dropping = false) (hKey : event.isKey = true)
    (hValue : event.value = 1) (hRange : event.code ≤ maxKey)
    (hDecision : decision.isDecision = true) :
    s.Applies event decision (s.press event decision).1 (s.press event decision).2 := by
  unfold press
  split_ifs with hHeld hPass
  · exact .ignored
  · exact .pressed hOpen hKey hValue hRange hHeld hPass
  · refine .swallowed hOpen hKey hValue hRange hHeld ?_
    cases decision <;> simp_all [Operation.isDecision]

theorem apply_applies (s : KeyState) (event : RawEvent) (decision : Operation) :
    s.Applies event decision (s.apply event decision).1 (s.apply event decision).2 := by
  unfold apply
  by_cases hDecision : decision.isDecision = true
  swap
  · rw [if_pos hDecision]
    exact .ignored
  rw [if_neg (not_not_intro hDecision)]
  by_cases hDropped : event.isDropped = true
  · rw [if_pos hDropped]
    exact .dropped hDropped
  rw [if_neg hDropped]
  by_cases hOpen : s.dropping = true
  · rw [if_pos hOpen]
    exact .ignored
  rw [if_neg hOpen]
  rw [Bool.not_eq_true] at hOpen
  by_cases hKey : event.isKey = true
  swap
  · rw [if_pos hKey]
    exact .forwarded hOpen (by simpa using hKey)
  rw [if_neg (not_not_intro hKey)]
  by_cases hRange : maxKey < event.code ∨ ¬ (0 ≤ event.value ∧ event.value ≤ 2)
  · rw [if_pos hRange]
    exact .ignored
  rw [if_neg hRange]
  by_cases hUp : event.value = 0
  · rw [if_pos hUp]
    exact .released hOpen hKey hUp
  rw [if_neg hUp]
  by_cases hRepeat : event.value = 2
  · rw [if_pos hRepeat]
    by_cases hOutput : event.code ∈ s.output
    · rw [if_pos hOutput]
      exact .repeated hOpen hKey hRepeat hOutput
    · rw [if_neg hOutput]
      exact .ignored
  rw [if_neg hRepeat]
  exact press_applies hOpen hKey (by omega) (by omega) hDecision

/- Every owned key is physically held. -/
structure Owned (s : KeyState) : Prop where
  output : s.output ⊆ s.physical
  swallowed : s.swallowed ⊆ s.physical

theorem resync_owned (s : KeyState) (keys : Finset Nat) : (s.resync keys).1.Owned := by
  refine ⟨resync_output_subset s keys, ?_⟩
  rw [resync_output]
  exact fun code hMem => (Finset.mem_filter.mp hMem).2

variable {s' : KeyState} {output : List RawEvent}

theorem Applies.owned (hApplies : s.Applies event decision s' output) (hOwned : s.Owned) :
    s'.Owned := by
  cases hApplies with
  | ignored | forwarded | repeated => exact hOwned
  | dropped => exact ⟨hOwned.output, hOwned.swallowed⟩
  | released =>
    exact ⟨Finset.erase_subset_erase _ hOwned.output, Finset.erase_subset_erase _ hOwned.swallowed⟩
  | pressed =>
    exact ⟨Finset.insert_subset_insert _ hOwned.output,
      hOwned.swallowed.trans (Finset.subset_insert _ _)⟩
  | swallowed =>
    exact ⟨hOwned.output.trans (Finset.subset_insert _ _),
      Finset.insert_subset_insert _ hOwned.swallowed⟩

theorem Applies.kept (hApplies : s.Applies event decision s' output)
    (hDropped : event.isDropped = false) :
    s'.committedOutput = s.committedOutput ∧ s'.dropping = s.dropping ∧
      (output = [] ∨ output = [event]) := by
  cases hApplies with
  | ignored | forwarded | repeated | pressed | swallowed => simp
  | dropped hOther =>
    rw [hDropped] at hOther
    cases hOther
  | released =>
    refine ⟨rfl, rfl, ?_⟩
    unfold release
    split_ifs <;> simp

theorem Applies.plays (hApplies : s.Applies event decision s' output)
    (hOwned : s.dropping = false → s.Owned) :
    Plays s.output output ∧ held s.output output = s'.output := by
  cases hApplies with
  | ignored | dropped | swallowed => exact ⟨trivial, rfl⟩
  | forwarded _ hKey => simp [Plays, held, hold, hKey]
  | released _ hKey hValue =>
    by_cases hOutput : event.code ∈ s.output
    · simp [release, Plays, held, hold, hKey, hValue, hOutput]
    · simp [release, Plays, held, hOutput]
  | repeated _ hKey hValue => simp [Plays, held, hold, hKey, hValue]
  | pressed hOpen hKey hValue _ hFresh =>
    have hNew : event.code ∉ s.output := fun hMem =>
      hFresh ((hOwned hOpen).output hMem)
    simp [Plays, held, hold, hKey, hValue, hNew]

end KeyState

end Sledge.Broker
