import Sledge.Broker.Output

/-
  Ownership of a press by its first decision.

  A press that is swallowed stays silent until it ends, unless
  a dropped episode brings back an older press of the same
  key that the virtual keyboard was told about.  No decision
  other than the one on a fresh press has any effect.

  Main results:
    * `Session.Handles.silenced`
    * `Session.swallowed_silent`
    * `Session.fresh_press_decides`
-/

-----
-- Swallowed Presses

namespace Sledge.Broker

open Transition

open Linux (IoError)
open Ordered

namespace KeyState

/- States that differ in what was committed at most. -/
structure SameKeys (s s' : KeyState) : Prop where
  physical : s'.physical = s.physical
  output : s'.output = s.output
  swallowed : s'.swallowed = s.swallowed
  dropping : s'.dropping = s.dropping

theorem SameKeys.trans {s t u : KeyState} (hFirst : s.SameKeys t) (hSecond : t.SameKeys u) :
    s.SameKeys u :=
  ⟨hSecond.physical.trans hFirst.physical, hSecond.output.trans hFirst.output,
    hSecond.swallowed.trans hFirst.swallowed,
    hSecond.dropping.trans hFirst.dropping⟩

variable {s s' : KeyState} {event : RawEvent} {decision : Operation} {output : List RawEvent}
variable {code : Nat}

theorem Applies.disjoint (hApplies : s.Applies event decision s' output) (hOwned : s.Owned)
    (hDisjoint : Disjoint s.output s.swallowed) : Disjoint s'.output s'.swallowed := by
  cases hApplies with
  | ignored | dropped | forwarded | repeated => exact hDisjoint
  | released => exact .mono (Finset.erase_subset _ _) (Finset.erase_subset _ _) hDisjoint
  | pressed _ _ _ _ hFresh =>
    rw [Finset.disjoint_insert_left]
    exact ⟨fun hMem => hFresh (hOwned.swallowed hMem), hDisjoint⟩
  | swallowed _ _ _ _ hFresh =>
    rw [Finset.disjoint_insert_right]
    exact ⟨fun hMem => hFresh (hOwned.output hMem), hDisjoint⟩

theorem resync_disjoint {keys : Finset Nat} (hUnsplit : Disjoint (s.output ∩ s.swallowed) keys) :
    Disjoint (s.resync keys).1.output (s.resync keys).1.swallowed := by
  rw [resync_output, Finset.disjoint_left]
  intro code hOutput hSwallowed
  simp only [Finset.mem_filter] at hSwallowed
  simp only [Finset.mem_union, Finset.mem_filter, List.mem_toFinset, List.mem_filter,
    decide_eq_true_eq] at hOutput
  rcases hOutput with ⟨hMem, _⟩ | ⟨_, _, hFree⟩
  · exact Finset.disjoint_left.mp hUnsplit (Finset.mem_inter.mpr ⟨hMem, hSwallowed.1⟩) hSwallowed.2
  · exact hFree hSwallowed

/- Only keys the broker knows are put out. -/
structure InRange (s : KeyState) : Prop where
  output : ∀ c ∈ s.output, c ≤ maxKey
  committed : ∀ c ∈ s.committedOutput, c ≤ maxKey

theorem Applies.inRange (hApplies : s.Applies event decision s' output) (hRange : s.InRange) :
    s'.InRange := by
  cases hApplies with
  | ignored | forwarded | repeated => exact hRange
  | dropped | swallowed => exact ⟨hRange.output, hRange.committed⟩
  | released =>
    refine ⟨?_, hRange.committed⟩
    intro c hMem
    exact hRange.output c (Finset.mem_erase.mp hMem).2
  | pressed _ _ _ hCode =>
    refine ⟨?_, hRange.committed⟩
    intro c hMem
    rcases Finset.mem_insert.mp hMem with rfl | hOld
    · exact hCode
    · exact hRange.output c hOld

theorem InRange.resync (hRange : s.InRange) (keys : Finset Nat) : (s.resync keys).1.InRange := by
  rw [resync_output]
  refine ⟨?_, hRange.committed⟩
  intro c hMem
  simp only [Finset.mem_union, Finset.mem_filter, List.mem_toFinset, List.mem_filter,
    decide_eq_true_eq] at hMem
  rcases hMem with ⟨hOld, _⟩ | ⟨_, hCode, _⟩
  · exact hRange.output c hOld
  · exact hCode

/- The event presses or repeats the key. -/
def sounds (event : RawEvent) (code : Nat) : Prop :=
  event.isKey = true ∧ event.code = code ∧ (event.value = 1 ∨ event.value = 2)

/- A key that sounds is put out afterwards. -/
theorem Applies.sounds_output (hApplies : s.Applies event decision s' output) {e : RawEvent}
    (hMem : e ∈ output) (hSounds : sounds e code) : code ∈ s'.output := by
  cases hApplies with
  | ignored | dropped | swallowed => cases hMem
  | forwarded _ hKey =>
    obtain rfl := List.mem_singleton.mp hMem
    simp [sounds, hKey] at hSounds
  | released _ _ hValue =>
    unfold release at hMem
    split_ifs at hMem
    · obtain rfl := List.mem_singleton.mp hMem
      simp [sounds, hValue] at hSounds
    · cases hMem
  | repeated _ _ _ hOutput =>
    obtain rfl := List.mem_singleton.mp hMem
    rw [← hSounds.2.1]
    exact hOutput
  | pressed =>
    obtain rfl := List.mem_singleton.mp hMem
    rw [← hSounds.2.1]
    exact Finset.mem_insert_self _ _

/- The key was swallowed and is not put out. -/
structure Silenced (s : KeyState) (code : Nat) : Prop where
  swallowed : code ∈ s.swallowed
  output : s.dropping = false → code ∉ s.output

theorem Silenced.of_sameKeys (hSilenced : s.Silenced code) (hSame : s.SameKeys s') :
    s'.Silenced code := by
  constructor
  · rw [hSame.swallowed]
    exact hSilenced.swallowed
  · rw [hSame.dropping, hSame.output]
    exact hSilenced.output

/- Until it comes up, a silenced key stays silent. -/
theorem Applies.silenced (hApplies : s.Applies event decision s' output)
    (hOwned : s.dropping = false → s.Owned) (hSilenced : s.Silenced code)
    (hUp : ¬ (event.isKey = true ∧ event.code = code ∧ event.value = 0)) :
    s'.Silenced code ∧ ∀ e ∈ output, ¬ sounds e code := by
  cases hApplies with
  | ignored => exact ⟨hSilenced, by simp⟩
  | dropped =>
    refine ⟨⟨hSilenced.swallowed, ?_⟩, by simp⟩
    intro hOpen
    cases hOpen
  | forwarded _ hKey =>
    refine ⟨hSilenced, ?_⟩
    simp [sounds, hKey]
  | released hOpen hKey hValue =>
    have hOther : code ≠ event.code := by
      rintro rfl
      exact hUp ⟨hKey, rfl, hValue⟩
    refine ⟨⟨?_, ?_⟩, ?_⟩
    · exact Finset.mem_erase.mpr ⟨hOther, hSilenced.swallowed⟩
    · intro _ hMem
      exact hSilenced.output hOpen (Finset.mem_erase.mp hMem).2
    · unfold release
      split_ifs <;> simp [sounds, hValue]
  | repeated hOpen _ _ hOutput =>
    refine ⟨hSilenced, ?_⟩
    intro e hMem hSounds
    obtain rfl := List.mem_singleton.mp hMem
    rw [hSounds.2.1] at hOutput
    exact hSilenced.output hOpen hOutput
  | pressed hOpen hKey hValue _ hFresh =>
    have hOther : code ≠ event.code := by
      rintro rfl
      exact hFresh ((hOwned hOpen).swallowed hSilenced.swallowed)
    refine ⟨⟨hSilenced.swallowed, ?_⟩, ?_⟩
    · intro _ hMem
      rcases Finset.mem_insert.mp hMem with hSame | hOld
      · exact hOther hSame
      · exact hSilenced.output hOpen hOld
    · intro e hMem hSounds
      obtain rfl := List.mem_singleton.mp hMem
      exact hOther hSounds.2.1.symm
  | swallowed hOpen =>
    refine ⟨⟨?_, hSilenced.output⟩, by simp⟩
    exact Finset.mem_insert_of_mem hSilenced.swallowed

/- A snapshot that still has a silenced key keeps it silent. -/
theorem resync_silenced {keys : Finset Nat} (hSwallowed : code ∈ s.swallowed)
    (hOutput : code ∉ s.output) (hHeld : code ∈ keys) :
    (s.resync keys).1.Silenced code ∧ ∀ e ∈ (s.resync keys).2, ¬ sounds e code := by
  have hKept : code ∈ s.swallowed.filter (· ∈ keys) := Finset.mem_filter.mpr ⟨hSwallowed, hHeld⟩
  refine ⟨⟨?_, ?_⟩, ?_⟩
  · rw [resync_output]
    exact hKept
  · intro _ hMem
    rw [resync_output] at hMem
    simp only [Finset.mem_union, Finset.mem_filter, List.mem_toFinset, List.mem_filter,
      decide_eq_true_eq] at hMem
    rcases hMem with ⟨hOld, _⟩ | ⟨_, _, hFree⟩
    · exact hOutput hOld
    · exact hFree ⟨hSwallowed, hHeld⟩
  · intro e hMem hSounds
    rcases resync_events hMem with ⟨c, rfl⟩ | ⟨c, rfl, _, _, hFree⟩
    · rcases hSounds.2.2 with hValue | hValue <;>
        simp [key] at hValue
    · obtain rfl : c = code := hSounds.2.1
      exact hFree hSwallowed

end KeyState

namespace DeviceProxy

open KeyState

variable {p : DeviceProxy} {raw : RawEvent} {decision : Operation}

theorem absorb_sameKeys (p : DeviceProxy) (event : RawEvent) :
    p.state.SameKeys (p.absorb event).1.state := by
  unfold absorb
  split_ifs <;> exact ⟨rfl, rfl, rfl, rfl⟩

theorem absorbAll_sameKeys (p : DeviceProxy) (events : List RawEvent) :
    p.state.SameKeys (p.absorbAll events).1.state := by
  induction events generalizing p with
  | nil => exact ⟨rfl, rfl, rfl, rfl⟩
  | cons event events ih => exact (absorb_sameKeys p event).trans (ih _)

theorem absorb_inRange (hRange : p.state.InRange) (event : RawEvent) :
    (p.absorb event).1.state.InRange := by
  unfold absorb
  split_ifs
  · exact ⟨hRange.output, hRange.output⟩
  · exact hRange
  · exact hRange

theorem absorbAll_inRange (hRange : p.state.InRange) (events : List RawEvent) :
    (p.absorbAll events).1.state.InRange := by
  induction events generalizing p with
  | nil => exact hRange
  | cons event events ih => exact ih (absorb_inRange hRange event)

theorem applications_absorb (p : DeviceProxy) (event : RawEvent) :
    applications (p.absorb event).2 = [] := by
  unfold absorb
  split_ifs <;> rfl

theorem applications_absorbAll (p : DeviceProxy) (events : List RawEvent) :
    applications (p.absorbAll events).2 = [] := by
  induction events generalizing p with
  | nil => rfl
  | cons event events ih =>
    simp only [absorbAll, applications_append, applications_absorb, ih, List.append_nil]

variable {e : RawEvent}

theorem queued_absorb {event : RawEvent} (hMem : e ∈ queued (p.absorb event).2) : e = event := by
  unfold absorb at hMem
  split_ifs at hMem
  · cases hMem
  · exact List.mem_singleton.mp hMem
  · cases hMem

theorem queued_absorbAll {events : List RawEvent} (hMem : e ∈ queued (p.absorbAll events).2) :
    e ∈ events := by
  induction events generalizing p with
  | nil => cases hMem
  | cons event events ih =>
    simp only [absorbAll, queued_append, List.mem_append] at hMem
    rcases hMem with hFirst | hRest
    · rw [queued_absorb hFirst]
      exact List.mem_cons_self
    · exact List.mem_cons_of_mem _ (ih hRest)

theorem decided_sameKeys (p : DeviceProxy) (sequence : Nat) (raw : RawEvent) (decision : Operation) :
    ((p.rolledBack raw).state.apply raw decision).1.SameKeys
      (p.decided sequence raw decision).1.state :=
  absorbAll_sameKeys
    { p.rolledBack raw with
      sequence := sequence
      state := ((p.rolledBack raw).state.apply raw decision).1 }
    _

theorem queued_decided {sequence : Nat} (hMem : e ∈ queued (p.decided sequence raw decision).2) :
    e ∈ ((p.rolledBack raw).state.apply raw decision).2 :=
  queued_absorbAll hMem

theorem rolledBack_of_not_dropped (hDropped : raw.isDropped = false) : p.rolledBack raw = p := by
  simp [rolledBack, hDropped]

theorem not_dropped_of_key (hKey : raw.isKey = true) : raw.isDropped = false := by
  have hType : raw.eventType = 1 := by simpa [RawEvent.isKey] using hKey
  simp [RawEvent.isDropped, hType]

theorem apply_swallow {s : KeyState} (hKey : raw.isKey = true) (hValue : raw.value = 1)
    (hRange : raw.code ≤ maxKey) (hFresh : raw.code ∉ s.physical) (hOpen : s.dropping = false) :
    s.apply raw .swallow = ({ s with
          physical := insert raw.code s.physical
          swallowed := insert raw.code s.swallowed },
        []) := by
  simp [KeyState.apply, Operation.isDecision, not_dropped_of_key hKey, hOpen, hKey, hValue, hRange,
    KeyState.press, hFresh]

theorem apply_of_dropped {s : KeyState} (hDropped : raw.isDropped = true)
    (hDecision : decision.isDecision = true) :
    s.apply raw decision = ({ s with dropping := true }, []) := by
  simp [KeyState.apply, hDropped, hDecision]

/- No key of a snapshot was told down and swallowed. -/
def unsplit (p : DeviceProxy) (i : Incoming) : Bool :=
  !(p.state.dropping && i.raw.isReport) ||
    match i.keys with
    | .ok keys => decide (Disjoint (p.state.committedOutput ∩ p.state.swallowed) keys)
    | .error _ => true

/- The event ends the press of a key. -/
def ends (p : DeviceProxy) (i : Incoming) (code : Nat) : Bool :=
  (i.raw.isKey && i.raw.code == code && i.raw.value == 0) || (p.state.dropping && i.raw.isReport &&
      match i.keys with
      | .ok keys => decide (code ∉ keys)
      | .error _ => false)

theorem disjoint_of_unsplit {i : Incoming} {keys : Finset Nat} (hUnsplit : p.unsplit i = true)
    (hDropping : p.state.dropping = true) (hReport : i.raw.isReport = true)
    (hKeys : i.keys = .ok keys) : Disjoint (p.state.committedOutput ∩ p.state.swallowed) keys := by
  simpa [unsplit, hDropping, hReport, hKeys] using hUnsplit

end DeviceProxy

namespace Session

open DeviceProxy KeyState

variable {C : Type} {socket : Socket C} {p p' : DeviceProxy} {i : Incoming} {log : List Record}
variable {code : Nat}

theorem Handles.disjoint (hHandles : Handles p i p' log) (hTracks : p.Tracks)
    (hUnsplit : p.unsplit i = true)
    (hDisjoint : p.state.dropping = false → Disjoint p.state.output p.state.swallowed)
    (hOpen : p'.state.dropping = false) : Disjoint p'.state.output p'.state.swallowed := by
  cases hHandles with
  | resynced keys _ _ _ hKeys hDropping hReport =>
    have hApart := disjoint_of_unsplit hUnsplit hDropping hReport hKeys
    rw [hTracks.committed hDropping] at hApart
    exact resync_disjoint hApart
  | settled decision sequence _ _ hDecision =>
    have hSame := p.decided_sameKeys sequence i.raw decision
    rw [hSame.dropping] at hOpen
    rw [hSame.output, hSame.swallowed]
    cases hDropped : i.raw.isDropped with
    | true =>
      rw [apply_of_dropped hDropped hDecision] at hOpen
      cases hOpen
    | false =>
      rw [rolledBack_of_not_dropped hDropped] at hOpen ⊢
      have hApplies := p.state.apply_applies i.raw decision
      rw [(hApplies.kept hDropped).2.1] at hOpen
      exact hApplies.disjoint (hTracks.owned hOpen) (hDisjoint hOpen)

variable {talk : List Record}

theorem queued_resynced {events frame : List RawEvent} (hTalk : Talk talk) :
    queued (talk ++ events.map .queued ++ [.emitted frame]) = events := by
  rw [List.append_assoc, queued_talk hTalk, queued_append, queued_map_queued]
  exact List.append_nil _

theorem queued_settled {before : KeyState} {raw : RawEvent} {decision : Operation}
    {rest : List Record} (hTalk : Talk talk) :
    queued (talk ++ .applied before raw decision :: rest) = queued rest :=
  queued_talk hTalk _

theorem Handles.inRange (hHandles : Handles p i p' log) (hRange : p.state.InRange) :
    p'.state.InRange ∧ ∀ e ∈ queued log, ∀ code, sounds e code → code ≤ maxKey := by
  cases hHandles with
  | resynced keys _ _ talk _ _ _ hTalk =>
    have hAfter := hRange.resync keys
    refine ⟨⟨hAfter.output, hAfter.output⟩, ?_⟩
    intro e hMem code hSounds
    rw [queued_resynced hTalk] at hMem
    rcases resync_events hMem with ⟨c, rfl⟩ | ⟨c, rfl, hCode, _⟩
    · rcases hSounds.2.2 with hValue | hValue <;>
        simp [key] at hValue
    · obtain rfl : c = code := hSounds.2.1
      exact hCode
  | settled decision sequence talk _ hDecision _ hTalk =>
    have hRolled : (p.rolledBack i.raw).state.InRange := by
      unfold rolledBack
      split_ifs
      · exact ⟨hRange.committed, hRange.committed⟩
      · exact hRange
    have hApplies := (p.rolledBack i.raw).state.apply_applies i.raw decision
    have hApplied := hApplies.inRange hRolled
    refine ⟨absorbAll_inRange hApplied _, ?_⟩
    intro e hMem code hSounds
    rw [queued_settled hTalk] at hMem
    exact hApplied.output code (hApplies.sounds_output (queued_decided hMem) hSounds)

/- A silenced key stays silent until its press ends. -/
theorem Handles.silenced (hHandles : Handles p i p' log) (hTracks : p.Tracks)
    (hUnsplit : p.unsplit i = true) (hSilenced : p.state.Silenced code)
    (hEnds : p.ends i code = false) :
    p'.state.Silenced code ∧ ∀ e ∈ queued log, ¬ sounds e code := by
  cases hHandles with
  | resynced keys _ _ talk hKeys hDropping hReport hTalk =>
    have hHeld : code ∈ keys := by
      simpa [ends, hDropping, hReport, hKeys] using (Bool.or_eq_false_iff.mp hEnds).2
    have hApart := disjoint_of_unsplit hUnsplit hDropping hReport hKeys
    rw [hTracks.committed hDropping] at hApart
    have hOutput : code ∉ p.state.output := fun hMem =>
      Finset.disjoint_left.mp hApart (Finset.mem_inter.mpr ⟨hMem, hSilenced.swallowed⟩) hHeld
    rcases resync_silenced hSilenced.swallowed hOutput hHeld with ⟨hAfter, hSilent⟩
    rw [queued_resynced hTalk]
    exact ⟨⟨hAfter.swallowed, hAfter.output⟩, hSilent⟩
  | settled decision sequence talk _ hDecision _ hTalk =>
    rw [queued_settled hTalk]
    have hUp : ¬ (i.raw.isKey = true ∧ i.raw.code = code ∧ i.raw.value = 0) := by
      simpa [ends] using (Bool.or_eq_false_iff.mp hEnds).1
    have hSame := p.decided_sameKeys sequence i.raw decision
    cases hDropped : i.raw.isDropped with
    | true =>
      have hApply : (p.rolledBack i.raw).state.apply i.raw decision =
          ({ (p.rolledBack i.raw).state with dropping := true }, []) :=
        apply_of_dropped hDropped hDecision
      rw [hApply] at hSame
      refine ⟨⟨?_, ?_⟩, ?_⟩
      · rw [hSame.swallowed]
        simp only [rolledBack, hDropped, if_true]
        exact hSilenced.swallowed
      · rw [hSame.dropping]
        intro hOpen
        cases hOpen
      · intro e hMem
        have hNone := queued_decided hMem
        rw [hApply] at hNone
        cases hNone
    | false =>
      rw [rolledBack_of_not_dropped hDropped] at hSame
      have hApplies := p.state.apply_applies i.raw decision
      rcases hApplies.silenced hTracks.owned hSilenced hUp with ⟨hAfter, hSilent⟩
      refine ⟨hAfter.of_sameKeys hSame, ?_⟩
      intro e hMem
      have hFound := queued_decided hMem
      rw [rolledBack_of_not_dropped hDropped] at hFound
      exact hSilent e hFound

variable {trace : List (Entry C)} {start last : DeviceProxy × C}

theorem run_disjoint (hStarts : Starts start.1)
    (hRun : Run (step socket) start trace last)
    (hSteps : ∀ e ∈ trace, e.pre.1.unsplit e.op = true) :
    last.1.state.dropping = false → Disjoint last.1.state.output last.1.state.swallowed := by
  induction hRun with
  | nil =>
    rw [hStarts.state]
    intro _
    exact Finset.disjoint_empty_left _
  | snoc hFront hLast ih =>
    rcases forall_mem_snoc.mp hSteps with ⟨hEarlier, hUnsplit⟩
    have hTracks := (run_tracks hStarts hFront).1
    exact (step_handles hLast).disjoint hTracks hUnsplit (ih hEarlier)

theorem run_inRange (hStarts : Starts start.1)
    (hRun : Run (step socket) start trace last) : last.1.state.InRange := by
  induction hRun with
  | nil =>
    rw [hStarts.state]
    exact ⟨by simp [fresh], by simp [fresh]⟩
  | snoc hFront hLast ih => exact ((step_handles hLast).inRange ih).1

/- A fresh press whose decision is to swallow it. -/
structure SwallowedDown (code : Nat) (e : Entry C) : Prop where
  isKey : e.op.raw.isKey = true
  ofCode : e.op.raw.code = code
  isDown : e.op.raw.value = 1
  fresh : code ∉ e.pre.1.state.physical
  decision : ∃ before, applications e.out = [(before, e.op.raw, .swallow)]

/- No press or repeat of the key is placed in a frame. -/
def Silent (code : Nat) (e : Entry C) : Prop := ∀ event ∈ queued e.out, ¬ sounds event code

theorem applications_settled {sequence : Nat} {decision : Operation} (hTalk : Talk talk) :
    applications (talk ++ .applied (p.rolledBack i.raw).state i.raw decision ::
            (p.decided sequence i.raw decision).2) =
      [((p.rolledBack i.raw).state, i.raw, decision)] := by
  have hRest : applications (p.decided sequence i.raw decision).2 = [] := applications_absorbAll _ _
  rw [applications_talk hTalk]
  change _ :: applications _ = _
  rw [hRest]

theorem applications_resynced {events frame : List RawEvent} (hTalk : Talk talk) :
    applications (talk ++ events.map .queued ++ [.emitted frame]) = [] := by
  rw [List.append_assoc, applications_talk hTalk, applications_append, applications_map_queued]
  rfl

/- A swallowed press is silent from the start. -/
theorem SwallowedDown.silenced {e : Entry C} {next : DeviceProxy × C} (hDown : SwallowedDown code e)
    (hStep : step socket e.pre e.op = some (next, e.out)) (hRange : code ≤ maxKey)
    (hTracks : e.pre.1.Tracks) : next.1.state.Silenced code ∧ Silent code e := by
  rcases e with ⟨⟨p, c⟩, i, log⟩
  rcases next with ⟨p', c'⟩
  rcases hDown with ⟨hKey, hCode, hValue, hFresh, before, hOut⟩
  dsimp only at hKey hCode hValue hFresh hOut hTracks hStep
  cases step_handles hStep with
  | resynced keys _ _ talk _ _ _ hTalk =>
    rw [applications_resynced hTalk] at hOut
    cases hOut
  | settled decision sequence talk _ hDecision hAsked hTalk =>
    rw [applications_settled hTalk] at hOut
    obtain rfl : decision = .swallow := by
      simp only [List.cons.injEq, Prod.mk.injEq] at hOut
      exact hOut.1.2.2
    have hOpen : p.state.dropping = false := by
      rcases hAsked with hPass | ⟨_, hOpen⟩
      · cases hPass
      · exact hOpen
    have hSame := p.decided_sameKeys sequence i.raw .swallow
    have hDropped := not_dropped_of_key hKey
    rw [rolledBack_of_not_dropped hDropped] at hSame
    have hApply := apply_swallow hKey hValue (hCode ▸ hRange) (hCode ▸ hFresh) hOpen
    rw [hApply] at hSame
    refine ⟨⟨?_, ?_⟩, ?_⟩
    · rw [hSame.swallowed, ← hCode]
      exact Finset.mem_insert_self _ _
    · rw [hSame.output]
      intro _ hMem
      exact hFresh ((hTracks.owned hOpen).output hMem)
    · intro event hMem
      rw [queued_settled hTalk] at hMem
      have hNone := queued_decided hMem
      rw [rolledBack_of_not_dropped hDropped, hApply] at hNone
      cases hNone

/- From a silenced key on, every step is silent. -/
theorem run_silenced (hTracks : start.1.Tracks) (hSilenced : start.1.state.Silenced code)
    (hRun : Run (step socket) start trace last)
    (hSteps : ∀ e ∈ trace, e.pre.1.unsplit e.op = true)
    (hEnds : ∀ e ∈ trace, e.pre.1.ends e.op code = false) :
    last.1.Tracks ∧ last.1.state.Silenced code ∧ ∀ e ∈ trace, Silent code e := by
  induction hRun with
  | nil => exact ⟨hTracks, hSilenced, by simp⟩
  | snoc _ hLast ih =>
    rw [forall_mem_snoc] at hSteps hEnds ⊢
    rcases ih hSteps.1 hEnds.1 with ⟨hMid, hStill, hSilent⟩
    have hHandles := step_handles hLast
    rcases hHandles.silenced hMid hSteps.2 hStill hEnds.2 with ⟨hAfter, hQuiet⟩
    exact ⟨(hHandles.tracks hMid).1, hAfter, hSilent, hQuiet⟩

theorem run_unknown (hRange : start.1.state.InRange) (hUnknown : maxKey < code)
    (hRun : Run (step socket) start trace last) : ∀ e ∈ trace, Silent code e := by
  have hBoth : last.1.state.InRange ∧ ∀ e ∈ trace, Silent code e := by
    induction hRun with
    | nil => exact ⟨hRange, by simp⟩
    | snoc _ hLast ih =>
      rw [forall_mem_snoc]
      rcases (step_handles hLast).inRange ih.1 with ⟨hAfter, hPlaced⟩
      refine ⟨hAfter, ih.2, ?_⟩
      intro event hMem hSounds
      have hCode := hPlaced event hMem code hSounds
      omega
  exact hBoth.2

/-
  In a run whose snapshots meet no key that was told down and swallowed, a press is put
  out or swallowed but not both, and a swallowed press is silent as long as it lasts.
-/
theorem swallowed_silent (hStarts : Starts start.1)
    (hRun : Run (step socket) start trace last)
    (hSteps : ∀ e ∈ trace, e.pre.1.unsplit e.op = true) :
    (last.1.state.dropping = false → Disjoint last.1.state.output last.1.state.swallowed) ∧
    (∀ front e rest code, trace = front ++ e :: rest → SwallowedDown code e →
      (∀ f ∈ rest, f.pre.1.ends f.op code = false) →
      ∀ f ∈ e :: rest, Silent code f) := by
  refine ⟨run_disjoint hStarts hRun hSteps, ?_⟩
  rintro front e rest code rfl hDown hEnds
  rcases hRun.split with ⟨mid, hFront, hTail⟩
  rcases hTail.cons_inv with ⟨rfl, next, hStep, hRest⟩
  by_cases hRange : code ≤ maxKey
  · have hTracks := (run_tracks hStarts hFront).1
    rcases hDown.silenced hStep hRange hTracks with ⟨hSilenced, hSilent⟩
    have hUnsplit : ∀ f ∈ rest, f.pre.1.unsplit f.op = true :=
      fun f hMem => hSteps f (by simp [hMem])
    have hAfter := ((step_handles hStep).tracks hTracks).1
    rcases run_silenced hAfter hSilenced hRest hUnsplit hEnds with ⟨_, _, hLater⟩
    exact List.forall_mem_cons.mpr ⟨hSilent, hLater⟩
  · exact run_unknown (run_inRange hStarts hFront) (by omega) hTail

/- A swallowed key is held through a dropped episode. -/
def heldThrough : List Incoming :=
  .plain (key 30 1) ∅ :: .plain (key 30 2) ∅ :: droppedEpisode {30} ++ [.plain (key 30 2) ∅]

theorem swallowed_silent_heldThrough :
    ∃ e rest, entriesOf (step scripted) (DeviceProxy.new 1, [.swallow]) heldThrough =
        e :: rest ∧
      SwallowedDown 30 e ∧ ∀ f ∈ e :: rest, Silent 30 f := by
  have hEvaluated :
      let start := (DeviceProxy.new 1, [Operation.swallow])
      let trace := entriesOf (step scripted) start heldThrough
      (exec (step scripted) start heldThrough).isSome = true ∧
        (∀ e ∈ trace, e.pre.1.unsplit e.op = true) ∧
        (∀ e ∈ trace, e.pre.1.ends e.op 30 = false) ∧
        ∃ e ∈ trace.head?, e.op.raw.isKey = true ∧ e.op.raw.code = 30 ∧ e.op.raw.value = 1 ∧
            30 ∉ e.pre.1.state.physical ∧
            applications e.out = [(.fresh, e.op.raw, .swallow)] := by
    decide +kernel
  rcases hEvaluated with ⟨hSome, hSteps, hEnds, e, hHead, hKey, hCode, hDown, hFresh, hOut⟩
  rcases List.head?_eq_some_iff.mp hHead with ⟨rest, hTrace⟩
  have hSwallowed : SwallowedDown 30 e := ⟨hKey, hCode, hDown, hFresh, .fresh, hOut⟩
  refine ⟨e, rest, hTrace, hSwallowed, ?_⟩
  have hSilent := (swallowed_silent ⟨rfl, rfl⟩ (Run.of_isSome hSome) hSteps).2
  rw [hTrace] at hSilent hEnds
  exact hSilent [] e rest 30 rfl hSwallowed (fun f hMem => hEnds f (by simp [hMem]))

/-
  A passed press of a key is released and pressed again in one frame, the second time
  swallowed, and the frame is dropped.
-/
def pressedTwice : List Incoming :=
  [.plain (key 30 1) ∅, .plain .default ∅, .plain (key 30 0) ∅, .plain (key 30 1) ∅] ++
    droppedEpisode {30} ++ [.plain (key 30 2) ∅]

/-
  The rollback brings the first press back while the second one stays swallowed, and its
  repeat is placed in a frame.
-/
theorem rollback_splits_press : let start :=
      (DeviceProxy.new 1, [Operation.pass, .pass, .swallow, .pass])
    let trace := entriesOf (step scripted) start pressedTwice
    let last := lastOf (step scripted) start pressedTwice
    Run (step scripted) start trace last ∧ last.1.state.dropping = false ∧
      ¬ Disjoint last.1.state.output last.1.state.swallowed ∧
      trace.map (fun e => queued e.out) = [[key 30 1], [], [key 30 0], [], [], [], [key 30 2]] := by
  have hEvaluated :
      let start := (DeviceProxy.new 1, [Operation.pass, .pass, .swallow, .pass])
      let trace := entriesOf (step scripted) start pressedTwice
      let last := lastOf (step scripted) start pressedTwice
      (exec (step scripted) start pressedTwice).isSome = true ∧
        last.1.state.dropping = false ∧
        ¬ Disjoint last.1.state.output last.1.state.swallowed ∧
        trace.map (fun e => queued e.out) = [[key 30 1], [], [key 30 0], [], [], [],
            [key 30 2]] := by
    decide +kernel
  exact ⟨.of_isSome hEvaluated.1, hEvaluated.2⟩

end Session

-----
-- Fresh Presses

namespace KeyState

/- A press of a key that is up. -/
def FreshPress (s : KeyState) (raw : RawEvent) : Prop :=
  raw.isKey = true ∧ raw.value = 1 ∧ raw.code ∉ s.physical

instance (s : KeyState) (raw : RawEvent) : Decidable (s.FreshPress raw) :=
  inferInstanceAs (Decidable (_ ∧ _ ∧ _))

/- Only on a fresh press does the decision matter. -/
theorem apply_congr {s : KeyState} {raw : RawEvent} {first second : Operation}
    (hFirst : first.isDecision = true) (hSecond : second.isDecision = true)
    (hFresh : s.FreshPress raw → second = first) : s.apply raw second = s.apply raw first := by
  have hPress (hKey : raw.isKey = true) (hDown : raw.value = 1) :
      s.press raw second = s.press raw first := by
    by_cases hHeld : raw.code ∈ s.physical
    · simp only [press, if_pos hHeld]
    · rw [hFresh ⟨hKey, hDown, hHeld⟩]
  unfold apply
  simp only [hFirst, hSecond, not_true_eq_false, if_false]
  split_ifs with hDropped hDropping hKey hKnown hUp hRepeat <;>
    try rfl
  refine hPress hKey ?_
  push Not at hKnown
  omega

end KeyState

namespace DeviceProxy

/- Proxies that put out the same from now on. -/
structure SameOutput (p q : DeviceProxy) : Prop where
  state : q.state = p.state
  pending : q.pending = p.pending

variable {p q : DeviceProxy}

theorem SameOutput.absorb (hSame : p.SameOutput q) (event : RawEvent) :
    (p.absorb event).1.SameOutput (q.absorb event).1 ∧ (q.absorb event).2 = (p.absorb event).2 := by
  rcases hSame with ⟨hState, hPending⟩
  unfold DeviceProxy.absorb
  split_ifs
  · exact ⟨⟨by simp only [hState], rfl⟩, by simp only [hPending]⟩
  · exact ⟨⟨hState, by simp only [hPending]⟩, rfl⟩
  · exact ⟨⟨hState, hPending⟩, rfl⟩

theorem SameOutput.absorbAll (hSame : p.SameOutput q) (events : List RawEvent) :
    (p.absorbAll events).1.SameOutput (q.absorbAll events).1 ∧
      (q.absorbAll events).2 = (p.absorbAll events).2 := by
  induction events generalizing p q with
  | nil => exact ⟨hSame, rfl⟩
  | cons event events ih =>
    rcases hSame.absorb event with ⟨hFirst, hLog⟩
    rcases ih hFirst with ⟨hRest, hLogs⟩
    refine ⟨hRest, ?_⟩
    simp only [DeviceProxy.absorbAll, hLog, hLogs]

theorem SameOutput.rolledBack (hSame : p.SameOutput q) (raw : RawEvent) :
    (p.rolledBack raw).SameOutput (q.rolledBack raw) := by
  unfold DeviceProxy.rolledBack
  split_ifs
  · exact ⟨by rw [hSame.state], rfl⟩
  · exact hSame

/- A rollback leaves the physical keys. -/
theorem rolledBack_physical (p : DeviceProxy) (raw : RawEvent) :
    (p.rolledBack raw).state.physical = p.state.physical := by
  unfold rolledBack
  split_ifs <;> rfl

theorem SameOutput.decided {first second : Operation} {sequence sequence' : Nat} {raw : RawEvent}
    (hSame : p.SameOutput q) (hFirst : first.isDecision = true) (hSecond : second.isDecision = true)
    (hFresh : p.state.FreshPress raw → second = first) :
    (p.decided sequence raw first).1.SameOutput (q.decided sequence' raw second).1 ∧
      (q.decided sequence' raw second).2 = (p.decided sequence raw first).2 := by
  have hRolled := hSame.rolledBack raw
  have hApply : (q.rolledBack raw).state.apply raw second =
      (p.rolledBack raw).state.apply raw first := by
    rw [hRolled.state]
    refine KeyState.apply_congr hFirst hSecond ?_
    rintro ⟨hKey, hDown, hUp⟩
    rw [rolledBack_physical] at hUp
    exact hFresh ⟨hKey, hDown, hUp⟩
  unfold DeviceProxy.decided
  dsimp only
  rw [hApply]
  refine SameOutput.absorbAll ?_ _
  exact ⟨rfl, hRolled.pending⟩

end DeviceProxy

namespace Session

open DeviceProxy KeyState

variable {C D : Type} {p q p' q' : DeviceProxy} {i j : Incoming} {log log' : List Record}

/- The decisions a log applies. -/
def decisions (log : List Record) : List Operation :=
  (applications log).map (fun applied => applied.2.2)

/- Two inputs that a proxy must not tell apart. -/
structure Alike (p : DeviceProxy) (i j : Incoming) : Prop where
  raw : j.raw = i.raw
  keys : p.state.dropping = true → i.raw.isReport = true → j.keys = i.keys

theorem Handles.sameOutput (hFirst : Handles p i p' log) (hSecond : Handles q j q' log')
    (hSame : p.SameOutput q) (hAlike : Alike p i j)
    (hFresh : p.state.FreshPress i.raw → decisions log' = decisions log) :
    p'.SameOutput q' ∧ frames log' = frames log := by
  have hRaw := hAlike.raw
  cases hFirst with
  | resynced keys _ _ talk hKeys hDropping hReport hTalk =>
    cases hSecond with
    | resynced found _ _ other hFound _ _ hOther =>
      rw [hAlike.keys hDropping hReport, hKeys] at hFound
      cases hFound
      refine ⟨⟨by simp only [hSame.state], rfl⟩, ?_⟩
      simp only [List.append_assoc, frames_talk hTalk,
        frames_talk hOther, hSame.state, hSame.pending]
    | settled _ _ _ hTurn =>
      rw [hSame.state, hRaw] at hTurn
      exact absurd ⟨hDropping, hReport⟩ hTurn
  | settled first _ talk hTurn hDecision _ hTalk =>
    cases hSecond with
    | resynced _ _ _ _ _ hDropping hReport =>
      rw [hSame.state] at hDropping
      rw [hRaw] at hReport
      exact absurd ⟨hDropping, hReport⟩ hTurn
    | settled second _ other _ hDecision' _ hOther =>
      unfold decisions at hFresh
      rw [applications_settled hTalk, applications_settled hOther] at hFresh
      simp only [List.map_cons, List.map_nil, List.cons.injEq, and_true] at hFresh
      rw [hRaw]
      rcases hSame.decided hDecision hDecision' hFresh with ⟨hAfter, hLog⟩
      refine ⟨hAfter, ?_⟩
      rw [frames_talk hTalk, frames_talk hOther, hLog]
      rfl

/- Entries with the same input and fresh-press decision. -/
structure Paired (e : Entry C) (f : Entry D) : Prop where
  alike : Alike e.pre.1 e.op f.op
  decision : e.pre.1.state.FreshPress e.op.raw → decisions f.out = decisions e.out

variable {socket : Socket C} {socket' : Socket D} {trace : List (Entry C)} {trace' : List (Entry D)}
variable {start last : DeviceProxy × C} {start' last' : DeviceProxy × D}

/-
  Two runs over the same input whose decisions agree on fresh presses put the same frames
  out and end in the same state, whatever was decided on repeats, releases and duplicates.
-/
theorem fresh_press_decides (hStart : start.1.SameOutput start'.1)
    (hRun : Run (step socket) start trace last)
    (hRun' : Run (step socket') start' trace' last')
    (hPaired : List.Forall₂ Paired trace trace') :
    last'.1.state = last.1.state ∧ last'.1.pending = last.1.pending ∧
      frames (history trace') = frames (history trace) := by
  induction hPaired generalizing start start' with
  | nil =>
    obtain rfl := Run.nil_iff.mp hRun
    obtain rfl := Run.nil_iff.mp hRun'
    exact ⟨hStart.state, hStart.pending, rfl⟩
  | cons hPair _ ih =>
    rcases hRun.cons_inv with ⟨rfl, next, hStep, hRest⟩
    rcases hRun'.cons_inv with ⟨rfl, next', hStep', hRest'⟩
    have hBoth := (step_handles hStep).sameOutput (step_handles hStep')
        hStart hPair.alike hPair.decision
    rcases ih hBoth.1 hRest hRest' with ⟨hState, hPending, hFrames⟩
    refine ⟨hState, hPending, ?_⟩
    simp only [history, List.flatMap_cons, frames_append, hBoth.2]
    exact congrArg _ hFrames

/- A key goes down, repeats and comes up. -/
def pressedOnce : List Incoming :=
  [.plain (key 30 1) ∅, .plain (key 30 2) ∅, .plain (key 30 0) ∅, .plain .default ∅]

/- The repeat and the release are decided differently. -/
theorem fresh_press_decides_pressedOnce :
    let first := (DeviceProxy.new 1, [Operation.pass])
    let second :=
      (DeviceProxy.new 1, [Operation.pass, .swallow, .swallow])
    let trace := entriesOf (step scripted) first pressedOnce
    let trace' := entriesOf (step scripted) second pressedOnce
    trace.map (fun e => decisions e.out) ≠ trace'.map (fun e => decisions e.out) ∧
      frames (history trace') = frames (history trace) := by
  have hEvaluated :
      let first := (DeviceProxy.new 1, [Operation.pass])
      let second := (DeviceProxy.new 1, [Operation.pass, .swallow, .swallow])
      let trace := entriesOf (step scripted) first pressedOnce
      let trace' := entriesOf (step scripted) second pressedOnce
      (exec (step scripted) first
          pressedOnce).isSome = true ∧
        (exec (step scripted) second pressedOnce).isSome = true ∧
        trace.map (fun e => decisions e.out) ≠ trace'.map (fun e => decisions e.out) ∧
        List.Forall₂ (fun e f =>
            f.op.raw = e.op.raw ∧ e.pre.1.state.dropping = false ∧
              (e.pre.1.state.FreshPress e.op.raw → decisions f.out = decisions e.out))
          trace trace' := by
    decide +kernel
  rcases hEvaluated with ⟨hFirst, hSecond, hDiffer, hBoth⟩
  have hStart : (DeviceProxy.new 1).SameOutput (.new 1) := ⟨rfl, rfl⟩
  have hRun := Run.of_isSome hFirst
  have hRun' := Run.of_isSome hSecond
  refine ⟨hDiffer, (fresh_press_decides hStart hRun hRun' (hBoth.imp ?_)).2.2⟩
  rintro e f ⟨hRaw, hOpen, hDecision⟩
  refine ⟨⟨hRaw, ?_⟩, hDecision⟩
  intro hDropping
  rw [hOpen] at hDropping
  cases hDropping

end Session

end Sledge.Broker
