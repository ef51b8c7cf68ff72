import Sledge.Broker.Proxy

/-
  What the virtual keyboard of a proxy is told.

  The state of the keys runs ahead of the virtual keyboard by
  the frame that waits in the proxy.  A dropped episode gives
  that frame up, and the next snapshot brings the keyboard
  to the physical keys again.

  Main results:
    * `Session.Handles.tracks`
    * `Session.run_tracks`
    * `Session.output_mirrored`
-/

-----
-- Committed Output

namespace Sledge.Broker

open Transition

open Linux (IoError)

namespace DeviceProxy

/- The waiting frame leads from what was told to `output`. -/
structure Tracks (p : DeviceProxy) : Prop where
  plays : Plays p.state.committedOutput p.pending
  output : held p.state.committedOutput p.pending = p.state.output
  idle : p.state.dropping = true → p.pending = []
  owned : p.state.dropping = false → p.state.Owned

variable {p : DeviceProxy}

theorem Tracks.committed (hTracks : p.Tracks) (hDropping : p.state.dropping = true) :
    p.state.committedOutput = p.state.output := by
  have hOutput := hTracks.output
  rw [hTracks.idle hDropping] at hOutput
  exact hOutput

/- A proxy whose output has moved on by `events`, before they are emitted. -/
structure Ahead (p : DeviceProxy) (events : List RawEvent) : Prop where
  plays : Plays p.state.committedOutput (p.pending ++ events)
  output : held p.state.committedOutput (p.pending ++ events) = p.state.output
  open_ : p.state.dropping = false
  owned : p.state.Owned

theorem Ahead.tracks (hAhead : p.Ahead []) : p.Tracks := by
  have hPlays := hAhead.plays
  have hOutput := hAhead.output
  rw [List.append_nil] at hPlays hOutput
  refine ⟨hPlays, hOutput, ?_, fun _ => hAhead.owned⟩
  intro hDropping
  rw [hAhead.open_] at hDropping
  cases hDropping

/- The frames of a log lead from one set of keys to another. -/
structure Told (before after : Finset Nat) (log : List Record) : Prop where
  plays : Plays before (frames log).flatten
  reached : held before (frames log).flatten = after

theorem Told.refl {keys : Finset Nat} {log : List Record} (hSilent : frames log = []) :
    Told keys keys log := by
  constructor <;> rw [hSilent]
  · trivial
  · rfl

theorem Told.of_frames {before after : Finset Nat} {log log' : List Record}
    (hTold : Told before after log) (hFrames : frames log' = frames log) :
    Told before after log' := by
  constructor <;> rw [hFrames]
  · exact hTold.plays
  · exact hTold.reached

/- A single event is emitted or waits. -/
theorem Ahead.absorb {event : RawEvent} (hAhead : p.Ahead [event]) :
    (p.absorb event).1.Tracks ∧ Told p.state.committedOutput
        (p.absorb event).1.state.committedOutput
        (p.absorb event).2 := by
  unfold DeviceProxy.absorb
  by_cases hReport : event.isReport = true
  · rw [if_pos hReport]
    have hKey : event.isKey = false := by
      simp only [RawEvent.isReport, Bool.and_eq_true, beq_iff_eq] at hReport
      simp [RawEvent.isKey, hReport.1]
    have hPlays := (plays_append.mp hAhead.plays).1
    have hOutput := hAhead.output
    rw [held_append] at hOutput
    have hSame (keys : Finset Nat) : held keys [event] = keys := by simp [held, hold, hKey]
    rw [hSame] at hOutput
    refine ⟨⟨trivial, rfl, fun _ => rfl, ?_⟩, ?_, ?_⟩
    · intro _
      exact ⟨hAhead.owned.output, hAhead.owned.swallowed⟩
    · simpa [frames, Record.emitted?] using hPlays
    · simpa [frames, Record.emitted?, KeyState.commitOutput] using hOutput
  · rw [if_neg hReport]
    by_cases hType : event.eventType ≠ 0
    · rw [if_pos hType]
      refine ⟨⟨hAhead.plays, hAhead.output, ?_, fun _ => hAhead.owned⟩, Told.refl rfl⟩
      intro hDropping
      have hOpen := hAhead.open_
      rw [hDropping] at hOpen
      cases hOpen
    · rw [if_neg hType]
      have hKey : event.isKey = false := by
        simp only [ne_eq, not_not] at hType
        simp [RawEvent.isKey, hType]
      refine ⟨Ahead.tracks ⟨?_, ?_, hAhead.open_, hAhead.owned⟩, Told.refl rfl⟩
      · rw [List.append_nil]
        exact (plays_append.mp hAhead.plays).1
      · have hOutput := hAhead.output
        rw [held_append] at hOutput
        rw [List.append_nil]
        simpa [held, hold, hKey] using hOutput

variable {raw : RawEvent} {decision : Operation}

/- An open proxy is ahead once an event is applied. -/
theorem Tracks.ahead (sequence : Nat) {state : KeyState} {output : List RawEvent}
    (hTracks : p.Tracks) (hOpen : p.state.dropping = false)
    (hApplies : p.state.Applies raw decision state output)
    (hCommitted : state.committedOutput = p.state.committedOutput) (hStill : state.dropping = false) :
    Ahead { p with sequence := sequence, state := state } output := by
  rcases hApplies.plays hTracks.owned with ⟨hPlays, hHeld⟩
  refine ⟨?_, ?_, hStill, hApplies.owned (hTracks.owned hOpen)⟩
  · simp only [hCommitted]
    rw [plays_append, hTracks.output]
    exact ⟨hTracks.plays, hPlays⟩
  · simp only [hCommitted]
    rw [held_append, hTracks.output]
    exact hHeld

/- Dropped events give the waiting frame up. -/
theorem Tracks.dropped {sequence : Nat} (hDropped : raw.isDropped = true)
    (hDecision : decision.isDecision = true) :
    (p.decided sequence raw decision).1.Tracks ∧ Told p.state.committedOutput
        (p.decided sequence raw decision).1.state.committedOutput
        (p.decided sequence raw decision).2 := by
  have hDecided : p.decided sequence raw decision = ({ p with
            pending := []
            sequence := sequence
            state := { p.state.rollbackOutput with dropping := true } },
          []) := by
    simp [decided, rolledBack, hDropped, KeyState.apply, hDecision, absorbAll]
  rw [hDecided]
  refine ⟨⟨trivial, rfl, fun _ => rfl, ?_⟩, .refl rfl⟩
  intro hOpen
  cases hOpen

/- A dropping proxy ignores everything else. -/
theorem decided_of_dropping {sequence : Nat} (hDropped : raw.isDropped = false)
    (hDropping : p.state.dropping = true) :
    p.decided sequence raw decision = ({ p with sequence := sequence }, []) := by
  have hApply : p.state.apply raw decision = (p.state, []) := by
    unfold KeyState.apply
    simp [hDropped, hDropping]
  simp [decided, rolledBack, hDropped, hApply, absorbAll]

theorem absorbAll_single (p : DeviceProxy) (event : RawEvent) :
    p.absorbAll [event] = p.absorb event := by
  simp [absorbAll]

theorem Tracks.decided (sequence : Nat) (raw : RawEvent) (hTracks : p.Tracks)
    (hDecision : decision.isDecision = true) :
    (p.decided sequence raw decision).1.Tracks ∧ Told p.state.committedOutput
        (p.decided sequence raw decision).1.state.committedOutput
        (p.decided sequence raw decision).2 := by
  cases hDropped : raw.isDropped with
  | true => exact Tracks.dropped hDropped hDecision
  | false =>
    cases hDropping : p.state.dropping with
    | true =>
      rw [decided_of_dropping hDropped hDropping]
      exact ⟨⟨hTracks.plays, hTracks.output, hTracks.idle, hTracks.owned⟩, .refl rfl⟩
    | false =>
      have hApplies := p.state.apply_applies raw decision
      have hRolled : p.rolledBack raw = p := by simp [rolledBack, hDropped]
      rcases hApplies.kept hDropped with ⟨hCommitted, hStill, hOutput⟩
      have hAhead := hTracks.ahead sequence hDropping hApplies hCommitted (hStill.trans hDropping)
      unfold DeviceProxy.decided
      rw [hRolled]
      dsimp only
      rcases hOutput with hNone | hSingle
      · rw [hNone] at hAhead ⊢
        exact ⟨hAhead.tracks, by
            simp only [absorbAll, hCommitted]
            exact .refl rfl⟩
      · rw [hSingle] at hAhead ⊢
        rw [absorbAll_single]
        have hAbsorbed := hAhead.absorb
        simp only [hCommitted] at hAbsorbed
        exact hAbsorbed

end DeviceProxy

namespace Session

variable {C : Type} {socket : Socket C} {p p' : DeviceProxy} {i : Incoming} {log : List Record}

open DeviceProxy

theorem Handles.tracks (hHandles : Handles p i p' log) (hTracks : p.Tracks) :
    p'.Tracks ∧ Told p.state.committedOutput p'.state.committedOutput log := by
  cases hHandles with
  | resynced keys epoch sequence talk _ hDropping _ hTalk =>
    rcases p.state.resync_plays keys with ⟨hPlays, hHeld⟩
    have hOwned := p.state.resync_owned keys
    have hFrames : frames (talk ++ (p.state.resync keys).2.map .queued ++ [.emitted
              (p.pending ++ (p.state.resync keys).2)]) =
        [(p.state.resync keys).2] := by
      rw [List.append_assoc, frames_talk hTalk, frames_append, frames_map_queued,
        hTracks.idle hDropping]
      rfl
    rw [hTracks.committed hDropping]
    refine ⟨⟨trivial, rfl, fun _ => rfl, ?_⟩, ?_, ?_⟩
    · intro _
      exact ⟨hOwned.output, hOwned.swallowed⟩
    · rw [hFrames, List.flatten_singleton]
      exact hPlays
    · rw [hFrames, List.flatten_singleton]
      exact hHeld
  | settled decision sequence talk _ hDecision _ hTalk =>
    rcases hTracks.decided sequence i.raw hDecision with ⟨hAfter, hTold⟩
    exact ⟨hAfter, hTold.of_frames (frames_talk hTalk _)⟩

theorem step_tracks {c c' : C} (hTracks : p.Tracks)
    (hStep : step socket (p, c) i = some ((p', c'), log)) :
    p'.Tracks ∧ Told p.state.committedOutput p'.state.committedOutput log :=
  (step_handles hStep).tracks hTracks

abbrev Entry (C : Type) := Transition.Entry (DeviceProxy × C) Incoming (List Record)

/- The records of a run, in order. -/
def history (trace : List (Entry C)) : List Record := trace.flatMap (fun e => e.out)

theorem history_snoc (trace : List (Entry C)) (e : Entry C) :
    history (trace ++ [e]) = history trace ++ e.out := by
  rw [history, List.flatMap_append, List.flatMap_singleton]
  rfl

/- A proxy before its first event. -/
structure Starts (p : DeviceProxy) : Prop where
  state : p.state = .fresh
  pending : p.pending = []

theorem Starts.tracks (hStarts : Starts p) : p.Tracks := by
  refine ⟨?_, ?_, fun _ => hStarts.pending, ?_⟩
  · rw [hStarts.pending]
    trivial
  · rw [hStarts.pending, hStarts.state]
    rfl
  · rw [hStarts.state]
    intro _
    exact ⟨Finset.Subset.refl _, Finset.Subset.refl _⟩

variable {trace : List (Entry C)} {start last : DeviceProxy × C}

theorem run_tracks (hStarts : Starts start.1) (hRun : Run (step socket) start trace last) :
    last.1.Tracks ∧ Told ∅ last.1.state.committedOutput (history trace) := by
  induction hRun with
  | nil =>
    refine ⟨hStarts.tracks, ?_⟩
    rw [hStarts.state]
    exact .refl rfl
  | snoc _ hLast ih =>
    rcases ih with ⟨hTracks, hTold⟩
    rcases step_tracks hTracks hLast with ⟨hAfter, hStep⟩
    refine ⟨hAfter, ?_, ?_⟩
    · rw [history_snoc, frames_append, List.flatten_append, plays_append, hTold.reached]
      exact ⟨hTold.plays, hStep.plays⟩
    · rw [history_snoc, frames_append, List.flatten_append, held_append, hTold.reached]
      exact hStep.reached

/-
  The virtual keyboard holds exactly the committed output, and the waiting frame leads
  from it to `output`.  Frames press keys that are up and release keys that are down, and
  a resynchronisation leaves no output outside its snapshot.
-/
theorem output_mirrored (hStarts : Starts start.1)
    (hRun : Run (step socket) start trace last) :
    held ∅ (frames (history trace)).flatten = last.1.state.committedOutput ∧
      (last.1.state.dropping = false → held last.1.state.committedOutput last.1.pending =
          last.1.state.output) ∧
      Plays ∅ (frames (history trace)).flatten ∧
      (∀ i next log keys, step socket last i = some (next, log) → last.1.state.dropping = true →
        i.raw.isReport = true →
        i.keys = .ok keys →
        next.1.state.output ⊆ keys) := by
  rcases run_tracks hStarts hRun with ⟨hTracks, hTold⟩
  refine ⟨hTold.reached, fun _ => hTracks.output, hTold.plays, ?_⟩
  rintro i ⟨next, c⟩ log keys hStep hDropping hReport hKeys
  cases step_handles hStep with
  | resynced found _ _ _ hFound =>
    rw [hKeys] at hFound
    cases hFound
    exact KeyState.resync_output_subset _ _
  | settled _ _ _ hTurn => exact absurd ⟨hDropping, hReport⟩ hTurn

end Session

/- An event that nothing outside the proxy fails on. -/
def Incoming.plain (raw : RawEvent) (keys : Finset Nat) : Incoming where
  raw := raw
  verified := .ok ()
  keys := .ok keys
  accepted := .ok ()

/- A client that takes its decisions from a list. -/
def scripted : Socket (List Operation) :=
  fun decisions bytes =>
    match Message.read bytes with
    | .error error => (decisions, .error error)
    | .ok m =>
      if m.operation = .event then
        (decisions.tail, .ok { m with operation := decisions.headD .pass }.write)
      else (decisions, .ok { m with operation := .pass }.write)

/- Events were dropped, and a report ends the episode. -/
def droppedEpisode (keys : Finset Nat) : List Incoming := [.plain ⟨0, 3, 0⟩ ∅, .plain .default keys]

namespace Session

/- A key is pressed, and another one while events are lost. -/
def pressedMeanwhile : List Incoming :=
  .plain (key 30 1) ∅ :: .plain .default ∅ :: droppedEpisode {31}

theorem output_mirrored_pressedMeanwhile :
    ∃ trace last, Run (step scripted) (DeviceProxy.new 1, [.pass]) trace last ∧
      last.1.state.committedOutput = {31} ∧
      held ∅ (frames (history trace)).flatten = {31} := by
  have hEvaluated :
      let start := (DeviceProxy.new 1, [Operation.pass])
      (exec (step scripted) start pressedMeanwhile).isSome = true ∧
        (lastOf (step scripted) start pressedMeanwhile).1.state.committedOutput =
          {31} := by
    decide +kernel
  have hRun := Run.of_isSome hEvaluated.1
  refine ⟨_, _, hRun, hEvaluated.2, ?_⟩
  rw [(output_mirrored ⟨rfl, rfl⟩ hRun).1]
  exact hEvaluated.2

end Session

end Sledge.Broker
