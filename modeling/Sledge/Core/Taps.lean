import Sledge.Core.TapFsm
import Sledge.Lib.Timeline

/-
  What the tap machine recognises.

  Its calls are read as a timeline, with at most one call at
  each point.  A tap is a clean press of a key and its release
  with nothing in between; taps of one key form chains as long
  as nothing breaks them and each follows the one before within
  the window.  The machine reports exactly the taps, with the
  length of their chains.

  Main results:
    * `tracks_after`
    * `result_eq_tapped_iff`
    * `tapped_iff`
-/

-----
-- Calls

namespace Sledge.Core.TapFsm

open Timeline

/- The two calls that feed the machine. -/
inductive Call where
  | transition (key : KeyCode) (wasDown isDown : Bool) (newMods : Modifiers) (now : Instant)
  | otherKey
deriving DecidableEq

def feed (fsm : TapFsm) : Call → TapFsm × TapResult
  | .transition key wasDown isDown newMods now => fsm.onTransition key wasDown isDown newMods now
  | .otherKey => (fsm.onOtherKey, .none)

/- The call made at each point, if any. -/
abbrev Calls := Nat → Option Call

/- A fresh machine after the calls before a point. -/
def after (within : Duration) (calls : Calls) : Nat → TapFsm
  | 0 => withWindow within
  | n + 1 =>
    match calls n with
    | some call => ((after within calls n).feed call).1
    | none => after within calls n

/- What the call at a point returns. -/
def result (within : Duration) (calls : Calls) (n : Nat) : TapResult :=
  match calls n with
  | some call => ((after within calls n).feed call).2
  | none => .none

/- The modifiers held besides the key itself. -/
def otherMods (key : KeyCode) (mods : Modifiers) : Modifiers :=
  (mods.difference key.modifierBit).difference key.genericBit

namespace Calls

variable (calls : Calls)

def Pressed (l : Nat) (key : KeyCode) (mods : Modifiers) : Prop :=
  ∃ now, calls l = some (.transition key false true mods now)

def Released (l : Nat) (key : KeyCode) (now : Instant) : Prop :=
  ∃ mods, calls l = some (.transition key true false mods now)

/- The key is pressed with no other modifier held. -/
def PressedAlone (key : KeyCode) (l : Nat) : Prop :=
  ∃ mods, calls.Pressed l key mods ∧ (otherMods key mods).any = false

/- Nothing that ends a press of the key as a candidate. -/
def Undisturbed (key : KeyCode) (l : Nat) : Prop :=
  calls l ≠ some .otherKey ∧ (∀ other mods, ¬ calls.Pressed l other mods) ∧
    ∀ now, ¬ calls.Released l key now

/- A release of the key at this point would be a tap. -/
def Armed (n : Nat) (key : KeyCode) : Prop :=
  SinceAt (calls.PressedAlone key) (calls.Undisturbed key) n

def Tap (i : Nat) (key : KeyCode) (now : Instant) : Prop :=
  calls.Released i key now ∧ calls.Armed i key

/- What ends a sequence of taps. -/
def Breaks (key : KeyCode) (l : Nat) : Prop :=
  calls l = some .otherKey ∨ ∃ other mods, calls.Pressed l other mods ∧
      (other ≠ key ∨ (otherMods other mods).any = true)

/- The last tap of the key, not broken since. -/
def Standing (n : Nat) (key : KeyCode) (a : Nat) (now : Instant) : Prop :=
  SinceAt (fun j => j = a ∧ calls.Tap j key now)
    (fun l => ¬ calls.Breaks key l ∧ ∀ t, ¬ calls.Tap l key t)
    n

/-
  Consecutive taps of one sequence: nothing breaks it between them, and the later one
  follows within the window.
-/
def Linked (within : Duration) (key : KeyCode) (a b : Nat) : Prop :=
  ∃ start stop, calls.Standing b key a start ∧ calls.Tap b key stop ∧
      start ≤ stop ∧ stop - start ≤ within

-----
-- One Step Of The Timeline

variable {calls : Calls} {within : Duration} {n : Nat} {key : KeyCode}

theorem armed_succ : calls.Armed (n + 1) key ↔ calls.PressedAlone key n ∨
        (calls.Armed n key ∧ calls.Undisturbed key n) :=
  sinceAt_succ

variable {a b : Nat} {now : Instant}

theorem standing_succ :
    calls.Standing (n + 1) key a now ↔ (n = a ∧ calls.Tap n key now) ∨ (calls.Standing n key a now ∧
          ¬ calls.Breaks key n ∧ ∀ t, ¬ calls.Tap n key t) :=
  sinceAt_succ

theorem Standing.unique {s t : Instant} (hLeft : calls.Standing n key a s)
    (hRight : calls.Standing n key b t) : a = b ∧ s = t := by
  rcases hLeft with ⟨i, hI, ⟨rfl, hTapI⟩, hQuietI⟩
  rcases hRight with ⟨j, hJ, ⟨rfl, hTapJ⟩, hQuietJ⟩
  rcases Nat.lt_trichotomy i j with hLess | rfl | hLess
  · exact absurd hTapJ ((hQuietI j hLess hJ).2 t)
  · rcases hTapI.1 with ⟨mods, hCall⟩
    rcases hTapJ.1 with ⟨mods', hCall'⟩
    rw [hCall] at hCall'
    cases hCall'
    exact ⟨rfl, rfl⟩
  · exact absurd hTapI ((hQuietJ i hLess hI).2 s)

theorem Linked.unique {i : Nat} (hLeft : calls.Linked within key a i)
    (hRight : calls.Linked within key b i) : a = b := by
  rcases hLeft with ⟨_, _, hStandingA, _⟩
  rcases hRight with ⟨_, _, hStandingB, _⟩
  exact (hStandingA.unique hStandingB).1

theorem Linked.lt (hLinked : calls.Linked within key a b) : a < b := by
  rcases hLinked with ⟨_, _, ⟨j, hBefore, ⟨rfl, _⟩, _⟩, _⟩
  exact hBefore

/- Every tap ends some longest chain. -/
theorem exists_longest (within : Duration) (key : KeyCode) (i : Nat) :
    ∃ length, Longest (calls.Linked within key) i length :=
  Longest.exists_of_forward (fun _ _ hLinked => hLinked.lt)
    (fun _ _ _ hLeft hRight => hLeft.unique hRight) i

/- Where the key is not released, no tap of it ends. -/
theorem not_tap (hUnreleased : ∀ t, ¬ calls.Released n key t) : ¬ calls.Tap n key now := fun hTap =>
  hUnreleased now hTap.1

theorem not_breaks (hQuiet : calls n ≠ some .otherKey)
    (hUnpressed : ∀ other mods, ¬ calls.Pressed n other mods) : ¬ calls.Breaks key n := by
  rintro (hOther | ⟨other, mods, hPressed, _⟩)
  · exact hQuiet hOther
  · exact hUnpressed other mods hPressed

theorem standing_keep (hUnbroken : ¬ calls.Breaks key n) (hUntapped : ∀ t, ¬ calls.Tap n key t) :
    calls.Standing (n + 1) key a now ↔ calls.Standing n key a now := by
  rw [standing_succ]
  constructor
  · rintro (⟨_, hTap⟩ | ⟨hStanding, _⟩)
    · exact absurd hTap (hUntapped now)
    · exact hStanding
  · intro hStanding
    exact .inr ⟨hStanding, hUnbroken, hUntapped⟩

/- No sequence survives what breaks it. -/
theorem not_standing (hBreaks : calls.Breaks key n) (hUntapped : ∀ t, ¬ calls.Tap n key t) :
    ¬ calls.Standing (n + 1) key a now := by
  rw [standing_succ]
  rintro (⟨_, hTap⟩ | ⟨_, hUnbroken, _⟩)
  · exact hUntapped now hTap
  · exact hUnbroken hBreaks

end Calls

-----
-- The Machine Tracks The Timeline

/- The counter of a tap that ended at `a`. -/
def Counted (within : Duration) (calls : Calls) (n : Nat) (key : KeyCode) (state : TapState) :
    Prop :=
  ∃ a now length, calls.Standing n key a now ∧ Longest (calls.Linked within key) a length ∧
      state = ⟨min length u32Max, some now⟩

/- What a machine remembers of the calls before a point. -/
structure Tracks (within : Duration) (calls : Calls) (n : Nat) (fsm : TapFsm) : Prop where
  window : fsm.within = within
  armed : ∀ key, (fsm.activeKey = some key ∧ fsm.activeTainted = false) ↔ calls.Armed n key
  -- While a candidate is down, only its own taps are counted.
  alone : ∀ active, fsm.activeKey = some active → ∀ key ≠ active, fsm.states.get? key = none
  counted : ∀ key state, fsm.states.get? key = some state ↔ Counted within calls n key state

variable {calls : Calls} {within : Duration} {n : Nat} {fsm : TapFsm}

variable {key : KeyCode} {state : TapState}

theorem not_counted_zero : ¬ Counted within calls 0 key state := by
  rintro ⟨a, now, length, hStanding, _⟩
  exact not_sinceAt_zero hStanding

theorem tracks_zero : Tracks within calls 0 (withWindow within) where
  window := rfl
  armed := by
    intro key
    constructor
    · rintro ⟨hActive, _⟩
      cases hActive
    · intro hArmed
      exact absurd hArmed not_sinceAt_zero
  alone := by
    intro active hActive
    cases hActive
  counted := by
    intro key state
    constructor
    · intro hState
      cases hState
    · intro hCounted
      exact absurd hCounted not_counted_zero

theorem counted_keep (hUnbroken : ¬ calls.Breaks key n) (hUntapped : ∀ t, ¬ calls.Tap n key t) :
    Counted within calls (n + 1) key state ↔ Counted within calls n key state := by
  unfold Counted
  simp only [Calls.standing_keep hUnbroken hUntapped]

theorem not_counted (hBreaks : calls.Breaks key n) (hUntapped : ∀ t, ¬ calls.Tap n key t) :
    ¬ Counted within calls (n + 1) key state := by
  rintro ⟨a, now, length, hStanding, _⟩
  exact Calls.not_standing hBreaks hUntapped hStanding

namespace Tracks

/- A key has a counter while its last tap stands. -/
theorem get?_eq_none {key : KeyCode} {a : Nat} {now : Instant} (hTracks : Tracks within calls n fsm)
    (hState : fsm.states.get? key = none) : ¬ calls.Standing n key a now := by
  intro hStanding
  rcases Calls.exists_longest within key a with ⟨length, hLongest⟩
  have hSome := (hTracks.counted key _).mpr ⟨a, now, length, hStanding, hLongest, rfl⟩
  rw [hState] at hSome
  cases hSome

/- The count reached by a tap is the length of its chain. -/
theorem nextCount_eq {key : KeyCode} {now : Instant} {length : Nat}
    (hTracks : Tracks within calls n fsm) (hTap : calls.Tap n key now)
    (hLength : Longest (calls.Linked within key) n length) :
    fsm.nextCount key now = min length u32Max := by
  -- Whatever is linked to this tap stands before it.
  have hStands : ∀ a, calls.Linked within key a n → ∃ start, calls.Standing n key a start ∧
      start ≤ now ∧ now - start ≤ within := by
    rintro a ⟨start, stop, hStanding, hStop, hOrder, hWindow⟩
    rcases hTap.1 with ⟨mods, hCall⟩
    rcases hStop.1 with ⟨mods', hCall'⟩
    rw [hCall] at hCall'
    cases hCall'
    exact ⟨start, hStanding, hOrder, hWindow⟩
  have hFirst : (∀ a, ¬ calls.Linked within key a n) → 1 = min length u32Max := by
    intro hNone
    rw [hLength.unique (Longest.first hNone)]
    decide
  unfold nextCount continues stateOf
  cases hState : fsm.states.get? key with
  | none =>
    refine hFirst ?_
    intro a hLinked
    rcases hStands a hLinked with ⟨start, hStanding, _⟩
    exact hTracks.get?_eq_none hState hStanding
  | some state =>
    rcases (hTracks.counted key state).mp hState with ⟨a, start, count, hStanding, hLongest, rfl⟩
    simp only [Option.getD_some, Option.any_some, checkedDurationSince, hTracks.window]
    by_cases hWithin : start ≤ now ∧ now - start ≤ within
    · have hLinked : calls.Linked within key a n := ⟨start, now, hStanding, hTap, hWithin⟩
      have hNext := hLongest.next
          (fun b hOther => hOther.unique hLinked) hLinked
      rw [hLength.unique hNext]
      simp only [if_pos hWithin.1, Option.any_some,
        hWithin.2, decide_true, if_true, saturatingAddU32]
      omega
    · have hBroken : Option.any (fun elapsed => decide (elapsed ≤ within))
            (if start ≤ now then some (now - start)
              else none) =
          false := by
        split_ifs with hOrder
        · simpa using fun hLast => hWithin ⟨hOrder, hLast⟩
        · rfl
      rw [hBroken, if_neg (by decide)]
      refine hFirst ?_
      intro b hLinked
      rcases hStands b hLinked with ⟨other, hOther, hClose⟩
      rcases hStanding.unique hOther with ⟨rfl, rfl⟩
      exact hWithin hClose

/- A point where nothing is pressed, released or typed. -/
theorem idle (hTracks : Tracks within calls n fsm) (hQuiet : calls n ≠ some .otherKey)
    (hUnpressed : ∀ other mods, ¬ calls.Pressed n other mods)
    (hUnreleased : ∀ other t, ¬ calls.Released n other t) : Tracks within calls (n + 1) fsm where
  window := hTracks.window
  armed := by
    intro key
    rw [hTracks.armed, Calls.armed_succ]
    constructor
    · intro hArmed
      exact .inr ⟨hArmed, hQuiet, hUnpressed, hUnreleased key⟩
    · rintro (⟨mods, hPressed, _⟩ | ⟨hArmed, _⟩)
      · exact absurd hPressed (hUnpressed key mods)
      · exact hArmed
  alone := hTracks.alone
  counted := by
    intro key state
    rw [hTracks.counted, counted_keep (Calls.not_breaks hQuiet hUnpressed)
      (fun t => Calls.not_tap (hUnreleased key))]

/- Another key taints the candidate and ends all sequences. -/
theorem otherKey (hTracks : Tracks within calls n fsm) (hCall : calls n = some .otherKey) :
    Tracks within calls (n + 1) fsm.onOtherKey where
  window := hTracks.window
  armed := by
    intro key
    constructor
    · rintro ⟨hActive, hTainted⟩
      change fsm.activeKey = some key at hActive
      simp [onOtherKey, hActive] at hTainted
    · intro hArmed
      rcases Calls.armed_succ.mp hArmed with ⟨mods, ⟨now, hPressed⟩, _⟩ | ⟨_, hUndisturbed⟩
      · rw [hCall] at hPressed
        cases hPressed
      · exact absurd hCall hUndisturbed.1
  alone := by
    intro active _ key _
    rfl
  counted := by
    intro key state
    constructor
    · intro hState
      cases hState
    · intro hCounted
      refine absurd hCounted (not_counted (.inl hCall) ?_)
      rintro t ⟨⟨mods, hReleased⟩, _⟩
      rw [hCall] at hReleased
      cases hReleased

section Presses

variable {mods : Modifiers} {now : Instant}

theorem press_dirty (hTracks : Tracks within calls n fsm)
    (hCall : calls n = some (.transition key false true mods now))
    (hDirty : (otherMods key mods).any = true) :
    Tracks within calls (n + 1) (fsm.press key mods now) := by
  have hPress : fsm.press key mods now =
      { fsm with states := ∅, activeKey := none, activeDownAt := none } := by
    unfold press
    exact if_pos hDirty
  rw [hPress]
  refine ⟨hTracks.window, ?_, ?_, ?_⟩
  · intro other
    constructor
    · rintro ⟨hActive, _⟩
      cases hActive
    · intro hArmed
      rcases Calls.armed_succ.mp hArmed with ⟨held, ⟨t, hPressed⟩, hAlone⟩ | ⟨_, hUndisturbed⟩
      · rw [hCall] at hPressed
        cases hPressed
        rw [hDirty] at hAlone
        cases hAlone
      · exact absurd ⟨now, hCall⟩ (hUndisturbed.2.1 key mods)
  · intro active hActive
    cases hActive
  · intro other state
    constructor
    · intro hState
      cases hState
    · intro hCounted
      refine absurd hCounted (not_counted ?_ ?_)
      · exact .inr ⟨key, mods, ⟨now, hCall⟩, .inr hDirty⟩
      · rintro t ⟨⟨held, hReleased⟩, _⟩
        rw [hCall] at hReleased
        cases hReleased

/- A press alone keeps the counter of its own key only. -/
theorem press_alone_states (hTracks : Tracks within calls n fsm)
    (hAlone : (otherMods key mods).any = false) (now : Instant) (other : KeyCode) :
    (fsm.press key mods now).states.get? other = if other = key then fsm.states.get? other else none := by
  unfold press
  have hClean : ¬ ((mods.difference key.modifierBit).difference key.genericBit).any = true := by
    change ¬ (otherMods key mods).any = true
    rw [hAlone]
    decide
  rw [if_neg hClean]
  dsimp only
  rw [Dict.get?_retain]
  by_cases hSame : other = key
  · subst hSame
    rw [if_pos rfl]
    split_ifs with hOther
    · -- The counters were cleared, and this one was not set.
      rcases Option.any_eq_true _ _ |>.mp hOther with ⟨active, hActive, hNe⟩
      have hNone := hTracks.alone active hActive other (fun hSame => by simp [hSame] at hNe)
      rw [hNone]
      rfl
    · cases fsm.states.get? other <;> simp
  · rw [if_neg hSame]
    split_ifs <;>
      cases fsm.states.get? other <;>
        simp [onOtherKey, hSame]

/- It becomes the candidate, whatever was one before. -/
theorem press_alone_active (fsm : TapFsm) (hAlone : (otherMods key mods).any = false)
    (now : Instant) :
    (fsm.press key mods now).within = fsm.within ∧ (fsm.press key mods now).activeKey = some key ∧
      (fsm.press key mods now).activeTainted = false := by
  unfold press
  have hClean : ¬ ((mods.difference key.modifierBit).difference key.genericBit).any = true := by
    change ¬ (otherMods key mods).any = true
    rw [hAlone]
    decide
  rw [if_neg hClean]
  refine ⟨?_, rfl, rfl⟩
  dsimp only
  split_ifs <;> rfl

theorem press_alone (hTracks : Tracks within calls n fsm)
    (hCall : calls n = some (.transition key false true mods now))
    (hAlone : (otherMods key mods).any = false) :
    Tracks within calls (n + 1) (fsm.press key mods now) := by
  have hStates := hTracks.press_alone_states hAlone now
  rcases press_alone_active fsm hAlone now with ⟨hWindow, hActive, hTainted⟩
  have hUntapped : ∀ other t, ¬ calls.Tap n other t := by
    rintro other t ⟨⟨held, hReleased⟩, _⟩
    rw [hCall] at hReleased
    cases hReleased
  refine ⟨hWindow.trans hTracks.window, ?_, ?_, ?_⟩
  · intro other
    rw [hActive, hTainted, Calls.armed_succ]
    constructor
    · rintro ⟨hSame, _⟩
      cases hSame
      exact .inl ⟨mods, ⟨now, hCall⟩, hAlone⟩
    · rintro (⟨held, ⟨t, hPressed⟩, _⟩ | ⟨_, hUndisturbed⟩)
      · rw [hCall] at hPressed
        cases hPressed
        exact ⟨rfl, rfl⟩
      · exact absurd ⟨now, hCall⟩ (hUndisturbed.2.1 key mods)
  · intro active hSome other hNe
    rw [hActive] at hSome
    cases hSome
    rw [hStates, if_neg hNe]
  · intro other state
    rw [hStates]
    by_cases hSame : other = key
    · subst hSame
      have hUnbroken : ¬ calls.Breaks other n := by
        rintro (hTyped | ⟨third, held, ⟨t, hPressed⟩, hWhy⟩)
        · rw [hCall] at hTyped
          cases hTyped
        · rw [hCall] at hPressed
          cases hPressed
          rcases hWhy with hNe | hDirty
          · exact hNe rfl
          · rw [hAlone] at hDirty
            cases hDirty
      rw [if_pos rfl, hTracks.counted, counted_keep hUnbroken (hUntapped other)]
    · have hBreaks : calls.Breaks other n := .inr
          ⟨key, mods, ⟨now, hCall⟩, .inl (Ne.symm hSame)⟩
      rw [if_neg hSame]
      constructor
      · intro hState
        cases hState
      · intro hCounted
        exact absurd hCounted (not_counted hBreaks (hUntapped other))

end Presses

section Releases

variable {mods : Modifiers} {now : Instant}

/- A release leaves the candidates of other keys. -/
theorem armed_release (hCall : calls n = some (.transition key true false mods now))
    (other : KeyCode) : calls.Armed (n + 1) other ↔ calls.Armed n other ∧ other ≠ key := by
  rw [Calls.armed_succ]
  constructor
  · rintro (⟨held, ⟨t, hPressed⟩, _⟩ | ⟨hArmed, hUndisturbed⟩)
    · rw [hCall] at hPressed
      cases hPressed
    · refine ⟨hArmed, ?_⟩
      rintro rfl
      exact hUndisturbed.2.2 now ⟨mods, hCall⟩
  · rintro ⟨hArmed, hNe⟩
    refine .inr ⟨hArmed, ?_, ?_, ?_⟩
    · rw [hCall]
      simp
    · rintro third held ⟨t, hPressed⟩
      rw [hCall] at hPressed
      cases hPressed
    · rintro t ⟨held, hReleased⟩
      rw [hCall] at hReleased
      cases hReleased
      exact hNe rfl

/- It counts nothing but the tap it ends. -/
theorem counted_release {other : KeyCode} {state : TapState}
    (hCall : calls n = some (.transition key true false mods now))
    (hUntapped : ∀ t, ¬ calls.Tap n other t) :
    Counted within calls (n + 1) other state ↔ Counted within calls n other state := by
  refine counted_keep (Calls.not_breaks ?_ ?_) hUntapped
  · rw [hCall]
    simp
  · rintro third held ⟨t, hPressed⟩
    rw [hCall] at hPressed
    cases hPressed

/- The release of an untainted candidate is a tap. -/
theorem release_tap (hTracks : Tracks within calls n fsm)
    (hCall : calls n = some (.transition key true false mods now))
    (hActive : fsm.activeKey = some key) (hClean : fsm.activeTainted = false) :
    Tracks within calls (n + 1) (fsm.release key now).1 := by
  have hTap : calls.Tap n key now := ⟨⟨mods, hCall⟩, (hTracks.armed key).mp ⟨hActive, hClean⟩⟩
  have hRelease : (fsm.release key now).1 =
        { fsm with
          activeKey := none
          activeDownAt := none
          states := fsm.states.insert key
            { count := fsm.nextCount key now, lastTapAt := some now } } := by
    unfold release
    rw [if_pos ⟨hActive, by simp [hClean]⟩]
  rw [hRelease]
  refine ⟨hTracks.window, ?_, ?_, ?_⟩
  · intro other
    rw [armed_release hCall, ← hTracks.armed, hActive]
    constructor
    · rintro ⟨hNone, _⟩
      cases hNone
    · rintro ⟨⟨hSame, _⟩, hNe⟩
      cases hSame
      exact absurd rfl hNe
  · intro active hSome
    cases hSome
  · intro other state
    dsimp only
    rw [Dict.get?_insert]
    by_cases hSame : other = key
    · subst hSame
      rcases Calls.exists_longest within other n with ⟨length, hLongest⟩
      rw [if_pos rfl, hTracks.nextCount_eq hTap hLongest]
      constructor
      · intro hState
        cases hState
        exact ⟨n, now, length, Calls.standing_succ.mpr (.inl ⟨rfl, hTap⟩), hLongest, rfl⟩
      · rintro ⟨a, t, count, hStanding, hCount, rfl⟩
        rcases Calls.standing_succ.mp hStanding with ⟨rfl, ⟨held, hReleased⟩, _⟩ | ⟨_, _, hUntapped⟩
        · rw [hCall] at hReleased
          cases hReleased
          rw [hLongest.unique hCount]
        · exact absurd hTap (hUntapped now)
    · have hUntapped : ∀ t, ¬ calls.Tap n other t := by
        rintro t ⟨⟨held, hReleased⟩, _⟩
        rw [hCall] at hReleased
        cases hReleased
        exact hSame rfl
      rw [if_neg hSame, hTracks.counted, counted_release hCall hUntapped]

/- Any other release counts nothing. -/
theorem release_other (hTracks : Tracks within calls n fsm)
    (hCall : calls n = some (.transition key true false mods now))
    (hNot : ¬ (fsm.activeKey = some key ∧ fsm.activeTainted = false)) :
    Tracks within calls (n + 1) (fsm.release key now).1 := by
  have hUntapped : ∀ other t, ¬ calls.Tap n other t := by
    rintro other t ⟨⟨held, hReleased⟩, hArmed⟩
    rw [hCall] at hReleased
    cases hReleased
    exact hNot ((hTracks.armed key).mpr hArmed)
  have hCounted : ∀ other state, fsm.states.get? other = some state ↔
      Counted within calls (n + 1) other state := by
    intro other state
    rw [hTracks.counted, counted_release hCall (hUntapped other)]
  have hFirst : ¬ (fsm.activeKey = some key ∧ ¬ fsm.activeTainted) := by simpa using hNot
  unfold release
  rw [if_neg hFirst]
  split_ifs with hActive
  · refine ⟨hTracks.window, ?_, ?_, hCounted⟩
    · intro other
      rw [armed_release hCall, ← hTracks.armed, hActive]
      constructor
      · rintro ⟨hNone, _⟩
        cases hNone
      · rintro ⟨⟨hSame, _⟩, hNe⟩
        cases hSame
        exact absurd rfl hNe
    · intro active hSome
      cases hSome
  · refine ⟨hTracks.window, ?_, hTracks.alone, hCounted⟩
    intro other
    rw [armed_release hCall, hTracks.armed]
    constructor
    · intro hArmed
      refine ⟨hArmed, ?_⟩
      rintro rfl
      exact hActive ((hTracks.armed other).mpr hArmed).1
    · exact And.left

end Releases

end Tracks

/- Every call keeps the machine in step with the timeline. -/
theorem Tracks.feed {call : Call} (hTracks : Tracks within calls n fsm)
    (hCall : calls n = some call) : Tracks within calls (n + 1) (fsm.feed call).1 := by
  cases call with
  | otherKey => exact hTracks.otherKey hCall
  | transition key wasDown isDown mods now =>
    cases wasDown <;> cases isDown
    case false.true =>
      cases hHeld : (otherMods key mods).any with
      | true => exact hTracks.press_dirty hCall hHeld
      | false => exact hTracks.press_alone hCall hHeld
    case true.false =>
      by_cases hActive : fsm.activeKey = some key ∧ fsm.activeTainted = false
      · exact hTracks.release_tap hCall hActive.1 hActive.2
      · exact hTracks.release_other hCall hActive
    all_goals
      refine hTracks.idle ?_ ?_ ?_
      · rw [hCall]
        simp
      · rintro other held ⟨t, hPressed⟩
        rw [hCall] at hPressed
        cases hPressed
      · rintro other t ⟨held, hReleased⟩
        rw [hCall] at hReleased
        cases hReleased

theorem tracks_after (within : Duration) (calls : Calls) (n : Nat) :
    Tracks within calls n (after within calls n) := by
  induction n with
  | zero => exact tracks_zero
  | succ n ih =>
    unfold after
    cases hCall : calls n with
    | some call => exact ih.feed hCall
    | none =>
      refine ih.idle ?_ ?_ ?_
      · rw [hCall]
        simp
      · rintro other held ⟨t, hPressed⟩
        rw [hCall] at hPressed
        cases hPressed
      · rintro other t ⟨held, hReleased⟩
        rw [hCall] at hReleased
        cases hReleased

-----
-- Reported Taps

/- A tap is reported with the length of its chain. -/
def Reported (within : Duration) (calls : Calls) (n : Nat) (key : KeyCode) (count : Nat) : Prop :=
  (∃ now, calls.Tap n key now) ∧ ∃ length, Longest (calls.Linked within key) n length ∧
        count = min length u32Max

/- The machine reports every tap, and nothing else. -/
theorem result_eq_tapped_iff (within : Duration) (calls : Calls) (n : Nat) (key : KeyCode)
    (count : Nat) :
    result within calls n = .tapped key count ↔ Reported within calls n key count := by
  have hTracks := tracks_after within calls n
  constructor
  · intro hResult
    unfold result at hResult
    split at hResult
    swap
    · cases hResult
    rename_i call hCall
    cases call with
    | otherKey => cases hResult
    | transition other wasDown isDown mods now =>
      rcases (onTransition_eq_tapped_iff _ _ _ _ _ _ _ _).mp hResult with
        ⟨rfl, rfl, rfl, hCompletes⟩
      unfold completes at hCompletes
      simp only [Bool.and_eq_true, beq_iff_eq, Bool.not_eq_true'] at hCompletes
      have hTap : calls.Tap n key now := ⟨⟨mods, hCall⟩, (hTracks.armed key).mp hCompletes.1⟩
      rcases Calls.exists_longest within key n with ⟨length, hLongest⟩
      exact ⟨⟨now, hTap⟩, length, hLongest, hCompletes.2.symm.trans
        (hTracks.nextCount_eq hTap hLongest)⟩
  · rintro ⟨⟨now, hTap⟩, length, hLongest, rfl⟩
    rcases hTap.1 with ⟨mods, hCall⟩
    have hActive := (hTracks.armed key).mpr hTap.2
    unfold result
    rw [hCall]
    refine (onTransition_eq_tapped_iff _ _ _ _ _ _ _ _).mpr ⟨rfl, rfl, rfl, ?_⟩
    unfold completes
    simp only [Bool.and_eq_true, beq_iff_eq, Bool.not_eq_true']
    exact ⟨hActive, hTracks.nextCount_eq hTap hLongest⟩

/- A fresh machine fed a list of calls. -/
def feedAll (within : Duration) (history : List Call) : TapFsm :=
  history.foldl (fun fsm call => (fsm.feed call).1) (withWindow within)

/- What the `i`-th call of a sequence returns. -/
def resultAt (within : Duration) (history : List Call) (i : Nat) : TapResult :=
  match history[i]? with
  | some call => ((feedAll within (history.take i)).feed call).2
  | none => .none

theorem after_eq_feedAll (within : Duration) (history : List Call) (n : Nat) :
    after within (fun l => history[l]?) n = feedAll within (history.take n) := by
  induction n with
  | zero => rfl
  | succ n ih =>
    unfold after
    rw [ih, List.take_add_one]
    cases history[n]? with
    | none => simp
    | some call => simp [feedAll]

/-
  For every sequence of calls on a fresh machine, the taps it reports and their counts.
-/
theorem tapped_iff (within : Duration) (history : List Call) (i : Nat) (key : KeyCode) (count : Nat) :
    resultAt within history i = .tapped key count ↔
      Reported within (fun l => history[l]?) i key count := by
  rw [← result_eq_tapped_iff]
  unfold resultAt result
  rw [after_eq_feedAll]

end Sledge.Core.TapFsm
