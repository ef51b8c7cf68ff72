import Sledge.Core.Rule
import Sledge.Lib.Dict

/-
  The modifier-tap state machine
  (`packages/core/src/tap_fsm.rs`).

  It counts consecutive untainted press/release pairs of one
  modifier.  Instants and durations are nanoseconds.
-/

-----
-- Time

namespace Sledge.Core

abbrev Instant := Nat

abbrev Duration := Nat

/- `Duration::from_millis`. -/
def fromMillis (ms : Nat) : Duration := ms * 1000000

/- `Instant::checked_duration_since`. -/
def checkedDurationSince (now previous : Instant) : Option Duration :=
  if previous ≤ now then some (now - previous) else none

def u32Max : Nat := 2 ^ 32 - 1

/- `u32::saturating_add`. -/
def saturatingAddU32 (a b : Nat) : Nat := min (a + b) u32Max

-----
-- Tap State Machine

/- Taps counted so far, and when the last one ended. -/
structure TapState where
  count : Nat := 0
  lastTapAt : Option Instant := none
deriving DecidableEq

/-
  `activeKey` is the modifier currently down as a tap candidate, `activeTainted` records
  that another key disqualified it.
-/
structure TapFsm where
  within : Duration
  states : Dict KeyCode TapState
  activeKey : Option KeyCode
  activeDownAt : Option Instant
  activeTainted : Bool

inductive TapResult where
  | none
  | tapped (key : KeyCode) (count : Nat)
deriving DecidableEq

namespace TapFsm

def withWindow (within : Duration) : TapFsm where
  within := within
  states := ∅
  activeKey := none
  activeDownAt := none
  activeTainted := false

/- A non-modifier key taints the candidate. -/
def onOtherKey (fsm : TapFsm) : TapFsm :=
  { fsm with
    activeTainted := if fsm.activeKey.isSome then true
      else fsm.activeTainted
    states := ∅ }

/- The key's counter, defaulted when absent. -/
def stateOf (fsm : TapFsm) (key : KeyCode) : TapState := (fsm.states.get? key).getD {}

/- The release at `now` continues the previous taps. -/
def continues (fsm : TapFsm) (key : KeyCode) (now : Instant) : Bool :=
  (fsm.stateOf key).lastTapAt.any (fun previous =>
    (checkedDurationSince now previous).any (fun elapsed => elapsed ≤ fsm.within))

/- The count that an untainted release at `now` reaches. -/
def nextCount (fsm : TapFsm) (key : KeyCode) (now : Instant) : Nat :=
  if fsm.continues key now then
    saturatingAddU32 (fsm.stateOf key).count 1
  else 1

/- The key went down. -/
def press (fsm : TapFsm) (key : KeyCode) (newMods : Modifiers) (now : Instant) : TapFsm :=
  let otherMods := (newMods.difference key.modifierBit).difference key.genericBit
  if otherMods.any then
    { fsm with states := ∅, activeKey := none, activeDownAt := none }
  else
    let fsm := if fsm.activeKey.any (· ≠ key) then fsm.onOtherKey
      else fsm
    { fsm with
      states := fsm.states.retain (fun k _ => k == key)
      activeKey := some key
      activeDownAt := some now
      activeTainted := false }

/- The key went up. -/
def release (fsm : TapFsm) (key : KeyCode) (now : Instant) : TapFsm × TapResult :=
  if fsm.activeKey = some key ∧ ¬ fsm.activeTainted then
    let count := fsm.nextCount key now
    ({ fsm with
        activeKey := none
        activeDownAt := none
        states := fsm.states.insert key { count := count, lastTapAt := some now } },
      .tapped key count)
  else if fsm.activeKey = some key then
    ({ fsm with activeKey := none, activeDownAt := none, activeTainted := false }, .none)
  else
    (fsm, .none)

/- Feed an explicit physical transition. -/
def onTransition (fsm : TapFsm) (key : KeyCode) (wasDown isDown : Bool) (newMods : Modifiers)
    (now : Instant) : TapFsm × TapResult :=
  match wasDown, isDown with
  | false, true => (fsm.press key newMods now, .none)
  | true, false => fsm.release key now
  | _, _ => (fsm, .none)

-----
-- When A Tap Is Reported

/- A release of `key` at `now` would be reported as the `count`-th tap. -/
def completes (fsm : TapFsm) (key : KeyCode) (count : Nat) (now : Instant) : Bool :=
  fsm.activeKey == some key && !fsm.activeTainted && fsm.nextCount key now == count

theorem release_eq_tapped_iff (fsm : TapFsm) (key other : KeyCode) (count : Nat) (now : Instant) :
    (fsm.release key now).2 = .tapped other count ↔ other = key ∧ fsm.completes key count now = true := by
  unfold release completes
  by_cases hActive : fsm.activeKey = some key
  · by_cases hTainted : fsm.activeTainted = true
    · simp [hActive, hTainted]
    · simp only [hActive, hTainted]
      constructor
      · intro hTapped
        cases hTapped
        simp
      · rintro ⟨rfl, hCount⟩
        have hNext : fsm.nextCount other now = count := by simpa using hCount
        simp [hNext]
  · simp [hActive]

/- Only a release is ever reported as a tap. -/
theorem onTransition_eq_tapped_iff (fsm : TapFsm) (key other : KeyCode) (wasDown isDown : Bool)
    (mods : Modifiers) (count : Nat) (now : Instant) :
    (fsm.onTransition key wasDown isDown mods now).2 = .tapped other count ↔
      wasDown = true ∧ isDown = false ∧ other = key ∧ fsm.completes key count now = true := by
  cases wasDown <;> cases isDown <;>
    simp [onTransition, release_eq_tapped_iff]

end TapFsm

end Sledge.Core
