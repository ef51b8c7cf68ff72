import Sledge.Core.TapPurity
import Sledge.Daemon.Sink
import Sledge.Lib.History

/-
  The event tap of macOS
  (`packages/macos/src/tap.rs`, `keycode.rs`) over the sink of
  the daemon.

  The system may disable the tap.  The callback is told so and
  does nothing; the watchdog enables the tap again.  Events in
  between are lost, and the sink never learns of it: a press
  that was consumed stays owned when its release is lost.

  Main results:
    * `Tap.step_owns`
    * `Tap.run_owns`
    * `Tap.verdict_iff`
-/

-----
-- Raw Events

namespace Sledge.Macos

open Core Transition Matcher

namespace Keycode

/- Carbon virtual key codes. -/
def keys : List (Nat × KeyCode) :=
  [(0x00, .keyA), (0x0B, .keyB), (0x08, .keyC), (0x02, .keyD),
    (0x0E, .keyE), (0x03, .keyF), (0x05, .keyG), (0x04, .keyH),
    (0x22, .keyI), (0x26, .keyJ), (0x28, .keyK), (0x25, .keyL),
    (0x2E, .keyM), (0x2D, .keyN), (0x1F, .keyO), (0x23, .keyP),
    (0x0C, .keyQ), (0x0F, .keyR), (0x01, .keyS), (0x11, .keyT),
    (0x20, .keyU), (0x09, .keyV), (0x0D, .keyW), (0x07, .keyX),
    (0x10, .keyY), (0x06, .keyZ), (0x1D, .digit0),
    (0x12, .digit1), (0x13, .digit2), (0x14, .digit3),
    (0x15, .digit4), (0x17, .digit5), (0x16, .digit6),
    (0x1A, .digit7), (0x1C, .digit8), (0x19, .digit9),
    (0x7A, .f1), (0x78, .f2), (0x63, .f3), (0x76, .f4),
    (0x60, .f5), (0x61, .f6), (0x62, .f7), (0x64, .f8),
    (0x65, .f9), (0x6D, .f10), (0x67, .f11), (0x6F, .f12),
    (0x69, .f13), (0x6B, .f14), (0x71, .f15), (0x6A, .f16),
    (0x40, .f17), (0x4F, .f18), (0x50, .f19), (0x5A, .f20),
    (0x7E, .arrowUp), (0x7D, .arrowDown), (0x7B, .arrowLeft),
    (0x7C, .arrowRight), (0x38, .leftShift),
    (0x3C, .rightShift), (0x3B, .leftCtrl), (0x3E, .rightCtrl),
    (0x3A, .leftAlt), (0x3D, .rightAlt), (0x37, .leftCmd),
    (0x36, .rightCmd), (0x3F, .fn), (0x39, .capsLock),
    (0x24, .returnKey), (0x30, .tab), (0x31, .space),
    (0x33, .backspace), (0x75, .delete), (0x35, .escape),
    (0x29, .semicolon), (0x27, .quote), (0x2B, .comma),
    (0x2F, .period), (0x2C, .slash), (0x2A, .backslash),
    (0x32, .backquote), (0x1B, .minus), (0x18, .equal),
    (0x21, .leftBracket), (0x1E, .rightBracket), (0x73, .home),
    (0x77, .endKey), (0x74, .pageUp), (0x79, .pageDown),
    (0x72, .insert)]

end Keycode

def fromCgKeycode (kc : Nat) : Option KeyCode :=
  Keycode.keys.findSome? (fun entry =>
    if entry.1 = kc then some entry.2 else none)

/- What the callback reads of an event. -/
structure CGEvent where
  eventSourceUserData : Int
  keyboardEventKeycode : Int
  flags : BitVec 64

inductive CGEventType where
  | keyDown
  | keyUp
  | flagsChanged
deriving DecidableEq

def tapDisabledByTimeout : Nat := 0xFFFFFFFE

def tapDisabledByUserInput : Nat := 0xFFFFFFFF

def sledgeEventSourceTag : Int := 0x00051ED6E001

/- One bit for each family of modifiers. -/
def genericFlags : List (BitVec 64 × Modifiers) :=
  [(0x40000, .ctrl), (0x20000, .shift), (0x80000, .alt), (0x100000, .cmd), (0x800000, .fn)]

/- One bit for each side. -/
def sideFlags : List (BitVec 64 × Modifiers) :=
  [(0x1, .leftCtrl), (0x2000, .rightCtrl), (0x2, .leftShift),
    (0x4, .rightShift), (0x20, .leftAlt), (0x40, .rightAlt),
    (0x8, .leftCmd), (0x10, .rightCmd)]

def flagsToMods (flags : BitVec 64) : Modifiers :=
  let mods := genericFlags.foldl (fun mods entry =>
        if flags &&& entry.1 = entry.1 then
          mods.union entry.2
        else mods)
      .empty
  sideFlags.foldl (fun mods entry =>
      if flags &&& entry.1 ≠ 0 then mods.union entry.2
      else mods)
    mods

/- The `as u16` of the source. -/
def asU16 (value : Int) : Nat := (value % 2 ^ 16).toNat

def CGEventType.kind : CGEventType → EventKind
  | .keyDown => .keyDown
  | .keyUp => .keyUp
  | .flagsChanged => .modifiersChanged

def translate (etype : CGEventType) (event : CGEvent) : Option KeyEvent :=
  (fromCgKeycode (asU16 event.keyboardEventKeycode)).map (fun code =>
      { code := code, kind := etype.kind, mods := flagsToMods event.flags })

-----
-- The Callback

open Daemon

inductive TapVerdict where
  | pass
  | swallow
deriving DecidableEq

/- What the outside answers during a callback. -/
structure Circumstances where
  focus : Option String
  now : Instant
  inject : Action → Except BackendError Unit

/- The sink is in place before the tap is. -/
def handleEvent (s : MatchingState) (etype : CGEventType) (event : CGEvent) (c : Circumstances) :
    MatchingState × TapVerdict :=
  if event.eventSourceUserData = sledgeEventSourceTag then
    (s, .pass)
  else
    match translate etype event with
    | none => (s, .pass)
    | some kevent =>
      let (s, verdict) := s.deliver c.inject ⟨0⟩ kevent c.focus c.now
      match verdict with
      | .pass => (s, .pass)
      | .swallow => (s, .swallow)

/-
  The event types the callback handles.  The others pass, and so do the notifications of a
  disabled tap, which is left to the watchdog.
-/
def typed? : Nat → Option CGEventType
  | 10 => some .keyDown
  | 11 => some .keyUp
  | 12 => some .flagsChanged
  | _ => none

def tapTrampoline (s : MatchingState) (etype : Nat) (event : CGEvent) (c : Circumstances) :
    MatchingState × TapVerdict :=
  match typed? etype with
  | none => (s, .pass)
  | some typed => handleEvent s typed event c

/- The event a callback puts to the matcher. -/
def put? (etype : Nat) (event : CGEvent) : Option KeyEvent :=
  if event.eventSourceUserData = sledgeEventSourceTag then none
  else (typed? etype).bind (fun typed => translate typed event)

/- The state after a callback. -/
theorem tapTrampoline_fst (s : MatchingState) (etype : Nat) (event : CGEvent) (c : Circumstances) :
    (tapTrampoline s etype event c).1 =
      match put? etype event with
      | none => s
      | some kevent =>
        (s.deliver c.inject ⟨0⟩ kevent c.focus c.now).1 := by
  unfold tapTrampoline put? handleEvent
  cases typed? etype with
  | none => simp
  | some typed =>
    dsimp only
    split_ifs
    · rfl
    · rw [Option.bind_some]
      cases translate typed event with
      | none => rfl
      | some kevent =>
        dsimp only
        split <;> rfl

-----
-- Runs With Lost Events

open Config

namespace Tap

inductive Op where
  | callback (etype : Nat) (event : CGEvent) (c : Circumstances)
  -- The keyboard sends it while the tap is disabled.
  | missed (event : KeyEvent)
  | reload (rules : RuleSet) (aliases : Dict String AppAlias)

def step (s : MatchingState) : Op → Option (MatchingState × Option TapVerdict)
  | .callback etype event c =>
    let (s, verdict) := tapTrampoline s etype event c
    some (s, some verdict)
  | .missed _ => some (s, none)
  | .reload rules aliases => some (s.replace rules aliases, none)

abbrev Entry := Transition.Entry MatchingState Op (Option TapVerdict)

/- The matcher's verdict on a callback. -/
def verdict? (s : MatchingState) (etype : Nat) (event : CGEvent) (c : Circumstances) :
    Option Verdict :=
  (put? etype event).map (fun kevent =>
    (s.matcher.dispatchDevice ⟨0⟩ kevent (s.logicalApp c.focus) c.now).2)

/- The same rules, no taps counted and no press owned. -/
def cleared (s : MatchingState) : MatchingState := { s with matcher := new s.matcher.rules }

/- Events are lost in the gaps of a disabled tap only. -/
def gapsOnly (disabled : Bool) : List Entry → Bool
  | [] => true
  | e :: rest =>
    match e.op with
    | .callback etype _ _ =>
      gapsOnly (etype == tapDisabledByTimeout || etype == tapDisabledByUserInput) rest
    | .missed _ => disabled && gapsOnly disabled rest
    | .reload _ _ => gapsOnly disabled rest

/- An event of the keyboard, lost or not. -/
def physical? (e : Entry) : Option KeyEvent :=
  match e.op with
  | .callback etype event _ => put? etype event
  | .missed event => some event
  | .reload _ _ => none

/- The key was released in a gap and not pressed since. -/
def ReleasedInGap (log : List Entry) (key : KeyCode) : Prop :=
  Since (fun _ => True) (fun e =>
      ∃ event, e.op = .missed event ∧ event.code = key ∧ event.kind = .keyUp)
    (fun e =>
      ∀ event, physical? e = some event → ¬ (event.code = key ∧ event.kind = .keyDown))
    log

/- The matcher replaces a KeyDown of the key. -/
def consumes (key : KeyCode) (e : Entry) : Bool :=
  match e.op with
  | .callback etype event c =>
    (put? etype event).any (fun kevent =>
        kevent.code == key && kevent.kind == .keyDown) &&
      (verdict? e.pre etype event c).any Verdict.isReplace
  | _ => false

/- The matcher sees the key go up. -/
def releases (key : KeyCode) (e : Entry) : Bool :=
  match e.op with
  | .callback etype event _ =>
    (put? etype event).any (fun kevent =>
      kevent.code == key && kevent.kind == .keyUp)
  | _ => false

/- A KeyDown was replaced and no KeyUp seen since. -/
def HeldConsumed (log : List Entry) (key : KeyCode) : Prop :=
  Since (fun _ => True) (fun e => consumes key e = true)
    (fun e => releases key e = false)
    log

/- What the matcher owns is what it has replaced. -/
structure Owns (log : List Entry) (s : MatchingState) : Prop where
  coherent : s.matcher.Coherent
  unforwarded : ∀ p, s.matcher.owner p ≠ .forwarded
  swallowed : ∀ key, s.matcher.owner (⟨0⟩, key) = .swallowed ↔ HeldConsumed log key

variable {rules : RuleSet} {aliases : Dict String AppAlias} {log : List Entry}
variable {s next : MatchingState} {op : Op} {out : Option TapVerdict}

theorem new_owns : Owns [] (MatchingState.new rules aliases) where
  coherent := new_coherent rules
  unforwarded := fun _ hForwarded => by
    simp [MatchingState.new, new, owner] at hForwarded
  swallowed := by
    intro key
    refine iff_of_false ?_ not_since_nil
    simp [MatchingState.new, new, owner]

/- A step that leaves the owners alone. -/
theorem Owns.keep (hOwns : Owns log s) (e : Entry) (hCoherent : next.matcher.Coherent)
    (hSame : ∀ p, next.matcher.owner p = s.matcher.owner p)
    (hQuiet : ∀ key, consumes key e = false ∧ releases key e = false) : Owns (log ++ [e]) next where
  coherent := hCoherent
  unforwarded := by
    intro p
    rw [hSame]
    exact hOwns.unforwarded p
  swallowed := by
    intro key
    rw [hSame, hOwns.swallowed, HeldConsumed, HeldConsumed, since_snoc]
    simp [hQuiet key]

section Dispatch

variable {etype : Nat} {event : CGEvent} {c : Circumstances} {kevent : KeyEvent}

theorem consumes_of_put (hPut : put? etype event = some kevent) (key : KeyCode) :
    consumes key ⟨s, .callback etype event c, out⟩ = true ↔
      kevent.code = key ∧ kevent.kind = .keyDown ∧ (s.matcher.dispatchDevice ⟨0⟩ kevent
          (s.logicalApp c.focus) c.now).2.isReplace = true := by
  simp [consumes, verdict?, hPut, and_assoc]

theorem releases_of_put (hPut : put? etype event = some kevent) (key : KeyCode) :
    releases key ⟨s, .callback etype event c, out⟩ = false ↔
      ¬ (kevent.code = key ∧ kevent.kind = .keyUp) := by
  simp [releases, hPut]

/- The owner of a press after a dispatch. -/
theorem dispatch_swallowed (hOwns : Owns log s) (kevent : KeyEvent) (c : Circumstances)
    (key : KeyCode) :
    let reached :=
      s.matcher.dispatchDevice ⟨0⟩ kevent (s.logicalApp c.focus) c.now
    reached.1.owner (⟨0⟩, key) = .swallowed ↔ (kevent.code = key ∧ kevent.kind = .keyDown ∧
          reached.2.isReplace = true) ∨
        (s.matcher.owner (⟨0⟩, key) = .swallowed ∧
          ¬ (kevent.code = key ∧ kevent.kind = .keyUp)) := by
  intro reached
  have hStep : s.matcher.step (.dispatch ⟨0⟩ kevent (s.logicalApp c.focus) c.now) =
      some (reached.1, .verdict reached.2 none) := rfl
  have hHolding := congrArg Holding.owner (step_holding hOwns.coherent hStep (⟨0⟩, key))
  have hOwner := hOwns.unforwarded (⟨0⟩, key)
  rw [holding_owner] at hHolding
  rw [← holding_owner] at hOwner
  rw [hHolding, ← holding_owner s.matcher]
  simp only [Holding.after]
  by_cases hHere : kevent.code = key
  · subst hHere
    rw [if_pos rfl]
    unfold Holding.dispatched
    cases hKind : kevent.kind with
    | keyUp | modifiersChanged => simp
    | keyDown =>
      dsimp only
      generalize (s.matcher.holding (⟨0⟩, kevent.code)).owner = owner at hOwner
      cases owner with
      | free | swallowed => simp
      | forwarded => exact absurd rfl hOwner
  · have hOther : ((⟨0⟩, key) : Press) ≠ (⟨0⟩, kevent.code) := by
      intro hSame
      exact hHere (Prod.mk.inj hSame).2.symm
    rw [if_neg hOther]
    simp [hHere]

/- A dispatch that the callback makes. -/
theorem dispatch_owns (hOwns : Owns log s) (hPut : put? etype event = some kevent) :
    Owns (log ++ [⟨s, .callback etype event c, out⟩])
      (s.deliver c.inject ⟨0⟩ kevent c.focus c.now).1 where
  coherent := by
    have hStep : s.matcher.step (.dispatch ⟨0⟩ kevent (s.logicalApp c.focus) c.now) = some
        ((s.matcher.dispatchDevice ⟨0⟩ kevent (s.logicalApp c.focus) c.now).1, .verdict
            (s.matcher.dispatchDevice ⟨0⟩ kevent (s.logicalApp c.focus) c.now).2
            none) := rfl
    exact step_coherent hOwns.coherent hStep
  unforwarded := by
    intro p
    exact step_unforwarded hOwns.coherent (hOwns.unforwarded p) rfl
  swallowed := by
    intro key
    refine (dispatch_swallowed hOwns kevent c key).trans ?_
    rw [HeldConsumed, since_snoc, true_and, consumes_of_put hPut, releases_of_put hPut,
      hOwns.swallowed]
    rfl

end Dispatch

theorem step_owns (hOwns : Owns log s) (hStep : step s op = some (next, out)) :
    Owns (log ++ [⟨s, op, out⟩]) next := by
  cases op with
  | callback etype event c =>
    have hNext : (tapTrampoline s etype event c).1 = next := (Prod.mk.inj (Option.some.inj hStep)).1
    rw [← hNext, tapTrampoline_fst]
    cases hPut : put? etype event with
    | none =>
      refine hOwns.keep _ hOwns.coherent (fun _ => rfl) ?_
      intro key
      simp [consumes, releases, hPut]
    | some kevent => exact dispatch_owns hOwns hPut
  | missed event =>
    cases hStep
    exact hOwns.keep _ hOwns.coherent (fun _ => rfl) (fun _ => ⟨rfl, rfl⟩)
  | reload rules aliases =>
    cases hStep
    have hSwap : s.matcher.step (.swapRules rules) = some (s.matcher.swapRules rules, .done) := rfl
    exact hOwns.keep _ (step_coherent hOwns.coherent hSwap)
      (fun _ => rfl) (fun _ => ⟨rfl, rfl⟩)

theorem run_owns (hRun : Run step (MatchingState.new rules aliases) log s) :
    Owns log s := by
  induction hRun with
  | nil => exact new_owns
  | snoc _ hLast ih => exact step_owns ih hLast

variable {kevent : KeyEvent}

/- A KeyDown of a press that nothing owns. -/
theorem keyDown_unowned {m : Matcher} {app : Option String} {now : Instant}
    (hKind : kevent.kind = .keyDown) (hFree : m.owner (⟨0⟩, kevent.code) = .free) :
    (m.dispatchDevice ⟨0⟩ kevent app now).2 = ((new m.rules).dispatchDevice ⟨0⟩ kevent app
        now).2 := by
  rcases (owner_eq_free_iff m _).mp hFree with ⟨hSwallowed, hForwarded⟩
  rw [dispatchDevice_of_unowned m app now hKind hSwallowed hForwarded,
    dispatchDevice_of_unowned (new m.rules) app now hKind (Finset.notMem_empty _)
      (Finset.notMem_empty _)]
  rfl

/- A press that the matcher owns is swallowed. -/
theorem keyDown_owned {m : Matcher} (app : Option String) (now : Instant) (hCoherent : m.Coherent)
    (hKind : kevent.kind = .keyDown) (hOwned : m.owner (⟨0⟩, kevent.code) = .swallowed) :
    (m.dispatchDevice ⟨0⟩ kevent app now).2 = .swallow := by
  have hNot : (⟨0⟩, kevent.code) ∉ m.forwardedDowns := by
    rw [mem_forwardedDowns_iff hCoherent, hOwned]
    simp
  rw [dispatchDevice_eq_ungated hCoherent.active,
    dispatchUngated_of_not_forwarded m app now (.inr hNot)]
  refine dispatchOwned_of_swallowed _ app now (by rw [hKind]; decide) ?_
  simpa using (mem_swallowedDowns_iff m _).mpr hOwned

/- A fresh matcher never swallows a KeyDown. -/
theorem keyDown_fresh (rules : RuleSet) (app : Option String) (now : Instant)
    (hKind : kevent.kind = .keyDown) :
    ((new rules).dispatchDevice ⟨0⟩ kevent app now).2 ≠ .swallow := by
  rw [dispatchDevice_of_unowned (new rules) app
    now hKind (Finset.notMem_empty _) (Finset.notMem_empty _)]
  split_ifs
  · simp
  · unfold Verdict.ofAction
    split <;> simp

theorem kind_of_put {event : CGEvent} (hPut : put? 10 event = some kevent) :
    kevent.kind = .keyDown := by
  unfold put? at hPut
  split_ifs at hPut
  obtain ⟨code, _, rfl⟩ := Option.map_eq_some_iff.mp hPut
  rfl

/-
  The verdict on a KeyDown is that of a matcher that owns nothing, unless the matcher has
  replaced an earlier KeyDown of the key and has not seen it go up.
-/
theorem verdict_iff {event : CGEvent} {kevent : KeyEvent}
    (hRun : Run step (MatchingState.new rules aliases) log s)
    (hPut : put? 10 event = some kevent) (c : Circumstances) :
    verdict? s 10 event c = verdict? (cleared s) 10 event c ↔ ¬ HeldConsumed log kevent.code := by
  have hOwns := run_owns hRun
  have hKind := kind_of_put hPut
  unfold verdict?
  rw [hPut, Option.map_some, Option.map_some, Option.some.injEq, ← hOwns.swallowed]
  constructor
  · intro hSame hOwned
    rw [keyDown_owned _ _ hOwns.coherent hKind hOwned] at hSame
    exact keyDown_fresh _ _ _ hKind hSame.symm
  · intro hNot
    refine keyDown_unowned hKind ?_
    cases hOwner : s.matcher.owner (⟨0⟩, kevent.code) with
    | free => rfl
    | swallowed => exact absurd hOwner hNot
    | forwarded => exact absurd hOwner (hOwns.unforwarded _)

/- The raw events of key K; the tap is disabled after one. -/
def keyKRaw : CGEvent := ⟨0, 0x28, 0x100⟩

def quietly : Circumstances := ⟨none, 0, fun _ => .ok ()⟩

/- K goes down, and its release is lost. -/
def passedK : List Op :=
  [.callback 10 keyKRaw quietly, .callback tapDisabledByTimeout keyKRaw quietly,
    .missed ⟨.keyK, .keyUp, .empty⟩]

theorem verdict_iff_passedK :
    let start := MatchingState.new tapAndKey ∅
    let s := lastOf step start passedK
    verdict? s 10 keyKRaw quietly ≠ verdict? (cleared s) 10 keyKRaw quietly ∧
      HeldConsumed (entriesOf step start passedK) .keyK := by
  intro start s
  have hExec : (exec step start passedK).isSome = true := by decide +kernel
  have hPut : put? 10 keyKRaw = some ⟨.keyK, .keyDown, .empty⟩ := by decide +kernel
  have hNe : verdict? s 10 keyKRaw quietly ≠ verdict? (cleared s) 10 keyKRaw quietly := by
    decide +kernel
  exact ⟨hNe, not_not.mp (mt (verdict_iff (Run.of_isSome hExec) hPut quietly).mpr hNe)⟩

/- A consumed press whose release is lost is still owned. -/
theorem lost_release :
    let start := MatchingState.new tapAndKey ∅
    let log := entriesOf step start passedK
    let s := lastOf step start passedK
    Run step start log s ∧ gapsOnly false log = true ∧ ReleasedInGap log .keyK ∧
      verdict? s 10 keyKRaw quietly = some .swallow ∧
      verdict? (cleared s) 10 keyKRaw quietly = some (.replace (.sendKey .keyT .empty)) := by
  intro start log s
  refine
    ⟨Run.of_isSome (by decide +kernel),
      by decide +kernel, ?_, by decide +kernel,
      by decide +kernel⟩
  refine ⟨log.take 2, ⟨s, .missed ⟨.keyK, .keyUp, .empty⟩, none⟩, [],
    rfl, trivial, ⟨_, rfl, rfl, rfl⟩, ?_⟩
  intro e hMem
  cases hMem

end Tap

end Sledge.Macos
