import Sledge.Link.Scopes
import Sledge.Link.Standing

/-
  What the pieces of the adapter announce.

  The adapter remembers in one flag that it has proven its
  output reconciled, and clears the flag in several hooks.
  Most of them announce this with a Reset(2) or a Reset(3), or
  give up the connection.  The choice of a keyboard without a
  known keymap and the recovery of retired output do not.

  Locks are announced truthfully by all of them: once an epoch
  is announced, the bridge is unlocked if the adapter is.

  Main results:
    * `tame_of_moves`
    * `step_posts`
-/

-----
-- Truthful Locks

namespace Sledge.Link

open Native Linux

/-
  The bridge is unlocked whenever the adapter is, up to an epoch that is still to be
  announced.
-/
structure Level (s : Stream) (st : Standing) : Prop where
  behind : s.wireEpoch ≤ s.router.epoch
  event : ∀ p, s.eventPacket = some p → p.body.isEvent = true
  unlocked : s.Current → s.phase = .opened → s.router.epoch = s.wireEpoch → st.locked = false

/- An adapter that may send a Reset(8) on the connection it is shown is awaited there. -/
def Awaits (s : Stream) (st : Standing) : Prop :=
  s.connection.ready = true → s.drain = .running → s.replacementWire = true →
    (s.initialReconciled = false ∨ s.unbound = true) →
    st.awaiting = true

/- A piece that keeps both ends level and posts no reset. -/
def Truthful (s : Stream) (log : List Native.Record) (s' : Stream) : Prop :=
  ∀ st, Fits s log → Level s st → Level s' (st.heedAll (posted log)) ∧
    ∀ p ∈ posted log, resetless p = true

/- A piece after which no more is to be awaited. -/
def Milder (s s' : Stream) : Prop := ∀ st, Awaits s st → Awaits s' st

/- A piece that posts no reset and owes none. -/
structure Tame (s : Stream) (log : List Native.Record) (s' : Stream) : Prop where
  truthful : Truthful s log s'
  milder : Milder s s'

variable {s s' t u : Stream} {log log' : List Native.Record} {st : Standing} {packet : Packet}

theorem unbound_congr (hCounters : s'.counters = s.counters)
    (hGeneration : s'.connection.generation = s.connection.generation)
    (hNonce : s'.connection.nonce = s.connection.nonce) : s'.unbound = s.unbound := by
  have hBound : s'.readyGeneration = s.readyGeneration :=
    congrArg Stream.Counters.readyGeneration hCounters
  rw [Stream.unbound, Stream.unbound, hGeneration, hNonce, hBound]

/- An adapter that shows no connection. -/
theorem Level.of_not_ready (hReady : s.connection.ready = false)
    (hBehind : s.wireEpoch ≤ s.router.epoch)
    (hEvent : ∀ p, s.eventPacket = some p → p.body.isEvent = true) : Level s st := by
  refine ⟨hBehind, hEvent, ?_⟩
  intro hCurrent
  rw [hCurrent.1] at hReady
  cases hReady

theorem Awaits.of_not_ready (hReady : s.connection.ready = false) : Awaits s st := by
  intro hShown
  rw [hReady] at hShown
  cases hShown

theorem Level.still (hLevel : Level s st) (hStill : s.Still s') : Level s' st := by
  have hEpoch : s'.wireEpoch = s.wireEpoch := congrArg Stream.Counters.wireEpoch hStill.counters
  refine ⟨?_, ?_, ?_⟩
  · rw [hEpoch, hStill.epoch]
    exact hLevel.behind
  · rw [hStill.event]
    exact hLevel.event
  · rintro ⟨hReady, hBound⟩ hPhase hSame
    rw [unbound_congr hStill.counters hStill.generation hStill.nonce] at hBound
    rw [hStill.epoch, hEpoch] at hSame
    exact hLevel.unlocked ⟨hStill.ready hReady, hBound⟩ (hStill.phase hPhase) hSame

theorem milder_of_still (hStill : s.Still s') : Milder s s' := by
  intro st hAwaits hReady hDrain hWire hUnproven
  rw [hStill.wire] at hWire
  exact hAwaits (hStill.ready hReady) (hStill.drain hDrain) hWire
    (hStill.unproven hReady hDrain hUnproven)

theorem tame_of_still (hStill : s.Still s') : Tame s [] s' where
  truthful := fun _ _ hLevel => ⟨hLevel.still hStill, by simp [posted]⟩
  milder := milder_of_still hStill

theorem Truthful.trans (hFirst : Truthful s log t) (hCounts : Fits s log → Counts s log t)
    (hSecond : Truthful t log' u) : Truthful s (log ++ log') u := by
  intro st hFits hLevel
  rcases hFirst st hFits.first hLevel with ⟨hMiddle, hOther⟩
  rcases hSecond _ (hFits.second (hCounts hFits.first)) hMiddle with ⟨hLast, hOther'⟩
  rw [posted_append, heedAll_append]
  exact ⟨hLast, List.forall_mem_append.mpr ⟨hOther, hOther'⟩⟩

theorem Tame.trans (hFirst : Tame s log t) (hCounts : Fits s log → Counts s log t)
    (hSecond : Tame t log' u) : Tame s (log ++ log') u where
  truthful := hFirst.truthful.trans hCounts hSecond.truthful
  milder := fun st hAwaits => hSecond.milder st (hFirst.milder st hAwaits)

theorem Tame.still (hTame : Tame s log t) (hStill : t.Still u) : Tame s log u where
  truthful := by
    intro st hFits hLevel
    rcases hTame.truthful st hFits hLevel with ⟨hMiddle, hOther⟩
    exact ⟨hMiddle.still hStill, hOther⟩
  milder := fun st hAwaits => milder_of_still hStill st (hTame.milder st hAwaits)

/- Any packet but a Lock leaves the lock alone. -/
theorem Level.stamp (hLevel : Level s st) (hLock : packet.body.isLock = false) :
    Level s.stamp (st.heed packet) := by
  refine ⟨hLevel.behind, hLevel.event, ?_⟩
  intro hCurrent hPhase hSame
  have hUnlocked := hLevel.unlocked hCurrent hPhase hSame
  cases hBody : packet.body with
  | lock state reason =>
    rw [hBody] at hLock
    cases hLock
  | _ => simpa [Standing.heed, hBody] using hUnlocked

theorem move_tame (hMove : s.Move true log t) : Tame s log t := by
  cases hMove with
  | quiet hQuiet => exact tame_of_still hQuiet.toStill
  | bumped router phase hEpoch =>
    -- a new epoch has to be announced, whatever the phase
    refine ⟨fun st hFits hLevel => ?_, fun st hAwaits => hAwaits⟩
    have hNext : router.epoch = s.router.epoch + 1 := hEpoch.trans (increment_of_lt hFits.epoch)
    have hBehind := hLevel.behind
    refine ⟨⟨?_, hLevel.event, fun _ _ hSame => ?_⟩, by simp [posted, Record.posted?]⟩
    all_goals
      simp only at *
      omega
  | bound router hReady hUnbound hEpoch =>
    -- a new connection has heard of no epoch
    refine ⟨fun st hFits hLevel => ?_, fun st hAwaits hReady hDrain hWire _ =>
        hAwaits hReady hDrain hWire (.inr hUnbound)⟩
    have hNext : router.epoch = s.router.epoch + 1 := hEpoch.trans (increment_of_lt hFits.epoch)
    refine ⟨⟨Nat.zero_le _, hLevel.event, ?_⟩, by simp [posted, Record.posted?]⟩
    intro _ _ hSame
    have hZero : router.epoch = 0 := hSame
    omega
  | wasted =>
    refine ⟨fun st _ hLevel => ?_, fun st hAwaits => hAwaits⟩
    exact ⟨⟨hLevel.behind, hLevel.event, hLevel.unlocked⟩, by simp [posted, Record.posted?]⟩
  | locked packet value hBound hIssues hBody hGlobal hAhead hValue =>
    -- a Lock says what the phase is
    refine ⟨fun st _ hLevel => ⟨⟨le_rfl, hLevel.event, fun _ hPhase _ => ?_⟩, ?_⟩,
      fun st hAwaits => hAwaits⟩
    · simp [posted, Record.posted?, Standing.heedAll, Standing.heed, hBody, hValue hPhase]
    · simp [posted, Record.posted?, resetless, hBody, Body.isReconciliation, Body.isLifecycleReset]

theorem tame_of_moves (hMoves : s.Moves true log t) : Tame s log t := by
  induction hMoves with
  | refl => exact tame_of_still { }
  | snoc hFront hMove ih => exact ih.trans (moves_counts hFront) (move_tame hMove)

-----
-- Pieces

/-
  The flag is cleared and nothing says so: a keyboard whose keymap is not known is
  selected, or retired output is recovered.
-/
def silences (s : Stream) : Stream.Op → Bool
  | .selectKeyboard known => s.initialReconciled && !known
  | .tryOutputRecovery eligible =>
    s.initialReconciled && eligible && s.router.fatal && s.router.ownershipEmpty && !s.router.locked
  | _ => false

variable {op : Stream.Op}

/- To clear a flag that is not set owes nothing. -/
theorem tame_of_unproven (hMoves : s.Moves true log t) (hUnproven : s.initialReconciled = false) :
    Tame s log { t with initialReconciled := false } where
  truthful := by
    intro st hFits hLevel
    rcases (tame_of_moves hMoves).truthful st hFits hLevel with ⟨hAfter, hOther⟩
    exact ⟨⟨hAfter.behind, hAfter.event, hAfter.unlocked⟩, hOther⟩
  milder := by
    intro st hAwaits hReady hDrain hWire _
    have hKept := hMoves.kept
    exact hAwaits (hKept.ready hReady) (hKept.drain hDrain) (hKept.wire ▸ hWire) (.inl hUnproven)

/- The Retire of a keyboard says nothing about locks or resets. -/
theorem retires_tame {generation : Nat} (hRetires : s.Retires generation packet) :
    Tame s [.stamped (some packet)] s.stamp := by
  refine ⟨fun st _ hLevel => ⟨hLevel.stamp ?_, ?_⟩, fun st hAwaits => hAwaits⟩
  · rw [hRetires.body]
    rfl
  · simp [posted, Record.posted?, resetless, hRetires.body, Body.isReconciliation,
      Body.isLifecycleReset]

/- Nor does the Event of a key. -/
theorem exports_tame {transmitted : Bool} {generation : Nat} {kept sent : Option Packet}
    (hExports : s.Exports transmitted generation kept sent) :
    Tame s [.stamped sent] { s.stamp with eventPacket := kept } := by
  refine ⟨fun st _ hLevel => ?_, fun st hAwaits => hAwaits⟩
  have hEvents : ∀ p, kept = some p → p.body.isEvent = true := by
    intro p hSome
    exact (hExports.event p hSome).elim id (hLevel.event p)
  cases hSent : sent with
  | none =>
    exact ⟨⟨hLevel.behind, hEvents, hLevel.unlocked⟩, by simp [posted, Record.posted?]⟩
  | some p =>
    rw [hExports.sent] at hSent
    have hEvent := hEvents p (Option.filter_eq_some_iff.mp hSent).1
    cases hBody : p.body <;>
      simp [hBody, Body.isEvent] at hEvent
    have hStamped := hLevel.stamp (show p.body.isLock = false by
        rw [hBody]
        rfl)
    refine ⟨⟨hStamped.behind, hEvents, hStamped.unlocked⟩, ?_⟩
    simp [posted, Record.posted?, resetless, hBody, Body.isReconciliation, Body.isLifecycleReset]

/- Moves of a piece that runs beside new keyboards. -/
theorem tame_of_beside {physical : PhysicalDevices}
    (hMoves : (s.register physical).Moves true log t) :
    Tame s log t ∧ (Fits s log → Counts s log t) := by
  have hBeside : Tame s [] (s.register physical) := tame_of_still { }
  refine ⟨hBeside.trans (fun _ => ⟨rfl, le_rfl⟩) (tame_of_moves hMoves), fun hFits => ?_⟩
  have hCounts := moves_counts hMoves ⟨hFits.epoch, hFits.sequence⟩
  exact ⟨hCounts.epoch, hCounts.sequence⟩

/- Only the pieces that are no keys may owe something. -/
theorem step_posts (hOp : Joint.isConnect op = false) (hStep : s.step op = some (s', log)) :
    Tame s log s' ∨ s.Posts op log s' := by
  cases Stream.step_stepped hStep with
  | connected => cases hOp
  | moved _ hPosts => exact .inr hPosts
  | joined physical router _ _ hEpoch => exact .inl (tame_of_still { epoch := hEpoch })
  | left _ _ _ _ hMoves | settled _ _ hMoves => exact .inl ((tame_of_moves hMoves).still { })
  | retired _ _ packet _ _ hMoves hRetires =>
    have hAll := (tame_of_moves hMoves).trans (moves_counts hMoves) (retires_tame hRetires)
    exact .inl (hAll.still { })
  | passed physical current _ _ hMoves => exact .inl ((tame_of_beside hMoves).1.still { })
  | exported _ _ _ _ _ _ _ _ _ hMoves _ hExports _ hEpoch =>
    rcases tame_of_beside hMoves with ⟨hTame, hCounts⟩
    have hAll := hTame.trans hCounts (exports_tame hExports)
    exact .inl (hAll.still { epoch := hEpoch })
  | correlated router current hEpoch => exact .inl (tame_of_still { epoch := hEpoch })
  | @reported _ _ _ t _ _ _ _ _ hMoves =>
    have hTame : Tame s [] { t with current := none } := (tame_of_moves hMoves).still { }
    exact .inl ⟨fun st hFits => hTame.truthful st ⟨hFits.epoch, hFits.sequence⟩, hTame.milder⟩

end Sledge.Link
