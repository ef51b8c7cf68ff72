import Sledge.Link.Announcements

/-
  Proofs of reconciliation on the wire.

  What the bridge waits for is followed through the packets on
  their way.  As long as no hook clears the adapter's flag in
  silence, every Reset(8) finds the bridge unlocked and
  waiting.

  Main results:
    * `Expects.posts`
    * `Joint.run_expecting`
    * `Joint.reconciliation_solicited`
-/

-----
-- Expectations

namespace Sledge.Link

open Native Linux Transition

variable {s s' : Stream} {op : Stream.Op} {log : List Native.Record} {st : Standing}

/- What the bridge is to expect of the adapter. -/
structure Expects (offered : Bool) (s : Stream) (st : Standing) : Prop where
  level : Level s st
  awaits : Awaits s st
  offered : offered = true → st.awaiting = true

theorem posted_snoc (packet : Packet) :
    posted (log ++ [.stamped (some packet)]) = posted log ++ [packet] := by
  rw [posted_append]
  rfl

theorem Expects.tame {offered : Bool} (hExpects : Expects offered s st) (hTame : Tame s log s')
    (hFits : Fits s log) :
    Solicited st (posted log) ∧ Expects offered s' (st.heedAll (posted log)) := by
  rcases hTame.truthful st hFits hExpects.level with ⟨hLevel, hOther⟩
  have hSame : (st.heedAll (posted log)).awaiting = st.awaiting := heedAll_awaiting hOther
  refine ⟨solicited_of_resetless hOther, hLevel, ?_, ?_⟩
  · rw [Awaits, hSame]
    exact hTame.milder st hExpects.awaits
  · rw [hSame]
    exact hExpects.offered

/- A piece whose packets are all queued, and none is missing. -/
theorem Expects.posts {offered : Bool} (hExpects : Expects offered s st)
    (hPosts : s.Posts op log s') (hFits : Fits s log) (hLoud : silences s op = false)
    (hQueued : .stamped none ∉ log) (hOffered : offered = true → s.connection.ready = false) :
    Solicited st (posted log) ∧ Expects offered s' (st.heedAll (posted log)) := by
  have hCleared : Level { s with initialReconciled := false } st :=
    ⟨hExpects.level.behind, hExpects.level.event, hExpects.level.unlocked⟩
  cases hPosts with
  | tame hMoves => exact hExpects.tame (tame_of_moves hMoves) hFits
  | cleared hMoves hWhy =>
    refine hExpects.tame (tame_of_unproven hMoves ?_) hFits
    rcases hWhy with hUnproven | rfl | ⟨rfl, hRecovers⟩
    · exact hUnproven
    · simpa [silences] using hLoud
    · simpa [silences, hRecovers] using hLoud
  | unannounced hMoves hWhy =>
    rcases (tame_of_moves hMoves).truthful st { hFits with } hCleared with ⟨hLevel, hOther⟩
    refine ⟨solicited_of_resetless hOther, hLevel, ?_, ?_⟩
    · intro hReady hDrain hWire _
      rcases hWhy with hNot | hNot | hNot | hNot
      · exact absurd hDrain hNot
      · rw [hNot] at hWire
        cases hWire
      · rw [hNot] at hReady
        cases hReady
      · exact absurd hNot hQueued
    · rw [heedAll_awaiting hOther]
      exact hExpects.offered
  | announced packet reason hMoves hReason hResets =>
    rcases (tame_of_moves hMoves).truthful st { hFits.first with } hCleared with ⟨hLevel, hOther⟩
    rw [posted_snoc, solicited_append, heedAll_append]
    have hBoundary : packet.body.isLifecycleReset = true := by
      rw [hResets.body]
      rcases hReason with rfl | rfl <;> rfl
    refine ⟨⟨solicited_of_resetless hOther, ?_, trivial⟩, hLevel.stamp (by rw [hResets.body]; rfl),
      fun _ _ _ _ => heed_boundary hBoundary hResets.global,
      fun _ => heed_boundary hBoundary hResets.global⟩
    intro hReset
    rw [hReset] at hBoundary
    cases hBoundary
  | proven packet hMoves hUnproven hDrain hWire hPhase hSteady hResets =>
      rcases (tame_of_moves hMoves).truthful st hFits.first hExpects.level with ⟨hStart, hOther⟩
      have hReady : s.connection.ready = true := by
        rw [← hSteady.connection]
        exact hResets.current.1
      have hAwaited := hExpects.awaits hReady hDrain hWire (.inl hUnproven)
      have hAfter := hStart.stamp (by rw [hResets.body]; rfl)
      rw [posted_snoc, solicited_append, heedAll_append]
      refine ⟨⟨solicited_of_resetless hOther, ?_, trivial⟩,
        ⟨hAfter.behind, hAfter.event, hAfter.unlocked⟩, ?_,
        ?_⟩
      · intro _
        refine ⟨hResets.global, hStart.unlocked hResets.current (hSteady.phase.trans hPhase)
          hResets.level, ?_⟩
        rw [heedAll_awaiting hOther]
        exact hAwaited
      · intro _ _ _ hUnsent
        rcases hUnsent with hCleared | hUnbound
        · cases hCleared
        · exact absurd (hResets.current.2.symm.trans hUnbound) Bool.false_ne_true
      · intro hOpen
        rw [hOffered hOpen] at hReady
        cases hReady

-----
-- Runs

namespace Joint

variable {H : Type} {j j' : Joint H}

/- Why a native step may break the promise. -/
def silent (e : Entry H) : Bool :=
  match e.op with
  | .native op => silences e.pre.stream op
  | _ => false

/- What the bridge is once it has heeded all on its way. -/
def standing (j : Joint H) : Standing := j.bridge.standing.heedAll j.flight

/- While connected, the bridge waits for what will be sent. -/
structure Expecting (j : Joint H) : Prop where
  level : ∃ st, Level j.stream st
  solicited : j.bridge.transport.isSome = true → Solicited j.bridge.standing j.flight
  expects : j.bridge.transport.isSome = true → Expects j.offered j.stream j.standing

theorem expecting_of_starts (hStarts : j.Starts) : j.Expecting := by
  rcases hStarts.stream with ⟨replacementWire, tapReleaseEnabled, dropOutcomeOnce, seed, hStream⟩
  rcases hStarts.bridge with ⟨transport, expected, greeting, hBridge⟩
  have hReady : j.stream.connection.ready = false := by
    rw [hStream]
    rfl
  have hLevel : Level j.stream j.standing := Level.of_not_ready hReady
      (by rw [hStream]; exact Nat.zero_le _)
      (by rw [hStream]; simp [Stream.init])
  refine ⟨⟨_, hLevel⟩, ?_, ?_⟩
  · intro _
    rw [hStarts.flight]
    trivial
  · intro _
    refine ⟨hLevel, .of_not_ready hReady, ?_⟩
    intro _
    rw [standing, hStarts.flight]
    rw [(Bridge.passiveHandshake_fresh hBridge).2]
    rfl

variable [EventHandler H]

theorem step_expecting {op : Op} (hExpecting : j.Expecting) (hCoupled : j.Coupled)
    (hStep : j.step op = some (j', log)) (hFits : Fits j.stream log)
    (hLoud : silent ⟨j, op, log⟩ = false) (hQueued : .stamped none ∉ log) : j'.Expecting := by
  have hAddressed := hCoupled.mirror.addressed
  cases op with
  | native op =>
    simp only [step] at hStep
    split_ifs at hStep with hConnect
    rcases Option.map_eq_some_iff.mp hStep with ⟨⟨stream, records⟩, hNative, hEq⟩
    cases hEq
    have hAfter (st : Standing) (hExpects : Expects j.offered j.stream st) :
        Solicited st (posted records) ∧ Expects j.offered stream (st.heedAll (posted records)) := by
      rcases step_posts (by simpa using hConnect) hNative with hTame | hPosts
      · exact hExpects.tame hTame hFits
      · exact hExpects.posts hPosts hFits hLoud hQueued fun hOffered =>
          (hAddressed.pending hOffered).1
    refine ⟨?_, ?_, ?_⟩
    · rcases hExpecting.level with ⟨st, hLevel⟩
      have hStart : Expects j.offered j.stream ⟨st.locked, true⟩ :=
        ⟨⟨hLevel.behind, hLevel.event, hLevel.unlocked⟩, fun _ _ _ _ => rfl, fun _ => rfl⟩
      exact ⟨_, (hAfter _ hStart).2.level⟩
    · intro hConnected
      have hSolicited := (hAfter _ (hExpecting.expects hConnected)).1
      exact solicited_append.mpr ⟨hExpecting.solicited hConnected, hSolicited⟩
    · intro hConnected
      rw [standing, heedAll_append]
      exact (hAfter _ (hExpecting.expects hConnected)).2
  | connect generation =>
    simp only [step] at hStep
    split_ifs at hStep with hOffered
    rcases Option.map_eq_some_iff.mp hStep with ⟨⟨stream, records⟩, hNative, hEq⟩
    cases hEq
    rcases step_connect hNative with ⟨hNewer, rfl, rfl⟩
    have hNonce : j.bridge.nonce ≠ 0 := by
      have hNonzero := hAddressed.nonzero
      rwa [Receiver.hearAll_nonce] at hNonzero
    have hOlder := hAddressed.older
    have hUnbound :
        { j.stream with connection := ⟨true, generation, j.bridge.nonce⟩ }.unbound = true := by
      simp only [Stream.unbound, Bool.and_eq_true, bne_iff_ne]
      omega
    have hShown (st : Standing) (hLevel : Level j.stream st) : Level
        { j.stream with connection := ⟨true, generation, j.bridge.nonce⟩ } st := by
      refine ⟨hLevel.behind, hLevel.event, ?_⟩
      intro hCurrent
      rw [hCurrent.2] at hUnbound
      cases hUnbound
    refine ⟨?_, hExpecting.solicited, ?_⟩
    · rcases hExpecting.level with ⟨st, hLevel⟩
      exact ⟨st, hShown st hLevel⟩
    · intro hConnected
      have hExpects := hExpecting.expects hConnected
      refine ⟨hShown _ hExpects.level, ?_, by simp⟩
      intro _ _ _ _
      exact hExpects.offered hOffered
  | deliver op =>
    simp only [step] at hStep
    cases hFlight : j.flight with
    | nil => simp [hFlight] at hStep
    | cons packet rest =>
      rw [hFlight] at hStep
      simp only at hStep
      split_ifs at hStep with hReads
      cases hStep
      have hSolicited := hExpecting.solicited hReads.1
      have hExpects := hExpecting.expects hReads.1
      rw [standing, hFlight] at hExpects
      rw [hFlight] at hSolicited
      refine ⟨hExpecting.level, ?_, ?_⟩
      all_goals
        intro hConnected
        have hHeeded := (Bridge.perform_standing hReads.2 hReads.1).resolve_left
            (Option.isSome_iff_ne_none.mp hConnected)
      · simp only
        rw [hHeeded]
        exact hSolicited.2
      · rw [standing]
        simp only
        rw [hHeeded]
        exact hExpects
  | daemon op =>
    simp only [step] at hStep
    split_ifs at hStep with hReads
    cases hStep
    refine ⟨hExpecting.level, ?_, ?_⟩
    all_goals
      intro hConnected
      have hSame := (Bridge.perform_standing_unread hReads.2 hReads.1).resolve_left
          (Option.isSome_iff_ne_none.mp hConnected)
      simp only [hSame] at hConnected
    · simp only
      rw [hSame]
      exact hExpecting.solicited hConnected
    · rw [standing]
      simp only
      rw [hSame]
      exact hExpecting.expects hConnected
  | greet transport expected greeting =>
    simp only [step] at hStep
    split_ifs at hStep with hReady
    rcases j.bridge.reconnect_cases transport expected greeting with
      ⟨error, hRefused⟩ | ⟨nonce, _, _, _, _, hGreeted⟩
    · rw [hRefused] at hStep
      cases hStep
      exact ⟨hExpecting.level, hExpecting.solicited, hExpecting.expects⟩
    · rw [hGreeted] at hStep
      cases hStep
      rcases hExpecting.level with ⟨st, hLevel⟩
      have hClosed : j.stream.connection.ready = false := by simpa using hReady
      have hAfter (st' : Standing) : Level j.stream st' := Level.of_not_ready hClosed hLevel.behind
          hLevel.event
      refine ⟨⟨st, hLevel⟩, fun _ => trivial, fun _ => ?_⟩
      exact ⟨hAfter _, .of_not_ready hClosed, fun _ => rfl⟩

variable {start last : Joint H} {trace : List (Entry H)}

theorem run_expecting (hStarts : start.Starts) (hRun : Run step start trace last)
    (hFits : Fits start.stream (records trace)) (hLoud : ∀ e ∈ trace, silent e = false)
    (hQueued : ∀ e ∈ trace, .stamped none ∉ e.out) : last.Expecting := by
  induction hRun with
  | nil => exact expecting_of_starts hStarts
  | snoc hRun hLast ih =>
    rw [records_snoc] at hFits
    rw [List.forall_mem_append, List.forall_mem_singleton] at hLoud hQueued
    rcases run_coupled hStarts hRun hFits.first with ⟨hCoupled, hCounts⟩
    exact step_expecting (ih hFits.first hLoud.1 hQueued.1)
      hCoupled hLast (hFits.second hCounts) hLoud.2
      hQueued.2

/- Every Reset(8) finds the bridge unlocked and waiting, and is taken if it is timely. -/
theorem reconciliation_solicited (hStarts : start.Starts)
    (hRun : Run step start trace last) (hIncrements : increments trace < 2 ^ 64)
    (hQueued : ∀ e ∈ trace, .stamped none ∉ e.out) (hLoud : ∀ e ∈ trace, silent e = false)
    (e : Entry H) (hMem : e ∈ trace) (packet : Packet) (hDelivered : delivered e = some packet)
    (hBody : packet.body = .reset 8) :
    e.pre.bridge.locked = false ∧ e.pre.bridge.awaitingReconciliation = true ∧
      ∀ deadlineNs research env, checkDeadline env.validatedAt packet.scope.deadlineNs = .ok () →
          (e.pre.bridge.processPacket e.pre.handler packet deadlineNs research env).result = .ok () := by
  rcases List.append_of_mem hMem with ⟨front, rest, rfl⟩
  rcases hRun.upto with ⟨mid, hUpto⟩
  rcases hUpto.concat_inv with ⟨hFront, hStep⟩
  rw [List.forall_mem_append] at hLoud hQueued
  rcases e with ⟨pre, op, out⟩
  cases op with
  | native op | connect generation | daemon op | greet transport expected greeting =>
    cases hDelivered
  | deliver op =>
    have hHead : pre.flight.head? = some packet := hDelivered
    rcases List.head?_eq_some_iff.mp hHead with ⟨later, hFlight⟩
    have hFits := fits_of_flight hStarts hFront (increments_front hIncrements) (by simp [hFlight])
    have hExpecting := run_expecting hStarts hFront hFits hLoud.1 hQueued.1
    have hRelays := (run_coupled hStarts hFront hFits).1.relays
    simp only [step, hFlight] at hStep
    split_ifs at hStep with hReads
    have hSolicited := hExpecting.solicited hReads.1
    simp only [hFlight] at hRelays hSolicited
    rcases hSolicited.1 hBody with ⟨hGlobal, hLocked, hAwaiting⟩
    refine ⟨hLocked, hAwaiting, ?_⟩
    intro deadlineNs research env hTimely
    exact Bridge.processPacket_reconciles (hRelays.1 hReads.1) hTimely hBody hGlobal hLocked
      hAwaiting

/- What a step reads off the socket in time. -/
def read (packet : Packet) : Op := .deliver (.stepIfReady true (.reading packet))

def promptly : Stream.Announcement := ⟨1, true, 1, true⟩

/- The first connection is reconciled. -/
def reconciled : List Op :=
  [.connect 1, .native .ensureConnectionBinding, .native (.reconcileInitial true promptly),
    read ⟨⟨0, 3, 1, 10000001, 7⟩, .lock 0 0⟩,
    read ⟨⟨0, 3, 2, 10000001, 7⟩, .reset 8⟩]

/- The focus moves and the output is reconciled again. -/
def refocused : List Op :=
  reconciled ++ [.native (.focus promptly), .native (.reconcileInitial true promptly),
      read ⟨⟨0, 4, 3, 10000001, 7⟩, .lock 0 0⟩,
      read ⟨⟨0, 4, 4, 10000001, 7⟩, .reset 2⟩,
      read ⟨⟨0, 4, 5, 10000001, 7⟩, .reset 8⟩]

theorem reconciliation_solicited_refocused :
    let trace := entriesOf step greeted refocused
    (trace.filterMap delivered).length = 5 ∧ ∀ e ∈ trace, ∀ packet, delivered e = some packet →
        packet.body = .reset 8 → e.pre.bridge.awaitingReconciliation = true := by
  have hEvaluated : (exec step greeted refocused).isSome = true ∧
      ((entriesOf step greeted refocused).filterMap delivered).length = 5 ∧
      increments (entriesOf step greeted refocused) < 2 ^ 64 ∧
      (∀ e ∈ entriesOf step greeted refocused, .stamped none ∉ e.out) ∧
      ∀ e ∈ entriesOf step greeted refocused, silent e = false := by
    decide +kernel
  rcases hEvaluated with ⟨hSome, hLength, hFew, hQueued, hLoud⟩
  refine ⟨hLength, ?_⟩
  intro e hMem packet hDelivered hBody
  exact (reconciliation_solicited greeted_starts
    (Run.of_isSome hSome) hFew hQueued hLoud e
    hMem packet hDelivered hBody).2.1

/-
  A keyboard without a known keymap is selected; then a key of a known one selects that
  keyboard again.
-/
def reselected : List Op :=
  reconciled ++ [.native (.selectKeyboard false), .native (.syncUnlock false promptly),
      .native .ensureConnectionBinding,
      .native (.tryOutputRecovery false),
      .native (.beginLifecycle promptly),
      .native (.selectKeyboard true),
      .native (.reconcileInitial true promptly),
      read ⟨⟨0, 4, 3, 10000001, 7⟩, .lock 0 0⟩,
      read ⟨⟨0, 4, 4, 10000001, 7⟩, .reset 8⟩]

/- The bridge does not wait for it, and hangs up. -/
theorem unsolicited_reset :
    let trace := entriesOf step greeted reselected
    let last := lastOf step greeted reselected
    greeted.Starts ∧ Run step greeted trace last ∧ (∀ e ∈ trace, .stamped none ∉ e.out) ∧
      (∃ e ∈ trace, delivered e = some ⟨⟨0, 4, 4, 10000001, 7⟩, .reset 8⟩ ∧
          e.pre.bridge.locked = false ∧
          e.pre.bridge.awaitingReconciliation = false) ∧
      last.bridge.transport = none := by
  refine ⟨greeted_starts, .of_isSome (by decide +kernel), ?_⟩
  decide +kernel

end Joint

end Sledge.Link
