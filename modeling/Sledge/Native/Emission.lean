import Sledge.Native.Stream

/-
  What the pieces of the adapter do to the stream.

  Every piece is a sequence of a few moves: the epoch is
  incremented, a new connection is bound, a sequence number
  is used up, a control packet goes out, or nothing happens
  that the daemon could see.  A key adds at most its Event
  and its outcome.  Results about runs are proved move by
  move and do not open the pieces again.

  Main results:
    * `Stream.lifecycle_reset_cases`
    * `Stream.step_stepped`
-/

-----
-- Moves

namespace Sledge.Native

namespace Stream

/- The registers that scope the packets of a connection. -/
structure Counters where
  readyGeneration : Nat
  nonce : Nat
  wireSequence : Nat
  wireEpoch : Nat

def counters (s : Stream) : Counters where
  readyGeneration := s.readyGeneration
  nonce := s.nonce
  wireSequence := s.wireSequence
  wireEpoch := s.wireEpoch

/- The counters belong to the connection the worker shows. -/
def Current (s : Stream) : Prop := s.connection.ready = true ∧ s.unbound = false

/- Nothing that scopes the packets is different. -/
structure Unseen (s s' : Stream) : Prop where
  counters : s'.counters = s.counters := by rfl
  epoch : s'.router.epoch = s.router.epoch := by rfl
  generation : s'.connection.generation = s.connection.generation := by
      rfl
  nonce : s'.connection.nonce = s.connection.nonce := by rfl
  ready : s'.connection.ready = true → s.connection.ready = true := by exact fun h => h
  reconciled : s'.initialReconciled = true → s.initialReconciled = true ∨ s.Current := by
        exact fun h => .inl h

/- No lock is opened and no proof given up either. -/
structure Still (s s' : Stream) : Prop extends Unseen s s' where
  event : s'.eventPacket = s.eventPacket := by rfl
  drain : s'.drain = .running → s.drain = .running := by exact fun h => h
  wire : s'.replacementWire = s.replacementWire := by rfl
  phase : s'.phase = .opened → s.phase = .opened := by exact fun h => h
  unproven : s'.connection.ready = true → s'.drain = .running →
      (s'.initialReconciled = false ∨ s'.unbound = true) →
      s.initialReconciled = false ∨ s.unbound = true := by
        exact fun _ _ h => h

/- Nothing happens that the daemon could see. -/
structure Quiet (s s' : Stream) : Prop extends Still s s' where
  physical : s'.physical = s.physical := by rfl
  current : s'.current = s.current := by rfl

/- A packet with the next sequence number goes out. -/
structure Issues (s : Stream) (packet : Linux.Packet) : Prop where
  ready : s.connection.ready = true
  nonce : packet.scope.nonce = s.nonce
  peer : packet.scope.nonce = s.connection.nonce
  sequence : packet.scope.sequence = increment s.wireSequence
  numbered : packet.scope.sequence ≠ 0
  epoch : packet.scope.lockEpoch = s.router.epoch

/- The counters are those of some connection. -/
def Bound (s : Stream) : Prop := s.Current ∨ s.initialReconciled = true

/- The counters after one more packet. -/
def stamp (s : Stream) : Stream := { s with wireSequence := increment s.wireSequence }

/- A tame move posts no reset and gives up no proof. -/
inductive Move (s : Stream) : Bool → List Record → Stream → Prop where
  | quiet {tame : Bool} {s' : Stream} (hQuiet : s.Quiet s') : Move s tame [] s'
  | cleared : Move s false [] { s with initialReconciled := false }
  | bumped {tame : Bool} (router : Router) (phase : LockPhase)
      (hEpoch : router.epoch = increment s.router.epoch) :
      Move s tame [.bumped] { s with router := router, phase := phase }
  | bound {tame : Bool} (router : Router) (hReady : s.connection.ready = true)
      (hUnbound : s.unbound = true) (hEpoch : router.epoch = increment s.router.epoch) :
      Move s tame [.bumped] { s.bindConnection with router := router }
  | wasted {tame : Bool} : Move s tame [.stamped none] s.stamp
  | locked {tame : Bool} (packet : Linux.Packet) (value : Nat) (hBound : s.Bound)
      (hIssues : s.Issues packet) (hBody : packet.body = .lock value 0)
      (hGlobal : packet.scope.generation = 0)
      (hAhead : s.router.epoch ≠ s.wireEpoch)
      (hValue : s.phase = .opened → value = 0) :
      Move s tame [.stamped (some packet)] { s.stamp with wireEpoch := s.router.epoch }
  | reset (packet : Linux.Packet) (reason : Nat) (hBound : s.Bound) (hIssues : s.Issues packet)
      (hBody : packet.body = .reset reason)
      (hGlobal : packet.scope.generation = 0)
      (hLevel : s.router.epoch = s.wireEpoch) :
      Move s false [.stamped (some packet)] s.stamp

/- Moves one after another. -/
inductive Moves (s : Stream) (tame : Bool) : List Record → Stream → Prop where
  | refl : Moves s tame [] s
  | snoc {t u : Stream} {log log' : List Record} (hMoves : Moves s tame log t)
      (hMove : t.Move tame log' u) :
      Moves s tame (log ++ log') u

/- What moves leave alone. -/
structure Kept (s s' : Stream) : Prop where
  current : s'.current = s.current
  physical : s'.physical = s.physical
  nonce : s'.connection.nonce = s.connection.nonce
  event : s'.eventPacket = s.eventPacket
  wire : s'.replacementWire = s.replacementWire
  drain : s'.drain = .running → s.drain = .running
  ready : s'.connection.ready = true → s.connection.ready = true

variable {s t u : Stream} {tame : Bool} {log log' : List Record}

theorem Move.moves (hMove : s.Move tame log t) : s.Moves tame log t := Moves.snoc Moves.refl hMove

theorem Quiet.moves (hQuiet : s.Quiet t) : s.Moves tame [] t := (Move.quiet hQuiet).moves

theorem Moves.trans (hFirst : s.Moves tame log t) (hSecond : t.Moves tame log' u) :
    s.Moves tame (log ++ log') u := by
  induction hSecond with
  | refl =>
    rw [List.append_nil]
    exact hFirst
  | snoc _ hMove ih =>
    rw [← List.append_assoc]
    exact .snoc ih hMove

theorem Moves.after (hMoves : s.Moves tame log t) (hMove : t.Move tame [] u) :
    s.Moves tame log u := by
  have hBoth := hMoves.trans hMove.moves
  rwa [List.append_nil] at hBoth

theorem Moves.quiet (hMoves : s.Moves tame log t) (hQuiet : t.Quiet u) : s.Moves tame log u :=
  hMoves.after (Move.quiet hQuiet)

theorem Quiet.before (hQuiet : s.Quiet t) (hMoves : t.Moves tame log u) : s.Moves tame log u :=
  hQuiet.moves.trans hMoves

/- A new state of the router at the same epoch. -/
theorem Quiet.of_router {router : Router} (hEpoch : router.epoch = s.router.epoch) :
    s.Quiet { s with router := router } where
  epoch := hEpoch

theorem Quiet.closeStream : s.Quiet s.closeStream where
  ready := by
    intro hReady
    cases hReady
  reconciled := by
    intro hProven
    cases hProven
  unproven := by
    intro hReady
    cases hReady

/- Without a connection there is nothing to prove. -/
theorem Quiet.lost (hReady : s.connection.ready = false) :
    s.Quiet { s with initialReconciled := false } where
  reconciled := by
    intro hProven
    cases hProven
  unproven := by
    intro hShown
    rw [show s.connection.ready = true from hShown] at hReady
    cases hReady

theorem Moves.kept (hMoves : s.Moves tame log t) : s.Kept t := by
  induction hMoves with
  | refl => exact ⟨rfl, rfl, rfl, rfl, rfl, id, id⟩
  | snoc _ hMove ih =>
    cases hMove with
    | quiet hQuiet =>
      exact ⟨hQuiet.current.trans ih.current, hQuiet.physical.trans ih.physical,
        hQuiet.nonce.trans ih.nonce, hQuiet.event.trans ih.event, hQuiet.wire.trans ih.wire,
        fun hDrain => ih.drain (hQuiet.drain hDrain), fun hReady => ih.ready (hQuiet.ready hReady)⟩
    | _ => exact { ih with }

/- A tame run of moves is a run of moves. -/
theorem Moves.untamed (hMoves : s.Moves true log t) : s.Moves tame log t := by
  induction hMoves with
  | refl => exact .refl
  | snoc _ hMove ih =>
    refine .snoc ih ?_
    cases hMove with
    | quiet hQuiet => exact .quiet hQuiet
    | bumped router phase hEpoch => exact .bumped router phase hEpoch
    | bound router hReady hUnbound hEpoch => exact .bound router hReady hUnbound hEpoch
    | wasted => exact .wasted
    | locked packet value hBound hIssues hBody hGlobal hAhead hValue =>
      exact .locked packet value hBound hIssues hBody hGlobal hAhead hValue

/- The same stream next to other keyboards. -/
def register (s : Stream) (physical : PhysicalDevices) : Stream := { s with physical := physical }

theorem Move.register (hMove : s.Move tame log t) (physical : PhysicalDevices) :
    (s.register physical).Move tame log (t.register physical) := by
  cases hMove with
  | quiet hQuiet => exact .quiet { hQuiet with physical := rfl }
  | cleared => exact .cleared
  | bumped router phase hEpoch => exact .bumped router phase hEpoch
  | bound router hReady hUnbound hEpoch => exact .bound router hReady hUnbound hEpoch
  | wasted => exact .wasted
  | locked packet value hBound hIssues hBody hGlobal hAhead hValue =>
    exact .locked packet value hBound { hIssues with } hBody hGlobal hAhead hValue
  | reset packet reason hBound hIssues hBody hGlobal hLevel =>
    exact .reset packet reason hBound { hIssues with } hBody hGlobal hLevel

/- Moves do not look at the keyboards. -/
theorem Moves.register (hMoves : s.Moves tame log t) (physical : PhysicalDevices) :
    (s.register physical).Moves tame log (t.register physical) := by
  induction hMoves with
  | refl => exact .refl
  | snoc _ hMove ih => exact .snoc ih (hMove.register _)

/- Only control packets go out with a move. -/
theorem Moves.sent (hMoves : s.Moves tame log t) {packet : Linux.Packet}
    (hSent : packet ∈ log.filterMap Record.sent?) : packet.body.isControl = true := by
  induction hMoves with
  | refl => simp at hSent
  | snoc _ hMove ih =>
    rw [List.filterMap_append, List.mem_append] at hSent
    rcases hSent with hEarlier | hLast
    · exact ih hEarlier
    · cases hMove with
      | locked _ _ _ _ hBody
      | reset _ _ _ _ hBody =>
        simp only [List.filterMap_cons, Record.sent?,
          List.filterMap_nil, List.mem_singleton] at hLast
        rw [hLast, hBody]
        rfl
      | _ => simp [Record.sent?] at hLast

-----
-- Controls

variable {s' : Stream} {ok : Bool} {at_ : Announcement}

/- A call that makes a new epoch, whatever the phase was. -/
theorem call_bumped {call : Router.Call} {phase : LockPhase} (hBumps : s.router.bumps call = true)
    (hCall : { s with phase := phase }.call call = (s', log)) : s.Moves true log s' := by
  have hEpoch := s.router.perform_epoch call
  unfold Stream.call at hCall
  rw [if_pos hBumps] at hEpoch hCall
  cases hCall
  exact (Move.bumped _ phase hEpoch).moves

/- A call on the router moves its epoch at most once. -/
theorem call_moves {call : Router.Call} (hCall : s.call call = (s', log)) :
    s.Moves true log s' := by
  cases hBumps : s.router.bumps call with
  | true => exact call_bumped hBumps hCall
  | false =>
    have hEpoch := s.router.perform_epoch call
    unfold Stream.call at hCall
    rw [hBumps, if_neg Bool.false_ne_true] at hEpoch hCall
    cases hCall
    exact (Quiet.of_router hEpoch).moves

variable {opcode : Opcode}

/- A control is queued, or its number is wasted. -/
theorem emit_cases {device deadline value : Nat} {room : Bool}
    (hEmit : s.emit opcode device s.router.epoch deadline value room = (s', ok, log)) :
    s' = s.stamp ∧ ((ok = false ∧ log = [.stamped none]) ∨ ∃ packet,
          ok = true ∧ log = [.stamped (some packet)] ∧ s.Issues packet ∧
            packet.scope.generation = device ∧
            packet.body = opcode.body value ∧
            opcode.refuses device value = false) := by
  unfold emit at hEmit
  simp only [Prod.mk.injEq] at hEmit
  rcases hEmit with ⟨rfl, rfl, rfl⟩
  refine ⟨rfl, ?_⟩
  cases hSent : (control opcode ⟨device, s.router.epoch, increment s.wireSequence,
      deadline, s.nonce⟩ value).filter
    (s.notifies room) with
  | none => exact .inl ⟨rfl, rfl⟩
  | some packet =>
    rw [Option.filter_eq_some_iff] at hSent
    rcases hSent with ⟨hControl, hNotified⟩
    unfold control at hControl
    split_ifs at hControl with hRefused
    obtain rfl := Option.some.inj hControl
    simp only [unscoped, Bool.or_eq_true, beq_iff_eq, not_or, Bool.not_eq_true] at hRefused
    simp only [notifies, Bool.and_eq_true, beq_iff_eq] at hNotified
    exact .inr ⟨_, rfl, rfl, ⟨hNotified.1.1, rfl, hNotified.2, rfl, hRefused.1.1.2, rfl⟩,
      rfl, rfl, hRefused.2⟩

/- Why nothing was announced. -/
def Unannounced (s : Stream) (log : List Record) (s' : Stream) : Prop :=
  s.drain ≠ .running ∨ s.replacementWire = false ∨ s'.connection.ready = false ∨ .stamped none ∈ log

/- What a piece of an announcement leaves alone. -/
structure Steady (s s' : Stream) : Prop where
  phase : s'.phase = s.phase := by rfl
  connection : s'.connection = s.connection := by rfl

theorem Steady.trans (hFirst : s.Steady t) (hSecond : t.Steady u) : s.Steady u :=
  ⟨hSecond.phase.trans hFirst.phase, hSecond.connection.trans hFirst.connection⟩

theorem Unannounced.wasted (hLost : .stamped none ∈ log) : s.Unannounced log t :=
  .inr (.inr (.inr hLost))

/- A piece of an announcement that ends on the connection at hand, or says why not. -/
structure Binds (s : Stream) (ok : Bool) (log : List Record) (s' : Stream) : Prop where
  moves : s.Moves true log s'
  steady : s.Steady s'
  current : ok = true → s'.Current
  why : ok = false → s.Unannounced log s'

theorem ensureConnectionBinding_binds (hEnsure : s.ensureConnectionBinding = (s', ok, log)) :
    s.Binds ok log s' := by
  unfold ensureConnectionBinding at hEnsure
  by_cases hDrain : s.drain.active = true
  · rw [if_pos hDrain] at hEnsure
    cases hEnsure
    refine ⟨.refl, { }, by simp, fun _ => .inl ?_⟩
    simpa [DrainState.active] using hDrain
  rw [if_neg hDrain] at hEnsure
  by_cases hReady : s.connection.ready = true
  · rw [if_neg (not_not_intro hReady)] at hEnsure
    cases hUnbound : s.unbound with
    | true =>
      rw [if_pos hUnbound] at hEnsure
      cases hEnsure
      refine ⟨(Move.bound _ hReady hUnbound (s.bindConnection.router.perform_epoch
        .disconnect)).moves, { }, ?_, by simp⟩
      intro _
      exact ⟨hReady, by simp [unbound, bindConnection]⟩
    | false =>
      rw [if_neg (by simp [hUnbound])] at hEnsure
      cases hEnsure
      exact ⟨.refl, { }, fun _ => ⟨hReady, hUnbound⟩, by simp⟩
  · rw [if_pos hReady] at hEnsure
    have hLost : s.connection.ready = false := by simpa using hReady
    cases hProven : s.initialReconciled with
    | true =>
      rw [if_pos hProven] at hEnsure
      cases hEnsure
      exact ⟨(call_moves rfl).quiet (.lost hLost), { }, by simp, fun _ =>
          .inr (.inr (.inl hLost))⟩
    | false =>
      rw [if_neg (by simp [hProven])] at hEnsure
      cases hEnsure
      exact ⟨(Quiet.lost hLost).moves, { }, by simp, fun _ => .inr (.inr (.inl hLost))⟩

theorem announceEpoch_moves (hCurrent : s.Current) (hAnnounce : s.announceEpoch at_ = (s', ok, log)) :
    s.Moves true log s' ∧ s.Steady s' ∧ s'.Current ∧
      (ok = true → s'.router.epoch = s'.wireEpoch) ∧ (ok = false → .stamped none ∈ log) := by
  unfold announceEpoch at hAnnounce
  by_cases hLevel : s.router.epoch = s.wireEpoch
  · rw [if_pos hLevel] at hAnnounce
    cases hAnnounce
    exact ⟨.refl, { }, hCurrent, fun _ => hLevel, by simp⟩
  · rw [if_neg hLevel] at hAnnounce
    rcases hEmit : s.emit .lock 0 s.router.epoch (controlDeadline at_.lockedAt)
      (if s.phase.routeLocked then 1 else 0)
      at_.lockRoom with ⟨t, sent, log'⟩
    simp only [hEmit] at hAnnounce
    rcases emit_cases hEmit with ⟨rfl, ⟨rfl, rfl⟩ | ⟨packet, rfl, rfl, hIssues, hGlobal, hBody, _⟩⟩
    · cases hAnnounce
      exact ⟨Move.wasted.moves, { }, hCurrent, by simp, fun _ => List.mem_cons_self⟩
    · cases hAnnounce
      have hValue : s.phase = .opened → (if s.phase.routeLocked then 1 else 0) = 0 := by
        intro hPhase
        rw [hPhase]
        rfl
      exact ⟨(Move.locked packet _ (.inl hCurrent) hIssues hBody hGlobal hLevel hValue).moves, { },
        hCurrent, fun _ => rfl, by simp⟩

/-
  Up to the last packet of a `lifecycle` call: nothing was announced, or the epoch is
  announced and the rest is `announceControl`.
-/
theorem lifecycle_cases {device reason : Nat}
    (hLifecycle : s.lifecycle opcode device reason at_ = (s', ok, log)) :
    (ok = false ∧ s.Moves true log s' ∧ s.Unannounced log s') ∨ ∃ t front last,
        s.Moves true front t ∧ s.Steady t ∧ t.Current ∧ t.router.epoch = t.wireEpoch ∧
          t.announceControl opcode device reason at_ = (s', ok, last) ∧
          log = front ++ last := by
  unfold lifecycle at hLifecycle
  split_ifs at hLifecycle with hClosed
  · cases hLifecycle
    refine .inl ⟨rfl, .refl, ?_⟩
    rcases hClosed with hDrain | hWire
    · exact .inl (by simpa [DrainState.active] using hDrain)
    · exact .inr (.inl (by simpa using hWire))
  · rcases hEnsure : s.ensureConnectionBinding with ⟨t, bound, front⟩
    simp only [hEnsure] at hLifecycle
    have hFront : s.Binds bound front t := ensureConnectionBinding_binds hEnsure
    cases bound with
    | false =>
      cases hLifecycle
      exact .inl ⟨rfl, hFront.moves, hFront.why rfl⟩
    | true =>
      rcases hEpoch : t.announceEpoch at_ with ⟨u, announced, middle⟩
      simp only [hEpoch] at hLifecycle
      rcases announceEpoch_moves (hFront.current rfl) hEpoch with
        ⟨hMiddle, hSteady, hStill, hLevel, hLost⟩
      have hBoth := hFront.moves.trans hMiddle
      cases announced with
      | false =>
        cases hLifecycle
        exact .inl ⟨rfl, hBoth, .wasted (List.mem_append_right _ (hLost rfl))⟩
      | true =>
        rcases hLast : u.announceControl opcode device reason at_ with ⟨v, queued, last⟩
        simp only [hLast] at hLifecycle
        cases hLifecycle
        exact .inr ⟨u, front ++ middle, last, hBoth, hFront.steady.trans hSteady, hStill,
          hLevel rfl, hLast, rfl⟩

/- The last packet of a reset. -/
structure Resets (s : Stream) (reason : Nat) (packet : Linux.Packet) : Prop where
  current : s.Current
  issues : s.Issues packet
  body : packet.body = .reset reason
  global : packet.scope.generation = 0
  level : s.router.epoch = s.wireEpoch

variable {reason : Nat}

theorem lifecycle_lock_moves
    (hLifecycle : s.lifecycle .lock 0 reason at_ = (s', ok, log)) : s.Moves true log s' := by
  rcases lifecycle_cases hLifecycle with ⟨_, hMoves, _⟩ |
    ⟨t, front, last, hFront, _, _, _, hLast, rfl⟩
  · exact hMoves
  · unfold announceControl at hLast
    rw [if_pos rfl] at hLast
    cases hLast
    rw [List.append_nil]
    exact hFront

/- A reset goes out on a level connection, or not at all. -/
theorem lifecycle_reset_cases
    (hLifecycle : s.lifecycle .reset 0 reason at_ = (s', ok, log)) :
    (ok = false ∧ s.Moves true log s' ∧ s.Unannounced log s') ∨ ∃ t front packet,
        ok = true ∧ s.Moves true front t ∧ s.Steady t ∧ t.Resets reason packet ∧
          log = front ++ [.stamped (some packet)] ∧
          s' = t.stamp := by
  rcases lifecycle_cases hLifecycle with hFailed |
    ⟨t, front, last, hFront, hSteady, hCurrent, hLevel, hLast, rfl⟩
  · exact .inl hFailed
  · unfold announceControl at hLast
    rw [if_neg (by simp)] at hLast
    rcases emit_cases hLast with ⟨rfl, ⟨rfl, rfl⟩ |
      ⟨packet, rfl, rfl, hIssues, hGlobal, hBody, _⟩⟩
    · refine .inl ⟨rfl, .snoc hFront .wasted, .wasted ?_⟩
      exact List.mem_append_right _ (List.mem_singleton.mpr rfl)
    · exact .inr ⟨t, front, packet, rfl, hFront, hSteady,
        ⟨hCurrent, hIssues, hBody, hGlobal, hLevel⟩, rfl, rfl⟩

-----
-- Pieces

/- What a piece that is no key posts, and what it still owes. -/
inductive Posts (s : Stream) (op : Op) : List Record → Stream → Prop where
  | tame {log : List Record} {s' : Stream} (hMoves : s.Moves true log s') : Posts s op log s'
  | cleared {log : List Record} {t : Stream} (hMoves : s.Moves true log t)
      (hWhy : s.initialReconciled = false ∨ op = .selectKeyboard false ∨
        op = .tryOutputRecovery true ∧ s.router.fatal = true ∧ s.router.ownershipEmpty = true ∧
          s.router.locked = false) :
      Posts s op log { t with initialReconciled := false }
  | announced {log : List Record} {t : Stream} (packet : Linux.Packet) (reason : Nat)
      (hMoves : { s with initialReconciled := false }.Moves true log t)
      (hReason : reason = 2 ∨ reason = 3)
      (hResets : t.Resets reason packet) :
      Posts s op (log ++ [.stamped (some packet)]) t.stamp
  | unannounced {log : List Record} {s' : Stream}
      (hMoves : { s with initialReconciled := false }.Moves true log s')
      (hWhy : s'.Unannounced log s') :
      Posts s op log s'
  | proven {log : List Record} {t : Stream} (packet : Linux.Packet) (hMoves : s.Moves true log t)
      (hUnproven : s.initialReconciled = false)
      (hDrain : s.drain = .running)
      (hWire : s.replacementWire = true)
      (hPhase : s.phase = .opened)
      (hSteady : s.Steady t)
      (hResets : t.Resets 8 packet) :
      Posts s op (log ++ [.stamped (some packet)]) { t.stamp with initialReconciled := true }

variable {op : Op}

theorem Resets.move {packet : Linux.Packet} (hResets : s.Resets reason packet) :
    s.Move false [.stamped (some packet)] s.stamp :=
  Move.reset packet reason (.inl hResets.current) hResets.issues hResets.body hResets.global
    hResets.level

theorem Posts.moves (hPosts : s.Posts op log s') : s.Moves false log s' := by
  cases hPosts with
  | tame hMoves => exact hMoves.untamed
  | cleared hMoves => exact hMoves.untamed.after Move.cleared
  | announced packet reason hMoves _ hResets =>
    exact Moves.snoc (Move.cleared.moves.trans hMoves.untamed) hResets.move
  | unannounced hMoves => exact Move.cleared.moves.trans hMoves.untamed
  | proven packet hMoves _ _ _ _ _ hResets =>
    refine (Moves.snoc hMoves.untamed hResets.move).quiet { reconciled := ?_, unproven := ?_ }
    · intro _
      exact .inr hResets.current
    · intro _ _ hUnsent
      exact .inr (hUnsent.resolve_left (by simp))

/- A failed announcement seen from its end. -/
theorem Unannounced.after (hWhy : s.Unannounced log s') (hKept : s.Kept s') :
    s'.Unannounced log s' := by
  rcases hWhy with hDrain | hWire | hRest
  · exact .inl (fun hRunning => hDrain (hKept.drain hRunning))
  · exact .inr (.inl (hKept.wire.trans hWire))
  · exact .inr (.inr hRest)

/- To clear a flag that is not set owes nothing. -/
theorem Quiet.cleared (hUnproven : s.initialReconciled = false) :
    s.Quiet { s with initialReconciled := false } where
  reconciled := by
    intro hProven
    cases hProven
  unproven := fun _ _ _ => .inl hUnproven

theorem syncUnlock_moves {locked : Bool} (hSync : s.syncUnlock locked at_ = (s', log)) :
    s.Moves true log s' := by
  unfold syncUnlock at hSync
  rcases hObserve : s.phase.observe locked with ⟨phase, unlocked⟩
  simp only [hObserve] at hSync
  cases unlocked with
  | false =>
    cases hSync
    refine Quiet.moves { phase := ?_ }
    intro hOpened
    simp only at hOpened
    subst hOpened
    cases hPhase : s.phase <;> cases locked <;>
      simp [hPhase, LockPhase.observe] at hObserve ⊢
  | true =>
    rcases hCall : { s with phase := phase }.call .unlockConfirmed with ⟨t, front⟩
    rcases hLock : t.lifecycle .lock 0 0 at_ with ⟨u, ok, last⟩
    simp only [hCall, hLock, if_true] at hSync
    cases hSync
    exact (call_bumped rfl hCall).trans (lifecycle_lock_moves hLock)

theorem revoke_moves {output : Output} (hRevoke : s.revoke output at_ = (s', log)) :
    s.Moves true log s' := by
  unfold revoke at hRevoke
  rcases hCall : { s with phase := .entering }.call (.lock output) with ⟨t, front⟩
  rcases hLock : t.lifecycle .lock 0 1 at_ with ⟨u, ok, last⟩
  simp only [hCall, hLock] at hRevoke
  cases hRevoke
  exact (call_bumped rfl hCall).trans (lifecycle_lock_moves hLock)

/- A boundary and the reset that announces it. -/
theorem boundary_posts (op : Op) {ok : Bool} {front last : List Record}
    (hReason : reason = 2 ∨ reason = 3)
    (hCall : { s with initialReconciled := false }.call .focusChanged = (t, front))
    (hReset : t.lifecycle .reset 0 reason at_ = (u, ok, last)) :
    s.Posts op (front ++ last) u ∧
      (ok = false → { s with initialReconciled := false }.Moves true (front ++ last) u) := by
  have hFront : { s with initialReconciled := false }.Moves true front t := call_moves hCall
  rcases lifecycle_reset_cases hReset with ⟨rfl, hMoves, hWhy⟩ |
    ⟨v, middle, packet, rfl, hMoves, _, hResets, rfl, rfl⟩
  · refine ⟨.unannounced (hFront.trans hMoves) ?_, fun _ => hFront.trans hMoves⟩
    rcases hWhy.after hMoves.kept with hDrain | hWire | hReady | hLost
    · exact .inl hDrain
    · exact .inr (.inl hWire)
    · exact .inr (.inr (.inl hReady))
    · exact .wasted (List.mem_append_right _ hLost)
  · rw [← List.append_assoc]
    exact ⟨.announced packet reason (hFront.trans hMoves) hReason hResets, by simp⟩

theorem beginLifecycle_posts (hBegin : s.beginLifecycle at_ = (s', log)) : s.Posts op log s' := by
  unfold beginLifecycle at hBegin
  rcases hCall : { s with initialReconciled := false }.call .focusChanged with ⟨t, front⟩
  rcases hReset : t.lifecycle .reset 0 3 at_ with ⟨u, ok, last⟩
  simp only [hCall, hReset] at hBegin
  cases hProven : s.initialReconciled with
  | false =>
    rw [if_neg (by simp [hProven])] at hBegin
    cases hBegin
    exact Posts.tame ((Quiet.cleared hProven).before (call_moves hCall))
  | true =>
    rw [if_pos hProven] at hBegin
    rcases boundary_posts op (.inr rfl) hCall hReset with ⟨hPosts, hMoves⟩
    cases ok <;> cases hBegin
    · exact .unannounced ((hMoves rfl).quiet .closeStream) (.inr (.inr (.inl rfl)))
    · exact hPosts

theorem focus_posts (hFocus : s.focus at_ = (s', log)) : s.Posts op log s' := by
  unfold focus at hFocus
  rcases hCall : { s with initialReconciled := false }.call .focusChanged with ⟨t, front⟩
  rcases hReset : t.lifecycle .reset 0 2 at_ with ⟨u, ok, last⟩
  simp only [hCall, hReset] at hFocus
  cases hFocus
  exact (boundary_posts op (.inl rfl) hCall hReset).1

theorem bootstrapRouter_moves (hBootstrap : s.bootstrapRouter = (s', log)) :
    s.Moves true log s' ∧ s.Steady s' := by
  unfold bootstrapRouter at hBootstrap
  cases hPending : s.routerBootstrapPending with
  | false =>
    rw [if_neg (by simp [hPending])] at hBootstrap
    cases hBootstrap
    exact ⟨.refl, { }⟩
  | true =>
    rw [if_pos hPending] at hBootstrap
    cases hBootstrap
    exact ⟨(call_moves rfl).quiet { }, { }⟩

theorem reconcileInitial_posts {proof : Bool}
    (hReconcile : s.reconcileInitial proof at_ = (s', log)) : s.Posts op log s' := by
  unfold reconcileInitial at hReconcile
  by_cases hRefused : s.drain.active = true ∨ ¬ s.replacementWire = true ∨
    s.initialReconciled = true ∨
    ¬ s.quiescenceProof proof = true
  · rw [if_pos hRefused] at hReconcile
    cases hReconcile
    exact .tame .refl
  rw [if_neg hRefused] at hReconcile
  push Not at hRefused
  rcases hRefused with ⟨hActive, hWire, hProven, hProof⟩
  have hUnproven : s.initialReconciled = false := by simpa using hProven
  have hDrain : s.drain = .running := by simpa [DrainState.active] using hActive
  have hOpened : s.phase = .opened := by
    simp only [quiescenceProof, Bool.and_eq_true, Bool.not_eq_true', LockPhase.routeLocked] at hProof
    simpa using hProof.1.2
  rcases hBootstrap : s.bootstrapRouter with ⟨t, front⟩
  rcases hReset : t.lifecycle .reset 0 8 at_ with ⟨u, queued, last⟩
  simp only [hBootstrap, hReset] at hReconcile
  cases hReconcile
  rcases bootstrapRouter_moves hBootstrap with ⟨hFront, hSteady⟩
  rcases lifecycle_reset_cases hReset with ⟨rfl, hMoves, _⟩ |
    ⟨v, middle, packet, rfl, hMoves, hSteady', hResets, rfl, rfl⟩
  · exact .cleared (hFront.trans hMoves) (.inl hUnproven)
  · rw [← List.append_assoc]
    exact .proven packet (hFront.trans hMoves) hUnproven hDrain hWire hOpened
      (hSteady.trans hSteady') hResets

theorem tryOutputRecovery_posts {eligible : Bool}
    (hRecover : s.tryOutputRecovery eligible = (s', log)) :
    s.Posts (.tryOutputRecovery eligible) log s' := by
  unfold tryOutputRecovery at hRecover
  split_ifs at hRecover with hClosed
  · cases hRecover
    exact .tame .refl
  rcases hCall : s.call (.recoverRetiredOutput true) with ⟨t, front⟩
  simp only [hCall] at hRecover
  split at hRecover <;> cases hRecover
  · rename_i hRecovered
    push Not at hClosed
    unfold Router.recoverRetiredOutput at hRecovered
    split_ifs at hRecovered with hRefused
    simp only [Bool.or_eq_true, Bool.not_eq_true', not_or, Bool.not_eq_false] at hRefused
    refine .cleared (call_moves hCall) (.inr (.inr ?_))
    simp [hClosed.2, hRefused]
  · exact .tame (call_moves hCall)

theorem requestDrain_moves (hDrain : s.requestDrain = (s', log)) : s.Moves true log s' := by
  unfold requestDrain at hDrain
  split_ifs at hDrain with hDetached
  · cases hDrain
    exact .refl
  · have hStopped : s.drain.request ≠ .running := by
      cases s.drain <;> decide
    have hQuiet : s.Quiet { s with drain := s.drain.request, initialReconciled := false } :=
      { reconciled := by
          intro hProven
          cases hProven
        drain := fun hRunning => absurd hRunning hStopped
        unproven := fun _ hRunning => absurd hRunning hStopped }
    exact hQuiet.before (call_moves hDrain)

-----
-- Kinds Of Steps

/- A keyboard leaves the registry. -/
structure Leaves (s : Stream) (generation : Nat) (physical : PhysicalDevices) : Prop where
  attached : s.physical.Attached generation
  left : ∀ id, physical.Attached id → s.physical.Attached id ∧ id ≠ generation
  next : physical.next = s.physical.next

/- At most one keyboard joins the registry. -/
structure Joins (s : Stream) (physical : PhysicalDevices) : Prop where
  attached : ∀ id, physical.Attached id → s.physical.Attached id ∨ id = s.physical.next
  next : s.physical.next ≤ physical.next

/- The Retire of a keyboard that has left. -/
structure Retires (s : Stream) (generation : Nat) (packet : Linux.Packet) : Prop where
  bound : s.Bound
  issues : s.Issues packet
  generation : packet.scope.generation = generation
  body : packet.body = .retire 1
  level : s.router.epoch = s.wireEpoch

/- The Event of a key, as it is handed to the worker. -/
structure Exports (s : Stream) (transmitted : Bool) (generation : Nat)
    (packet sent : Option Linux.Packet) : Prop where
  reconciled : s.initialReconciled = true
  level : s.router.epoch = s.wireEpoch
  attached : s.physical.Attached generation
  encoded : generation ≠ 0 → s.nonce ≠ 0 → increment s.wireSequence ≠ 0 → ∃ p event,
        packet = some p ∧ p.body = .event event ∧ p.scope.generation = generation ∧
          p.scope.lockEpoch = s.router.epoch ∧
          p.scope.sequence = increment s.wireSequence ∧
          p.scope.nonce = s.nonce
  event : ∀ p, packet = some p → p.body.isEvent = true ∨ s.eventPacket = some p
  sent : sent = packet.filter (s.notifies transmitted)

/- An event was taken from the keyboards. -/
structure Presses (s : Stream) (physical : PhysicalDevices) : Prop where
  attached : ∀ id, physical.Attached id ↔ s.physical.Attached id
  next : physical.next = s.physical.next

namespace Op

/- The pieces that carry one key. -/
def keyed : Op → Bool
  | .openKey _ => true
  | .keybind _ => true
  | .consumerRoute _ => true
  | .closeKey _ _ _ => true
  | _ => false

end Op

/- Everything a piece can do. -/
inductive Stepped (s : Stream) : Op → List Record → Stream → Prop where
  | connected (generation nonce : Nat) (hNewer : s.connection.generation < generation) :
      Stepped s (.connect generation nonce) [] { s with connection := ⟨true, generation, nonce⟩ }
  | moved {op : Op} {log : List Record} {s' : Stream} (hOp : op.keyed = false)
      (hPosts : s.Posts op log s') :
      Stepped s op log s'
  | joined {op : Op} (physical : PhysicalDevices) (router : Router) (hOp : op.keyed = false)
      (hJoins : s.Joins physical)
      (hEpoch : router.epoch = s.router.epoch) :
      Stepped s op [] { s with physical := physical, router := router }
  | left {op : Op} {log : List Record} {t : Stream} (generation : Nat) (physical : PhysicalDevices)
      (hOp : op.keyed = false)
      (hLeaves : s.Leaves generation physical)
      (hMoves : s.Moves true log t) :
      Stepped s op log (t.register physical)
  | retired {op : Op} {log : List Record} {t : Stream} (generation : Nat)
      (physical : PhysicalDevices)
      (packet : Linux.Packet)
      (hOp : op.keyed = false)
      (hLeaves : s.Leaves generation physical)
      (hMoves : s.Moves true log t)
      (hRetires : t.Retires generation packet) :
      Stepped s op (log ++ [.stamped (some packet)]) (t.stamp.register physical)
  | passed {input : KeyInput} {log : List Record} {t : Stream} (physical : PhysicalDevices)
      (current : Option Transaction)
      (hPresses : s.Presses physical)
      (hFree : s.current = none)
      (hMoves : (s.register physical).Moves true log t)
      (hCurrent : ∀ k, current = some k → k.ticket = none) :
      Stepped s (.openKey input) log { t with current := current }
  | exported {input : KeyInput} {log : List Record} {t : Stream} (physical : PhysicalDevices)
      (id : Nat)
      (packet sent : Option Linux.Packet)
      (k : Transaction)
      (router : Router)
      (hPresses : s.Presses physical)
      (hFree : s.current = none)
      (hAllowed : s.exports input = true)
      (hMoves : (s.register physical).Moves true log t)
      (hConnection : t.connection = s.connection)
      (hExports : t.Exports input.transmitted id packet sent)
      (hTicket : k.ticket.isSome = true)
      (hEpoch : router.epoch = t.router.epoch) :
      Stepped s (.openKey input) (log ++ [.stamped sent])
        { t.stamp with eventPacket := packet, router := router, current := some k }
  | correlated {op : Op} (router : Router) (current : Option Transaction)
      (hEpoch : router.epoch = s.router.epoch)
      (hTicket : current.map Transaction.ticket = s.current.map Transaction.ticket) :
      Stepped s op [] { s with router := router, current := current }
  | settled {now : Nat} {output : Output} {room : Bool} {log : List Record} {t : Stream}
      (k : Transaction)
      (hCurrent : s.current = some k)
      (hMoves : s.Moves true log t)
      (hUnreported : k.ticket = none ∨ s.dropsOutcome k = true ∨ ∀ p, s.eventPacket = some p →
            s.notifies room p = false) :
      Stepped s (.closeKey now output room) log { t with current := none }
  | reported {now : Nat} {output : Output} {room : Bool} {t : Stream} (k : Transaction)
      (packet : Linux.Packet)
      (outcome : Linux.Outcome)
      (hCurrent : s.current = some k)
      (hTicket : k.ticket.isSome = true)
      (hMoves : s.Moves true [] t)
      (hPacket : s.eventPacket = some packet)
      (hNotified : s.notifies room packet = true) :
      Stepped s (.closeKey now output room) [.reported ⟨packet.scope, .outcome outcome⟩]
        { t with current := none }

theorem Stepped.of_moves (hOp : op.keyed = false) (hMoves : s.Moves true log s') :
    s.Stepped op log s' :=
  Stepped.moved hOp (Posts.tame hMoves)

-----
-- Keyboards

variable {identity generation : Nat}

theorem leaves_of_detach (hGeneration : s.physical.generation? identity = some generation)
    (output : Output) : s.Leaves generation (s.physical.detach identity s.router output).1 := by
  refine ⟨PhysicalDevices.attached_of_generation hGeneration, ?_,
    PhysicalDevices.detach_next _ _ _ _⟩
  intro id hAttached
  rcases s.physical.detach_cases identity s.router output with hNone | ⟨id', hSame, _, _, hLeft, _⟩
  · unfold PhysicalDevices.detach at hNone
    unfold PhysicalDevices.generation? at hGeneration
    rcases Option.map_eq_some_iff.mp hGeneration with ⟨slot, hFind, _⟩
    rw [hFind] at hNone
    simp at hNone
  · rw [hGeneration] at hSame
    obtain rfl := Option.some.inj hSame
    exact (hLeft id).mp hAttached

/- The moves of a piece that runs beside new keyboards. -/
theorem Moves.unregister {t : Stream} {physical : PhysicalDevices}
    (hMoves : (s.register physical).Moves true log t) :
    ∃ u, s.Moves true log u ∧ t = u.register physical := by
  refine ⟨t.register s.physical, hMoves.register s.physical, ?_⟩
  have hSame : t.physical = physical := hMoves.kept.physical
  rw [← hSame]
  rfl

theorem retire_stepped {output : Output} {at_ : Announcement}
    (hRetire : s.retire identity output at_ = (s', log)) :
    s.Stepped (.retire identity output at_) log s' := by
  unfold retire at hRetire
  cases hGeneration : s.physical.generation? identity with
  | none =>
    rw [hGeneration] at hRetire
    cases hRetire
    exact .of_moves rfl .refl
  | some generation =>
    rw [hGeneration] at hRetire
    have hLeaves := leaves_of_detach hGeneration output
    rcases hCall : s.call (.retire generation output) with ⟨t, front⟩
    rcases hLifecycle : (t.register (s.physical.detach identity s.router
            output).1).lifecycle .retire generation 1 at_ with
      ⟨u, ok, rest⟩
    simp only [hCall] at hRetire
    simp only [register] at hLifecycle
    rw [hLifecycle] at hRetire
    cases hRetire
    have hFront := call_moves hCall
    rcases lifecycle_cases hLifecycle with ⟨_, hMoves, _⟩ |
      ⟨v, middle, last, hMiddle, _, hCurrent, hLevel, hLast, rfl⟩
    · rcases hMoves.unregister with ⟨v, hBeside, rfl⟩
      exact .left generation _ rfl hLeaves (hFront.trans hBeside)
    · unfold announceControl at hLast
      rw [if_neg (by simp)] at hLast
      rcases hMiddle.unregister with ⟨v, hBeside, rfl⟩
      have hMoves := hFront.trans hBeside
      rw [← List.append_assoc]
      rcases emit_cases hLast with ⟨rfl, ⟨_, rfl⟩ | ⟨packet, _, rfl, hIssues, hDevice, hBody, _⟩⟩
      · exact .left generation _ rfl hLeaves (.snoc hMoves .wasted)
      · exact .retired generation _ packet rfl hLeaves hMoves
          ⟨.inl hCurrent, { hIssues with }, hDevice, hBody, hLevel⟩

/- A new keyboard leaves the counters alone. -/
theorem joins_of_attach {verifiedEvdev virtualDevice : Bool} {translation : Key → Nat}
    {physical : PhysicalDevices} {router : Router}
    (hAttach : s.physical.attach identity verifiedEvdev virtualDevice
        translation s.router = (physical, router, generation)) :
    s.Joins physical ∧ router.epoch = s.router.epoch := by
  have hCases := s.physical.attach_cases identity verifiedEvdev virtualDevice translation s.router
  have hEpoch := s.router.perform_epoch (.add s.physical.next)
  rw [hAttach] at hCases
  rcases hCases with ⟨_, ⟨hRouter, _, hNext, hAttached⟩ | ⟨hRouter, _, _, hNext, hAttached⟩⟩
  · exact ⟨⟨fun id h => .inl ((hAttached id).mp h), hNext⟩, congrArg Router.epoch hRouter⟩
  · exact ⟨⟨fun id h => (hAttached id).mp h, by simp only at hNext; omega⟩, (congrArg Router.epoch hRouter).trans hEpoch⟩

end Stream

-----
-- Keys

namespace Router

/- What every ticket says about the router that issued it. -/
structure Grants (r : Router) (event : Event) (result : Router × Option Ticket) : Prop where
  epoch : result.1.epoch = r.epoch
  ticket : ∀ t, result.2 = some t → t.device = event.device ∧ t.epoch = r.epoch ∧ t.deadline ≠ 0

theorem begin_grants (r : Router) (event : Event) (now budgetNs : Nat) (releaseAction : Bool)
    (hBudget : budgetNs ≠ 0) : r.Grants event (r.begin event now budgetNs releaseAction) := by
  rcases r.begin_cases event now budgetNs releaseAction with
    ⟨hNone, _, hAfter⟩ | ⟨_, _, hSome, hAfter⟩
  · refine ⟨by rw [hAfter], ?_⟩
    intro t hTicket
    rw [hNone] at hTicket
    cases hTicket
  · refine ⟨by rw [hAfter], ?_⟩
    intro t hTicket
    rw [hSome] at hTicket
    cases hTicket
    exact ⟨rfl, rfl, by simp [nextTicket, hBudget]⟩

theorem settlement_grants (r : Router) (event : Event) (now budgetNs : Nat) (hBudget : budgetNs ≠ 0) :
    r.Grants event (r.settlement event now budgetNs) := by
  rcases r.settlement_cases event now budgetNs with hAfter | hAfter
  · rw [hAfter]
    refine ⟨rfl, ?_⟩
    intro t hTicket
    cases hTicket
  · rw [hAfter]
    refine ⟨rfl, ?_⟩
    intro t hTicket
    cases hTicket
    exact ⟨rfl, rfl, by simp [nextTicket, hBudget]⟩

end Router

namespace Stream

variable {s s' : Stream} {log : List Record} {input : KeyInput}

theorem ticketFor_grants (s : Stream) (event : Event) (input : KeyInput) :
    s.router.Grants event (s.ticketFor event input) := by
  have hBudget : ticketBudgetNs ≠ 0 := by decide
  unfold ticketFor
  generalize hFirst : (if s.actionable event = true then
      s.router.begin event input.begunAt ticketBudgetNs s.tapReleaseEnabled
    else
      s.router.settlement event input.begunAt ticketBudgetNs) = first
  have hGrants : s.router.Grants event first := by
    rw [← hFirst]
    split
    · exact Router.begin_grants _ _ _ _ _ hBudget
    · exact Router.settlement_grants _ _ _ _ hBudget
  rcases first with ⟨r, ticket⟩
  simp only
  split
  · have hAgain := Router.settlement_grants r event input.settledAt ticketBudgetNs hBudget
    refine ⟨hAgain.epoch.trans hGrants.epoch, ?_⟩
    intro t hTicket
    have hEpoch : r.epoch = s.router.epoch := hGrants.epoch
    rw [← hEpoch]
    exact hAgain.ticket t hTicket
  · exact hGrants

variable {ticket : Ticket} {room : Bool}

theorem exportEvent_exports {id : Nat} {key : Key} {state : State} {sent : Bool}
    (hProven : s.initialReconciled = true) (hLevel : s.router.epoch = s.wireEpoch)
    (hAttached : s.physical.Attached id) (hDevice : ticket.device = id)
    (hEpoch : ticket.epoch = s.router.epoch) (hDeadline : ticket.deadline ≠ 0)
    (hExport : s.exportEvent (.ofKey id key state) ticket input = (s', sent, log)) :
    ∃ packet sent, s.Exports input.transmitted id packet sent ∧ log = [.stamped sent] ∧
        s' = { s.stamp with eventPacket := packet } := by
  unfold exportEvent at hExport
  simp only [Prod.mk.injEq] at hExport
  rcases hExport with ⟨rfl, _, rfl⟩
  refine ⟨_, _, ⟨hProven, hLevel, hAttached, ?_, ?_, rfl⟩, rfl, rfl⟩
  · intro hGeneration hNonce hSequence
    have hKey := key.isLt
    have hMask := s.router.devices.forwardedModifiers.isLt
    have hState : state.code ≤ 2 := by
      cases state <;> decide
    have hEncoded : Native.eventPacket ⟨ticket.device, ticket.epoch,
            increment s.wireSequence, ticket.deadline,
            s.nonce⟩
          (s.eventOf (.ofKey id key state) ticket input) =
        some ⟨⟨ticket.device, ticket.epoch, increment s.wireSequence, ticket.deadline, s.nonce⟩,
            .event (s.eventOf (.ofKey id key state) ticket input)⟩ := by
      unfold Native.eventPacket
      rw [if_neg]
      simp only [unscoped, Bool.or_eq_true, beq_iff_eq, decide_eq_true_eq]
      simp only [eventOf, Event.ofKey, hDevice]
      omega
    rw [hEncoded]
    exact ⟨_, _, rfl, rfl, hDevice, hEpoch, rfl, rfl⟩
  · intro p hPacket
    rcases Option.or_eq_some_iff.mp hPacket with hFresh | ⟨_, hStale⟩
    · unfold Native.eventPacket at hFresh
      split_ifs at hFresh
      obtain rfl := Option.some.inj hFresh
      exact .inl rfl
    · exact .inr hStale

theorem advanceEpoch_moves {ok : Bool} (hAdvance : s.advanceEpoch ticket room = (s', ok, log))
    (hProven : s.initialReconciled = true) (hEpoch : ticket.epoch = s.router.epoch) :
    s.Moves true log s' ∧ s'.initialReconciled = true ∧ s'.connection = s.connection ∧
      s'.router = s.router ∧ s'.nonce = s.nonce ∧
      (ok = true → s'.router.epoch = s'.wireEpoch) := by
  unfold advanceEpoch at hAdvance
  rw [hEpoch] at hAdvance
  by_cases hLevel : s.router.epoch = s.wireEpoch
  · rw [if_pos hLevel] at hAdvance
    cases hAdvance
    exact ⟨.refl, hProven, rfl, rfl, rfl, fun _ => hLevel⟩
  · rw [if_neg hLevel] at hAdvance
    rcases hEmit : s.emit .lock 0 s.router.epoch ticket.deadline 0 room with ⟨t, sent, log'⟩
    simp only [hEmit] at hAdvance
    rcases emit_cases hEmit with ⟨rfl, ⟨rfl, rfl⟩ | ⟨packet, rfl, rfl, hIssues, hGlobal, hBody, _⟩⟩
    · cases hAdvance
      exact ⟨Move.wasted.moves, hProven, rfl, rfl, rfl, by simp⟩
    · cases hAdvance
      exact ⟨(Move.locked packet _ (.inr hProven) hIssues hBody
        hGlobal hLevel (fun _ => rfl)).moves, hProven, rfl, rfl, rfl,
        fun _ => rfl⟩

theorem exportKey_cases {id : Nat} {key : Key} {state : State} {ticket : Option Ticket}
    {reply : Option Decision} (hAttached : s.physical.Attached id)
    (hExport : s.exportKey (.ofKey id key state) input = (s', ticket, reply, log)) :
    (ticket = none ∧ s.Moves true log s') ∨ ∃ t front packet sent,
        ticket.isSome = true ∧ s.exports input = true ∧
          s.Moves true front t ∧ t.connection = s.connection ∧
          t.Exports input.transmitted id packet sent ∧
          log = front ++ [.stamped sent] ∧
          s' = { t.stamp with eventPacket := packet } := by
  unfold exportKey at hExport
  by_cases hExports : s.exports input = true
  · rw [if_neg (not_not_intro hExports)] at hExport
    have hProven : s.initialReconciled = true := by
      simp only [exports, Bool.and_eq_true] at hExports
      exact hExports.1.1.2
    have hGrants := s.ticketFor_grants (.ofKey id key state) input
    rcases hTicket : s.ticketFor (.ofKey id key state) input with ⟨r, _ | granted⟩
    · rw [hTicket] at hExport hGrants
      cases hExport
      exact .inl ⟨rfl, (Quiet.of_router hGrants.epoch).moves⟩
    · rw [hTicket] at hExport hGrants
      rcases hGrants.ticket granted rfl with ⟨hDevice, hEpoch, hDeadline⟩
      have hRouter : r.epoch = s.router.epoch := hGrants.epoch
      have hQuiet : s.Quiet { s with router := r } := Quiet.of_router hRouter
      rcases hAdvance : { s with router := r }.advanceEpoch granted input.lockRoom with
        ⟨t, advanced, front⟩
      simp only [hAdvance] at hExport
      have hStart : granted.epoch = { s with router := r }.router.epoch := hEpoch.trans hRouter.symm
      rcases advanceEpoch_moves hAdvance hProven hStart with
        ⟨hMoves, hStill, hConnection, hSame, _, hLevel⟩
      cases advanced with
      | false =>
        cases hExport
        exact .inl ⟨rfl, hQuiet.before hMoves⟩
      | true =>
        rcases hEvent : t.exportEvent (.ofKey id key state) granted input with ⟨u, sent, last⟩
        simp only [hEvent] at hExport
        cases hExport
        have hPhysical : t.physical = s.physical := hMoves.kept.physical
        rcases exportEvent_exports hStill (hLevel rfl) (hPhysical.symm ▸ hAttached) hDevice
            (by rw [hSame]; exact hStart) hDeadline
            hEvent with
          ⟨packet, sent', hExported, rfl, rfl⟩
        exact .inr ⟨t, front, packet, sent', rfl, hExports,
          hQuiet.before hMoves, hConnection, hExported,
          rfl, rfl⟩
  · rw [if_pos hExports] at hExport
    cases hExport
    exact .inl ⟨rfl, .refl⟩

theorem openKey_stepped (hFree : s.current = none) (hOpen : s.openKey input = (s', log)) :
    s.Stepped (.openKey input) log s' := by
  have hNext := s.physical.event_next input.identity input.raw input.down
  have hNoTicket : ∀ k, s.current = some k → k.ticket = none := by simp [hFree]
  unfold openKey at hOpen
  rcases s.physical.event_cases input.identity input.raw input.down with
    hNone | ⟨physical, id, key, state, hEvent, hReported⟩
  · rw [hNone] at hOpen
    have hPresses : s.Presses s.physical := ⟨fun _ => Iff.rfl, rfl⟩
    simp only at hOpen
    split_ifs at hOpen <;> cases hOpen
    · exact Stepped.passed s.physical s.current hPresses hFree Quiet.closeStream.moves hNoTicket
    · exact .passed s.physical s.current hPresses hFree .refl hNoTicket
  · rw [hEvent] at hOpen hNext
    have hPresses : s.Presses physical := ⟨hReported.attached_iff, hNext⟩
    rcases hExport : (s.register physical).exportKey (.ofKey id key state) input with
      ⟨t, ticket, reply, front⟩
    simp only [register] at hExport
    simp only [hExport] at hOpen
    cases hOpen
    have hEpoch := t.router.perform_epoch (.route (.ofKey id key state) ticket reply
        input.routedAt input.output)
    have hAttached : (s.register physical).physical.Attached id :=
      (hReported.attached_iff id).mpr hReported.attached
    rcases exportKey_cases hAttached hExport with ⟨rfl, hMoves⟩ |
      ⟨u, front', packet, sent, hTicket, hExports, hMoves, hConnection, hExported, rfl, rfl⟩
    · exact .passed physical _ hPresses hFree (hMoves.quiet (.of_router hEpoch))
        (by rintro k ⟨⟩; rfl)
    · exact .exported physical id packet sent _ _ hPresses hFree hExports hMoves hConnection
        hExported hTicket hEpoch

/- Settling a key leaves the epoch alone. -/
theorem settleKey_cases {k : Transaction} {now : Nat} {output : Output} {outcome : Outcome}
    (hSettle : s.settleKey k now output = (s', outcome)) :
    ∃ router, router.epoch = s.router.epoch ∧ s' = { s with router := router } := by
  unfold settleKey at hSettle
  generalize hRouter : (if k.knownAdmission = true then
      (s.router.originalOutcome k.event k.proposal k.admitted).1
    else s.router) = router at hSettle
  have hEpoch : router.epoch = s.router.epoch := by
    rw [← hRouter]
    split
    · exact s.router.perform_epoch (.originalOutcome k.event k.proposal k.admitted)
    · rfl
  split at hSettle
  · split at hSettle
    · cases hSettle
      refine ⟨_, ?_, rfl⟩
      exact (router.perform_epoch (.finishRelease _ _ _ _ _ _)).trans hEpoch
    · cases hSettle
      exact ⟨router, hEpoch, rfl⟩
  · cases hSettle
    exact ⟨router, hEpoch, rfl⟩

/- The outcome of a ticketed key, once its router has settled. -/
theorem reportOutcome_stepped {t : Stream} {k : Transaction} {now : Nat} {output : Output}
    {outcome : Outcome} (hCurrent : s.current = some k) (hTicket : k.ticket = some ticket)
    (hQuiet : s.Quiet t) (hSame : t.dropsOutcome k = s.dropsOutcome k)
    (hNotifies : t.notifies room = s.notifies room)
    (hReport : t.reportOutcome k ticket outcome room = (s', log)) :
    s.Stepped (.closeKey now output room) log { s' with current := none } := by
  unfold reportOutcome at hReport
  by_cases hDrops : t.dropsOutcome k = true
  · simp only [hDrops, if_true] at hReport
    cases hReport
    exact .settled k hCurrent (hQuiet.moves.quiet { }) (.inr (.inl (hSame ▸ hDrops)))
  rcases hCall : t.call .disconnect with ⟨u, last⟩
  have hFailed := hQuiet.before ((call_moves hCall).quiet Quiet.closeStream)
  simp only [hDrops, if_false, Bool.false_eq_true, hQuiet.event, hNotifies, hCall] at hReport
  cases hPacket : s.eventPacket with
  | none =>
    simp only [hPacket, Option.map_none, Option.filter_none] at hReport
    cases hReport
    exact .settled k hCurrent hFailed (.inr (.inr (by simp [hPacket])))
  | some p =>
    simp only [hPacket, Option.map_some, Option.filter_some] at hReport
    split_ifs at hReport with hNotified <;> cases hReport
    · exact .reported k p _ hCurrent (by simp [hTicket]) hQuiet.moves hPacket hNotified
    · refine .settled k hCurrent hFailed (.inr (.inr ?_))
      rw [hPacket]
      rintro q ⟨⟩
      exact Bool.eq_false_iff.mpr hNotified

theorem closeKey_stepped {now : Nat} {output : Output}
    (hClose : s.closeKey now output room = some (s', log)) :
    s.Stepped (.closeKey now output room) log s' := by
  unfold closeKey at hClose
  rcases Option.map_eq_some_iff.mp hClose with ⟨k, hCurrent, hResult⟩
  rcases hSettle : s.settleKey k now output with ⟨t, outcome⟩
  simp only [hSettle] at hResult
  rcases settleKey_cases hSettle with ⟨router, hEpoch, rfl⟩
  cases hTicket : k.ticket with
  | none =>
    simp only [hTicket] at hResult
    cases hResult
    exact Stepped.settled k hCurrent (Quiet.of_router hEpoch).moves (.inl hTicket)
  | some ticket =>
    rcases hReport : { s with router := router }.reportOutcome k ticket outcome room with ⟨u, last⟩
    simp only [hTicket, hReport] at hResult
    cases hResult
    exact reportOutcome_stepped hCurrent hTicket (.of_router hEpoch) rfl rfl hReport

-----
-- Steps

theorem keybind_stepped (s : Stream) (admitted : Bool) :
    s.Stepped (.keybind admitted) [] (s.keybind admitted) := by
  unfold keybind
  cases hCurrent : s.current with
  | none => exact .correlated s.router s.current rfl rfl
  | some k =>
    refine .correlated (s.router.originalOutcome k.event k.proposal admitted).1
      (some _) ?_ ?_
    · exact s.router.perform_epoch (.originalOutcome k.event k.proposal admitted)
    · rw [hCurrent]
      rfl

theorem consumerRoute_stepped (s : Stream) (ime : Bool) :
    s.Stepped (.consumerRoute ime) [] (s.consumerRoute ime) := by
  refine .correlated s.router (s.current.map _) rfl ?_
  rw [Option.map_map]
  rfl

theorem perform_stepped (hPerform : s.perform op = some (s', log)) : s.Stepped op log s' := by
  cases op with
  | connect generation nonce =>
    simp only [perform] at hPerform
    split_ifs at hPerform with hNewer
    cases hPerform
    exact Stepped.connected generation nonce hNewer
  | lose =>
    cases hPerform
    refine Stepped.of_moves rfl (Quiet.moves { ready := ?_, unproven := ?_ })
    all_goals
      intro hReady
      cases hReady
  | attach identity verifiedEvdev virtualDevice translation =>
    rcases hAttach : s.physical.attach identity verifiedEvdev
          virtualDevice translation s.router with
      ⟨physical, router, generation⟩
    simp only [perform, hAttach] at hPerform
    cases hPerform
    rcases joins_of_attach hAttach with ⟨hJoins, hEpoch⟩
    exact Stepped.joined physical router rfl hJoins hEpoch
  | ensureConnectionBinding =>
    rcases hEnsure : s.ensureConnectionBinding with ⟨t, ok, front⟩
    simp only [perform, hEnsure] at hPerform
    cases hPerform
    exact Stepped.of_moves rfl (ensureConnectionBinding_binds hEnsure).moves
  | syncUnlock locked at_ => exact Stepped.of_moves rfl (syncUnlock_moves (Option.some.inj hPerform))
  | revoke output at_ => exact Stepped.of_moves rfl (revoke_moves (Option.some.inj hPerform))
  | lockReturned protocolLocked =>
    cases hPerform
    refine Stepped.of_moves rfl (Quiet.moves { phase := ?_ })
    intro hOpened
    simp only [LockPhase.originalReturned] at hOpened
    split_ifs at hOpened
    exact hOpened
  | commitDrain proof =>
    cases hPerform
    have hDrain : s.drain.commit proof = .running → s.drain = .running := by
      unfold DrainState.commit
      split_ifs
      · simp
      · exact id
    exact Stepped.of_moves rfl (Quiet.moves { drain := hDrain, unproven := fun _ _ h => h })
  | retire identity output at_ => exact retire_stepped (Option.some.inj hPerform)
  | beginLifecycle at_ => exact Stepped.moved rfl (beginLifecycle_posts (Option.some.inj hPerform))
  | reconcileInitial proof at_ =>
    exact Stepped.moved rfl (reconcileInitial_posts (Option.some.inj hPerform))
  | tryOutputRecovery eligible =>
    exact Stepped.moved rfl (tryOutputRecovery_posts (Option.some.inj hPerform))
  | focus at_ => exact Stepped.moved rfl (focus_posts (Option.some.inj hPerform))
  | selectKeyboard known =>
    cases known <;> cases hPerform
    · exact Stepped.moved rfl (Posts.cleared Moves.refl (.inr (.inl rfl)))
    · exact Stepped.of_moves rfl Moves.refl
  | closeStream =>
    cases hPerform
    exact Stepped.of_moves rfl Quiet.closeStream.moves
  | registerExisting =>
    simp only [perform] at hPerform
    split_ifs at hPerform
    exact Stepped.of_moves rfl (call_moves (Option.some.inj hPerform))
  | requestDrain => exact Stepped.of_moves rfl (requestDrain_moves (Option.some.inj hPerform))
  | openKey input =>
    simp only [perform] at hPerform
    split_ifs at hPerform with hFree
    rw [Option.isNone_iff_eq_none] at hFree
    exact openKey_stepped hFree (Option.some.inj hPerform)
  | keybind admitted =>
    cases hPerform
    exact s.keybind_stepped admitted
  | consumerRoute ime =>
    cases hPerform
    exact s.consumerRoute_stepped ime
  | closeKey now output room => exact closeKey_stepped hPerform

theorem step_stepped (hStep : s.step op = some (s', log)) : s.Stepped op log s' := by
  unfold step at hStep
  split_ifs at hStep
  exact perform_stepped hStep

end Stream

end Sledge.Native
