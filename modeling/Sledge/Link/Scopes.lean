import Sledge.Linux.Replay
import Sledge.Link.Receiver
import Sledge.Native.Emission

/-
  Agreement of the two ends of the wire on scopes.

  The adapter numbers its packets with counters of its own,
  which go on when a packet is not queued and start over with
  each connection.  The bridge checks them against counters
  that in part survive a connection.  A joint state runs both
  ends with the controls and Events that are on their way, in
  the order they were issued.

  The invariant says that the bridge accepts what is on its
  way, packet by packet, and relates the adapter to the
  receiver the bridge will be once it has heard all of it.

  Main results:
    * `Mirror.moves`
    * `Joint.run_coupled`
    * `Joint.scope_agreement`
-/

-----
-- Both Ends

namespace Sledge

open Transition

namespace Native

namespace Record

/- The control or Event that went out with a number. -/
def posted? : Record → Option Linux.Packet
  | .stamped sent => sent
  | _ => none

def isBump : Record → Bool
  | .bumped => true
  | _ => false

def isStamp : Record → Bool
  | .stamped _ => true
  | _ => false

end Record

/- The controls and Events of a log, in issue order. -/
def posted (log : List Record) : List Linux.Packet := log.filterMap Record.posted?

/- How often the epoch was incremented. -/
def bumps (log : List Record) : Nat := log.countP Record.isBump

/- How often the sequence number was incremented. -/
def stamps (log : List Record) : Nat := log.countP Record.isStamp

end Native

namespace Link

open Native Linux Receiver

variable {H : Type} [EventHandler H]

/-
  Both ends of a wire.  `offered` says that the daemon has acknowledged a connection the
  worker has not shown yet.
-/
structure Joint (H : Type) where
  stream : Stream
  flight : List Packet
  bridge : Bridge
  handler : H
  offered : Bool

namespace Joint

inductive Op where
  | native (op : Stream.Op)
  | connect (generation : Nat)
  | deliver (op : Bridge.Op)
  | daemon (op : Bridge.Op)
  | greet (transport : Transport) (expected : Identity) (greeting : Greeting)

/- The worker shows a new connection. -/
def isConnect : Stream.Op → Bool
  | .connect _ _ => true
  | _ => false

/-
  One step of either end.  The daemon reads the oldest packet on its way, or none.  It is
  greeted only when the worker has given up its last connection, and the worker shows the
  nonce it has greeted with.
-/
def step (j : Joint H) : Op → Option (Joint H × List Native.Record)
  | .native op =>
    if isConnect op then none
    else
      (j.stream.step op).map (fun (stream, log) =>
        ({ j with stream := stream, flight := j.flight ++ posted log }, log))
  | .connect generation =>
    if j.offered then
      (j.stream.step (.connect generation j.bridge.nonce)).map (fun (stream, log) =>
          ({ j with stream := stream, offered := false }, log))
    else none
  | .deliver op =>
    match j.flight with
    | [] => none
    | packet :: rest =>
      if j.bridge.transport.isSome ∧ op.reads = some packet then
        let (bridge, handler) :=
          (Bridge.perform (j.bridge, j.handler) op).1
        some ({ j with bridge := bridge, handler := handler, flight := rest }, [])
      else none
  | .daemon op =>
    if op.isReconnect = false ∧ (j.bridge.transport = none ∨ op.reads = none) then
      let (bridge, handler) := (Bridge.perform (j.bridge, j.handler) op).1
      some ({ j with bridge := bridge, handler := handler }, [])
    else none
  | .greet transport expected greeting =>
    if j.stream.connection.ready then none
    else
      match j.bridge.reconnect transport expected greeting with
      | (bridge, .ok (), _) =>
        some ({ j with bridge := bridge, flight := [], offered := true }, [])
      | (bridge, .error _, _) => some ({ j with bridge := bridge }, [])

abbrev Entry (H : Type) := Transition.Entry (Joint H) Op (List Native.Record)

/- A loaded plugin, and a daemon on its first connection. -/
structure Starts (j : Joint H) : Prop where
  stream : ∃ replacementWire tapReleaseEnabled dropOutcomeOnce seed, j.stream =
        Stream.init replacementWire tapReleaseEnabled dropOutcomeOnce seed
  flight : j.flight = []
  bridge : ∃ transport expected greeting, Bridge.passiveHandshake transport expected greeting =
        .ok j.bridge
  offered : j.offered = true

/- How often the counters were incremented in a run. -/
def increments (trace : List (Entry H)) : Nat :=
  bumps (trace.flatMap (fun e => e.out)) + stamps (trace.flatMap (fun e => e.out))

/- The packet a step hands to the bridge. -/
def delivered (e : Entry H) : Option Packet :=
  match e.op with
  | .deliver _ => e.pre.flight.head?
  | _ => none

end Joint

-----
-- Agreement

/- The adapter's counters belong to the nonce. -/
def Speaks (s : Stream) (nonce : Nat) : Prop := s.readyGeneration ≠ 0 ∧ s.nonce = nonce

/- Which connection the counters of the adapter belong to. -/
structure Addressed (offered : Bool) (s : Stream) (nonce : Nat) (previous : Finset Nat) : Prop where
  nonzero : nonce ≠ 0
  zero : 0 ∉ previous
  shown : s.connection.ready = true → s.connection.generation ≠ 0 ∧ s.connection.nonce = nonce
  older : s.readyGeneration ≤ s.connection.generation
  used : s.readyGeneration ≠ 0 → s.nonce = nonce ∨ s.nonce ∈ previous
  reconciled : s.initialReconciled = true → s.readyGeneration ≠ 0
  bound : s.connection.ready = true → s.connection.generation = s.readyGeneration → s.nonce = nonce
  stale : s.connection.ready = true → s.connection.generation ≠ s.readyGeneration → ¬ Speaks s nonce
  pending : offered = true → s.connection.ready = false ∧ ¬ Speaks s nonce

/- The receiver is not ahead of the adapter. -/
structure Levelled (s : Stream) (r : Receiver) : Prop where
  epoch : r.epoch ≤ s.router.epoch
  sequence : r.connected = true → Speaks s r.nonce → r.sequence ≤ s.wireSequence
  announced : r.connected = true → Speaks s r.nonce → (s.wireEpoch = 0 ∧ r.epoch < s.router.epoch) ∨
        s.wireEpoch = r.epoch
  silent : r.connected = true → ¬ Speaks s r.nonce → r.sequence = 0

/- Retired generations are gone for good. -/
structure Departed (physical : PhysicalDevices) (retired : Finset Nat) : Prop where
  gone : ∀ g ∈ retired, g ≠ 0 ∧ ¬ physical.Attached g ∧ g < physical.next
  attached : ∀ g, physical.Attached g → g ≠ 0
  next : physical.next ≠ 0

/- The increments of a log do not overflow. -/
structure Fits (s : Stream) (log : List Native.Record) : Prop where
  epoch : s.router.epoch + bumps log < 2 ^ 64
  sequence : s.wireSequence + stamps log < 2 ^ 64

/- A log counts its increments. -/
structure Counts (s : Stream) (log : List Native.Record) (s' : Stream) : Prop where
  epoch : s'.router.epoch = s.router.epoch + bumps log
  sequence : s'.wireSequence ≤ s.wireSequence + stamps log

variable {offered : Bool} {s t u : Stream} {nonce : Nat} {previous : Finset Nat} {r : Receiver}
variable {tame : Bool} {log log' : List Native.Record}

theorem increment_of_lt {n : Nat} (hLt : n + 1 < 2 ^ 64) : increment n = n + 1 :=
  Nat.mod_eq_of_lt hLt

theorem bumps_append : bumps (log ++ log') = bumps log + bumps log' := List.countP_append

theorem stamps_append : stamps (log ++ log') = stamps log + stamps log' := List.countP_append

theorem posted_append : posted (log ++ log') = posted log ++ posted log' := List.filterMap_append

theorem Fits.first (hFits : Fits s (log ++ log')) : Fits s log := by
  have hEpoch := hFits.epoch
  have hSequence := hFits.sequence
  rw [bumps_append] at hEpoch
  rw [stamps_append] at hSequence
  exact ⟨by omega, by omega⟩

theorem Fits.second (hFits : Fits s (log ++ log')) (hCounts : Counts s log t) : Fits t log' := by
  have hEpoch := hFits.epoch
  have hSequence := hFits.sequence
  rw [bumps_append] at hEpoch
  rw [stamps_append] at hSequence
  have hMoved := hCounts.epoch
  have hStamped := hCounts.sequence
  exact ⟨by omega, by omega⟩

theorem Counts.trans (hFirst : Counts s log t) (hSecond : Counts t log' u) :
    Counts s (log ++ log') u := by
  have hEpoch := hFirst.epoch
  have hSequence := hFirst.sequence
  have hEpoch' := hSecond.epoch
  have hSequence' := hSecond.sequence
  refine ⟨?_, ?_⟩
  · rw [bumps_append]
    omega
  · rw [stamps_append]
    omega

theorem move_counts (hMove : s.Move tame log t) (hFits : Fits s log) : Counts s log t := by
  have hEpoch := hFits.epoch
  have hSequence := hFits.sequence
  cases hMove with
  | quiet hQuiet =>
    have hSame := congrArg Stream.Counters.wireSequence hQuiet.counters
    exact ⟨hQuiet.epoch, hSame.le⟩
  | cleared => exact ⟨rfl, le_rfl⟩
  | bumped router _ hRouter => exact ⟨hRouter.trans (increment_of_lt hEpoch), le_rfl⟩
  | bound router _ _ hRouter => exact ⟨hRouter.trans (increment_of_lt hEpoch), Nat.zero_le _⟩
  | wasted | locked | reset => exact ⟨rfl, (increment_of_lt hSequence).le⟩

theorem moves_counts (hMoves : s.Moves tame log t) (hFits : Fits s log) : Counts s log t := by
  induction hMoves with
  | refl => exact ⟨rfl, le_rfl⟩
  | snoc _ hMove ih =>
    have hFirst := ih hFits.first
    exact hFirst.trans (move_counts hMove (hFits.second hFirst))

/- A current connection is the one the receiver is on. -/
theorem Addressed.speaks_of_current (hAddressed : Addressed offered s nonce previous)
    (hCurrent : s.Current) : s.readyGeneration ≠ 0 := by
  rcases hCurrent with ⟨hReady, hUnbound⟩
  rcases hAddressed.shown hReady with ⟨hGeneration, hNonce⟩
  have hNonzero := hAddressed.nonzero
  simp only [Stream.unbound, hNonce, Bool.and_eq_false_iff, bne_eq_false_iff_eq] at hUnbound
  omega

theorem Addressed.generation_of_bound (hAddressed : Addressed offered s nonce previous)
    (hBound : s.Bound) : s.readyGeneration ≠ 0 := by
  rcases hBound with hCurrent | hProven
  · exact hAddressed.speaks_of_current hCurrent
  · exact hAddressed.reconciled hProven

/- A packet that goes out is addressed to the receiver. -/
theorem Addressed.issues {packet : Packet} (hAddressed : Addressed offered s nonce previous)
    (hBound : s.Bound) (hIssues : s.Issues packet) :
    packet.scope.nonce = nonce ∧ Speaks s nonce := by
  have hPeer : packet.scope.nonce = nonce := hIssues.peer.trans (hAddressed.shown hIssues.ready).2
  exact ⟨hPeer, hAddressed.generation_of_bound hBound, hIssues.nonce.symm.trans hPeer⟩

theorem Addressed.unseen (hAddressed : Addressed offered s nonce previous) (hUnseen : s.Unseen t) :
    Addressed offered t nonce previous := by
  have hGeneration : t.readyGeneration = s.readyGeneration :=
    congrArg Stream.Counters.readyGeneration hUnseen.counters
  have hNonce : t.nonce = s.nonce := congrArg Stream.Counters.nonce hUnseen.counters
  have hSpeaks : Speaks t nonce ↔ Speaks s nonce := by rw [Speaks, Speaks, hGeneration, hNonce]
  refine ⟨hAddressed.nonzero, hAddressed.zero, ?_, ?_, ?_, ?_, ?_, ?_, ?_⟩
  · intro hReady
    rw [hUnseen.generation, hUnseen.nonce]
    exact hAddressed.shown (hUnseen.ready hReady)
  · rw [hUnseen.generation, hGeneration]
    exact hAddressed.older
  · rw [hGeneration, hNonce]
    exact hAddressed.used
  · intro hProven
    rw [hGeneration]
    rcases hUnseen.reconciled hProven with hOld | hCurrent
    · exact hAddressed.reconciled hOld
    · exact hAddressed.speaks_of_current hCurrent
  · rw [hUnseen.generation, hGeneration, hNonce]
    intro hReady
    exact hAddressed.bound (hUnseen.ready hReady)
  · rw [hUnseen.generation, hGeneration, hSpeaks]
    intro hReady
    exact hAddressed.stale (hUnseen.ready hReady)
  · intro hOffered
    rw [hSpeaks]
    rcases hAddressed.pending hOffered with ⟨hReady, hSilent⟩
    refine ⟨?_, hSilent⟩
    by_contra hShown
    have hOld := hUnseen.ready (by simpa using hShown)
    rw [hReady] at hOld
    cases hOld

theorem Addressed.move (hAddressed : Addressed offered s nonce previous) (hMove : s.Move tame log t) :
    Addressed offered t nonce previous := by
  cases hMove with
  | quiet hQuiet => exact hAddressed.unseen hQuiet.toUnseen
  | cleared =>
    refine hAddressed.unseen { reconciled := ?_ }
    intro hProven
    cases hProven
  | bumped | wasted | locked | reset => exact { hAddressed with }
  | bound router hReady hUnbound =>
    rcases hAddressed.shown hReady with ⟨hGeneration, hNonce⟩
    refine ⟨hAddressed.nonzero, hAddressed.zero, hAddressed.shown, le_rfl, ?_, ?_, ?_, ?_, ?_⟩
    · intro _
      exact .inl hNonce
    · intro hProven
      cases hProven
    · intro _ _
      exact hNonce
    · intro _ hOther
      exact absurd rfl hOther
    · intro hOffered
      rw [(hAddressed.pending hOffered).1] at hReady
      cases hReady

/- The adapter and a receiver of its packets. -/
structure Mirror (offered : Bool) (s : Stream) (r : Receiver) : Prop where
  addressed : Addressed offered s r.nonce r.previous
  levelled : Levelled s r
  departed : Departed s.physical r.retired

variable {packet : Packet}

/- A receiver that has heard a packet is level with it. -/
theorem levelled_hear (hSpeaks : Speaks t r.nonce) (hBehind : r.epoch ≤ t.router.epoch)
    (hEpoch : packet.scope.lockEpoch = t.router.epoch)
    (hSequence : packet.scope.sequence = t.wireSequence) (hWire : t.wireEpoch = t.router.epoch) :
    Levelled t (r.hear packet) := by
  cases hConnected : r.connected with
  | false =>
    rw [hear_of_closed hConnected]
    refine ⟨hBehind, ?_, ?_, ?_⟩ <;>
      simp [hConnected]
  | true =>
    rw [hear_of_connected hConnected]
    refine ⟨hEpoch.le, ?_, ?_, ?_⟩
    · intro _ _
      exact hSequence.le
    · intro _ _
      exact .inr (hWire.trans hEpoch.symm)
    · intro _ hSilent
      exact absurd hSpeaks hSilent

/- The epoch the receiver has heard of, once it is announced. -/
theorem Levelled.epoch_eq (hLevelled : Levelled s r) (hConnected : r.connected = true)
    (hSpeaks : Speaks s r.nonce) (hLevel : s.router.epoch = s.wireEpoch) :
    r.epoch = s.router.epoch := by
  rcases hLevelled.announced hConnected hSpeaks with ⟨hZero, hBehind⟩ | hSame
  · omega
  · omega

/- A Lock that announces a new epoch is accepted. -/
theorem accepts_lock {value reason : Nat} (hMirror : Mirror offered s r) (hBound : s.Bound)
    (hIssues : s.Issues packet) (hRoom : s.wireSequence + 1 < 2 ^ 64)
    (hBody : packet.body = .lock value reason) (hGlobal : packet.scope.generation = 0)
    (hAhead : s.router.epoch ≠ s.wireEpoch) (hConnected : r.connected = true) :
    r.Accepts packet := by
  rcases hMirror.addressed.issues hBound hIssues with ⟨hNonce, hSpeaks⟩
  have hSequence := hMirror.levelled.sequence hConnected hSpeaks
  have hNumber : packet.scope.sequence = s.wireSequence + 1 :=
    hIssues.sequence.trans (increment_of_lt hRoom)
  have hEpoch : r.epoch < packet.scope.lockEpoch := by
    have hBehind := hMirror.levelled.epoch
    have hIssued := hIssues.epoch
    rcases hMirror.levelled.announced hConnected hSpeaks with ⟨_, hLess⟩ | hSame <;> omega
  refine
    ⟨hNonce, by omega, ?_, fun _ => hGlobal, hEpoch.le,
      fun _ => hEpoch, ?_, ?_⟩
  · rw [hGlobal]
    intro hMem
    exact (hMirror.departed.gone 0 hMem).1 rfl
  · simp [hBody, Body.isLock]
  · simp [hBody, Body.isEvent]

/- Any other packet of an announced epoch is accepted. -/
theorem accepts_level (hMirror : Mirror offered s r) (hBound : s.Bound) (hIssues : s.Issues packet)
    (hRoom : s.wireSequence + 1 < 2 ^ 64) (hLock : packet.body.isLock = false)
    (hLevel : s.router.epoch = s.wireEpoch) (hGeneration : packet.scope.generation ∉ r.retired)
    (hEvent : packet.body.isEvent = true → packet.scope.generation ≠ 0)
    (hConnected : r.connected = true) : r.Accepts packet := by
  rcases hMirror.addressed.issues hBound hIssues with ⟨hNonce, hSpeaks⟩
  have hSequence := hMirror.levelled.sequence hConnected hSpeaks
  have hNumber : packet.scope.sequence = s.wireSequence + 1 :=
    hIssues.sequence.trans (increment_of_lt hRoom)
  have hEpoch : packet.scope.lockEpoch = r.epoch := hIssues.epoch.trans
      (hMirror.levelled.epoch_eq hConnected hSpeaks hLevel).symm
  exact
    ⟨hNonce, by omega, hGeneration, by simp [hLock],
      hEpoch.ge, by simp [hLock], fun _ => hEpoch, hEvent⟩

theorem Levelled.unseen (hLevelled : Levelled s r) (hUnseen : s.Unseen t) : Levelled t r := by
  have hGeneration : t.readyGeneration = s.readyGeneration :=
    congrArg Stream.Counters.readyGeneration hUnseen.counters
  have hNonce : t.nonce = s.nonce := congrArg Stream.Counters.nonce hUnseen.counters
  have hSequence : t.wireSequence = s.wireSequence :=
    congrArg Stream.Counters.wireSequence hUnseen.counters
  have hWire : t.wireEpoch = s.wireEpoch := congrArg Stream.Counters.wireEpoch hUnseen.counters
  have hSpeaks : Speaks t r.nonce ↔ Speaks s r.nonce := by rw [Speaks, Speaks, hGeneration, hNonce]
  refine ⟨?_, ?_, ?_, ?_⟩
  · rw [hUnseen.epoch]
    exact hLevelled.epoch
  · rw [hSpeaks, hSequence]
    exact hLevelled.sequence
  · rw [hSpeaks, hWire, hUnseen.epoch]
    exact hLevelled.announced
  · rw [hSpeaks]
    exact hLevelled.silent

/- An increment of the epoch is not announced yet. -/
theorem Levelled.bumped {router : Router} {phase : LockPhase} (hLevelled : Levelled s r)
    (hEpoch : router.epoch = s.router.epoch + 1) :
    Levelled { s with router := router, phase := phase } r := by
  have hBehind := hLevelled.epoch
  refine
    ⟨by simp only; omega, hLevelled.sequence, ?_,
      hLevelled.silent⟩
  intro hConnected hSpeaks
  rcases hLevelled.announced hConnected hSpeaks with ⟨hZero, hLess⟩ | hSame
  · exact .inl ⟨hZero, by simp only; omega⟩
  · exact .inr hSame

/- A new connection starts with nothing heard on it. -/
theorem Mirror.bound {router : Router} (hMirror : Mirror offered s r)
    (hReady : s.connection.ready = true) (hUnbound : s.unbound = true)
    (hEpoch : router.epoch = s.router.epoch + 1) :
    Levelled { s.bindConnection with router := router } r := by
  have hBehind := hMirror.levelled.epoch
  have hOther : s.connection.generation ≠ s.readyGeneration := by
    simp only [Stream.unbound, Bool.and_eq_true, bne_iff_ne] at hUnbound
    exact hUnbound.2
  have hSilent := hMirror.addressed.stale hReady hOther
  have hBound : Speaks { s.bindConnection with router := router }
      r.nonce := by
    rcases hMirror.addressed.shown hReady with ⟨hGeneration, hNonce⟩
    exact ⟨hGeneration, hNonce⟩
  refine ⟨by simp only; omega, ?_, ?_, ?_⟩
  · intro hConnected _
    exact (hMirror.levelled.silent hConnected hSilent).le
  · intro _ _
    exact .inl ⟨rfl, by simp only; omega⟩
  · intro _ hNot
    exact absurd hBound hNot

theorem Levelled.wasted (hLevelled : Levelled s r) (hRoom : s.wireSequence + 1 < 2 ^ 64) :
    Levelled s.stamp r := by
  refine ⟨hLevelled.epoch, ?_, hLevelled.announced, hLevelled.silent⟩
  intro hConnected hSpeaks
  have hNumber : s.stamp.wireSequence = s.wireSequence + 1 := increment_of_lt hRoom
  have hSequence := hLevelled.sequence hConnected hSpeaks
  omega

/- The ends agree again once a packet is heard. -/
theorem Mirror.hear (hAddressed : Addressed offered t r.nonce r.previous)
    (hLevelled : Levelled t (r.hear packet))
    (hDeparted : Departed t.physical (r.hear packet).retired) :
    Mirror offered t (r.hear packet) where
  addressed := by
    rw [hear_nonce, hear_previous]
    exact hAddressed
  levelled := hLevelled
  departed := hDeparted

/- What a move sends is accepted, and the ends stay level. -/
theorem Mirror.move (hMirror : Mirror offered s r) (hMove : s.Move tame log t) (hFits : Fits s log) :
    r.Relays (posted log) ∧ Mirror offered t (r.hearAll (posted log)) := by
  have hAddressed := hMirror.addressed.move hMove
  have hEpoch := hFits.epoch
  have hRoom := hFits.sequence
  cases hMove with
  | quiet hQuiet =>
    refine ⟨trivial, hAddressed, hMirror.levelled.unseen hQuiet.toUnseen, ?_⟩
    rw [hQuiet.physical]
    exact hMirror.departed
  | cleared => exact ⟨trivial, hAddressed, hMirror.levelled.unseen { reconciled := by simp },
        hMirror.departed⟩
  | bumped router _ hRouter =>
    exact ⟨trivial, hAddressed, hMirror.levelled.bumped (hRouter.trans (increment_of_lt hEpoch)),
      hMirror.departed⟩
  | bound router hReady hUnbound hRouter =>
    exact ⟨trivial, hAddressed, hMirror.bound hReady hUnbound
        (hRouter.trans (increment_of_lt hEpoch)),
      hMirror.departed⟩
  | wasted => exact ⟨trivial, hAddressed, hMirror.levelled.wasted hRoom, hMirror.departed⟩
  | locked packet value hBound hIssues hBody hGlobal hAhead =>
    have hSpeaks := (hMirror.addressed.issues hBound hIssues).2
    have hAccepts := accepts_lock hMirror hBound hIssues hRoom hBody hGlobal hAhead
    refine ⟨⟨hAccepts, trivial⟩, .hear hAddressed ?_ ?_⟩
    · exact levelled_hear hSpeaks hMirror.levelled.epoch hIssues.epoch hIssues.sequence rfl
    · rw [hear_retired (by rw [hBody]; rfl)]
      exact hMirror.departed
  | reset packet reason hBound hIssues hBody hGlobal hLevel =>
    have hSpeaks := (hMirror.addressed.issues hBound hIssues).2
    have hAccepts := accepts_level hMirror hBound hIssues hRoom (by rw [hBody]; rfl) hLevel (by
          rw [hGlobal]
          intro hMem
          exact (hMirror.departed.gone 0 hMem).1 rfl)
        (by simp [hBody, Body.isEvent])
    refine ⟨⟨hAccepts, trivial⟩, .hear hAddressed ?_ ?_⟩
    · exact levelled_hear hSpeaks hMirror.levelled.epoch hIssues.epoch hIssues.sequence hLevel.symm
    · rw [hear_retired (by rw [hBody]; rfl)]
      exact hMirror.departed

theorem Mirror.moves (hMirror : Mirror offered s r) (hMoves : s.Moves tame log t) (hFits : Fits s log) :
    r.Relays (posted log) ∧ Mirror offered t (r.hearAll (posted log)) := by
  induction hMoves with
  | refl => exact ⟨trivial, hMirror⟩
  | snoc hFront hMove ih =>
    rcases ih hFits.first with ⟨hRelays, hMid⟩
    have hRest := hFits.second (moves_counts hFront hFits.first)
    rcases hMid.move hMove hRest with ⟨hLast, hEnd⟩
    rw [posted_append, relays_append, hearAll_append]
    exact ⟨⟨hRelays, hLast⟩, hEnd⟩

-----
-- Pieces

variable {offered : Bool} {s s' t : Stream} {nonce : Nat} {previous : Finset Nat} {r : Receiver}
variable {tame : Bool} {log : List Native.Record} {physical : PhysicalDevices} {retired : Finset Nat}

theorem Departed.joins (hDeparted : Departed s.physical retired) (hJoins : s.Joins physical) :
    Departed physical retired := by
  have hNext := hJoins.next
  refine ⟨?_, ?_, ?_⟩
  · intro g hMem
    rcases hDeparted.gone g hMem with ⟨hZero, hGone, hOld⟩
    refine ⟨hZero, ?_, by omega⟩
    intro hAttached
    rcases hJoins.attached g hAttached with hBefore | hNew
    · exact hGone hBefore
    · omega
  · intro g hAttached
    rcases hJoins.attached g hAttached with hBefore | hNew
    · exact hDeparted.attached g hBefore
    · rw [hNew]
      exact hDeparted.next
  · have hOld := hDeparted.next
    omega

variable {generation : Nat}

theorem Departed.leaves (hDeparted : Departed s.physical retired)
    (hLeaves : s.Leaves generation physical) : Departed physical retired := by
  have hNext := hLeaves.next
  refine ⟨?_, ?_, ?_⟩
  · intro g hMem
    rcases hDeparted.gone g hMem with ⟨hZero, hGone, hOld⟩
    refine ⟨hZero, ?_, by omega⟩
    intro hAttached
    exact hGone (hLeaves.left g hAttached).1
  · intro g hAttached
    exact hDeparted.attached g (hLeaves.left g hAttached).1
  · rw [hNext]
    exact hDeparted.next

/- A keyboard that has left may be announced as retired. -/
theorem Departed.retires (hDeparted : Departed s.physical retired)
    (hLeaves : s.Leaves generation physical) : Departed physical (insert generation retired) := by
  have hLeft := hDeparted.leaves hLeaves
  refine ⟨?_, hLeft.attached, hLeft.next⟩
  intro g hMem
  rcases Finset.mem_insert.mp hMem with rfl | hOld
  · refine ⟨hDeparted.attached _ hLeaves.attached, ?_, ?_⟩
    · intro hAttached
      exact (hLeaves.left _ hAttached).2 rfl
    · rw [hLeaves.next]
      exact hLeaves.attached.lt_next
  · exact hLeft.gone g hOld

theorem Departed.presses (hDeparted : Departed s.physical retired) (hPresses : s.Presses physical) :
    Departed physical retired :=
  hDeparted.joins ⟨fun id hAttached =>
        .inl ((hPresses.attached id).mp hAttached),
      hPresses.next.ge⟩

/- Other keyboards, seen by no packet. -/
theorem Mirror.unseen (hMirror : Mirror offered s r) (hUnseen : s.Unseen s')
    (hDeparted : Departed s'.physical r.retired) : Mirror offered s' r where
  addressed := hMirror.addressed.unseen hUnseen
  levelled := hMirror.levelled.unseen hUnseen
  departed := hDeparted

theorem Addressed.nonce_ne_zero (hAddressed : Addressed offered s nonce previous)
    (hProven : s.initialReconciled = true) : s.nonce ≠ 0 := by
  rcases hAddressed.used (hAddressed.reconciled hProven) with hSame | hUsed
  · rw [hSame]
    exact hAddressed.nonzero
  · intro hZero
    rw [hZero] at hUsed
    exact hAddressed.zero hUsed

/- The Event of a key that may be exported is accepted. -/
theorem Mirror.exports {transmitted : Bool} {id : Nat} {packet sent : Option Packet}
    (hMirror : Mirror offered s r) (hExports : s.Exports transmitted id packet sent)
    (hRoom : s.wireSequence + 1 < 2 ^ 64) :
    r.Relays (posted [.stamped sent]) ∧ Mirror offered s.stamp (r.hearAll (posted [.stamped sent])) := by
  have hAddressed : Addressed offered s.stamp r.nonce r.previous :=
    { hMirror.addressed with }
  have hGeneration := hMirror.departed.attached id hExports.attached
  have hNumber := increment_of_lt hRoom
  rcases hExports.encoded hGeneration (hMirror.addressed.nonce_ne_zero hExports.reconciled)
      (by omega) with
    ⟨p, event, rfl, hBody, hDevice, hEpoch, hSequence, hNonce⟩
  rw [hExports.sent, Option.filter_some]
  cases hNotified : s.notifies transmitted p with
  | false => exact ⟨trivial, hAddressed, hMirror.levelled.wasted hRoom, hMirror.departed⟩
  | true =>
    simp only [Stream.notifies, Bool.and_eq_true, beq_iff_eq] at hNotified
    have hIssues : s.Issues p := ⟨hNotified.1.1, hNonce, hNotified.2, hSequence, by omega, hEpoch⟩
    have hBound : s.Bound := .inr hExports.reconciled
    have hSpeaks := (hMirror.addressed.issues hBound hIssues).2
    have hAccepts := accepts_level hMirror hBound hIssues hRoom (by rw [hBody]; rfl) hExports.level
        (by
          rw [hDevice]
          intro hMem
          exact (hMirror.departed.gone id hMem).2.1 hExports.attached)
        (by rw [hDevice]; exact fun _ => hGeneration)
    refine ⟨⟨hAccepts, trivial⟩, .hear hAddressed ?_ ?_⟩
    · exact levelled_hear hSpeaks hMirror.levelled.epoch hEpoch hSequence hExports.level.symm
    · rw [hear_retired (by rw [hBody]; rfl)]
      exact hMirror.departed

/- The Retire of a keyboard that has just left is accepted. -/
theorem Mirror.retires {packet : Packet} (hMirror : Mirror offered s r)
    (hLeaves : s.Leaves generation physical) (hRetires : s.Retires generation packet)
    (hRoom : s.wireSequence + 1 < 2 ^ 64) :
    r.Relays [packet] ∧ Mirror offered (s.stamp.register physical) (r.hear packet) := by
  have hAddressed : Addressed offered (s.stamp.register physical) r.nonce
      r.previous :=
    { hMirror.addressed with }
  have hBody := hRetires.body
  have hSpeaks := (hMirror.addressed.issues hRetires.bound hRetires.issues).2
  have hAccepts := accepts_level hMirror hRetires.bound hRetires.issues hRoom
      (by rw [hBody]; rfl) hRetires.level
      (by
        rw [hRetires.generation]
        intro hMem
        exact (hMirror.departed.gone _ hMem).2.1 hLeaves.attached)
      (by simp [hBody, Body.isEvent])
  refine ⟨⟨hAccepts, trivial⟩, .hear hAddressed ?_ ?_⟩
  · exact levelled_hear hSpeaks hMirror.levelled.epoch
      hRetires.issues.epoch hRetires.issues.sequence
      hRetires.level.symm
  · cases hConnected : r.connected with
    | false =>
      rw [hear_of_closed hConnected]
      exact hMirror.departed.leaves hLeaves
    | true =>
      rw [hear_of_connected hConnected, hBody, hRetires.generation]
      exact hMirror.departed.retires hLeaves

theorem leaves_of_moves (hLeaves : s.Leaves generation physical) (hMoves : s.Moves tame log t) :
    t.Leaves generation physical := by
  have hSame := hMoves.kept.physical
  exact ⟨hSame ▸ hLeaves.attached, hSame ▸ hLeaves.left, hSame ▸ hLeaves.next⟩

theorem stamp_counts {sent : Option Packet} (hFits : Fits s [.stamped sent]) :
    Counts s [.stamped sent] s.stamp :=
  ⟨rfl, (increment_of_lt hFits.sequence).le⟩

/- A connection the worker shows is newer than any before. -/
theorem step_connect (hStep : s.step (.connect generation nonce) = some (s', log)) :
    s.connection.generation < generation ∧ s' = { s with connection := ⟨true, generation, nonce⟩ } ∧
      log = [] := by
  unfold Stream.step at hStep
  split_ifs at hStep
  simp only [Stream.perform] at hStep
  split_ifs at hStep with hNewer
  cases hStep
  exact ⟨hNewer, rfl, rfl⟩

/- Every piece of the adapter but a new connection. -/
theorem Mirror.stepped {op : Stream.Op} (hMirror : Mirror offered s r)
    (hStepped : s.Stepped op log s') (hOp : Joint.isConnect op = false) (hFits : Fits s log) :
    Counts s log s' ∧ r.Relays (posted log) ∧ Mirror offered s' (r.hearAll (posted log)) := by
  cases hStepped with
  | connected => cases hOp
  | moved _ hPosts => exact ⟨moves_counts hPosts.moves hFits, hMirror.moves hPosts.moves hFits⟩
  | joined physical router _ hJoins hEpoch =>
    exact ⟨⟨hEpoch, le_rfl⟩, trivial, hMirror.unseen { epoch := hEpoch }
      (hMirror.departed.joins hJoins)⟩
  | left generation physical _ hLeaves hMoves =>
    rcases hMirror.moves hMoves hFits with ⟨hRelays, hMoved⟩
    have hCounts := moves_counts hMoves hFits
    exact ⟨⟨hCounts.epoch, hCounts.sequence⟩, hRelays, hMoved.unseen { } (hMoved.departed.leaves
      (leaves_of_moves hLeaves hMoves))⟩
  | retired generation physical packet _ hLeaves hMoves hRetires =>
      have hCounts := moves_counts hMoves hFits.first
      have hRest := hFits.second hCounts
      rcases hMirror.moves hMoves hFits.first with ⟨hRelays, hMoved⟩
      rcases hMoved.retires (leaves_of_moves hLeaves hMoves) hRetires hRest.sequence with
        ⟨hLast, hEnd⟩
      rw [posted_append, relays_append, hearAll_append]
      have hAll := hCounts.trans (stamp_counts hRest)
      exact ⟨⟨hAll.epoch, hAll.sequence⟩, ⟨hRelays, hLast⟩, hEnd⟩
  | @passed _ _ t physical current hPresses _ hMoves =>
    have hPressed : Mirror offered (s.register physical) r :=
      hMirror.unseen { } (hMirror.departed.presses hPresses)
    have hRoom : Fits (s.register physical) log := ⟨hFits.epoch, hFits.sequence⟩
    rcases hPressed.moves hMoves hRoom with ⟨hRelays, hMoved⟩
    have hCounts := moves_counts hMoves hRoom
    exact ⟨⟨hCounts.epoch, hCounts.sequence⟩, hRelays, hMoved.unseen { } hMoved.departed⟩
  | @exported _ log t physical id packet sent k router hPresses _ _ hMoves _ hExports _ hEpoch =>
      have hPressed : Mirror offered (s.register physical) r :=
        hMirror.unseen { } (hMirror.departed.presses hPresses)
      have hRoom : Fits (s.register physical) (log ++ [.stamped sent]) :=
        ⟨hFits.epoch, hFits.sequence⟩
      have hCounts := moves_counts hMoves hRoom.first
      have hRest := hRoom.second hCounts
      rcases hPressed.moves hMoves hRoom.first with ⟨hRelays, hMoved⟩
      rcases hMoved.exports hExports hRest.sequence with ⟨hLast, hEnd⟩
      rw [posted_append, relays_append, hearAll_append]
      have hAll := hCounts.trans (stamp_counts hRest)
      exact ⟨⟨hEpoch.trans hAll.epoch, hAll.sequence⟩, ⟨hRelays, hLast⟩,
        hEnd.unseen { epoch := hEpoch } hEnd.departed⟩
  | correlated router current hEpoch =>
    exact ⟨⟨hEpoch, le_rfl⟩, trivial, hMirror.unseen { epoch := hEpoch } hMirror.departed⟩
  | settled k _ hMoves =>
    rcases hMirror.moves hMoves hFits with ⟨hRelays, hMoved⟩
    have hCounts := moves_counts hMoves hFits
    exact ⟨⟨hCounts.epoch, hCounts.sequence⟩, hRelays, hMoved.unseen { } hMoved.departed⟩
  | reported k packet outcome _ _ hMoves =>
    have hRoom : Fits s [] := ⟨hFits.epoch, hFits.sequence⟩
    rcases hMirror.moves hMoves hRoom with ⟨_, hMoved⟩
    have hCounts := moves_counts hMoves hRoom
    exact ⟨⟨hCounts.epoch, hCounts.sequence⟩, trivial, hMoved.unseen { } hMoved.departed⟩

-----
-- Runs

variable {offered : Bool} {s : Stream} {r after : Receiver}

/- A receiver that stops stays level. -/
theorem Mirror.stops (hMirror : Mirror offered s r) (hStops : r.Stops after) :
    Mirror offered s after := by
  refine ⟨?_, ?_, ?_⟩
  · rw [hStops.nonce, hStops.previous]
    exact hMirror.addressed
  · refine ⟨hStops.epoch.trans hMirror.levelled.epoch, ?_, ?_, ?_⟩
    all_goals simp [hStops.closed]
  · refine ⟨?_, hMirror.departed.attached, hMirror.departed.next⟩
    intro g hMem
    exact hMirror.departed.gone g (hStops.retired hMem)

/- The worker shows the connection that was offered. -/
theorem Mirror.connected {generation : Nat} (hMirror : Mirror true s r)
    (hNewer : s.connection.generation < generation) :
    Mirror false { s with connection := ⟨true, generation, r.nonce⟩ } r := by
  have hAddressed := hMirror.addressed
  have hOlder := hAddressed.older
  have hSilent := (hAddressed.pending rfl).2
  refine ⟨?_, ?_, hMirror.departed⟩
  · refine ⟨hAddressed.nonzero, hAddressed.zero, ?_, ?_,
      hAddressed.used, hAddressed.reconciled, ?_, ?_, ?_⟩
    · intro _
      exact ⟨by simp only; omega, rfl⟩
    · exact hOlder.trans hNewer.le
    · intro _ hSame
      simp only at hSame
      omega
    · intro _ _
      exact hSilent
    · intro hOffered
      cases hOffered
  · exact ⟨hMirror.levelled.epoch, hMirror.levelled.sequence,
      hMirror.levelled.announced, hMirror.levelled.silent⟩

/- The daemon acknowledges a connection with a new nonce. -/
theorem Mirror.greeted {nonce : Nat} (hMirror : Mirror offered s r)
    (hReady : s.connection.ready = false) (hNonzero : nonce ≠ 0) (hNew : nonce ≠ r.nonce)
    (hUnused : nonce ∉ r.previous) :
    Mirror true s ⟨nonce, r.epoch, 0, r.retired, insert r.nonce r.previous, true⟩ := by
  have hAddressed := hMirror.addressed
  have hSilent : ¬ Speaks s nonce := by
    rintro ⟨hGeneration, hNonce⟩
    rcases hAddressed.used hGeneration with hSame | hUsed
    · exact hNew (hNonce.symm.trans hSame)
    · rw [hNonce] at hUsed
      exact hUnused hUsed
  refine ⟨?_, ?_, hMirror.departed⟩
  · refine ⟨hNonzero, ?_, ?_, hAddressed.older, ?_, hAddressed.reconciled, ?_, ?_, ?_⟩
    · intro hMem
      rcases Finset.mem_insert.mp hMem with hZero | hOld
      · exact hAddressed.nonzero hZero.symm
      · exact hAddressed.zero hOld
    · simp [hReady]
    · intro hGeneration
      apply Or.inr
      rcases hAddressed.used hGeneration with hSame | hUsed
      · rw [hSame]
        exact Finset.mem_insert_self _ _
      · exact Finset.mem_insert_of_mem hUsed
    · simp [hReady]
    · simp [hReady]
    · intro _
      exact ⟨hReady, hSilent⟩
  · refine ⟨hMirror.levelled.epoch, ?_, ?_, ?_⟩
    · intro _ hSpeaks
      exact absurd hSpeaks hSilent
    · intro _ hSpeaks
      exact absurd hSpeaks hSilent
    · intro _ _
      rfl

namespace Joint

variable {H : Type} {j j' : Joint H} {log : List Native.Record}

/-
  The bridge accepts everything on its way, and the adapter is level with what the bridge
  will then be.
-/
structure Coupled (j : Joint H) : Prop where
  relays : j.bridge.receiver.Relays j.flight
  mirror : Mirror j.offered j.stream (j.bridge.receiver.hearAll j.flight)

theorem coupled_of_starts (hStarts : j.Starts) : j.Coupled := by
  rcases hStarts.stream with ⟨replacementWire, tapReleaseEnabled, dropOutcomeOnce, seed, hStream⟩
  rcases hStarts.bridge with ⟨transport, expected, greeting, hBridge⟩
  rcases Bridge.passiveHandshake_fresh hBridge with ⟨hNonzero, hFresh⟩
  have hReceiver : j.bridge.receiver = ⟨j.bridge.nonce, 0, 0, ∅, ∅, true⟩ := by
    rw [hFresh]
    rfl
  refine ⟨?_, ?_⟩
  · rw [hStarts.flight]
    trivial
  rw [hStarts.flight, hearAll_nil, hReceiver, hStream, hStarts.offered]
  have hReady : (Stream.init replacementWire tapReleaseEnabled
      dropOutcomeOnce seed).connection.ready = false :=
    rfl
  have hSilent (nonce : Nat) : ¬ Speaks (Stream.init replacementWire tapReleaseEnabled
      dropOutcomeOnce seed) nonce := by
    rintro ⟨hGeneration, _⟩
    exact hGeneration rfl
  refine ⟨?_, ?_, ?_⟩
  · refine ⟨hNonzero, by simp, ?_, le_rfl, ?_, ?_, ?_, ?_, ?_⟩
    · simp [hReady]
    · intro hGeneration
      exact absurd rfl hGeneration
    · intro hProven
      cases hProven
    · simp [hReady]
    · simp [hReady]
    · intro _
      exact ⟨hReady, hSilent _⟩
  · refine ⟨Nat.zero_le _, ?_, ?_, ?_⟩
    · intro _ hSpeaks
      exact absurd hSpeaks (hSilent _)
    · intro _ hSpeaks
      exact absurd hSpeaks (hSilent _)
    · intro _ _
      rfl
  · refine ⟨by simp, ?_, Nat.one_ne_zero⟩
    rintro g ⟨i, hUsed, _⟩
    exact absurd rfl hUsed

/- A step of the bridge that ends where a receiver may be. -/
theorem coupled_of_receiver {bridge : Bridge} {handler : H} {flight : List Packet}
    (hRelays : r.Relays flight) (hMirror : Mirror j.offered j.stream (r.hearAll flight))
    (hReceiver : bridge.receiver = r ∨ r.Stops bridge.receiver) :
    Coupled { j with bridge := bridge, handler := handler, flight := flight } := by
  rcases hReceiver with hSame | hStops
  · refine ⟨?_, ?_⟩
    · simp only
      rw [hSame]
      exact hRelays
    · simp only
      rw [hSame]
      exact hMirror
  · refine ⟨relays_of_closed hStops.closed, ?_⟩
    simp only
    rw [hearAll_of_closed hStops.closed]
    exact hMirror.stops (hStops.of_hearAll hRelays)

variable {start last : Joint H} {trace : List (Entry H)}

/- The records of a run, in the order they were written. -/
def records (trace : List (Entry H)) : List Native.Record := trace.flatMap (fun e => e.out)

theorem records_snoc (e : Entry H) : records (trace ++ [e]) = records trace ++ e.out := by
  rw [records, List.flatMap_append, List.flatMap_singleton]
  rfl

theorem increments_front {e : Entry H} {rest : List (Entry H)}
    (hIncrements : increments (trace ++ e :: rest) < 2 ^ 64) : increments trace < 2 ^ 64 := by
  simp only [increments, List.flatMap_append, bumps_append, stamps_append] at hIncrements ⊢
  omega

variable [EventHandler H]

theorem step_coupled {op : Op} (hCoupled : j.Coupled) (hStep : j.step op = some (j', log))
    (hFits : Fits j.stream log) : j'.Coupled ∧ Counts j.stream log j'.stream := by
  have hRelays := hCoupled.relays
  have hMirror := hCoupled.mirror
  cases op with
  | native op =>
    simp only [step] at hStep
    split_ifs at hStep with hConnect
    rcases Option.map_eq_some_iff.mp hStep with ⟨⟨stream, records⟩, hNative, hEq⟩
    cases hEq
    rcases hMirror.stepped (Stream.step_stepped hNative) (by simpa using hConnect) hFits with
      ⟨hCounts, hPosted, hAfter⟩
    refine ⟨⟨?_, ?_⟩, hCounts⟩
    · exact relays_append.mpr ⟨hRelays, hPosted⟩
    · simp only
      rw [hearAll_append]
      exact hAfter
  | connect generation =>
    simp only [step] at hStep
    split_ifs at hStep with hOffered
    rcases Option.map_eq_some_iff.mp hStep with ⟨⟨stream, records⟩, hNative, hEq⟩
    cases hEq
    rcases step_connect hNative with ⟨hNewer, rfl, rfl⟩
    rw [hOffered] at hMirror
    refine ⟨⟨hRelays, ?_⟩, ⟨rfl, le_rfl⟩⟩
    have hShown := hMirror.connected hNewer
    rw [hearAll_nonce] at hShown
    exact hShown
  | deliver op =>
    simp only [step] at hStep
    cases hFlight : j.flight with
    | nil => simp [hFlight] at hStep
    | cons packet rest =>
      rw [hFlight] at hStep hRelays hMirror
      simp only at hStep
      split_ifs at hStep with hReads
      cases hStep
      refine ⟨?_, ⟨rfl, le_rfl⟩⟩
      exact coupled_of_receiver hRelays.2 hMirror (Bridge.perform_receiver hReads.2 hReads.1
        (hRelays.1 hReads.1))
  | daemon op =>
    simp only [step] at hStep
    split_ifs at hStep with hReads
    cases hStep
    refine ⟨?_, ⟨rfl, le_rfl⟩⟩
    exact coupled_of_receiver hRelays hMirror (Bridge.perform_receiver_unread hReads.2 hReads.1)
  | greet transport expected greeting =>
    simp only [step] at hStep
    split_ifs at hStep with hReady
    rcases j.bridge.reconnect_cases transport expected greeting with
      ⟨error, hRefused⟩ | ⟨nonce, hClosed, hNonzero, hNew, hUnused, hGreeted⟩
    · rw [hRefused] at hStep
      cases hStep
      exact ⟨⟨hRelays, hMirror⟩, ⟨rfl, le_rfl⟩⟩
    · rw [hGreeted] at hStep
      cases hStep
      have hOffline : j.bridge.receiver.connected = false := by simp [Bridge.receiver, hClosed]
      rw [hearAll_of_closed hOffline] at hMirror
      exact ⟨⟨trivial, hMirror.greeted (by simpa using hReady) hNonzero hNew hUnused⟩, ⟨rfl, le_rfl⟩⟩

/- Every packet on its way has taken a number. -/
theorem posted_length_le (log : List Native.Record) : (posted log).length ≤ stamps log := by
  induction log with
  | nil => exact le_rfl
  | cons record log ih =>
    have hRecord : (posted [record]).length ≤ stamps [record] := by
      cases record with
      | bumped | reported packet => exact le_rfl
      | stamped sent =>
        cases sent with
        | none => exact Nat.zero_le _
        | some packet => exact le_rfl
    change (posted ([record] ++ log)).length ≤ stamps ([record] ++ log)
    rw [posted_append, stamps_append, List.length_append]
    omega

theorem step_flight {op : Op} (hStep : j.step op = some (j', log)) :
    j'.flight.length ≤ j.flight.length + stamps log := by
  cases op with
  | native op =>
    simp only [step] at hStep
    split_ifs at hStep
    rcases Option.map_eq_some_iff.mp hStep with ⟨⟨stream, written⟩, _, hEq⟩
    cases hEq
    have hPosted := posted_length_le written
    simp only [List.length_append]
    omega
  | connect generation =>
    simp only [step] at hStep
    split_ifs at hStep
    rcases Option.map_eq_some_iff.mp hStep with ⟨⟨stream, records⟩, _, hEq⟩
    cases hEq
    exact Nat.le_add_right _ _
  | deliver op =>
    simp only [step] at hStep
    cases hFlight : j.flight with
    | nil => simp [hFlight] at hStep
    | cons packet rest =>
      rw [hFlight] at hStep
      simp only at hStep
      split_ifs at hStep
      cases hStep
      simp only [List.length_cons]
      omega
  | daemon op =>
    simp only [step] at hStep
    split_ifs at hStep
    cases hStep
    exact Nat.le_add_right _ _
  | greet transport expected greeting =>
    simp only [step] at hStep
    split_ifs at hStep
    split at hStep
    · cases hStep
      exact Nat.zero_le _
    · cases hStep
      exact Nat.le_add_right _ _

theorem run_flight (hStarts : start.Starts) (hRun : Run step start trace last) :
    last.flight.length ≤ stamps (records trace) := by
  induction hRun with
  | nil =>
    rw [hStarts.flight]
    exact Nat.zero_le _
  | snoc _ hLast ih =>
    have hStep := step_flight hLast
    rw [records_snoc, stamps_append]
    simp only
    omega

/- Both ends stay level as long as no counter wraps. -/
theorem run_coupled (hStarts : start.Starts) (hRun : Run step start trace last)
    (hFits : Fits start.stream (records trace)) :
    last.Coupled ∧ Counts start.stream (records trace) last.stream := by
  induction hRun with
  | nil => exact ⟨coupled_of_starts hStarts, ⟨rfl, le_rfl⟩⟩
  | snoc _ hLast ih =>
    rw [records_snoc] at hFits ⊢
    rcases ih hFits.first with ⟨hCoupled, hCounts⟩
    rcases step_coupled hCoupled hLast (hFits.second hCounts) with ⟨hAfter, hStep⟩
    exact ⟨hAfter, hCounts.trans hStep⟩

/- A packet that is on its way leaves room for the epoch. -/
theorem fits_of_flight (hStarts : start.Starts) (hRun : Run step start trace last)
    (hIncrements : increments trace < 2 ^ 64) (hFlight : last.flight ≠ []) :
    Fits start.stream (records trace) := by
  have hSome := List.length_pos_of_ne_nil hFlight
  have hStamped := run_flight hStarts hRun
  rcases hStarts.stream with ⟨_, _, _, _, hStream⟩
  have hTotal : bumps (records trace) + stamps (records trace) < 2 ^ 64 := hIncrements
  have hEpoch : start.stream.router.epoch = 1 := by
    rw [hStream]
    rfl
  have hSequence : start.stream.wireSequence = 0 := by
    rw [hStream]
    rfl
  refine ⟨?_, ?_⟩ <;> omega

/-
  No control or Event is refused for its scope.  Packets that are still timely when the
  bridge checks them are accepted, on every connection and across all reconnections.
-/
theorem scope_agreement (hStarts : start.Starts) (hRun : Run step start trace last)
    (hIncrements : increments trace < 2 ^ 64) (e : Entry H) (hMem : e ∈ trace) (packet : Packet)
    (hDelivered : delivered e = some packet) (now : Except IoError Nat)
    (hTimely : checkDeadline now packet.scope.deadlineNs = .ok ()) :
    e.pre.bridge.validate now packet = .ok (e.pre.bridge.accept packet) := by
  rcases List.append_of_mem hMem with ⟨front, rest, rfl⟩
  rcases hRun.upto with ⟨mid, hUpto⟩
  rcases hUpto.concat_inv with ⟨hFront, hStep⟩
  rcases e with ⟨pre, op, out⟩
  cases op with
  | native op | connect generation | daemon op | greet transport expected greeting =>
    cases hDelivered
  | deliver op =>
    have hHead : pre.flight.head? = some packet := hDelivered
    rcases List.head?_eq_some_iff.mp hHead with ⟨later, hFlight⟩
    have hFits := fits_of_flight hStarts hFront (increments_front hIncrements) (by simp [hFlight])
    have hRelays := (run_coupled hStarts hFront hFits).1.relays
    simp only [step, hFlight] at hStep
    split_ifs at hStep with hReads
    simp only [hFlight] at hRelays
    exact Bridge.validate_of_accepts (hRelays.1 hReads.1) hTimely

/- A loaded plugin and a daemon that has greeted it. -/
def greeted : Joint Bystander where
  stream := Stream.init true false false 7
  flight := []
  bridge := Bridge.fresh 7
  handler := Bystander.mk
  offered := true

theorem greeted_starts : greeted.Starts :=
  ⟨⟨true, false, false, 7, rfl⟩, rfl, ⟨⟨0⟩, Bridge.peerIdentity,
      .hello Bridge.peerIdentity 7, by rfl⟩, rfl⟩

/- Reconciliation on a first connection, the loss of it, and the same on a second one. -/
def reconnection : List Op :=
  let at_ : Stream.Announcement := ⟨1, true, 1, true⟩
  let read (packet : Packet) := Op.deliver (.stepIfReady true (.reading packet))
  let identity := Bridge.peerIdentity
  [.connect 1, .native .ensureConnectionBinding, .native (.reconcileInitial true at_),
    read ⟨⟨0, 3, 1, 10000001, 7⟩, .lock 0 0⟩,
    read ⟨⟨0, 3, 2, 10000001, 7⟩, .reset 8⟩,
    .native .lose, .daemon .requestReconciliation,
    .greet ⟨1⟩ identity (.hello identity 8),
    .connect 2, .native .ensureConnectionBinding,
    .native (.reconcileInitial true at_),
    read ⟨⟨0, 4, 1, 10000001, 8⟩, .lock 0 0⟩,
    read ⟨⟨0, 4, 2, 10000001, 8⟩, .reset 8⟩]

theorem scope_agreement_reconnection :
    let trace := entriesOf step greeted reconnection
    trace.filterMap delivered = [⟨⟨0, 3, 1, 10000001, 7⟩, .lock 0 0⟩,
          ⟨⟨0, 3, 2, 10000001, 7⟩, .reset 8⟩,
          ⟨⟨0, 4, 1, 10000001, 8⟩, .lock 0 0⟩,
          ⟨⟨0, 4, 2, 10000001, 8⟩, .reset 8⟩] ∧
      ∀ e ∈ trace, ∀ packet, delivered e = some packet → e.pre.bridge.validate (.ok 1) packet =
          .ok (e.pre.bridge.accept packet) := by
  have hEvaluated : (exec step greeted reconnection).isSome = true ∧
      (entriesOf step greeted reconnection).filterMap delivered =
        [⟨⟨0, 3, 1, 10000001, 7⟩, .lock 0 0⟩, ⟨⟨0, 3, 2, 10000001, 7⟩, .reset 8⟩,
          ⟨⟨0, 4, 1, 10000001, 8⟩, .lock 0 0⟩,
          ⟨⟨0, 4, 2, 10000001, 8⟩, .reset 8⟩] ∧
      increments (entriesOf step greeted reconnection) < 2 ^ 64 := by
    decide +kernel
  rcases hEvaluated with ⟨hSome, hPackets, hFew⟩
  refine ⟨hPackets, ?_⟩
  intro e hMem packet hDelivered
  have hTimely : packet.scope.deadlineNs = 10000001 := by
    have hPacket := List.mem_filterMap.mpr ⟨e, hMem, hDelivered⟩
    rw [hPackets] at hPacket
    simp only [List.mem_cons, List.not_mem_nil, or_false] at hPacket
    rcases hPacket with rfl | rfl | rfl | rfl <;> rfl
  apply scope_agreement greeted_starts (.of_isSome hSome) hFew e hMem packet
    hDelivered
  rw [hTimely]
  rfl

end Joint

end Link

end Sledge
