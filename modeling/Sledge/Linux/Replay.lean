import Sledge.Lib.History
import Sledge.Linux.Bridge

/-
  Replay safety of a bridge over its whole life.

  The peer chooses every packet and every Hello.  What a
  bridge remembers of its past is enough to tell a replayed
  packet from a new one, across reconnections: the nonces it
  has used, its lock epoch, the last sequence of the current
  connection and the generations it has seen retired.

  Main results:
    * `Bridge.Performed.writes`
    * `Bridge.closed_until_reconnect`
    * `Bridge.replay_safe`
-/

-----
-- What A Bridge Remembers

namespace Sledge.Linux

open Transition Record

namespace Bridge

/- The connection of this nonce is or was admitted. -/
def Used (b : Bridge) (nonce : Nat) : Prop := nonce = b.nonce ∨ nonce ∈ b.previousNonces

/- What the bridge still knows of an earlier record. -/
def Remembers (b : Bridge) : Record → Prop
  | .validated packet =>
    packet.scope.lockEpoch ≤ b.epoch ∧ b.Used packet.scope.nonce ∧ (packet.scope.nonce = b.nonce →
        packet.scope.sequence ≤ b.sequence)
  | .retired generation => generation ∈ b.retired
  | .connected nonce epoch => b.Used nonce ∧ epoch ≤ b.epoch
  | _ => True

end Bridge

namespace Record

/- The lock epoch at which a record was made. -/
def epoch? : Record → Option Nat
  | .validated packet => some packet.scope.lockEpoch
  | .connected _ epoch => some epoch
  | _ => none

def nonce? : Record → Option Nat
  | .connected nonce _ => some nonce
  | _ => none

def packet? : Record → Option Packet
  | .validated packet => some packet
  | _ => none

/- A packet's epoch is not older, and newer for a Lock. -/
def Advances (epoch : Nat) (packet : Packet) : Prop :=
  epoch ≤ packet.scope.lockEpoch ∧ (packet.body.isLock → epoch < packet.scope.lockEpoch)

/- What holds of two records in this order. -/
def Follows : Record → Record → Prop
  | .validated earlier, .validated later =>
    (earlier.scope.nonce = later.scope.nonce → earlier.scope.sequence < later.scope.sequence) ∧
      Advances earlier.scope.lockEpoch later
  | .connected _ epoch, .validated later => Advances epoch later
  | .retired generation, .validated later => later.scope.generation ≠ generation
  | .connected earlier _, .connected later _ => earlier ≠ later
  | _, _ => True

end Record

namespace Bridge

variable {a b c : Bridge} {log : List Record}

/- A move of the bridge, seen through its memory. -/
abbrev Writes (a b : Bridge) (log : List Record) : Prop :=
  Extends Remembers Follows a b log

/- Only the transport and the gates differ. -/
def SameScope (a b : Bridge) : Prop :=
  ∃ transport awaiting locked, b =
      { a with transport := transport, awaitingReconciliation := awaiting, locked := locked }

theorem SameScope.refl (a : Bridge) : SameScope a a := ⟨_, _, _, rfl⟩

end Bridge

namespace Record

theorem follows_quiet {r : Record} (hQuiet : r.isQuiet = true) (d : Record) : Follows d r := by
  cases r with
  | received | sent packet => cases d <;> trivial
  | validated packet | retired generation | connected nonce epoch => cases hQuiet

end Record

namespace Bridge

variable {a b c : Bridge} {log : List Record}

theorem remembers_quiet {r : Record} (hQuiet : r.isQuiet = true) : b.Remembers r := by
  cases r with
  | received | sent packet => trivial
  | validated packet | retired generation | connected nonce epoch => cases hQuiet

theorem SameScope.remembers (hSame : SameScope a b) {r : Record} (hKnown : a.Remembers r) :
    b.Remembers r := by
  rcases hSame with ⟨_, _, _, rfl⟩
  cases r <;> exact hKnown

/- Reading, sending and the gates do not touch the memory. -/
theorem SameScope.writes (hSame : SameScope a b) (hQuiet : ∀ r ∈ log, r.isQuiet = true) :
    Writes a b log where
  keeps := fun _ hKnown => hSame.remembers hKnown
  knows := fun r hMem => remembers_quiet (hQuiet r hMem)
  follows := fun d _ r hMem =>
    follows_quiet (hQuiet r hMem) d
  pairwise := List.pairwise_of_forall_mem_list (fun d _ r hMem =>
      follows_quiet (hQuiet r hMem) d)

-----
-- Validation

variable {packet : Packet}

theorem InScope.advances (hScope : b.InScope packet) {epoch : Nat} (hEpoch : epoch ≤ b.epoch) :
    Advances epoch packet :=
  ⟨hEpoch.trans hScope.epoch, fun hLock => hEpoch.trans_lt (hScope.lockEpoch hLock)⟩

/- An accepted packet follows all the bridge remembers. -/
theorem accept_writes (hScope : b.InScope packet) :
    Writes b (b.accept packet) [.validated packet] := by
  refine .single ?_ ?_ ?_
  · intro d hKnown
    cases d with
    | received | sent packet => trivial
    | retired generation => exact hKnown
    | connected nonce epoch => exact ⟨hKnown.1, hKnown.2.trans hScope.epoch⟩
    | validated earlier =>
      refine ⟨hKnown.1.trans hScope.epoch, hKnown.2.1, ?_⟩
      intro hNonce
      exact (hKnown.2.2 hNonce).trans hScope.sequence.le
  · exact ⟨le_rfl, .inl hScope.nonce, fun _ => le_rfl⟩
  · intro d hKnown
    cases d with
    | received | sent packet => trivial
    | retired generation =>
      rintro rfl
      exact hScope.generation hKnown
    | connected nonce epoch => exact hScope.advances hKnown.2
    | validated earlier =>
      refine ⟨?_, hScope.advances hKnown.1⟩
      intro hNonce
      have hSequence := hKnown.2.2 (hNonce.trans hScope.nonce)
      exact hSequence.trans_lt hScope.sequence

-----
-- Calls

variable {H : Type} [EventHandler H] {h : H} {env : Surroundings}

/- Adding a generation to the retired ones records it. -/
theorem retire_writes (generation : Nat) :
    Writes b { b with retired := insert generation b.retired } [.retired generation] := by
  refine .single ?_ ?_ ?_
  · intro d hKnown
    cases d with
    | retired earlier => exact Finset.mem_insert_of_mem hKnown
    | _ => exact hKnown
  · exact Finset.mem_insert_self _ _
  · intro d _
    cases d <;> trivial

/- An accepted control either changes the gates or retires a generation. -/
theorem Controls.writes {b' : Bridge} (hControls : b.Controls packet b' (.ok ())) :
    Writes b b' (controlLog packet) := by
  cases hControls with
  | reconciled hBody _ =>
    refine SameScope.writes ⟨_, _, _, rfl⟩ ?_
    simp [controlLog, hBody, Body.isRetire]
  | retired hBody _ _ =>
    simp only [controlLog, hBody, if_true]
    exact retire_writes packet.scope.generation
  | awaited hBody _ =>
    refine SameScope.writes ⟨_, _, _, rfl⟩ ?_
    cases hReset : packet.body <;>
      simp_all [controlLog, Body.isRetire, Body.isLifecycleReset]
  | unchanged _ hRetire _ =>
    refine (SameScope.refl _).writes ?_
    simp [controlLog, hRetire]

theorem Processed.writes {b' : Bridge} {log : List Record} {taken : Bool}
    (hProcessed : b.Processed packet b' log taken) : Writes b b' log := by
  cases hProcessed with
  | invalid => exact (SameScope.refl b).writes (by simp)
  | refused hScope => exact accept_writes hScope
  | controlled hScope hControls => exact (accept_writes hScope).trans hControls.writes
  | traced hScope _ hQuiet =>
    exact (accept_writes hScope).trans ((SameScope.refl _).writes hQuiet)

theorem received_writes : Writes b b [.received] :=
  (SameScope.refl b).writes (by simp [isQuiet])

/- A new connection has a nonce the bridge has not used. -/
theorem connect_writes {nonce : Nat} (transport : Option Transport) (hFresh : ¬ b.Used nonce) :
    Writes b
      { b with
        previousNonces := insert b.nonce b.previousNonces
        nonce := nonce
        sequence := 0
        transport := transport
        awaitingReconciliation := true }
      [.connected nonce b.epoch] := by
  have hUsed : ∀ earlier, b.Used earlier → earlier = nonce ∨
      earlier ∈ insert b.nonce b.previousNonces := by
    intro earlier hEarlier
    exact .inr (Finset.mem_insert.mpr hEarlier)
  refine .single ?_ ?_ ?_
  · intro d hKnown
    cases d with
    | received | sent packet => trivial
    | retired generation => exact hKnown
    | connected earlier epoch => exact ⟨hUsed _ hKnown.1, hKnown.2⟩
    | validated packet =>
      refine ⟨hKnown.1, hUsed _ hKnown.2.1, ?_⟩
      intro (hNonce : packet.scope.nonce = nonce)
      exact absurd (hNonce ▸ hKnown.2.1) hFresh
  · exact ⟨.inl rfl, le_rfl⟩
  · intro d hKnown
    cases d with
    | connected earlier epoch =>
      rintro rfl
      exact hFresh hKnown.1
    | _ => trivial

theorem Performed.writes {op : Op} {b' : Bridge} {log : List Record} {failed : Bool}
    (hPerformed : b.Performed op b' log failed) : Writes b b' log := by
  cases hPerformed with
  | idle | refused => exact (SameScope.refl b).writes (by simp)
  | offline | requested => exact SameScope.writes ⟨_, _, _, rfl⟩ (by simp)
  | broken => exact SameScope.writes ⟨_, _, _, rfl⟩ (by simp [isQuiet])
  | took packet _ _ hProcessed => exact received_writes.trans hProcessed.writes
  | @failed _ mid _ packet _ _ hProcessed =>
    have hClosed : Writes mid { mid with transport := none } [] :=
      SameScope.writes ⟨_, _, _, rfl⟩ (by simp)
    simpa using (received_writes.trans hProcessed.writes).trans hClosed
  | connected transport _ _ nonce _ hUnused =>
    refine connect_writes (some transport) ?_
    rintro (hSame | hOld)
    · exact hUnused.1 hSame
    · exact hUnused.2 hOld

-----
-- Closed Transports

variable {s t : Bridge × H} {op : Op}

/- A failed step leaves the transport closed. -/
theorem perform_failed_closed (hStep : op.isStep = true) (hFailed : (perform s op).2.failed = true) :
    (perform s op).1.1.transport = none := by
  have hPerformed := perform_performed s op
  rw [hFailed] at hPerformed
  generalize (perform s op).1.1 = b', (perform s op).2.log = log at hPerformed ⊢
  cases hPerformed with
  | offline | broken | failed => rfl
  | refused => cases hStep

/- Nothing is read from a closed transport. -/
theorem perform_closed (hClosed : s.1.transport = none)
    (hReconnect : op.isReconnect = true → (perform s op).2.failed = true) :
    (perform s op).1.1.transport = none ∧ received ∉ (perform s op).2.log := by
  have hPerformed := perform_performed s op
  generalize (perform s op).1.1 = b', (perform s op).2.log = log,
    (perform s op).2.failed = failed at hPerformed hReconnect ⊢
  cases hPerformed with
  | idle _ hConnected | broken _ hConnected | took _ _ hConnected | failed _ _ hConnected =>
    rw [hClosed] at hConnected
    cases hConnected
  | offline | requested => exact ⟨rfl, by simp⟩
  | refused => exact ⟨hClosed, by simp⟩
  | connected => cases hReconnect rfl

theorem run_closed {trace : List (Entry H)} (hClosed : s.1.transport = none)
    (hRun : Run next s trace t)
    (hReconnect : ∀ e ∈ trace, e.op.isReconnect = true → e.out.failed = true) :
    t.1.transport = none ∧ ∀ e ∈ trace, received ∉ e.out.log := by
  induction hRun with
  | nil => exact ⟨hClosed, by simp⟩
  | @snoc front last next op out hFront hLast ih =>
    rcases forall_mem_snoc.mp hReconnect with ⟨hPrior, hEntry⟩
    rcases ih hPrior with ⟨hMid, hQuiet⟩
    have hPerform := next_eq_some hLast
    have hStep := perform_closed hMid (by
        rw [hPerform]
        exact hEntry)
    rw [hPerform] at hStep
    exact ⟨hStep.1, forall_mem_snoc.mpr ⟨hQuiet, hStep.2⟩⟩

/- After a failed step, until a reconnection succeeds. -/
theorem closed_until_reconnect {front rest : List (Entry H)} {e : Entry H}
    (hRun : Run next s (front ++ e :: rest) t) (hStep : e.op.isStep = true)
    (hFailed : e.out.failed = true)
    (hReconnect : ∀ f ∈ rest, f.op.isReconnect = true → f.out.failed = true) :
    t.1.transport = none ∧ ∀ f ∈ rest, received ∉ f.out.log := by
  rcases hRun.split with ⟨mid, _, hTail⟩
  rcases hTail.cons_inv with ⟨_, after, hNext, hRest⟩
  have hPerform := next_eq_some hNext
  refine run_closed ?_ hRest hReconnect
  have hClosed := perform_failed_closed (s := mid) hStep (by
      rw [hPerform]
      exact hFailed)
  rw [hPerform] at hClosed
  exact hClosed

-----
-- Replay Safety

variable {start last : Bridge × H} {trace : List (Entry H)}

/- The records of a run, from its first connection on. -/
def life (start : Bridge × H) (trace : List (Entry H)) : List Record :=
  .connected start.1.nonce start.1.epoch :: history trace

theorem run_writes (hRun : Run next start trace last) :
    Writes start.1 last.1 (history trace) := by
  refine hRun.extends Prod.fst (fun e => e.out.log) ?_
  intro a op b out hNext
  have hPerformed := perform_performed a op
  rw [next_eq_some hNext] at hPerformed
  exact hPerformed.writes

/- Any two records of a life are in their right order. -/
theorem life_follows (hRun : Run next start trace last) :
    (life start trace).Pairwise Follows :=
  (run_writes hRun).cons_pairwise ⟨.inl rfl, le_rfl⟩

theorem nonces_nodup (hRun : Run next start trace last) :
    ((life start trace).filterMap nonce?).Nodup := by
  refine List.pairwise_filterMap.mpr ?_
  refine (life_follows hRun).imp ?_
  intro d e hFollows m hEarlier n hLater
  cases d <;> cases hEarlier
  cases e <;> cases hLater
  exact hFollows

theorem sequences_increase (hRun : Run next start trace last) :
    ((life start trace).filterMap packet?).Pairwise (fun earlier later =>
        earlier.scope.nonce = later.scope.nonce → earlier.scope.sequence < later.scope.sequence) := by
  refine List.pairwise_filterMap.mpr ?_
  refine (life_follows hRun).imp ?_
  intro d e hFollows p hEarlier q hLater
  cases d <;> cases hEarlier
  cases e <;> cases hLater
  exact hFollows.1

theorem epochs_advance (hRun : Run next start trace last) {front rest : List Record}
    {packet : Packet} (hLife : life start trace = front ++ .validated packet :: rest) :
    ∀ epoch ∈ front.filterMap epoch?, Advances epoch packet := by
  intro epoch hMem
  rcases List.mem_filterMap.mp hMem with ⟨d, hFront, hEpoch⟩
  have hPairwise := life_follows hRun
  rw [hLife, List.pairwise_append] at hPairwise
  have hFollows := hPairwise.2.2 d hFront _ List.mem_cons_self
  cases d with
  | validated earlier =>
    cases hEpoch
    exact hFollows.2
  | connected nonce earlier =>
    cases hEpoch
    exact hFollows
  | _ => cases hEpoch

theorem retired_stay_out (hRun : Run next start trace last) {front rest : List Record}
    {generation : Nat} (hLife : life start trace = front ++ .retired generation :: rest)
    {packet : Packet} (hMem : validated packet ∈ rest) :
    packet.scope.generation ≠ generation := by
  have hPairwise := life_follows hRun
  rw [hLife, List.pairwise_append, List.pairwise_cons] at hPairwise
  exact hPairwise.2.1.1 _ hMem

/-
  Replay safety of a whole life: nonces are used once, a connection's sequences increase,
  epochs never go back and advance at each Lock, retired generations stay out, and after a
  failed step nothing is read until a reconnection succeeds.
-/
theorem replay_safe (hRun : Run next start trace last) :
    ((life start trace).filterMap nonce?).Nodup ∧
    ((life start trace).filterMap packet?).Pairwise (fun earlier later =>
        earlier.scope.nonce = later.scope.nonce → earlier.scope.sequence < later.scope.sequence) ∧
    (∀ front packet rest, life start trace = front ++ .validated packet :: rest →
      ∀ epoch ∈ front.filterMap epoch?, epoch ≤ packet.scope.lockEpoch ∧
          (packet.body.isLock = true → epoch < packet.scope.lockEpoch)) ∧
    (∀ front generation rest, life start trace = front ++ .retired generation :: rest →
      ∀ packet, validated packet ∈ rest → packet.scope.generation ≠ generation) ∧
    (∀ front e rest, trace = front ++ e :: rest → e.op.isStep = true → e.out.failed = true →
      (∀ f ∈ rest, f.op.isReconnect = true → f.out.failed = true) →
      last.1.transport = none ∧ ∀ f ∈ rest, received ∉ f.out.log) := by
  refine ⟨nonces_nodup hRun, sequences_increase hRun, ?_, ?_, ?_⟩
  · intro front packet rest hLife
    exact epochs_advance hRun hLife
  · intro front generation rest hLife packet hMem
    exact retired_stay_out hRun hLife hMem
  · rintro front e rest rfl hStep hFailed hReconnect
    exact closed_until_reconnect hRun hStep hFailed hReconnect

end Bridge

-----
-- A Peer That Replays

/- A handler that never proposes anything. -/
structure Bystander where
deriving DecidableEq

instance : EventHandler Bystander where
  propose := fun h _ _ => (h, .pass)
  delivery := fun h _ _ _ _ => h
  reset := fun h _ _ => h
  disconnected := fun h => h

namespace Greeting

/- A passive Hello from a peer with the given nonce. -/
def hello (identity : Identity) (nonce : Nat) : Greeting where
  received := .ok ⟨⟨0, 0, 0, 0, nonce⟩, .hello identity⟩
  greetedAt := .ok 0
  sent := .ok ()

end Greeting

namespace Bridge

/-
  Keyboard 7 is retired, its packet is replayed, and after a reconnection with a new nonce
  it is replayed again.
-/
def replayingPeer : List Op :=
  let retire := fun sequence nonce =>
    Op.stepIfReady true (.reading ⟨⟨7, 1, sequence, 9, nonce⟩, .retire 1⟩)
  [Op.stepIfReady true (.reading ⟨⟨0, 1, 1, 9, 5⟩, .lock 0 0⟩), retire 2 5, retire 3 5,
    Op.reconnect ⟨1⟩ peerIdentity (.hello peerIdentity 5),
    Op.reconnect ⟨1⟩ peerIdentity (.hello peerIdentity 6),
    retire 1 6]

theorem replay_safe_replayingPeer :
    history (entriesOf next (fresh 5, Bystander.mk) replayingPeer) =
      [.received, .validated ⟨⟨0, 1, 1, 9, 5⟩, .lock 0 0⟩,
        .received, .validated ⟨⟨7, 1, 2, 9, 5⟩, .retire 1⟩,
        .retired 7, .received, .connected 6 1, .received] ∧
    ((life (fresh 5, Bystander.mk) (entriesOf next (fresh 5, Bystander.mk)
          replayingPeer)).filterMap nonce?).Nodup :=
  ⟨by decide +kernel,
    (replay_safe (Run.of_isSome (by decide +kernel))).1⟩

end Bridge

end Sledge.Linux
