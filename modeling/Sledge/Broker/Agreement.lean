import Sledge.Broker.Client
import Sledge.Broker.Presses
import Sledge.Broker.Replies

/-
  Agreement of the broker and the client on physical keys.

  The client's loop stands at the other end of the socket.  It
  takes every request the broker writes, and after every move
  of the service its record of a device is that of the proxy:
  the epoch, a sequence the proxy has reached, and the keys
  that are physically down.

  Main results:
    * `clientSocket_took`
    * `Session.InStep.handle`
    * `Service.Move.coupled`
    * `Service.physical_agreement`
-/

-----
-- The Client's End

namespace Sledge.Broker

open Daemon Transition DeviceProxy
open Linux (IoError)

/- The client's loop, and the focus its events will meet. -/
structure ClientEnd (S : Type) where
  loop : Option (ClientState × S)
  foci : List (Option String)

/- What is read from a client that has ended. -/
def hungUp : IoError := ⟨.unexpectedEof, "failed to fill whole buffer"⟩

/- The client answers every frame until it fails. -/
def clientSocket {S : Type} (sink : EventSink S) : Socket (ClientEnd S) :=
  fun e bytes =>
    match e.loop with
    | none => (e, .error hungUp)
    | some (state, s) =>
      match Client.serve sink ⟨state, s, []⟩ ⟨bytes, e.foci.headD none, .ok ()⟩ with
      | (c, .ok frame) => (⟨some (c.state, c.sink), e.foci.tail⟩, .ok frame)
      | (_, .error _) => (⟨none, e.foci.tail⟩, .error hungUp)

/- A request that the client took, and its decision on it. -/
def Took {S : Type} (sink : EventSink S) (m : Message) (e e' : ClientEnd S) (operation : Operation) :
    Prop :=
  ∃ state s c, e.loop = some (state, s) ∧ Client.Turn sink (Client.accept sink ⟨state, s, []⟩ m) m
        (e.foci.headD none) c (.ok operation) ∧
      e' = ⟨some (c.state, c.sink), e.foci.tail⟩

namespace Message

/- A request the client can read and handle. -/
structure Proper (m : Message) : Prop where
  fits : m.Fits
  isRequest : m.operation.isRequest = true
  snapshot : m.operation = .snapshotKey → Client.badSnapshot m.event = false

/- The frame of a reply is read back. -/
theorem Fits.reply {m : Message} (hFits : m.Fits) (operation : Operation) :
    Message.read { m with operation := operation }.write = .ok { m with operation := operation } :=
  read_write ⟨hFits.generation, hFits.epoch, hFits.sequence,
      hFits.eventType, hFits.code, hFits.low, hFits.high⟩

end Message

variable {S : Type} {sink : EventSink S} {m : Message}

/- Every turn that ends well ends with a decision. -/
theorem Client.Turn.isDecision {c c' : Client S} {focus : Option String} {operation : Operation}
    (hTurn : Client.Turn sink c m focus c' (.ok operation)) :
    operation.isDecision = true ∧ (m.operation ≠ .event → operation = .pass) := by
  generalize hAnswer : (Except.ok operation : Except BackendError Operation) = answer at hTurn
  cases hTurn with
  | reset | retired | snapshot | idle | unmapped => cases hAnswer; exact ⟨rfl, fun _ => rfl⟩
  | refused => cases hAnswer
  | delivered code held hOperation =>
    cases hAnswer
    refine ⟨?_, fun hOther => absurd hOperation hOther⟩
    unfold Client.deliver
    dsimp only
    split_ifs <;> rfl

/- A proper request that continues its stream is taken. -/
theorem clientSocket_took (sink : EventSink S) {state : ClientState} (s : S)
    (foci : List (Option String)) (hProper : m.Proper) (hFresh : state.stale m = false) :
    ∃ e operation, clientSocket sink ⟨some (state, s), foci⟩ m.write =
          (e, .ok { m with operation := operation }.write) ∧
        Took sink m ⟨some (state, s), foci⟩ e operation := by
  have hValid : Client.validate sink ⟨state, s, []⟩ m =
      (Client.accept sink ⟨state, s, []⟩ m, .ok ()) := by
    simp [Client.validate, hProper.isRequest, hFresh]
  have hTurn := Client.handle_turns sink (Client.accept sink ⟨state, s, []⟩ m) (foci.headD none)
      hProper.isRequest
  rcases hHandled : Client.handle sink (Client.accept sink ⟨state, s, []⟩ m) m
        (foci.headD none) with
    ⟨next, error | operation⟩
  all_goals rw [hHandled] at hTurn
  · -- Only a bad snapshot is refused after validation.
    generalize hAnswer : (Except.error error : Except BackendError Operation) = answer at hTurn
    cases hTurn with
    | reset | retired | snapshot | idle | unmapped | delivered => cases hAnswer
    | refused _ hOperation hBad =>
      rw [hProper.snapshot hOperation] at hBad
      cases hBad
  · refine ⟨⟨some (next.state, next.sink), foci.tail⟩, operation, ?_,
      state, s, next, rfl, hTurn, rfl⟩
    simp only [clientSocket, Client.serve, Message.read_write hProper.fits, hValid, hHandled]

-----
-- The Client's Record Of A Device

namespace ClientState

/- What the client has recorded of a live device. -/
structure Mirrors (state : ClientState) (generation epoch sequence : Nat) (keys : Finset Nat) :
    Prop where
  epoch : state.epochs.get? generation = some epoch
  sequence : ∃ last, state.sequences.get? generation = some last ∧ last ≤ sequence
  keys : state.keysOf generation = keys

/- Nothing is recorded anew but of one device. -/
structure Elsewhere (state state' : ClientState) (generation : Nat) : Prop where
  epochs : ∀ g, g ≠ generation → state'.epochs.get? g = state.epochs.get? g
  sequences : ∀ g, g ≠ generation → state'.sequences.get? g = state.sequences.get? g
  keys : ∀ g, g ≠ generation → state'.keysOf g = state.keysOf g
  highest : state'.highestGeneration ≤ max state.highestGeneration generation

variable {state state' state'' : ClientState} {generation other epoch sequence : Nat}
variable {keys : Finset Nat}

theorem Elsewhere.refl (state : ClientState) (generation : Nat) :
    state.Elsewhere state generation :=
  ⟨fun _ _ => rfl, fun _ _ => rfl, fun _ _ => rfl, le_max_left _ _⟩

theorem Elsewhere.trans (hFirst : state.Elsewhere state' generation)
    (hSecond : state'.Elsewhere state'' generation) : state.Elsewhere state'' generation := by
  refine ⟨?_, ?_, ?_, ?_⟩
  · intro g hOther
    exact (hSecond.epochs g hOther).trans (hFirst.epochs g hOther)
  · intro g hOther
    exact (hSecond.sequences g hOther).trans (hFirst.sequences g hOther)
  · intro g hOther
    exact (hSecond.keys g hOther).trans (hFirst.keys g hOther)
  · have hOne := hFirst.highest
    have hTwo := hSecond.highest
    omega

theorem Mirrors.elsewhere (hMirrors : state.Mirrors other epoch sequence keys)
    (hElsewhere : state.Elsewhere state' generation) (hOther : other ≠ generation) :
    state'.Mirrors other epoch sequence keys := by
  refine ⟨?_, ?_, ?_⟩
  · rw [hElsewhere.epochs other hOther]
    exact hMirrors.epoch
  · rw [hElsewhere.sequences other hOther]
    exact hMirrors.sequence
  · rw [hElsewhere.keys other hOther]
    exact hMirrors.keys

theorem Mirrors.later {sequence' : Nat} (hMirrors : state.Mirrors generation epoch sequence keys)
    (hLater : sequence ≤ sequence') : state.Mirrors generation epoch sequence' keys := by
  rcases hMirrors.sequence with ⟨last, hLast, hReached⟩
  exact ⟨hMirrors.epoch, ⟨last, hLast, hReached.trans hLater⟩, hMirrors.keys⟩

theorem Mirrors.not_stale {m : Message} (hMirrors : state.Mirrors m.generation epoch sequence keys)
    (hGeneration : 0 < m.generation) (hEpoch : 0 < m.epoch) (hOnwards : epoch ≤ m.epoch)
    (hLater : sequence < m.sequence) : state.stale m = false := by
  rcases hMirrors.sequence with ⟨last, hLast, hReached⟩
  have hLive : state.isLive m.generation = true := by simp [isLive, hMirrors.epoch]
  have hSequence : last < m.sequence := by omega
  simp [stale, hLive, hMirrors.epoch, hLast, hOnwards, hSequence]
  omega

theorem not_stale_of_new {m : Message} (hGeneration : state.highestGeneration < m.generation)
    (hEpoch : 0 < m.epoch) (hSequence : 0 < m.sequence)
    (hNew : state.epochs.get? m.generation = none)
    (hUnknown : state.sequences.get? m.generation = none) (hRoom : state.epochs.keys.card < 128) :
    state.stale m = false := by
  have hDead : state.isLive m.generation = false := by simp [isLive, hNew]
  simp [stale, hDead, hNew, hUnknown, hGeneration, hRoom]
  omega

end ClientState

namespace Client

variable {c c' : Client S} {focus : Option String}
variable {answer : Except BackendError Operation}

@[simp]
theorem keysOf_hold (generation g : Nat) (keys : Finset Nat) :
    (c.hold generation keys).state.keysOf g = if g = generation then keys else c.state.keysOf g := by
  simp only [hold, ClientState.keysOf, Dict.get?_insert]
  split_ifs <;> rfl

@[simp]
theorem keysOf_forget (generation g : Nat) :
    (c.forget generation).state.keysOf g = if g = generation then ∅ else c.state.keysOf g := by
  simp only [forget, ClientState.keysOf, Dict.get?_erase]
  split_ifs <;> rfl

@[simp]
theorem keysOf_reset (generation g : Nat) :
    (c.reset sink generation).state.keysOf g = c.state.keysOf g :=
  rfl

@[simp]
theorem keysOf_retire (generation g : Nat) :
    (c.retire generation).state.keysOf g = if g = generation then ∅ else c.state.keysOf g := by
  simp only [retire, ClientState.retire, ClientState.keysOf, Dict.get?_erase]
  split_ifs <;> rfl

theorem keysOf_accept (g : Nat) :
    (c.accept sink m).state.keysOf g = if g = m.generation ∧ c.state.changes m = true then ∅
      else c.state.keysOf g := by
  unfold ClientState.keysOf
  rw [accept_physical]
  by_cases hChanges : c.state.changes m = true
  · rw [if_pos hChanges, Dict.get?_erase]
    by_cases hSame : g = m.generation
    · simp [hSame, hChanges]
    · simp [hSame]
  · simp [hChanges]

theorem Turn.elsewhere (hTurn : Turn sink (c.accept sink m) m focus c' answer) :
    c.state.Elsewhere c'.state m.generation := by
  rcases hTurn.stream with ⟨hHighest, hStream⟩
  rw [accept_highestGeneration] at hHighest
  rw [accept_epochs, accept_sequences] at hStream
  refine ⟨?_, ?_, ?_, le_of_eq hHighest⟩
  · intro g hOther
    rcases hStream with ⟨_, hEpochs, _⟩ | ⟨_, hEpochs, _⟩ <;>
      simp [hEpochs, hOther]
  · intro g hOther
    rcases hStream with ⟨_, _, hSequences⟩ | ⟨_, _, hSequences⟩ <;>
      simp [hSequences, hOther]
  · intro g hOther
    have hAccept : (c.accept sink m).state.keysOf g = c.state.keysOf g := by
      rw [keysOf_accept, if_neg (fun h => hOther h.1)]
    rw [← hAccept]
    cases hTurn with
    | reset | retired | snapshot | unmapped => simp [hOther]
    | refused | idle => rfl
    | delivered _ held _ _ _ _ hHeld =>
      subst hHeld
      change (hold _ _ _).state.keysOf g = _
      simp [hOther]

/- The keys of a device after a request about it. -/
def nextKeys (keys : Finset Nat) (m : Message) : Finset Nat :=
  if m.operation = .deviceReset then ∅
  else if m.operation = .snapshotKey then
    insert m.event.code keys
  else if m.event.isKey = true ∧ (m.event.value = 0 ∨ m.event.value = 1) then
    pressed keys m.event
  else keys

theorem Turn.keys {operation : Operation} (hTurn : Turn sink c m focus c' (.ok operation))
    (hLive : m.operation ≠ .deviceRetire) :
    c'.state.keysOf m.generation = nextKeys (c.state.keysOf m.generation) m := by
  unfold nextKeys
  generalize hAnswer : (Except.ok operation : Except BackendError Operation) = answer at hTurn
  cases hTurn with
  | reset hOperation | snapshot hOperation => simp [hOperation]
  | retired hOperation => exact absurd hOperation hLive
  | refused => cases hAnswer
  | idle hOperation hIdle => simp [hOperation, hIdle]
  | unmapped hOperation hKey hValue => simp [hOperation, hKey, hValue]
  | delivered _ held hOperation hKey hValue _ hHeld =>
    subst hHeld
    change (hold _ _ _).state.keysOf m.generation = _
    simp [hOperation, hKey, hValue]

theorem Turn.mirrors {operation : Operation}
    (hTurn : Turn sink (c.accept sink m) m focus c' (.ok operation))
    (hLive : m.operation ≠ .deviceRetire) :
    c'.state.Mirrors m.generation m.epoch m.sequence (nextKeys
        ((c.accept sink m).state.keysOf m.generation) m) := by
  have hStream := hTurn.stream.2
  rw [accept_epochs, accept_sequences] at hStream
  rcases hStream with ⟨_, hEpochs, hSequences⟩ | ⟨hRetire, _⟩
  · refine ⟨?_, ⟨m.sequence, ?_, le_refl _⟩, hTurn.keys hLive⟩
    · simp [hEpochs]
    · simp [hSequences]
  · exact absurd hRetire hLive

theorem Turn.retires (hTurn : Turn sink (c.accept sink m) m focus c' answer)
    (hRetire : m.operation = .deviceRetire) :
    c'.state.epochs.get? m.generation = none ∧ c'.state.sequences.get? m.generation = none := by
  have hStream := hTurn.stream.2
  rw [accept_epochs, accept_sequences] at hStream
  rcases hStream with ⟨hLive, _⟩ | ⟨_, hEpochs, hSequences⟩
  · exact absurd hRetire hLive
  · simp [hEpochs, hSequences]

end Client

-----
-- Joined Sessions

open Ordered Client

/- Known keys, and values an event device reports. -/
structure Incoming.Usual (i : Incoming) : Prop where
  raw : i.raw.isKey = true → i.raw.code ≤ maxKey ∧ 0 ≤ i.raw.value ∧ i.raw.value ≤ 2
  keys : ∀ keys, i.keys = .ok keys → ∀ code ∈ keys, code ≤ maxKey

namespace DeviceProxy

/- What the events of a proxy are, in any state of it. -/
def Sees (_ : DeviceProxy) (i : Incoming) : Prop := i.Usual

/- The counters of a proxy fit the wire and are not zero. -/
structure InBounds (p : DeviceProxy) : Prop where
  generation : 0 < p.generation
  generationFits : p.generation < 2 ^ 64
  epoch : 0 < p.epoch
  epochFits : p.epoch < 2 ^ 64

/- The requests of a proxy about keys, or without an event. -/
theorem InBounds.proper {p : DeviceProxy} (hBounds : p.InBounds) (hSequence : p.sequence < 2 ^ 64)
    {operation : Operation} {event : RawEvent} (hRequest : operation.isRequest = true)
    (hType : event.eventType ≤ 1) (hCode : event.code ≤ maxKey) (hLow : 0 ≤ event.value)
    (hHigh : event.value ≤ 2) (hSnapshot : operation = .snapshotKey → event = key event.code 1) :
    (p.message operation event).Proper := by
  have hKeys : maxKey < 2 ^ 16 := by decide
  refine ⟨⟨hBounds.generationFits, hBounds.epochFits, hSequence, ?_, ?_, ?_, ?_⟩, hRequest, ?_⟩
  · exact hType.trans_lt (by decide)
  · exact hCode.trans_lt hKeys
  · change _ ≤ event.value
    omega
  · change event.value < _
    omega
  · intro hOperation
    have hEvent := hSnapshot hOperation
    change badSnapshot event = false
    rw [hEvent]
    simp [badSnapshot, key]
    exact decide_eq_false (by omega)

end DeviceProxy

namespace Session

variable {s s' t : Session (ClientEnd S)} {i : Incoming}
variable {state : ClientState} {x : S}

/- The client's loop goes on with this state. -/
def Serves (s : Session (ClientEnd S)) (state : ClientState) : Prop :=
  ∃ x, s.peer.loop = some (state, x)

theorem ask_took (sink : EventSink S) {m : Message} (hLoop : s.peer.loop = some (state, x))
    (hProper : m.Proper) (hFresh : state.stale m = false) :
    ∃ s' operation, s.ask (clientSocket sink) m = (s', .ok { m with operation := operation }) ∧
        s'.proxy = s.proxy ∧
        Took sink m s.peer s'.peer operation := by
  rcases s with ⟨proxy, ⟨loop, foci⟩, log⟩
  dsimp only at hLoop
  subst hLoop
  rcases clientSocket_took sink x foci hProper hFresh with ⟨e, operation, hSocket, hTook⟩
  refine ⟨⟨proxy, e, log ++ [.wrote m, .read { m with operation := operation }.write]⟩,
    operation, ?_, rfl, hTook⟩
  simp [ask, hSocket, record, hProper.fits.reply]

/- The request a proxy makes next. -/
def nextRequest (s : Session (ClientEnd S)) (operation : Operation) (event : RawEvent) : Message :=
  { s.proxy with sequence := s.proxy.sequence + 1 }.message operation event

variable {operation : Operation} {event raw : RawEvent} {result : Except IoError Unit}

theorem control_took (hLoop : s.peer.loop = some (state, x))
    (hReady : s.proxy.sequence + 1 < 2 ^ 64 → (s.nextRequest operation event).Proper ∧
          state.stale (s.nextRequest operation event) = false) (hOther : operation ≠ .event)
    (hControl : s.control (clientSocket sink) operation event = (s', result)) :
    (s' = s ∧ ∃ error, result = .error error) ∨ (result = .ok () ∧ s'.proxy =
          { s.proxy with sequence := s.proxy.sequence + 1 } ∧
        Took sink (s.nextRequest operation event) s.peer s'.peer .pass) := by
  unfold control at hControl
  split at hControl
  · cases hControl
    exact .inl ⟨rfl, _, rfl⟩
  rename_i numbered hNumbered
  rcases advanceSequence_some hNumbered with ⟨hRoom, rfl⟩
  rcases hReady hRoom with ⟨hProper, hFresh⟩
  have hAsked := ask_took sink (s :=
        { s with
          proxy := { s.proxy with sequence := s.proxy.sequence + 1 } })
      hLoop hProper hFresh
  rcases hAsked with ⟨asked, decision, hAsk, hProxy, hTook⟩
  obtain rfl : decision = .pass := by
    rcases hTook with ⟨_, _, _, _, hTurn, _⟩
    exact hTurn.isDecision.2 hOther
  refine .inr ?_
  dsimp only at hControl
  rw [show message _ operation event = s.nextRequest operation event from rfl,
    hAsk] at hControl
  have hAnswers : Message.answers { s.nextRequest operation event with operation := .pass }
        (s.nextRequest operation event) =
      true := by
    simp [Message.answers]
  simp only [hAnswers, ne_eq, not_true_eq_false, or_self, if_false] at hControl
  cases hControl
  exact ⟨rfl, hProxy, hTook⟩

/- The client's record of the proxy at the socket. -/
structure Joined (s : Session (ClientEnd S)) (state : ClientState) (epoch : Nat) (keys : Finset Nat) :
    Prop where
  serves : s.Serves state
  bounds : s.proxy.InBounds
  onwards : epoch ≤ s.proxy.epoch
  mirrors : state.Mirrors s.proxy.generation epoch s.proxy.sequence keys

/- The record that the proxy would make itself. -/
def InStep (s : Session (ClientEnd S)) (state : ClientState) : Prop :=
  s.Joined state s.proxy.epoch s.proxy.state.physical

variable {state' : ClientState} {epoch : Nat} {keys : Finset Nat}

theorem Joined.not_stale (hJoined : s.Joined state epoch keys) :
    state.stale (s.nextRequest operation event) = false :=
  hJoined.mirrors.not_stale hJoined.bounds.generation
    hJoined.bounds.epoch hJoined.onwards (Nat.lt_succ_self _)

theorem Joined.keysOf_accept (hJoined : s.Joined state epoch keys) (sink : EventSink S) (x : S)
    (operation : Operation) (event : RawEvent) :
    (Client.accept sink ⟨state, x, []⟩ (s.nextRequest operation event)).state.keysOf
        s.proxy.generation =
      if epoch = s.proxy.epoch then keys else ∅ := by
  have hKeys := hJoined.mirrors.keys
  have hChanges : state.changes (s.nextRequest operation event) = (epoch != s.proxy.epoch) := by
    have hEpoch : state.epochs.get? (s.nextRequest operation event).generation = some epoch :=
      hJoined.mirrors.epoch
    rw [ClientState.changes, hEpoch]
    rfl
  refine Client.keysOf_accept _ |>.trans ?_
  rw [hChanges]
  by_cases hSame : epoch = s.proxy.epoch
  · simp [hSame, hKeys]
  · simp [hSame, nextRequest, message]

/- The requests that end no device and ask no decision. -/
structure Reports (operation : Operation) (event : RawEvent) : Prop where
  isRequest : operation.isRequest = true
  other : operation ≠ .event
  eventType : event.eventType ≤ 1
  code : event.code ≤ maxKey
  low : 0 ≤ event.value
  high : event.value ≤ 2
  snapshot : operation = .snapshotKey → event = key event.code 1

theorem reports_default (hRequest : operation.isRequest = true) (hOther : operation ≠ .event)
    (hSnapshot : operation ≠ .snapshotKey) : Reports operation .default :=
  ⟨hRequest, hOther, by decide, by decide, by decide,
    by decide, fun hSame => absurd hSame hSnapshot⟩

theorem reports_key {code : Nat} (hCode : code ≤ maxKey) : Reports .snapshotKey (key code 1) :=
  ⟨rfl, by decide, le_refl _, hCode, by simp [key],
    by simp [key], fun _ => rfl⟩

theorem Reports.ready (hReports : Reports operation event) (hBounds : s.proxy.InBounds)
    (hRoom : s.proxy.sequence + 1 < 2 ^ 64) : (s.nextRequest operation event).Proper := by
  have hNumbered : { s.proxy with sequence := s.proxy.sequence + 1 }.InBounds :=
    ⟨hBounds.generation, hBounds.generationFits, hBounds.epoch, hBounds.epochFits⟩
  exact hNumbered.proper hRoom hReports.isRequest hReports.eventType hReports.code hReports.low
    hReports.high hReports.snapshot

theorem Joined.control (hJoined : s.Joined state epoch keys) (hReports : Reports operation event)
    (hControl : s.control (clientSocket sink) operation event = (s', result)) :
    (s' = s ∧ ∃ error, result = .error error) ∨ (result = .ok () ∧ s'.proxy =
          { s.proxy with sequence := s.proxy.sequence + 1 } ∧
        ∃ state', state.Elsewhere state' s.proxy.generation ∧ s'.Serves state' ∧
            (operation ≠ .deviceRetire → s'.Joined state' s.proxy.epoch (nextKeys
                  (if epoch = s.proxy.epoch then keys else ∅)
                  (s.nextRequest operation event))) ∧
            (operation = .deviceRetire → state'.epochs.get? s.proxy.generation = none ∧
                state'.sequences.get? s.proxy.generation = none)) := by
  rcases hJoined.serves with ⟨x, hLoop⟩
  rcases control_took hLoop (fun hRoom =>
        ⟨hReports.ready hJoined.bounds hRoom, hJoined.not_stale⟩)
      hReports.other hControl with
    hFailed | ⟨hOk, hProxy, hTook⟩
  · exact .inl hFailed
  rcases hTook with ⟨_, _, c, hSame, hTurn, hPeer⟩
  rw [hLoop] at hSame
  cases hSame
  have hServes : s'.Serves c.state := ⟨c.sink, by rw [hPeer]⟩
  refine .inr ⟨hOk, hProxy, c.state, hTurn.elsewhere, hServes, ?_, ?_⟩
  · intro hLive
    have hMirrors := hTurn.mirrors hLive
    refine ⟨hServes, ?_, ?_, ?_⟩
    · rw [hProxy]
      exact ⟨hJoined.bounds.generation, hJoined.bounds.generationFits,
        hJoined.bounds.epoch, hJoined.bounds.epochFits⟩
    · rw [hProxy]
    · rw [hProxy, ← hJoined.keysOf_accept sink x operation event]
      exact hMirrors
  · intro hRetire
    exact hTurn.retires hRetire

/- The snapshot is recorded key by key. -/
theorem Joined.snapshotKeys {codes : List Nat} (hJoined : s.Joined state s.proxy.epoch keys)
    (hCodes : ∀ code ∈ codes, code ≤ maxKey)
    (hTold : Session.snapshotKeys (clientSocket sink) s codes = (s', result)) :
    ∃ state', state.Elsewhere state' s.proxy.generation ∧ s'.Serves state' ∧ (result = .ok () →
          s'.Joined state' s.proxy.epoch (keys ∪ codes.toFinset)) := by
  induction codes generalizing s state keys with
  | nil =>
    cases hTold
    refine ⟨state, .refl _ _, hJoined.serves, ?_⟩
    intro _
    simpa using hJoined
  | cons code codes ih =>
    rcases List.forall_mem_cons.mp hCodes with ⟨hFirst, hRest⟩
    unfold Session.snapshotKeys at hTold
    split at hTold
    · rename_i told error hControl
      cases hTold
      rcases hJoined.control (reports_key hFirst) hControl with ⟨rfl, _⟩ | ⟨hOk, _⟩
      · refine ⟨state, .refl _ _, hJoined.serves, ?_⟩
        intro hOk
        cases hOk
      · cases hOk
    · rename_i told hControl
      rcases hJoined.control (reports_key hFirst) hControl with ⟨_, error, hError⟩ |
        ⟨_, hProxy, state', hElsewhere, _, hNext, _⟩
      · cases hError
      have hInserted : nextKeys (if s.proxy.epoch = s.proxy.epoch then keys
            else ∅)
            (s.nextRequest .snapshotKey (key code 1)) =
          insert code keys := by
        rw [if_pos rfl]
        rfl
      have hJoined' := hNext (by decide)
      rw [hInserted] at hJoined'
      have hEpoch : told.proxy.epoch = s.proxy.epoch := by rw [hProxy]
      have hGeneration : told.proxy.generation = s.proxy.generation := by rw [hProxy]
      rw [← hEpoch] at hJoined'
      rcases ih hJoined' hRest hTold with ⟨last, hLater, hServes, hEnd⟩
      rw [hGeneration] at hLater
      refine ⟨last, hElsewhere.trans hLater, hServes, ?_⟩
      intro hOk
      have hDone := hEnd hOk
      rw [hEpoch] at hDone
      have hUnion : keys ∪ (code :: codes).toFinset = insert code keys ∪ codes.toFinset := by
        simp [Finset.insert_union, Finset.union_insert]
      rw [hUnion]
      exact hDone

/- Emission leaves the client alone and the keys in place. -/
theorem InStep.emitted {accepted : Except IoError Unit} {events : List RawEvent}
    (hIn : s.InStep state) (hEmit : emit accepted s events = (s', .ok ())) : s'.InStep state := by
  have hOutputs := emit_outputs hEmit
  have hPhysical : s'.proxy.state.physical = s.proxy.state.physical := by
    rw [emit_ok hEmit]
    exact (s.proxy.absorbAll_sameKeys events).physical
  rcases hIn.serves with ⟨x, hLoop⟩
  have hSame := hIn.mirrors
  unfold InStep
  refine ⟨⟨x, ?_⟩, ?_, le_refl _, ?_⟩
  · rw [hOutputs.peer, hLoop]
  · have hBounds := hIn.bounds
    exact ⟨hOutputs.generation ▸ hBounds.generation, hOutputs.generation ▸ hBounds.generationFits,
      hOutputs.epoch ▸ hBounds.epoch,
      hOutputs.epoch ▸ hBounds.epochFits⟩
  · rw [hOutputs.generation, hOutputs.epoch, hOutputs.sequence, hPhysical]
    exact hIn.mirrors

theorem Serves.emitted {accepted : Except IoError Unit} {events : List RawEvent}
    (hServes : s.Serves state) (hEmit : emit accepted s events = (s', result)) :
    s'.Serves state := by
  rcases hServes with ⟨x, hLoop⟩
  exact ⟨x, by rw [(emit_outputs hEmit).peer, hLoop]⟩

/- The end of a dropped episode brings both sides together. -/
theorem InStep.resynchronise (hIn : s.InStep state) (hUsual : i.Usual)
    (hResync : s.resynchronise (clientSocket sink) i = (s', result)) :
    ∃ state', state.Elsewhere state' s.proxy.generation ∧ s'.Serves state' ∧
        (result = .ok () → s'.InStep state') := by
  have hIdle {error : IoError} : ∃ state', state.Elsewhere state' s.proxy.generation ∧
      s.Serves state' ∧
      ((.error error : Except IoError Unit) = .ok () → s.InStep state') :=
    ⟨state, ClientState.Elsewhere.refl _ _, hIn.serves, fun hOk => by cases hOk⟩
  unfold Session.resynchronise at hResync
  split at hResync
  · cases hResync
    exact hIdle
  rename_i keys hKeys
  split at hResync
  · cases hResync
    exact hIdle
  rename_i aged hAged
  unfold advanceEpoch checkedAdd at hAged
  split_ifs at hAged with hRoom
  swap
  · cases hAged
  cases hAged
  dsimp only at hResync
  -- The request goes out under the new epoch already.
  have hAged : Joined
        { s with
          proxy :=
            { s.proxy with epoch := s.proxy.epoch + 1, state := (s.proxy.state.resync keys).1 } }
        state s.proxy.epoch s.proxy.state.physical :=
    ⟨hIn.serves, ⟨hIn.bounds.generation, hIn.bounds.generationFits, Nat.succ_pos _, hRoom⟩,
      Nat.le_succ _, hIn.mirrors⟩
  have hReports : Reports .deviceReset .default := reports_default rfl (by decide) (by decide)
  split at hResync
  · rename_i reset error hReset
    cases hResync
    rcases hAged.control hReports hReset with ⟨rfl, _⟩ | ⟨hOk, _⟩
    · exact ⟨state, .refl _ _, hIn.serves, fun hOk => by cases hOk⟩
    · cases hOk
  rename_i reset hReset
  rcases hAged.control hReports hReset with
    ⟨_, _, hError⟩ | ⟨_, hProxy, first, hElsewhere, _, hNext, _⟩
  · cases hError
  have hJoined : reset.Joined first reset.proxy.epoch ∅ := by
    have hRaw := hNext (by decide)
    rw [hProxy]
    exact hRaw
  have hGeneration : reset.proxy.generation = s.proxy.generation := by rw [hProxy]
  have hBounded : ∀ code ∈ ascending keys, code ≤ maxKey := fun code hMem =>
      hUsual.keys keys hKeys code (mem_ascending.mp hMem)
  split at hResync
  · rename_i told error hTold
    cases hResync
    rcases hJoined.snapshotKeys hBounded hTold with ⟨last, hLater, hServes, _⟩
    rw [hGeneration] at hLater
    exact ⟨last, hElsewhere.trans hLater, hServes, fun hOk => by cases hOk⟩
  rename_i told hTold
  rcases hJoined.snapshotKeys hBounded hTold with ⟨last, hLater, hServes, hDone⟩
  rw [hGeneration] at hLater
  have hConversed := snapshotKeys_conversed hTold
  have hIn' : told.InStep last := by
    have hEnd := hDone rfl
    have hPhysical : told.proxy.state.physical = keys := by
      rw [hConversed.proxy, hProxy, KeyState.resync_output]
    have hEpoch : told.proxy.epoch = reset.proxy.epoch := by rw [hConversed.proxy]
    unfold InStep
    rw [hPhysical, hEpoch]
    have hAll : ∅ ∪ (ascending keys).toFinset = keys := by
      ext code
      simp
    rw [hAll] at hEnd
    exact hEnd
  refine ⟨last, hElsewhere.trans hLater, ?_⟩
  split at hResync
  · rename_i played error hPlayed
    cases hResync
    exact ⟨hServes.emitted hPlayed, fun hOk => by cases hOk⟩
  · rename_i played hPlayed
    have hPlayedIn := hIn'.emitted hPlayed
    refine ⟨hPlayedIn.serves.emitted hResync, ?_⟩
    rintro rfl
    exact hPlayedIn.emitted hResync

/- A usual key event is decided by the client. -/
theorem InStep.decide (sink : EventSink S) (hIn : s.InStep state)
    (hRoom : s.proxy.sequence + 1 < 2 ^ 64) (hKey : raw.isKey = true)
    (hOpen : s.proxy.state.dropping = false) (hCode : raw.code ≤ maxKey) (hLow : 0 ≤ raw.value)
    (hHigh : raw.value ≤ 2) :
    ∃ asked decision, Session.decide (clientSocket sink)
          { s with
            proxy :=
              { s.proxy with sequence := s.proxy.sequence + 1 } }
          raw =
        (asked, .ok decision) ∧
      asked.proxy = { s.proxy with sequence := s.proxy.sequence + 1 } ∧
      Took sink (s.nextRequest .event raw) s.peer asked.peer decision := by
  rcases hIn.serves with ⟨x, hLoop⟩
  have hType : raw.eventType = 1 := by simpa [RawEvent.isKey] using hKey
  have hNumbered : { s.proxy with sequence := s.proxy.sequence + 1 }.InBounds :=
    ⟨hIn.bounds.generation, hIn.bounds.generationFits, hIn.bounds.epoch, hIn.bounds.epochFits⟩
  have hProper : (s.nextRequest .event raw).Proper :=
    hNumbered.proper hRoom rfl (le_of_eq hType) hCode hLow hHigh (fun hSame => by cases hSame)
  have hAsked := ask_took sink (s :=
        { s with
          proxy := { s.proxy with sequence := s.proxy.sequence + 1 } })
      hLoop hProper (Joined.not_stale hIn)
  rcases hAsked with ⟨asked, decision, hAsk, hProxy, hTook⟩
  refine ⟨asked, decision, ?_, hProxy, hTook⟩
  have hDecision : decision.isDecision = true := by
    rcases hTook with ⟨_, _, _, _, hTurn, _⟩
    exact hTurn.isDecision.1
  have hAnswers : Message.answers { s.nextRequest .event raw with operation := decision }
        (s.nextRequest .event raw) =
      true := by
    cases decision <;>
      simp_all [Message.answers, Operation.isDecision]
  unfold Session.decide
  rw [if_pos ⟨hKey, hOpen⟩]
  dsimp only
  rw [show message _ .event raw = s.nextRequest .event raw from rfl, hAsk]
  simp [admittedDecision, hDecision, hAnswers]

/- Both sides follow a usual key event alike. -/
theorem apply_physical {held : KeyState} {decision : Operation}
    (hDecision : decision.isDecision = true) (hKey : raw.isKey = true)
    (hOpen : held.dropping = false) (hCode : raw.code ≤ maxKey) (hLow : 0 ≤ raw.value)
    (hHigh : raw.value ≤ 2) :
    (held.apply raw decision).1.physical = if raw.value = 0 ∨ raw.value = 1 then
        pressed held.physical raw
      else held.physical := by
  have hDropped := not_dropped_of_key hKey
  have hKnown : ¬ (maxKey < raw.code ∨ ¬ (0 ≤ raw.value ∧ raw.value ≤ 2)) := by omega
  simp only [KeyState.apply, hDecision, hDropped, hOpen, hKey, not_true_eq_false,
    Bool.false_eq_true, if_false, if_neg hKnown]
  have hValues : raw.value = 0 ∨ raw.value = 1 ∨ raw.value = 2 := by omega
  rcases hValues with hValue | hValue | hValue
  · simp [hValue, KeyState.release, pressed]
  · simp only [hValue, pressed, KeyState.press]
    by_cases hHeld : raw.code ∈ held.physical
    · simp [hHeld]
    · simp only [hHeld, if_false]
      split_ifs <;> simp_all
  · simp [hValue]

/- What is not asked does not touch the physical keys. -/
theorem apply_physical_unasked {p : DeviceProxy}
    (hUnasked : ¬ (raw.isKey = true ∧ p.state.dropping = false)) :
    ((p.rolledBack raw).state.apply raw .pass).1.physical = p.state.physical := by
  have hRolled := p.rolledBack_physical raw
  cases hDropped : raw.isDropped with
  | true =>
    rw [apply_of_dropped hDropped rfl]
    exact hRolled
  | false =>
    rw [rolledBack_of_not_dropped hDropped]
    cases hDropping : p.state.dropping with
    | true => simp [KeyState.apply, Operation.isDecision, hDropped, hDropping]
    | false =>
      have hOther : raw.isKey = false := by simpa [hDropping] using hUnasked
      simp [KeyState.apply, Operation.isDecision, hDropped, hDropping, hOther]

/- The session between a decision and its output. -/
def settled (s decided : Session (ClientEnd S)) (raw : RawEvent) (decision : Operation) :
    Session (ClientEnd S) :=
  let p := s.proxy.rolledBack raw
  record
    { decided with
      proxy :=
        { p with sequence := s.proxy.sequence + 1, state := (p.state.apply raw decision).1 } }
    (.applied p.state raw decision)

/- How an event other than an episode's end is settled. -/
theorem InStep.settle_cases (hIn : s.InStep state) (hUsual : i.Usual)
    (hSettle : s.settle (clientSocket sink) i = (s', result)) :
    (s' = s ∧ ∃ error, result = .error error) ∨ ∃ decided decision, decision.isDecision = true ∧
          emit i.accepted (s.settled decided i.raw decision)
              ((s.proxy.rolledBack i.raw).state.apply i.raw decision).2 =
            (s', result) ∧
          ((¬ (i.raw.isKey = true ∧ s.proxy.state.dropping = false) ∧
                decided.peer = s.peer ∧ decision = .pass) ∨
            (i.raw.isKey = true ∧ s.proxy.state.dropping = false ∧
              Took sink (s.nextRequest .event i.raw) s.peer decided.peer decision)) := by
  unfold Session.settle at hSettle
  split at hSettle
  · cases hSettle
    exact .inl ⟨rfl, _, rfl⟩
  rename_i numbered hNumbered
  rcases advanceSequence_some hNumbered with ⟨hRoom, rfl⟩
  refine .inr ?_
  have hRolled (decided : Session (ClientEnd S)) (hProxy : decided.proxy =
      { s.proxy with sequence := s.proxy.sequence + 1 }) :
      decided.rollback i.raw =
        { decided with
          proxy := { s.proxy.rolledBack i.raw with sequence := s.proxy.sequence + 1 } } := by
    unfold rollback rolledBack
    rw [hProxy]
    split_ifs
    · rfl
    · rw [← hProxy]
  by_cases hAsks : i.raw.isKey = true ∧ s.proxy.state.dropping = false
  · rcases hUsual.raw hAsks.1 with ⟨hCode, hLow, hHigh⟩
    rcases hIn.decide sink hRoom hAsks.1 hAsks.2 hCode hLow hHigh with
      ⟨decided, decision, hDecide, hProxy, hTook⟩
    have hDecision : decision.isDecision = true := by
      rcases hTook with ⟨_, _, _, _, hTurn, _⟩
      exact hTurn.isDecision.1
    rw [hDecide] at hSettle
    dsimp only at hSettle
    rw [hRolled decided hProxy] at hSettle
    exact ⟨decided, decision, hDecision, hSettle, .inr ⟨hAsks.1, hAsks.2, hTook⟩⟩
  · have hDecide : Session.decide (clientSocket sink)
            { s with
              proxy := { s.proxy with sequence := s.proxy.sequence + 1 } }
            i.raw =
          ({ s with
              proxy := { s.proxy with sequence := s.proxy.sequence + 1 } },
            .ok .pass) := by
      unfold Session.decide
      rw [if_neg hAsks]
    rw [hDecide] at hSettle
    dsimp only at hSettle
    rw [hRolled _ rfl] at hSettle
    exact ⟨s, .pass, rfl, hSettle, .inl ⟨hAsks, rfl, rfl⟩⟩

/- Any other event keeps both sides in step. -/
theorem InStep.settle (hIn : s.InStep state) (hUsual : i.Usual)
    (hSettle : s.settle (clientSocket sink) i = (s', result)) :
    ∃ state', state.Elsewhere state' s.proxy.generation ∧ s'.Serves state' ∧
        (result = .ok () → s'.InStep state') := by
  rcases hIn.settle_cases hUsual hSettle with ⟨rfl, error, rfl⟩ |
    ⟨decided, decision, hDecision, hEmit, hHow⟩
  · exact ⟨state, .refl _ _, hIn.serves, fun hOk => by cases hOk⟩
  have hCounters : (s.proxy.rolledBack i.raw).generation = s.proxy.generation ∧
      (s.proxy.rolledBack i.raw).epoch = s.proxy.epoch := by
    unfold rolledBack
    split_ifs <;> exact ⟨rfl, rfl⟩
  -- Both ways lead to a session that is in step already.
  have hSettled : ∃ state', state.Elsewhere state' s.proxy.generation ∧
      (s.settled decided i.raw decision).InStep state' := by
    have hFrom {last : ClientState} (hServes : decided.Serves last) (hMirrors :
        last.Mirrors s.proxy.generation s.proxy.epoch (s.proxy.sequence + 1)
          ((s.proxy.rolledBack i.raw).state.apply i.raw decision).1.physical) :
        (s.settled decided i.raw decision).InStep last := by
      refine ⟨hServes, ?_, le_refl _, ?_⟩
      · have hBounds := hIn.bounds
        exact ⟨hCounters.1.symm ▸ hBounds.generation, hCounters.1.symm ▸ hBounds.generationFits,
          hCounters.2.symm ▸ hBounds.epoch,
          hCounters.2.symm ▸ hBounds.epochFits⟩
      · rw [← hCounters.1, ← hCounters.2] at hMirrors
        exact hMirrors
    rcases hHow with ⟨hUnasked, hPeer, rfl⟩ | ⟨hKey, hOpen, hTook⟩
    · refine ⟨state, .refl _ _, hFrom ?_ ?_⟩
      · rcases hIn.serves with ⟨x, hLoop⟩
        exact ⟨x, by rw [hPeer, hLoop]⟩
      · rw [apply_physical_unasked hUnasked]
        exact hIn.mirrors.later (Nat.le_succ _)
    · rcases hUsual.raw hKey with ⟨hCode, hLow, hHigh⟩
      rcases hIn.serves with ⟨x, hLoop⟩
      rcases hTook with ⟨_, _, c, hSame, hTurn, hPeer⟩
      rw [hLoop] at hSame
      cases hSame
      refine ⟨c.state, hTurn.elsewhere, hFrom ⟨c.sink, by rw [hPeer]⟩ ?_⟩
      have hLive : (s.nextRequest .event i.raw).operation ≠
          .deviceRetire := by
        simp [nextRequest, message]
      have hMirrors := hTurn.mirrors hLive
      have hKeys := Joined.keysOf_accept hIn sink x .event i.raw
      rw [if_pos rfl] at hKeys
      have hDropped := not_dropped_of_key hKey
      rw [rolledBack_of_not_dropped hDropped,
        apply_physical hDecision hKey hOpen hCode hLow hHigh]
      rw [show (s.nextRequest .event i.raw).generation = s.proxy.generation from rfl,
        hKeys] at hMirrors
      simpa [nextKeys, nextRequest, message, hKey] using hMirrors
  rcases hSettled with ⟨state', hElsewhere, hIn'⟩
  refine ⟨state', hElsewhere, hIn'.serves.emitted hEmit, ?_⟩
  rintro rfl
  exact hIn'.emitted hEmit

/- Every usual event keeps both sides in step. -/
theorem InStep.handle (hIn : s.InStep state) (hUsual : i.Usual)
    (hHandle : s.handle (clientSocket sink) i = (s', result)) :
    ∃ state', state.Elsewhere state' s.proxy.generation ∧ s'.Serves state' ∧
        (result = .ok () → s'.InStep state') := by
  unfold Session.handle at hHandle
  split at hHandle
  · cases hHandle
    exact ⟨state, .refl _ _, hIn.serves, fun hOk => by cases hOk⟩
  split_ifs at hHandle
  · exact hIn.resynchronise hUsual hHandle
  · exact hIn.settle hUsual hHandle

end Session

-----
-- Coupled Services

namespace Service

open Session

variable {w w' : Service (ClientEnd S)} {s : Session (ClientEnd S)}
variable {state state' : ClientState} {proxy : DeviceProxy}

/- The client records exactly the devices of the service, each as its proxy does. -/
structure CoupledTo (w : Service (ClientEnd S)) (state : ClientState) : Prop where
  issued : w.Issued
  fits : w.generation < 2 ^ 64
  highest : state.highestGeneration ≤ w.generation
  inStep : ∀ held ∈ w.proxies, (w.session held.2).InStep state
  live : ∀ g, state.isLive g = true → ∃ held ∈ w.proxies, held.2.generation = g
  paired : ∀ g, state.isLive g = false → state.sequences.get? g = none

/- The client serves, and is coupled. -/
def Coupled (w : Service (ClientEnd S)) : Prop :=
  ∃ state x, w.peer.loop = some (state, x) ∧ w.CoupledTo state

theorem CoupledTo.room (hCoupled : w.CoupledTo state) (hBound : w.proxies.length < 64) :
    state.epochs.keys.card < 128 := by
  have hSubset : state.epochs.keys ⊆ (w.proxies.map (·.2.generation)).toFinset := by
    intro g hMem
    rw [Dict.mem_keys_iff] at hMem
    rcases hCoupled.live g hMem with ⟨held, hHeld, rfl⟩
    rw [List.mem_toFinset]
    exact List.mem_map.mpr ⟨held, hHeld, rfl⟩
  have hCard := Finset.card_le_card hSubset
  have hLength := (w.proxies.map (·.2.generation)).toFinset_card_le
  rw [List.length_map] at hLength
  omega

theorem InStep.other {other : DeviceProxy} {generation : Nat} {last : Service (ClientEnd S)}
    (hIn : (w.session other).InStep state) (hElsewhere : state.Elsewhere state' generation)
    (hOther : other.generation ≠ generation) (hServes : (last.session other).Serves state') :
    (last.session other).InStep state' :=
  ⟨hServes, hIn.bounds, le_refl _, hIn.mirrors.elsewhere hElsewhere hOther⟩

theorem CoupledTo.others {front back : List Held} {identity : DeviceIdentity}
    (hCoupled : w.CoupledTo state) (hProxies : w.proxies = front ++ (identity, proxy) :: back)
    (hElsewhere : state.Elsewhere state' proxy.generation) :
    (∀ held ∈ front ++ back, (w.session held.2).InStep state ∧
        held.2.generation ≠ proxy.generation) ∧
      state'.highestGeneration ≤ w.generation ∧
      (∀ g, g ≠ proxy.generation → state'.isLive g = true →
        ∃ held ∈ front ++ back, held.2.generation = g) ∧
      (∀ g, g ≠ proxy.generation → state'.isLive g = false → state'.sequences.get? g = none) := by
  rcases hCoupled.issued.held hProxies with ⟨_, hGeneration, hOthers⟩
  refine ⟨?_, ?_, ?_, ?_⟩
  · intro held hHeld
    rcases hOthers held hHeld with ⟨hMem, hOther⟩
    exact ⟨hCoupled.inStep held hMem, hOther⟩
  · have hHighest := hElsewhere.highest
    have hBefore := hCoupled.highest
    omega
  · intro g hOther hLive
    rw [ClientState.isLive, hElsewhere.epochs g hOther] at hLive
    rcases hCoupled.live g hLive with ⟨held, hHeld, rfl⟩
    rw [hProxies] at hHeld
    rcases List.mem_cons.mp (List.perm_middle.mem_iff.mp hHeld) with rfl | hRest
    · exact absurd rfl hOther
    · exact ⟨held, hRest, rfl⟩
  · intro g hOther hDead
    rw [ClientState.isLive, hElsewhere.epochs g hOther] at hDead
    rw [hElsewhere.sequences g hOther]
    exact hCoupled.paired g hDead

theorem Joined.bypassed {epoch : Nat} {keys : Finset Nat} (hJoined : s.Joined state epoch keys)
    (cleanup : Except IoError Unit) : (s.bypass cleanup).Joined state epoch keys := by
  have hOutputs := s.bypass_outputs cleanup
  rcases hJoined.serves with ⟨x, hLoop⟩
  have hBounds := hJoined.bounds
  refine ⟨⟨x, by rw [hOutputs.peer, hLoop]⟩, ?_, ?_, ?_⟩
  · exact ⟨hOutputs.generation.symm ▸ hBounds.generation,
      hOutputs.generation.symm ▸ hBounds.generationFits,
      hOutputs.epoch.symm ▸ hBounds.epoch,
      hOutputs.epoch.symm ▸ hBounds.epochFits⟩
  · rw [hOutputs.epoch]
    exact hJoined.onwards
  · rw [hOutputs.generation, hOutputs.sequence]
    exact hJoined.mirrors

theorem reports_retire : Reports .deviceRetire .default :=
  reports_default rfl (by decide) (by decide)

theorem reports_reset : Reports .deviceReset .default := reports_default rfl (by decide) (by decide)

/- A service around the device that was at the socket. -/
theorem coupled_around {front back : List Held} {identity : DeviceIdentity} {x : S}
    (hLoop : w.peer.loop = some (state, x))
    (hProxies : w.proxies = front ++ (identity, proxy) :: back) (hIssued : w.Issued)
    (hFits : w.generation < 2 ^ 64) (hHighest : state.highestGeneration ≤ w.generation)
    (hIn : (w.session proxy).InStep state)
    (hOthers : ∀ held ∈ front ++ back, (w.session held.2).InStep state)
    (hLive : ∀ g, g ≠ proxy.generation → state.isLive g = true →
        ∃ held ∈ front ++ back, held.2.generation = g)
    (hPaired : ∀ g, g ≠ proxy.generation → state.isLive g = false → state.sequences.get? g = none) :
    w.Coupled := by
  have hMiddle (held : Held) : held ∈ w.proxies ↔
      held = (identity, proxy) ∨ held ∈ front ++ back := by
    rw [hProxies, List.perm_middle.mem_iff, List.mem_cons]
  refine ⟨state, x, hLoop, hIssued, hFits, hHighest, ?_, ?_, ?_⟩
  · intro held hHeld
    rcases (hMiddle held).mp hHeld with rfl | hRest
    · exact hIn
    · exact hOthers held hRest
  · intro g hAlive
    by_cases hSame : g = proxy.generation
    · exact ⟨(identity, proxy), (hMiddle _).mpr (.inl rfl), hSame.symm⟩
    · rcases hLive g hSame hAlive with ⟨held, hRest, hIs⟩
      exact ⟨held, (hMiddle held).mpr (.inr hRest), hIs⟩
  · intro g hDead
    by_cases hSame : g = proxy.generation
    · have hEpoch : state.epochs.get? proxy.generation = _ := hIn.mirrors.epoch
      rw [ClientState.isLive, hSame, hEpoch] at hDead
      cases hDead
    · exact hPaired g hSame hDead

theorem CoupledTo.admits {result : Except IoError Unit} {x : S} (hCoupled : w.CoupledTo state)
    (hLoop : w.peer.loop = some (state, x)) (hBound : w.proxies.length < 64)
    (hRoom : w.generation + 1 < 2 ^ 64)
    (hTold : (w.session (activeProxy (w.generation + 1))).resetClient (clientSocket sink) =
        (s, result)) :
    ∃ state', state.Elsewhere state' (w.generation + 1) ∧ s.Serves state' ∧
        (result = .ok () → s.InStep state') := by
  let fresh := w.session (activeProxy (w.generation + 1))
  have hDead : state.isLive (w.generation + 1) = false := by
    by_contra hAlive
    rcases hCoupled.live _ (by simpa using hAlive) with ⟨held, hHeld, hIs⟩
    have hOlder := hCoupled.issued.numbered held hHeld
    omega
  have hNew : state.epochs.get? (w.generation + 1) = none := by
    simpa [ClientState.isLive] using hDead
  have hBounds : fresh.proxy.InBounds := ⟨Nat.succ_pos _, hRoom, Nat.one_pos,
      Nat.one_lt_two_pow (by decide)⟩
  have hFresh : state.stale (fresh.nextRequest .deviceReset .default) =
      false :=
    ClientState.not_stale_of_new (Nat.lt_succ_of_le hCoupled.highest) Nat.one_pos
      Nat.one_pos hNew (hCoupled.paired _ hDead)
      (hCoupled.room hBound)
  rcases control_took hLoop (fun hSequence =>
        ⟨reports_reset.ready hBounds hSequence, hFresh⟩)
      reports_reset.other hTold with
    ⟨rfl, error, rfl⟩ | ⟨_, hProxy, hTook⟩
  · exact ⟨state, .refl _ _, ⟨x, hLoop⟩, fun hOk => by cases hOk⟩
  rcases hTook with ⟨_, _, c, hSame, hTurn, hPeer⟩
  have hFrom : fresh.peer.loop = some (state, x) := hLoop
  rw [hFrom] at hSame
  cases hSame
  have hServes : s.Serves c.state := ⟨c.sink, by rw [hPeer]⟩
  refine ⟨c.state, hTurn.elsewhere, hServes, ?_⟩
  intro _
  have hLive : (fresh.nextRequest .deviceReset .default).operation ≠
      .deviceRetire := by
    simp [nextRequest, message]
  have hMirrors := hTurn.mirrors hLive
  refine ⟨hServes, ?_, le_refl _, ?_⟩
  · rw [hProxy]
    exact ⟨hBounds.generation, hBounds.generationFits, hBounds.epoch, hBounds.epochFits⟩
  · rw [hProxy]
    exact hMirrors

theorem Move.coupled (hMove : Move (clientSocket sink) Sees w w') (hCoupled : w.Coupled) :
    w'.Coupled := by
  have hIssued' : w'.Issued := by
    rcases hCoupled with ⟨_, _, _, hTo⟩
    exact hMove.issued hTo.issued
  rcases hCoupled with ⟨state, x, hLoop, hCoupled⟩
  cases hMove with
  | retire front back identity proxy cleanup s hProxies hTold =>
    have hMem : (identity, proxy) ∈ w.proxies := by simp [hProxies]
    have hJoined := Joined.bypassed (hCoupled.inStep _ hMem) cleanup
    have hOutputs := (w.session proxy).bypass_outputs cleanup
    rcases hJoined.control reports_retire hTold with ⟨_, _, hError⟩ |
      ⟨_, _, state', hElsewhere, ⟨y, hServes⟩, _, hGone⟩
    · cases hError
    rw [hOutputs.generation] at hElsewhere hGone
    have hEpoch : state'.epochs.get? proxy.generation = none := (hGone rfl).1
    rcases hCoupled.others hProxies hElsewhere with ⟨hOthers, hHighest, hLive, hPaired⟩
    have hServes' : (s.bypass cleanup).peer.loop = some (state', y) := by
      rw [(s.bypass_outputs cleanup).peer, hServes]
    refine ⟨state', y, hServes', hIssued', hCoupled.fits, hHighest, ?_, ?_, ?_⟩
    · intro held hHeld
      rcases hOthers held hHeld with ⟨hIn, hOther⟩
      exact InStep.other hIn hElsewhere hOther ⟨y, hServes'⟩
    · intro g hAlive
      refine hLive g ?_ hAlive
      rintro rfl
      rw [ClientState.isLive, hEpoch] at hAlive
      cases hAlive
    · intro g hDead
      by_cases hSame : g = proxy.generation
      · rw [hSame]
        exact (hGone rfl).2
      · exact hPaired g hSame hDead
  | announce front back identity s hProxies _ hBound hRoom hTold =>
    rcases hCoupled.admits hLoop hBound hRoom hTold with ⟨state', hElsewhere, ⟨y, hServes⟩, hDone⟩
    have hGeneration : s.proxy.generation = w.generation + 1 := (control_advances hTold).generation
    have hOlder (held : Held) (hHeld : held ∈ w.proxies) :
        held.2.generation ≠ w.generation + 1 := by
      have hLe := hCoupled.issued.numbered held hHeld
      omega
    refine coupled_around hServes rfl hIssued' hRoom ?_ (hDone rfl) ?_ ?_ ?_
    · have hHighest := hElsewhere.highest
      have hBefore := hCoupled.highest
      change state'.highestGeneration ≤ w.generation + 1
      omega
    · intro held hHeld
      have hMem : held ∈ w.proxies := hProxies ▸ hHeld
      exact InStep.other (hCoupled.inStep held hMem) hElsewhere (hOlder held hMem) ⟨y, hServes⟩
    · intro g hOther hAlive
      rw [hGeneration] at hOther
      rw [ClientState.isLive, hElsewhere.epochs g hOther] at hAlive
      rw [← hProxies]
      exact hCoupled.live g hAlive
    · intro g hOther hDead
      rw [hGeneration] at hOther
      rw [ClientState.isLive, hElsewhere.epochs g hOther] at hDead
      rw [hElsewhere.sequences g hOther]
      exact hCoupled.paired g hDead
  | handle front back identity proxy i s hProxies hInput hHandled =>
      have hMem : (identity, proxy) ∈ w.proxies := by simp [hProxies]
      rcases InStep.handle (hCoupled.inStep _ hMem) hInput hHandled with
        ⟨state', hElsewhere, ⟨y, hServes⟩, hDone⟩
      have hGeneration : s.proxy.generation = proxy.generation :=
        (handle_advances hHandled).generation
      rcases hCoupled.others hProxies hElsewhere with ⟨hOthers, hHighest, hLive, hPaired⟩
      rw [← hGeneration] at hLive hPaired
      refine coupled_around hServes rfl hIssued' hCoupled.fits hHighest (hDone rfl) ?_ hLive hPaired
      intro held hHeld
      rcases hOthers held hHeld with ⟨hOld, hOther⟩
      exact InStep.other hOld hElsewhere hOther ⟨y, hServes⟩

/- The call that fails a round does not fail the client. -/
theorem Fails.serves (hFails : Fails (clientSocket sink) Sees w w')
    (hCoupled : w.Coupled) : w'.peer.loop ≠ none := by
  rcases hCoupled with ⟨state, x, hLoop, hCoupled⟩
  have hSome {s : Session (ClientEnd S)} (hServes : ∃ state', s.Serves state') :
      s.peer.loop ≠ none := by
    rcases hServes with ⟨_, _, hServes⟩
    simp [hServes]
  cases hFails with
  | quiet => simp [hLoop]
  | retire front back identity proxy cleanup s error hProxies hTold =>
      have hMem : (identity, proxy) ∈ w.proxies := by simp [hProxies]
      have hJoined := Joined.bypassed (hCoupled.inStep _ hMem) cleanup
      rcases hJoined.control reports_retire hTold with ⟨rfl, _⟩ | ⟨_, _, state', _, hServes, _⟩
      · exact hSome ⟨state, hJoined.serves⟩
      · exact hSome ⟨state', hServes⟩
  | announce s error hBound hRoom hTold =>
    rcases hCoupled.admits hLoop hBound hRoom hTold with ⟨state', _, hServes, _⟩
    exact hSome ⟨state', hServes⟩
  | handle front back identity proxy i s error hProxies hInput hHandled =>
      have hMem : (identity, proxy) ∈ w.proxies := by simp [hProxies]
      rcases InStep.handle (hCoupled.inStep _ hMem) hInput hHandled with ⟨state', _, hServes, _⟩
      exact hSome ⟨state', hServes⟩

theorem Path.coupled (hPath : Path (clientSocket sink) Sees w w') (hCoupled : w.Coupled) :
    w'.Coupled := by
  induction hPath with
  | refl => exact hCoupled
  | tail _ hMove ih => exact hMove.coupled ih

/- A coupled service agrees with its client on every device. -/
theorem Coupled.agrees (hCoupled : w.Coupled) :
    ∃ state x, w.peer.loop = some (state, x) ∧ ∀ held ∈ w.proxies, state.keysOf held.2.generation =
            held.2.state.physical := by
  rcases hCoupled with ⟨state, x, hLoop, hCoupled⟩
  refine ⟨state, x, hLoop, ?_⟩
  intro held hHeld
  exact (hCoupled.inStep held hHeld).mirrors.keys

theorem start_coupled (x : S) (foci : List (Option String)) :
    (start ⟨some (.default, x), foci⟩ : Service (ClientEnd S)).Coupled := by
  refine ⟨.default, x, rfl, (start_issued _).2, Nat.two_pow_pos 64, le_refl _, ?_, ?_, ?_⟩
  · intro held hHeld
    cases hHeld
  · intro g hLive
    cases hLive
  · intro g _
    rfl

variable {x : S} {foci : List (Option String)} {trace : List (Entry (ClientEnd S))}
variable {last : Service (ClientEnd S)}

theorem run_coupled
    (hRun : Run (step (clientSocket sink)) (start ⟨some (.default, x), foci⟩) trace last)
    (hTrace : ∀ e ∈ trace, e.out = .ok () ∧ e.op.Meets Sees) :
    last.Paths ∧ last.Coupled := by
  refine Run.invariant_of (P := fun w => w.Paths ∧ w.Coupled) (Q := fun e =>
        e.out = .ok () ∧ e.op.Meets Sees)
      ⟨(start_issued _).1, start_coupled x foci⟩ ?_ hRun hTrace
  intro w r w' result hBefore hUsual hStep
  rcases hUsual with ⟨rfl, hUsual⟩
  have hPath : Path (clientSocket sink) Sees w w' :=
    (step_ends hBefore.1 hUsual hStep).1
  exact ⟨hPath.paths hBefore.1, Path.coupled hPath hBefore.2⟩

/-
  After rounds without failure, and at every point of the next one, the client's record of
  each device is that of its proxy. The client does not fail, even where the next round
  does.
-/
theorem physical_agreement
    (hRun : Run (step (clientSocket sink)) (start ⟨some (.default, x), foci⟩) trace last)
    (hTrace : ∀ e ∈ trace, e.out = .ok () ∧ e.op.Meets Sees) :
    (∀ r w result, r.Meets Sees → step (clientSocket sink) last r = some (w, result) →
      w.peer.loop ≠ none) ∧
    (∀ w, Path (clientSocket sink) Sees last w → ∃ state y,
        w.peer.loop = some (state, y) ∧ ∀ held ∈ w.proxies, state.keysOf held.2.generation =
              held.2.state.physical) := by
  rcases run_coupled hRun hTrace with ⟨hPaths, hCoupled⟩
  refine ⟨?_, ?_⟩
  · intro r w result hUsual hStep
    have hEnds := (step_ends hPaths hUsual hStep).1
    rcases result with _ | _
    · rcases hEnds with ⟨mid, failed, hPath, hFails, hCleans⟩
      rw [hCleans.peer]
      exact hFails.serves (Path.coupled hPath hCoupled)
    · rcases (Path.coupled hEnds hCoupled).agrees with ⟨_, _, hLoop, _⟩
      simp [hLoop]
  · intro w hPath
    exact (Path.coupled hPath hCoupled).agrees

theorem pressedMeanwhile_usual : ∀ i ∈ pressedMeanwhile, i.Usual := by
  have hEvents : ∀ i ∈ pressedMeanwhile, i.raw.isKey = true → i.raw.code ≤ maxKey ∧
      0 ≤ i.raw.value ∧ i.raw.value ≤ 2 := by
    decide
  have hKeys : ∀ i ∈ pressedMeanwhile, i.keys = .ok ∅ ∨ i.keys = .ok {31} := by decide
  intro i hMem
  refine ⟨hEvents i hMem, ?_⟩
  intro keys hRead code hCode
  rcases hKeys i hMem with hIs | hIs
  · cases hIs.symm.trans hRead
    cases hCode
  · cases hIs.symm.trans hRead
    rw [Finset.mem_singleton.mp hCode]
    decide

/- A press, and another one while events are lost. -/
theorem physical_agreement_pressedMeanwhile :
    let first :=
      start (⟨some (.default, ()), []⟩ : ClientEnd Unit)
    let rounds := [plainRound pressedMeanwhile]
    let last := lastOf (step (clientSocket passing)) first rounds
    last.proxies.map (·.2.state.physical) = [{31}] ∧ ∃ state y, last.peer.loop = some (state, y) ∧
          ∀ held ∈ last.proxies, state.keysOf held.2.generation =
              held.2.state.physical := by
  have hEvaluated :
      let first := start (⟨some (.default, ()), []⟩ : ClientEnd Unit)
      let rounds := [plainRound pressedMeanwhile]
      (exec (step (clientSocket passing)) first rounds).isSome = true ∧ (∀ e ∈
            entriesOf (step (clientSocket passing)) first rounds,
          e.out = .ok ()) ∧
        (lastOf (step (clientSocket passing)) first
              rounds).proxies.map (·.2.state.physical) =
          [{31}] := by
    decide +kernel
  refine ⟨hEvaluated.2.2, ?_⟩
  refine (physical_agreement (.of_isSome hEvaluated.1) ?_).2 _
    Relation.ReflTransGen.refl
  intro e hEntry
  refine ⟨hEvaluated.2.1 e hEntry, ?_⟩
  have hOp := op_mem_of_entriesOf hEntry
  rw [List.mem_singleton.mp hOp]
  intro identity events hFetched i hMem proxy
  cases hFetched
  exact pressedMeanwhile_usual i hMem

end Service

end Sledge.Broker
