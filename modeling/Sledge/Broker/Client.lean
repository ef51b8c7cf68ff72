import Sledge.Lib.History
import Sledge.Broker.State
import Sledge.Daemon.Sink
import Sledge.Linux.Keymap

/-
  The daemon's end of the broker socket
  (`packages/linux/src/backend.rs`).

  The client validates every request, keeps the physical keys
  of each device, and hands key events to the sink.  Its notes
  record the requests it accepted and the calls to the sink.

  Main results:
    * `Client.serve_turns`
    * `Client.validate_rejected`
    * `Client.stream_validated`
-/

-----
-- Client State

namespace Sledge.Broker

open Core Daemon Transition
open Linux (IoError fromEvdev modifier)
open Ordered

structure ClientState where
  physical : Dict Nat (Finset Nat)
  epochs : Dict Nat Nat
  sequences : Dict Nat Nat
  highestGeneration : Nat

namespace ClientState

def default : ClientState where
  physical := ∅
  epochs := ∅
  sequences := ∅
  highestGeneration := 0

def retire (s : ClientState) (generation : Nat) : ClientState :=
  { s with
    physical := s.physical.erase generation
    epochs := s.epochs.erase generation
    sequences := s.sequences.erase generation }

/- The keys of a device; none are recorded for most. -/
def keysOf (s : ClientState) (generation : Nat) : Finset Nat := (s.physical.get? generation).getD ∅

def isLive (s : ClientState) (generation : Nat) : Bool := (s.epochs.get? generation).isSome

/- The request does not continue its device's stream. -/
def stale (s : ClientState) (request : Message) : Bool :=
  request.generation == 0 || request.epoch == 0 || request.sequence == 0 ||
    (s.sequences.get? request.generation).any (fun last => decide (request.sequence ≤ last)) ||
    (s.epochs.get? request.generation).any (fun epoch => decide (request.epoch < epoch)) ||
    (!s.isLive request.generation && decide (request.generation ≤ s.highestGeneration)) ||
    (!s.isLive request.generation && decide (128 ≤ s.epochs.keys.card))

/- The request continues its device under another epoch. -/
def changes (s : ClientState) (request : Message) : Bool :=
  (s.epochs.get? request.generation).any (fun previous => previous != request.epoch)

end ClientState

/- The sink of the daemon. -/
structure EventSink (S : Type) where
  onDeviceEvent : S → DeviceId → KeyEvent → Option String → S × BackendVerdict
  onDeviceReset : S → DeviceId → S

inductive Note where
  | accepted (request : Message)
  | reset (generation : Nat)
  | event (generation : Nat) (event : KeyEvent)
deriving DecidableEq

structure Client (S : Type) where
  state : ClientState
  sink : S
  notes : List Note

/- A frame of the broker, and what its handling meets. -/
structure Arrival where
  frame : List UInt8
  focus : Option String
  written : Except IoError Unit

def backendIo (error : IoError) : BackendError := .other ("Linux broker: " ++ error.message)

def Operation.isRequest : Operation → Bool
  | .event | .deviceReset | .snapshotKey | .deviceRetire => true
  | _ => false

def modifiersOf (keys : Finset Nat) : Modifiers :=
  (ascending keys).foldl (fun mods code => mods.union (modifier code)) .empty

namespace Client

variable {S : Type}

def note (c : Client S) (entry : Note) : Client S := { c with notes := c.notes ++ [entry] }

def reset (sink : EventSink S) (c : Client S) (generation : Nat) : Client S :=
  { c with sink := sink.onDeviceReset c.sink ⟨generation⟩ }.note (.reset generation)

/- Forget the keys of a device. -/
def forget (c : Client S) (generation : Nat) : Client S :=
  { c with
    state := { c.state with physical := c.state.physical.erase generation } }

def retire (c : Client S) (generation : Nat) : Client S :=
  { c with state := c.state.retire generation }

/- Record the keys of a device. -/
def hold (c : Client S) (generation : Nat) (keys : Finset Nat) : Client S :=
  { c with
    state := { c.state with physical := c.state.physical.insert generation keys } }

/- Continue the stream of a device by a request. -/
def accept (sink : EventSink S) (c : Client S) (request : Message) : Client S :=
  let s := c.state
  let accepted :=
    { c with
      state :=
        { s with
          highestGeneration := max s.highestGeneration request.generation
          sequences := s.sequences.insert request.generation request.sequence
          epochs := s.epochs.insert request.generation request.epoch } }.note (.accepted request)
  if s.changes request then
    (accepted.forget request.generation).reset sink request.generation
  else accepted

def validate (sink : EventSink S) (c : Client S) (request : Message) :
    Client S × Except BackendError Unit :=
  if ¬ request.operation.isRequest then
    (c, .error (.other "unexpected broker operation"))
  else if c.state.stale request then
    (c, .error (.other "invalid or stale broker generation/epoch/sequence"))
  else (c.accept sink request, .ok ())

/- Hand a press or release to the sink. -/
def deliver (sink : EventSink S) (c : Client S) (request : Message) (code : KeyCode)
    (focus : Option String) : Client S × Operation :=
  let raw := request.event
  let event : KeyEvent :=
    { code := code
      kind := if ¬ (modifier raw.code).isEmpty then .modifiersChanged
        else if raw.value = 0 then .keyUp
        else .keyDown
      mods := modifiersOf (c.state.keysOf request.generation) }
  let (after, verdict) := sink.onDeviceEvent c.sink ⟨request.generation⟩ event focus
  ({ c with sink := after }.note (.event request.generation event),
    if verdict = .swallow then .swallow else .pass)

/- The physical keys after a press or release. -/
def pressed (keys : Finset Nat) (raw : RawEvent) : Finset Nat :=
  if raw.value = 0 then keys.erase raw.code
  else insert raw.code keys

def dispatch (sink : EventSink S) (c : Client S) (request : Message) (focus : Option String) :
    Client S × Operation :=
  let raw := request.event
  if raw.isKey ∧ raw.value = 2 then (c, .pass)
  else if raw.isKey ∧ 0 ≤ raw.value ∧ raw.value ≤ 2 then
    let keys := c.state.keysOf request.generation
    let c := c.hold request.generation (pressed keys raw)
    match fromEvdev raw.code with
    | none => (c, .pass)
    | some code => c.deliver sink request code focus
  else (c, .pass)

/- The snapshot names no key the broker can hold. -/
def badSnapshot (raw : RawEvent) : Bool :=
  raw.eventType != 1 || raw.value != 1 || decide (maxKey < raw.code)

/- What an accepted request does, and the reply to it. -/
def handle (sink : EventSink S) (c : Client S) (request : Message) (focus : Option String) :
    Client S × Except BackendError Operation :=
  if request.operation = .deviceReset ∨ request.operation = .deviceRetire then
    let c := c.forget request.generation
    let c := if request.operation = .deviceRetire then
        c.retire request.generation
      else c
    (c.reset sink request.generation, .ok .pass)
  else if request.operation = .snapshotKey then
    if badSnapshot request.event then
      (c, .error (.other "invalid broker key snapshot"))
    else
      let keys := c.state.keysOf request.generation
      (c.hold request.generation (insert request.event.code keys), .ok .pass)
  else
    let (c, operation) := c.dispatch sink request focus
    (c, .ok operation)

/- One turn of the loop, up to the frame that answers. -/
def serve (sink : EventSink S) (c : Client S) (a : Arrival) :
    Client S × Except BackendError (List UInt8) :=
  match Message.read a.frame with
  | .error error => (c, .error (backendIo error))
  | .ok request =>
    match c.validate sink request with
    | (c, .error error) => (c, .error error)
    | (c, .ok ()) =>
      match c.handle sink request a.focus with
      | (c, .error error) => (c, .error error)
      | (c, .ok operation) =>
        match a.written with
        | .error error => (c, .error (backendIo error))
        | .ok () =>
          (c, .ok { request with operation := operation }.write)

/- The loop serves until a turn fails, and then ends. -/
def step (sink : EventSink S) : Option (ClientState × S) → Arrival →
      Option (Option (ClientState × S) × List Note)
  | none, _ => none
  | some (state, s), a =>
    match serve sink ⟨state, s, []⟩ a with
    | (c, .ok _) => some (some (c.state, c.sink), c.notes)
    | (c, .error _) => some (none, c.notes)

end Client

-----
-- Served Requests

namespace Client

variable {S : Type} {sink : EventSink S} {c c' : Client S} {request : Message}
variable {focus : Option String} {a : Arrival}

@[simp]
theorem accept_epochs :
    (c.accept sink request).state.epochs = c.state.epochs.insert request.generation request.epoch := by
  unfold accept
  dsimp only
  split_ifs <;> rfl

@[simp]
theorem accept_sequences :
    (c.accept sink request).state.sequences = c.state.sequences.insert request.generation
        request.sequence := by
  unfold accept
  dsimp only
  split_ifs <;> rfl

@[simp]
theorem accept_highestGeneration : (c.accept sink request).state.highestGeneration =
      max c.state.highestGeneration request.generation := by
  unfold accept
  dsimp only
  split_ifs <;> rfl

theorem accept_physical : (c.accept sink request).state.physical = if c.state.changes request then
        c.state.physical.erase request.generation
      else c.state.physical := by
  unfold accept
  dsimp only
  split_ifs <;> rfl

theorem accept_notes :
    (c.accept sink request).notes = c.notes ++ (.accepted request :: if c.state.changes request then
            [.reset request.generation]
          else []) := by
  unfold accept
  dsimp only
  split_ifs
  · exact List.append_assoc _ _ _
  · rfl

theorem validate_rejected {error : BackendError}
    (hRejected : c.validate sink request = (c', .error error)) : c' = c := by
  unfold validate at hRejected
  split_ifs at hRejected <;> cases hRejected <;> rfl

theorem validate_ok (hOk : c.validate sink request = (c', .ok ())) :
    request.operation.isRequest = true ∧ c.state.stale request = false ∧ c' = c.accept sink request := by
  unfold validate at hOk
  split_ifs at hOk with hRequest hStale
  · cases hOk
  · cases hOk
    exact ⟨hRequest, by simpa using hStale, rfl⟩
  · cases hOk

/- The ways an accepted request is handled. -/
inductive Turn (sink : EventSink S) (c : Client S) (request : Message) (focus : Option String) :
    Client S → Except BackendError Operation → Prop where
  | reset (hOperation : request.operation = .deviceReset) : Turn sink c request focus
        ((c.forget request.generation).reset sink request.generation)
        (.ok .pass)
  | retired (hOperation : request.operation = .deviceRetire) : Turn sink c request focus
        (((c.forget request.generation).retire request.generation).reset sink request.generation)
        (.ok .pass)
  | refused (error : BackendError) (hOperation : request.operation = .snapshotKey)
      (hBad : badSnapshot request.event = true) :
      Turn sink c request focus c (.error error)
  | snapshot (hOperation : request.operation = .snapshotKey)
      (hGood : badSnapshot request.event = false) :
      Turn sink c request focus (c.hold request.generation (insert request.event.code
            (c.state.keysOf request.generation)))
        (.ok .pass)
  | idle (hOperation : request.operation = .event) (hIdle : ¬ (request.event.isKey = true ∧
          (request.event.value = 0 ∨ request.event.value = 1))) :
      Turn sink c request focus c (.ok .pass)
  | unmapped (hOperation : request.operation = .event) (hKey : request.event.isKey = true) (hValue :
        request.event.value = 0 ∨ request.event.value = 1)
      (hCode : fromEvdev request.event.code = none) :
      Turn sink c request focus (c.hold request.generation
          (pressed (c.state.keysOf request.generation) request.event))
        (.ok .pass)
  | delivered (code : KeyCode) (held : Client S) (hOperation : request.operation = .event)
      (hKey : request.event.isKey = true)
      (hValue : request.event.value = 0 ∨ request.event.value = 1)
      (hCode : fromEvdev request.event.code = some code)
      (hHeld : held = c.hold request.generation (pressed (c.state.keysOf request.generation)
              request.event)) :
      Turn sink c request focus (held.deliver sink request code focus).1
        (.ok (held.deliver sink request code focus).2)

theorem dispatch_turns (hOperation : request.operation = .event) :
    Turn sink c request focus (c.dispatch sink request focus).1
      (.ok (c.dispatch sink request focus).2) := by
  unfold dispatch
  dsimp only
  split_ifs with hRepeat hKnown
  · refine .idle hOperation ?_
    rintro ⟨_, hValue⟩
    omega
  · have hValue : request.event.value = 0 ∨ request.event.value = 1 := by
      rcases hKnown with ⟨hKey, hLow, hHigh⟩
      have hOther : request.event.value ≠ 2 := fun hTwo => hRepeat ⟨hKey, hTwo⟩
      omega
    split
    · rename_i hCode
      exact .unmapped hOperation hKnown.1 hValue hCode
    · rename_i code hCode
      exact .delivered code _ hOperation hKnown.1 hValue hCode rfl
  · refine .idle hOperation ?_
    rintro ⟨hKey, hValue⟩
    exact hKnown ⟨hKey, by omega⟩

theorem handle_turns (sink : EventSink S) (c : Client S) (focus : Option String)
    (hRequest : request.operation.isRequest = true) :
    Turn sink c request focus (c.handle sink request focus).1 (c.handle sink request focus).2 := by
  unfold handle
  by_cases hRetire : request.operation = .deviceRetire
  · simp only [hRetire, or_true, if_true]
    exact .retired hRetire
  by_cases hReset : request.operation = .deviceReset
  · rw [if_pos (.inl hReset)]
    simp only [if_neg hRetire]
    exact .reset hReset
  rw [if_neg (by tauto)]
  by_cases hSnapshot : request.operation = .snapshotKey
  · rw [if_pos hSnapshot]
    split_ifs with hBad
    · exact .refused _ hSnapshot hBad
    · exact .snapshot hSnapshot (by simpa using hBad)
  · rw [if_neg hSnapshot]
    refine dispatch_turns ?_
    cases hOperation : request.operation <;>
      simp_all [Operation.isRequest]

/- A frame is rejected, or its request takes its turn. -/
theorem serve_turns {result : Except BackendError (List UInt8)}
    (hServe : c.serve sink a = (c', result)) :
    (c' = c ∧ ∃ error, result = .error error) ∨ ∃ request answer,
        Message.read a.frame = .ok request ∧ request.operation.isRequest = true ∧
          c.state.stale request = false ∧
          Turn sink (c.accept sink request) request a.focus c' answer ∧
          (∀ frame, result = .ok frame → ∃ operation, answer = .ok operation ∧ frame =
                { request with operation := operation }.write) := by
  unfold serve at hServe
  split at hServe
  · cases hServe
    exact .inl ⟨rfl, _, rfl⟩
  rename_i request hRead
  split at hServe
  · rename_i rejected error hRejected
    cases hServe
    exact .inl ⟨validate_rejected hRejected, _, rfl⟩
  rename_i accepted hAccepted
  rcases validate_ok hAccepted with ⟨hRequest, hFresh, rfl⟩
  have hTurn := handle_turns sink (c.accept sink request) a.focus hRequest
  refine .inr ⟨request, ?_⟩
  split at hServe
  · rename_i handled error hHandled
    cases hServe
    rw [hHandled] at hTurn
    exact ⟨_, hRead, hRequest, hFresh, hTurn, by simp⟩
  rename_i handled operation hHandled
  rw [hHandled] at hTurn
  split at hServe
  · cases hServe
    exact ⟨_, hRead, hRequest, hFresh, hTurn, by simp⟩
  · cases hServe
    refine ⟨_, hRead, hRequest, hFresh, hTurn, ?_⟩
    intro frame hFrame
    cases hFrame
    exact ⟨operation, rfl, rfl⟩

end Client

-----
-- Validated Streams

namespace Note

def accepted? : Note → Option Message
  | .accepted request => some request
  | _ => none

end Note

/- The requests that were accepted, in order. -/
def requests (notes : List Note) : List Message := notes.filterMap Note.accepted?

theorem requests_append (notes rest : List Note) :
    requests (notes ++ rest) = requests notes ++ requests rest :=
  List.filterMap_append

theorem mem_requests {notes : List Note} {m : Message} :
    m ∈ requests notes ↔ .accepted m ∈ notes := by
  unfold requests
  rw [List.mem_filterMap]
  constructor
  · rintro ⟨n, hMem, hSome⟩
    cases n with
    | accepted request =>
      cases hSome
      exact hMem
    | reset | event => cases hSome
  · intro hMem
    exact ⟨_, hMem, rfl⟩

namespace ClientState

variable {s : ClientState} {m request : Message}

/- What a request that is not stale meets. -/
structure Continues (s : ClientState) (request : Message) : Prop where
  later : ∀ last, s.sequences.get? request.generation = some last → last < request.sequence
  onwards : ∀ epoch, s.epochs.get? request.generation = some epoch → epoch ≤ request.epoch
  new : s.isLive request.generation = false → s.highestGeneration < request.generation
  room : s.isLive request.generation = false → s.epochs.keys.card < 128

theorem continues_of_not_stale (hFresh : s.stale request = false) : s.Continues request := by
  unfold stale at hFresh
  simp only [Bool.or_eq_false_iff, Bool.and_eq_false_iff, Bool.not_eq_false',
    decide_eq_false_iff_not, not_le, Option.any_eq_false, not_lt] at hFresh
  rcases hFresh with ⟨⟨⟨⟨_, hLater⟩, hOnwards⟩, hNew⟩, hRoom⟩
  refine ⟨hLater, hOnwards, ?_, ?_⟩
  · intro hDead
    exact hNew.resolve_left (by simp [hDead])
  · intro hDead
    exact hRoom.resolve_left (by simp [hDead])

/- The client remembers enough of an accepted request. -/
structure Remembers (s : ClientState) (m : Message) : Prop where
  seen : m.generation ≤ s.highestGeneration
  current : ∀ epoch, s.epochs.get? m.generation = some epoch →
      m.operation ≠ .deviceRetire ∧ m.epoch ≤ epoch ∧ ∃ last,
          s.sequences.get? m.generation = some last ∧ m.sequence ≤ last

/- How a later request of the same device must look. -/
def Precedes (m n : Message) : Prop :=
  m.generation = n.generation → m.sequence < n.sequence ∧ m.epoch ≤ n.epoch ∧
      m.operation ≠ .deviceRetire

/- The request follows everything that is remembered. -/
theorem Remembers.precedes (hKnown : s.Remembers m) (hNext : s.Continues request) :
    Precedes m request := by
  intro hSame
  cases hLive : s.epochs.get? m.generation with
  | none =>
    have hDead : s.isLive request.generation = false := by
      rw [isLive, ← hSame, hLive]
      rfl
    have hNew := hNext.new hDead
    have hSeen := hKnown.seen
    omega
  | some epoch =>
    rcases hKnown.current epoch hLive with ⟨hOperation, hEpoch, last, hLast, hSequence⟩
    rw [hSame] at hLast hLive
    have hLater := hNext.later last hLast
    have hOnwards := hNext.onwards epoch hLive
    exact ⟨by omega, hEpoch.trans hOnwards, hOperation⟩

end ClientState

namespace Client

open ClientState

variable {S : Type} {sink : EventSink S} {c c' : Client S} {request m : Message}
variable {focus : Option String} {answer : Except BackendError Operation}

/- What a turn does to the stream of its device. -/
theorem Turn.stream (hTurn : Turn sink c request focus c' answer) :
    c'.state.highestGeneration = c.state.highestGeneration ∧ ((request.operation ≠ .deviceRetire ∧
          c'.state.epochs = c.state.epochs ∧
          c'.state.sequences = c.state.sequences) ∨
        (request.operation = .deviceRetire ∧ c'.state.epochs =
            c.state.epochs.erase request.generation ∧
          c'.state.sequences = c.state.sequences.erase request.generation)) := by
  cases hTurn with
  | reset hOperation | refused _ hOperation | snapshot hOperation | idle hOperation
  | unmapped hOperation => exact ⟨rfl, .inl ⟨by simp [hOperation], rfl, rfl⟩⟩
  | retired hOperation => exact ⟨rfl, .inr ⟨hOperation, rfl, rfl⟩⟩
  | delivered _ _ hOperation _ _ _ hHeld =>
    subst hHeld
    exact ⟨rfl, .inl ⟨by simp [hOperation], rfl, rfl⟩⟩

/- The calls of a turn, after the request was accepted. -/
theorem Turn.calls (hTurn : Turn sink c request focus c' answer) :
    ∃ tail, c'.notes = c.notes ++ tail ∧ requests tail = [] ∧ (request.operation = .deviceRetire →
          .reset request.generation ∈ tail) := by
  cases hTurn with
  | reset | retired => exact ⟨_, rfl, rfl, by simp⟩
  | refused _ hOperation | idle hOperation => exact ⟨[], by simp, rfl, by simp [hOperation]⟩
  | snapshot hOperation | unmapped hOperation =>
    exact ⟨[], by simp [hold], rfl, by simp [hOperation]⟩
  | delivered _ _ hOperation _ _ _ hHeld =>
    subst hHeld
    exact ⟨_, rfl, rfl, by simp [hOperation]⟩

theorem Turn.remembers (hTurn : Turn sink (c.accept sink request) request focus c' answer)
    (hNext : c.state.Continues request) (hKnown : c.state.Remembers m) : c'.state.Remembers m := by
  rcases hTurn.stream with ⟨hHighest, hStream⟩
  rw [accept_highestGeneration] at hHighest
  refine ⟨?_, ?_⟩
  · rw [hHighest]
    exact hKnown.seen.trans (le_max_left _ _)
  rw [accept_epochs, accept_sequences] at hStream
  intro epoch hEpoch
  by_cases hSame : m.generation = request.generation
  · rcases hKnown.precedes hNext hSame with ⟨hLater, hOnwards, hOperation⟩
    rw [hSame] at hEpoch ⊢
    rcases hStream with ⟨_, hEpochs, hSequences⟩ | ⟨_, hEpochs, _⟩
    · rw [hEpochs] at hEpoch
      rw [hSequences]
      simp only [Dict.get?_insert, if_true, Option.some.injEq] at hEpoch ⊢
      subst hEpoch
      exact ⟨hOperation, hOnwards, _, rfl, hLater.le⟩
    · rw [hEpochs] at hEpoch
      simp at hEpoch
  · rcases hStream with ⟨_, hEpochs, hSequences⟩ | ⟨_, hEpochs, hSequences⟩
    all_goals
      rw [hEpochs] at hEpoch
      rw [hSequences]
      simp only [Dict.get?_insert, Dict.get?_erase, if_neg hSame] at hEpoch ⊢
      exact hKnown.current epoch hEpoch

theorem Turn.remembers_request (hTurn : Turn sink (c.accept sink request) request focus c' answer) :
    c'.state.Remembers request := by
  rcases hTurn.stream with ⟨hHighest, hStream⟩
  rw [accept_highestGeneration] at hHighest
  refine ⟨?_, ?_⟩
  · rw [hHighest]
    exact le_max_right _ _
  rw [accept_epochs, accept_sequences] at hStream
  intro epoch hEpoch
  rcases hStream with ⟨hOperation, hEpochs, hSequences⟩ | ⟨_, hEpochs, _⟩
  · rw [hEpochs] at hEpoch
    rw [hSequences]
    simp only [Dict.get?_insert, if_true, Option.some.injEq] at hEpoch ⊢
    subst hEpoch
    exact ⟨hOperation, le_refl _, _, rfl, le_refl _⟩
  · rw [hEpochs] at hEpoch
    simp at hEpoch

theorem Turn.bounded (hTurn : Turn sink (c.accept sink request) request focus c' answer)
    (hNext : c.state.Continues request) (hBound : c.state.epochs.keys.card ≤ 128) :
    c'.state.epochs.keys.card ≤ 128 := by
  have hAccepted : (c.accept sink request).state.epochs.keys.card ≤ 128 := by
    rw [accept_epochs, Dict.keys_insert]
    by_cases hLive : c.state.isLive request.generation = true
    · rw [Finset.insert_eq_of_mem]
      · exact hBound
      · rw [Dict.mem_keys_iff]
        exact hLive
    · have hRoom := hNext.room (by simpa using hLive)
      have hCard := Finset.card_insert_le request.generation c.state.epochs.keys
      omega
  rcases hTurn.stream.2 with ⟨_, hEpochs, _⟩ | ⟨_, hEpochs, _⟩
  · rw [hEpochs]
    exact hAccepted
  · rw [hEpochs, Dict.keys_erase]
    exact (Finset.card_erase_le).trans hAccepted

/- The ways a step of the loop ends. -/
inductive Steps (sink : EventSink S) (state : ClientState) (s : S) (a : Arrival) :
    Option (ClientState × S) → List Note → Prop where
  | rejected : Steps sink state s a none []
  | taken (request : Message) (answer : Except BackendError Operation) (c : Client S)
      (next : Option (ClientState × S))
      (hRead : Message.read a.frame = .ok request)
      (hFresh : state.stale request = false)
      (hTurn : Turn sink (accept sink ⟨state, s, []⟩ request) request a.focus c answer)
      (hNext : next = none ∨ next = some (c.state, c.sink)) :
      Steps sink state s a next c.notes

theorem step_steps {loop next : Option (ClientState × S)} {a : Arrival} {notes : List Note}
    (hStep : step sink loop a = some (next, notes)) :
    ∃ state s, loop = some (state, s) ∧ Steps sink state s a next notes := by
  rcases loop with _ | ⟨state, s⟩
  · cases hStep
  refine ⟨state, s, rfl, ?_⟩
  simp only [step] at hStep
  split at hStep
  all_goals
    rename_i served result hServe
    cases hStep
    rcases serve_turns hServe with ⟨rfl, error, hError⟩ |
      ⟨request, answer, hRead, _, hFresh, hTurn, _⟩
  · cases hError
  · exact .taken request answer _ _ hRead hFresh hTurn (.inr rfl)
  · exact .rejected
  · exact .taken request answer _ _ hRead hFresh hTurn (.inl rfl)

variable {state : ClientState} {s s' : S} {generation : Nat}

theorem Turn.notes (hTurn : Turn sink (accept sink ⟨state, s, []⟩ request) request focus c' answer) :
    ∃ tail, c'.notes = (.accepted request :: if state.changes request then
              [.reset request.generation]
            else []) ++ tail ∧
        requests tail = [] ∧
        (request.operation = .deviceRetire → .reset request.generation ∈ tail) := by
  rcases hTurn.calls with ⟨tail, hNotes, hTail⟩
  rw [accept_notes, List.nil_append] at hNotes
  exact ⟨tail, hNotes, hTail⟩

theorem Turn.requests
    (hTurn : Turn sink (accept sink ⟨state, s, []⟩ request) request focus c' answer) :
    Broker.requests c'.notes = [request] := by
  rcases hTurn.notes with ⟨tail, hNotes, hTail, _⟩
  rw [hNotes, requests_append, hTail, List.append_nil]
  split_ifs <;> rfl

abbrev Entry (S : Type) := Transition.Entry (Option (ClientState × S)) Arrival (List Note)

/- The notes of a run, in order. -/
def history (trace : List (Entry S)) : List Note := trace.flatMap (fun e => e.out)

variable {start last next : Option (ClientState × S)} {trace : List (Entry S)} {a : Arrival}
variable {notes : List Note}

/- What a loop remembers; one that ended takes no more steps. -/
def Knows (loop : Option (ClientState × S)) (m : Message) : Prop :=
  ∀ state s, loop = some (state, s) → state.Remembers m

/- Where a taken step leads if the loop goes on. -/
theorem state_of_next {state' : ClientState} (hNext : next = none ∨ next = some (c.state, c.sink))
    (hSome : next = some (state', s')) : state' = c.state := by
  rcases hNext with rfl | rfl
  · cases hSome
  · cases hSome
    rfl

theorem step_extends (hStep : step sink start a = some (next, notes)) :
    Extends Knows Precedes start next (Broker.requests notes) := by
  rcases step_steps hStep with ⟨state, s, rfl, hSteps⟩
  cases hSteps with
  | rejected =>
    refine .silent ?_
    intro m _ _ _ hEnded
    cases hEnded
  | taken request _ c _ _ hFresh hTurn hNext =>
    have hContinues := continues_of_not_stale hFresh
    rw [hTurn.requests]
    refine .single ?_ ?_ ?_
    · intro m hKnown state' s' hSome
      rw [state_of_next hNext hSome]
      exact hTurn.remembers hContinues (hKnown state s rfl)
    · intro state' s' hSome
      rw [state_of_next hNext hSome]
      exact hTurn.remembers_request
    · intro m hKnown
      exact (hKnown state s rfl).precedes hContinues

theorem run_extends (hRun : Run (step sink) start trace last) :
    Extends Knows Precedes start last (Broker.requests (history trace)) := by
  have hExtends := hRun.extends id (fun e => Broker.requests e.out)
      (fun _ _ _ _ hStep => step_extends hStep)
  have hLog : trace.flatMap (fun e => Broker.requests e.out) = Broker.requests (history trace) :=
    (List.filterMap_flatMap).symm
  rw [hLog] at hExtends
  exact hExtends

theorem run_bounded (hRun : Run (step sink) (some (.default, s)) trace last)
    (hLast : last = some (state, s')) : state.epochs.keys.card ≤ 128 := by
  induction hRun generalizing state s' with
  | nil =>
    cases hLast
    decide
  | snoc _ hStep ih =>
    rcases step_steps hStep with ⟨before, t, rfl, hSteps⟩
    cases hSteps with
    | rejected => cases hLast
    | taken _ _ _ _ _ hFresh hTurn hNext =>
      rw [state_of_next hNext hLast]
      exact hTurn.bounded (continues_of_not_stale hFresh) (ih rfl)

/- A request under another epoch resets its device first. -/
theorem Turn.changed {epoch : Nat}
    (hTurn : Turn sink (accept sink ⟨state, s, []⟩ request) request focus c' answer)
    (hEpoch : state.epochs.get? request.generation = some epoch) (hOther : request.epoch ≠ epoch) :
    ∃ tail, c'.notes = .accepted request :: .reset request.generation :: tail := by
  rcases hTurn.notes with ⟨tail, hNotes, _⟩
  have hChanges : state.changes request = true := by simp [changes, hEpoch, Ne.symm hOther]
  rw [hChanges] at hNotes
  exact ⟨tail, hNotes⟩

/- An epoch lasts until its device is reset. -/
theorem Steps.epoch {epoch : Nat} (hSteps : Steps sink state s a next notes)
    (hEpoch : state.epochs.get? generation = some epoch) :
    .reset generation ∈ notes ∨ ∀ state' s', next = some (state', s') →
        state'.epochs.get? generation = some epoch := by
  cases hSteps with
  | rejected =>
    refine .inr ?_
    intro _ _ hEnded
    cases hEnded
  | taken request _ c _ _ _ hTurn hNext =>
    by_cases hReset : Note.reset generation ∈ c.notes
    · exact .inl hReset
    refine .inr ?_
    intro state' s' hSome
    have hStream := hTurn.stream.2
    rw [accept_epochs] at hStream
    rw [state_of_next hNext hSome]
    by_cases hSame : generation = request.generation
    · subst hSame
      have hStill : request.epoch = epoch := by
        by_contra hOther
        rcases hTurn.changed hEpoch hOther with ⟨tail, hNotes⟩
        exact hReset (by simp [hNotes])
      rcases hStream with ⟨_, hEpochs, _⟩ | ⟨hRetire, _⟩
      · rw [hEpochs]
        simp [hStill]
      · rcases hTurn.notes with ⟨tail, hNotes, _, hTail⟩
        exact absurd (by simp [hNotes, hTail hRetire]) hReset
    · rcases hStream with ⟨_, hEpochs, _⟩ | ⟨_, hEpochs, _⟩ <;>
        simp [hEpochs, hSame, hEpoch]

theorem run_epoch {epoch : Nat} (hRun : Run (step sink) start trace last)
    (hEpoch : ∀ state s, start = some (state, s) → state.epochs.get? generation = some epoch) :
    .reset generation ∈ history trace ∨ ∀ state s, last = some (state, s) →
        state.epochs.get? generation = some epoch := by
  induction hRun with
  | nil => exact .inr hEpoch
  | snoc _ hStep ih =>
    unfold history at ih ⊢
    rw [List.flatMap_append, List.flatMap_singleton]
    rcases step_steps hStep with ⟨state, s, rfl, hSteps⟩
    rcases ih with hReset | hStill
    · exact .inl (List.mem_append_left _ hReset)
    rcases hSteps.epoch (hStill _ _ rfl) with hReset | hNext
    · exact .inl (List.mem_append_right _ hReset)
    · exact .inr hNext

theorem Steps.taken_of_accepted (hSteps : Steps sink state s a next notes)
    (hAccepted : .accepted m ∈ notes) :
    ∃ answer c, state.stale m = false ∧ Turn sink (accept sink ⟨state, s, []⟩ m) m a.focus c
          answer ∧
        notes = c.notes ∧
        (next = none ∨ next = some (c.state, c.sink)) := by
  cases hSteps with
  | rejected => cases hAccepted
  | taken request answer c _ _ hFresh hTurn hNext =>
    have hMem := mem_requests.mpr hAccepted
    rw [hTurn.requests] at hMem
    obtain rfl := List.mem_singleton.mp hMem
    exact ⟨answer, c, hFresh, hTurn, rfl, hNext⟩

theorem Steps.epoch_of_accepted (hSteps : Steps sink state s a next notes)
    (hAccepted : .accepted m ∈ notes) (hLive : m.operation ≠ .deviceRetire) {state' : ClientState}
    (hSome : next = some (state', s')) : state'.epochs.get? m.generation = some m.epoch := by
  rcases hSteps.taken_of_accepted hAccepted with ⟨_, c, _, hTurn, _, hNext⟩
  have hStream := hTurn.stream.2
  rw [accept_epochs] at hStream
  rw [state_of_next hNext hSome]
  rcases hStream with ⟨_, hEpochs, _⟩ | ⟨hRetire, _⟩
  · simp [hEpochs]
  · exact absurd hRetire hLive

/- An event comes after the reset that opens the notes. -/
theorem reset_mem_of_event {event : KeyEvent} {before after tail : List Note}
    (hNotes : before ++ .event generation event :: after = .accepted m :: .reset generation :: tail) :
    .reset generation ∈ before := by
  rcases before with _ | ⟨first, _ | ⟨second, others⟩⟩
  · cases hNotes
  · cases hNotes
  · cases hNotes
    simp

/- A changed epoch resets the device before an event. -/
theorem reset_before_event {f e : Entry S} {mid rest : List (Entry S)} {n : Message}
    {event : KeyEvent} {before after : List Note}
    (hRun : Run (step sink) start (f :: (mid ++ e :: rest)) last)
    (hFirst : .accepted m ∈ f.out) (hSecond : .accepted n ∈ e.out)
    (hSame : n.generation = m.generation) (hOther : n.epoch ≠ m.epoch)
    (hOut : e.out = before ++ .event n.generation event :: after) :
    .reset n.generation ∈ history mid ++ before := by
  have hLive : m.operation ≠ .deviceRetire := by
    have hOrdered := (run_extends hRun).pairwise
    simp only [history, List.flatMap_cons, List.flatMap_append, requests_append,
      List.pairwise_append, List.mem_append] at hOrdered
    have hPrecedes := hOrdered.2.2 m (mem_requests.mpr hFirst) n
        (.inr (.inl (mem_requests.mpr hSecond)))
    exact (hPrecedes hSame.symm).2.2
  rcases hRun.cons_inv with ⟨rfl, next, hStep, hRest⟩
  rcases hRest.split with ⟨_, hMid, hLater⟩
  rcases hLater.cons_inv with ⟨rfl, _, hStep', _⟩
  rcases step_steps hStep with ⟨_, _, _, hSteps⟩
  rcases step_steps hStep' with ⟨state, s, hLoop, hSteps'⟩
  have hEpoch (state : ClientState) (s : S) (hSome : next = some (state, s)) :
      state.epochs.get? n.generation = some m.epoch := by
    rw [hSame]
    exact hSteps.epoch_of_accepted hFirst hLive hSome
  rcases run_epoch hMid hEpoch with hReset | hStill
  · exact List.mem_append_left _ hReset
  · rcases hSteps'.taken_of_accepted hSecond with ⟨_, c, _, hTurn, hNotes, _⟩
    rcases hTurn.changed (hStill state s hLoop) hOther with ⟨tail, hCalls⟩
    rw [hOut, hCalls] at hNotes
    exact List.mem_append_right _ (reset_mem_of_event hNotes)

/-
  The stream of every device is checked against what the client remembers of it, whatever
  the broker sends: requests continue in order, no device comes back, 128 are live at
  most, a rejected request leaves no trace, and a changed epoch resets the device before
  its next event.
-/
theorem stream_validated {s : S} (hRun : Run (step sink) (some (.default, s)) trace last) :
    (Broker.requests (history trace)).Pairwise Precedes ∧
    (∀ front e rest m state s', trace = front ++ e :: rest → e.pre = some (state, s') →
      .accepted m ∈ e.out →
      state.isLive m.generation = false →
      ∀ n ∈ Broker.requests (history front), n.generation < m.generation) ∧
    (∀ state s', last = some (state, s') → state.epochs.keys.card ≤ 128) ∧
    (∀ (c c' : Client S) request error, c.validate sink request = (c', .error error) → c' = c ∧
        ∀ a, Message.read a.frame = .ok request → c.serve sink a = (c, .error error)) ∧
    (∀ front f mid e rest m n event before after, trace = front ++ f :: (mid ++ e :: rest) →
      .accepted m ∈ f.out →
      .accepted n ∈ e.out →
      n.generation = m.generation →
      n.epoch ≠ m.epoch →
      e.out = before ++ .event n.generation event :: after →
      .reset n.generation ∈ history mid ++ before) := by
  refine ⟨(run_extends hRun).pairwise, ?_, fun state s' => run_bounded hRun, ?_, ?_⟩
  · rintro front e rest m state s' rfl hPre hAccepted hDead n hMem
    rcases hRun.split with ⟨mid, hFront, hTail⟩
    rcases hTail.cons_inv with ⟨rfl, _, hStep, _⟩
    have hKnown := (run_extends hFront).knows n hMem state s' hPre
    rcases step_steps hStep with ⟨_, _, hLoop, hSteps⟩
    rw [hPre] at hLoop
    cases hLoop
    rcases hSteps.taken_of_accepted hAccepted with ⟨_, _, hFresh, _⟩
    exact hKnown.seen.trans_lt ((continues_of_not_stale hFresh).new hDead)
  · intro c c' request error hRejected
    obtain rfl := validate_rejected hRejected
    refine ⟨rfl, ?_⟩
    intro a hRead
    simp only [serve, hRead, hRejected]
  · rintro front f mid e rest m n event before after rfl hFirst hSecond hSame hOther hOut
    rcases hRun.split with ⟨_, _, hTail⟩
    exact reset_before_event hTail hFirst hSecond hSame hOther hOut

/- A sink that passes every event. -/
def passing : EventSink Unit where
  onDeviceEvent := fun s _ _ _ => (s, .pass)
  onDeviceReset := fun s _ => s

/- A press, and a repeated press under a later epoch. -/
def laterEpoch : List Message := [⟨.event, 1, 1, 1, key 30 1⟩, ⟨.event, 1, 2, 2, key 30 1⟩]

theorem stream_validated_laterEpoch :
    let trace :=
      entriesOf (step passing) (some (.default, ()))
        (laterEpoch.map (fun m => ⟨m.write, none, .ok ()⟩))
    Broker.requests (history trace) = laterEpoch ∧ laterEpoch.Pairwise Precedes := by
  have hEvaluated :
      let arrivals : List Arrival := laterEpoch.map (fun m => ⟨m.write, none, .ok ()⟩)
      (exec (step passing) (some (.default, ())) arrivals).isSome = true ∧
        Broker.requests (history (entriesOf (step passing)
                (some (.default, ())) arrivals)) =
          laterEpoch := by
    decide +kernel
  have hOrdered := (stream_validated (Run.of_isSome hEvaluated.1)).1
  rw [hEvaluated.2] at hOrdered
  exact ⟨hEvaluated.2, hOrdered⟩

end Client

end Sledge.Broker
