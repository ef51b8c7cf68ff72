import Sledge.Broker.State

/-
  The proxy of one keyboard (`packages/linux/src/broker.rs`).

  A proxy asks the client about every key event, applies the
  decision and puts the events out in frames.  What the other
  end of the socket, the session authority, the input device
  and the virtual keyboard answer is given from outside.  The
  log records what crossed the socket, the decisions that
  were applied, and what went to the virtual keyboard.
-/

-----
-- Sessions

namespace Sledge.Broker

open Linux (IoError)

structure DeviceProxy where
  state : KeyState
  generation : Nat
  epoch : Nat
  sequence : Nat
  grabbed : Bool
  pending : List RawEvent
deriving DecidableEq

namespace DeviceProxy

/- A proxy that was admitted but has not grabbed its input. -/
def new (generation : Nat) : DeviceProxy where
  state := .fresh
  generation := generation
  epoch := 1
  sequence := 0
  grabbed := false
  pending := []

def message (p : DeviceProxy) (operation : Operation) (event : RawEvent) : Message where
  operation := operation
  generation := p.generation
  epoch := p.epoch
  sequence := p.sequence
  event := event

end DeviceProxy

/-
  The other end of the client's socket: the frame that is read, in time, after a frame was
  written.
-/
abbrev Socket (C : Type) := C → List UInt8 → C × Except IoError (List UInt8)

inductive Record where
  | wrote (request : Message)
  | read (frame : List UInt8)
  | applied (before : KeyState) (raw : RawEvent) (decision : Operation)
  | queued (event : RawEvent)
  | emitted (frame : List RawEvent)
deriving DecidableEq

/- A proxy, the other end of its socket, and the log. -/
structure Session (C : Type) where
  proxy : DeviceProxy
  peer : C
  log : List Record

/- One input event, and what its handling is answered. -/
structure Incoming where
  raw : RawEvent
  verified : Except IoError Unit
  keys : Except IoError (Finset Nat)
  accepted : Except IoError Unit

/- `checked_add(1)` on a 64-bit counter. -/
def checkedAdd (n : Nat) : Option Nat := if n + 1 < 2 ^ 64 then some (n + 1) else none

namespace Session

variable {C : Type}

def record (s : Session C) (entry : Record) : Session C := { s with log := s.log ++ [entry] }

def advanceSequence (s : Session C) : Option (Session C) :=
  (checkedAdd s.proxy.sequence).map (fun sequence =>
    { s with proxy := { s.proxy with sequence := sequence } })

def advanceEpoch (s : Session C) : Option (Session C) :=
  (checkedAdd s.proxy.epoch).map (fun epoch =>
    { s with proxy := { s.proxy with epoch := epoch } })

/- Write a request and read the frame that answers it. -/
def ask (socket : Socket C) (s : Session C) (request : Message) :
    Session C × Except IoError Message :=
  let (peer, answer) := socket s.peer request.write
  let s := { s with peer := peer }.record (.wrote request)
  match answer with
  | .error error => (s, .error error)
  | .ok frame => (s.record (.read frame), Message.read frame)

def control (socket : Socket C) (s : Session C) (operation : Operation) (event : RawEvent) :
    Session C × Except IoError Unit :=
  match s.advanceSequence with
  | none => (s, .error (denied "sequence exhausted"))
  | some s =>
    let request := s.proxy.message operation event
    match s.ask socket request with
    | (s, .error error) => (s, .error error)
    | (s, .ok reply) =>
      if reply.operation ≠ .pass ∨ ¬ reply.answers request then
        (s, .error (denied "invalid reset/snapshot acknowledgement"))
      else (s, .ok ())

def resetClient (socket : Socket C) (s : Session C) : Session C × Except IoError Unit :=
  s.control socket .deviceReset .default

def retireClient (socket : Socket C) (s : Session C) : Session C × Except IoError Unit :=
  s.control socket .deviceRetire .default

/- Tell the client the keys of a snapshot, one by one. -/
def snapshotKeys (socket : Socket C) : Session C → List Nat → Session C × Except IoError Unit
  | s, [] => (s, .ok ())
  | s, code :: codes =>
    match s.control socket .snapshotKey (key code 1) with
    | (s, .error error) => (s, .error error)
    | (s, .ok ()) => snapshotKeys socket s codes

/- One event towards the virtual keyboard. -/
def emitEvent (s : Session C) (accepted : Except IoError Unit) (event : RawEvent) :
    Session C × Except IoError Unit :=
  if event.isReport then
    match accepted with
    | .error error => (s, .error error)
    | .ok () =>
      let p := s.proxy
      ({ s with
          proxy :=
            { p with state := p.state.commitOutput, pending := [] } }.record (.emitted p.pending),
        .ok ())
  else if event.eventType ≠ 0 then
    if 256 ≤ s.proxy.pending.length then
      (s, .error (denied "output frame exceeds bound"))
    else
      let p := s.proxy
      ({ s with
          proxy := { p with pending := p.pending ++ [event] } }.record
          (.queued event),
        .ok ())
  else (s, .ok ())

def emit (accepted : Except IoError Unit) :
    Session C → List RawEvent → Session C × Except IoError Unit
  | s, [] => (s, .ok ())
  | s, event :: events =>
    match s.emitEvent accepted event with
    | (s, .error error) => (s, .error error)
    | (s, .ok ()) => emit accepted s events

end Session

-----
-- One Input Event

open Ordered

/- Only echoing pass and swallow decisions are supported. -/
def admittedDecision (request reply : Message) : Except IoError Operation :=
  if ¬ reply.operation.isDecision ∨ ¬ reply.answers request ∨ reply.event ≠ request.event then
    .error (denied "unsupported or malformed broker decision")
  else .ok reply.operation

namespace Session

variable {C : Type}

/- The end of a dropped episode. -/
def resynchronise (socket : Socket C) (s : Session C) (i : Incoming) :
    Session C × Except IoError Unit :=
  match i.keys with
  | .error error => (s, .error error)
  | .ok keys =>
    match s.advanceEpoch with
    | none => (s, .error (denied "epoch exhausted"))
    | some s =>
      let (state, reconciled) := s.proxy.state.resync keys
      let s := { s with proxy := { s.proxy with state := state } }
      match s.resetClient socket with
      | (s, .error error) => (s, .error error)
      | (s, .ok ()) =>
        match snapshotKeys socket s (ascending keys) with
        | (s, .error error) => (s, .error error)
        | (s, .ok ()) =>
          match emit i.accepted s reconciled with
          | (s, .error error) => (s, .error error)
          | (s, .ok ()) => emit i.accepted s [.default]

/- The client's decision on a key, or a default for others. -/
def decide (socket : Socket C) (s : Session C) (raw : RawEvent) :
    Session C × Except IoError Operation :=
  if raw.isKey ∧ s.proxy.state.dropping = false then
    let request := s.proxy.message .event raw
    match s.ask socket request with
    | (s, .error error) => (s, .error error)
    | (s, .ok reply) => (s, admittedDecision request reply)
  else (s, .ok .pass)

/- Speculative output ends where events were dropped. -/
def rollback (s : Session C) (raw : RawEvent) : Session C :=
  if raw.isDropped then
    let p := s.proxy
    { s with
      proxy := { p with pending := [], state := p.state.rollbackOutput } }
  else s

def settle (socket : Socket C) (s : Session C) (i : Incoming) : Session C × Except IoError Unit :=
  match s.advanceSequence with
  | none => (s, .error (denied "sequence exhausted"))
  | some s =>
    match s.decide socket i.raw with
    | (s, .error error) => (s, .error error)
    | (s, .ok decision) =>
      let s := s.rollback i.raw
      let before := s.proxy.state
      let (state, output) := before.apply i.raw decision
      let s := { s with proxy := { s.proxy with state := state } }.record
          (.applied before i.raw decision)
      emit i.accepted s output

/- One turn of the loop over the fetched events. -/
def handle (socket : Socket C) (s : Session C) (i : Incoming) : Session C × Except IoError Unit :=
  match i.verified with
  | .error error => (s, .error error)
  | .ok () =>
    if s.proxy.state.dropping ∧ i.raw.isReport then
      s.resynchronise socket i
    else s.settle socket i

/- Cleanup; a broken virtual keyboard does not prevent it. -/
def bypass (s : Session C) (accepted : Except IoError Unit) : Session C :=
  let (state, releases) := s.proxy.state.releaseAll
  let s := { s with proxy := { s.proxy with pending := [], state := state } }
  let s := (emit accepted s (releases ++ [.default])).1
  { s with proxy := { s.proxy with grabbed := false } }

/- A proxy handles events until a call fails. -/
def step (socket : Socket C) (s : DeviceProxy × C) (i : Incoming) :
    Option ((DeviceProxy × C) × List Record) :=
  match handle socket ⟨s.1, s.2, []⟩ i with
  | (s, .ok ()) => some ((s.proxy, s.peer), s.log)
  | (_, .error _) => none

end Session

-----
-- Handled Events

namespace Record

def emitted? : Record → Option (List RawEvent)
  | .emitted frame => some frame
  | _ => none

def queued? : Record → Option RawEvent
  | .queued event => some event
  | _ => none

/- A frame that crossed the socket. -/
def isTalk : Record → Bool
  | .wrote _ => true
  | .read _ => true
  | _ => false

def applied? : Record → Option (KeyState × RawEvent × Operation)
  | .applied before raw decision => some (before, raw, decision)
  | _ => none

end Record

/- The frames a log puts out. -/
def frames (log : List Record) : List (List RawEvent) := log.filterMap Record.emitted?

/- The decisions a log applies, each with the state before. -/
def applications (log : List Record) : List (KeyState × RawEvent × Operation) :=
  log.filterMap Record.applied?

/- The events a log places in frames. -/
def queued (log : List Record) : List RawEvent := log.filterMap Record.queued?

/- Frames that only crossed the socket. -/
def Talk (log : List Record) : Prop := ∀ entry ∈ log, entry.isTalk = true

theorem frames_append (log rest : List Record) : frames (log ++ rest) = frames log ++ frames rest :=
  List.filterMap_append

theorem applications_append (log rest : List Record) :
    applications (log ++ rest) = applications log ++ applications rest :=
  List.filterMap_append

theorem queued_append (log rest : List Record) : queued (log ++ rest) = queued log ++ queued rest :=
  List.filterMap_append

/- Talk is none of the other records. -/
theorem Talk.silent
    {log : List Record}
    (hTalk : Talk log) :
    frames log = [] ∧ applications log = [] ∧
      queued log = [] := by
  refine ⟨?_, ?_, ?_⟩ <;>
    (apply List.filterMap_eq_nil_iff.mpr
     intro entry hMem
     have hEntry := hTalk entry hMem
     cases entry <;> first | rfl | cases hEntry)

variable {talk : List Record}

/- What remains of a log without its talk. -/
theorem frames_talk (hTalk : Talk talk) (rest : List Record) :
    frames (talk ++ rest) = frames rest := by
  rw [frames_append, hTalk.silent.1, List.nil_append]

theorem applications_talk (hTalk : Talk talk) (rest : List Record) :
    applications (talk ++ rest) = applications rest := by
  rw [applications_append, hTalk.silent.2.1, List.nil_append]

theorem queued_talk (hTalk : Talk talk) (rest : List Record) :
    queued (talk ++ rest) = queued rest := by
  rw [queued_append, hTalk.silent.2.2, List.nil_append]

@[simp]
theorem frames_map_queued (events : List RawEvent) : frames (events.map .queued) = [] := by
  simp [frames, Record.emitted?]

@[simp]
theorem applications_map_queued (events : List RawEvent) :
    applications (events.map .queued) = [] := by
  simp [applications, Record.applied?]

@[simp]
theorem queued_map_queued (events : List RawEvent) : queued (events.map .queued) = events := by
  simp [queued, Record.queued?, List.filterMap_map, Function.comp_def]

namespace DeviceProxy

/- An event on its way to the virtual keyboard. -/
def absorb (p : DeviceProxy) (event : RawEvent) : DeviceProxy × List Record :=
  if event.isReport then
    ({ p with state := p.state.commitOutput, pending := [] }, [.emitted p.pending])
  else if event.eventType ≠ 0 then
    ({ p with pending := p.pending ++ [event] }, [.queued event])
  else (p, [])

/- A list of events on its way. -/
def absorbAll : DeviceProxy → List RawEvent → DeviceProxy × List Record
  | p, [] => (p, [])
  | p, event :: events =>
    let (p, log) := p.absorb event
    let (p, rest) := absorbAll p events
    (p, log ++ rest)

def rolledBack (p : DeviceProxy) (raw : RawEvent) : DeviceProxy :=
  if raw.isDropped then
    { p with pending := [], state := p.state.rollbackOutput }
  else p

/- The proxy and its output after a decision was applied. -/
def decided (p : DeviceProxy) (sequence : Nat) (raw : RawEvent) (decision : Operation) :
    DeviceProxy × List Record :=
  let p := p.rolledBack raw
  let (state, output) := p.state.apply raw decision
  absorbAll { p with sequence := sequence, state := state } output

end DeviceProxy

namespace Session

variable {C : Type} {socket : Socket C} {s s' : Session C} {i : Incoming}
variable {accepted : Except IoError Unit}

variable {event : RawEvent} {p : DeviceProxy} {c : C}

theorem emitEvent_ok (hOk : s.emitEvent accepted event = (s', .ok ())) : s' =
      { s with proxy := (s.proxy.absorb event).1, log := s.log ++ (s.proxy.absorb event).2 } := by
  unfold emitEvent at hOk
  unfold DeviceProxy.absorb
  by_cases hReport : event.isReport = true
  · rw [if_pos hReport] at hOk ⊢
    split at hOk
    · cases hOk
    · cases hOk
      rfl
  · rw [if_neg hReport] at hOk ⊢
    by_cases hType : event.eventType ≠ 0
    · rw [if_pos hType] at hOk ⊢
      split_ifs at hOk
      · cases hOk
      · cases hOk
        rfl
    · rw [if_neg hType] at hOk ⊢
      cases hOk
      simp

theorem emit_ok {events : List RawEvent} (hOk : emit accepted s events = (s', .ok ())) : s' =
      { s with
        proxy := (s.proxy.absorbAll events).1
        log := s.log ++ (s.proxy.absorbAll events).2 } := by
  induction events generalizing s with
  | nil =>
    cases hOk
    simp [DeviceProxy.absorbAll]
  | cons event events ih =>
    unfold emit at hOk
    split at hOk
    · cases hOk
    · rename_i mid hFirst
      have hMid := emitEvent_ok hFirst
      rw [ih hOk, hMid]
      simp [DeviceProxy.absorbAll]

/- An exchange changes the sequence of the proxy only. -/
structure Conversed (s s' : Session C) : Prop where
  proxy : s'.proxy = { s.proxy with sequence := s'.proxy.sequence }
  log : ∃ talk, s'.log = s.log ++ talk ∧ Talk talk

theorem Conversed.refl (s : Session C) : s.Conversed s := ⟨rfl, [], by simp, by simp [Talk]⟩

theorem Conversed.trans {t : Session C} (hFirst : s.Conversed t) (hSecond : t.Conversed s') :
    s.Conversed s' := by
  rcases hFirst.log with ⟨first, hLog, hTalk⟩
  rcases hSecond.log with ⟨second, hLog', hTalk'⟩
  refine ⟨?_, first ++ second, ?_, ?_⟩
  · rw [hSecond.proxy, hFirst.proxy]
  · rw [hLog', hLog, List.append_assoc]
  · exact List.forall_mem_append.mpr ⟨hTalk, hTalk'⟩

theorem ask_conversed {request : Message} {result : Except IoError Message}
    (hAsk : s.ask socket request = (s', result)) : s.Conversed s' := by
  unfold ask at hAsk
  dsimp only at hAsk
  split at hAsk
  · cases hAsk
    exact ⟨rfl, [.wrote request], rfl, by simp [Talk, Record.isTalk]⟩
  · rename_i frame _
    cases hAsk
    exact ⟨rfl, [.wrote request, .read frame], by simp [record], by simp [Talk, Record.isTalk]⟩

theorem advanceSequence_some (hSome : s.advanceSequence = some s') :
    s.proxy.sequence + 1 < 2 ^ 64 ∧ s' =
        { s with
          proxy :=
            { s.proxy with sequence := s.proxy.sequence + 1 } } := by
  unfold advanceSequence checkedAdd at hSome
  split_ifs at hSome with hRoom
  · cases hSome
    exact ⟨hRoom, rfl⟩
  · cases hSome

theorem advanceSequence_conversed (hSome : s.advanceSequence = some s') : s.Conversed s' := by
  rcases advanceSequence_some hSome with ⟨_, rfl⟩
  exact ⟨rfl, [], by simp, by simp [Talk]⟩

theorem control_conversed {operation : Operation} {result : Except IoError Unit}
    (hControl : s.control socket operation event = (s', result)) : s.Conversed s' := by
  unfold control at hControl
  split at hControl
  · cases hControl
    exact .refl s
  rename_i numbered hNumbered
  have hFirst := advanceSequence_conversed hNumbered
  dsimp only at hControl
  split at hControl
  · rename_i asked error hAsked
    cases hControl
    exact hFirst.trans (ask_conversed hAsked)
  · rename_i asked reply hAsked
    split_ifs at hControl
    · cases hControl
      exact hFirst.trans (ask_conversed hAsked)
    · cases hControl
      exact hFirst.trans (ask_conversed hAsked)

theorem snapshotKeys_conversed {codes : List Nat} {result : Except IoError Unit}
    (hTold : snapshotKeys socket s codes = (s', result)) : s.Conversed s' := by
  induction codes generalizing s with
  | nil =>
    cases hTold
    exact .refl _
  | cons code codes ih =>
    unfold snapshotKeys at hTold
    split at hTold
    · rename_i told error hFirst
      cases hTold
      exact control_conversed hFirst
    · rename_i told hFirst
      exact (control_conversed hFirst).trans (ih hTold)

theorem decide_conversed {raw : RawEvent} {result : Except IoError Operation}
    (hDecide : s.decide socket raw = (s', result)) : s.Conversed s' := by
  unfold decide at hDecide
  split_ifs at hDecide
  · dsimp only at hDecide
    split at hDecide
    · rename_i asked error hAsked
      cases hDecide
      exact ask_conversed hAsked
    · rename_i asked reply hAsked
      cases hDecide
      exact ask_conversed hAsked
  · cases hDecide
    exact .refl s

theorem admittedDecision_ok {request reply : Message} {decision : Operation}
    (hOk : admittedDecision request reply = .ok decision) :
    reply.operation = decision ∧ decision.isDecision = true ∧ reply.answers request = true ∧
      reply.event = request.event := by
  unfold admittedDecision at hOk
  split_ifs at hOk with hRefused
  push Not at hRefused
  cases hOk
  exact ⟨rfl, hRefused⟩

theorem decide_ok {raw : RawEvent} {decision : Operation}
    (hOk : s.decide socket raw = (s', .ok decision)) :
    decision.isDecision = true ∧ (decision = .pass ∨
        (raw.isKey = true ∧ s.proxy.state.dropping = false)) := by
  unfold decide at hOk
  split_ifs at hOk with hAsks
  · dsimp only at hOk
    split at hOk
    · cases hOk
    · rename_i asked reply hAsked
      have hAdmitted := congrArg Prod.snd hOk
      exact ⟨(admittedDecision_ok hAdmitted).2.1, .inr hAsks⟩
  · cases hOk
    exact ⟨rfl, .inl rfl⟩

/- The ways an event is handled without failure. -/
inductive Handles (p : DeviceProxy) (i : Incoming) : DeviceProxy → List Record → Prop where
  | resynced (keys : Finset Nat) (epoch sequence : Nat) (talk : List Record)
      (hKeys : i.keys = .ok keys)
      (hDropping : p.state.dropping = true)
      (hReport : i.raw.isReport = true)
      (hTalk : Talk talk) :
      Handles p i
        { p with
          state := (p.state.resync keys).1.commitOutput
          epoch := epoch
          sequence := sequence
          pending := [] }
        (talk ++ (p.state.resync keys).2.map .queued ++
          [.emitted (p.pending ++ (p.state.resync keys).2)])
  | settled (decision : Operation) (sequence : Nat) (talk : List Record) (hTurn :
        ¬ (p.state.dropping = true ∧ i.raw.isReport = true))
      (hDecision : decision.isDecision = true)
      (hAsked : decision = .pass ∨ (i.raw.isKey = true ∧ p.state.dropping = false))
      (hTalk : Talk talk) :
      Handles p i (p.decided sequence i.raw decision).1 (talk ++
          .applied (p.rolledBack i.raw).state i.raw decision ::
            (p.decided sequence i.raw decision).2)

/- Key events wait for the end of their frame. -/
theorem absorbAll_keys {events : List RawEvent} (hKeys : ∀ event ∈ events, event.isKey = true) :
    p.absorbAll events = ({ p with pending := p.pending ++ events }, events.map .queued) := by
  induction events generalizing p with
  | nil => simp [DeviceProxy.absorbAll]
  | cons event events ih =>
    have hType : event.eventType = 1 := by simpa [RawEvent.isKey] using hKeys event (by simp)
    have hReport : event.isReport = false := by simp [RawEvent.isReport, hType]
    have hRest := fun q => ih (p := q) (fun e hMem => hKeys e (by simp [hMem]))
    simp [DeviceProxy.absorbAll, DeviceProxy.absorb, hType, hReport, hRest]

theorem resync_isKey {state : KeyState} {keys : Finset Nat} (hMem : event ∈ (state.resync keys).2) :
    event.isKey = true := by
  rcases KeyState.resync_events hMem with ⟨code, rfl⟩ | ⟨code, rfl, _⟩ <;> rfl

theorem resynchronise_ok (hOk : s.resynchronise socket i = (s', .ok ())) :
    ∃ keys reset told, i.keys = .ok keys ∧ s.proxy.epoch + 1 < 2 ^ 64 ∧ resetClient socket
            { s with
              proxy :=
                { s.proxy with
                  epoch := s.proxy.epoch + 1
                  state := (s.proxy.state.resync keys).1 } } =
          (reset, .ok ()) ∧
        snapshotKeys socket reset (ascending keys) = (told, .ok ()) ∧
        s' =
          { told with
            proxy := { told.proxy with state := told.proxy.state.commitOutput, pending := [] }
            log := told.log ++ (s.proxy.state.resync keys).2.map .queued ++ [.emitted
                  (told.proxy.pending ++ (s.proxy.state.resync keys).2)] } := by
  unfold resynchronise at hOk
  split at hOk
  · cases hOk
  rename_i keys hKeys
  split at hOk
  · cases hOk
  rename_i aged hAged
  unfold advanceEpoch checkedAdd at hAged
  split_ifs at hAged with hRoom
  swap
  · cases hAged
  cases hAged
  dsimp only at hOk
  split at hOk
  · cases hOk
  rename_i reset hReset
  split at hOk
  · cases hOk
  rename_i told hTold
  split at hOk
  · cases hOk
  rename_i played hPlayed
  refine ⟨keys, reset, told, hKeys, hRoom, hReset, hTold, ?_⟩
  rw [emit_ok hOk, emit_ok hPlayed, absorbAll_keys (fun event hMem => resync_isKey hMem)]
  simp [DeviceProxy.absorbAll, DeviceProxy.absorb, RawEvent.isReport, RawEvent.default]

theorem settle_ok (hOk : s.settle socket i = (s', .ok ())) :
    ∃ decided decision, s.proxy.sequence + 1 < 2 ^ 64 ∧ decide socket
            { s with
              proxy :=
                { s.proxy with sequence := s.proxy.sequence + 1 } }
            i.raw =
          (decided, .ok decision) ∧
        let p := decided.proxy.rolledBack i.raw
        let applied := p.state.apply i.raw decision
        let absorbed := DeviceProxy.absorbAll { p with state := applied.1 } applied.2
        s' =
          { decided with
            proxy := absorbed.1
            log := decided.log ++ .applied p.state i.raw decision :: absorbed.2 } := by
  unfold settle at hOk
  split at hOk
  · cases hOk
  rename_i numbered hNumbered
  rcases advanceSequence_some hNumbered with ⟨hRoom, rfl⟩
  split at hOk
  · cases hOk
  rename_i decided decision hDecided
  refine ⟨decided, decision, hRoom, hDecided, ?_⟩
  have hRolled : decided.rollback i.raw =
      { decided with proxy := decided.proxy.rolledBack i.raw } := by
    unfold rollback DeviceProxy.rolledBack
    split_ifs <;> rfl
  dsimp only at hOk
  rw [hRolled] at hOk
  rw [emit_ok hOk]
  simp [record]

theorem handle_ok (hOk : s.handle socket i = (s', .ok ())) :
    (s.proxy.state.dropping = true ∧ i.raw.isReport = true ∧
        s.resynchronise socket i = (s', .ok ())) ∨
      (¬ (s.proxy.state.dropping = true ∧ i.raw.isReport = true) ∧ s.settle socket i = (s', .ok ())) := by
  unfold handle at hOk
  split at hOk
  · cases hOk
  split_ifs at hOk with hTurn
  · exact .inl ⟨hTurn.1, hTurn.2, hOk⟩
  · exact .inr ⟨hTurn, hOk⟩

theorem resynchronise_handles (hDropping : s.proxy.state.dropping = true)
    (hReport : i.raw.isReport = true) (hOk : s.resynchronise socket i = (s', .ok ())) :
    ∃ log, s'.log = s.log ++ log ∧ Handles s.proxy i s'.proxy log := by
  rcases resynchronise_ok hOk with ⟨keys, reset, told, hKeys, _, hReset, hTold, rfl⟩
  have hConversed := (control_conversed hReset).trans (snapshotKeys_conversed hTold)
  rcases hConversed.log with ⟨talk, hLog, hTalk⟩
  have hProxy := hConversed.proxy
  dsimp only at hLog hProxy ⊢
  rw [hProxy, hLog]
  refine ⟨_, ?_, .resynced keys _ _ talk hKeys hDropping hReport hTalk⟩
  simp only [List.append_assoc]

theorem settle_handles (hTurn : ¬ (s.proxy.state.dropping = true ∧ i.raw.isReport = true))
    (hOk : s.settle socket i = (s', .ok ())) :
    ∃ log, s'.log = s.log ++ log ∧ Handles s.proxy i s'.proxy log := by
  rcases settle_ok hOk with ⟨decided, decision, _, hDecide, rfl⟩
  have hConversed := decide_conversed hDecide
  rcases decide_ok hDecide with ⟨hDecision, hAsked⟩
  rcases hConversed.log with ⟨talk, hLog, hTalk⟩
  have hProxy := hConversed.proxy
  have hRolled : decided.proxy.rolledBack i.raw =
      { s.proxy.rolledBack i.raw with sequence := decided.proxy.sequence } := by
    rw [hProxy]
    unfold DeviceProxy.rolledBack
    split_ifs <;> rfl
  dsimp only at hLog ⊢
  rw [hRolled, hLog]
  refine ⟨_, ?_, .settled decision _ talk hTurn hDecision hAsked hTalk⟩
  simp only [List.append_assoc]
  rfl

/- Whatever a handled event adds to the log. -/
theorem handle_handles (hOk : s.handle socket i = (s', .ok ())) :
    ∃ log, s'.log = s.log ++ log ∧ Handles s.proxy i s'.proxy log := by
  rcases handle_ok hOk with ⟨hDropping, hReport, hOk⟩ | ⟨hTurn, hOk⟩
  · exact resynchronise_handles hDropping hReport hOk
  · exact settle_handles hTurn hOk

theorem step_handles {p' : DeviceProxy} {c' : C} {log : List Record}
    (hStep : step socket (p, c) i = some ((p', c'), log)) : Handles p i p' log := by
  unfold step at hStep
  split at hStep
  · rename_i after hHandle
    cases hStep
    rcases handle_handles hHandle with ⟨log, hLog, hHandles⟩
    rwa [hLog]
  · cases hStep

end Session

end Sledge.Broker
