import Sledge.Linux.Wire

/-
  The daemon's end of one compositor stream
  (`packages/linux/src/hyprland/mod.rs`).

  A bridge reads one packet for each step, checks its scope,
  asks a handler for a decision and waits for the outcome.
  What the socket and the clock answer is given by a
  `Surroundings`, one for each call, so the peer may send
  anything at any time.  Each call also returns the records
  of what it read, accepted and sent.
-/

-----
-- Handlers And Surroundings

namespace Sledge.Linux

/- Faults an isolated research peer may ask for. -/
inductive ResearchFault where
  | none
  | delayDecision (nanos : Nat)
  | dropDecision
  | disconnectBeforeDecision
  | disconnectAfterDecision
deriving DecidableEq

/- What a bridge calls on the matching side. -/
class EventHandler (H : Type) where
  modifierReleaseActions : H → Bool := fun _ => false
  propose : H → Scope → Event → H × Decision
  researchFault : H → Scope → Event → H × ResearchFault := fun h _ _ => (h, .none)
  delivery : H → Scope → Event → Decision → DeliveryReport → H
  reset : H → Scope → Body → H
  unlockedEpoch : H → Scope → Body → H := reset
  disconnected : H → H

/- A connected stream socket. -/
structure Transport where
  fd : Nat
deriving DecidableEq

/-
  What the socket and the clock answer during one step. `idle` says that nothing was
  readable before the idle deadline; `sent` covers a refused encoding.
-/
structure Surroundings where
  idle : Bool
  received : Except IoError Packet
  validatedAt : Except IoError Nat
  faultAt : Except IoError Nat
  sent : Except IoError Unit
  acknowledged : Except IoError Packet

namespace Surroundings

/- A timely read of one packet. -/
def reading (packet : Packet) : Surroundings where
  idle := false
  received := .ok packet
  validatedAt := .ok (packet.scope.deadlineNs - 1)
  faultAt := .ok 0
  sent := .ok ()
  acknowledged := .error invalid

end Surroundings

/- What a new socket and the clock answer to a handshake. -/
structure Greeting where
  received : Except IoError Packet
  greetedAt : Except IoError Nat
  sent : Except IoError Unit

/-
  What a call did with its connection, in order.  A new connection is recorded with the
  epoch it starts at.
-/
inductive Record where
  | received
  | validated (packet : Packet)
  | retired (generation : Nat)
  | sent (packet : Packet)
  | connected (nonce epoch : Nat)
deriving DecidableEq

def maxRetiredGenerations : Nat := 4096

def maxConnectionNonces : Nat := 64

structure Bridge where
  transport : Option Transport
  nonce : Nat
  epoch : Nat
  sequence : Nat
  retired : Finset Nat
  previousNonces : Finset Nat
  awaitingReconciliation : Bool
  locked : Bool

namespace Bridge

/- A bridge on its first connection. -/
def fresh (nonce : Nat) : Bridge where
  transport := some ⟨0⟩
  nonce := nonce
  epoch := 0
  sequence := 0
  retired := ∅
  previousNonces := ∅
  awaitingReconciliation := true
  locked := false

def peerIdentity : Identity where
  capabilities := 0
  apiHash := "api"
  artifact := "artifact"

end Bridge

/- The state, result and records a call leaves behind. -/
structure Turn (H α : Type) where
  bridge : Bridge
  handler : H
  result : Except IoError α
  log : List Record

-----
-- Connections

namespace Bridge

/- Check a received Hello and acknowledge it. -/
def handshakePacket (transport : Transport) (expected : Identity) (passive : Bool)
    (greeting : Greeting) (hello : Packet) : Except IoError Bridge :=
  match hello.body with
  | .hello identity =>
    let timely : Except IoError Unit := if passive then
        if hello.scope.lockEpoch ≠ 0 ∨ hello.scope.deadlineNs ≠ 0 then
          .error invalid
        else .ok ()
      else
        checkDeadline greeting.greetedAt hello.scope.deadlineNs
    match timely with
    | .error error => .error error
    | .ok () =>
      if identity ≠ expected ∨ identity.apiHash = "" ∨ identity.artifact = "" ∨
          hello.scope.generation ≠ 0 ∨
          hello.scope.sequence ≠ 0 ∨
          hello.scope.nonce = 0 then
        .error invalid
      else
        match greeting.sent with
        | .error error => .error error
        | .ok () =>
          .ok
            { transport := some transport
              nonce := hello.scope.nonce
              epoch := hello.scope.lockEpoch
              sequence := 0
              retired := ∅
              previousNonces := ∅
              awaitingReconciliation := true
              locked := false }
  | _ => .error invalid

def handshakeInner (transport : Transport) (expected : Identity) (passive : Bool)
    (greeting : Greeting) : Except IoError Bridge :=
  match greeting.received with
  | .error error => .error error
  | .ok hello => handshakePacket transport expected passive greeting hello

def handshake (transport : Transport) (expected : Identity) (greeting : Greeting) :
    Except IoError Bridge :=
  handshakeInner transport expected false greeting

def passiveHandshake (transport : Transport) (expected : Identity) (greeting : Greeting) :
    Except IoError Bridge :=
  if expected.capabilities ≠ 0 then .error invalid
  else handshakeInner transport expected true greeting

/-
  Replace a closed transport.  The epoch, the lock state and the retired generations
  survive; the nonce must be new.
-/
def reconnect (b : Bridge) (transport : Transport) (expected : Identity) (greeting : Greeting) :
    Bridge × Except IoError Unit × List Record :=
  if expected.capabilities ≠ 0 ∨ b.transport.isSome ∨
      maxConnectionNonces ≤ b.previousNonces.card then
    (b, .error invalid, [])
  else
    match greeting.received with
    | .error error => (b, .error error, [])
    | .ok hello =>
      -- The nonce is checked before HelloAck is sent.
      if hello.scope.nonce = b.nonce ∨ hello.scope.nonce ∈ b.previousNonces then
        (b, .error invalid, [])
      else
        match handshakePacket transport expected true greeting hello with
        | .error error => (b, .error error, [])
        | .ok fresh =>
          ({ b with
              previousNonces := insert b.nonce b.previousNonces
              nonce := fresh.nonce
              sequence := 0
              transport := fresh.transport
              awaitingReconciliation := true },
            .ok (), [.connected fresh.nonce b.epoch])

variable {b b' : Bridge}

theorem handshakePacket_fresh {transport : Transport} {expected : Identity} {greeting : Greeting}
    {hello : Packet}
    (hFresh : handshakePacket transport expected true greeting hello = .ok b) :
    hello.scope.nonce ≠ 0 ∧ b = { fresh hello.scope.nonce with transport := some transport } := by
  unfold handshakePacket at hFresh
  split at hFresh
  · dsimp only at hFresh
    simp only [if_true] at hFresh
    split_ifs at hFresh with hPassive hRefused
    push Not at hPassive hRefused
    dsimp only at hFresh
    split at hFresh <;> cases hFresh
    exact ⟨hRefused.2.2.2.2.2, by rw [hPassive.1]; rfl⟩
  · cases hFresh

theorem passiveHandshake_fresh {transport : Transport} {expected : Identity} {greeting : Greeting}
    (hFresh : passiveHandshake transport expected greeting = .ok b) :
    b.nonce ≠ 0 ∧ b = { fresh b.nonce with transport := some transport } := by
  unfold passiveHandshake at hFresh
  split_ifs at hFresh
  unfold handshakeInner at hFresh
  split at hFresh
  · cases hFresh
  · rcases handshakePacket_fresh hFresh with ⟨hNonzero, rfl⟩
    exact ⟨hNonzero, rfl⟩

/- A connection is refused, or it is the first with its nonce. -/
theorem reconnect_cases (b : Bridge) (transport : Transport) (expected : Identity)
    (greeting : Greeting) :
    (∃ error, b.reconnect transport expected greeting = (b, .error error, [])) ∨ ∃ nonce,
        b.transport = none ∧ nonce ≠ 0 ∧ nonce ≠ b.nonce ∧ nonce ∉ b.previousNonces ∧
          b.reconnect transport expected greeting =
            ({ b with
                previousNonces := insert b.nonce b.previousNonces
                nonce := nonce
                sequence := 0
                transport := some transport
                awaitingReconciliation := true },
              .ok (), [.connected nonce b.epoch]) := by
  unfold reconnect
  split_ifs with hRefused
  · exact .inl ⟨_, rfl⟩
  · push Not at hRefused
    split
    · exact .inl ⟨_, rfl⟩
    · split_ifs with hUsed
      · exact .inl ⟨_, rfl⟩
      · push Not at hUsed
        split
        · exact .inl ⟨_, rfl⟩
        · rename_i hFresh
          rcases handshakePacket_fresh hFresh with ⟨hNonzero, rfl⟩
          exact .inr ⟨_, by simpa using hRefused.2.1, hNonzero, hUsed.1, hUsed.2, rfl⟩

/- Close an uncertain transport; its history is kept. -/
def requestReconciliation {H : Type} [EventHandler H] (b : Bridge) (h : H) : Bridge × H :=
  ({ b with transport := none, awaitingReconciliation := true }, EventHandler.disconnected h)

-----
-- Packets

variable {H : Type} [EventHandler H]

/- The scope an accepted packet leaves behind. -/
def accept (b : Bridge) (packet : Packet) : Bridge :=
  { b with
    sequence := packet.scope.sequence
    epoch := packet.scope.lockEpoch
    locked :=
      match packet.body with
      | .lock state _ => state != 0
      | _ => b.locked }

/- Why the scope of a timely packet is refused, if it is. -/
def scopeReason (b : Bridge) (packet : Packet) : Option String :=
  let scope := packet.scope
  let lock := packet.body.isLock
  if scope.nonce ≠ b.nonce then some "nonce mismatch"
  else if scope.sequence ≤ b.sequence then
    some "sequence not increasing"
  else if scope.generation ∈ b.retired then
    some "retired generation"
  else if lock ∧ scope.generation ≠ 0 then
    some "lock generation must be global"
  else if lock ∧ scope.lockEpoch ≤ b.epoch then
    some "lock epoch not advancing"
  else if ¬ lock ∧ scope.lockEpoch ≠ b.epoch then
    some "epoch mismatch"
  else if packet.body.isEvent ∧ scope.generation = 0 then
    some "event generation zero"
  else none

def validate (b : Bridge) (now : Except IoError Nat) (packet : Packet) : Except IoError Bridge :=
  match checkDeadline now packet.scope.deadlineNs with
  | .error error => .error error
  | .ok () =>
    match b.scopeReason packet with
    | some reason => .error (scopeError reason packet.scope b.nonce b.sequence b.epoch)
    | none => .ok (b.accept packet)

def applyBeforeFault (fault : ResearchFault) (faultAt : Except IoError Nat) (deadlineNs : Nat) :
    Except IoError Unit :=
  match fault with
  | .none => .ok ()
  | .disconnectAfterDecision => .ok ()
  | .delayDecision _ => checkDeadline faultAt deadlineNs
  | .dropDecision =>
    match faultAt with
    | .error error => .error error
    | .ok _ => .error ⟨.timedOut, "selected dropped decision; outcome uncertain"⟩
  | .disconnectBeforeDecision => .error ⟨.connectionAborted, "selected disconnect before decision"⟩

/- The packet after a decision must be its own outcome. -/
def acknowledgement (packet : Packet) (event : Event) (decision : Decision)
    (received : Except IoError Packet) : Except IoError Outcome :=
  match received with
  | .error error => .error error
  | .ok ack =>
    match ack.body with
    | .outcome outcome =>
      if ack.scope ≠ packet.scope ∨ outcome.key ≠ event.key ∨ outcome.state ≠ event.state ∨
          outcome.focusEpoch ≠ event.focusEpoch ∨
          (outcome.result = .replaced ∧ ¬ decision.isReplace) ∨
          (event.state = 1 ∧ outcome.result = .swallowCommitted ∧ decision ≠ .swallow) then
        .error invalid
      else .ok outcome
    | _ => .error invalid

/- What an acknowledgement reports to the handler. -/
def reportOf (result : Except IoError Outcome) : DeliveryReport :=
  match result with
  | .ok outcome => .acknowledged outcome
  | .error _ => .uncertain

/- What an acknowledgement leaves of the connection. -/
def settle (result : Except IoError Outcome) : Except IoError Unit :=
  match result with
  | .error error => .error error
  | .ok outcome =>
    if outcome.result = .partialUncertainFatal then
      .error ⟨.connectionAborted, "native partial output requires reconciliation"⟩
    else .ok ()

/- Whether a matcher is asked about an event. -/
def proposes (b : Bridge) (h : H) (event : Event) (research : Bool) : Bool :=
  research && !b.locked && (event.state == 1 || (event.state == 0 &&
        EventHandler.modifierReleaseActions h))

/- The decision on an event; `pass` when none is asked for. -/
def decide (b : Bridge) (h : H) (packet : Packet) (event : Event) (research : Bool) :
    H × Decision :=
  if b.proposes h event research then
    EventHandler.propose h packet.scope event
  else (h, .pass)

def selectFault (b : Bridge) (h : H) (packet : Packet) (event : Event) (research : Bool) :
    H × ResearchFault :=
  if research && !b.locked && event.state == 1 then
    EventHandler.researchFault h packet.scope event
  else (h, .none)

/- Send a decision and wait for its outcome. -/
def transact (b : Bridge) (h : H) (packet : Packet) (event : Event) (decision : Decision)
    (fault : ResearchFault) (env : Surroundings) : H × Except IoError Unit × List Record :=
  let report := fun (h : H) (report : DeliveryReport) =>
    EventHandler.delivery h packet.scope event decision report
  match b.transport with
  | none => (h, .error invalid, [])
  | some _ =>
    let sent := Record.sent ⟨packet.scope, .decision decision⟩
    match env.sent with
    | .error error => (report h .uncertain, .error error, [sent])
    | .ok () =>
      if fault = .disconnectAfterDecision then
        (report h .uncertain, .error ⟨.connectionAborted, "selected disconnect after decision"⟩,
          [sent])
      else
        let result := acknowledgement packet event decision env.acknowledged
        (report h (reportOf result), settle result, [sent, .received])

def eventTraced (b : Bridge) (h : H) (packet : Packet) (event : Event) (deadlineNs : Nat)
    (research : Bool) (env : Surroundings) : H × Except IoError Unit × List Record :=
  let (h, decision) := b.decide h packet event research
  let deadline := min deadlineNs packet.scope.deadlineNs
  let (h, fault) := b.selectFault h packet event research
  match applyBeforeFault fault env.faultAt deadline with
  | .error error =>
    (EventHandler.delivery h packet.scope event decision .uncertain, .error error, [])
  | .ok () => b.transact h packet event decision fault env

/- Why a reconciliation packet is refused, if it is. -/
def reconciliationReason (b : Bridge) (packet : Packet) : Option String :=
  if packet.scope.generation ≠ 0 then
    some "reconciliation generation not global"
  else if b.locked then some "reconciliation while locked"
  else if ¬ b.awaitingReconciliation then
    some "unsolicited reconciliation reason8"
  else none

/- The bridge's own part in a lifecycle control. -/
def control (b : Bridge) (packet : Packet) : Bridge × Except IoError Unit :=
  match packet.body with
  | .reset 8 =>
    match b.reconciliationReason packet with
    | some reason => (b, .error (scopeError reason packet.scope b.nonce b.sequence b.epoch))
    | none => ({ b with awaitingReconciliation := false }, .ok ())
  | .retire _ =>
    if maxRetiredGenerations ≤ b.retired.card ∨ packet.scope.generation ∈ b.retired then
      (b, .error invalid)
    else
      ({ b with retired := insert packet.scope.generation b.retired }, .ok ())
  | body =>
    if body.isLifecycleReset ∧ packet.scope.generation = 0 then
      ({ b with awaitingReconciliation := true }, .ok ())
    else (b, .ok ())

/- Everything a lifecycle control can do to the bridge. -/
inductive Controls (b : Bridge) (packet : Packet) : Bridge → Except IoError Unit → Prop where
  | refused (error : IoError) : Controls b packet b (.error error)
  | reconciled (hBody : packet.body = .reset 8) (hReason : b.reconciliationReason packet = none) :
      Controls b packet { b with awaitingReconciliation := false } (.ok ())
  | retired (hBody : packet.body.isRetire = true) (hRoom : b.retired.card < maxRetiredGenerations)
      (hNew : packet.scope.generation ∉ b.retired) :
      Controls b packet { b with retired := insert packet.scope.generation b.retired } (.ok ())
  | awaited (hBody : packet.body.isLifecycleReset = true) (hGlobal : packet.scope.generation = 0) :
      Controls b packet { b with awaitingReconciliation := true } (.ok ())
  | unchanged (hReconciliation : packet.body ≠ .reset 8) (hRetire : packet.body.isRetire = false)
      (hLifecycle : ¬ (packet.body.isLifecycleReset = true ∧ packet.scope.generation = 0)) :
      Controls b packet b (.ok ())

theorem Controls.nonce {packet : Packet} {result : Except IoError Unit}
    (hControls : b.Controls packet b' result) : b'.nonce = b.nonce := by
  cases hControls <;> rfl

theorem Controls.sequence {packet : Packet} {result : Except IoError Unit}
    (hControls : b.Controls packet b' result) : b'.sequence = b.sequence := by
  cases hControls <;> rfl

theorem control_controls (b : Bridge) (packet : Packet) :
    Controls b packet (b.control packet).1 (b.control packet).2 := by
  generalize hControl : b.control packet = answer
  unfold control at hControl
  split at hControl
  · rename_i hBody
    cases hReason : b.reconciliationReason packet with
    | some reason =>
      rw [hReason] at hControl
      subst hControl
      exact .refused _
    | none =>
      rw [hReason] at hControl
      subst hControl
      exact .reconciled hBody hReason
  · rename_i hBody
    split_ifs at hControl with hFull
    · subst hControl
      exact .refused _
    · push Not at hFull
      subst hControl
      exact .retired (by rw [hBody]; rfl) hFull.1 hFull.2
  · rename_i hReset hRetire
    have hOther : packet.body.isRetire = false := by
      cases hBody : packet.body with
      | retire reason => exact absurd hBody (hRetire reason)
      | _ => rfl
    split_ifs at hControl with hLifecycle
    · subst hControl
      exact .awaited hLifecycle.1 hLifecycle.2
    · subst hControl
      exact .unchanged hReset hOther hLifecycle

/- The records of an accepted lifecycle control. -/
def controlLog (packet : Packet) : List Record :=
  if packet.body.isRetire then
    [.retired packet.scope.generation]
  else []

/- Tell the handler about an accepted lifecycle control. -/
def notify (h : H) (unlockedEpoch : Bool) (packet : Packet) : H :=
  if unlockedEpoch then
    EventHandler.unlockedEpoch h packet.scope packet.body
  else EventHandler.reset h packet.scope packet.body

/- Handle a lifecycle control whose scope was accepted. -/
def handleControl (b : Bridge) (h : H) (packet : Packet) (unlockedEpoch : Bool) : Turn H Unit :=
  match b.control packet with
  | (b, .error error) => ⟨b, h, .error error, []⟩
  | (b, .ok ()) => ⟨b, notify h unlockedEpoch packet, .ok (), controlLog packet⟩

/- Handle a packet whose scope was accepted. -/
def handle (b : Bridge) (h : H) (packet : Packet) (unlockedEpoch : Bool) (deadlineNs : Nat)
    (research : Bool) (env : Surroundings) : Turn H Unit :=
  match packet.body with
  | .event event =>
    let (h, result, log) := b.eventTraced h packet event deadlineNs research env
    ⟨b, h, result, log⟩
  | .reset _ | .retire _ | .lock _ _ => b.handleControl h packet unlockedEpoch
  | _ => ⟨b, h, .error invalid, []⟩

/- A Lock(0) received while already unlocked. -/
def unlockedLock (b : Bridge) (packet : Packet) : Bool :=
  !b.locked &&
    match packet.body with
    | .lock 0 _ => true
    | _ => false

def processPacket (b : Bridge) (h : H) (packet : Packet) (deadlineNs : Nat) (research : Bool)
    (env : Surroundings) : Turn H Unit :=
  match b.validate env.validatedAt packet with
  | .error error => ⟨b, h, .error error, []⟩
  | .ok valid =>
    let turn := valid.handle h packet (b.unlockedLock packet) deadlineNs research env
    { turn with log := .validated packet :: turn.log }

-----
-- Accepted Scopes

variable {packet : Packet}

/- What an accepted scope says. -/
structure InScope (b : Bridge) (packet : Packet) : Prop where
  nonce : packet.scope.nonce = b.nonce
  sequence : b.sequence < packet.scope.sequence
  generation : packet.scope.generation ∉ b.retired
  globalLock : packet.body.isLock = true → packet.scope.generation = 0
  epoch : b.epoch ≤ packet.scope.lockEpoch
  lockEpoch : packet.body.isLock = true → b.epoch < packet.scope.lockEpoch
  sameEpoch : packet.body.isLock = false → packet.scope.lockEpoch = b.epoch
  eventGeneration : packet.body.isEvent = true → packet.scope.generation ≠ 0

theorem scopeReason_eq_none : b.scopeReason packet = none ↔ b.InScope packet := by
  constructor
  · intro hNone
    simp only [scopeReason] at hNone
    split_ifs at hNone with hNonce hSequence hRetired hGlobal hLock hEpoch hEvent
    push Not at hNonce hSequence hGlobal hLock hEpoch hEvent
    refine ⟨hNonce, hSequence, hRetired, hGlobal, ?_, hLock, ?_, hEvent⟩
    · cases hBody : packet.body.isLock with
      | true => exact (hLock hBody).le
      | false => exact (hEpoch (by simp [hBody])).ge
    · intro hBody
      exact hEpoch (by simp [hBody])
  · intro hScope
    unfold scopeReason
    rw [if_neg (not_not_intro hScope.nonce),
      if_neg hScope.sequence.not_ge, if_neg hScope.generation,
      if_neg (fun h => h.2 (hScope.globalLock h.1)),
      if_neg (fun h => h.2.not_gt (hScope.lockEpoch h.1)),
      if_neg, if_neg (fun h => hScope.eventGeneration h.1 h.2)]
    rintro ⟨hBody, hOther⟩
    exact hOther (hScope.sameEpoch (by simpa using hBody))

theorem validate_eq_ok {now : Except IoError Nat} {valid : Bridge}
    (hValid : b.validate now packet = .ok valid) : b.InScope packet ∧ valid = b.accept packet := by
  unfold validate at hValid
  split at hValid
  · cases hValid
  · split at hValid
    · cases hValid
    · rename_i hNone
      exact ⟨scopeReason_eq_none.mp hNone, (Except.ok.inj hValid).symm⟩

-----
-- Steps

/- Close the connection when a step failed. -/
def closeOnError {α : Type} (turn : Turn H α) : Turn H α :=
  match turn.result with
  | .ok _ => turn
  | .error _ =>
    { turn with
      bridge := { turn.bridge with transport := none }
      handler := EventHandler.disconnected turn.handler }

def stepInner (b : Bridge) (h : H) (deadlineNs : Nat) (research : Bool) (env : Surroundings) :
    Turn H Unit :=
  match b.transport with
  | none => ⟨b, h, .error invalid, []⟩
  | some _ =>
    match env.received with
    | .error error => ⟨b, h, .error error, [.received]⟩
    | .ok packet =>
      let turn := b.processPacket h packet deadlineNs research env
      { turn with log := .received :: turn.log }

/- `step`, or `research_step` when `research` is set. -/
def stepMode (b : Bridge) (h : H) (deadlineNs : Nat) (research : Bool) (env : Surroundings) :
    Turn H Unit :=
  closeOnError (b.stepInner h deadlineNs research env)

/- The body of `ready_mode` before its error handling. -/
def readyInner (b : Bridge) (h : H) (research : Bool) (env : Surroundings) : Turn H Bool :=
  match b.transport with
  | none => ⟨b, h, .error invalid, []⟩
  | some _ =>
    if env.idle then ⟨b, h, .ok false, []⟩
    else
      match env.received with
      | .error error => ⟨b, h, .error error, [.received]⟩
      | .ok packet =>
        let turn := b.processPacket h packet packet.scope.deadlineNs research env
        ⟨turn.bridge, turn.handler, turn.result.map (fun _ => true), .received :: turn.log⟩

/-
  `passive_step_if_ready`, or its research and admitted variants when `research` is set.
-/
def readyMode (b : Bridge) (h : H) (research : Bool) (env : Surroundings) : Turn H Bool :=
  closeOnError (b.readyInner h research env)

/- A call on a bridge. -/
inductive Op where
  | step (deadlineNs : Nat) (research : Bool) (env : Surroundings)
  | stepIfReady (research : Bool) (env : Surroundings)
  | requestReconciliation
  | reconnect (transport : Transport) (expected : Identity) (greeting : Greeting)

namespace Op

def isStep : Op → Bool
  | .step _ _ _ => true
  | .stepIfReady _ _ => true
  | _ => false

def isReconnect : Op → Bool
  | .reconnect _ _ _ => true
  | _ => false

end Op

/- What a call returned, and its records. -/
structure Answer where
  result : Except IoError Unit
  log : List Record

namespace Answer

def failed (answer : Answer) : Bool :=
  match answer.result with
  | .ok _ => false
  | .error _ => true

end Answer

def answerOf {α : Type} (turn : Turn H α) : Answer := ⟨turn.result.map (fun _ => ()), turn.log⟩

/- One call on a bridge and its handler; it always returns. -/
def perform (s : Bridge × H) : Op → (Bridge × H) × Answer
  | .step deadlineNs research env =>
    let turn := s.1.stepMode s.2 deadlineNs research env
    ((turn.bridge, turn.handler), answerOf turn)
  | .stepIfReady research env =>
    let turn := s.1.readyMode s.2 research env
    ((turn.bridge, turn.handler), answerOf turn)
  | .requestReconciliation => (s.1.requestReconciliation s.2, ⟨.ok (), []⟩)
  | .reconnect transport expected greeting =>
    let (b, result, log) :=
      s.1.reconnect transport expected greeting
    ((b, s.2), ⟨result, log⟩)

def next (s : Bridge × H) (op : Op) : Option ((Bridge × H) × Answer) := some (perform s op)

theorem next_eq_some {s t : Bridge × H} {op : Op} {answer : Answer}
    (hNext : next s op = some (t, answer)) : perform s op = (t, answer) :=
  Option.some.inj hNext

abbrev Entry (H : Type) := Transition.Entry (Bridge × H) Op Answer

/- The records of a run, in order. -/
def history (trace : List (Entry H)) : List Record := trace.flatMap (fun e => e.out.log)

end Bridge

-----
-- What A Call Does

namespace Record

/- Records nothing later has to be checked against. -/
def isQuiet : Record → Bool
  | .received => true
  | .sent _ => true
  | _ => false

end Record

namespace Bridge

namespace Op

/- The packet a step finds on its socket. -/
def reads : Op → Option Packet
  | .step _ _ env => env.received.toOption
  | .stepIfReady _ env =>
    if env.idle then none else env.received.toOption
  | _ => none

end Op

/- What a packet does to a bridge, its records, and whether it is taken. -/
inductive Processed (b : Bridge) (packet : Packet) : Bridge → List Record → Bool → Prop where
  | invalid : Processed b packet b [] false
  | refused (hScope : b.InScope packet) :
      Processed b packet (b.accept packet) [.validated packet] false
  | controlled {b' : Bridge} (hScope : b.InScope packet)
      (hControls : (b.accept packet).Controls packet b' (.ok ())) :
      Processed b packet b' (.validated packet :: controlLog packet) true
  | traced {log : List Record} {taken : Bool} (hScope : b.InScope packet)
      (hBody : packet.body.isEvent = true)
      (hQuiet : ∀ r ∈ log, r.isQuiet = true) :
      Processed b packet (b.accept packet) (.validated packet :: log) taken

/- Everything a call can do to a bridge, its records, and whether it fails. -/
inductive Performed (b : Bridge) : Op → Bridge → List Record → Bool → Prop where
  | idle {op : Op} (hReads : op.reads = none) (hConnected : b.transport.isSome = true) :
      Performed b op b [] false
  | offline {op : Op} (hClosed : b.transport = none) :
      Performed b op { b with transport := none } [] true
  | broken {op : Op} (hReads : op.reads = none) (hConnected : b.transport.isSome = true) :
      Performed b op { b with transport := none } [.received] true
  | requested : Performed b .requestReconciliation
        { b with transport := none, awaitingReconciliation := true } [] false
  | took {op : Op} {b' : Bridge} {log : List Record} (packet : Packet)
      (hReads : op.reads = some packet)
      (hConnected : b.transport.isSome = true)
      (hProcessed : b.Processed packet b' log true) :
      Performed b op b' (.received :: log) false
  | failed {op : Op} {b' : Bridge} {log : List Record} (packet : Packet)
      (hReads : op.reads = some packet)
      (hConnected : b.transport.isSome = true)
      (hProcessed : b.Processed packet b' log false) :
      Performed b op { b' with transport := none } (.received :: log) true
  | refused (transport : Transport) (expected : Identity) (greeting : Greeting) :
      Performed b (.reconnect transport expected greeting) b [] true
  | connected (transport : Transport) (expected : Identity) (greeting : Greeting) (nonce : Nat)
      (hClosed : b.transport = none)
      (hUnused : nonce ≠ b.nonce ∧ nonce ∉ b.previousNonces) :
      Performed b (.reconnect transport expected greeting)
        { b with
          previousNonces := insert b.nonce b.previousNonces
          nonce := nonce
          sequence := 0
          transport := some transport
          awaitingReconciliation := true }
        [.connected nonce b.epoch] false

variable {H : Type} [EventHandler H] {b : Bridge} {h : H} {packet : Packet} {env : Surroundings}

theorem transact_quiet (event : Event) (decision : Decision) (fault : ResearchFault) :
    ∀ r ∈ (b.transact h packet event decision fault env).2.2, r.isQuiet = true := by
  unfold transact
  cases b.transport with
  | none => simp
  | some transport =>
    cases env.sent with
    | error error => simp [Record.isQuiet]
    | ok _ => split_ifs <;> simp [Record.isQuiet]

theorem eventTraced_quiet (event : Event) (deadlineNs : Nat) (research : Bool) :
    ∀ r ∈ (b.eventTraced h packet event deadlineNs research env).2.2, r.isQuiet = true := by
  simp only [eventTraced]
  split
  · simp
  · exact transact_quiet event _ _

theorem processPacket_processed (b : Bridge) (h : H) (packet : Packet) (deadlineNs : Nat)
    (research : Bool) (env : Surroundings) :
    let turn := b.processPacket h packet deadlineNs research env
    b.Processed packet turn.bridge turn.log turn.result.isOk := by
  unfold processPacket
  cases hValid : b.validate env.validatedAt packet with
  | error error => exact .invalid
  | ok valid =>
    rcases validate_eq_ok hValid with ⟨hScope, rfl⟩
    simp only [handle]
    cases hBody : packet.body with
    | event event =>
      exact .traced hScope (by rw [hBody]; rfl) (eventTraced_quiet event deadlineNs research)
    | reset _ | retire _ | lock _ _ =>
      have hControls := (b.accept packet).control_controls packet
      simp only [handleControl]
      rcases hControl : (b.accept packet).control packet with ⟨b', _ | ⟨⟩⟩
      · rw [hControl] at hControls
        cases hControls
        exact .refused hScope
      · rw [hControl] at hControls
        exact .controlled hScope hControls
    | _ => exact .refused hScope

theorem isOk_map {ε α β : Type} (f : α → β) (result : Except ε α) :
    (result.map f).isOk = result.isOk := by
  cases result <;> rfl

theorem Processed.performed {α : Type} {op : Op} {turn : Turn H α} {log : List Record}
    (hProcessed : b.Processed packet turn.bridge log turn.result.isOk)
    (hReads : op.reads = some packet) (hConnected : b.transport.isSome = true)
    (hLog : turn.log = .received :: log) :
    b.Performed op (closeOnError turn).bridge (closeOnError turn).log
      (answerOf (closeOnError turn)).failed := by
  unfold closeOnError
  cases hResult : turn.result with
  | ok a =>
    rw [hResult] at hProcessed
    simp only [hLog, answerOf, hResult]
    exact .took packet hReads hConnected hProcessed
  | error error =>
    rw [hResult] at hProcessed
    simp only [hLog, answerOf]
    exact .failed packet hReads hConnected hProcessed

theorem perform_performed (s : Bridge × H) (op : Op) :
    s.1.Performed op (perform s op).1.1 (perform s op).2.log (perform s op).2.failed := by
  cases op with
  | step deadlineNs research env =>
    simp only [perform, stepMode]
    cases hTransport : s.1.transport with
    | none =>
      simp only [stepInner, hTransport]
      exact .offline hTransport
    | some transport =>
      have hConnected : s.1.transport.isSome = true := by
        rw [hTransport]
        rfl
      have hReads : (Op.step deadlineNs research env).reads = env.received.toOption := rfl
      cases hReceived : env.received with
      | error error =>
        rw [hReceived] at hReads
        simp only [stepInner, hTransport, hReceived]
        exact .broken hReads hConnected
      | ok packet =>
        rw [hReceived] at hReads
        simp only [stepInner, hTransport, hReceived]
        exact Processed.performed (s.1.processPacket_processed s.2 packet deadlineNs research env)
          hReads hConnected rfl
  | stepIfReady research env =>
    simp only [perform, readyMode]
    cases hTransport : s.1.transport with
    | none =>
      simp only [readyInner, hTransport]
      exact .offline hTransport
    | some transport =>
      have hConnected : s.1.transport.isSome = true := by
        rw [hTransport]
        rfl
      have hReads : (Op.stepIfReady research env).reads =
          if env.idle then none else env.received.toOption := rfl
      cases hIdle : env.idle with
      | true =>
        rw [hIdle] at hReads
        simp only [readyInner, hTransport, hIdle, if_true]
        exact .idle hReads hConnected
      | false =>
        cases hReceived : env.received with
        | error error =>
          rw [hIdle, hReceived] at hReads
          simp only [readyInner, hTransport, hIdle, hReceived]
          exact .broken hReads hConnected
        | ok packet =>
          rw [hIdle, hReceived] at hReads
          simp only [readyInner, hTransport, hIdle, hReceived]
          have hProcessed := s.1.processPacket_processed s.2 packet packet.scope.deadlineNs
              research env
          dsimp only at hProcessed
          rw [← isOk_map (fun _ => true)] at hProcessed
          exact hProcessed.performed hReads hConnected rfl
  | requestReconciliation => exact .requested
  | reconnect transport expected greeting =>
    simp only [perform]
    rcases s.1.reconnect_cases transport expected greeting with
      ⟨error, hRefused⟩ | ⟨nonce, hClosed, _, hOther, hUnused, hConnected⟩
    · rw [hRefused]
      exact .refused transport expected greeting
    · rw [hConnected]
      exact .connected transport expected greeting nonce hClosed ⟨hOther, hUnused⟩

variable {op : Op} {b' : Bridge} {log : List Record} {failed : Bool}

/- A packet on the socket is taken, or the connection closed. -/
theorem Performed.of_read (hPerformed : b.Performed op b' log failed)
    (hReads : op.reads = some packet) (hConnected : b.transport.isSome = true) :
    (∃ rest, b.Processed packet b' rest true) ∨ ∃ mid rest,
        b.Processed packet mid rest false ∧ b' = { mid with transport := none } := by
  cases hPerformed with
  | idle hNone | broken hNone => simp [hNone] at hReads
  | offline hClosed => simp [hClosed] at hConnected
  | requested | refused | connected => cases hReads
  | took _ hFound _ hProcessed =>
    rw [hReads] at hFound
    cases hFound
    exact .inl ⟨_, hProcessed⟩
  | failed _ hFound _ hProcessed =>
    rw [hReads] at hFound
    cases hFound
    exact .inr ⟨_, _, hProcessed, rfl⟩

/- Without a packet nothing changes, or the connection is closed. -/
theorem Performed.of_unread (hPerformed : b.Performed op b' log failed)
    (hReads : b.transport = none ∨ op.reads = none) (hOp : op.isReconnect = false) :
    b' = b ∨ ∃ awaiting, b' = { b with transport := none, awaitingReconciliation := awaiting } := by
  cases hPerformed with
  | idle => exact .inl rfl
  | offline | broken | requested => exact .inr ⟨_, rfl⟩
  | took _ hFound hConnected | failed _ hFound hConnected => simp_all
  | refused | connected => cases hOp

end Bridge

end Sledge.Linux
