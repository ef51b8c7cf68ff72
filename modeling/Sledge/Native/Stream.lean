import Sledge.Linux.Wire
import Sledge.Native.Authority
import Sledge.Native.PhysicalDevices

/-
  The adapter's side of the packet stream
  (`native/hyprland/stock_adapter.cpp`, with
  `initial_reconciliation.hpp`, `lock_phase.hpp`,
  `drain_state.hpp` and the packets of `stock_wire.hpp`).

  The compositor calls hooks, one at a time, and stock code
  that a hook calls may call hooks again, while the worker
  may lose its connection or make a new one.  A hook is
  split where it calls stock code and where it looks at the
  worker again, so a run is a sequence of the pieces below
  in any order.  `inputKey` ends in two of them: up to the
  routing of the key, and from the return of the stock key
  handler on.

  Every piece returns what it did to the counters and which
  packets went out.  The clock, the room in the worker's
  ring and the answers of the compositor are arguments.
-/

-----
-- Phases And Packets

namespace Sledge.Native

inductive LockPhase where
  | opened
  | entering
  | locked
deriving DecidableEq

namespace LockPhase

def routeLocked (phase : LockPhase) : Bool := phase != .opened

/- Whether the compositor's answer proves an unlock. -/
def observe (phase : LockPhase) (protocolLocked : Bool) : LockPhase × Bool :=
  match phase, protocolLocked with
  | .entering, _ => (.entering, false)
  | _, true => (.locked, false)
  | .locked, false => (.opened, true)
  | .opened, false => (.opened, false)

def originalReturned (phase : LockPhase) (protocolLocked : Bool) : LockPhase :=
  if phase = .entering ∧ protocolLocked then .locked
  else phase

end LockPhase

inductive DrainState where
  | running
  | draining
  | detached
deriving DecidableEq

namespace DrainState

def request : DrainState → DrainState
  | .running => .draining
  | drain => drain

def active (drain : DrainState) : Bool := drain != .running

def mayPropose (drain : DrainState) : Bool := drain == .running

def commit (drain : DrainState) (proof : Bool) : DrainState :=
  if drain = .draining ∧ proof then .detached else drain

end DrainState

inductive Opcode where
  | reset
  | retire
  | lock
deriving DecidableEq

namespace Opcode

def body (opcode : Opcode) (value : Nat) : Linux.Body :=
  match opcode with
  | .reset => .reset value
  | .retire => .retire value
  | .lock => .lock value 0

/- The value or the device does not go with the opcode. -/
def refuses (opcode : Opcode) (device value : Nat) : Bool :=
  match opcode with
  | .lock => decide (2 < value) || device != 0
  | .reset => decide (8 < value) || (value == 8 && device != 0)
  | .retire => decide (7 < value) || device == 0

end Opcode

/- A scope that no packet may carry. -/
def unscoped (scope : Linux.Scope) : Bool :=
  scope.nonce == 0 || scope.sequence == 0 || scope.deadlineNs == 0

def control (opcode : Opcode) (scope : Linux.Scope) (value : Nat) : Option Linux.Packet :=
  if unscoped scope || opcode.refuses scope.generation value then
    none
  else some ⟨scope, opcode.body value⟩

def eventPacket (scope : Linux.Scope) (event : Linux.Event) : Option Linux.Packet :=
  if scope.generation == 0 || unscoped scope || decide (keyCount ≤ event.key) ||
      decide (2 < event.state) ||
      decide (255 < event.modifiers) then
    none
  else some ⟨scope, .event event⟩

namespace State

def code : State → Nat
  | .up => 0
  | .down => 1
  | .repeated => 2

end State

def ticketBudgetNs : Nat := 10000000

def controlBudgetNs : Nat := 10000000

-----
-- The Stream

/- What the worker shows to the compositor thread. -/
structure Connection where
  ready : Bool
  generation : Nat
  nonce : Nat

/- A key that stock code is working on. -/
structure Transaction where
  event : Event
  ticket : Option Ticket
  reply : Option Decision
  proposal : RouteResult
  knownAdmission : Bool
  admitted : Bool
  consumerRouteInvoked : Bool

structure Stream where
  physical : PhysicalDevices
  router : Router
  phase : LockPhase
  drain : DrainState
  connection : Connection
  replacementWire : Bool
  tapReleaseEnabled : Bool
  initialReconciled : Bool
  routerBootstrapPending : Bool
  dropOutcomeOnce : Bool
  readyGeneration : Nat
  nonce : Nat
  wireSequence : Nat
  wireEpoch : Nat
  eventPacket : Option Linux.Packet
  current : Option Transaction

/-
  What a piece did: an increment of the epoch, an increment of the sequence number with
  the packet it went out on, if it did, or an outcome that went out.
-/
inductive Record where
  | bumped
  | stamped (sent : Option Linux.Packet)
  | reported (packet : Linux.Packet)
deriving DecidableEq

namespace Record

def sent? : Record → Option Linux.Packet
  | .bumped => none
  | .stamped sent => sent
  | .reported packet => some packet

end Record

namespace Stream

/-
  The plugin as it is loaded, before any connection.  `dropOutcomeOnce` is for a research
  build, whose load goes on with `registerExisting`.
-/
def init (replacementWire tapReleaseEnabled dropOutcomeOnce : Bool) (seed : Nat) : Stream where
  physical := .init
  router := .init
  phase := .opened
  drain := .running
  connection := ⟨false, 0, 0⟩
  replacementWire := replacementWire
  tapReleaseEnabled := tapReleaseEnabled
  initialReconciled := false
  routerBootstrapPending := true
  dropOutcomeOnce := dropOutcomeOnce
  readyGeneration := 0
  nonce := seed
  wireSequence := 0
  wireEpoch := 0
  eventPacket := none
  current := none

/- A call on the router, which may increment the epoch. -/
def call (s : Stream) (call : Router.Call) : Stream × List Record :=
  ({ s with router := (s.router.perform call).1 }, if s.router.bumps call then [.bumped] else [])

/- `StockWorker::notify`; `room` is the room in the ring. -/
def notifies (s : Stream) (room : Bool) (packet : Linux.Packet) : Bool :=
  s.connection.ready && room && packet.scope.nonce == s.connection.nonce

/- Number, encode and queue one control packet. -/
def emit (s : Stream) (opcode : Opcode) (device epoch deadline value : Nat) (room : Bool) :
    Stream × Bool × List Record :=
  let sequence := increment s.wireSequence
  let packet := control opcode ⟨device, epoch, sequence, deadline, s.nonce⟩ value
  let sent := packet.filter (s.notifies room)
  ({ s with wireSequence := sequence }, sent.isSome, [.stamped sent])

/- A connection the counters do not belong to yet. -/
def unbound (s : Stream) : Bool :=
  s.connection.generation != 0 && s.connection.nonce != 0 &&
    s.connection.generation != s.readyGeneration

/- Start the counters over for a new connection. -/
def bindConnection (s : Stream) : Stream :=
  { s with
    readyGeneration := s.connection.generation
    nonce := s.connection.nonce
    wireSequence := 0
    wireEpoch := 0
    initialReconciled := false }

def ensureConnectionBinding (s : Stream) : Stream × Bool × List Record :=
  if s.drain.active then (s, false, [])
  else if ¬ s.connection.ready then
    let (s, log) := if s.initialReconciled then s.call .disconnect
      else (s, [])
    ({ s with initialReconciled := false }, false, log)
  else if s.unbound then
    let (s, log) := s.bindConnection.call .disconnect
    (s, true, log)
  else (s, true, [])

/- Clock and ring at the two packets of a `lifecycle` call. -/
structure Announcement where
  lockedAt : Nat
  lockRoom : Bool
  sentAt : Nat
  room : Bool

/- The deadline of a control packet sent now. -/
def controlDeadline (now : Nat) : Nat := (now + controlBudgetNs) % 2 ^ 64

/- The packet of `lifecycle` after the epoch is announced. -/
def announceControl (s : Stream) (opcode : Opcode) (device reason : Nat) (at_ : Announcement) :
    Stream × Bool × List Record :=
  if opcode = .lock then (s, true, [])
  else
    s.emit opcode device s.router.epoch (controlDeadline at_.sentAt) reason at_.room

/- A Lock is the only packet that advances the epoch. -/
def announceEpoch (s : Stream) (at_ : Announcement) : Stream × Bool × List Record :=
  if s.router.epoch = s.wireEpoch then (s, true, [])
  else
    let value := if s.phase.routeLocked then 1 else 0
    match s.emit .lock 0 s.router.epoch (controlDeadline at_.lockedAt) value at_.lockRoom with
    | (s, false, log) => (s, false, log)
    | (s, true, log) => ({ s with wireEpoch := s.router.epoch }, true, log)

def lifecycle (s : Stream) (opcode : Opcode) (device reason : Nat) (at_ : Announcement) :
    Stream × Bool × List Record :=
  if s.drain.active ∨ ¬ s.replacementWire then (s, false, [])
  else
    match s.ensureConnectionBinding with
    | (s, false, log) => (s, false, log)
    | (s, true, log) =>
      match s.announceEpoch at_ with
      | (s, false, log') => (s, false, log ++ log')
      | (s, true, log') =>
        let (s, ok, log'') := s.announceControl opcode device reason at_
        (s, ok, log ++ log' ++ log'')

def closeStream (s : Stream) : Stream :=
  { s with initialReconciled := false, connection := { s.connection with ready := false } }

-----
-- Hooks

def syncUnlock (s : Stream) (locked : Bool) (at_ : Announcement) : Stream × List Record :=
  let (phase, unlocked) := s.phase.observe locked
  let s := { s with phase := phase }
  if unlocked then
    let (s, log) := s.call .unlockConfirmed
    let (s, _, log') := s.lifecycle .lock 0 0 at_
    (s, log ++ log')
  else (s, [])

def revoke (s : Stream) (output : Output) (at_ : Announcement) : Stream × List Record :=
  let s := { s with phase := .entering }
  let (s, log) := s.call (.lock output)
  let (s, _, log') := s.lifecycle .lock 0 1 at_
  (s, log ++ log')

/- Detach a keyboard, then announce it as retired. -/
def retire (s : Stream) (identity : Nat) (output : Output) (at_ : Announcement) :
    Stream × List Record :=
  match s.physical.generation? identity with
  | none => (s, [])
  | some generation =>
    let physical := (s.physical.detach identity s.router output).1
    let (s, log) := s.call (.retire generation output)
    let (s, _, log') := { s with physical := physical }.lifecycle .retire generation 1 at_
    (s, log ++ log')

/- `beginLifecycle` after its binding. -/
def beginLifecycle (s : Stream) (at_ : Announcement) : Stream × List Record :=
  let previouslyReconciled := s.initialReconciled
  let (s, log) := { s with initialReconciled := false }.call .focusChanged
  if previouslyReconciled then
    match s.lifecycle .reset 0 3 at_ with
    | (s, true, log') => (s, log ++ log')
    | (s, false, log') => (s.closeStream, log ++ log')
  else (s, log)

/-
  The native proof of quiescence; `proof` is what the output ledger and the keyboards
  contribute to it.
-/
def quiescenceProof (s : Stream) (proof : Bool) : Bool :=
  proof && s.router.quiescent && !s.phase.routeLocked && s.current.isNone

def bootstrapRouter (s : Stream) : Stream × List Record :=
  if s.routerBootstrapPending then
    let (s, log) := s.call .unlockConfirmed
    ({ s with routerBootstrapPending := false }, log)
  else (s, [])

/- `reconcileInitial` after its unlock and its binding. -/
def reconcileInitial (s : Stream) (proof : Bool) (at_ : Announcement) : Stream × List Record :=
  if s.drain.active ∨ ¬ s.replacementWire ∨ s.initialReconciled ∨ ¬ s.quiescenceProof proof then
    (s, [])
  else
    let (s, log) := s.bootstrapRouter
    let (s, queued, log') := s.lifecycle .reset 0 8 at_
    ({ s with initialReconciled := queued }, log ++ log')

def tryOutputRecovery (s : Stream) (eligible : Bool) : Stream × List Record :=
  if s.drain = .detached ∨ ¬ eligible then (s, [])
  else
    let recovered := (s.router.recoverRetiredOutput true).2
    let (s, log) := s.call (.recoverRetiredOutput true)
    (if recovered then { s with initialReconciled := false }
      else s, log)

/- `focus` after its unlock. -/
def focus (s : Stream) (at_ : Announcement) : Stream × List Record :=
  let (s, log) := { s with initialReconciled := false }.call .focusChanged
  let (s, _, log') := s.lifecycle .reset 0 2 at_
  (s, log ++ log')

/- The `sledge:drain` dispatcher. -/
def requestDrain (s : Stream) : Stream × List Record :=
  if s.drain = .detached then (s, [])
  else
    { s with drain := s.drain.request, initialReconciled := false }.call .focusChanged

end Stream

-----
-- Keys

/- What the outside answers while a key is exported. -/
structure KeyInput where
  identity : Nat
  raw : Nat
  down : Bool
  consumerSelected : Bool
  mapKnown : Bool
  begunAt : Nat
  settledAt : Nat
  lockRoom : Bool
  timeMs : Nat
  focusKind : Nat
  focus : String
  transmitted : Bool
  answer : Option (Verdict × Nat × Mask)
  routedAt : Nat
  output : Output

namespace Stream

/- Whether a key may be put to the daemon. -/
def exports (s : Stream) (input : KeyInput) : Bool :=
  s.drain.mayPropose && input.consumerSelected && s.replacementWire && s.connection.ready &&
    s.initialReconciled && input.mapKnown &&
    !s.phase.routeLocked

/- A press, or a release that may carry an action. -/
def actionable (s : Stream) (event : Event) : Bool :=
  decide (event.state = .down) || (s.tapReleaseEnabled && decide (event.state = .up))

/- The ticket of an exported key; presses need authority. -/
def ticketFor (s : Stream) (event : Event) (input : KeyInput) : Router × Option Ticket :=
  let (r, ticket) := if s.actionable event then
      s.router.begin event input.begunAt ticketBudgetNs s.tapReleaseEnabled
    else
      s.router.settlement event input.begunAt ticketBudgetNs
  if ticket = none ∧ event.state ≠ .down then
    r.settlement event input.settledAt ticketBudgetNs
  else (r, ticket)

/- Announce the epoch of a ticket; without it, no ticket. -/
def advanceEpoch (s : Stream) (ticket : Ticket) (room : Bool) : Stream × Bool × List Record :=
  if ticket.epoch = s.wireEpoch then (s, true, [])
  else
    match s.emit .lock 0 ticket.epoch ticket.deadline 0 room with
    | (s, false, log) => (s, false, log)
    | (s, true, log) => ({ s with wireEpoch := ticket.epoch }, true, log)

/- The Event of a ticket, as the body of its packet. -/
def eventOf (s : Stream) (event : Event) (ticket : Ticket) (input : KeyInput) : Linux.Event where
  key := event.key
  state := event.state.code
  timeMs := input.timeMs
  modifiers := s.router.devices.forwardedModifiers.toNat
  focusEpoch := ticket.focus
  focusKind := input.focusKind
  focus := input.focus

/-
  Number the Event and hand it to the mailbox.  An encoding that fails would leave the
  packet of an earlier event.
-/
def exportEvent (s : Stream) (event : Event) (ticket : Ticket) (input : KeyInput) :
    Stream × Bool × List Record :=
  let sequence := increment s.wireSequence
  let packet := (Native.eventPacket ⟨ticket.device, ticket.epoch, sequence,
        ticket.deadline, s.nonce⟩
      (s.eventOf event ticket input)).or s.eventPacket
  let sent := packet.filter (s.notifies input.transmitted)
  ({ s with wireSequence := sequence, eventPacket := packet }, sent.isSome, [.stamped sent])

/- The decision a key is routed with. -/
def replyOf (s : Stream) (event : Event) (ticket : Ticket) (answer : Option (Verdict × Nat × Mask)) :
    Option Decision :=
  if s.actionable event then
    answer.map (fun (verdict, key, modifiers) =>
      ⟨ticket, verdict, key, modifiers⟩)
  else none

/- Put a key to the daemon, up to the answer of the mailbox. -/
def exportKey (s : Stream) (event : Event) (input : KeyInput) :
    Stream × Option Ticket × Option Decision × List Record :=
  if ¬ s.exports input then (s, none, none, [])
  else
    match s.ticketFor event input with
    | (r, none) => ({ s with router := r }, none, none, [])
    | (r, some ticket) =>
      match { s with router := r }.advanceEpoch ticket input.lockRoom with
      | (s, false, log) => (s, none, none, log)
      | (s, true, log) =>
        let (s, sent, log') := s.exportEvent event ticket input
        (s, some ticket, if sent then s.replyOf event ticket input.answer
          else none,
          log ++ log')

/- `inputKey` up to the call of the stock key handler. -/
def openKey (s : Stream) (input : KeyInput) : Stream × List Record :=
  match s.physical.event input.identity input.raw input.down with
  | (physical, none) =>
    let s := { s with physical := physical }
    (if s.initialReconciled then s.closeStream else s, [])
  | (physical, some event) =>
    let (s, ticket, reply, log) := { s with physical := physical }.exportKey event input
    let routed := s.router.route event ticket reply input.routedAt input.output
    ({ s with
        router := routed.router
        current := some
            { event := event
              ticket := ticket
              reply := reply
              proposal := routed.value
              knownAdmission := false
              admitted := false
              consumerRouteInvoked := false } },
      log)

/- The stock keybind route has answered for the key. -/
def keybind (s : Stream) (admitted : Bool) : Stream :=
  match s.current with
  | none => s
  | some t =>
    let (router, proposal) := s.router.originalOutcome t.event t.proposal admitted
    { s with
      router := router
      current := some
          { t with knownAdmission := true, admitted := admitted, proposal := proposal } }

/-
  The key reached the seat or an input method.  An input method is recorded even when the
  key is then held back.
-/
def consumerRoute (s : Stream) (ime : Bool) : Stream :=
  { s with
    current := s.current.map (fun t =>
        { t with
          consumerRouteInvoked := t.consumerRouteInvoked || if ime then !s.phase.routeLocked
              else t.proposal.deliverClient }) }

/- The result code of an outcome packet. -/
def resultOf (t : Transaction) (outcome : Outcome) : Linux.ResultKind :=
  match outcome with
  | .partialFatal => .partialUncertainFatal
  | .replaced => .replaced
  | .swallowed => .swallowCommitted
  | .stockConsumed => .stockConsumed
  | .merged => .mergedOriginal
  | .lockerOwned => .lockerOwned
  | .quarantined => .quarantined
  | _ =>
    -- Original admission needs the actual stock route.
    if t.knownAdmission ∧ t.admitted ∧ t.consumerRouteInvoked then
      if outcome = .rejected then .rejectedOriginalAdmitted
      else if t.event.state ≠ .down then .originalAdmitted
      else if t.reply.isNone then .timeoutOriginalAdmitted
      else .originalAdmitted
    else .partialUncertainFatal

/- The outcome packet repeats the scope of the Event. -/
def outcomeOf (t : Transaction) (ticket : Ticket) (outcome : Outcome) : Linux.Outcome where
  result := resultOf t outcome
  reason := 0
  key := t.event.key
  state := t.event.state.code
  focusEpoch := ticket.focus

/- Settle the key with the router after the stock route. -/
def settleKey (s : Stream) (t : Transaction) (now : Nat) (output : Output) : Stream × Outcome :=
  let router := if t.knownAdmission then
      (s.router.originalOutcome t.event t.proposal t.admitted).1
    else s.router
  match t.ticket with
  | some ticket =>
    if s.tapReleaseEnabled ∧ t.event.state = .up then
      let finished := router.finishRelease ticket t.reply
          (t.proposal.deliverClient && t.knownAdmission && t.admitted && t.consumerRouteInvoked)
          now output t.proposal.outcome
      ({ s with router := finished.router }, finished.value)
    else ({ s with router := router }, t.proposal.outcome)
  | none => ({ s with router := router }, t.proposal.outcome)

/- The fixture that loses the outcome of one replacement. -/
def dropsOutcome (s : Stream) (t : Transaction) : Bool :=
  s.dropOutcomeOnce && decide (t.event.state = .down) &&
    t.reply.any (fun reply => reply.verdict == .replace)

/- Report the outcome of an exported key. -/
def reportOutcome (s : Stream) (t : Transaction) (ticket : Ticket) (outcome : Outcome) (room : Bool) :
    Stream × List Record :=
  let packet := s.eventPacket.map (fun p =>
      (⟨p.scope, .outcome (outcomeOf t ticket outcome)⟩ : Linux.Packet))
  if s.dropsOutcome t then
    ({ s with dropOutcomeOnce := false }, [])
  else
    match packet.filter (s.notifies room) with
    | some packet => (s, [.reported packet])
    | none =>
      let (s, log) := s.call .disconnect
      (s.closeStream, log)

/- `inputKey` from the return of the stock key handler on. -/
def closeKey (s : Stream) (now : Nat) (output : Output) (room : Bool) :
    Option (Stream × List Record) :=
  s.current.map (fun t =>
    let (s, outcome) := s.settleKey t now output
    let (s, log) :=
      match t.ticket with
      | some ticket => s.reportOutcome t ticket outcome room
      | none => (s, [])
    ({ s with current := none }, log))

-----
-- Steps

inductive Op where
  | connect (generation nonce : Nat)
  | lose
  | attach (identity : Nat) (verifiedEvdev virtualDevice : Bool) (translation : Key → Nat)
  | ensureConnectionBinding
  | syncUnlock (locked : Bool) (at_ : Announcement)
  | revoke (output : Output) (at_ : Announcement)
  | lockReturned (protocolLocked : Bool)
  | retire (identity : Nat) (output : Output) (at_ : Announcement)
  | beginLifecycle (at_ : Announcement)
  | reconcileInitial (proof : Bool) (at_ : Announcement)
  | tryOutputRecovery (eligible : Bool)
  | focus (at_ : Announcement)
  | selectKeyboard (known : Bool)
  | closeStream
  | registerExisting
  | requestDrain
  | commitDrain (proof : Bool)
  | openKey (input : KeyInput)
  | keybind (admitted : Bool)
  | consumerRoute (ime : Bool)
  | closeKey (now : Nat) (output : Output) (room : Bool)

namespace Op

/- The pieces a hook starts with; not run once detached. -/
def hooked : Op → Bool
  | .connect _ _ => false
  | .lose => false
  | .lockReturned _ => false
  | .commitDrain _ => false
  | .closeKey _ _ _ => false
  | _ => true

end Op

def perform (s : Stream) : Op → Option (Stream × List Record)
  | .connect generation nonce =>
    if s.connection.generation < generation then
      some ({ s with connection := ⟨true, generation, nonce⟩ }, [])
    else none
  | .lose =>
    some ({ s with connection := { s.connection with ready := false } }, [])
  | .attach identity verifiedEvdev virtualDevice translation =>
    let (physical, router, _) :=
      s.physical.attach identity verifiedEvdev virtualDevice translation s.router
    some ({ s with physical := physical, router := router }, [])
  | .ensureConnectionBinding =>
    let (s, _, log) := s.ensureConnectionBinding
    some (s, log)
  | .syncUnlock locked at_ => some (s.syncUnlock locked at_)
  | .revoke output at_ => some (s.revoke output at_)
  | .lockReturned protocolLocked =>
    some ({ s with phase := s.phase.originalReturned protocolLocked }, [])
  | .retire identity output at_ => some (s.retire identity output at_)
  | .beginLifecycle at_ => some (s.beginLifecycle at_)
  | .reconcileInitial proof at_ => some (s.reconcileInitial proof at_)
  | .tryOutputRecovery eligible => some (s.tryOutputRecovery eligible)
  | .focus at_ => some (s.focus at_)
  | .selectKeyboard known =>
    some (if known then s
        else { s with initialReconciled := false }, [])
  | .closeStream => some (s.closeStream, [])
  | .registerExisting =>
    -- An initial registration confirms the unlock, before the worker starts.
    if s.connection.generation = 0 ∧ ¬ s.phase.routeLocked then some (s.call .unlockConfirmed)
    else none
  | .requestDrain => some s.requestDrain
  | .commitDrain proof => some ({ s with drain := s.drain.commit proof }, [])
  | .openKey input =>
    if s.current.isNone then some (s.openKey input) else none
  | .keybind admitted => some (s.keybind admitted, [])
  | .consumerRoute ime => some (s.consumerRoute ime, [])
  | .closeKey now output room => s.closeKey now output room

/- One piece; a detached adapter leaves hooks to stock. -/
def step (s : Stream) (op : Op) : Option (Stream × List Record) :=
  if op.hooked ∧ s.drain = .detached then none
  else s.perform op

abbrev Entry := Transition.Entry Stream Op (List Record)

end Stream

end Sledge.Native
