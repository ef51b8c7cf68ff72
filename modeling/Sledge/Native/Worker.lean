import Sledge.Lib.RingBuffer
import Sledge.Native.Mailbox

/-
  The socket worker and the calls the compositor makes on it.

  The worker thread runs one connection after another.  On a
  connection it empties the notification ring before it takes
  a request from the mailbox.  Each access to a variable that
  the other thread also uses is one step; what the system
  calls return is an input of the step.
-/

-----
-- Two Threads And What They Share

namespace Sledge.Native

open Transition

/- What the worker reads of a packet. -/
structure Framing (α : Type) where
  nonce : α → Nat
  decision : α → α → Bool
  blank : α

structure Notification (α : Type) where
  packet : α
  generation : Nat
deriving Repr, DecidableEq

/- One authenticated connection. -/
structure Link where
  generation : Nat
  nonce : Nat
deriving Repr, DecidableEq

namespace StockWorker

/- The number of notifications the ring can hold. -/
def capacity : Nat := 16

instance : NeZero capacity := ⟨by decide⟩

/- The ring indices are 32-bit, the counters 64-bit. -/
def indexSize : Nat := 2 ^ 32

def counterSize : Nat := 2 ^ 64

/- Where the worker thread is, by the access it makes next. -/
inductive Place (α : Type)
  -- `run`
  | heading (generation : Nat)
  | draining (generation : Nat)
  | settling (generation retired : Nat)
  | scanning (generation retired : Nat)
  | skipping (generation retired read write : Nat)
  | settled (generation retired read : Nat)
  | resuming (generation : Nat)
  | halting (generation : Nat)
  | dialing (generation : Nat)
  | resting (generation : Nat)
  | finished
  -- `runConnection` up to the loop
  | connecting (link : Link)
  | greeting (link : Link)
  | acking (link : Link)
  | noncing (link : Link)
  | announcing (link : Link)
  | readying (link : Link)
  -- the loop
  | looping (link : Link)
  | parkTest (link : Link)
  | parkRing (link : Link)
  | parkMailbox (link : Link)
  | parking (link : Link)
  | polling (link : Link)
  | fetching (link : Link) (read : Nat)
  | delivering (link : Link) (read : Nat) (notification : Notification α)
  | consuming (link : Link) (read : Nat) (notification : Notification α) (delivered : Bool)
  | taking (link : Link)
  | taken (link : Link)
  | idling (link : Link)
  | activating (link : Link) (event : α) (deadline : Nat)
  | sendingEvent (link : Link) (event : α) (deadline : Nat)
  | receiving (link : Link) (event : α) (deadline : Nat) (sent : Bool)
  | completing (link : Link) (answer : α) (accepted : Bool)
  | finishing (link : Link) (accepted : Bool)
  | deactivating (link : Link) (accepted : Bool)
  -- after the loop
  | closing (link : Link)
  | hangingUp (link : Link)
  | recording (link : Link)

/-
  Where the compositor thread is in a call on the worker.  Its place inside `decide` is
  kept by the exchange.
-/
inductive Caller (α : Type)
  | outside
  -- `notify`
  | notifyReady (packet : α) (generation : Nat)
  | notifyPark (packet : α) (generation : Nat)
  | notifyRoom (packet : α) (generation : Nat)
  | notifyNonce (packet : α) (generation : Nat)
  | notifyWrite (packet : α) (generation : Nat)
  | notifyPublish (packet : α) (generation : Nat)
  -- `retireGenerationForDrain`
  | retirePark (generation : Nat)
  | retireIdle (generation : Nat)
  | retireStore (generation : Nat)
  | retireInvalidate
  -- the second store of `invalidate`
  | requestClose (drain : Bool)
  -- `idleParked`
  | idleParked
  | idleMailbox
  | idleTransaction
  | idleRing

end StockWorker

structure StockWorker (α : Type) where
  exchange : Exchange α
  ready : Bool
  closeRequested : Bool
  ring : RingBuffer (Notification α) StockWorker.capacity
  connectionGeneration : Nat
  connectionNonce : Nat
  transactionActive : Bool
  parked : Bool
  parkRequested : Bool
  retirementGeneration : Nat
  closedGeneration : Nat
  place : StockWorker.Place α
  caller : StockWorker.Caller α

namespace StockWorker

variable {α : Type}

/- What the system calls of a worker step come back with. -/
structure Ambient (α : Type) where
  stop : Bool
  ok : Bool
  throws : Bool
  reply : Option α

/- What a step does that the peer or a caller can see. -/
inductive Signal (α : Type)
  | silent
  | mailbox (signal : Native.Signal α)
  | queued (notification : Notification α)
  | refused
  | retiring (generation : Nat)
  | drained (accepted : Bool)
  | idle (result : Bool)
  | greeted (link : Link)
  | announced (link : Link)
  | sent (link : Link) (notification : Notification α)
  | consumed (notification : Notification α) (delivered : Bool)
  | retired (generation count : Nat)
  | sentEvent (link : Link) (event : α)
  | closed (generation : Nat)
deriving Repr, DecidableEq

def initial (f : Framing α) : StockWorker α where
  exchange := Exchange.initial f.blank
  ready := false
  closeRequested := false
  ring := { slots := Vector.replicate capacity ⟨f.blank, 0⟩, write := 0, read := 0 }
  connectionGeneration := 0
  connectionNonce := 0
  transactionActive := false
  parked := false
  parkRequested := false
  retirementGeneration := 0
  closedGeneration := 0
  place := .heading 1
  caller := .outside

/- `mailbox.idle()`. -/
def mailboxIdle (s : StockWorker α) : Bool := s.exchange.mailbox.phase = .idle

/- The nonce of a connection attempt. -/
def nonceOf (seed generation : Nat) : Nat := (seed + generation - 1) % counterSize

-----
-- The Worker Thread

/- Go on at another place. -/
def goto (s : StockWorker α) (place : Place α) : Option (StockWorker α × Signal α) :=
  some ({ s with place := place }, .silent)

/- The part of `run` between two connections. -/
def workRun (seed : Nat) (s : StockWorker α) (a : Ambient α) :
    Place α → Option (StockWorker α × Signal α)
  | .heading generation =>
    if a.stop ∨ generation = 0 then
      s.goto .finished
    else if s.parkRequested then
      s.goto (.draining generation)
    else if nonceOf seed generation = 0 then
      s.goto .finished
    else
      s.goto (.dialing generation)
  | .draining generation =>
    if s.retirementGeneration ≠ 0 then
      s.goto (.settling generation s.retirementGeneration)
    else
      s.goto (.resuming generation)
  | .settling generation retired =>
    if s.mailboxIdle ∧ ¬ s.transactionActive then
      s.goto (.scanning generation retired)
    else
      s.goto (.resuming generation)
  | .scanning generation retired => s.goto (.skipping generation retired s.ring.read s.ring.write)
  | .skipping generation retired read write =>
    if read ≠ write ∧ (s.ring.slot read).generation = retired then
      s.goto (.skipping generation retired ((read + 1) % indexSize) write)
    else
      s.goto (.settled generation retired read)
  | .settled generation retired read =>
    some ({ s with ring := { s.ring with read := read }, place := .resuming generation },
        .retired retired ((read + indexSize - s.ring.read) % indexSize))
  | .resuming generation =>
    if s.mailboxIdle then
      s.goto (.halting generation)
    else
      s.goto (.heading generation)
  | .halting generation => some ({ s with parked := true, place := .heading generation }, .silent)
  | .dialing generation =>
    some ({ s with
          closeRequested := false
          place :=
            .connecting ⟨generation, nonceOf seed generation⟩ },
        .silent)
  | .resting generation => s.goto (.heading ((generation + 1) % counterSize))
  | _ => none

/- Connecting, the handshake, and what it publishes. -/
def workConnect (s : StockWorker α) (a : Ambient α) : Place α → Option (StockWorker α × Signal α)
  | .connecting link =>
    if a.throws then
      some ({ s with ready := false, place := .finished }, .silent)
    else if a.ok then
      s.goto (.greeting link)
    else
      s.goto (.resting link.generation)
  | .greeting link =>
    if a.ok then
      some ({ s with place := .acking link }, .greeted link)
    else
      s.goto (.resting link.generation)
  | .acking link =>
    if a.ok then
      s.goto (.noncing link)
    else
      s.goto (.resting link.generation)
  | .noncing link =>
    some ({ s with connectionNonce := link.nonce, place := .announcing link }, .silent)
  | .announcing link =>
    some ({ s with connectionGeneration := link.generation, place := .readying link },
        .announced link)
  | .readying link => some ({ s with ready := true, place := .looping link }, .silent)
  | _ => none

/- The loop up to the mailbox: parking and notifications. -/
def workLoop (f : Framing α) (s : StockWorker α) (a : Ambient α) :
    Place α → Option (StockWorker α × Signal α)
  | .looping link =>
    if a.stop ∨ s.closeRequested then
      s.goto (.closing link)
    else
      s.goto (.parkTest link)
  | .parkTest link =>
    if s.parkRequested then
      s.goto (.parkRing link)
    else
      s.goto (.polling link)
  | .parkRing link =>
    if s.ring.read = s.ring.write then
      s.goto (.parkMailbox link)
    else
      s.goto (.polling link)
  | .parkMailbox link =>
    if s.mailboxIdle then
      s.goto (.parking link)
    else
      s.goto (.polling link)
  | .parking link => some ({ s with parked := true, place := .looping link }, .silent)
  | .polling link =>
    if s.ring.read ≠ s.ring.write then
      s.goto (.fetching link s.ring.read)
    else
      s.goto (.taking link)
  | .fetching link read => s.goto (.delivering link read (s.ring.slot read))
  | .delivering link read notification =>
    if notification.generation ≠ link.generation ∨ f.nonce notification.packet ≠ link.nonce then
      s.goto (.consuming link read notification false)
    else if a.ok then
      some ({ s with place := .consuming link read notification true }, .sent link notification)
    else
      s.goto (.closing link)
  | .consuming link read notification delivered =>
    some ({ s with ring := { s.ring with read := (read + 1) % indexSize }, place := .looping link },
        .consumed notification delivered)
  | _ => none

/- One access inside the mailbox, then on to the next place. -/
def onMailbox (s : StockWorker α) (op : Exchange.Op α) (next : Exchange α → Place α) :
    Option (StockWorker α × Signal α) :=
  (s.exchange.step op).map fun r =>
    ({ s with exchange := r.1, place := next r.1 }, .mailbox r.2)

/- Where a `take` goes on: it is over, or it has a request. -/
def afterTake (link : Link) (exchange : Exchange α) : Place α :=
  match exchange.worker with
  | .outside => .idling link
  | .serving event deadline => .activating link event deadline
  | _ => .taken link

/- Where a `complete` goes on. -/
def afterComplete (link : Link) (accepted : Bool) (exchange : Exchange α) : Place α :=
  match exchange.worker with
  | .outside => .deactivating link accepted
  | _ => .finishing link accepted

/- The rest of the loop: one transaction, or an idle poll. -/
def workTransaction (f : Framing α) (s : StockWorker α) (a : Ambient α) :
    Place α → Option (StockWorker α × Signal α)
  | .taking link => s.onMailbox .take (afterTake link)
  | .taken link => s.onMailbox .serve (afterTake link)
  | .idling link =>
    if a.ok then
      s.goto (.looping link)
    else
      s.goto (.closing link)
  | .activating link event deadline =>
    some ({ s with transactionActive := true, place := .sendingEvent link event deadline }, .silent)
  | .sendingEvent link event deadline =>
    if f.nonce event = link.nonce ∧ a.ok then
      some ({ s with place := .receiving link event deadline true }, .sentEvent link event)
    else
      s.goto (.receiving link event deadline false)
  | .receiving link event _ sent =>
    match sent, a.reply with
    | true, some reply =>
      if f.decision event reply then
        s.goto (.completing link reply true)
      else
        s.goto (.completing link f.blank false)
    | _, _ => s.goto (.completing link f.blank false)
  | .completing link answer accepted => s.onMailbox (.complete answer) (afterComplete link accepted)
  | .finishing link accepted => s.onMailbox .serve (afterComplete link accepted)
  | .deactivating link accepted =>
    some ({ s with
          transactionActive := false
          place :=
            if accepted then .looping link else .closing link },
        .silent)
  | .closing link => some ({ s with ready := false, place := .hangingUp link }, .silent)
  | .hangingUp link => some ({ s with place := .recording link }, .closed link.generation)
  | .recording link =>
    some ({ s with closedGeneration := link.generation, place := .resting link.generation },
        .silent)
  | _ => none

/- The next access of the worker thread. -/
def work (f : Framing α) (seed : Nat) (s : StockWorker α) (a : Ambient α) :
    Option (StockWorker α × Signal α) :=
  (workRun seed s a s.place).or ((workConnect s a s.place).or ((workLoop f s a s.place).or
        (workTransaction f s a s.place)))

-----
-- The Compositor Thread

/- Go on inside the call. -/
def resume (s : StockWorker α) (caller : Caller α) : Option (StockWorker α × Signal α) :=
  some ({ s with caller := caller }, .silent)

/- Leave the call. -/
def leave (s : StockWorker α) (signal : Signal α) : Option (StockWorker α × Signal α) :=
  some ({ s with caller := .outside }, signal)

/- The next access of the call the compositor thread is in. -/
def call (f : Framing α) (s : StockWorker α) : Option (StockWorker α × Signal α) :=
  match s.caller with
  | .outside => none
  | .notifyReady packet generation =>
    if s.ready then
      s.resume (.notifyPark packet generation)
    else
      s.leave .refused
  | .notifyPark packet generation =>
    if s.parkRequested then
      s.leave .refused
    else
      s.resume (.notifyRoom packet generation)
  | .notifyRoom packet generation =>
    if s.ring.size indexSize = capacity then
      s.leave .refused
    else
      s.resume (.notifyNonce packet generation)
  | .notifyNonce packet generation =>
    if f.nonce packet ≠ s.connectionNonce then
      s.leave .refused
    else
      s.resume (.notifyWrite packet generation)
  | .notifyWrite packet generation =>
    some ({ s with
          ring := s.ring.put s.ring.write ⟨packet, generation⟩
          caller := .notifyPublish packet generation },
        .silent)
  | .notifyPublish packet generation =>
    some ({ s with
          ring := { s.ring with write := (s.ring.write + 1) % indexSize }
          caller := .outside },
        .queued ⟨packet, generation⟩)
  | .retirePark generation =>
    if s.parkRequested then
      s.resume (.retireIdle generation)
    else
      s.leave (.drained false)
  | .retireIdle generation =>
    if s.mailboxIdle then
      if s.retirementGeneration = generation then
        s.leave (.drained true)
      else
        s.resume (.retireStore generation)
    else
      s.leave (.drained false)
  | .retireStore generation =>
    some ({ s with retirementGeneration := generation, caller := .retireInvalidate },
        .retiring generation)
  | .retireInvalidate => some ({ s with ready := false, caller := .requestClose true }, .silent)
  | .requestClose drain =>
    some ({ s with closeRequested := true, caller := .outside },
        if drain then .drained true else .silent)
  | .idleParked =>
    if s.parked then
      s.resume .idleMailbox
    else
      s.leave (.idle false)
  | .idleMailbox =>
    if s.mailboxIdle then
      s.resume .idleTransaction
    else
      s.leave (.idle false)
  | .idleTransaction =>
    if s.transactionActive then
      s.leave (.idle false)
    else
      s.resume .idleRing
  | .idleRing => s.leave (.idle (s.ring.read = s.ring.write))

/- A call the compositor thread can make, or its next access. -/
inductive Op (α : Type)
  | decide (event : α) (deadlineNs start : Nat)
  | advance (now : Nat) (wait : FutexResult)
  | notify (packet : α)
  | invalidate
  | requestPark
  | retireGenerationForDrain (generation : Nat) (ownerVerifiedBarrier : Bool)
  | idleParked
  | call
  | work (ambient : Ambient α)

/- The first access of a call, when the thread is in none. -/
def enter (s : StockWorker α) : Op α → Option (StockWorker α × Signal α)
  | .notify packet => s.resume (.notifyReady packet s.connectionGeneration)
  | .invalidate => some ({ s with ready := false, caller := .requestClose false }, .silent)
  | .requestPark => some ({ s with parkRequested := true }, .silent)
  | .retireGenerationForDrain generation barrier =>
    if barrier ∧ generation ≠ 0 ∧ generation = s.connectionGeneration then
      s.resume (.retirePark generation)
    else
      s.leave (.drained false)
  | .idleParked =>
    if s.retirementGeneration = 0 ∨ s.retirementGeneration ≤ s.closedGeneration then
      s.resume .idleParked
    else
      s.leave (.idle false)
  | _ => none

/- A step of `decide` on the compositor thread. -/
def onDecide (s : StockWorker α) (op : Exchange.Op α) : Option (StockWorker α × Signal α) :=
  (s.exchange.step op).map fun r =>
    ({ s with exchange := r.1 }, .mailbox r.2)

def step (f : Framing α) (seed : Nat) (s : StockWorker α) (op : Op α) :
    Option (StockWorker α × Signal α) :=
  match op with
  | .work ambient => s.work f seed ambient
  | .call => s.call f
  | .advance now wait => s.onDecide (.advance now wait)
  | .decide event deadlineNs start =>
    match s.caller with
    | .outside => s.onDecide (.decide event deadlineNs start)
    | _ => none
  | op =>
    match s.caller, s.exchange.producer with
    | .outside, .outside => s.enter op
    | _, _ => none

abbrev Entry (α : Type) := Transition.Entry (StockWorker α) (Op α) (Signal α)

abbrev Run (f : Framing α) (seed : Nat) := Transition.Run (step f seed) (initial f)

end StockWorker

-----
-- A Framing For Small Runs

/- Packets that carry their nonce in front of two digits. -/
def Framing.numbered : Framing Nat where
  nonce := fun packet => packet / 100
  decision := fun _ _ => true
  blank := 0

namespace StockWorker

/- Every system call succeeds and the peer replies. -/
def Ambient.calm : Ambient Nat where
  stop := false
  ok := true
  throws := false
  reply := some 0

end StockWorker

end Sledge.Native
