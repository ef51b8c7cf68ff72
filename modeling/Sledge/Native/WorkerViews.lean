import Sledge.Native.Worker

/-
  Two views of the worker, and what a step does to each.

  The connection view keeps the stage of the connection the
  worker is at and what it has published about it.  The ring
  view keeps what the worker has read of the ring and what a
  `notify` has established.  Everything proved about whole
  runs goes through the moves of these views.

  Main results:
    * `StockWorker.works_of_work`
    * `StockWorker.calls_of_call`
    * `StockWorker.stepped_of_step`
-/

-----
-- The Views

namespace Sledge.Native.StockWorker

variable {α : Type}

/- How far the worker is with a connection. -/
inductive Stage
  | heading (generation : Nat)
  | attempting (generation : Nat)
  | opening (link : Link)
  | announcing (link : Link)
  | live (link : Link)
  | hungUp (link : Link)
  | resting (generation : Nat)
  | over

/- What the worker has read of the ring. -/
inductive Reader (α : Type)
  | none
  | draining (retired : Nat)
  | skipping (retired read write : Nat)
  | settled (retired read : Nat)
  | fetching (read : Nat)
  | holding (read : Nat) (notification : Notification α) (delivered : Option Bool)

/- What a `notify` in progress has established. -/
inductive Writer (α : Type)
  | none
  | asked (packet : α) (generation : Nat)
  | ready (packet : α) (generation : Nat)
  | room (packet : α) (generation : Nat)
  | admitted (packet : α) (generation : Nat)
  | written (packet : α) (generation : Nat)

namespace Place

def stage : Place α → Stage
  | .heading generation => .heading generation
  | .draining generation
  | .settling generation _
  | .scanning generation _
  | .skipping generation _ _ _
  | .settled generation _ _
  | .resuming generation
  | .halting generation
  | .dialing generation => .attempting generation
  | .resting generation => .resting generation
  | .finished => .over
  | .connecting link
  | .greeting link
  | .acking link
  | .noncing link => .opening link
  | .announcing link => .announcing link
  | .readying link
  | .looping link
  | .parkTest link
  | .parkRing link
  | .parkMailbox link
  | .parking link
  | .polling link
  | .fetching link _
  | .delivering link _ _
  | .consuming link _ _ _
  | .taking link
  | .taken link
  | .idling link
  | .activating link _ _
  | .sendingEvent link _ _
  | .receiving link _ _ _
  | .completing link _ _
  | .finishing link _
  | .deactivating link _
  | .closing link
  | .hangingUp link => .live link
  | .recording link => .hungUp link

def reader : Place α → Reader α
  | .settling _ retired
  | .scanning _ retired => .draining retired
  | .skipping _ retired read write => .skipping retired read write
  | .settled _ retired read => .settled retired read
  | .fetching _ read => .fetching read
  | .delivering _ read notification => .holding read notification Option.none
  | .consuming _ read notification delivered => .holding read notification (some delivered)
  | _ => .none

end Place

def Caller.writer : Caller α → Writer α
  | .notifyReady packet generation => .asked packet generation
  | .notifyPark packet generation
  | .notifyRoom packet generation => .ready packet generation
  | .notifyNonce packet generation => .room packet generation
  | .notifyWrite packet generation => .admitted packet generation
  | .notifyPublish packet generation => .written packet generation
  | _ => .none

/- The signals of a step that leaves the connection alone. -/
def Signal.stagePlain : Signal α → Bool
  | .announced _ | .closed _ => false
  | _ => true

/- The signals of a step that leaves the ring alone. -/
def Signal.readerPlain : Signal α → Bool
  | .queued _
  | .sent _ _
  | .consumed _ _
  | .retired _ _ => false
  | _ => true

-----
-- Moves Of The Connection

/- The stage, the published generation and nonce, and a move. -/
inductive StageMoves (seed : Nat) : Stage → Nat → Nat → Signal α → Stage → Nat → Nat → Prop
  | stay {stage : Stage} {generation nonce : Nat} {signal : Signal α} : signal.stagePlain = true →
      StageMoves seed stage generation nonce signal stage generation nonce
  | stop {attempt generation nonce : Nat} :
      StageMoves seed (.heading attempt) generation nonce .silent .over generation nonce
  | attempt {attempt generation nonce : Nat} : attempt ≠ 0 →
      StageMoves seed (.heading attempt) generation nonce .silent
        (.attempting attempt) generation nonce
  | again {attempt generation nonce : Nat} : StageMoves seed (.attempting attempt) generation nonce
        .silent (.heading attempt) generation nonce
  | dial {attempt generation nonce : Nat} : StageMoves seed (.attempting attempt) generation nonce
        .silent (.opening ⟨attempt, nonceOf seed attempt⟩)
        generation nonce
  | fail {link : Link} {generation nonce : Nat} :
      StageMoves seed (.opening link) generation nonce .silent
        (.resting link.generation) generation nonce
  | throw {link : Link} {generation nonce : Nat} :
      StageMoves seed (.opening link) generation nonce .silent .over generation nonce
  | nonce {link : Link} {generation nonce : Nat} :
      StageMoves seed (.opening link) generation nonce .silent
        (.announcing link) generation link.nonce
  | announce {link : Link} {generation nonce : Nat} :
      StageMoves seed (.announcing link) generation nonce
        (.announced link) (.live link) link.generation nonce
  | close {link : Link} {generation nonce : Nat} : StageMoves seed (.live link) generation nonce
        (.closed link.generation) (.hungUp link) generation nonce
  | record {link : Link} {generation nonce : Nat} :
      StageMoves seed (.hungUp link) generation nonce .silent
        (.resting link.generation) generation nonce
  | rest {resting generation nonce : Nat} :
      StageMoves seed (.resting resting) generation nonce .silent
        (.heading ((resting + 1) % counterSize)) generation nonce

theorem stage_afterTake (link : Link) (exchange : Exchange α) :
    (afterTake link exchange).stage = .live link := by
  unfold afterTake
  split <;> rfl

theorem stage_afterComplete (link : Link) (accepted : Bool) (exchange : Exchange α) :
    (afterComplete link accepted exchange).stage = .live link := by
  unfold afterComplete
  split <;> rfl

-----
-- Moves Of The Reader

/-
  What the worker does to the ring.  It reads slots, sends a notification or not, and
  moves the read index; it never touches a slot or the write index.
-/
inductive ReaderMoves (f : Framing α) (s : StockWorker α) :
    Reader α → Signal α → Reader α → Nat → Prop
  | stay {signal : Signal α} : signal.readerPlain = true →
      ReaderMoves f s .none signal .none s.ring.read
  | fetch : s.ring.read ≠ s.ring.write → ReaderMoves f s .none .silent (.fetching s.ring.read)
        s.ring.read
  | copy {read : Nat} : ReaderMoves f s (.fetching read) .silent
        (.holding read (s.ring.slot read) Option.none) s.ring.read
  | send {link : Link} {read : Nat} {n : Notification α} : s.place.stage = .live link →
      n.generation = link.generation →
      f.nonce n.packet = link.nonce →
      ReaderMoves f s (.holding read n Option.none)
        (.sent link n) (.holding read n (some true)) s.ring.read
  | skip {link : Link} {read : Nat} {n : Notification α} : s.place.stage = .live link →
      (n.generation ≠ link.generation ∨ f.nonce n.packet ≠ link.nonce) →
      ReaderMoves f s (.holding read n Option.none)
        .silent (.holding read n (some false)) s.ring.read
  | lose {read : Nat} {n : Notification α} : ReaderMoves f s (.holding read n Option.none) .silent
        .none s.ring.read
  | consume {read : Nat} {n : Notification α} {delivered : Bool} :
      ReaderMoves f s (.holding read n (some delivered))
        (.consumed n delivered) .none ((read + 1) % indexSize)
  | drain : s.retirementGeneration ≠ 0 → ReaderMoves f s .none .silent
        (.draining s.retirementGeneration) s.ring.read
  | settle {retired : Nat} : ReaderMoves f s (.draining retired) .silent
        (.draining retired) s.ring.read
  | giveUp {retired : Nat} : ReaderMoves f s (.draining retired) .silent .none s.ring.read
  | scan {retired : Nat} : ReaderMoves f s (.draining retired) .silent
        (.skipping retired s.ring.read s.ring.write) s.ring.read
  | pass {retired read write : Nat} : read ≠ write → (s.ring.slot read).generation = retired →
      ReaderMoves f s (.skipping retired read write) .silent
        (.skipping retired ((read + 1) % indexSize) write)
        s.ring.read
  | settled {retired read write : Nat} : ReaderMoves f s (.skipping retired read write) .silent
        (.settled retired read) s.ring.read
  | retire {retired read : Nat} : ReaderMoves f s (.settled retired read) (.retired retired
          ((read + indexSize - s.ring.read) % indexSize))
        .none read

theorem reader_afterTake (link : Link) (exchange : Exchange α) :
    (afterTake link exchange).reader = .none := by
  unfold afterTake
  split <;> rfl

theorem reader_afterComplete (link : Link) (accepted : Bool) (exchange : Exchange α) :
    (afterComplete link accepted exchange).reader = .none := by
  unfold afterComplete
  split <;> rfl

/- What the worker leaves to the compositor thread. -/
structure Kept (s s' : StockWorker α) : Prop where
  caller : s'.caller = s.caller
  parkRequested : s'.parkRequested = s.parkRequested
  retirementGeneration : s'.retirementGeneration = s.retirementGeneration
  ring : s'.ring = { s.ring with read := s'.ring.read }
  ready : s'.ready = true → s.ready = true ∨ ∃ link, s.place.stage = .live link

/- One step of the worker, seen in both views. -/
structure Works (f : Framing α) (seed : Nat) (s s' : StockWorker α) (signal : Signal α) : Prop where
  stage : StageMoves seed s.place.stage s.connectionGeneration
      s.connectionNonce signal s'.place.stage
      s'.connectionGeneration s'.connectionNonce
  reader : ReaderMoves f s s.place.reader signal s'.place.reader s'.ring.read
  kept : Kept s s'

variable {s s' : StockWorker α} {signal : Signal α} {f : Framing α}

theorem works_of_work {seed : Nat} {a : Ambient α}
    (hStep : s.work f seed a = some (s', signal)) :
    Works f seed s s' signal := by
  generalize hPlace : s.place = place at hStep
  -- Each place has one or two successors; the views of both
  -- ends are then plain terms.
  cases place <;>
    simp only [work, hPlace, workRun, workConnect, workLoop, workTransaction, goto, onMailbox,
      Option.or_none, Option.none_or, Option.map_eq_some_iff] at hStep
  all_goals repeat' split at hStep
  all_goals
    first
    | (rcases hStep with ⟨_, _, hStep⟩; cases hStep)
    | cases hStep
  all_goals
    refine ⟨?_, ?_, rfl, rfl, rfl, rfl, ?_⟩
    · rw [hPlace]
      try rw [stage_afterTake]
      try rw [stage_afterComplete]
      first
      | exact StageMoves.stay rfl
      | (constructor; done)
      | exact StageMoves.attempt (by simp_all)
    · rw [hPlace]
      try rw [reader_afterTake]
      try rw [reader_afterComplete]
      first
      | exact ReaderMoves.stay rfl
      | (constructor; done)
      | exact ReaderMoves.skip (congrArg Place.stage hPlace) ‹_›
      | (constructor <;> simp_all [Place.stage])
    · first
      | exact .inl
      | (intro hFalse; cases hFalse; done)
      | exact fun _ => .inr ⟨_, congrArg Place.stage hPlace⟩

-----
-- Moves Of The Writer

/- What a call of the compositor thread does to the ring. -/
inductive WriterMoves (f : Framing α) (s : StockWorker α) : Writer α → Signal α → Writer α →
      RingBuffer (Notification α) capacity → Prop
  | stay {signal : Signal α} : signal.readerPlain = true → WriterMoves f s .none signal .none s.ring
  | ask {packet : α} : WriterMoves f s .none .silent (.asked packet s.connectionGeneration) s.ring
  | refuse {writer : Writer α} : WriterMoves f s writer .refused .none s.ring
  | ready {packet : α} {generation : Nat} : s.ready = true →
      WriterMoves f s (.asked packet generation) .silent (.ready packet generation) s.ring
  | unparked {packet : α} {generation : Nat} : WriterMoves f s (.ready packet generation) .silent
        (.ready packet generation) s.ring
  | room {packet : α} {generation : Nat} : s.ring.size indexSize ≠ capacity →
      WriterMoves f s (.ready packet generation) .silent (.room packet generation) s.ring
  | matched {packet : α} {generation : Nat} : f.nonce packet = s.connectionNonce →
      WriterMoves f s (.room packet generation) .silent (.admitted packet generation) s.ring
  | write {packet : α} {generation : Nat} : WriterMoves f s (.admitted packet generation) .silent
        (.written packet generation)
        (s.ring.put s.ring.write ⟨packet, generation⟩)
  | publish {packet : α} {generation : Nat} : WriterMoves f s (.written packet generation)
        (.queued ⟨packet, generation⟩) .none
        { s.ring with write := (s.ring.write + 1) % indexSize }

/- One access of the compositor thread outside `decide`. -/
structure Calls (f : Framing α) (s s' : StockWorker α) (signal : Signal α) : Prop where
  writer : WriterMoves f s s.caller.writer signal s'.caller.writer s'.ring
  stagePlain : signal.stagePlain = true
  place : s'.place = s.place
  exchange : s'.exchange = s.exchange
  connectionGeneration : s'.connectionGeneration = s.connectionGeneration
  connectionNonce : s'.connectionNonce = s.connectionNonce
  ready : s'.ready = true → s.ready = true
  retirementGeneration : s'.retirementGeneration = s.retirementGeneration ∨
      signal = .retiring s'.retirementGeneration

theorem calls_of_call
    (hStep : s.call f = some (s', signal)) : Calls f s s' signal := by
  generalize hCaller : s.caller = caller at hStep
  cases caller <;>
    simp only [call, hCaller, resume, leave] at hStep
  all_goals repeat' split at hStep
  all_goals cases hStep
  all_goals
    refine ⟨?_, rfl, rfl, rfl, rfl, rfl, ?_, ?_⟩
    · rw [hCaller]
      first
      | exact WriterMoves.stay rfl
      | (constructor; done)
      | (constructor; simp_all)
    · first
      | exact id
      | (intro hFalse; cases hFalse)
    · first
      | exact .inl rfl
      | exact .inr rfl

theorem calls_of_enter {op : Op α}
    (hOutside : s.caller = .outside) (hStep : s.enter op = some (s', signal)) :
    Calls f s s' signal := by
  cases op <;> simp only [enter, resume, leave] at hStep
  all_goals repeat' split at hStep
  all_goals cases hStep
  all_goals
    refine ⟨?_, rfl, rfl, rfl, rfl, rfl, ?_, .inl rfl⟩
    · rw [hOutside]
      first
      | exact WriterMoves.stay rfl
      | constructor
    · first
      | exact id
      | (intro hFalse; cases hFalse)

-----
-- A Step Of Either Thread

namespace Op

def isWork : Op α → Bool
  | .work _ => true
  | _ => false

end Op

inductive Stepped (f : Framing α) (seed : Nat) (s : StockWorker α) :
    Op α → StockWorker α → Signal α → Prop
  | work {a : Ambient α} {s' : StockWorker α} {signal : Signal α} :
      s.work f seed a = some (s', signal) →
      Works f seed s s' signal →
      Stepped f seed s (.work a) s' signal
  | call {op : Op α} {s' : StockWorker α} {signal : Signal α} : op.isWork = false →
      Calls f s s' signal →
      Stepped f seed s op s' signal
  | decide {op : Op α} {exchange : Exchange α} {signal : Native.Signal α} : op.isWork = false →
      exchange.worker = s.exchange.worker →
      Stepped f seed s op { s with exchange := exchange } (.mailbox signal)

/- The compositor thread leaves the worker where it is. -/
theorem worker_of_advance {s s' : Exchange α} {now : Nat} {wait : FutexResult}
    {signal : Native.Signal α} (hStep : s.step (.advance now wait) = some (s', signal)) :
    s'.worker = s.worker := by
  rcases Option.map_eq_some_iff.mp hStep with ⟨r, _, hSame⟩
  cases hSame
  rfl

theorem worker_of_decide {s s' : Exchange α} {event : α} {deadlineNs start : Nat}
    {signal : Native.Signal α} (hStep : s.step (.decide event deadlineNs start) = some (s', signal)) :
    s'.worker = s.worker := by
  simp only [Exchange.step] at hStep
  split at hStep
  · cases hStep
    rfl
  · cases hStep

theorem decide_of_onDecide {seed : Nat} {op : Op α}
    {xop : Exchange.Op α} (hOp : op.isWork = false)
    (hKeeps : ∀ x y, s.exchange.step xop = some (x, y) → x.worker = s.exchange.worker)
    (hStep : s.onDecide xop = some (s', signal)) : Stepped f seed s op s' signal := by
  rcases Option.map_eq_some_iff.mp hStep with ⟨⟨x, y⟩, hExchange, hSame⟩
  cases hSame
  exact .decide hOp (hKeeps x y hExchange)

theorem stepped_of_step {seed : Nat} {op : Op α}
    (hStep : s.step f seed op = some (s', signal)) :
    Stepped f seed s op s' signal := by
  cases op with
  | work a => exact .work hStep (works_of_work hStep)
  | call => exact .call rfl (calls_of_call hStep)
  | advance now wait => exact decide_of_onDecide rfl (fun _ _ => worker_of_advance) hStep
  | decide event deadlineNs start =>
    simp only [step] at hStep
    split at hStep
    · exact decide_of_onDecide rfl (fun _ _ => worker_of_decide) hStep
    · cases hStep
  | _ =>
    simp only [step] at hStep
    split at hStep
    · exact .call rfl (calls_of_enter ‹s.caller = .outside› hStep)
    · cases hStep

end Sledge.Native.StockWorker
