import Sledge.Lib.History

/-
  The decision mailbox between the compositor thread and the
  socket worker.

  One word, `phase`, hands two packet buffers back and forth.
  Each load, store, compare-exchange, buffer copy, clock read
  and futex wait of `decide`, `take` and `complete` is one
  step, and the two threads interleave freely.

  Main results:
    * `Exchange.stepped_of_step`
    * `Exchange.run_coherent`
-/

-----
-- The Mailbox And Its Two Threads

namespace Sledge.Native

open Transition

inductive Phase
  | idle
  | request
  | processing
  | reply
  | abandoned
deriving Repr, DecidableEq

structure DecisionMailbox (α : Type) where
  phase : Phase
  request : α
  reply : α
  deadline : Nat
deriving Repr, DecidableEq

/- What a futex wait returns. -/
inductive FutexResult
  | woken
  | again
  | interrupted
  | timedOut
  | failed
deriving Repr, DecidableEq

/-
  Where the compositor thread is in `decide`, by the access it makes next, with the locals
  that are still needed.
-/
inductive Decide (α : Type)
  | outside
  | loading (event : α) (deadlineNs : Nat)
  | writingRequest (event : α) (deadlineNs : Nat)
  | writingDeadline (event : α) (deadlineNs : Nat)
  | publishing (event : α) (deadlineNs : Nat)
  | polling (event : α) (deadlineNs : Nat)
  | replied (event : α) (deadlineNs : Nat)
  | copyingReply (event : α) (deadlineNs : Nat)
  | releasing (event : α) (deadlineNs : Nat) (decision : Option α)
  | timing (event : α) (deadlineNs : Nat) (current : Phase)
  | sleeping (event : α) (deadlineNs : Nat) (current : Phase)
  | abandoning (event : α) (deadlineNs : Nat) (current : Phase)
deriving Repr, DecidableEq

/-
  Where the worker is: outside, in `take`, between a taken request and its `complete`, or
  in `complete`.
-/
inductive Serve (α : Type)
  | outside
  | acknowledging
  | copyingRequest
  | copyingDeadline (event : α)
  | serving (event : α) (deadlineNs : Nat)
  | writingReply (event : α) (deadlineNs : Nat) (decision : α)
  | answering (event : α) (deadlineNs : Nat) (decision : α)
  | dropping
  | waking
deriving Repr, DecidableEq

structure Exchange (α : Type) where
  mailbox : DecisionMailbox α
  producer : Decide α
  worker : Serve α
deriving Repr, DecidableEq

/- What a step does that the other side or a caller can see. -/
inductive Signal (α : Type)
  | silent
  | published (event : α) (deadlineNs : Nat)
  | returned (decision : Option α)
  | abandoned
  | missed
  | acknowledged
  | claimed
  | took (event : α) (deadlineNs : Nat)
  | answered
  | dropped
deriving Repr, DecidableEq

-----
-- The Calls

namespace DecisionMailbox

/- The longest a decision may be waited for. -/
def budget : Nat := 10000000

variable {α : Type}

def initial (blank : α) : DecisionMailbox α where
  phase := .idle
  request := blank
  reply := blank
  deadline := 0

/- Entering `decide`, with the first clock read. -/
def decide (event : α) (deadlineNs start : Nat) : Decide α × Signal α :=
  if start = 0 ∨ deadlineNs ≤ start ∨ deadlineNs - start > budget then
    (.outside, .returned none)
  else
    (.loading event deadlineNs, .silent)

/-
  The next access of the compositor thread.  `now` is what a clock read returns and `wait`
  what a futex wait returns.
-/
def advance (m : DecisionMailbox α) (now : Nat) (wait : FutexResult) :
    Decide α → Option (DecisionMailbox α × Decide α × Signal α)
  | .outside => none
  | .loading event deadlineNs =>
    if m.phase ≠ .idle then
      some (m, .outside, .returned none)
    else
      some (m, .writingRequest event deadlineNs, .silent)
  | .writingRequest event deadlineNs =>
    some ({ m with request := event }, .writingDeadline event deadlineNs, .silent)
  | .writingDeadline event deadlineNs =>
    some ({ m with deadline := deadlineNs }, .publishing event deadlineNs, .silent)
  -- The callback `published` runs here; it has no access to
  -- the mailbox.
  | .publishing event deadlineNs =>
    some ({ m with phase := .request }, .polling event deadlineNs, .published event deadlineNs)
  | .polling event deadlineNs =>
    if m.phase = .reply then
      some (m, .replied event deadlineNs, .silent)
    else
      some (m, .timing event deadlineNs m.phase, .silent)
  | .replied event deadlineNs =>
    if now ≠ 0 ∧ now < deadlineNs then
      some (m, .copyingReply event deadlineNs, .silent)
    else
      some (m, .releasing event deadlineNs none, .silent)
  | .copyingReply event deadlineNs => some (m, .releasing event deadlineNs (some m.reply), .silent)
  | .releasing _ _ decision => some ({ m with phase := .idle }, .outside, .returned decision)
  | .timing event deadlineNs current =>
    if now = 0 ∨ deadlineNs ≤ now then
      some (m, .abandoning event deadlineNs current, .silent)
    else
      some (m, .sleeping event deadlineNs current, .silent)
  | .sleeping event deadlineNs current =>
    match wait with
    | .failed => some (m, .abandoning event deadlineNs current, .silent)
    | _ => some (m, .polling event deadlineNs, .silent)
  | .abandoning event deadlineNs current =>
    if m.phase = current then
      some ({ m with phase := .abandoned }, .outside, .abandoned)
    else
      some (m, .polling event deadlineNs, .silent)

/- The compare-exchange `take` starts with. -/
def take (m : DecisionMailbox α) : DecisionMailbox α × Serve α × Signal α :=
  match m.phase with
  | .request => ({ m with phase := .processing }, .copyingRequest, .claimed)
  | .abandoned => (m, .acknowledging, .silent)
  | _ => (m, .outside, .missed)

/- The next access of the worker inside a call. -/
def serve (m : DecisionMailbox α) : Serve α → Option (DecisionMailbox α × Serve α × Signal α)
  | .outside | .serving _ _ => none
  | .acknowledging => some ({ m with phase := .idle }, .outside, .acknowledged)
  | .copyingRequest => some (m, .copyingDeadline m.request, .silent)
  | .copyingDeadline event => some (m, .serving event m.deadline, .took event m.deadline)
  | .writingReply event deadlineNs decision =>
    some ({ m with reply := decision }, .answering event deadlineNs decision, .silent)
  | .answering _ _ _ =>
    if m.phase = .processing then
      some ({ m with phase := .reply }, .waking, .answered)
    else
      some (m, .dropping, .silent)
  | .dropping => some ({ m with phase := .idle }, .waking, .dropped)
  | .waking => some (m, .outside, .silent)

/- What an access of the compositor thread can do. -/
inductive Advances (m : DecisionMailbox α) :
    Decide α → DecisionMailbox α → Decide α → Signal α → Prop
  | refuse {event : α} {deadlineNs : Nat} : m.phase ≠ .idle → Advances m (.loading event deadlineNs)
        m .outside (.returned none)
  | proceed {event : α} {deadlineNs : Nat} : m.phase = .idle →
      Advances m (.loading event deadlineNs) m (.writingRequest event deadlineNs) .silent
  | writeRequest {event : α} {deadlineNs : Nat} : Advances m (.writingRequest event deadlineNs)
        { m with request := event }
        (.writingDeadline event deadlineNs) .silent
  | writeDeadline {event : α} {deadlineNs : Nat} : Advances m (.writingDeadline event deadlineNs)
        { m with deadline := deadlineNs }
        (.publishing event deadlineNs) .silent
  | publish {event : α} {deadlineNs : Nat} : Advances m (.publishing event deadlineNs)
        { m with phase := .request }
        (.polling event deadlineNs)
        (.published event deadlineNs)
  | seeReply {event : α} {deadlineNs : Nat} : m.phase = .reply →
      Advances m (.polling event deadlineNs) m (.replied event deadlineNs) .silent
  | seeOther {event : α} {deadlineNs : Nat} : m.phase ≠ .reply →
      Advances m (.polling event deadlineNs) m (.timing event deadlineNs m.phase) .silent
  | timely {event : α} {deadlineNs : Nat} : Advances m (.replied event deadlineNs)
        m (.copyingReply event deadlineNs) .silent
  | late {event : α} {deadlineNs : Nat} : Advances m (.replied event deadlineNs)
        m (.releasing event deadlineNs none) .silent
  | copy {event : α} {deadlineNs : Nat} : Advances m (.copyingReply event deadlineNs)
        m (.releasing event deadlineNs (some m.reply)) .silent
  | release {event : α} {deadlineNs : Nat} {decision : Option α} :
      Advances m (.releasing event deadlineNs decision)
        { m with phase := .idle } .outside (.returned decision)
  | sleep {event : α} {deadlineNs : Nat} {current : Phase} :
      Advances m (.timing event deadlineNs current) m (.sleeping event deadlineNs current) .silent
  | expire {event : α} {deadlineNs : Nat} {current : Phase} :
      Advances m (.timing event deadlineNs current) m (.abandoning event deadlineNs current) .silent
  | wake {event : α} {deadlineNs : Nat} {current : Phase} :
      Advances m (.sleeping event deadlineNs current) m (.polling event deadlineNs) .silent
  | fail {event : α} {deadlineNs : Nat} {current : Phase} :
      Advances m (.sleeping event deadlineNs current)
        m (.abandoning event deadlineNs current) .silent
  | abandon {event : α} {deadlineNs : Nat} {current : Phase} : m.phase = current →
      Advances m (.abandoning event deadlineNs current)
        { m with phase := .abandoned } .outside .abandoned
  | retry {event : α} {deadlineNs : Nat} {current : Phase} : m.phase ≠ current →
      Advances m (.abandoning event deadlineNs current) m (.polling event deadlineNs) .silent

theorem advances_of_advance {m m' : DecisionMailbox α} {now : Nat} {wait : FutexResult}
    {producer next : Decide α} {signal : Signal α}
    (hStep : m.advance now wait producer = some (m', next, signal)) :
    m.Advances producer m' next signal := by
  cases producer <;> simp only [advance] at hStep
  case outside => cases hStep
  case loading | polling | replied | timing | abandoning =>
    split at hStep <;>
      (cases hStep; constructor; try simp_all)
  case sleeping =>
    split at hStep <;> (cases hStep; constructor)
  all_goals (cases hStep; constructor)

end DecisionMailbox

-----
-- Interleavings

namespace Exchange

variable {α : Type}

/-
  One atomic step of either thread.  A `complete` is possible only for a taken request,
  and the next `take` only after it.
-/
inductive Op (α : Type)
  | decide (event : α) (deadlineNs start : Nat)
  | advance (now : Nat) (wait : FutexResult)
  | take
  | complete (decision : α)
  | serve
deriving Repr, DecidableEq

def step (s : Exchange α) : Op α → Option (Exchange α × Signal α)
  | .decide event deadlineNs start =>
    match s.producer with
    | .outside =>
      let entered :=
        DecisionMailbox.decide event deadlineNs start
      some ({ s with producer := entered.1 }, entered.2)
    | _ => none
  | .advance now wait =>
    (s.mailbox.advance now wait s.producer).map fun r =>
      ({ s with mailbox := r.1, producer := r.2.1 }, r.2.2)
  | .take =>
    match s.worker with
    | .outside =>
      let r := s.mailbox.take
      some ({ s with mailbox := r.1, worker := r.2.1 }, r.2.2)
    | _ => none
  | .complete decision =>
    match s.worker with
    | .serving event deadlineNs =>
      some ({ s with worker := .writingReply event deadlineNs decision }, .silent)
    | _ => none
  | .serve =>
    (s.mailbox.serve s.worker).map fun r =>
      ({ s with mailbox := r.1, worker := r.2.1 }, r.2.2)

def initial (blank : α) : Exchange α where
  mailbox := DecisionMailbox.initial blank
  producer := .outside
  worker := .outside

abbrev Entry (α : Type) := Transition.Entry (Exchange α) (Op α) (Signal α)

abbrev Run (blank : α) := Transition.Run step (initial blank)

/- What a step of the worker can do. -/
inductive Serves (m : DecisionMailbox α) : Op α → Serve α →
      DecisionMailbox α → Serve α → Signal α → Prop
  | claim : m.phase = .request → Serves m .take .outside
        { m with phase := .processing } .copyingRequest .claimed
  | notice : m.phase = .abandoned → Serves m .take .outside m .acknowledging .silent
  | miss : m.phase ≠ .request → m.phase ≠ .abandoned → Serves m .take .outside m .outside .missed
  | acknowledge : Serves m .serve .acknowledging { m with phase := .idle } .outside .acknowledged
  | copyRequest : Serves m .serve .copyingRequest m (.copyingDeadline m.request) .silent
  | copyDeadline {event : α} : Serves m .serve (.copyingDeadline event)
        m (.serving event m.deadline) (.took event m.deadline)
  | complete {event decision : α} {deadlineNs : Nat} :
      Serves m (.complete decision) (.serving event deadlineNs)
        m (.writingReply event deadlineNs decision) .silent
  | writeReply {event decision : α} {deadlineNs : Nat} :
      Serves m .serve (.writingReply event deadlineNs decision) { m with reply := decision }
        (.answering event deadlineNs decision) .silent
  | answer {event decision : α} {deadlineNs : Nat} : m.phase = .processing →
      Serves m .serve (.answering event deadlineNs decision)
        { m with phase := .reply } .waking .answered
  | miscarry {event decision : α} {deadlineNs : Nat} : m.phase ≠ .processing →
      Serves m .serve (.answering event deadlineNs decision) m .dropping .silent
  | drop : Serves m .serve .dropping { m with phase := .idle } .waking .dropped
  | wake : Serves m .serve .waking m .outside .silent

/- The effect of one step, by the thread that takes it. -/
inductive Stepped (s : Exchange α) : Op α → Exchange α → Signal α → Prop
  | decide {event : α} {deadlineNs start : Nat} : s.producer = .outside →
      Stepped s (.decide event deadlineNs start)
        { s with
          producer :=
            (DecisionMailbox.decide event deadlineNs start).1 }
        (DecisionMailbox.decide event deadlineNs start).2
  | advance {now : Nat} {wait : FutexResult} {m : DecisionMailbox α} {producer : Decide α}
      {signal : Signal α} :
      s.mailbox.Advances s.producer m producer signal →
      Stepped s (.advance now wait) { s with mailbox := m, producer := producer } signal
  | serve {op : Op α} {m : DecisionMailbox α} {worker : Serve α} {signal : Signal α} :
      Serves s.mailbox op s.worker m worker signal →
      Stepped s op { s with mailbox := m, worker := worker } signal

theorem serves_take (m : DecisionMailbox α) :
    Serves m .take .outside m.take.1 m.take.2.1 m.take.2.2 := by
  cases hPhase : m.phase <;>
    simp only [DecisionMailbox.take, hPhase] <;>
    constructor <;> simp [hPhase]

theorem serves_of_serve {m m' : DecisionMailbox α} {worker worker' : Serve α} {signal : Signal α}
    (hStep : m.serve worker = some (m', worker', signal)) :
    Serves m .serve worker m' worker' signal := by
  cases worker <;> simp only [DecisionMailbox.serve] at hStep
  case outside | serving => cases hStep
  case answering =>
    split at hStep <;> (cases hStep; constructor; assumption)
  all_goals (cases hStep; constructor)

theorem stepped_of_step {s s' : Exchange α} {op : Op α} {signal : Signal α}
    (hStep : s.step op = some (s', signal)) : s.Stepped op s' signal := by
  cases op with
  | decide event deadlineNs start =>
    simp only [step] at hStep
    split at hStep
    · rename_i hOutside
      cases hStep
      exact .decide hOutside
    · cases hStep
  | advance now wait =>
    rcases Option.map_eq_some_iff.mp hStep with ⟨⟨m, producer, signal⟩, hAdvance, hSame⟩
    cases hSame
    exact .advance (DecisionMailbox.advances_of_advance hAdvance)
  | take =>
    simp only [step] at hStep
    split at hStep
    · rename_i hOutside
      cases hStep
      refine .serve ?_
      rw [hOutside]
      exact serves_take s.mailbox
    · cases hStep
  | complete decision =>
    simp only [step] at hStep
    split at hStep
    · rename_i hServing
      cases hStep
      refine .serve (m := s.mailbox) ?_
      rw [hServing]
      exact .complete
    · cases hStep
  | serve =>
    rcases Option.map_eq_some_iff.mp hStep with ⟨⟨m, worker, signal⟩, hServe, hSame⟩
    cases hSame
    exact .serve (serves_of_serve hServe)

end Exchange

-----
-- The Phase And The Program Counters

namespace Decide

variable {α : Type}

/- The arguments of the call in progress. -/
def call : Decide α → Option (α × Nat)
  | .outside => none
  | .loading event deadlineNs
  | .writingRequest event deadlineNs
  | .writingDeadline event deadlineNs
  | .publishing event deadlineNs
  | .polling event deadlineNs
  | .replied event deadlineNs
  | .copyingReply event deadlineNs
  | .releasing event deadlineNs _
  | .timing event deadlineNs _
  | .sleeping event deadlineNs _
  | .abandoning event deadlineNs _ => some (event, deadlineNs)

/- The event the call has written to the mailbox. -/
def requested : Decide α → Option α
  | .outside | .loading _ _ | .writingRequest _ _ => none
  | producer => producer.call.map Prod.fst

/- The deadline the call has written to the mailbox. -/
def dated : Decide α → Option Nat
  | .outside
  | .loading _ _
  | .writingRequest _ _
  | .writingDeadline _ _ => none
  | producer => producer.call.map Prod.snd

/- The decision the call has copied and will return. -/
def copied : Decide α → Option α
  | .releasing _ _ decision => decision
  | _ => none

/- The phases under which the producer can be at a place. -/
def fits (phase : Phase) : Decide α → Bool
  | .outside | .loading _ _ => phase = .idle ∨ phase = .abandoned
  | .writingRequest _ _
  | .writingDeadline _ _
  | .publishing _ _ => phase = .idle
  | .polling _ _ => phase ≠ .idle ∧ phase ≠ .abandoned
  | .replied _ _
  | .copyingReply _ _
  | .releasing _ _ _ => phase = .reply
  | .timing _ _ current
  | .sleeping _ _ current
  | .abandoning _ _ current =>
    (phase ≠ .idle ∧ phase ≠ .abandoned) ∧ (current = .request ∨ current = .processing)

variable {producer : Decide α}

theorem reply_of_copied {phase : Phase} {decision : α} (hFits : producer.fits phase = true)
    (hCopied : decision ∈ producer.copied) : phase = .reply := by
  cases producer <;> simp_all [fits, copied]

/- A claimed request is the request of a call in progress. -/
theorem call_of_processing (hFits : producer.fits .processing = true) :
    ∃ event deadlineNs, producer.call = some (event, deadlineNs) := by
  cases producer <;> simp_all [fits, call]

/- A call whose request is out has written both its buffers. -/
theorem written_of_processing {event : α} {deadlineNs : Nat}
    (hFits : producer.fits .processing = true) (hCall : producer.call = some (event, deadlineNs)) :
    event ∈ producer.requested ∧ deadlineNs ∈ producer.dated := by
  cases producer <;> simp_all [fits, call, requested, dated]

end Decide

namespace Serve

variable {α : Type}

/- The phases under which the worker can be at a place. -/
def fits (phase : Phase) : Serve α → Bool
  | .outside | .waking => phase ≠ .processing
  | .acknowledging | .dropping => phase = .abandoned
  | _ => phase = .processing ∨ phase = .abandoned

/- The event the worker has copied and not yet completed. -/
def copied : Serve α → Option α
  | .copyingDeadline event
  | .serving event _
  | .writingReply event _ _
  | .answering event _ _ => some event
  | _ => none

/- The deadline the worker has copied and not yet completed. -/
def copiedDeadline : Serve α → Option Nat
  | .serving _ deadlineNs
  | .writingReply _ deadlineNs _
  | .answering _ deadlineNs _ => some deadlineNs
  | _ => none

/- The decision written to the mailbox and not handed over. -/
def answer : Serve α → Option α
  | .answering _ _ decision => some decision
  | _ => none

/- A worker that fits an idle mailbox holds no copy. -/
theorem copied_of_idle {worker : Serve α} (hFits : worker.fits .idle = true) :
    worker.copied = none ∧ worker.copiedDeadline = none := by
  cases worker <;> simp_all [fits, copied, copiedDeadline]

theorem fits_request (worker : Serve α) : worker.fits .request = worker.fits .idle := by
  cases worker <;> rfl

theorem fits_reply (worker : Serve α) : worker.fits .reply = worker.fits .idle := by
  cases worker <;> rfl

/- An abandonment can find the worker anywhere. -/
theorem fits_abandoned (worker : Serve α) : worker.fits .abandoned = true := by
  cases worker <;> rfl

end Serve

namespace Exchange

variable {α : Type}

/-
  The phase says where both threads can be, and what either has put into or copied from a
  buffer is still there.
-/
structure Coherent (s : Exchange α) : Prop where
  producer : s.producer.fits s.mailbox.phase = true
  worker : s.worker.fits s.mailbox.phase = true
  request : ∀ event ∈ s.producer.requested, s.mailbox.request = event
  deadline : ∀ deadlineNs ∈ s.producer.dated, s.mailbox.deadline = deadlineNs
  copied : ∀ event ∈ s.worker.copied, s.mailbox.request = event
  copiedDeadline : ∀ deadlineNs ∈ s.worker.copiedDeadline, s.mailbox.deadline = deadlineNs
  answer : ∀ decision ∈ s.worker.answer, s.mailbox.reply = decision
  decision : ∀ decision ∈ s.producer.copied, s.mailbox.reply = decision

theorem coherent_initial (blank : α) : Coherent (initial blank) := by
  constructor <;>
    simp [initial, DecisionMailbox.initial, Decide.fits, Serve.fits, Decide.requested, Decide.dated,
      Serve.copied, Serve.copiedDeadline, Serve.answer, Decide.copied]

end Exchange

-----
-- The Compositor Thread Keeps Coherence

namespace DecisionMailbox.Advances

variable {α : Type} {m m' : DecisionMailbox α} {producer producer' : Decide α} {worker : Serve α}
variable {signal : Signal α}

theorem fits (hStep : m.Advances producer m' producer' signal)
    (hFits : producer.fits m.phase = true) : producer'.fits m'.phase = true := by
  cases hStep with
  | refuse hPhase => simp_all [Decide.fits]
  | seeOther hPhase =>
    cases hOther : m.phase <;> simp_all [Decide.fits]
  | _ => simp_all [Decide.fits]

/-
  The phase moves by publication, release and abandonment; the worker is free in the first
  two.
-/
theorem worker_fits (hStep : m.Advances producer m' producer' signal)
    (hFits : producer.fits m.phase = true) (hWorker : worker.fits m.phase = true) :
    worker.fits m'.phase = true := by
  cases hStep with
  | publish =>
    have hIdle : m.phase = .idle := by simpa [Decide.fits] using hFits
    rw [hIdle] at hWorker
    exact worker.fits_request.trans hWorker
  | release =>
    have hReply : m.phase = .reply := by simpa [Decide.fits] using hFits
    rw [hReply] at hWorker
    exact worker.fits_reply.symm.trans hWorker
  | abandon => exact worker.fits_abandoned
  | _ => exact hWorker

theorem requested (hStep : m.Advances producer m' producer' signal)
    (hHeld : ∀ event ∈ producer.requested, m.request = event) :
    ∀ event ∈ producer'.requested, m'.request = event := by
  cases hStep <;>
    simp_all [Decide.requested, Decide.call]

theorem dated (hStep : m.Advances producer m' producer' signal)
    (hHeld : ∀ d ∈ producer.dated, m.deadline = d) : ∀ d ∈ producer'.dated, m'.deadline = d := by
  cases hStep <;> simp_all [Decide.dated, Decide.call]

theorem copied (hStep : m.Advances producer m' producer' signal) :
    ∀ decision ∈ producer'.copied, m'.reply = decision := by
  cases hStep <;> simp [Decide.copied]

/- The compositor thread writes only to an idle mailbox. -/
theorem buffers (hStep : m.Advances producer m' producer' signal)
    (hFits : producer.fits m.phase = true) :
    m'.reply = m.reply ∧ (m.phase = .idle ∨ (m'.request = m.request ∧ m'.deadline = m.deadline)) := by
  cases hStep <;> simp_all [Decide.fits]

end DecisionMailbox.Advances

namespace Exchange

variable {α : Type}

theorem advances_coherent {s : Exchange α} {m : DecisionMailbox α} {producer : Decide α}
    {signal : Signal α} (hStep : s.mailbox.Advances s.producer m producer signal)
    (hBefore : Coherent s) : Coherent { s with mailbox := m, producer := producer } where
  producer := hStep.fits hBefore.producer
  worker := hStep.worker_fits hBefore.producer hBefore.worker
  request := hStep.requested hBefore.request
  deadline := hStep.dated hBefore.deadline
  copied := by
    rcases (hStep.buffers hBefore.producer).2 with hIdle | hSame
    · have hWorker := hBefore.worker
      rw [hIdle] at hWorker
      simp [(Serve.copied_of_idle hWorker).1]
    · simpa [hSame.1] using hBefore.copied
  copiedDeadline := by
    rcases (hStep.buffers hBefore.producer).2 with hIdle | hSame
    · have hWorker := hBefore.worker
      rw [hIdle] at hWorker
      simp [(Serve.copied_of_idle hWorker).2]
    · simpa [hSame.2] using hBefore.copiedDeadline
  answer := by
    simpa [(hStep.buffers hBefore.producer).1] using hBefore.answer
  decision := hStep.copied

-----
-- The Worker Keeps Coherence

namespace Serves

variable {op : Op α} {m m' : DecisionMailbox α} {worker worker' : Serve α} {producer : Decide α}
variable {signal : Signal α}

theorem fits (hStep : Serves m op worker m' worker' signal) (hFits : worker.fits m.phase = true) :
    worker'.fits m'.phase = true := by
  cases hStep <;> simp_all [Serve.fits]

/-
  The worker moves the phase on only from a phase in which the compositor thread waits or
  is outside.
-/
theorem producer_fits (hStep : Serves m op worker m' worker' signal)
    (hFits : worker.fits m.phase = true) (hProducer : producer.fits m.phase = true) :
    producer.fits m'.phase = true := by
  cases hStep <;> cases producer <;>
    simp_all [Serve.fits, Decide.fits]

/- The worker never writes the request or its deadline. -/
theorem request (hStep : Serves m op worker m' worker' signal) :
    m'.request = m.request ∧ m'.deadline = m.deadline := by
  cases hStep <;> exact ⟨rfl, rfl⟩

theorem copied (hStep : Serves m op worker m' worker' signal)
    (hHeld : ∀ event ∈ worker.copied, m.request = event) :
    ∀ event ∈ worker'.copied, m'.request = event := by
  cases hStep <;> simp_all [Serve.copied]

theorem copiedDeadline (hStep : Serves m op worker m' worker' signal)
    (hHeld : ∀ d ∈ worker.copiedDeadline, m.deadline = d) :
    ∀ d ∈ worker'.copiedDeadline, m'.deadline = d := by
  cases hStep <;> simp_all [Serve.copiedDeadline]

theorem answered (hStep : Serves m op worker m' worker' signal) :
    ∀ decision ∈ worker'.answer, m'.reply = decision := by
  cases hStep <;> simp [Serve.answer]

/- The worker leaves a reply alone once it is handed over. -/
theorem reply (hStep : Serves m op worker m' worker' signal) (hFits : worker.fits m.phase = true)
    (hReply : m.phase = .reply) : m'.reply = m.reply := by
  cases hStep <;> simp_all [Serve.fits]

end Serves

variable {s : Exchange α}

theorem serves_coherent {op : Op α} {m : DecisionMailbox α} {worker : Serve α} {signal : Signal α}
    (hStep : Serves s.mailbox op s.worker m worker signal) (hBefore : Coherent s) :
    Coherent { s with mailbox := m, worker := worker } where
  producer := hStep.producer_fits hBefore.worker hBefore.producer
  worker := hStep.fits hBefore.worker
  request := by
    simpa [hStep.request.1] using hBefore.request
  deadline := by
    simpa [hStep.request.2] using hBefore.deadline
  copied := hStep.copied hBefore.copied
  copiedDeadline := hStep.copiedDeadline hBefore.copiedDeadline
  answer := hStep.answered
  decision := by
    intro decision hCopied
    have hReply := Decide.reply_of_copied hBefore.producer hCopied
    dsimp only
    rw [hStep.reply hBefore.worker hReply]
    exact hBefore.decision decision hCopied

theorem decide_coherent {event : α} {deadlineNs start : Nat} (hOutside : s.producer = .outside)
    (hBefore : Coherent s) :
    Coherent { s with producer := (DecisionMailbox.decide event deadlineNs start).1 } := by
  have hFits := hBefore.producer
  rw [hOutside] at hFits
  unfold DecisionMailbox.decide
  split
  · rw [← hOutside]
    exact hBefore
  · exact
      { producer := hFits
        worker := hBefore.worker
        request := by simp [Decide.requested]
        deadline := by simp [Decide.dated]
        copied := hBefore.copied
        copiedDeadline := hBefore.copiedDeadline
        answer := hBefore.answer
        decision := by simp [Decide.copied] }

theorem Stepped.coherent {s' : Exchange α} {op : Op α} {signal : Signal α}
    (hStep : s.Stepped op s' signal) (hBefore : Coherent s) : Coherent s' := by
  cases hStep with
  | decide hOutside => exact decide_coherent hOutside hBefore
  | advance hAdvances => exact advances_coherent hAdvances hBefore
  | serve hServes => exact serves_coherent hServes hBefore

/- Every interleaving keeps the phase and both threads in step. -/
theorem run_coherent {blank : α} {trace : List (Entry α)} (hRun : Run blank trace s) : Coherent s :=
  hRun.invariant (coherent_initial blank) (fun _ _ _ _ hBefore hStep =>
      (stepped_of_step hStep).coherent hBefore)

end Exchange

end Sledge.Native
