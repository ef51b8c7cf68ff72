import Sledge.Native.Mailbox

/-
  A decision belongs to the call it is returned to.

  The history of a run shows, for every decision `decide`
  returns, the `take` that returned its event and deadline
  and the `complete` that followed it, all inside that call.
  The buffers are never raced for, and an abandoned request
  blocks the next one until the worker has let go of it.

  Main results:
    * `Exchange.run_correlated`
    * `Exchange.not_races_of_coherent`
    * `Exchange.mailbox_correlation`
-/

-----
-- The History Of A Decision

namespace Sledge.Native

open Transition

namespace Exchange

variable {α : Type}

namespace Op

def isDecide : Op α → Bool
  | .decide .. => true
  | _ => false

def isComplete : Op α → Bool
  | .complete _ => true
  | _ => false

end Op

/- The entry neither begins nor ends a `decide` call. -/
def Within (e : Entry α) : Prop :=
  e.op.isDecide = false ∧ e.out ≠ .abandoned ∧ ∀ decision, e.out ≠ .returned decision

/- Nor does it claim, hand out or complete a request. -/
def Quiet (e : Entry α) : Prop :=
  Within e ∧ e.op.isComplete = false ∧ e.out ≠ .claimed ∧
    ∀ event deadlineNs, e.out ≠ .took event deadlineNs

/- A call of `decide` with these arguments is in progress. -/
def Calling (event : α) (deadlineNs : Nat) : List (Entry α) → Prop :=
  Since (fun _ => True) (fun e => ∃ start, e.op = .decide event deadlineNs start) Within

/- The worker has claimed its request. -/
def Claimed (event : α) (deadlineNs : Nat) : List (Entry α) → Prop :=
  Since (Calling event deadlineNs) (fun e => e.out = .claimed) Quiet

/- The `take` has returned it. -/
def Took (event : α) (deadlineNs : Nat) : List (Entry α) → Prop :=
  Since (Claimed event deadlineNs) (fun e => e.out = .took event deadlineNs) Quiet

/- The next `complete` has been called with this decision. -/
def Completed (event : α) (deadlineNs : Nat) (decision : α) : List (Entry α) → Prop :=
  Since (Took event deadlineNs) (fun e => e.op = .complete decision) Quiet

/- How far the worker is with a request in flight. -/
def Progress (trace : List (Entry α)) (event : α) (deadlineNs : Nat) : Serve α → Prop
  | .copyingRequest
  | .copyingDeadline _ => Claimed event deadlineNs trace
  | .serving _ _ => Took event deadlineNs trace
  | .writingReply _ _ decision
  | .answering _ _ decision => Completed event deadlineNs decision trace
  | _ => True

/- The worker lets go of an abandoned request. -/
def acknowledges (e : Entry α) : Prop := e.out = .acknowledged ∨ e.out = .dropped

/- A request was abandoned and not let go of yet. -/
def Abandoned : List (Entry α) → Prop :=
  Since (fun _ => True) (fun e => e.out = .abandoned) (fun e => ¬ acknowledges e)

/- What the history of the two threads explains of a state. -/
structure Correlated (trace : List (Entry α)) (s : Exchange α) : Prop where
  calling : ∀ event deadlineNs, s.producer.call = some (event, deadlineNs) →
      Calling event deadlineNs trace
  progress : ∀ event deadlineNs, s.producer.call = some (event, deadlineNs) →
      s.mailbox.phase = .processing →
      Progress trace event deadlineNs s.worker
  reply : ∀ event deadlineNs, s.producer.call = some (event, deadlineNs) →
      s.mailbox.phase = .reply →
      Completed event deadlineNs s.mailbox.reply trace
  abandoned : Abandoned trace → s.mailbox.phase = .abandoned

theorem correlated_initial (blank : α) : Correlated [] (initial blank) where
  calling := by simp [initial, Decide.call]
  progress := by simp [initial, Decide.call]
  reply := by simp [initial, Decide.call]
  abandoned := fun hSince =>
    absurd hSince not_since_nil

theorem Progress.keep {trace : List (Entry α)} {event : α} {deadlineNs : Nat} {worker : Serve α}
    {e : Entry α} (hProgress : Progress trace event deadlineNs worker) (hQuiet : Quiet e) :
    Progress (trace ++ [e]) event deadlineNs worker := by
  cases worker <;>
    first
    | exact trivial
    | exact Since.keep hProgress hQuiet

end Exchange

-----
-- Every Run Is Correlated

namespace DecisionMailbox.Advances

variable {α : Type} {m m' : DecisionMailbox α} {producer producer' : Decide α} {signal : Signal α}

/- A call that goes on is the same call, and nothing returned. -/
theorem continues (hStep : m.Advances producer m' producer' signal) {event : α} {deadlineNs : Nat}
    (hCall : producer'.call = some (event, deadlineNs)) :
    producer.call = some (event, deadlineNs) ∧
      (signal = .silent ∨ signal = .published event deadlineNs) := by
  cases hStep <;> simp_all [Decide.call]

/- The compositor thread never moves the phase on to a reply. -/
theorem phase (hStep : m.Advances producer m' producer' signal) :
    m'.phase = m.phase ∨ m'.phase = .request ∨ m'.phase = .idle ∨ m'.phase = .abandoned := by
  cases hStep <;> simp

/- An abandoned mailbox stays so for the compositor thread. -/
theorem stays_abandoned (hStep : m.Advances producer m' producer' signal)
    (hFits : producer.fits m.phase = true) (hPhase : m.phase = .abandoned ∨ signal = .abandoned) :
    m'.phase = .abandoned := by
  cases hStep <;> simp_all [Decide.fits]

end DecisionMailbox.Advances

namespace Exchange

variable {α : Type} {trace : List (Entry α)} {s : Exchange α}

variable {event : α} {deadlineNs : Nat} {m : DecisionMailbox α} {signal : Signal α} {op : Op α}
variable {worker : Serve α}

theorem correlated_decide {start : Nat} (hOutside : s.producer = .outside) (hCoherent : Coherent s)
    (hBefore : Correlated trace s) :
    Correlated (trace ++ [⟨s, .decide event deadlineNs start,
          (DecisionMailbox.decide event deadlineNs start).2⟩])
      { s with producer := (DecisionMailbox.decide event deadlineNs start).1 } := by
  have hPhase : s.mailbox.phase = .idle ∨ s.mailbox.phase = .abandoned := by
    simpa [hOutside, Decide.fits] using hCoherent.producer
  refine ⟨?_, ?_, ?_, ?_⟩
  · intro e d hCall
    refine .now trivial ⟨start, ?_⟩
    unfold DecisionMailbox.decide at hCall
    split at hCall <;> simp_all [Decide.call]
  · intro e d _ hProcessing
    simp [show s.mailbox.phase = _ from hProcessing] at hPhase
  · intro e d _ hReply
    simp [show s.mailbox.phase = _ from hReply] at hPhase
  · intro hAbandoned
    rcases since_snoc.mp hAbandoned with ⟨_, hMark⟩ | ⟨hSince, _⟩
    · unfold DecisionMailbox.decide at hMark
      split at hMark <;> cases hMark
    · exact hBefore.abandoned hSince

theorem correlated_advance {now : Nat} {wait : FutexResult} {producer : Decide α}
    (hStep : s.mailbox.Advances s.producer m producer signal) (hCoherent : Coherent s)
    (hBefore : Correlated trace s) :
    Correlated (trace ++ [⟨s, .advance now wait, signal⟩])
      { s with mailbox := m, producer := producer } := by
  have hQuiet : ∀ e d, producer.call = some (e, d) →
      Quiet (⟨s, .advance now wait, signal⟩ : Entry α) := by
    intro e d hCall
    rcases (hStep.continues hCall).2 with rfl | rfl <;>
      simp [Quiet, Within, Op.isDecide, Op.isComplete]
  refine ⟨?_, ?_, ?_, ?_⟩
  · intro e d hCall
    exact (hBefore.calling e d (hStep.continues hCall).1).keep (hQuiet e d hCall).1
  · intro e d hCall hProcessing
    have hPhase : s.mailbox.phase = .processing := by
      have := hStep.phase
      simp_all
    exact (hBefore.progress e d (hStep.continues hCall).1 hPhase).keep (hQuiet e d hCall)
  · intro e d hCall hReply
    have hPhase : s.mailbox.phase = .reply := by
      have := hStep.phase
      simp_all
    have hSame := (hStep.buffers hCoherent.producer).1
    dsimp only
    rw [hSame]
    exact (hBefore.reply e d (hStep.continues hCall).1 hPhase).keep (hQuiet e d hCall)
  · intro hAbandoned
    refine hStep.stays_abandoned hCoherent.producer ?_
    rcases since_snoc.mp hAbandoned with ⟨_, hMark⟩ | ⟨hSince, _⟩
    · exact .inr hMark
    · exact .inl (hBefore.abandoned hSince)

theorem Serves.within (hStep : Serves s.mailbox op s.worker m worker signal) :
    Within (⟨s, op, signal⟩ : Entry α) := by
  generalize s.worker = before at hStep
  cases hStep <;> simp [Within, Op.isDecide]

/- A step of the worker on the request it has in flight. -/
theorem Serves.progress (hStep : Serves s.mailbox op s.worker m worker signal)
    (hCoherent : Coherent s) (hBefore : Correlated trace s)
    (hCall : s.producer.call = some (event, deadlineNs)) (hProcessing : m.phase = .processing) :
    Progress (trace ++ [⟨s, op, signal⟩]) event deadlineNs worker := by
  have hFits := hCoherent.worker
  have hProgress := hBefore.progress event deadlineNs hCall
  generalize hFrom : s.worker = before at hStep hFits hProgress
  cases hStep with
  | claim _ => exact .now (hBefore.calling _ _ hCall) rfl
  | copyRequest | writeReply =>
    exact .keep (hProgress hProcessing) (by simp [Quiet, Within, Op.isDecide, Op.isComplete])
  | @copyDeadline copied =>
    -- What was copied is what the call in progress wrote.
    have hProducer := hCoherent.producer
    rw [hProcessing] at hProducer
    have hWritten := Decide.written_of_processing hProducer hCall
    have hEvent : copied = event := by
      have hCopied : copied ∈ s.worker.copied := by simp [hFrom, Serve.copied]
      rw [← hCoherent.copied _ hCopied]
      exact hCoherent.request _ hWritten.1
    have hDeadline := hCoherent.deadline _ hWritten.2
    refine .now (hProgress hProcessing) ?_
    simp [hEvent, hDeadline]
  | complete => exact .now (hProgress hProcessing) rfl
  | _ => simp_all [Serve.fits]

/- A reply in the mailbox answers the call in progress. -/
theorem Serves.completed (hStep : Serves s.mailbox op s.worker m worker signal)
    (hCoherent : Coherent s) (hBefore : Correlated trace s)
    (hCall : s.producer.call = some (event, deadlineNs)) (hReply : m.phase = .reply) :
    Completed event deadlineNs m.reply (trace ++ [⟨s, op, signal⟩]) := by
  have hFits := hCoherent.worker
  have hProgress := hBefore.progress event deadlineNs hCall
  have hCompleted := hBefore.reply event deadlineNs hCall
  generalize hFrom : s.worker = before at hStep hFits hProgress
  cases hStep with
  | @answer _ decision _ hProcessing =>
    have hAnswer : s.mailbox.reply = decision :=
      hCoherent.answer decision (by simp [hFrom, Serve.answer])
    dsimp only
    rw [hAnswer]
    exact .keep (hProgress hProcessing) (by simp [Quiet, Within, Op.isDecide, Op.isComplete])
  | miss _ _ | wake =>
    exact .keep (hCompleted hReply) (by simp [Quiet, Within, Op.isDecide, Op.isComplete])
  | _ => simp_all [Serve.fits]

/- Only an acknowledgement takes the worker out of an abandonment. -/
theorem Serves.stays_abandoned (hStep : Serves s.mailbox op s.worker m worker signal)
    (hPhase : s.mailbox.phase = .abandoned) (hSilent : ¬ acknowledges (⟨s, op, signal⟩ : Entry α)) :
    m.phase = .abandoned := by
  generalize s.worker = before at hStep
  cases hStep <;> simp_all [acknowledges]

theorem correlated_serve (hStep : Serves s.mailbox op s.worker m worker signal)
    (hCoherent : Coherent s) (hBefore : Correlated trace s) :
    Correlated (trace ++ [⟨s, op, signal⟩]) { s with mailbox := m, worker := worker } where
  calling := fun e d hCall =>
    (hBefore.calling e d hCall).keep hStep.within
  progress := fun _ _ hCall =>
    hStep.progress hCoherent hBefore hCall
  reply := fun _ _ hCall =>
    hStep.completed hCoherent hBefore hCall
  abandoned := by
    intro hAbandoned
    rcases since_snoc.mp hAbandoned with ⟨_, hMark⟩ | ⟨hSince, hQuiet⟩
    · exact absurd hMark hStep.within.2.1
    · exact hStep.stays_abandoned (hBefore.abandoned hSince) hQuiet

theorem run_correlated {blank : α} (hRun : Run blank trace s) : Correlated trace s := by
  induction hRun with
  | nil => exact correlated_initial blank
  | snoc hFront hStep ih =>
    have hCoherent := run_coherent hFront
    cases stepped_of_step hStep with
    | decide hOutside => exact correlated_decide hOutside hCoherent ih
    | advance hAdvances => exact correlated_advance hAdvances hCoherent ih
    | serve hServes => exact correlated_serve hServes hCoherent ih

end Exchange

-----
-- Correlation, Races And Abandonment

inductive SharedBuffer
  | request
  | deadline
  | reply
deriving Repr, DecidableEq

namespace Decide

variable {α : Type}

/- The buffers written before the phase is touched again. -/
def writing : Decide α → List SharedBuffer
  | .writingRequest _ _ => [.request, .deadline]
  | .writingDeadline _ _ => [.deadline]
  | _ => []

/- The buffers that may be read before it is touched again. -/
def reading : Decide α → List SharedBuffer
  | .replied _ _ | .copyingReply _ _ => [.reply]
  | _ => []

end Decide

namespace Serve

variable {α : Type}

def writing : Serve α → List SharedBuffer
  | .writingReply _ _ _ => [.reply]
  | _ => []

def reading : Serve α → List SharedBuffer
  | .copyingRequest => [.request, .deadline]
  | .copyingDeadline _ => [.deadline]
  | _ => []

end Serve

namespace Exchange

variable {α : Type} {blank : α} {trace : List (Entry α)} {s : Exchange α}

/- One thread writes a buffer the other may be using. -/
def Races (s : Exchange α) : Prop :=
  ∃ buffer, (buffer ∈ s.producer.writing ∧ buffer ∈ s.worker.reading ++ s.worker.writing) ∨
      (buffer ∈ s.worker.writing ∧ buffer ∈ s.producer.reading)

theorem not_races_of_coherent (hCoherent : Coherent s) : ¬ Races s := by
  have hProducer := hCoherent.producer
  have hWorker := hCoherent.worker
  rintro ⟨buffer, ⟨hWrites, hUses⟩ | ⟨hWrites, hReads⟩⟩
  · have hIdle : s.mailbox.phase = .idle := by
      cases hFrom : s.producer <;>
        simp_all [Decide.fits, Decide.writing]
    cases hAt : s.worker <;>
      simp_all [Serve.fits, Serve.reading, Serve.writing]
  · have hReply : s.mailbox.phase = .reply := by
      cases hFrom : s.producer <;>
        simp_all [Decide.fits, Decide.reading]
    cases hAt : s.worker <;>
      simp_all [Serve.fits, Serve.writing]

variable {s' : Exchange α} {op : Op α} {signal : Signal α}

/- The step that returns a decision releases the mailbox. -/
theorem Stepped.releasing {decision : α} (hStep : s.Stepped op s' signal)
    (hSignal : signal = .returned (some decision)) :
    ∃ event deadlineNs, s.producer = .releasing event deadlineNs (some decision) := by
  cases hStep with
  | decide _ =>
    unfold DecisionMailbox.decide at hSignal
    split at hSignal <;> simp at hSignal
  | advance hAdvances =>
    generalize s.producer = producer at hAdvances
    cases hAdvances <;> simp_all
  | serve hServes => exact absurd hSignal (hServes.within.2.2 (some decision))

/- The step that hands a reply over finds its request claimed. -/
theorem Stepped.answering (hStep : s.Stepped op s' signal) (hSignal : signal = .answered) :
    s.mailbox.phase = .processing ∧ ∃ event deadlineNs decision,
        s.worker = .answering event deadlineNs decision := by
  cases hStep with
  | decide _ =>
    unfold DecisionMailbox.decide at hSignal
    split at hSignal <;> simp at hSignal
  | advance hAdvances =>
    generalize s.producer = producer at hAdvances
    cases hAdvances <;> simp at hSignal
  | serve hServes =>
    generalize s.worker = worker at hServes
    cases hServes <;> simp_all

/- A request is published into an idle mailbox. -/
theorem Stepped.publishing {event : α} {deadlineNs : Nat} (hStep : s.Stepped op s' signal)
    (hSignal : signal = .published event deadlineNs) (hCoherent : Coherent s) :
    s.mailbox.phase = .idle := by
  have hFits := hCoherent.producer
  cases hStep with
  | decide _ =>
    unfold DecisionMailbox.decide at hSignal
    split at hSignal <;> simp at hSignal
  | advance hAdvances =>
    generalize s.producer = producer at hAdvances hFits
    cases hAdvances <;> simp_all [Decide.fits]
  | serve hServes =>
    generalize s.worker = worker at hServes
    cases hServes <;> simp at hSignal

theorem completed_of_returned {e : Entry α} {decision : α} (hRun : Run blank (trace ++ [e]) s)
    (hOut : e.out = .returned (some decision)) :
    ∃ event deadlineNs, Completed event deadlineNs decision trace := by
  rcases hRun.concat_inv with ⟨hFront, hStep⟩
  have hCoherent := run_coherent hFront
  rcases (stepped_of_step hStep).releasing hOut with ⟨event, deadlineNs, hFrom⟩
  have hCopied : decision ∈ e.pre.producer.copied := by simp [hFrom, Decide.copied]
  have hReply := Decide.reply_of_copied hCoherent.producer hCopied
  refine ⟨event, deadlineNs, ?_⟩
  rw [← hCoherent.decision decision hCopied]
  exact (run_correlated hFront).reply event deadlineNs (by simp [hFrom, Decide.call]) hReply

theorem completed_of_answered {e : Entry α} (hRun : Run blank (trace ++ [e]) s)
    (hOut : e.out = .answered) :
    ∃ event deadlineNs decision, Completed event deadlineNs decision trace := by
  rcases hRun.concat_inv with ⟨hFront, hStep⟩
  rcases (stepped_of_step hStep).answering hOut with ⟨hPhase, _, _, decision, hFrom⟩
  have hFits := (run_coherent hFront).producer
  rw [hPhase] at hFits
  rcases Decide.call_of_processing hFits with ⟨event, deadlineNs, hCall⟩
  have hProgress := (run_correlated hFront).progress event deadlineNs hCall hPhase
  rw [hFrom] at hProgress
  exact ⟨event, deadlineNs, decision, hProgress⟩

theorem acknowledged_before_published {front middle : List (Entry α)} {first last : Entry α}
    {event : α} {deadlineNs : Nat} (hRun : Run blank (front ++ first :: middle ++ [last]) s)
    (hFirst : first.out = .abandoned) (hLast : last.out = .published event deadlineNs) :
    ∃ e ∈ middle, acknowledges e := by
  rcases hRun.concat_inv with ⟨hFront, hStep⟩
  have hIdle := (stepped_of_step hStep).publishing hLast (run_coherent hFront)
  by_contra hNone
  have hAbandoned : Abandoned (front ++ first :: middle) :=
    ⟨front, first, middle, rfl, trivial, hFirst, fun e hMem hAck => hNone ⟨e, hMem, hAck⟩⟩
  rw [(run_correlated hFront).abandoned hAbandoned] at hIdle
  cases hIdle

/-
  Whatever the interleaving, the clock and the futex do: a decision that is returned, and
  a reply that is handed over, is the one completed for the request of the call that is in
  progress; the buffers are not raced for; and an abandoned request is let go of before
  the next one is published.
-/
theorem mailbox_correlation (blank : α) {trace : List (Entry α)} {s : Exchange α}
    (hRun : Run blank trace s) :
    (∀ front e rest decision, trace = front ++ e :: rest → e.out = .returned (some decision) →
        ∃ event deadlineNs, Completed event deadlineNs decision front) ∧
      (∀ front e rest, trace = front ++ e :: rest → e.out = .answered → ∃ event deadlineNs decision,
          Completed event deadlineNs decision front) ∧
      ¬ Races s ∧
      (∀ front first middle last rest event deadlineNs,
        trace = front ++ first :: middle ++ last :: rest →
        first.out = .abandoned →
        last.out = .published event deadlineNs →
        ∃ e ∈ middle, acknowledges e) := by
  refine ⟨?_, ?_, not_races_of_coherent (run_coherent hRun), ?_⟩
  · rintro front e rest decision rfl hOut
    rcases hRun.upto with ⟨t, hFront⟩
    exact completed_of_returned hFront hOut
  · rintro front e rest rfl hOut
    rcases hRun.upto with ⟨t, hFront⟩
    exact completed_of_answered hFront hOut
  · rintro front first middle last rest event deadlineNs rfl hFirst hLast
    rcases hRun.upto with ⟨t, hFront⟩
    exact acknowledged_before_published hFront hFirst hLast

/-
  A request is abandoned while the worker serves it, its late decision is dropped, and the
  next call gets its own.
-/
def lateThenTimely : List (Op Nat) :=
  [.decide 7 100 1, .advance 0 .woken, .advance 0 .woken,
    .advance 0 .woken, .advance 0 .woken, .take, .serve,
    .serve, .advance 0 .woken, .advance 200 .woken,
    .advance 0 .woken, .complete 8, .serve, .serve, .serve,
    .serve, .decide 9 300 250, .advance 0 .woken,
    .advance 0 .woken, .advance 0 .woken, .advance 0 .woken,
    .take, .serve, .serve, .complete 10, .serve, .serve,
    .advance 0 .woken, .advance 260 .woken,
    .advance 0 .woken, .advance 0 .woken]

theorem mailbox_correlation_lateThenTimely :
    ((entriesOf step (initial 0) lateThenTimely).map (fun e => e.out)).getLast? =
          some (.returned (some 10)) ∧
      ∀ front e rest decision, entriesOf step (initial 0) lateThenTimely =
          front ++ e :: rest →
        e.out = .returned (some decision) →
        ∃ event deadlineNs, Completed event deadlineNs decision front :=
  ⟨by decide,
    (mailbox_correlation 0 (Run.of_isSome (by decide))).1⟩

end Exchange

end Sledge.Native
