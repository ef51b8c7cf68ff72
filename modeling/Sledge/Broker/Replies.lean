import Sledge.Broker.Lifecycle
import Sledge.Broker.Output

/-
  Correlation of the client's replies with their requests.

  Every request carries a generation and a sequence that no
  other request of the service carries, whatever the client
  sends back.  A decision on a key is applied directly after
  its request was written and a frame was read that echoes
  it; any other frame fails the pump with the keys unchanged.

  Main results:
    * `Session.handle_advances`
    * `Session.handle_unanswered`
    * `Service.run_issued`
    * `Service.replies_correlated`
-/

-----
-- Requests And Replies

namespace Sledge.Broker

open Transition

open Linux (IoError)

def Record.wrote? : Record → Option Message
  | .wrote request => some request
  | _ => none

/- The requests a log writes. -/
def asked (log : List Record) : List Message := log.filterMap Record.wrote?

theorem asked_append (log rest : List Record) : asked (log ++ rest) = asked log ++ asked rest :=
  List.filterMap_append

variable {log : List Record}

theorem Played.asked (hPlayed : Played log) : asked log = [] := by
  apply List.filterMap_eq_nil_iff.mpr
  intro entry hMem
  have hOutput := hPlayed entry hMem
  cases entry <;> first | rfl | cases hOutput

theorem Played.applications (hPlayed : Played log) : applications log = [] := by
  apply List.filterMap_eq_nil_iff.mpr
  intro entry hMem
  have hOutput := hPlayed entry hMem
  cases entry <;> first | rfl | cases hOutput

/- The log ends with a request for the event and its echo. -/
def Echoed (log : List Record) (raw : RawEvent) (decision : Operation) : Prop :=
  ∃ front request frame reply, log = front ++ [.wrote request, .read frame] ∧
      request.operation = .event ∧ request.event = raw ∧
      Message.read frame = .ok reply ∧
      reply.operation = decision ∧
      reply.generation = request.generation ∧
      reply.epoch = request.epoch ∧
      reply.sequence = request.sequence ∧
      reply.event = request.event

/-
  Every decision on a key was echoed, unless events are being dropped and the decision has
  no effect.
-/
def Answered (log : List Record) : Prop :=
  ∀ front before raw decision rest, log = front ++ .applied before raw decision :: rest →
    raw.isKey = true →
    Echoed front raw decision ∨ (before.dropping = true ∧ before.apply raw decision = (before, []))

theorem Echoed.after {raw : RawEvent} {decision : Operation} (front : List Record)
    (hEchoed : Echoed log raw decision) : Echoed (front ++ log) raw decision := by
  rcases hEchoed with ⟨earlier, request, frame, reply, rfl, hRest⟩
  exact ⟨front ++ earlier, request, frame, reply, (List.append_assoc _ _ _).symm, hRest⟩

theorem answered_of_none (hNone : applications log = []) : Answered log := by
  rintro front before raw decision rest rfl _
  rw [applications_append] at hNone
  simp [applications, Record.applied?] at hNone

theorem Answered.append {more : List Record} (hLog : Answered log) (hMore : Answered more) :
    Answered (log ++ more) := by
  intro front before raw decision rest hSplit hKey
  rcases List.append_eq_append_iff.mp hSplit with ⟨tail, rfl, rfl⟩ | ⟨tail, rfl, hTail⟩
  · rcases hMore tail before raw decision rest rfl hKey with hEchoed | hDropping
    · exact .inl (hEchoed.after log)
    · exact .inr hDropping
  · rcases List.cons_eq_append_iff.mp hTail with ⟨rfl, hMoreEq⟩ | ⟨others, rfl, rfl⟩
    · rcases hMore [] before raw decision rest hMoreEq hKey with hEchoed | hDropping
      · exact .inl (by simpa using hEchoed.after front)
      · exact .inr hDropping
    · exact hLog front before raw decision others rfl hKey

theorem answered_single {talk : List Record} {before : KeyState} {raw : RawEvent}
    {decision : Operation} (hTalk : applications talk = [])
    (hEchoed : raw.isKey = true → Echoed talk raw decision ∨ (before.dropping = true ∧
            before.apply raw decision = (before, []))) :
    Answered (talk ++ [.applied before raw decision]) := by
  intro front before' raw' decision' rest hSplit hKey
  rcases List.eq_nil_or_concat rest with rfl | ⟨others, last, rfl⟩
  · rcases List.append_inj' hSplit rfl with ⟨rfl, hLast⟩
    cases hLast
    exact hEchoed hKey
  · have hConcat : talk ++ [.applied before raw decision] =
        (front ++ .applied before' raw' decision' :: others) ++ [last] := by
      rw [hSplit]
      simp
    rcases List.append_inj' hConcat rfl with ⟨rfl, _⟩
    simp [applications, Record.applied?] at hTalk

-----
-- Advancing Sessions

open Ordered

namespace Session

variable {C : Type} {socket : Socket C} {s s' t : Session C} {i : Incoming}

/-
  Requests are written under the generation of the proxy and under sequences it had not
  reached.
-/
structure Advances (s s' : Session C) : Prop where
  generation : s'.proxy.generation = s.proxy.generation
  sequence : s.proxy.sequence ≤ s'.proxy.sequence
  log : ∃ more, s'.log = s.log ++ more ∧ (∀ m ∈ asked more, m.generation = s.proxy.generation ∧
            s.proxy.sequence < m.sequence ∧
            m.sequence ≤ s'.proxy.sequence) ∧
        (asked more).Pairwise (fun m n => m.sequence < n.sequence) ∧
        Answered more

theorem advances_silent {more : List Record}
    (hGeneration : s'.proxy.generation = s.proxy.generation)
    (hSequence : s.proxy.sequence ≤ s'.proxy.sequence) (hLog : s'.log = s.log ++ more)
    (hAsked : asked more = []) (hAnswered : Answered more) : s.Advances s' := by
  refine ⟨hGeneration, hSequence, more, hLog, ?_, ?_, hAnswered⟩
  · simp [hAsked]
  · rw [hAsked]
    exact .nil

theorem Advances.refl (s : Session C) : s.Advances s :=
  advances_silent rfl (le_refl _) (List.append_nil _).symm rfl (answered_of_none rfl)

theorem advances_proxy (s : Session C) (proxy : DeviceProxy)
    (hGeneration : proxy.generation = s.proxy.generation)
    (hSequence : proxy.sequence = s.proxy.sequence) : s.Advances { s with proxy := proxy } :=
  advances_silent hGeneration (le_of_eq hSequence.symm)
    (List.append_nil _).symm rfl (answered_of_none rfl)

theorem Outputs.advances (hOutputs : s.Outputs s') : s.Advances s' := by
  rcases hOutputs.log with ⟨played, hLog, hPlayed⟩
  exact advances_silent hOutputs.generation (le_of_eq hOutputs.sequence.symm) hLog hPlayed.asked
    (answered_of_none hPlayed.applications)

theorem Advances.trans (hFirst : s.Advances t) (hSecond : t.Advances s') : s.Advances s' := by
  rcases hFirst with ⟨hGeneration, hSequence, first, hLog, hAsked, hOrdered, hAnswered⟩
  rcases hSecond with ⟨hGeneration', hSequence', second, hLog', hAsked', hOrdered', hAnswered'⟩
  refine ⟨hGeneration'.trans hGeneration, hSequence.trans hSequence', first ++ second, ?_, ?_, ?_,
    hAnswered.append hAnswered'⟩
  · rw [hLog', hLog, List.append_assoc]
  · rw [asked_append, List.forall_mem_append]
    constructor
    · intro m hMem
      rcases hAsked m hMem with ⟨hSame, hLow, hHigh⟩
      exact ⟨hSame, hLow, hHigh.trans hSequence'⟩
    · intro m hMem
      rcases hAsked' m hMem with ⟨hSame, hLow, hHigh⟩
      exact ⟨hSame.trans hGeneration, hSequence.trans_lt hLow, hHigh⟩
  · rw [asked_append, List.pairwise_append]
    refine ⟨hOrdered, hOrdered', ?_⟩
    intro m hMem n hMem'
    exact (hAsked m hMem).2.2.trans_lt (hAsked' n hMem').2.1

theorem ask_cases {request : Message} {result : Except IoError Message}
    (hAsk : s.ask socket request = (s', result)) :
    s'.proxy = s.proxy ∧ ((s'.log = s.log ++ [.wrote request] ∧ ∃ error, result = .error error) ∨
        ∃ frame, s'.log = s.log ++ [.wrote request, .read frame] ∧ result = Message.read frame) := by
  unfold ask at hAsk
  dsimp only at hAsk
  split at hAsk
  · cases hAsk
    exact ⟨rfl, .inl ⟨rfl, _, rfl⟩⟩
  · rename_i frame _
    cases hAsk
    exact ⟨rfl, .inr ⟨frame, by simp [record], rfl⟩⟩

theorem ask_advances {operation : Operation} {event : RawEvent} {result : Except IoError Message}
    (hNumbered : s.advanceSequence = some t)
    (hAsk : t.ask socket (t.proxy.message operation event) = (s', result)) : s.Advances s' := by
  rcases advanceSequence_some hNumbered with ⟨_, rfl⟩
  rcases ask_cases hAsk with ⟨hProxy, ⟨hLog, _⟩ | ⟨frame, hLog, _⟩⟩
  all_goals
    refine ⟨by rw [hProxy], by simp [hProxy], _, hLog, ?_, ?_, ?_⟩
    · simp [asked, Record.wrote?, DeviceProxy.message, hProxy]
    · exact List.pairwise_singleton _ _
    · exact answered_of_none rfl

variable {result : Except IoError Unit} {raw : RawEvent} {decision : Operation}

theorem control_advances {operation : Operation} {event : RawEvent}
    (hControl : s.control socket operation event = (s', result)) : s.Advances s' := by
  unfold control at hControl
  split at hControl
  · cases hControl
    exact .refl s
  rename_i numbered hNumbered
  dsimp only at hControl
  split at hControl
  · rename_i asked error hAsked
    cases hControl
    exact ask_advances hNumbered hAsked
  · rename_i asked reply hAsked
    split_ifs at hControl <;> cases hControl <;>
      exact ask_advances hNumbered hAsked

theorem snapshotKeys_advances {codes : List Nat}
    (hTold : snapshotKeys socket s codes = (s', result)) : s.Advances s' := by
  induction codes generalizing s with
  | nil =>
    cases hTold
    exact .refl _
  | cons code codes ih =>
    unfold snapshotKeys at hTold
    split at hTold
    · rename_i told error hFirst
      cases hTold
      exact control_advances hFirst
    · rename_i told hFirst
      exact (control_advances hFirst).trans (ih hTold)

theorem resynchronise_advances (hResync : s.resynchronise socket i = (s', result)) :
    s.Advances s' := by
  unfold resynchronise at hResync
  split at hResync
  · cases hResync
    exact .refl s
  rename_i keys _
  split at hResync
  · cases hResync
    exact .refl s
  rename_i aged hAged
  unfold advanceEpoch checkedAdd at hAged
  split_ifs at hAged
  swap
  · cases hAged
  cases hAged
  dsimp only at hResync
  have hAged := s.advances_proxy
      { s.proxy with epoch := s.proxy.epoch + 1, state := (s.proxy.state.resync keys).1 } rfl rfl
  split at hResync
  · rename_i reset error hReset
    cases hResync
    exact hAged.trans (control_advances hReset)
  rename_i reset hReset
  have hFirst := hAged.trans (control_advances hReset)
  split at hResync
  · rename_i told error hTold
    cases hResync
    exact hFirst.trans (snapshotKeys_advances hTold)
  rename_i told hTold
  have hSecond := hFirst.trans (snapshotKeys_advances hTold)
  split at hResync
  · rename_i played error hPlayed
    cases hResync
    exact hSecond.trans (emit_outputs hPlayed).advances
  · rename_i played hPlayed
    exact (hSecond.trans (emit_outputs hPlayed).advances).trans (emit_outputs hResync).advances

theorem decide_cases (hOk : s.decide socket raw = (s', .ok decision)) :
    (s' = s ∧ decision = .pass ∧ (raw.isKey = true → s.proxy.state.dropping = true)) ∨
      (s'.proxy = s.proxy ∧ ∃ frame, s'.log = s.log ++ [.wrote (s.proxy.message .event raw),
                  .read frame] ∧
            Echoed [.wrote (s.proxy.message .event raw), .read frame] raw decision) := by
  unfold decide at hOk
  split_ifs at hOk with hAsks
  · dsimp only at hOk
    split at hOk
    · cases hOk
    · rename_i asked reply hAsked
      have hAdmitted := congrArg Prod.snd hOk
      obtain rfl : asked = s' := congrArg Prod.fst hOk
      rcases admittedDecision_ok hAdmitted with ⟨hOperation, _, hAnswers, hEvent⟩
      rcases ask_cases hAsked with ⟨hProxy, ⟨_, error, hError⟩ | ⟨frame, hLog, hRead⟩⟩
      · cases hError
      · refine .inr ⟨hProxy, frame, hLog, ?_⟩
        simp only [Message.answers, Bool.and_eq_true, beq_iff_eq] at hAnswers
        exact ⟨[], _, frame, reply, rfl, rfl, rfl, hRead.symm,
          hOperation, hAnswers.1.1.2, hAnswers.1.2,
          hAnswers.2, hEvent⟩
  · cases hOk
    refine .inl ⟨rfl, rfl, ?_⟩
    intro hKey
    by_contra hOpen
    exact hAsks ⟨hKey, by simpa using hOpen⟩

/- A decision on a key comes from a frame. -/
theorem decide_ok_frame (hOk : s.decide socket raw = (s', .ok decision)) (hKey : raw.isKey = true)
    (hOpen : s.proxy.state.dropping = false) :
    ∃ frame reply, (socket s.peer (s.proxy.message .event raw).write).2 = .ok frame ∧
        Message.read frame = .ok reply ∧
        admittedDecision (s.proxy.message .event raw) reply = .ok decision := by
  unfold decide at hOk
  rw [if_pos ⟨hKey, hOpen⟩] at hOk
  dsimp only at hOk
  split at hOk
  · cases hOk
  rename_i asked reply hAsked
  have hAdmitted := congrArg Prod.snd hOk
  unfold ask at hAsked
  dsimp only at hAsked
  split at hAsked
  · cases hAsked
  · rename_i frame hFrame
    exact ⟨frame, reply, hFrame, congrArg Prod.snd hAsked, hAdmitted⟩

theorem decide_failed_advances {error : IoError} (hNumbered : s.advanceSequence = some t)
    (hFailed : t.decide socket raw = (s', .error error)) : s.Advances s' := by
  unfold decide at hFailed
  split_ifs at hFailed
  · dsimp only at hFailed
    split at hFailed
    · rename_i asked _ hAsked
      cases hFailed
      exact ask_advances hNumbered hAsked
    · rename_i asked reply hAsked
      obtain rfl : asked = s' := congrArg Prod.fst hFailed
      exact ask_advances hNumbered hAsked
  · cases hFailed

/- While events are dropped, a key event has no effect. -/
theorem apply_of_dropping {state : KeyState} (hKey : raw.isKey = true)
    (hDropping : state.dropping = true) : state.apply raw decision = (state, []) := by
  have hType : raw.eventType = 1 := by simpa [RawEvent.isKey] using hKey
  simp [KeyState.apply, RawEvent.isDropped, hType, hDropping]

theorem applied_advances {before : KeyState} {proxy : DeviceProxy}
    (hNumbered : s.advanceSequence = some t) (hDecided : t.decide socket raw = (s', .ok decision))
    (hGeneration : proxy.generation = s'.proxy.generation)
    (hSequence : proxy.sequence = s'.proxy.sequence)
    (hBefore : raw.isKey = true → before = s'.proxy.state) :
    s.Advances (record { s' with proxy := proxy } (.applied before raw decision)) := by
  rcases advanceSequence_some hNumbered with ⟨_, rfl⟩
  rcases decide_cases hDecided with ⟨rfl, _, hDropping⟩ | ⟨hProxy, frame, hLog, hEchoed⟩
  · have hAnswered : Answered ([] ++ [.applied before raw decision]) := by
      refine answered_single rfl ?_
      intro hKey
      obtain rfl := hBefore hKey
      exact .inr ⟨hDropping hKey, apply_of_dropping hKey (hDropping hKey)⟩
    exact advances_silent hGeneration ((Nat.le_succ _).trans (le_of_eq hSequence.symm)) rfl
      rfl hAnswered
  · have hAnswered : Answered (_ ++ [.applied before raw decision]) :=
      answered_single rfl (fun _ => .inl hEchoed)
    rw [hProxy] at hGeneration hSequence
    refine ⟨hGeneration, (Nat.le_succ _).trans (le_of_eq hSequence.symm), _, ?_, ?_, ?_, hAnswered⟩
    · simp [record, hLog]
    · simp [asked, Record.wrote?, DeviceProxy.message, record, hSequence]
    · exact List.pairwise_singleton _ _

theorem settle_advances (hSettle : s.settle socket i = (s', result)) : s.Advances s' := by
  unfold settle at hSettle
  split at hSettle
  · cases hSettle
    exact .refl s
  rename_i numbered hNumbered
  split at hSettle
  · rename_i decided error hFailed
    cases hSettle
    exact decide_failed_advances hNumbered hFailed
  rename_i decided decision hDecided
  have hRolled : decided.rollback i.raw =
      { decided with proxy := decided.proxy.rolledBack i.raw } := by
    unfold rollback DeviceProxy.rolledBack
    split_ifs <;> rfl
  have hKept (hKey : i.raw.isKey = true) : decided.proxy.rolledBack i.raw = decided.proxy := by
    have hType : i.raw.eventType = 1 := by simpa [RawEvent.isKey] using hKey
    simp [DeviceProxy.rolledBack, RawEvent.isDropped, hType]
  dsimp only at hSettle
  rw [hRolled] at hSettle
  let p := decided.proxy.rolledBack i.raw
  have hApplied : s.Advances (record
          { decided with
            proxy := { p with state := (p.state.apply i.raw decision).1 } }
          (.applied p.state i.raw decision)) := by
    refine applied_advances hNumbered hDecided ?_ ?_ ?_
    · simp only [p, DeviceProxy.rolledBack]
      split_ifs <;> rfl
    · simp only [p, DeviceProxy.rolledBack]
      split_ifs <;> rfl
    · intro hKey
      simp only [p, hKept hKey]
  exact hApplied.trans (emit_outputs hSettle).advances

theorem handle_advances (hHandle : s.handle socket i = (s', result)) : s.Advances s' := by
  unfold handle at hHandle
  split at hHandle
  · cases hHandle
    exact .refl s
  split_ifs at hHandle
  · exact resynchronise_advances hHandle
  · exact settle_advances hHandle

/-
  Without a frame that echoes the request and decides it, the event fails and leaves the
  keys as they were.
-/
theorem handle_unanswered (socket : Socket C) (s : Session C) (i : Incoming)
    (hVerified : i.verified = .ok ())
    (hKey : i.raw.isKey = true)
    (hOpen : s.proxy.state.dropping = false)
    (hUnanswered : ∀ frame reply decision,
        let request :=
          { s.proxy with sequence := s.proxy.sequence + 1 }.message .event i.raw
        (socket s.peer request.write).2 = .ok frame →
        Message.read frame = .ok reply →
        admittedDecision request reply ≠ .ok decision) :
    (∃ error, (s.handle socket i).2 = .error error) ∧
      (s.handle socket i).1.proxy.state = s.proxy.state ∧
      applications (s.handle socket i).1.log = applications s.log := by
  have hTurn : ¬ (s.proxy.state.dropping = true ∧ i.raw.isReport = true) := by simp [hOpen]
  simp only [handle, hVerified, if_neg hTurn, settle]
  cases hNumbered : s.advanceSequence with
  | none => exact ⟨⟨_, rfl⟩, rfl, rfl⟩
  | some t =>
    rcases advanceSequence_some hNumbered with ⟨_, rfl⟩
    dsimp only
    split
    · rename_i decided error hFailed
      have hConversed := decide_conversed hFailed
      rcases hConversed.log with ⟨talk, hLog, hTalk⟩
      refine ⟨⟨_, rfl⟩, ?_, ?_⟩
      · rw [hConversed.proxy]
      · rw [hLog, applications_append, hTalk.silent.2.1, List.append_nil]
    · rename_i decided decision hDecided
      rcases decide_ok_frame hDecided hKey hOpen with ⟨frame, reply, hFrame, hRead, hAdmitted⟩
      exact absurd hAdmitted (hUnanswered frame reply decision hFrame hRead)

end Session

-----
-- Requests Of A Service

/- The two requests carry different numbers. -/
def Distinct (m n : Message) : Prop := ¬ (m.generation = n.generation ∧ m.sequence = n.sequence)

namespace Service

variable {C : Type} {socket : Socket C} {P : DeviceProxy → Incoming → Prop} {w w' mid : Service C}
variable {s : Session C} {proxy : DeviceProxy}

/- The log before some of its requests can be repeated. -/
structure Logged (log : List Record) (generation : Nat) : Prop where
  unique : (asked log).Pairwise Distinct
  known : ∀ m ∈ asked log, m.generation ≤ generation
  answered : Answered log

/- The proxy has passed every request of its generation. -/
def Covers (proxy : DeviceProxy) (log : List Record) : Prop :=
  ∀ m ∈ asked log, m.generation = proxy.generation → m.sequence ≤ proxy.sequence

structure Issued (w : Service C) : Prop where
  logged : Logged w.log w.generation
  covered : ∀ held ∈ w.proxies, Covers held.2 w.log
  numbered : ∀ held ∈ w.proxies, held.2.generation ≤ w.generation
  distinct : (w.proxies.map (·.2.generation)).Nodup

variable {generation : Nat} {front back : List Held} {identity : DeviceIdentity}

theorem Logged.mono {generation' : Nat} (hLogged : Logged log generation)
    (hLe : generation ≤ generation') : Logged log generation' :=
  ⟨hLogged.unique, fun m hMem => (hLogged.known m hMem).trans hLe, hLogged.answered⟩

/- Cleanup writes no request. -/
theorem Logged.played {played : List Record} (hLogged : Logged log generation)
    (hPlayed : Played played) : Logged (log ++ played) generation := by
  have hAsked : asked (log ++ played) = asked log := by
    rw [asked_append, hPlayed.asked, List.append_nil]
  refine ⟨?_, ?_, ?_⟩
  · rw [hAsked]
    exact hLogged.unique
  · rw [hAsked]
    exact hLogged.known
  · exact hLogged.answered.append (answered_of_none hPlayed.applications)

theorem Logged.advance (hLogged : Logged w.log generation) (hCovers : Covers proxy w.log)
    (hGeneration : proxy.generation ≤ generation) (hAdvances : (w.session proxy).Advances s) :
    Logged s.log generation ∧ Covers s.proxy s.log := by
  rcases hAdvances with ⟨hSame, hSequence, more, hLog, hAsked, hOrdered, hAnswered⟩
  change s.log = w.log ++ more at hLog
  change s.proxy.generation = proxy.generation at hSame
  change proxy.sequence ≤ s.proxy.sequence at hSequence
  change ∀ m ∈ asked more, m.generation = proxy.generation ∧ proxy.sequence < m.sequence ∧
    m.sequence ≤ s.proxy.sequence at hAsked
  rw [hLog]
  refine ⟨⟨?_, ?_, hLogged.answered.append hAnswered⟩, ?_⟩
  · rw [asked_append, List.pairwise_append]
    refine ⟨hLogged.unique, hOrdered.imp ?_, ?_⟩
    · rintro m n hLess ⟨_, hEqual⟩
      omega
    · rintro m hMem n hMem' ⟨hEqual, hNumber⟩
      rcases hAsked n hMem' with ⟨hOwn, hLater, _⟩
      have hEarlier := hCovers m hMem (hEqual.trans hOwn)
      omega
  · rw [asked_append, List.forall_mem_append]
    refine ⟨hLogged.known, ?_⟩
    intro m hMem
    rw [(hAsked m hMem).1]
    exact hGeneration
  · unfold Covers
    rw [asked_append, List.forall_mem_append]
    constructor
    · intro m hMem hOwn
      exact (hCovers m hMem (hOwn.trans hSame)).trans hSequence
    · intro m hMem _
      exact (hAsked m hMem).2.2

theorem Covers.other {other : DeviceProxy} (hCovers : Covers other w.log)
    (hOther : other.generation ≠ proxy.generation) (hAdvances : (w.session proxy).Advances s) :
    Covers other s.log := by
  rcases hAdvances.log with ⟨more, hLog, hAsked, _⟩
  change s.log = w.log ++ more at hLog
  unfold Covers
  rw [hLog, asked_append, List.forall_mem_append]
  refine ⟨hCovers, ?_⟩
  intro m hMem hOwn
  have hSame : m.generation = proxy.generation := (hAsked m hMem).1
  exact absurd (hOwn.symm.trans hSame) hOther

/- A new proxy covers, since nothing has its generation. -/
theorem Logged.covers_new (hLogged : Logged log generation) :
    Covers (activeProxy (generation + 1)) log := by
  intro m hMem hOwn
  have hKnown := hLogged.known m hMem
  have hNew : m.generation = generation + 1 := hOwn
  omega

theorem retire_advances {cleanup : Except IoError Unit} {result : Except IoError Unit}
    (hTold : ((w.session proxy).bypass cleanup).retireClient socket = (s, result)) :
    (w.session proxy).Advances s :=
  ((Session.bypass_outputs _ cleanup).advances).trans (Session.control_advances hTold)

theorem Issued.held (hIssued : w.Issued) (hProxies : w.proxies = front ++ (identity, proxy) :: back) :
    Covers proxy w.log ∧ proxy.generation ≤ w.generation ∧ ∀ held ∈ front ++ back,
        held ∈ w.proxies ∧ held.2.generation ≠ proxy.generation := by
  have hMem : (identity, proxy) ∈ w.proxies := by simp [hProxies]
  refine ⟨hIssued.covered _ hMem, hIssued.numbered _ hMem, ?_⟩
  intro held hHeld
  have hDistinct := hIssued.distinct
  rw [hProxies, List.map_append, List.map_cons, List.nodup_middle, ← List.map_append,
    List.nodup_cons] at hDistinct
  constructor
  · rw [hProxies]
    simp only [List.mem_append, List.mem_cons] at hHeld ⊢
    tauto
  · intro hSame
    exact hDistinct.1 (List.mem_map.mpr ⟨held, hHeld, hSame⟩)

theorem issued_around (hProxies : w.proxies = front ++ (identity, proxy) :: back)
    (hLogged : Logged w.log w.generation) (hCovers : Covers proxy w.log)
    (hGeneration : proxy.generation ≤ w.generation)
    (hOthers : ∀ held ∈ front ++ back, Covers held.2 w.log ∧ held.2.generation ≤ w.generation ∧
          held.2.generation ≠ proxy.generation)
    (hDistinct : ((front ++ back).map (·.2.generation)).Nodup) : w.Issued := by
  have hMiddle (held : Held) (hHeld : held ∈ w.proxies) :
      held = (identity, proxy) ∨ held ∈ front ++ back := by
    rw [hProxies] at hHeld
    simpa using List.perm_middle.mem_iff.mp hHeld
  refine ⟨hLogged, ?_, ?_, ?_⟩
  · intro held hHeld
    rcases hMiddle held hHeld with rfl | hOther
    · exact hCovers
    · exact (hOthers held hOther).1
  · intro held hHeld
    rcases hMiddle held hHeld with rfl | hOther
    · exact hGeneration
    · exact (hOthers held hOther).2.1
  · rw [hProxies, List.map_append, List.map_cons,
      List.nodup_middle, ← List.map_append, List.nodup_cons]
    refine ⟨?_, hDistinct⟩
    intro hMem
    rcases List.mem_map.mp hMem with ⟨held, hHeld, hSame⟩
    exact (hOthers held hHeld).2.2 hSame

theorem Issued.others_distinct (hIssued : w.Issued)
    (hProxies : w.proxies = front ++ (identity, proxy) :: back) :
    ((front ++ back).map (·.2.generation)).Nodup := by
  have hDistinct := hIssued.distinct
  rw [hProxies] at hDistinct
  refine hDistinct.sublist (.map _ ?_)
  exact .append_left (List.sublist_cons_self _ _) _

theorem Move.issued (hMove : Move socket P w w') (hIssued : w.Issued) : w'.Issued := by
  cases hMove with
  | retire front back identity proxy cleanup s hProxies hTold =>
    rcases hIssued.held hProxies with ⟨hCovers, hGeneration, hOthers⟩
    have hAdvances := (retire_advances hTold).trans (Session.bypass_outputs s cleanup).advances
    refine ⟨?_, ?_, ?_, hIssued.others_distinct hProxies⟩
    · exact (hIssued.logged.advance hCovers hGeneration hAdvances).1
    · intro held hHeld
      rcases hOthers held hHeld with ⟨hMem, hOther⟩
      exact (hIssued.covered held hMem).other hOther hAdvances
    · intro held hHeld
      exact hIssued.numbered held (hOthers held hHeld).1
  | announce front back identity s hProxies _ _ _ hTold =>
    have hAdvances := Session.control_advances hTold
    have hNumber : s.proxy.generation = w.generation + 1 := hAdvances.generation
    have hLogged := hIssued.logged.mono (Nat.le_succ w.generation)
    rcases hLogged.advance hIssued.logged.covers_new (le_refl _) hAdvances with ⟨hAfter, hCovers⟩
    have hDistinct := hIssued.distinct
    rw [hProxies] at hDistinct
    refine issued_around rfl hAfter hCovers (le_of_eq hNumber) ?_ hDistinct
    intro held hHeld
    have hMem : held ∈ w.proxies := hProxies ▸ hHeld
    have hOlder := hIssued.numbered held hMem
    have hOther : held.2.generation ≠ (activeProxy (w.generation + 1)).generation :=
      Nat.ne_of_lt (Nat.lt_succ_of_le hOlder)
    refine ⟨(hIssued.covered held hMem).other hOther hAdvances, hOlder.trans (Nat.le_succ _), ?_⟩
    rw [hNumber]
    exact hOther
  | handle front back identity proxy i s hProxies _ hHandled =>
    rcases hIssued.held hProxies with ⟨hCovers, hGeneration, hOthers⟩
    have hAdvances := Session.handle_advances hHandled
    have hSame : s.proxy.generation = proxy.generation := hAdvances.generation
    rcases hIssued.logged.advance hCovers hGeneration hAdvances with ⟨hAfter, hCovers'⟩
    refine issued_around rfl hAfter hCovers' (hSame.trans_le hGeneration) ?_
      (hIssued.others_distinct hProxies)
    intro held hHeld
    rcases hOthers held hHeld with ⟨hMem, hOther⟩
    refine ⟨(hIssued.covered held hMem).other hOther hAdvances, hIssued.numbered held hMem, ?_⟩
    rw [hSame]
    exact hOther

/- The failing call repeats no request either. -/
theorem Fails.logged (hFails : Fails socket P w w') (hIssued : w.Issued) :
    Logged w'.log w'.generation := by
  cases hFails with
  | quiet => exact hIssued.logged
  | retire front back identity proxy cleanup s error hProxies hTold =>
      rcases hIssued.held hProxies with ⟨hCovers, hGeneration, _⟩
      exact (hIssued.logged.advance hCovers hGeneration (retire_advances hTold)).1
  | announce s error _ _ hTold =>
    have hLogged := hIssued.logged.mono (Nat.le_succ w.generation)
    exact (hLogged.advance hIssued.logged.covers_new (le_refl _) (Session.control_advances hTold)).1
  | handle front back identity proxy i s error hProxies _ hHandled =>
      rcases hIssued.held hProxies with ⟨hCovers, hGeneration, _⟩
      exact (hIssued.logged.advance hCovers hGeneration (Session.handle_advances hHandled)).1

theorem Path.issued (hPath : Path socket P w w') (hIssued : w.Issued) : w'.Issued := by
  induction hPath with
  | refl => exact hIssued
  | tail _ hMove ih => exact hMove.issued ih

theorem step_issued {r : Round} {result : Except IoError Unit} (hPaths : w.Paths)
    (hIssued : w.Issued) (hStep : step socket w r = some (w', result)) : w'.Paths ∧ w'.Issued := by
  have hMeets : r.Meets (fun _ _ => True) := fun _ _ _ _ _ _ => trivial
  rcases step_ends hPaths hMeets hStep with ⟨hEnds, hCleared⟩
  rcases result with error | _
  · have hNone := hCleared error rfl
    rcases hEnds with ⟨before, failed, hPath, hFails, hCleans⟩
    have hLogged := hFails.logged (hPath.issued hIssued)
    rcases hCleans.log with ⟨played, hLog, hPlayed⟩
    constructor
    · unfold Paths
      rw [hNone]
      exact List.nodup_nil
    · refine ⟨?_, ?_, ?_, ?_⟩
      · rw [hLog]
        exact (hLogged.played hPlayed).mono hCleans.generation
      all_goals
        rw [hNone]
        simp
  · exact ⟨hEnds.paths hPaths, hEnds.issued hIssued⟩

theorem start_issued (peer : C) : (start peer).Paths ∧ (start peer).Issued :=
  ⟨List.nodup_nil,
    ⟨List.Pairwise.nil, by simp [start, asked],
      answered_of_none rfl⟩,
    by simp [start], by simp [start], List.nodup_nil⟩

abbrev Entry (C : Type) := Transition.Entry (Service C) Round (Except IoError Unit)

theorem run_issued {peer : C} {trace : List (Entry C)} {last : Service C}
    (hRun : Run (step socket) (start peer) trace last) : last.Paths ∧ last.Issued :=
  Run.invariant (P := fun w => w.Paths ∧ w.Issued) (start_issued peer)
    (fun _ _ _ _ hValid hStep =>
      step_issued hValid.1 hValid.2 hStep)
    hRun

/-
  No two requests of a service carry the same generation and sequence, a decision on a key
  comes from a frame that echoes the request before it, and an event without such a frame
  fails before the keys change.
-/
theorem replies_correlated {peer : C} {trace : List (Entry C)} {last : Service C}
    (hRun : Run (step socket) (start peer) trace last) :
    (asked last.log).Pairwise Distinct ∧
    Answered last.log ∧
    (∀ (s : Session C) (i : Incoming), i.verified = .ok () → i.raw.isKey = true →
      s.proxy.state.dropping = false →
      (∀ frame reply decision,
        let request :=
          { s.proxy with sequence := s.proxy.sequence + 1 }.message .event i.raw
        (socket s.peer request.write).2 = .ok frame →
        Message.read frame = .ok reply →
        admittedDecision request reply ≠ .ok decision) →
      (∃ error, (s.handle socket i).2 = .error error) ∧
        (s.handle socket i).1.proxy.state = s.proxy.state ∧
        applications (s.handle socket i).1.log = applications s.log) := by
  have hIssued := (run_issued hRun).2
  exact ⟨hIssued.logged.unique, hIssued.logged.answered,
    fun s i => Session.handle_unanswered socket s i⟩

/- A keyboard of the first seat. -/
def keyboard : DeviceIdentity where
  path := "/dev/input/event3"
  device := 5
  inode := 77
  rdev := 835
  seat := "seat0"

/- A round in which one keyboard is found and has events. -/
def plainRound (events : List Incoming) : Round where
  peer := .ok ⟨1000, 42⟩
  proof := .ok ⟨⟨1000, 42⟩, "seat0", "2", true, some true, true⟩
  found := .ok [keyboard]
  admission := fun identity =>
    { opened := .ok (identity.device, identity.inode, identity.rdev)
      authorized := .ok ()
      activated := .ok () }
  ready := fun _ => .ok ()
  fetched := fun _ => .ok events
  cleanup := .ok ()

/- The keyboard is admitted, and a press of it is decided. -/
theorem replies_correlated_plainRound :
    let last :=
      lastOf (step scripted) (start [.swallow]) [plainRound [.plain (key 30 1) ∅]]
    asked last.log = [⟨.deviceReset, 1, 1, 1, .default⟩, ⟨.event, 1, 1, 2, key 30 1⟩] ∧
      (asked last.log).Pairwise Distinct := by
  have hEvaluated :
      let rounds := [plainRound [.plain (key 30 1) ∅]]
      (exec (step scripted) (start [.swallow]) rounds).isSome = true ∧ asked
            (lastOf (step scripted) (start [.swallow]) rounds).log =
          [⟨.deviceReset, 1, 1, 1, .default⟩, ⟨.event, 1, 1, 2, key 30 1⟩] := by
    decide +kernel
  exact ⟨hEvaluated.2, (replies_correlated (.of_isSome hEvaluated.1)).1⟩

end Service

end Sledge.Broker
