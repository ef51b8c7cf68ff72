import Sledge.Native.Emission

/-
  Transactions on the stream to the daemon.

  The daemon reads the packet after an Event and its decision
  as the outcome of that Event.  So on each connection an
  Event and its outcome have to be neighbours.  They are, as
  long as nothing is announced and no connection is made
  while stock code works on an exported key, the worker
  transmits the Event and takes the outcome, and the outcome
  is not dropped.

  Main results:
    * `Stream.framing`
    * `Stream.focus_splits_transaction`
-/

-----
-- Frames

namespace Sledge.Native.Stream

open Transition Linux

/- The packets sent with the nonce of one connection. -/
def sentOn (nonce : Nat) (trace : List Entry) : List Packet :=
  (trace.flatMap (fun e => e.out.filterMap Record.sent?)).filter
    (fun packet => packet.scope.nonce == nonce)

/-
  Every Event is followed by its outcome, and every outcome is preceded by its Event.  The
  last Event may be waiting.
-/
structure Framed (waiting : Bool) (packets : List Packet) : Prop where
  followed : ∀ front packet rest, packets = front ++ packet :: rest → packet.body.isEvent = true →
      (rest = [] ∧ waiting = true) ∨ ∃ outcome tail, rest = ⟨packet.scope, .outcome outcome⟩ :: tail
  preceded : ∀ front packet rest, packets = front ++ packet :: rest → packet.body.isOutcome = true →
      ∃ before event, front = before ++ [event] ∧ event.body.isEvent = true ∧
          event.scope = packet.scope

/- The same, read packet by packet. -/
inductive Frames : Option Linux.Scope → List Linux.Packet → Prop where
  | nil : Frames none []
  | control {packets : List Linux.Packet} {packet : Linux.Packet} (hFrames : Frames none packets)
      (hControl : packet.body.isControl = true) :
      Frames none (packets ++ [packet])
  | event {packets : List Linux.Packet} {packet : Linux.Packet} (hFrames : Frames none packets)
      (hEvent : packet.body.isEvent = true) :
      Frames (some packet.scope) (packets ++ [packet])
  | outcome {packets : List Linux.Packet} {scope : Linux.Scope}
      (hFrames : Frames (some scope) packets)
      (outcome : Linux.Outcome) :
      Frames none (packets ++ [⟨scope, .outcome outcome⟩])

namespace Frames

variable {open_ : Option Scope} {packets controls : List Packet}

theorem append_controls (hFrames : Frames none packets)
    (hControls : ∀ packet ∈ controls, packet.body.isControl = true) :
    Frames none (packets ++ controls) := by
  induction controls using List.reverseRecOn with
  | nil =>
    rw [List.append_nil]
    exact hFrames
  | append_singleton front last ih =>
    rw [List.forall_mem_append, List.forall_mem_singleton] at hControls
    rw [← List.append_assoc]
    exact .control (ih hControls.1) hControls.2

/- An open frame ends with its Event. -/
theorem ends_with_event {scope : Scope} (hFrames : Frames (some scope) packets) :
    ∃ before event, packets = before ++ [event] ∧ event.body.isEvent = true ∧ event.scope = scope := by
  cases hFrames with
  | event _ hEvent => exact ⟨_, _, rfl, hEvent, rfl⟩

variable {packet : Packet} {front rest : List Packet}

/- Where one more packet leaves a split of the list. -/
theorem snoc_split {last : Packet} (hSplit : packets ++ [last] = front ++ packet :: rest) :
    (rest = [] ∧ packet = last ∧ front = packets) ∨ ∃ tail, rest = tail ++ [last] ∧
          packets = front ++ packet :: tail := by
  induction rest using List.reverseRecOn with
  | nil =>
    rcases List.append_inj' hSplit rfl with ⟨rfl, hLast⟩
    exact .inl ⟨rfl, (List.singleton_inj.mp hLast).symm, rfl⟩
  | append_singleton tail end_ _ =>
    rw [← List.cons_append, ← List.append_assoc] at hSplit
    rcases List.append_inj' hSplit rfl with ⟨hFront, hLast⟩
    obtain rfl := List.singleton_inj.mp hLast
    exact .inr ⟨tail, rfl, hFront⟩

theorem followed (hFrames : Frames open_ packets) (hSplit : packets = front ++ packet :: rest)
    (hEvent : packet.body.isEvent = true) :
    (rest = [] ∧ open_ = some packet.scope) ∨ ∃ outcome tail,
        rest = ⟨packet.scope, .outcome outcome⟩ :: tail := by
  induction hFrames generalizing rest with
  | nil => simp at hSplit
  | control _ hControl ih =>
    rcases snoc_split hSplit with ⟨_, rfl, _⟩ | ⟨tail, rfl, hFront⟩
    · cases hBody : packet.body <;>
        simp [hBody, Body.isControl, Body.isEvent] at hControl hEvent
    · rcases ih hFront with ⟨_, hNone⟩ | ⟨outcome, tail', rfl⟩
      · cases hNone
      · exact .inr ⟨outcome, _, rfl⟩
  | event _ _ ih =>
    rcases snoc_split hSplit with ⟨rfl, rfl, _⟩ | ⟨tail, rfl, hFront⟩
    · exact .inl ⟨rfl, rfl⟩
    · rcases ih hFront with ⟨_, hNone⟩ | ⟨outcome, tail', rfl⟩
      · cases hNone
      · exact .inr ⟨outcome, _, rfl⟩
  | outcome _ outcome ih =>
    rcases snoc_split hSplit with ⟨_, rfl, _⟩ | ⟨tail, rfl, hFront⟩
    · cases hEvent
    · rcases ih hFront with ⟨rfl, hScope⟩ | ⟨outcome', tail', rfl⟩
      · cases hScope
        exact .inr ⟨outcome, [], rfl⟩
      · exact .inr ⟨outcome', _, rfl⟩

theorem preceded (hFrames : Frames open_ packets) (hSplit : packets = front ++ packet :: rest)
    (hOutcome : packet.body.isOutcome = true) :
    ∃ before event, front = before ++ [event] ∧ event.body.isEvent = true ∧
        event.scope = packet.scope := by
  induction hFrames generalizing rest with
  | nil => simp at hSplit
  | control _ hControl ih =>
    rcases snoc_split hSplit with ⟨_, rfl, _⟩ | ⟨tail, _, hFront⟩
    · cases hBody : packet.body <;>
        simp [hBody, Body.isControl, Body.isOutcome] at hControl hOutcome
    · exact ih hFront
  | event _ hEvent ih =>
    rcases snoc_split hSplit with ⟨_, rfl, _⟩ | ⟨tail, _, hFront⟩
    · cases hBody : packet.body <;>
        simp [hBody, Body.isEvent, Body.isOutcome] at hEvent hOutcome
    · exact ih hFront
  | outcome hFrames _ ih =>
    rcases snoc_split hSplit with ⟨_, rfl, rfl⟩ | ⟨tail, _, hFront⟩
    · exact hFrames.ends_with_event
    · exact ih hFront

end Frames

-----
-- Undisturbed Steps

/- Stock code is working on a key the daemon was told of. -/
def exporting (s : Stream) : Bool := s.current.any (fun k => k.ticket.isSome)

/- A piece that may issue a lifecycle control. -/
def announces (s : Stream) : Op → Bool
  | .syncUnlock locked _ => (s.phase.observe locked).2
  | .revoke _ _ => true
  | .retire identity _ _ => (s.physical.generation? identity).isSome
  | .beginLifecycle _ => s.initialReconciled
  | .focus _ => true
  | _ => false

/- What a step must meet to keep a transaction in one piece. -/
def undisturbed (s : Stream) : Op → Bool
  | .openKey input => !s.exports input || input.transmitted
  | .closeKey _ _ room =>
    s.current.all (fun k =>
      k.ticket.isNone || (!s.dropsOutcome k && s.eventPacket.any (s.notifies room)))
  | .connect _ _ => !s.exporting
  -- A draining adapter announces nothing.
  | op => !s.exporting || s.drain.active || !s.announces op

variable {s s' : Stream} {op : Op} {log : List Record}

theorem undisturbed_close {now : Nat} {output : Output} {room : Bool} {k : Transaction}
    (hUndisturbed : s.undisturbed (.closeKey now output room) = true)
    (hCurrent : s.current = some k) (hTicket : k.ticket.isSome = true) :
    s.dropsOutcome k = false ∧ ∃ p, s.eventPacket = some p ∧ s.notifies room p = true := by
  simp only [undisturbed, hCurrent, Option.all_some, Bool.or_eq_true, Bool.and_eq_true,
    Bool.not_eq_true'] at hUndisturbed
  rcases hUndisturbed with hNone | ⟨hKept, hTaken⟩
  · rw [Option.isNone_iff_eq_none] at hNone
    simp [hNone] at hTicket
  · refine ⟨hKept, ?_⟩
    cases hPacket : s.eventPacket with
    | none => simp [hPacket] at hTaken
    | some p => exact ⟨p, rfl, by simpa [hPacket] using hTaken⟩

theorem call_silent {call : Router.Call} (hCall : s.call call = (s', log)) :
    log.filterMap Record.sent? = [] := by
  unfold Stream.call at hCall
  cases hCall
  split <;> rfl

theorem ensureConnectionBinding_silent {ok : Bool}
    (hEnsure : s.ensureConnectionBinding = (s', ok, log)) : log.filterMap Record.sent? = [] := by
  unfold ensureConnectionBinding at hEnsure
  by_cases hDrain : s.drain.active = true
  · rw [if_pos hDrain] at hEnsure
    cases hEnsure
    rfl
  rw [if_neg hDrain] at hEnsure
  by_cases hReady : s.connection.ready = true
  · rw [if_neg (not_not_intro hReady)] at hEnsure
    split at hEnsure
    · rcases hCall : s.bindConnection.call .disconnect with ⟨t, front⟩
      rw [hCall] at hEnsure
      cases hEnsure
      exact call_silent hCall
    · cases hEnsure
      rfl
  · rw [if_pos hReady] at hEnsure
    split at hEnsure
    rename_i t front hCall
    cases hEnsure
    split at hCall
    · exact call_silent hCall
    · cases hCall
      rfl

theorem draining_silent (hPerform : s.perform op = some (s', log))
    (hDrain : s.drain.active = true) (hAnnounces : s.announces op = true) :
    log.filterMap Record.sent? = [] := by
  cases op with
  | retire identity output at_ =>
    rcases Option.isSome_iff_exists.mp hAnnounces with ⟨generation, hGeneration⟩
    simp only [perform, retire, hGeneration, lifecycle, call, hDrain, true_or, if_true,
      List.append_nil] at hPerform
    cases hPerform
    split <;> rfl
  | syncUnlock | revoke | beginLifecycle | focus =>
    simp_all only [perform, announces, syncUnlock, revoke, beginLifecycle, focus, lifecycle, call,
      true_or, if_true, List.append_nil]
    cases hPerform
    split <;> rfl
  | _ => cases hAnnounces

/- Between the packets of a key nothing else is sent. -/
theorem step_silent (hStep : s.step op = some (s', log)) (hExporting : s.exporting = true)
    (hUndisturbed : s.drain.active = true ∨ s.announces op = false) (hOp : op.keyed = false) :
    log.filterMap Record.sent? = [] := by
  unfold step at hStep
  split_ifs at hStep
  by_cases hAnnounces : s.announces op = true
  · exact draining_silent hStep (hUndisturbed.resolve_right (by simp [hAnnounces])) hAnnounces
  have hQuiet : s.announces op = false := by simpa using hAnnounces
  cases op with
  | openKey | keybind | consumerRoute | closeKey => cases hOp
  | revoke | focus => cases hQuiet
  | connect generation nonce =>
    simp only [perform] at hStep
    split_ifs at hStep
    cases hStep
    rfl
  | attach identity verifiedEvdev virtualDevice translation =>
    cases hStep
    rfl
  | ensureConnectionBinding =>
    rcases hEnsure : s.ensureConnectionBinding with ⟨t, ok, front⟩
    simp only [perform, hEnsure] at hStep
    cases hStep
    exact ensureConnectionBinding_silent hEnsure
  | syncUnlock locked at_ =>
    have hLocked : (s.phase.observe locked).2 = false := hQuiet
    simp only [perform, syncUnlock, hLocked] at hStep
    cases hStep
    rfl
  | retire identity output at_ =>
    have hNone : s.physical.generation? identity = none := by simpa [announces] using hQuiet
    simp only [perform, retire, hNone] at hStep
    cases hStep
    rfl
  | beginLifecycle at_ =>
    have hProven : s.initialReconciled = false := hQuiet
    rcases hCall : { s with initialReconciled := false }.call .focusChanged with ⟨t, front⟩
    simp only [perform, beginLifecycle, hCall, hProven] at hStep
    cases hStep
    exact call_silent hCall
  | reconcileInitial proof at_ =>
    have hProof : s.quiescenceProof proof = false := by
      cases hCurrent : s.current with
      | none => simp [exporting, hCurrent] at hExporting
      | some k => simp [quiescenceProof, hCurrent]
    simp only [perform, reconcileInitial, hProof] at hStep
    rw [if_pos (by simp)] at hStep
    cases hStep
    rfl
  | tryOutputRecovery eligible =>
    simp only [perform, tryOutputRecovery] at hStep
    split_ifs at hStep
    · cases hStep
      rfl
    all_goals
      rcases hCall : s.call (.recoverRetiredOutput true) with ⟨t, front⟩
      simp only [hCall] at hStep
      cases hStep
      exact call_silent hCall
  | registerExisting =>
    simp only [perform] at hStep
    split_ifs at hStep
    exact call_silent (Option.some.inj hStep)
  | requestDrain =>
    simp only [perform, requestDrain] at hStep
    split_ifs at hStep
    · cases hStep
      rfl
    · exact call_silent (Option.some.inj hStep)
  | _ =>
    cases hStep
    rfl

-----
-- Runs

/- The Event on a connection that waits for its outcome. -/
def awaited (s : Stream) (nonce : Nat) : Option Scope :=
  if s.exporting ∧ s.connection.nonce = nonce then
    (s.eventPacket.filter (fun packet => packet.scope.nonce == nonce)).map Packet.scope
  else none

/- The kept packet is an Event. -/
def KeepsEvent (s : Stream) : Prop :=
  ∀ packet, s.eventPacket = some packet → packet.body.isEvent = true

/- The packets of one connection in one step. -/
def sentBy (nonce : Nat) (log : List Record) : List Packet :=
  (log.filterMap Record.sent?).filter (fun packet => packet.scope.nonce == nonce)

variable {t : Stream} {nonce : Nat} {packets : List Packet}

theorem sentOn_snoc (nonce : Nat) (trace : List Entry) (entry : Entry) :
    sentOn nonce (trace ++ [entry]) = sentOn nonce trace ++ sentBy nonce entry.out := by
  simp [sentOn, sentBy]

theorem awaited_of_not_exporting (hExporting : s.exporting = false) (nonce : Nat) :
    s.awaited nonce = none := by
  simp [awaited, hExporting]

/- What decides which Event is awaited. -/
theorem awaited_congr (hExporting : s'.exporting = s.exporting)
    (hNonce : s'.connection.nonce = s.connection.nonce) (hEvent : s'.eventPacket = s.eventPacket)
    (nonce : Nat) : s'.awaited nonce = s.awaited nonce := by
  unfold awaited
  rw [hExporting, hNonce, hEvent]

theorem exporting_congr
    (hTicket : s'.current.map Transaction.ticket = s.current.map Transaction.ticket) :
    s'.exporting = s.exporting := by
  unfold exporting
  cases hNew : s'.current <;> cases hOld : s.current <;>
    simp_all

/- What is sent with moves keeps a closed frame closed. -/
theorem Moves.frames {tame : Bool} (hMoves : s.Moves tame log t) (hFrames : Frames none packets) (nonce : Nat) :
    Frames none (packets ++ sentBy nonce log) := by
  apply hFrames.append_controls
  intro packet hMem
  exact hMoves.sent (List.mem_of_mem_filter hMem)

/- Pieces that carry no key leave the transaction alone. -/
theorem Stepped.keeps_transaction (hStepped : s.Stepped op log s') (hOp : op.keyed = false) :
    s'.current.map Transaction.ticket = s.current.map Transaction.ticket ∧
      s'.eventPacket = s.eventPacket := by
  cases hStepped with
  | connected | joined => exact ⟨rfl, rfl⟩
  | moved _ hPosts => exact ⟨congrArg _ hPosts.moves.kept.current, hPosts.moves.kept.event⟩
  | left _ _ _ _ hMoves | retired _ _ _ _ _ hMoves =>
    exact ⟨congrArg _ hMoves.kept.current, hMoves.kept.event⟩
  | passed | exported | settled | reported => cases hOp
  | correlated _ _ _ hTicket => exact ⟨hTicket, rfl⟩

/- Only a new connection changes the nonce. -/
theorem Stepped.keeps_nonce (hStepped : s.Stepped op log s')
    (hOp : ∀ generation nonce, op ≠ .connect generation nonce) :
    s'.connection.nonce = s.connection.nonce := by
  cases hStepped with
  | connected => exact absurd rfl (hOp _ _)
  | moved _ hPosts => exact hPosts.moves.kept.nonce
  | left _ _ _ _ hMoves | retired _ _ _ _ _ hMoves | passed _ _ _ _ hMoves
  | exported _ _ _ _ _ _ _ _ _ hMoves | settled _ _ hMoves | reported _ _ _ _ _ hMoves =>
    exact hMoves.kept.nonce
  | joined | correlated => rfl

theorem sentBy_append (nonce : Nat) (front rest : List Record) :
    sentBy nonce (front ++ rest) = sentBy nonce front ++ sentBy nonce rest := by
  simp [sentBy]

theorem sentBy_of_silent (hSilent : log.filterMap Record.sent? = []) (nonce : Nat) :
    sentBy nonce log = [] := by
  rw [sentBy, hSilent]
  rfl

theorem quiet_of_undisturbed (hUndisturbed : s.undisturbed op = true)
    (hExporting : s.exporting = true) (hOp : op.keyed = false) :
    (∀ generation nonce, op ≠ .connect generation nonce) ∧
      (s.drain.active = true ∨ s.announces op = false) := by
  cases op with
  | openKey | closeKey | keybind | consumerRoute => cases hOp
  | connect => simp [undisturbed, hExporting] at hUndisturbed
  | _ =>
    refine ⟨by simp, ?_⟩
    simpa [undisturbed, hExporting] using hUndisturbed

theorem exporting_iff : s.exporting = true ↔ ∃ k, s.current = some k ∧ k.ticket.isSome = true := by
  unfold exporting
  cases s.current <;> simp

theorem awaited_eq_some {packet : Packet} (hExporting : s.exporting = true)
    (hPacket : s.eventPacket = some packet) (hPeer : packet.scope.nonce = s.connection.nonce)
    (hNonce : packet.scope.nonce = nonce) : s.awaited nonce = some packet.scope := by
  simp [awaited, hExporting, hPacket, ← hPeer, hNonce]

theorem awaited_eq_none
    (hOther : ∀ packet, s.eventPacket = some packet → packet.scope.nonce = s.connection.nonce →
        packet.scope.nonce ≠ nonce) : s.awaited nonce = none := by
  unfold awaited
  split
  · rename_i hAwaits
    cases hPacket : s.eventPacket with
    | none => rfl
    | some packet =>
      rw [Option.filter_some, if_neg, Option.map_none]
      intro hNonce
      rw [beq_iff_eq] at hNonce
      exact hOther packet hPacket (hNonce.trans hAwaits.2.symm) hNonce
  · rfl

/- The packet of a number that was used, on a connection. -/
theorem sentBy_stamped (nonce : Nat) (sent : Option Packet) :
    sentBy nonce [.stamped sent] = (sent.filter (fun packet =>
          packet.scope.nonce == nonce)).toList := by
  cases sent with
  | none => rfl
  | some packet =>
    cases hNonce : packet.scope.nonce == nonce <;>
      simp [sentBy, Record.sent?, hNonce, Option.filter]

/- A step while stock code works on an exported key. -/
theorem frames_exporting (hStep : s.step op = some (s', log))
    (hUndisturbed : s.undisturbed op = true) (hExporting : s.exporting = true)
    (hEvent : s.KeepsEvent) (hFrames : Frames (s.awaited nonce) packets) :
    s'.KeepsEvent ∧ Frames (s'.awaited nonce) (packets ++ sentBy nonce log) := by
  have hStepped := step_stepped hStep
  rcases exporting_iff.mp hExporting with ⟨k, hCurrent, hTicket⟩
  cases hOp : op.keyed with
  | false =>
    rcases quiet_of_undisturbed hUndisturbed hExporting hOp with ⟨hConnect, hQuiet⟩
    rcases hStepped.keeps_transaction hOp with ⟨hSame, hPacket⟩
    have hSilent := step_silent hStep hExporting hQuiet hOp
    rw [sentBy_of_silent hSilent, List.append_nil,
      awaited_congr (exporting_congr hSame) (hStepped.keeps_nonce hConnect) hPacket]
    refine ⟨?_, hFrames⟩
    intro packet hKept
    exact hEvent packet (hPacket ▸ hKept)
  | true =>
    cases hStepped with
    | connected => cases hOp
    | moved hNot | joined _ _ hNot | left _ _ hNot | retired _ _ _ hNot => simp [hNot] at hOp
    | passed _ _ _ hFree | exported _ _ _ _ _ _ _ hFree => simp [hFree] at hCurrent
    | correlated router current _ hSame =>
      refine ⟨hEvent, ?_⟩
      have hAwaited : { s with router := router, current := current }.awaited nonce =
          s.awaited nonce := by
        apply awaited_congr
        · exact exporting_congr hSame
        · rfl
        · rfl
      rw [hAwaited, sentBy_of_silent rfl, List.append_nil]
      exact hFrames
    | settled k' hOpen _ hUnreported =>
      rw [hCurrent] at hOpen
      cases hOpen
      rcases undisturbed_close hUndisturbed hCurrent hTicket with ⟨hKept, p, hPacket, hNotified⟩
      rcases hUnreported with hNone | hDrops | hLost
      · simp [hNone] at hTicket
      · simp [hDrops] at hKept
      · simp [hLost p hPacket] at hNotified
    | reported k' p outcome _ _ hMoves hPacket hNotified =>
      refine ⟨?_, ?_⟩
      · intro packet hKept
        exact hEvent packet (hMoves.kept.event ▸ hKept)
      · rw [awaited_of_not_exporting rfl]
        simp only [notifies, Bool.and_eq_true, beq_iff_eq] at hNotified
        by_cases hNonce : p.scope.nonce = nonce
        · rw [awaited_eq_some hExporting hPacket hNotified.2 hNonce] at hFrames
          have hSent : sentBy nonce [.reported ⟨p.scope, .outcome outcome⟩] =
              [⟨p.scope, .outcome outcome⟩] := by
            simp [sentBy, Record.sent?, hNonce]
          rw [hSent]
          exact .outcome hFrames outcome
        · have hSent : sentBy nonce [.reported ⟨p.scope, .outcome outcome⟩] = [] := by
            simp [sentBy, Record.sent?, hNonce]
          rw [hSent, List.append_nil]
          rw [awaited_eq_none] at hFrames
          · exact hFrames
          · intro packet hSame _
            rw [hPacket] at hSame
            cases hSame
            exact hNonce

/- The Event of a key opens a frame on its connection. -/
theorem frames_exported {transmitted : Bool} {id : Nat} {packet sent : Option Packet}
    (hTransmitted : transmitted = true) (hReady : t.connection.ready = true)
    (hExports : t.Exports transmitted id packet sent)
    (hEvent : ∀ p, packet = some p → p.body.isEvent = true) (hExporting : s'.exporting = true)
    (hPacket : s'.eventPacket = packet) (hConnection : s'.connection = t.connection)
    (hFrames : Frames none packets) :
    Frames (s'.awaited nonce) (packets ++ sentBy nonce [.stamped sent]) := by
  rw [sentBy_stamped, hExports.sent]
  cases packet with
  | none =>
    rw [awaited_eq_none (by simp [hPacket])]
    simpa using hFrames
  | some p =>
    by_cases hPeer : p.scope.nonce = t.connection.nonce
    · have hQueued : t.notifies transmitted p = true := by
        simp [notifies, hReady, hTransmitted, hPeer]
      rw [Option.filter_some, if_pos hQueued, Option.filter_some]
      by_cases hNonce : p.scope.nonce = nonce
      · rw [if_pos (by simpa using hNonce),
          awaited_eq_some hExporting hPacket (hConnection ▸ hPeer) hNonce]
        exact .event hFrames (hEvent p rfl)
      · rw [if_neg (by simpa using hNonce), awaited_eq_none]
        · simpa using hFrames
        · rw [hPacket]
          rintro _ ⟨⟩ _
          exact hNonce
    · have hLost : t.notifies transmitted p = false := by
        simp [notifies, hPeer]
      rw [Option.filter_some, hLost, awaited_eq_none]
      · simpa using hFrames
      · rw [hPacket]
        rintro _ ⟨⟩ hSame
        rw [hConnection] at hSame
        exact absurd hSame hPeer

/- A step while no exported key is open. -/
theorem frames_idle (hStep : s.step op = some (s', log)) (hUndisturbed : s.undisturbed op = true)
    (hExporting : s.exporting = false) (hEvent : s.KeepsEvent) (hFrames : Frames none packets) :
    s'.KeepsEvent ∧ Frames (s'.awaited nonce) (packets ++ sentBy nonce log) := by
  have hStepped := step_stepped hStep
  have hUnkeyed : op.keyed = false → s'.KeepsEvent ∧ s'.awaited nonce = none := by
    intro hOp
    rcases hStepped.keeps_transaction hOp with ⟨hSame, hPacket⟩
    refine ⟨fun packet hKept => hEvent packet (hPacket ▸ hKept), ?_⟩
    rw [awaited_of_not_exporting ((exporting_congr hSame).trans hExporting)]
  cases hStepped with
  | connected =>
    rcases hUnkeyed rfl with ⟨hKept, hNone⟩
    rw [hNone, sentBy_of_silent rfl, List.append_nil]
    exact ⟨hKept, hFrames⟩
  | moved hOp hPosts =>
    rcases hUnkeyed hOp with ⟨hKept, hNone⟩
    rw [hNone]
    exact ⟨hKept, hPosts.moves.frames hFrames nonce⟩
  | left _ _ hOp _ hMoves =>
    rcases hUnkeyed hOp with ⟨hKept, hNone⟩
    rw [hNone]
    exact ⟨hKept, hMoves.frames hFrames nonce⟩
  | joined _ _ hOp =>
    rcases hUnkeyed hOp with ⟨hKept, hNone⟩
    rw [hNone, sentBy_of_silent rfl, List.append_nil]
    exact ⟨hKept, hFrames⟩
  | retired _ _ packet hOp _ hMoves hRetires =>
    rcases hUnkeyed hOp with ⟨hKept, hNone⟩
    rw [hNone, sentBy_append, ← List.append_assoc]
    refine ⟨hKept, (hMoves.frames hFrames nonce).append_controls ?_⟩
    intro q hMem
    have hSame : q = packet := by
      have hSent := List.mem_of_mem_filter hMem
      simpa [Record.sent?] using hSent
    rw [hSame, hRetires.body]
    rfl
  | passed physical current _ _ hMoves hNone =>
    refine ⟨fun p hKept => hEvent p (hMoves.kept.event ▸ hKept), ?_⟩
    rw [awaited_of_not_exporting]
    · exact hMoves.frames hFrames nonce
    · cases current with
      | none => rfl
      | some k => simp [exporting, hNone k rfl]
  | exported _ _ packet _ _ _ _ _ hAllowed hMoves hConnection hExports hTicket _ =>
      have hReady : s.connection.ready = true := by
        simp only [exports, Bool.and_eq_true] at hAllowed
        exact hAllowed.1.1.1.2
      have hKept : ∀ p, packet = some p → p.body.isEvent = true := by
        intro p hPacket
        rcases hExports.event p hPacket with hNew | hStale
        · exact hNew
        · exact hEvent p (hMoves.kept.event ▸ hStale)
      refine ⟨hKept, ?_⟩
      rw [sentBy_append, ← List.append_assoc]
      exact frames_exported (by simpa [undisturbed, hAllowed] using hUndisturbed)
        (hConnection ▸ hReady) hExports hKept
        (exporting_iff.mpr ⟨_, rfl, hTicket⟩) rfl rfl
        (hMoves.frames hFrames nonce)
  | correlated _ _ _ hSame =>
    refine ⟨hEvent, ?_⟩
    rw [awaited_of_not_exporting ((exporting_congr hSame).trans hExporting),
      sentBy_of_silent rfl, List.append_nil]
    exact hFrames
  | settled _ _ hMoves =>
    refine ⟨fun p hKept => hEvent p (hMoves.kept.event ▸ hKept), ?_⟩
    rw [awaited_of_not_exporting rfl]
    exact hMoves.frames hFrames nonce
  | reported k _ _ hCurrent hTicket =>
    have hOpen := exporting_iff.mpr ⟨k, hCurrent, hTicket⟩
    rw [hExporting] at hOpen
    cases hOpen

/- Undisturbed runs frame every transaction. -/
theorem run_frames {trace : List Entry} {start last : Stream} (hStart : start.exporting = false)
    (hKeeps : start.KeepsEvent) (hRun : Run step start trace last)
    (hSteps : ∀ e ∈ trace, e.pre.undisturbed e.op = true) (nonce : Nat) :
    last.KeepsEvent ∧ Frames (last.awaited nonce) (sentOn nonce trace) := by
  induction hRun with
  | nil =>
    rw [awaited_of_not_exporting hStart]
    exact ⟨hKeeps, .nil⟩
  | snoc _ hStep ih =>
    rcases forall_mem_snoc.mp hSteps with ⟨hFront, hLast⟩
    rcases ih hFront with ⟨hEvent, hFrames⟩
    rw [sentOn_snoc]
    rename_i _ before _ _ _ _
    cases hExporting : before.exporting with
    | true => exact frames_exporting hStep hLast hExporting hEvent hFrames
    | false =>
      rw [awaited_of_not_exporting hExporting] at hFrames
      exact frames_idle hStep hLast hExporting hEvent hFrames

theorem exporting_of_awaited {scope : Scope} (hAwaited : s.awaited nonce = some scope) :
    s.exporting = true := by
  cases hExporting : s.exporting with
  | true => rfl
  | false =>
    rw [awaited_of_not_exporting hExporting] at hAwaited
    cases hAwaited

/-
  On every connection of an undisturbed run, Events and outcomes are neighbours with the
  same scope.
-/
theorem framing {replacementWire tapReleaseEnabled dropOutcomeOnce : Bool} {seed : Nat}
    {trace : List Entry} {last : Stream}
    (hRun : Run step (init replacementWire tapReleaseEnabled dropOutcomeOnce seed)
        trace last) (hSteps : ∀ e ∈ trace, e.pre.undisturbed e.op = true) (nonce : Nat) :
    Framed last.exporting (sentOn nonce trace) := by
  rcases run_frames rfl (by simp [KeepsEvent, init]) hRun hSteps nonce with ⟨_, hFrames⟩
  constructor
  · intro front packet rest hSplit hEvent
    rcases hFrames.followed hSplit hEvent with ⟨hEnd, hAwaited⟩ | hOutcome
    · exact .inl ⟨hEnd, exporting_of_awaited hAwaited⟩
    · exact .inr hOutcome
  · intro front packet rest hSplit hOutcome
    exact hFrames.preceded hSplit hOutcome

/- A keyboard with a single key. -/
def letterA (raw : Key) : Nat := if raw.val = 30 then 30 else unmapped

/- A ring with room, one nanosecond after the start. -/
def prompt : Announcement where
  lockedAt := 1
  lockRoom := true
  sentAt := 1
  room := true

/- The key goes down and the daemon lets it pass. -/
def passedPress : KeyInput where
  identity := 1
  raw := 30
  down := true
  consumerSelected := true
  mapKnown := true
  begunAt := 1
  settledAt := 1
  lockRoom := true
  timeMs := 0
  focusKind := 0
  focus := ""
  transmitted := true
  answer := some (.pass, 0, 0)
  routedAt := 2
  output := .compliant

/- A first connection, up to a key that stock works on. -/
def openedPress : List Op :=
  [.attach 1 true false letterA, .connect 1 7,
    .ensureConnectionBinding, .reconcileInitial true prompt,
    .openKey passedPress]

/- The key is admitted and delivered. -/
def admittedPress : List Op := [.keybind true, .consumerRoute false, .closeKey 3 .compliant true]

theorem framing_press :
    let start := init true false false 7
    let ops := openedPress ++ admittedPress
    let trace := entriesOf step start ops
    let last := lastOf step start ops
    (sentOn 7 trace).length = 4 ∧ last.exporting = false ∧ Framed last.exporting (sentOn 7 trace) := by
  have hEvaluated :
      let start := init true false false 7
      let ops := openedPress ++ admittedPress
      let trace := entriesOf step start ops
      (exec step start ops).isSome = true ∧ (sentOn 7 trace).length = 4 ∧
        (lastOf step start ops).exporting = false ∧
        ∀ e ∈ trace, e.pre.undisturbed e.op = true := by
    decide +kernel
  rcases hEvaluated with ⟨hSome, hLength, hIdle, hSteps⟩
  exact ⟨hLength, hIdle, framing (.of_isSome hSome) hSteps 7⟩

/-
  A key binding that moves the focus: the Lock and the Reset of the focus hook come
  between the Event and its outcome.
-/
theorem focus_splits_transaction :
    let start := init true false false 7
    let ops := openedPress ++ .focus prompt :: admittedPress
    let trace := entriesOf step start ops
    let last := lastOf step start ops
    Run step start trace last ∧ ¬ Framed last.exporting (sentOn 7 trace) := by
  let event : Packet := ⟨⟨1, 3, 3, 10000001, 7⟩, .event ⟨30, 1, 0, 0, 2, 0, ""⟩⟩
  let lock : Packet := ⟨⟨0, 4, 4, 10000001, 7⟩, .lock 0 0⟩
  have hEvaluated :
      let start := init true false false 7
      let ops := openedPress ++ .focus prompt :: admittedPress
      (exec step start ops).isSome = true ∧
        sentOn 7 (entriesOf step start ops) = [⟨⟨0, 3, 1, 10000001, 7⟩, .lock 0 0⟩,
              ⟨⟨0, 3, 2, 10000001, 7⟩, .reset 8⟩] ++
            event :: [lock, ⟨⟨0, 4, 5, 10000001, 7⟩, .reset 2⟩, ⟨event.scope, .outcome
                    ⟨.originalAdmitted, 0, 30, 1, 2⟩⟩] := by
    decide +kernel
  rcases hEvaluated with ⟨hSome, hSplit⟩
  refine ⟨.of_isSome hSome, ?_⟩
  intro hFramed
  rcases hFramed.followed _ event _ hSplit rfl with ⟨hEnd, _⟩ | ⟨outcome, tail, hNext⟩
  · cases hEnd
  · simp [lock] at hNext

end Sledge.Native.Stream
