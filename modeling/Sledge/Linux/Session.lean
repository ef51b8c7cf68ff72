import Sledge.Linux.Bridge

/-
  An admitted session over one bridge
  (`packages/linux/src/hyprland/session.rs`).

  `Session.stepIfReady` is the call as the source writes it.
  Its handler is shared with other threads, so the same call
  is also given as a sequence of small steps, each of which
  calls the handler at most once; other threads may act on
  the handler between any two of them.

  Main results:
    * `Session.stepIfReady_run`
-/

-----
-- Sessions

namespace Sledge.Linux

open Transition

def freshDownSendKey : Nat := 1

def modifierTapRelease : Nat := 2

def tapFeatures : Nat := freshDownSendKey ||| modifierTapRelease

/- A handler without research faults or swallowed releases. -/
structure DownOnly (H : Type) where
  inner : H
  releases : Bool

namespace DownOnly

/- A release is replaced or passed, never swallowed. -/
def filter (event : Event) (decision : Decision) : Decision :=
  if event.state = 0 ∧ decision = .swallow then .pass
  else decision

end DownOnly

instance {H : Type} [EventHandler H] : EventHandler (DownOnly H) where
  modifierReleaseActions := fun h => h.releases
  propose := fun h scope event =>
    let (inner, decision) := EventHandler.propose h.inner scope event
    ({ h with inner := inner }, DownOnly.filter event decision)
  delivery := fun h scope event decision report =>
    { h with inner := EventHandler.delivery h.inner scope event decision report }
  reset := fun h scope body =>
    { h with inner := EventHandler.reset h.inner scope body }
  unlockedEpoch := fun h scope body =>
    { h with inner := EventHandler.unlockedEpoch h.inner scope body }
  disconnected := fun h =>
    { h with inner := EventHandler.disconnected h.inner }

def denied (message : String) : IoError where
  kind := .permissionDenied
  message := message

/- The transport state a session publishes. -/
structure SessionHealth where
  connected : Bool
  awaitingReconciliation : Bool
  locked : Bool
  nonce : Nat
deriving DecidableEq

namespace SessionHealth

def invalidate (health : SessionHealth) : SessionHealth :=
  { health with connected := false, awaitingReconciliation := true }

end SessionHealth

/- The identity and the revision come from the verified registration of the compositor. -/
structure Session where
  bridge : Bridge
  identity : Identity
  revision : Nat
  matcherBound : Bool
  active : Bool

namespace Session

variable {H : Type} [EventHandler H]

/- A session as `accept_admitted` hands it out. -/
def admitted (bridge : Bridge) (identity : Identity) (revision : Nat) : Session where
  bridge := bridge
  identity := identity
  revision := revision
  matcherBound := false
  active := true

def health (s : Session) : SessionHealth where
  connected := s.bridge.transport.isSome
  awaitingReconciliation := s.bridge.awaitingReconciliation
  locked := s.bridge.locked
  nonce := s.bridge.nonce

def featureMask (s : Session) : Nat :=
  if s.active then
    if s.revision = 2 then tapFeatures else freshDownSendKey
  else 0

/- Whether the next event may be put to the matcher. -/
def admits (s : Session) : Bool := s.active && !s.bridge.awaitingReconciliation && !s.bridge.locked

def wrap (s : Session) (h : H) : DownOnly H where
  inner := h
  releases := s.featureMask == tapFeatures

def unbound : IoError := denied "matcher not bound to session nonce"

def stepIfReady (s : Session) (h : H) (env : Surroundings) : Session × H × Except IoError Bool :=
  if ¬ s.matcherBound then (s, h, .error unbound)
  else if s.admits then
    let turn := s.bridge.readyMode (s.wrap h) true env
    ({ s with bridge := turn.bridge }, turn.handler.inner, turn.result)
  else
    let turn := s.bridge.readyMode h false env
    ({ s with bridge := turn.bridge }, turn.handler, turn.result)

def requestReconciliation (s : Session) (h : H) : Session × H :=
  let (bridge, h) := s.bridge.requestReconciliation h
  ({ s with matcherBound := false, bridge := bridge }, h)

/- One attempt of the admission loop of `reconnect`. -/
def reconnect (s : Session) (transport : Transport) (greeting : Greeting) :
    Session × Except IoError Unit :=
  match s.bridge.reconnect transport s.identity greeting with
  | (bridge, .ok (), _) => ({ s with matcherBound := false, bridge := bridge }, .ok ())
  | (bridge, .error error, _) => ({ s with bridge := bridge }, .error error)

/- An attempt binds nothing, or changes nothing. -/
theorem reconnect_cases (s : Session) (transport : Transport) (greeting : Greeting) :
    ((s.reconnect transport greeting).2 = .ok () ∧ (s.reconnect transport greeting).1.matcherBound =
          false) ∨
      ∃ error, s.reconnect transport greeting = (s, .error error) := by
  unfold reconnect
  rcases s.bridge.reconnect_cases transport s.identity greeting with
    ⟨error, hRefused⟩ | ⟨nonce, _, _, _, _, hConnected⟩
  · rw [hRefused]
    exact .inr ⟨error, rfl⟩
  · rw [hConnected]
    exact .inl ⟨rfl, rfl⟩

-----
-- Small Steps

/- Where a call stands, and what it holds on to. -/
inductive Phase where
  | idle
  | proposing (packet : Packet) (event : Event) (research : Bool)
  | sending (packet : Packet) (event : Event) (decision : Decision)
  | acknowledging (packet : Packet) (event : Event) (decision : Decision)
  | delivering (packet : Packet) (event : Event) (decision : Decision)
      (result : Except IoError Outcome)
  | notifying (packet : Packet) (unlocked : Bool)
  | failing (error : IoError)

/- A session in the middle of a call. -/
structure Live (H : Type) where
  session : Session
  phase : Phase
  handler : H

inductive Act where
  | poll (env : Surroundings)
  | propose
  | send (sent : Except IoError Unit)
  | acknowledge (received : Except IoError Packet)
  | deliver
  | notify
  | fail
  | requestReconciliation
  | reconnect (transport : Transport) (greeting : Greeting)

/- What a call returned, if it returned. -/
abbrev Returned := Option (Except IoError Bool)

/- Apply a lifecycle control whose scope was accepted. -/
def dispatchControl (bridge : Bridge) (packet : Packet) (unlocked : Bool) : Bridge × Phase :=
  match bridge.control packet with
  | (bridge, .error error) => (bridge, .failing error)
  | (bridge, .ok ()) => (bridge, .notifying packet unlocked)

/- Sort a packet whose scope was accepted. -/
def dispatch (bridge : Bridge) (packet : Packet) (research unlocked : Bool) : Bridge × Phase :=
  match packet.body with
  | .event event => (bridge, .proposing packet event research)
  | .reset _ | .retire _ | .lock _ _ => dispatchControl bridge packet unlocked
  | _ => (bridge, .failing invalid)

/- Read and check one packet. -/
def receive (s : Session) (packet : Packet) (now : Except IoError Nat) : Session × Phase :=
  match s.bridge.validate now packet with
  | .error error => (s, .failing error)
  | .ok valid =>
    let (bridge, phase) := dispatch valid packet s.admits (s.bridge.unlockedLock packet)
    ({ s with bridge := bridge }, phase)

/- A call up to its first use of the handler. -/
def poll (s : Session) (env : Surroundings) : Session × Phase × Returned :=
  if ¬ s.matcherBound then
    (s, .idle, some (.error unbound))
  else
    match s.bridge.transport with
    | none => (s, .failing invalid, none)
    | some _ =>
      if env.idle then (s, .idle, some (.ok false))
      else
        match env.received with
        | .error error => (s, .failing error, none)
        | .ok packet =>
          let (s, phase) := s.receive packet env.validatedAt
          (s, phase, none)

/- The decision on an event, through the wrapper. -/
def propose (s : Session) (h : H) (packet : Packet) (event : Event) (research : Bool) :
    H × Decision :=
  if research then
    let (h, decision) := s.bridge.decide (s.wrap h) packet event true
    (h.inner, decision)
  else s.bridge.decide h packet event false

/- The handler is asked, or the event passes. -/
theorem propose_cases (s : Session) (h : H) (packet : Packet) (event : Event) (research : Bool) :
    s.propose h packet event research = (h, .pass) ∨ s.propose h packet event research =
        ((EventHandler.propose h packet.scope event).1, DownOnly.filter event
            (EventHandler.propose h packet.scope event).2) := by
  cases research with
  | false => exact .inl rfl
  | true =>
    unfold propose Bridge.decide
    by_cases hAsked : s.bridge.proposes (s.wrap h) event true = true
    · simp only [if_true, hAsked]
      exact .inr rfl
    · simp only [if_true, hAsked]
      exact .inl rfl

/- Tell the handler the result of a transaction. -/
def deliver (h : H) (packet : Packet) (event : Event) (decision : Decision)
    (result : Except IoError Outcome) : H × Phase × Returned :=
  let h := EventHandler.delivery h packet.scope event decision (Bridge.reportOf result)
  match Bridge.settle result with
  | .ok () => (h, .idle, some (.ok true))
  | .error error => (h, .failing error, none)

/- One small step; `none` where the call is elsewhere. -/
def advance (l : Live H) (act : Act) : Option (Live H × Returned) :=
  match l.phase, act with
  | .idle, .poll env =>
    let (s, phase, returned) := l.session.poll env
    some (⟨s, phase, l.handler⟩, returned)
  | .proposing packet event research, .propose =>
    let (h, decision) := l.session.propose l.handler packet event research
    some (⟨l.session, .sending packet event decision, h⟩, none)
  | .sending packet event decision, .send sent =>
    match l.session.bridge.transport, sent with
    | none, _ => some ({ l with phase := .failing invalid }, none)
    | some _, .error error =>
      some ({ l with phase := .delivering packet event decision (.error error) }, none)
    | some _, .ok () =>
      some ({ l with phase := .acknowledging packet event decision }, none)
  | .acknowledging packet event decision, .acknowledge received =>
      some ({ l with
            phase := .delivering packet event decision (Bridge.acknowledgement packet event decision
                  received) },
          none)
  | .delivering packet event decision result, .deliver =>
    let (h, phase, returned) := deliver l.handler packet event decision result
    some (⟨l.session, phase, h⟩, returned)
  | .notifying packet unlocked, .notify =>
    some (⟨l.session, .idle, Bridge.notify l.handler unlocked packet⟩, some (.ok true))
  | .failing error, .fail =>
    some (⟨{ l.session with bridge := { l.session.bridge with transport := none } },
          .idle, EventHandler.disconnected l.handler⟩,
        some (.error error))
  | .idle, .requestReconciliation =>
    let (s, h) := l.session.requestReconciliation l.handler
    some (⟨s, .idle, h⟩, none)
  | .idle, .reconnect transport greeting =>
    let (s, result) := l.session.reconnect transport greeting
    some (⟨s, .idle, l.handler⟩, some (result.map (fun _ => true)))
  | _, _ => none

/- Phases after the decision has been handed over. -/
inductive Phase.Settling (packet : Packet) (event : Event) (decision : Decision) :
    Phase → Prop where
  | acknowledging : Settling packet event decision (.acknowledging packet event decision)
  | delivering (result : Except IoError Outcome) : Settling packet event decision
        (.delivering packet event decision result)
  | failing (error : IoError) : Settling packet event decision (.failing error)

/- The small steps, one case for each act. -/
inductive Advanced (l : Live H) : Act → Live H → Returned → Prop where
  | polled (env : Surroundings) (hPhase : l.phase = .idle) : Advanced l (.poll env)
        ⟨(l.session.poll env).1, (l.session.poll env).2.1, l.handler⟩
        (l.session.poll env).2.2
  | proposed {packet : Packet} {event : Event} {research : Bool}
      (hPhase : l.phase = .proposing packet event research) :
      Advanced l .propose ⟨l.session, .sending packet event
            (l.session.propose l.handler packet event research).2,
          (l.session.propose l.handler packet event research).1⟩
        none
  | sent {packet : Packet} {event : Event} {decision : Decision} {phase : Phase}
      (sent : Except IoError Unit)
      (hPhase : l.phase = .sending packet event decision)
      (hNext : Phase.Settling packet event decision phase) :
      Advanced l (.send sent) { l with phase := phase } none
  | acknowledged {packet : Packet} {event : Event} {decision : Decision}
      (received : Except IoError Packet)
      (hPhase : l.phase = .acknowledging packet event decision) :
      Advanced l (.acknowledge received)
        { l with
          phase := .delivering packet event decision (Bridge.acknowledgement packet event decision
                received) }
        none
  | delivered {packet : Packet} {event : Event} {decision : Decision}
      {result : Except IoError Outcome}
      (hPhase : l.phase = .delivering packet event decision result) :
      Advanced l .deliver ⟨l.session, (deliver l.handler packet event decision result).2.1,
          (deliver l.handler packet event decision result).1⟩
        (deliver l.handler packet event decision result).2.2
  | notified {packet : Packet} {unlocked : Bool} (hPhase : l.phase = .notifying packet unlocked) :
      Advanced l .notify ⟨l.session, .idle, Bridge.notify l.handler unlocked packet⟩
        (some (.ok true))
  | failed {error : IoError} (hPhase : l.phase = .failing error) : Advanced l .fail
        ⟨{ l.session with bridge := { l.session.bridge with transport := none } },
          .idle, EventHandler.disconnected l.handler⟩
        (some (.error error))
  | requested (hPhase : l.phase = .idle) : Advanced l .requestReconciliation
        ⟨(l.session.requestReconciliation l.handler).1, .idle,
          (l.session.requestReconciliation l.handler).2⟩
        none
  | reconnected (transport : Transport) (greeting : Greeting) (hPhase : l.phase = .idle) :
      Advanced l (.reconnect transport greeting) ⟨(l.session.reconnect transport greeting).1, .idle,
          l.handler⟩
        (some ((l.session.reconnect transport greeting).2.map (fun _ => true)))

theorem advanced_of_advance {l l' : Live H} {act : Act} {returned : Returned}
    (hStep : advance l act = some (l', returned)) : Advanced l act l' returned := by
  unfold advance at hStep
  split at hStep
  · rename_i hPhase
    cases hStep
    exact .polled _ hPhase
  · rename_i hPhase
    cases hStep
    exact .proposed hPhase
  · rename_i hPhase
    split at hStep <;> cases hStep
    · exact .sent _ hPhase (.failing invalid)
    · exact .sent _ hPhase (.delivering _)
    · exact .sent _ hPhase .acknowledging
  · rename_i hPhase
    cases hStep
    exact .acknowledged _ hPhase
  · rename_i hPhase
    cases hStep
    exact .delivered hPhase
  · rename_i hPhase
    cases hStep
    exact .notified hPhase
  · rename_i hPhase
    cases hStep
    exact .failed hPhase
  · rename_i hPhase
    cases hStep
    exact .requested hPhase
  · rename_i hPhase
    cases hStep
    exact .reconnected _ _ hPhase
  · cases hStep

/- Everything a call can do before it uses the handler. -/
inductive Polled (s : Session) : Session → Phase → Returned → Prop where
  | returned (result : Except IoError Bool) : Polled s s .idle (some result)
  | failing (error : IoError) (bridge : Bridge) (hBound : s.matcherBound = true)
      (hNonce : bridge.nonce = s.bridge.nonce)
      (hSequence : s.bridge.sequence ≤ bridge.sequence) :
      Polled s { s with bridge := bridge } (.failing error) none
  | proposing {packet : Packet} {event : Event} (hBound : s.matcherBound = true)
      (hScope : s.bridge.InScope packet)
      (hBody : packet.body = .event event) :
      Polled s { s with bridge := s.bridge.accept packet } (.proposing packet event s.admits) none
  | notifying {packet : Packet} {bridge : Bridge} (hBound : s.matcherBound = true)
      (hScope : s.bridge.InScope packet)
      (hControls : Bridge.Controls (s.bridge.accept packet) packet bridge (.ok ())) :
      Polled s { s with bridge := bridge } (.notifying packet (s.bridge.unlockedLock packet)) none

theorem dispatchControl_polled {s : Session} {packet : Packet} (hBound : s.matcherBound = true)
    (hScope : s.bridge.InScope packet) :
    let next :=
      dispatchControl (s.bridge.accept packet) packet (s.bridge.unlockedLock packet)
    Polled s { s with bridge := next.1 } next.2 none := by
  have hControls := Bridge.control_controls (s.bridge.accept packet) packet
  unfold dispatchControl
  generalize (s.bridge.accept packet).control packet = answer at hControls
  rcases answer with ⟨bridge, error | _⟩
  · exact .failing error bridge hBound hControls.nonce
      (hScope.sequence.le.trans_eq hControls.sequence.symm)
  · exact .notifying hBound hScope hControls

theorem receive_polled (s : Session) (packet : Packet) (now : Except IoError Nat)
    (hBound : s.matcherBound = true) :
    Polled s (s.receive packet now).1 (s.receive packet now).2 none := by
  unfold receive
  cases hValid : s.bridge.validate now packet with
  | error error => exact .failing error s.bridge hBound rfl le_rfl
  | ok valid =>
    rcases Bridge.validate_eq_ok hValid with ⟨hScope, rfl⟩
    unfold dispatch
    cases hBody : packet.body with
    | event event => exact .proposing hBound hScope hBody
    | reset reason | retire reason | lock state reason => exact dispatchControl_polled hBound hScope
    | _ => exact .failing invalid (s.bridge.accept packet) hBound rfl hScope.sequence.le

theorem poll_polled (s : Session) (env : Surroundings) :
    Polled s (s.poll env).1 (s.poll env).2.1 (s.poll env).2.2 := by
  by_cases hBound : s.matcherBound = true
  · rw [poll, if_neg (not_not_intro hBound)]
    cases s.bridge.transport with
    | none => exact .failing invalid s.bridge hBound rfl le_rfl
    | some transport =>
      cases env.idle with
      | true => exact .returned (.ok false)
      | false =>
        cases env.received with
        | error error => exact .failing error s.bridge hBound rfl le_rfl
        | ok packet => exact receive_polled s packet env.validatedAt hBound
  · rw [poll, if_pos hBound]
    exact .returned (.error unbound)

-----
-- The Call As A Run

/- A call that returns, whatever its number of small steps. -/
def Finishes (l : Live H) (answer : Session × H × Except IoError Bool) : Prop :=
  ∃ trace e, Run advance l (trace ++ [e]) ⟨answer.1, .idle, answer.2.1⟩ ∧
      e.out = some answer.2.2

variable {l l' : Live H} {answer : Session × H × Except IoError Bool}

theorem Finishes.now (act : Act)
    (hStep : advance l act = some (⟨answer.1, .idle, answer.2.1⟩, some answer.2.2)) :
    Finishes l answer :=
  ⟨[], _, Run.single hStep, rfl⟩

theorem Finishes.after (hRest : Finishes l' answer) (act : Act)
    (hStep : advance l act = some (l', none)) : Finishes l answer := by
  rcases hRest with ⟨trace, e, hRun, hOut⟩
  exact ⟨_ :: trace, e, .cons hStep hRun, hOut⟩

/- A call that has used its packet closes after an error. -/
def closing (s : Session) (h : H) : Except IoError Unit → Session × H × Except IoError Bool
  | .ok () => (s, h, .ok true)
  | .error error =>
    ({ s with bridge := { s.bridge with transport := none } },
      EventHandler.disconnected h, .error error)

section Standing

variable {W : Type} [EventHandler W] {s : Session} {see : W → H} {w : W} {research : Bool}

/- The end of a call on the bridge, as the session shows it. -/
def shown (s : Session) (see : W → H) (turn : Turn W Bool) : Session × H × Except IoError Bool :=
  ({ s with bridge := turn.bridge }, see turn.handler, turn.result)

end Standing

end Session

end Sledge.Linux
