import Sledge.Broker.Agreement
import Sledge.Daemon.LinuxSink

/-
  Presses that the matcher owns are owned by the broker.

  The client's sink is the daemon's matcher.  Whatever a
  device reports, the matcher's owner of a press is one the
  broker's key state agrees with: a press that the matcher
  swallowed is swallowed there, and a press whose replacement
  was refused is put out.

  Main results:
    * `Session.handle_steady`
    * `Service.Move.steady`
    * `Service.matcher_owned`
-/

-----
-- Answered Requests

namespace Sledge.Broker

open Daemon DeviceProxy
open Linux (IoError)

/- The widths of an event record. -/
structure RawEvent.Fits (event : RawEvent) : Prop where
  eventType : event.eventType < 2 ^ 16
  code : event.code < 2 ^ 16
  low : -2 ^ 31 ≤ event.value
  high : event.value < 2 ^ 31

theorem RawEvent.fits_default : RawEvent.default.Fits :=
  ⟨by decide, by decide, by decide, by decide⟩

variable {S : Type} {sink : EventSink S}

theorem clientSocket_answered {e e' : ClientEnd S} {m : Message} {frame : List UInt8}
    (hFits : m.Fits) (hSocket : clientSocket sink e m.write = (e', .ok frame)) :
    ∃ operation, Took sink m e e' operation ∧ frame = { m with operation := operation }.write := by
  rcases e with ⟨_ | ⟨state, x⟩, foci⟩
  · cases hSocket
  simp only [clientSocket] at hSocket
  split at hSocket
  swap
  · cases hSocket
  rename_i c written hServe
  cases hSocket
  rcases Client.serve_turns hServe with ⟨_, _, hError⟩ |
    ⟨request, answer, hRequest, _, _, hTurn, hWritten⟩
  · cases hError
  rw [Message.read_write hFits] at hRequest
  cases hRequest
  rcases hWritten frame rfl with ⟨operation, rfl, rfl⟩
  exact ⟨operation, ⟨state, x, c, rfl, hTurn, rfl⟩, rfl⟩

namespace Session

variable {s s' : Session (ClientEnd S)}

theorem ask_answered {m reply : Message} (hAsk : s.ask (clientSocket sink) m = (s', .ok reply))
    (hAnswers : reply.answers m = true) (hEvent : m.event.Fits) :
    s'.proxy = s.proxy ∧ Took sink m s.peer s'.peer reply.operation := by
  unfold ask at hAsk
  rcases hSocket : clientSocket sink s.peer m.write with ⟨peer, error | frame⟩
  all_goals
    rw [hSocket] at hAsk
    dsimp only at hAsk
  · cases hAsk
  have hRead := congrArg Prod.snd hAsk
  obtain rfl := congrArg Prod.fst hAsk
  have hFits : m.Fits := by
    have hReply := Message.read_fits hRead
    simp only [Message.answers, Bool.and_eq_true, beq_iff_eq] at hAnswers
    rcases hAnswers with ⟨⟨⟨_, hGeneration⟩, hEpoch⟩, hSequence⟩
    exact ⟨hGeneration ▸ hReply.generation, hEpoch ▸ hReply.epoch,
      hSequence ▸ hReply.sequence, hEvent.eventType,
      hEvent.code, hEvent.low, hEvent.high⟩
  rcases clientSocket_answered hFits hSocket with ⟨operation, hTook, rfl⟩
  rw [hFits.reply] at hRead
  cases hRead
  exact ⟨rfl, hTook⟩

theorem control_answered {operation : Operation} {event : RawEvent}
    (hControl : s.control (clientSocket sink) operation event = (s', .ok ())) (hEvent : event.Fits) :
    s'.proxy = { s.proxy with sequence := s.proxy.sequence + 1 } ∧ ∃ decision,
        Took sink (s.nextRequest operation event) s.peer s'.peer decision := by
  unfold control at hControl
  split at hControl
  · cases hControl
  rename_i numbered hNumbered
  rcases advanceSequence_some hNumbered with ⟨hRoom, rfl⟩
  dsimp only at hControl
  split at hControl
  · cases hControl
  rename_i asked reply hAsked
  split_ifs at hControl with hRefused
  · cases hControl
  cases hControl
  push Not at hRefused
  rcases ask_answered hAsked hRefused.2 hEvent with ⟨hProxy, hTook⟩
  exact ⟨hProxy, reply.operation, hTook⟩

theorem decide_answered {raw : RawEvent} {decision : Operation}
    (hDecide : Session.decide (clientSocket sink) s raw = (s', .ok decision))
    (hKey : raw.isKey = true) (hOpen : s.proxy.state.dropping = false) (hEvent : raw.Fits) :
    Took sink (s.proxy.message .event raw) s.peer s'.peer decision := by
  unfold Session.decide at hDecide
  rw [if_pos ⟨hKey, hOpen⟩] at hDecide
  dsimp only at hDecide
  split at hDecide
  · cases hDecide
  rename_i asked reply hAsked
  have hAdmitted := congrArg Prod.snd hDecide
  obtain rfl := congrArg Prod.fst hDecide
  rcases admittedDecision_ok hAdmitted with ⟨rfl, _, hAnswers, _⟩
  exact (ask_answered hAsked hAnswers hEvent).2

end Session

-----
-- The Matcher Behind The Socket

open Core

open Daemon.Linux (MatcherSink)
open Linux (fromEvdev modifier)

/- The sink of the daemon; it is gone once it has panicked. -/
def matcherSink : EventSink (Option MatcherSink) where
  onDeviceEvent := fun x device event focus =>
    match x.bind (·.onDeviceEvent device event focus) with
    | none => (none, .pass)
    | some (x, verdict) => (some x, verdict)
  onDeviceReset := fun x device =>
    x.map (·.onDeviceReset device)

/- The matcher of a client that serves. -/
def ClientEnd.matcher? (e : ClientEnd (Option MatcherSink)) : Option Matcher :=
  e.loop.bind (fun loop => loop.2.map MatcherSink.matcher)

/- A matcher that stays settled is related to the one before. -/
def Evolves (R : Matcher → Matcher → Prop) (n n' : Option Matcher) : Prop :=
  ∀ b, n' = some b → ∃ a, n = some a ∧ (a.Settled → b.Settled ∧ R a b)

/- The presses of the other devices keep their owners. -/
def Spares (generation : Nat) (a b : Matcher) : Prop :=
  ∀ p, p.1 ≠ ⟨generation⟩ → b.owner p = a.owner p

/- Some presses of a device are freed. -/
def Frees (generation : Nat) (a b : Matcher) : Prop :=
  ∀ p, b.owner p = a.owner p ∨ (p.1 = ⟨generation⟩ ∧ b.owner p = .free)

/- No press of a device has an owner. -/
def Clears (generation : Nat) (a b : Matcher) : Prop :=
  Frees generation a b ∧ ∀ code, b.owner (⟨generation⟩, code) = .free

/- What a decided key does to the owners of presses. -/
structure Decides (generation : Nat) (raw : RawEvent) (decision : Operation) (a b : Matcher) :
    Prop where
  others : Spares generation a b
  kept : ∀ code, (raw.value ≠ 0 ∧ raw.value ≠ 1) ∨ fromEvdev raw.code ≠ some code →
      b.owner (⟨generation⟩, code) = a.owner (⟨generation⟩, code) ∨
        b.owner (⟨generation⟩, code) = .free
  released : ∀ code, raw.value = 0 → fromEvdev raw.code = some code → code.isModifier = false →
      b.owner (⟨generation⟩, code) = .free
  pressed : ∀ code, raw.value = 1 → fromEvdev raw.code = some code → code.isModifier = false →
      a.owner (⟨generation⟩, code) = .free →
      b.owner (⟨generation⟩, code) = .free ∨ (b.owner (⟨generation⟩, code) = .swallowed ∧
          decision = .swallow) ∨
        (b.owner (⟨generation⟩, code) = .forwarded ∧ decision = .pass)

variable {R Q T : Matcher → Matcher → Prop} {n n' n'' : Option Matcher} {generation : Nat}
variable {a b c : Matcher}

theorem Evolves.comp (hFirst : Evolves R n n') (hSecond : Evolves Q n' n'')
    (hComp : ∀ a b c, R a b → Q b c → T a c) : Evolves T n n'' := by
  intro c hLast
  rcases hSecond c hLast with ⟨b, hMid, hLater⟩
  rcases hFirst b hMid with ⟨a, hStart, hEarlier⟩
  refine ⟨a, hStart, ?_⟩
  intro hSettled
  rcases hEarlier hSettled with ⟨hSettled', hR⟩
  rcases hLater hSettled' with ⟨hSettled'', hQ⟩
  exact ⟨hSettled'', hComp a b c hR hQ⟩

theorem Evolves.mono (hEvolves : Evolves R n n') (hImp : ∀ a b, R a b → Q a b) :
    Evolves Q n n' := by
  intro b hSome
  rcases hEvolves b hSome with ⟨a, hStart, hStays⟩
  refine ⟨a, hStart, ?_⟩
  intro hSettled
  exact ⟨(hStays hSettled).1, hImp a b (hStays hSettled).2⟩

theorem Frees.refl (generation : Nat) (a : Matcher) : Frees generation a a := fun _ => .inl rfl

theorem evolves_refl : Evolves (Frees generation) n n :=
  fun b hSome =>
    ⟨b, hSome, fun hSettled => ⟨hSettled, Frees.refl _ b⟩⟩

theorem Frees.trans (hFirst : Frees generation a b) (hSecond : Frees generation b c) :
    Frees generation a c := by
  intro p
  rcases hSecond p with hSame | hFree
  · rw [hSame]
    exact hFirst p
  · exact .inr hFree

theorem Frees.spares (hFrees : Frees generation a b) : Spares generation a b := by
  intro p hOther
  rcases hFrees p with hSame | hFree
  · exact hSame
  · exact absurd hFree.1 hOther

theorem Frees.clears (hFirst : Frees generation a b) (hSecond : Clears generation b c) :
    Clears generation a c :=
  ⟨hFirst.trans hSecond.1, hSecond.2⟩

theorem Clears.frees (hFirst : Clears generation a b) (hSecond : Frees generation b c) :
    Clears generation a c := by
  refine ⟨hFirst.1.trans hSecond, ?_⟩
  intro code
  rcases hSecond (⟨generation⟩, code) with hSame | hFree
  · rw [hSame]
    exact hFirst.2 code
  · exact hFree.2

/- Freed presses before a decision change nothing of it. -/
theorem Frees.decides {raw : RawEvent} {decision : Operation} (hFirst : Frees generation a b)
    (hSecond : Decides generation raw decision b c) : Decides generation raw decision a c := by
  have hOwn (code : KeyCode) : b.owner (⟨generation⟩, code) = a.owner (⟨generation⟩, code) ∨
      b.owner (⟨generation⟩, code) = .free := by
    rcases hFirst (⟨generation⟩, code) with hSame | hFree
    · exact .inl hSame
    · exact .inr hFree.2
  refine ⟨?_, ?_, hSecond.released, ?_⟩
  · intro p hOther
    rw [hSecond.others p hOther]
    exact hFirst.spares p hOther
  · intro code hUntouched
    rcases hSecond.kept code hUntouched with hSame | hFree
    · rw [hSame]
      exact hOwn code
    · exact .inr hFree
  · intro code hValue hCode hKey hFree
    refine hSecond.pressed code hValue hCode hKey ?_
    rcases hOwn code with hSame | hFreed
    · rw [hSame, hFree]
    · exact hFreed

theorem evolves_reset (x : Option MatcherSink) (generation : Nat) :
    Evolves (Clears generation) (x.map MatcherSink.matcher)
      ((matcherSink.onDeviceReset x ⟨generation⟩).map MatcherSink.matcher) := by
  intro b hSome
  rw [Option.map_eq_some_iff] at hSome
  rcases hSome with ⟨y, hSink, rfl⟩
  rw [matcherSink, Option.map_eq_some_iff] at hSink
  rcases hSink with ⟨x, rfl, rfl⟩
  refine ⟨x.matcher, rfl, ?_⟩
  intro hSettled
  rcases x.onDeviceReset_settled hSettled with ⟨hSettled', hOwners⟩
  refine ⟨hSettled', ?_, ?_⟩
  · intro p
    rw [hOwners]
    split_ifs with hDevice
    · exact .inr ⟨hDevice, rfl⟩
    · exact .inl rfl
  · intro code
    rw [hOwners, if_pos rfl]

theorem evolves_event (x : Option MatcherSink) (device : DeviceId) (event : KeyEvent)
    (focus : Option String) :
    Evolves (fun a b =>
        a.Answers b device event (matcherSink.onDeviceEvent x device event focus).2)
      (x.map MatcherSink.matcher)
      ((matcherSink.onDeviceEvent x device event focus).1.map MatcherSink.matcher) := by
  intro b hSome
  rw [Option.map_eq_some_iff] at hSome
  rcases hSome with ⟨y, hSink, rfl⟩
  rcases hEvent : x.bind (·.onDeviceEvent device event focus) with _ | ⟨z, verdict⟩
  · simp [matcherSink, hEvent] at hSink
  simp only [matcherSink, hEvent, Option.some.injEq] at hSink ⊢
  subst hSink
  rw [Option.bind_eq_some_iff] at hEvent
  rcases hEvent with ⟨x, rfl, hEvent⟩
  exact ⟨x.matcher, rfl, fun hSettled =>
      x.onDeviceEvent_answers hSettled hEvent⟩

theorem modifier_isEmpty {code : Nat} {key : KeyCode} (hCode : fromEvdev code = some key)
    (hKey : key.isModifier = false) : (modifier code).isEmpty = true := by
  have hTable : ∀ entry ∈ Linux.Keymap.keys, entry.2.isModifier = false →
      (modifier entry.1).isEmpty = true := by
    decide
  exact hTable _ (Linux.mem_of_fromEvdev hCode) hKey

theorem fromEvdev_le {code : Nat} {key : KeyCode} (hCode : fromEvdev code = some key) :
    code ≤ maxKey := by
  have hTable : ∀ entry ∈ Linux.Keymap.keys, entry.1 ≤ maxKey := by decide
  exact hTable _ (Linux.mem_of_fromEvdev hCode)

namespace Client

variable {c c' : Client (Option MatcherSink)} {m : Message} {focus : Option String}
variable {operation : Operation}

def matcher? (c : Client (Option MatcherSink)) : Option Matcher := c.sink.map MatcherSink.matcher

theorem accept_evolves :
    Evolves (Frees m.generation) c.matcher? (c.accept matcherSink m).matcher? := by
  unfold accept
  dsimp only
  split_ifs
  · exact (evolves_reset c.sink m.generation).mono (fun _ _ hClears => hClears.1)
  · exact evolves_refl

theorem Turn.evolves (hTurn : Turn matcherSink c m focus c' (.ok operation))
    (hOther : m.operation ≠ .event) : Evolves (Frees m.generation) c.matcher? c'.matcher? := by
  generalize hAnswer : (Except.ok operation : Except BackendError Operation) = answer at hTurn
  cases hTurn with
  | reset | retired => exact (evolves_reset c.sink m.generation).mono (fun _ _ hClears => hClears.1)
  | refused | snapshot => exact evolves_refl
  | idle hOperation | unmapped hOperation | delivered _ _ hOperation =>
    exact absurd hOperation hOther

theorem Turn.clears (hTurn : Turn matcherSink c m focus c' (.ok operation))
    (hReset : m.operation = .deviceReset) :
    Evolves (Clears m.generation) c.matcher? c'.matcher? := by
  generalize hAnswer : (Except.ok operation : Except BackendError Operation) = answer at hTurn
  cases hTurn with
  | reset => exact evolves_reset c.sink m.generation
  | retired hOperation | snapshot hOperation | idle hOperation | unmapped hOperation
  | delivered _ _ hOperation => simp [hReset] at hOperation
  | refused => cases hAnswer

theorem deliver_evolves {code : KeyCode} (hValue : m.event.value = 0 ∨ m.event.value = 1)
    (hCode : fromEvdev m.event.code = some code) :
    Evolves (Decides m.generation m.event (c.deliver matcherSink m code focus).2) c.matcher?
      (c.deliver matcherSink m code focus).1.matcher? := by
  refine .mono (evolves_event c.sink _ _ focus) ?_
  intro a b hAnswers
  have hKind (hKey : code.isModifier = false) := modifier_isEmpty hCode hKey
  refine ⟨?_, ?_, ?_, ?_⟩
  · intro p hOther
    refine hAnswers.others p ?_
    rintro rfl
    exact hOther rfl
  · intro other hUntouched
    refine .inl (hAnswers.others _ ?_)
    intro hSame
    cases hSame
    rcases hUntouched with hNeither | hCode'
    · omega
    · exact hCode' hCode
  · intro other hUp hCode' hKey
    cases hCode.symm.trans hCode'
    refine hAnswers.released ?_
    simp [hKind hKey, hUp]
  · intro other hDown hCode' hKey hFree
    cases hCode.symm.trans hCode'
    have hPressed := hAnswers.pressed (by simp [hKind hKey, hDown]) hFree
    rcases hPressed with hFreed | ⟨hOwner, hVerdict⟩ | ⟨hOwner, hVerdict⟩
    · exact .inl hFreed
    · refine .inr (.inl ⟨hOwner, ?_⟩)
      simp only [deliver, hVerdict, if_true]
    · refine .inr (.inr ⟨hOwner, ?_⟩)
      simp only [deliver, hVerdict]
      rfl

theorem Turn.decides (hTurn : Turn matcherSink c m focus c' (.ok operation))
    (hEvent : m.operation = .event) (hKey : m.event.isKey = true) :
    Evolves (Decides m.generation m.event operation) c.matcher? c'.matcher? := by
  have hIdle (hUntouched : ∀ code, (m.event.value ≠ 0 ∧ m.event.value ≠ 1) ∨
      fromEvdev m.event.code ≠ some code) :
      Evolves (Decides m.generation m.event operation) c.matcher? c.matcher? := by
    intro b hSome
    refine ⟨b, hSome, fun hSettled => ⟨hSettled, ?_⟩⟩
    refine ⟨fun _ _ => rfl, fun _ _ => .inl rfl, ?_, ?_⟩
    · intro code hValue hCode
      have := hUntouched code
      tauto
    · intro code hValue hCode
      have := hUntouched code
      tauto
  generalize hAnswer : (Except.ok operation : Except BackendError Operation) = answer at hTurn
  cases hTurn with
  | reset hOperation | retired hOperation | snapshot hOperation => simp [hEvent] at hOperation
  | refused => cases hAnswer
  | idle _ hNot =>
    refine hIdle (fun code => .inl ?_)
    constructor <;> intro hValue <;>
      exact hNot ⟨hKey, by omega⟩
  | unmapped _ _ _ hCode =>
    refine hIdle (fun code => .inr ?_)
    rw [hCode]
    exact (Option.some_ne_none code).symm
  | delivered code held _ _ hValue hCode hHeld =>
    cases hAnswer
    subst hHeld
    exact deliver_evolves hValue hCode

end Client

variable {e e' : ClientEnd (Option MatcherSink)} {m : Message} {decision : Operation}

theorem Took.matcher (hTook : Took matcherSink m e e' decision) :
    ∃ c c' : Client (Option MatcherSink), e.matcher? = c.matcher? ∧
        Client.Turn matcherSink (c.accept matcherSink m) m (e.foci.headD none) c' (.ok decision) ∧
        e'.matcher? = c'.matcher? := by
  rcases hTook with ⟨state, x, c', hLoop, hTurn, hPeer⟩
  refine ⟨⟨state, x, []⟩, c', ?_, hTurn, ?_⟩
  · rw [ClientEnd.matcher?, hLoop]
    rfl
  · rw [hPeer]
    rfl

theorem Took.evolves (hTook : Took matcherSink m e e' decision) (hOther : m.operation ≠ .event) :
    Evolves (Frees m.generation) e.matcher? e'.matcher? := by
  rcases hTook.matcher with ⟨c, c', hBefore, hTurn, hAfter⟩
  rw [hBefore, hAfter]
  exact c.accept_evolves.comp (hTurn.evolves hOther) (fun _ _ _ => .trans)

theorem Took.clears (hTook : Took matcherSink m e e' decision) (hReset : m.operation = .deviceReset) :
    Evolves (Clears m.generation) e.matcher? e'.matcher? := by
  rcases hTook.matcher with ⟨c, c', hBefore, hTurn, hAfter⟩
  rw [hBefore, hAfter]
  exact c.accept_evolves.comp (hTurn.clears hReset) (fun _ _ _ => Frees.clears)

theorem Took.decides (hTook : Took matcherSink m e e' decision) (hEvent : m.operation = .event)
    (hKey : m.event.isKey = true) :
    Evolves (Decides m.generation m.event decision) e.matcher? e'.matcher? := by
  rcases hTook.matcher with ⟨c, c', hBefore, hTurn, hAfter⟩
  rw [hBefore, hAfter]
  exact c.accept_evolves.comp (hTurn.decides hEvent hKey) (fun _ _ _ => Frees.decides)

-----
-- Owners And Key States

open Linux (fromEvdev_injective)
open Ordered

namespace KeyState

variable {s s' : KeyState} {event : RawEvent} {output : List RawEvent}

/- The keys that answer for presses of an owner. -/
def ownedBy (s : KeyState) : Owner → Finset Nat
  | .free => ∅
  | .swallowed => s.swallowed
  | .forwarded => s.output

theorem Owned.ownedBy_subset (hOwned : s.Owned) (owner : Owner) : s.ownedBy owner ⊆ s.physical := by
  cases owner with
  | free => exact Finset.empty_subset _
  | swallowed => exact hOwned.swallowed
  | forwarded => exact hOwned.output

theorem SameKeys.ownedBy (hSame : s.SameKeys s') (owner : Owner) :
    s'.ownedBy owner = s.ownedBy owner := by
  cases owner with
  | free => rfl
  | swallowed => exact hSame.swallowed
  | forwarded => exact hSame.output

theorem Owned.of_sameKeys (hOwned : s.Owned) (hSame : s.SameKeys s') : s'.Owned := by
  refine ⟨?_, ?_⟩
  · rw [hSame.output, hSame.physical]
    exact hOwned.output
  · rw [hSame.swallowed, hSame.physical]
    exact hOwned.swallowed

/- A key that is not released keeps its place. -/
theorem Applies.keeps {code : Nat} {owner : Owner} (hApplies : s.Applies event decision s' output)
    (hOther : event.value ≠ 0 ∨ code ≠ event.code) (hMem : code ∈ s.ownedBy owner) :
    code ∈ s'.ownedBy owner := by
  cases hApplies with
  | ignored | forwarded | repeated => exact hMem
  | dropped => cases owner <;> exact hMem
  | released _ _ hValue =>
    have hCode : code ≠ event.code := by tauto
    cases owner with
    | free => exact hMem
    | swallowed | forwarded => exact Finset.mem_erase.mpr ⟨hCode, hMem⟩
  | pressed =>
    cases owner with
    | forwarded => exact Finset.mem_insert_of_mem hMem
    | _ => exact hMem
  | swallowed =>
    cases owner with
    | swallowed => exact Finset.mem_insert_of_mem hMem
    | _ => exact hMem

/- What passing a fresh press does. -/
theorem apply_pass (hKey : event.isKey = true) (hValue : event.value = 1)
    (hRange : event.code ≤ maxKey) (hFresh : event.code ∉ s.physical) (hOpen : s.dropping = false) :
    (s.apply event .pass).1.output = insert event.code s.output := by
  simp [apply, Operation.isDecision, not_dropped_of_key hKey, hOpen, hKey, hValue,
    Nat.not_lt.mpr hRange, press, hFresh]

/- Every owned press of a device has its key in its place. -/
def Backs (s : KeyState) (generation : Nat) (n : Matcher) : Prop :=
  ∀ key, key.isModifier = false → n.owner (⟨generation⟩, key) ≠ .free →
    ∃ code, fromEvdev code = some key ∧ code ∈ s.ownedBy (n.owner (⟨generation⟩, key))

variable {n n' : Matcher}

theorem Backs.of_sameKeys (hBacks : s.Backs generation n) (hSame : s.SameKeys s') :
    s'.Backs generation n := by
  intro key hPlain hOwned
  rw [hSame.ownedBy]
  exact hBacks key hPlain hOwned

theorem Backs.of_owners (hBacks : s.Backs generation n)
    (hOwners : ∀ key, n'.owner (⟨generation⟩, key) = n.owner (⟨generation⟩, key)) :
    s.Backs generation n' := by
  intro key hPlain hOwned
  rw [hOwners] at hOwned ⊢
  exact hBacks key hPlain hOwned

theorem backs_of_clears (hFree : ∀ key, n.owner (⟨generation⟩, key) = .free) :
    s.Backs generation n :=
  fun key _ hOwned => absurd (hFree key) hOwned

/- A key that is not held belongs to nobody. -/
theorem Backs.free {code : Nat} {key : KeyCode} (hBacks : s.Backs generation n) (hOwned : s.Owned)
    (hCode : fromEvdev code = some key) (hPlain : key.isModifier = false)
    (hFresh : code ∉ s.physical) : n.owner (⟨generation⟩, key) = .free := by
  by_contra hOwner
  rcases hBacks key hPlain hOwner with ⟨held, hHeld, hMem⟩
  cases fromEvdev_injective hCode hHeld
  exact hFresh (hOwned.ownedBy_subset _ hMem)

/- A decided key is owned alike on both sides. -/
theorem Backs.apply (hBacks : s.Backs generation n) (hOwned : s.Owned)
    (hDecides : Decides generation event decision n n') (hOpen : s.dropping = false)
    (hKey : event.isKey = true) (hFresh : event.value = 1 → event.code ∉ s.physical) :
    (s.apply event decision).1.Backs generation n' := by
  have hApplies := s.apply_applies event decision
  intro key hPlain hOwner
  by_cases hUntouched : (event.value ≠ 0 ∧ event.value ≠ 1) ∨ fromEvdev event.code ≠ some key
  · -- The key of the press is not touched here.
    rcases hDecides.kept key hUntouched with hSame | hFree
    swap
    · exact absurd hFree hOwner
    rw [hSame] at hOwner ⊢
    rcases hBacks key hPlain hOwner with ⟨code, hCode, hMem⟩
    refine ⟨code, hCode, hApplies.keeps ?_ hMem⟩
    rcases hUntouched with hValue | hOther
    · exact .inl hValue.1
    · refine .inr ?_
      rintro rfl
      exact hOther hCode
  push Not at hUntouched
  rcases hUntouched with ⟨hValue, hCode⟩
  by_cases hUp : event.value = 0
  · exact absurd (hDecides.released key hUp hCode hPlain) hOwner
  have hDown := hValue hUp
  have hRange := fromEvdev_le hCode
  have hFree := hBacks.free hOwned hCode hPlain (hFresh hDown)
  refine ⟨event.code, hCode, ?_⟩
  rcases hDecides.pressed key hDown hCode hPlain hFree with
    hFreed | ⟨hSwallowed, rfl⟩ | ⟨hForwarded, rfl⟩
  · exact absurd hFreed hOwner
  · rw [hSwallowed, apply_swallow hKey hDown hRange (hFresh hDown) hOpen]
    exact Finset.mem_insert_self _ _
  · rw [hForwarded, ownedBy, apply_pass hKey hDown hRange (hFresh hDown) hOpen]
    exact Finset.mem_insert_self _ _

end KeyState

-----
-- Handled Events

/-
  Events of the widths of an event record, in which a key is pressed only where it is up.
-/
structure DeviceProxy.Strikes (p : DeviceProxy) (i : Incoming) : Prop where
  raw : i.raw.Fits
  keys : ∀ keys, i.keys = .ok keys → ∀ code ∈ keys, code < 2 ^ 16
  pressed : i.raw.isKey = true → i.raw.value = 1 → i.raw.code ∉ p.state.physical

/- The keys of a proxy that is not dropping are owned. -/
def DeviceProxy.Steady (p : DeviceProxy) (n : Option Matcher) : Prop :=
  p.state.dropping = false → p.state.Owned ∧ ∀ m, n = some m → p.state.Backs p.generation m

namespace Session

variable {s s' : Session (ClientEnd (Option MatcherSink))} {i : Incoming}

theorem control_evolves {operation : Operation} {event : RawEvent}
    (hControl : s.control (clientSocket matcherSink) operation event = (s', .ok ()))
    (hEvent : event.Fits) (hOther : operation ≠ .event) :
    Evolves (Frees s.proxy.generation) s.peer.matcher? s'.peer.matcher? := by
  rcases control_answered hControl hEvent with ⟨_, decision, hTook⟩
  exact hTook.evolves hOther

theorem snapshotKeys_evolves {codes : List Nat}
    (hTold : snapshotKeys (clientSocket matcherSink) s codes = (s', .ok ()))
    (hCodes : ∀ code ∈ codes, code < 2 ^ 16) :
    Evolves (Frees s.proxy.generation) s.peer.matcher? s'.peer.matcher? := by
  induction codes generalizing s with
  | nil =>
    cases hTold
    exact evolves_refl
  | cons code codes ih =>
    rcases List.forall_mem_cons.mp hCodes with ⟨hFirst, hRest⟩
    unfold snapshotKeys at hTold
    split at hTold
    · cases hTold
    rename_i told hControl
    have hEvent : (key code 1).Fits := ⟨by simp [key], hFirst, by simp [key], by simp [key]⟩
    have hProxy := (control_answered hControl hEvent).1
    have hLater := ih hTold hRest
    rw [hProxy] at hLater
    exact (control_evolves hControl hEvent (by decide)).comp hLater (fun _ _ _ => .trans)

/- The end of a dropped episode leaves no owned press. -/
theorem resynchronise_steady (hResync : s.resynchronise (clientSocket matcherSink) i = (s', .ok ()))
    (hStrikes : s.proxy.Strikes i) :
    Evolves (Clears s.proxy.generation) s.peer.matcher? s'.peer.matcher? ∧ s'.proxy.state.Owned := by
  rcases resynchronise_ok hResync with ⟨keys, reset, told, hKeys, _, hReset, hTold, rfl⟩
  rcases control_answered hReset RawEvent.fits_default with ⟨hProxy, decision, hTook⟩
  have hFirst := hTook.clears rfl
  have hCodes : ∀ code ∈ ascending keys, code < 2 ^ 16 := fun code hMem =>
      hStrikes.keys keys hKeys code (mem_ascending.mp hMem)
  have hSecond := snapshotKeys_evolves hTold hCodes
  have hToldProxy := (snapshotKeys_conversed hTold).proxy
  rw [hProxy] at hSecond
  refine ⟨?_, ?_⟩
  · exact hFirst.comp hSecond (fun _ _ _ => .frees)
  · have hOwned := s.proxy.state.resync_owned keys
    rw [hToldProxy, hProxy]
    exact ⟨hOwned.output, hOwned.swallowed⟩

theorem apply_unasked {p : DeviceProxy} {raw : RawEvent}
    (hUnasked : raw.isKey = true → p.state.dropping = true)
    (hOpen : ((p.rolledBack raw).state.apply raw .pass).1.dropping = false) :
    p.state.dropping = false ∧ ((p.rolledBack raw).state.apply raw .pass).1 = p.state := by
  cases hDropped : raw.isDropped with
  | true =>
    rw [apply_of_dropped hDropped rfl] at hOpen
    cases hOpen
  | false =>
    rw [rolledBack_of_not_dropped hDropped] at hOpen ⊢
    have hKept := (p.state.apply_applies raw .pass).kept hDropped
    have hDropping := hKept.2.1.symm.trans hOpen
    have hOther : raw.isKey = false := by
      by_contra hKey
      rw [hUnasked (by simpa using hKey)] at hDropping
      cases hDropping
    refine ⟨hDropping, ?_⟩
    simp [KeyState.apply, Operation.isDecision, hDropped, hDropping, hOther]

/- Any other event keeps the owned presses backed. -/
theorem settle_steady (hSettle : s.settle (clientSocket matcherSink) i = (s', .ok ()))
    (hStrikes : s.proxy.Strikes i) (hSettled : ∀ m, s.peer.matcher? = some m → m.Settled)
    (hSteady : s.proxy.Steady s.peer.matcher?) :
    Evolves (Spares s.proxy.generation) s.peer.matcher? s'.peer.matcher? ∧
      s'.proxy.Steady s'.peer.matcher? := by
  have hGeneration := (settle_advances hSettle).generation
  rcases settle_ok hSettle with ⟨decided, decision, _, hDecide, rfl⟩
  have hProxy := (decide_conversed hDecide).proxy
  have hDecided : (absorbAll
          { decided.proxy.rolledBack i.raw with
            state := ((decided.proxy.rolledBack i.raw).state.apply i.raw decision).1 }
          ((decided.proxy.rolledBack i.raw).state.apply i.raw decision).2).1 =
        (s.proxy.decided decided.proxy.sequence i.raw decision).1 := by
    have hRolled : decided.proxy.rolledBack i.raw =
        { s.proxy.rolledBack i.raw with sequence := decided.proxy.sequence } := by
      rw [hProxy]
      unfold rolledBack
      split_ifs <;> rfl
    rw [hRolled]
    rfl
  dsimp only at hGeneration ⊢
  rw [hDecided] at hGeneration ⊢
  have hSame := s.proxy.decided_sameKeys decided.proxy.sequence i.raw decision
  by_cases hAsks : i.raw.isKey = true ∧ s.proxy.state.dropping = false
  · -- The key was decided, and is applied as it was.
    have hTook := decide_answered hDecide hAsks.1 hAsks.2 hStrikes.raw
    have hDecides := hTook.decides rfl hAsks.1
    refine ⟨hDecides.mono (fun _ _ hDecided => hDecided.others), ?_⟩
    intro _
    rcases hSteady hAsks.2 with ⟨hOwned, hBacks⟩
    have hDropped := not_dropped_of_key hAsks.1
    rw [rolledBack_of_not_dropped hDropped] at hSame
    have hApplies := s.proxy.state.apply_applies i.raw decision
    refine ⟨(hApplies.owned hOwned).of_sameKeys hSame, ?_⟩
    intro n' hSome
    rcases hDecides n' hSome with ⟨n, hBefore, hStays⟩
    have hDecided := (hStays (hSettled n hBefore)).2
    rw [hGeneration]
    exact ((hBacks n hBefore).apply hOwned hDecided hAsks.2 hAsks.1
      (hStrikes.pressed hAsks.1)).of_sameKeys hSame
  · unfold Session.decide at hDecide
    rw [if_neg hAsks] at hDecide
    cases hDecide
    refine ⟨evolves_refl.mono (fun _ _ hFrees => hFrees.spares), ?_⟩
    intro hOpen
    have hUnasked : i.raw.isKey = true → s.proxy.state.dropping = true := by
      intro hKey
      by_contra hOther
      exact hAsks ⟨hKey, by simpa using hOther⟩
    rcases apply_unasked hUnasked (hSame.dropping.symm.trans hOpen) with ⟨hBefore, hState⟩
    rw [hState] at hSame
    rcases hSteady hBefore with ⟨hOwned, hBacks⟩
    refine ⟨hOwned.of_sameKeys hSame, ?_⟩
    intro n hSome
    rw [hGeneration]
    exact (hBacks n hSome).of_sameKeys hSame

theorem handle_steady (hHandle : s.handle (clientSocket matcherSink) i = (s', .ok ()))
    (hStrikes : s.proxy.Strikes i) (hSettled : ∀ m, s.peer.matcher? = some m → m.Settled)
    (hSteady : s.proxy.Steady s.peer.matcher?) :
    Evolves (Spares s.proxy.generation) s.peer.matcher? s'.peer.matcher? ∧
      s'.proxy.Steady s'.peer.matcher? := by
  rcases handle_ok hHandle with ⟨_, _, hResync⟩ | ⟨_, hSettle⟩
  · rcases resynchronise_steady hResync hStrikes with ⟨hClears, hOwned⟩
    have hGeneration := (resynchronise_advances hResync).generation
    refine ⟨hClears.mono (fun _ _ hCleared => hCleared.1.spares), ?_⟩
    intro _
    refine ⟨hOwned, ?_⟩
    intro n' hSome
    rcases hClears n' hSome with ⟨n, hBefore, hStays⟩
    rw [hGeneration]
    exact KeyState.backs_of_clears (hStays (hSettled n hBefore)).2.2
  · exact settle_steady hSettle hStrikes hSettled hSteady

end Session

-----
-- Steady Services

/- Calls for one device do not touch another. -/
theorem DeviceProxy.Steady.spared {p : DeviceProxy} {generation : Nat} {n n' : Option Matcher}
    (hSteady : p.Steady n) (hSpares : Evolves (Spares generation) n n')
    (hSettled : ∀ m, n = some m → m.Settled) (hOther : p.generation ≠ generation) :
    p.Steady n' := by
  intro hOpen
  rcases hSteady hOpen with ⟨hOwned, hBacks⟩
  refine ⟨hOwned, ?_⟩
  intro b hSome
  rcases hSpares b hSome with ⟨a, hBefore, hStays⟩
  refine (hBacks a hBefore).of_owners ?_
  intro key
  refine (hStays (hSettled a hBefore)).2 _ ?_
  intro hSame
  cases hSame
  exact hOther rfl

theorem Evolves.settled {R : Matcher → Matcher → Prop} {n n' : Option Matcher}
    (hEvolves : Evolves R n n') (hSettled : ∀ m, n = some m → m.Settled) :
    ∀ m, n' = some m → m.Settled := by
  intro b hSome
  rcases hEvolves b hSome with ⟨a, hBefore, hStays⟩
  exact (hStays (hSettled a hBefore)).1

namespace Service

open Session

variable {w w' : Service (ClientEnd (Option MatcherSink))}

/- The matcher's presses are owned by the proxies. -/
structure Steady (w : Service (ClientEnd (Option MatcherSink))) : Prop where
  issued : w.Issued
  settled : ∀ m, w.peer.matcher? = some m → m.Settled
  held : ∀ held ∈ w.proxies, held.2.Steady w.peer.matcher?

theorem Move.steady (hMove : Move (clientSocket matcherSink) Strikes w w')
    (hSteady : w.Steady) : w'.Steady := by
  have hIssued := hMove.issued hSteady.issued
  cases hMove with
  | retire front back identity proxy cleanup s hProxies hTold =>
    have hOutputs := (w.session proxy).bypass_outputs cleanup
    have hEvolves := control_evolves hTold RawEvent.fits_default (by decide)
    rw [hOutputs.generation, hOutputs.peer] at hEvolves
    have hSpares := hEvolves.mono (fun _ _ hFrees => hFrees.spares)
    have hPeer : (s.bypass cleanup).peer.matcher? = s.peer.matcher? := by
      rw [(s.bypass_outputs cleanup).peer]
    refine ⟨hIssued, ?_, ?_⟩
    · change ∀ m, (s.bypass cleanup).peer.matcher? = some m → m.Settled
      rw [hPeer]
      exact hEvolves.settled hSteady.settled
    · intro held hHeld
      rcases (hSteady.issued.held hProxies).2.2 held hHeld with ⟨hMem, hOther⟩
      change held.2.Steady (s.bypass cleanup).peer.matcher?
      rw [hPeer]
      exact (hSteady.held held hMem).spared hSpares hSteady.settled hOther
  | announce front back identity s hProxies _ hBound hRoom hTold =>
    rcases control_answered hTold RawEvent.fits_default with ⟨hProxy, decision, hTook⟩
    have hClears := hTook.clears rfl
    have hSpares := hClears.mono (fun _ _ hCleared => hCleared.1.spares)
    refine ⟨hIssued, hClears.settled hSteady.settled, ?_⟩
    intro held hHeld
    rcases List.mem_cons.mp (List.perm_middle.mem_iff.mp hHeld) with rfl | hRest
    · intro _
      rw [hProxy]
      refine ⟨⟨Finset.empty_subset _, Finset.empty_subset _⟩, ?_⟩
      intro n' hSome
      rcases hClears n' hSome with ⟨n, hBefore, hStays⟩
      exact KeyState.backs_of_clears (hStays (hSteady.settled n hBefore)).2.2
    · have hMem : held ∈ w.proxies := hProxies ▸ hRest
      have hOlder := hSteady.issued.numbered held hMem
      refine (hSteady.held held hMem).spared hSpares hSteady.settled ?_
      change held.2.generation ≠ w.generation + 1
      omega
  | handle front back identity proxy i s hProxies hInput hHandled =>
      have hMem : (identity, proxy) ∈ w.proxies := by simp [hProxies]
      rcases handle_steady hHandled hInput hSteady.settled (hSteady.held _ hMem) with
        ⟨hSpares, hProxy⟩
      refine ⟨hIssued, hSpares.settled hSteady.settled, ?_⟩
      intro held hHeld
      rcases List.mem_cons.mp (List.perm_middle.mem_iff.mp hHeld) with rfl | hRest
      · exact hProxy
      · rcases (hSteady.issued.held hProxies).2.2 held hRest with ⟨hMem, hOther⟩
        exact (hSteady.held held hMem).spared hSpares hSteady.settled hOther

theorem Path.steady (hPath : Path (clientSocket matcherSink) Strikes w w')
    (hSteady : w.Steady) : w'.Steady := by
  induction hPath with
  | refl => exact hSteady
  | tail _ hMove ih => exact hMove.steady ih

/- The daemon's end of the socket before any request. -/
def daemonEnd (rules : RuleSet) (aliases : Dict String Config.AppAlias)
    (ahead : Nat → Daemon.Linux.Occasion) (foci : List (Option String)) :
    ClientEnd (Option MatcherSink) where
  loop := some (.default, some ⟨.new rules aliases, ahead⟩)
  foci := foci

theorem start_steady (rules : RuleSet) (aliases : Dict String Config.AppAlias)
    (ahead : Nat → Daemon.Linux.Occasion) (foci : List (Option String)) :
    (start (daemonEnd rules aliases ahead foci)).Steady := by
  refine ⟨(start_issued _).2, ?_, ?_⟩
  · intro m hSome
    cases hSome
    exact Matcher.new_settled rules
  · intro held hHeld
    cases hHeld

/-
  What the matcher owns is owned by the broker, for every device whose state is not
  dropping, and no replacement waits for its report.
-/
theorem matcher_owned {rules : RuleSet} {aliases : Dict String Config.AppAlias}
    {ahead : Nat → Daemon.Linux.Occasion} {foci : List (Option String)} {m : Matcher}
    (hPath : Path (clientSocket matcherSink) Strikes
        (start (daemonEnd rules aliases ahead foci)) w) (hServes : w.peer.matcher? = some m) :
    m.pendingDeliveries = ∅ ∧
    ∀ held ∈ w.proxies, held.2.state.dropping = false → ∀ key, key.isModifier = false →
        ((⟨held.2.generation⟩, key) ∈ m.swallowedDowns → ∃ code, fromEvdev code = some key ∧
            code ∈ held.2.state.swallowed) ∧
        ((⟨held.2.generation⟩, key) ∈ m.forwardedDowns → ∃ code, fromEvdev code = some key ∧
            code ∈ held.2.state.output) := by
  have hSteady := Path.steady hPath (start_steady rules aliases ahead foci)
  have hSettled := hSteady.settled m hServes
  refine ⟨hSettled.pendingDeliveries, ?_⟩
  intro held hHeld hOpen key hPlain
  have hBacks := (hSteady.held held hHeld hOpen).2 m hServes
  constructor
  · intro hMem
    rw [Matcher.mem_swallowedDowns_iff] at hMem
    have hOwned := hBacks key hPlain (by simp [hMem])
    rwa [hMem] at hOwned
  · intro hMem
    rw [Matcher.mem_forwardedDowns_iff hSettled.coherent] at hMem
    have hOwned := hBacks key hPlain (by simp [hMem])
    rwa [hMem] at hOwned

/- K sends T, and every injection succeeds. -/
def remapped : ClientEnd (Option MatcherSink) :=
  daemonEnd (RuleSet.new [⟨.hotkey ⟨.keyK, .empty⟩, .sendKey .keyT .empty, none⟩]) ∅ (fun _ =>
      { reloads := [], desktop := none, now := 0, sources := none, inject := fun _ => .ok () })
    []

/- The keyboard is announced. -/
def announced : Session (ClientEnd (Option MatcherSink)) :=
  (resetClient (clientSocket matcherSink) ((start remapped).session (activeProxy 1))).1

def admitted : Service (ClientEnd (Option MatcherSink)) :=
  (((start remapped).withGeneration 1).withProxies [(keyboard, announced.proxy)]).resume announced

/- K goes down on it. -/
def struck : Session (ClientEnd (Option MatcherSink)) :=
  (handle (clientSocket matcherSink) (admitted.session announced.proxy)
    (.plain (Broker.key 37 1) ∅)).1

def struckService : Service (ClientEnd (Option MatcherSink)) :=
  (admitted.withProxies [(keyboard, struck.proxy)]).resume struck

theorem matcher_owned_remapped :
    ∃ m, struckService.peer.matcher? = some m ∧ (⟨1⟩, .keyK) ∈ m.swallowedDowns ∧
        m.pendingDeliveries = ∅ ∧
        ∃ code, fromEvdev code = some .keyK ∧ code ∈ struck.proxy.state.swallowed := by
  have hEvaluated : (resetClient (clientSocket matcherSink)
          ((start remapped).session (activeProxy 1))).2 =
        .ok () ∧
      (handle (clientSocket matcherSink) (admitted.session announced.proxy)
          (.plain (Broker.key 37 1) ∅)).2 =
        .ok () ∧
      struckService.peer.matcher?.any (fun m =>
            decide ((⟨1⟩, .keyK) ∈ m.swallowedDowns)) =
          true ∧
        37 ∉ announced.proxy.state.physical ∧
        struck.proxy.generation = 1 ∧
        struck.proxy.state.dropping = false := by
    decide +kernel
  rcases hEvaluated with ⟨hTold, hHandled, hOwned, hFresh, hGeneration, hOpen⟩
  have hAdmit : Move (clientSocket matcherSink) Strikes (start remapped) admitted :=
    Move.announce [] [] keyboard announced rfl (fun held hHeld => by cases hHeld) (by decide)
      (Nat.one_lt_two_pow (by decide)) (Prod.ext rfl hTold)
  have hStrikes : announced.proxy.Strikes (.plain (Broker.key 37 1) ∅) := by
    refine ⟨⟨by decide, by decide, by decide, by decide⟩, ?_, ?_⟩
    · intro keys hKeys code hMem
      cases hKeys
      cases hMem
    · intro _ _
      exact hFresh
  have hHandle : Move (clientSocket matcherSink) Strikes admitted struckService :=
    Move.handle [] [] keyboard announced.proxy _ struck rfl hStrikes (Prod.ext rfl hHandled)
  rw [Option.any_eq_true] at hOwned
  rcases hOwned with ⟨m, hServes, hMem⟩
  have hMem := of_decide_eq_true hMem
  rcases matcher_owned ((Relation.ReflTransGen.single hAdmit).tail hHandle) hServes with
    ⟨hIdle, hBacked⟩
  have hKey := hBacked (keyboard, struck.proxy) (List.mem_singleton_self _) hOpen .keyK rfl
  rw [hGeneration] at hKey
  exact ⟨m, hServes, hMem, hIdle, hKey.1 hMem⟩

end Service

end Sledge.Broker
