import Sledge.Broker.Proxy

/-
  Discovery and the proxies of all keyboards
  (`packages/linux/src/lifecycle.rs`).

  A round reconciles the proxies with the keyboards that are
  found, and pumps every proxy.  What a round meets outside
  the broker is given from outside.  A round that succeeds is
  a path of moves, each of which retires a proxy, admits one,
  or handles one event; a round that fails is such a path up
  to the call that failed, and the cleanup after it.

  Main results:
    * `Service.step_ends`
-/

-----
-- Rounds

namespace Sledge.Broker

open Linux (IoError)

structure PeerIdentity where
  uid : Nat
  pid : Int
deriving DecidableEq

structure SessionProof where
  peer : PeerIdentity
  seat : String
  session : String
  active : Bool
  unlocked : Option Bool
  isLocal : Bool
deriving DecidableEq

/- An unknown lock state is denied, as are remote sessions. -/
def SessionProof.permits (proof : SessionProof) (peer : PeerIdentity) : Bool :=
  proof.peer == peer && peer.uid != 0 && decide (0 < peer.pid) && proof.isLocal && proof.active &&
    proof.unlocked == some true &&
    proof.seat != "" && proof.session != ""

structure DeviceIdentity where
  path : String
  device : Nat
  inode : Nat
  rdev : Nat
  seat : String
deriving DecidableEq

/- What opening and grabbing a keyboard meets. -/
structure Admission where
  opened : Except IoError (Nat × Nat × Nat)
  authorized : Except IoError Unit
  activated : Except IoError Unit

/- What one round meets outside the broker. -/
structure Round where
  peer : Except IoError PeerIdentity
  proof : Except IoError SessionProof
  found : Except IoError (List DeviceIdentity)
  admission : DeviceIdentity → Admission
  ready : DeviceIdentity → Except IoError Unit
  fetched : DeviceIdentity → Except IoError (List Incoming)
  cleanup : Except IoError Unit

/- The keyboards with proof of their seat, 64 at most. -/
def discoverKeyboards (found : Except IoError (List DeviceIdentity)) :
    Except IoError (List DeviceIdentity) :=
  match found with
  | .error error => .error error
  | .ok devices =>
    if 64 < devices.length then
      .error (denied "keyboard discovery exceeds bound")
    else .ok devices

abbrev Held := DeviceIdentity × DeviceProxy

/- The proxies, in the order of their paths. -/
structure ProxyLifecycle where
  proxies : List Held
  generation : Nat

/- A lifecycle, the other end of the socket, and the log. -/
structure Service (C : Type) extends ProxyLifecycle where
  peer : C
  log : List Record

/- Take the proxy of a path out. -/
def extract (path : String) : List Held → Option (DeviceProxy × List Held)
  | [] => none
  | held :: rest =>
    if held.1.path = path then some (held.2, rest)
    else
      (extract path rest).map (fun found =>
        (found.1, held :: found.2))

/- Insert a proxy at the place of its path. -/
def place (entry : Held) : List Held → List Held
  | [] => [entry]
  | held :: rest =>
    if entry.1.path < held.1.path then entry :: held :: rest
    else held :: place entry rest

namespace Session

variable {C : Type}

/- Handle the fetched events until one fails. -/
def handleAll (socket : Socket C) : Session C → List Incoming → Session C × Except IoError Unit
  | s, [] => (s, .ok ())
  | s, i :: rest =>
    match s.handle socket i with
    | (s, .error error) => (s, .error error)
    | (s, .ok ()) => handleAll socket s rest

def pumpInner (socket : Socket C) (s : Session C) (ready : Except IoError Unit)
    (fetched : Except IoError (List Incoming)) : Session C × Except IoError Unit :=
  match ready with
  | .error error => (s, .error error)
  | .ok () =>
    if ¬ s.proxy.grabbed then
      (s, .error (denied "proxy is not active"))
    else
      match fetched with
      | .error error => (s, .error error)
      | .ok events =>
        if 256 < events.length then
          (s, .error (denied "input batch exceeds bound"))
        else s.handleAll socket events

/- Any failure tears the capture down. -/
def pump (socket : Socket C) (s : Session C) (ready : Except IoError Unit)
    (fetched : Except IoError (List Incoming)) (cleanup : Except IoError Unit) :
    Session C × Except IoError Unit :=
  match s.pumpInner socket ready fetched with
  | (s, .ok ()) => (s, .ok ())
  | (s, .error error) => (s.bypass cleanup, .error error)

end Session

namespace Service

variable {C : Type}

/- A service before its first round. -/
def start (peer : C) : Service C where
  proxies := []
  generation := 0
  peer := peer
  log := []

/- One proxy at the socket. -/
def session (w : Service C) (proxy : DeviceProxy) : Session C := ⟨proxy, w.peer, w.log⟩

/- The socket and the log after a proxy was at it. -/
def resume (w : Service C) (s : Session C) : Service C := { w with peer := s.peer, log := s.log }

def withProxies (w : Service C) (proxies : List Held) : Service C := { w with proxies := proxies }

def withGeneration (w : Service C) (generation : Nat) : Service C :=
  { w with generation := generation }

/- Dropped proxies release what they put out. -/
def dropAll (cleanup : Except IoError Unit) : Service C → List Held → Service C
  | w, [] => w.withProxies []
  | w, held :: rest => dropAll cleanup (w.resume ((w.session held.2).bypass cleanup)) rest

def clear (w : Service C) (cleanup : Except IoError Unit) : Service C := dropAll cleanup w w.proxies

def retireAll (socket : Socket C) (cleanup : Except IoError Unit) :
    Service C → List String → Service C × Except IoError Unit
  | w, [] => (w, .ok ())
  | w, path :: paths =>
    match extract path w.proxies with
    | none => retireAll socket cleanup w paths
    | some (proxy, rest) =>
      let w := w.withProxies rest
      let s := (w.session proxy).bypass cleanup
      match s.retireClient socket with
      | (s, .error error) => (w.resume (s.bypass cleanup), .error error)
      | (s, .ok ()) => retireAll socket cleanup (w.resume (s.bypass cleanup)) paths

/- A proxy that has grabbed its input. -/
def activeProxy (generation : Nat) : DeviceProxy :=
  { DeviceProxy.new generation with grabbed := true }

/- Open, number, grab and announce one keyboard. -/
def admitOne (socket : Socket C) (r : Round) (w : Service C) (identity : DeviceIdentity) :
    Service C × Except IoError Unit :=
  let admission := r.admission identity
  match admission.opened with
  | .error error => (w, .error error)
  | .ok (device, inode, rdev) =>
    if device ≠ identity.device ∨ inode ≠ identity.inode ∨ rdev ≠ identity.rdev then
      (w, .error (denied "input identity changed during admission"))
    else
      match checkedAdd w.generation with
      | none => (w, .error (denied "generation exhausted"))
      | some generation =>
        let w := w.withGeneration generation
        match admission.authorized with
        | .error error => (w, .error error)
        | .ok () =>
          let s := w.session (activeProxy generation)
          match admission.activated with
          | .error error => (w.resume (s.bypass r.cleanup), .error error)
          | .ok () =>
            match s.resetClient socket with
            | (s, .error error) => (w.resume (s.bypass r.cleanup), .error error)
            | (s, .ok ()) =>
              ((w.withProxies (place (identity, s.proxy) w.proxies)).resume s, .ok ())

def admitAll (socket : Socket C) (r : Round) : Service C → List DeviceIdentity →
      Service C × Except IoError Unit
  | w, [] => (w, .ok ())
  | w, identity :: rest =>
    if w.proxies.any (·.1.path == identity.path) then
      admitAll socket r w rest
    else
      match w.admitOne socket r identity with
      | (w, .error error) => (w, .error error)
      | (w, .ok ()) => admitAll socket r w rest

/- The keyboard is gone or belongs to another seat. -/
def isRemoved (candidates : List DeviceIdentity) (seat : String) (held : Held) : Bool :=
  !candidates.contains held.1 || held.1.seat != seat

def reconcile (socket : Socket C) (r : Round) (w : Service C) (peer : PeerIdentity) :
    Service C × Except IoError Unit :=
  match r.proof with
  | .error error => (w, .error error)
  | .ok proof =>
    if ¬ proof.permits peer then
      (w.clear r.cleanup, .error (denied "strict session authorization unavailable"))
    else
      match discoverKeyboards r.found with
      | .error error => (w, .error error)
      | .ok candidates =>
        let removed := (w.proxies.filter (isRemoved candidates proof.seat)).map (·.1.path)
        match retireAll socket r.cleanup w removed with
        | (w, .error error) => (w, .error error)
        | (w, .ok ()) =>
          admitAll socket r w (candidates.filter (fun identity => identity.seat == proof.seat))

/- Pump the proxies that remain after those that are done. -/
def pumpAll (socket : Socket C) (r : Round) :
    Service C → List Held → List Held → Service C × Except IoError Unit
  | w, _, [] => (w, .ok ())
  | w, done, (identity, proxy) :: rest =>
    let pumped :=
      (w.session proxy).pump socket (r.ready identity) (r.fetched identity) r.cleanup
    let done := done ++ [(identity, pumped.1.proxy)]
    let w := (w.withProxies (done ++ rest)).resume pumped.1
    match pumped.2 with
    | .error error => (w, .error error)
    | .ok () => pumpAll socket r w done rest

def stepInner (socket : Socket C) (w : Service C) (r : Round) : Service C × Except IoError Unit :=
  match r.peer with
  | .error error => (w, .error error)
  | .ok peer =>
    match w.reconcile socket r peer with
    | (w, .error error) => (w, .error error)
    | (w, .ok ()) => pumpAll socket r w [] w.proxies

/- Any failure tears down every proxy. -/
def step (socket : Socket C) (w : Service C) (r : Round) :
    Option (Service C × Except IoError Unit) :=
  match w.stepInner socket r with
  | (w, .ok ()) => some (w, .ok ())
  | (w, .error error) => some (w.clear r.cleanup, .error error)

end Service

-----
-- Cleanup

/- Something that went to the virtual keyboard. -/
def Record.isOutput : Record → Bool
  | .queued _ => true
  | .emitted _ => true
  | _ => false

/- A log of output only. -/
def Played (log : List Record) : Prop := ∀ entry ∈ log, entry.isOutput = true

namespace Session

variable {C : Type} {s s' t : Session C} {accepted : Except IoError Unit}

/- The session only put something out. -/
structure Outputs (s s' : Session C) : Prop where
  peer : s'.peer = s.peer
  generation : s'.proxy.generation = s.proxy.generation
  epoch : s'.proxy.epoch = s.proxy.epoch
  sequence : s'.proxy.sequence = s.proxy.sequence
  log : ∃ played, s'.log = s.log ++ played ∧ Played played

theorem Outputs.refl (s : Session C) : s.Outputs s :=
  ⟨rfl, rfl, rfl, rfl, [], by simp, by simp [Played]⟩

theorem Outputs.trans (hFirst : s.Outputs t) (hSecond : t.Outputs s') : s.Outputs s' := by
  rcases hFirst.log with ⟨first, hLog, hPlayed⟩
  rcases hSecond.log with ⟨second, hLog', hPlayed'⟩
  refine ⟨hSecond.peer.trans hFirst.peer, hSecond.generation.trans hFirst.generation,
    hSecond.epoch.trans hFirst.epoch,
    hSecond.sequence.trans hFirst.sequence,
    first ++ second, ?_, ?_⟩
  · rw [hLog', hLog, List.append_assoc]
  · exact List.forall_mem_append.mpr ⟨hPlayed, hPlayed'⟩

theorem emitEvent_outputs {event : RawEvent} {result : Except IoError Unit}
    (hEmit : s.emitEvent accepted event = (s', result)) : s.Outputs s' := by
  unfold emitEvent at hEmit
  split_ifs at hEmit
  · split at hEmit
    · cases hEmit
      exact Outputs.refl s
    · cases hEmit
      exact ⟨rfl, rfl, rfl, rfl, _, rfl, by simp [Played, Record.isOutput]⟩
  · cases hEmit
    exact Outputs.refl s
  · cases hEmit
    exact ⟨rfl, rfl, rfl, rfl, _, rfl, by simp [Played, Record.isOutput]⟩
  · cases hEmit
    exact Outputs.refl s

theorem emit_outputs {events : List RawEvent} {result : Except IoError Unit}
    (hEmit : emit accepted s events = (s', result)) : s.Outputs s' := by
  induction events generalizing s with
  | nil =>
    cases hEmit
    exact .refl _
  | cons event events ih =>
    unfold emit at hEmit
    split at hEmit
    · rename_i first error hFirst
      cases hEmit
      exact emitEvent_outputs hFirst
    · rename_i first hFirst
      exact (emitEvent_outputs hFirst).trans (ih hEmit)

theorem bypass_outputs (s : Session C) (accepted : Except IoError Unit) :
    s.Outputs (s.bypass accepted) := by
  let cleared : Session C :=
    { s with
      proxy := { s.proxy with pending := [], state := s.proxy.state.releaseAll.1 } }
  let emitted := emit accepted cleared (s.proxy.state.releaseAll.2 ++ [.default])
  have hCleared : s.Outputs cleared :=
    ⟨rfl, rfl, rfl, rfl, [], by simp [cleared],
      by simp [Played]⟩
  have hEmitted : cleared.Outputs emitted.1 := emit_outputs (Prod.mk.eta).symm
  refine (hCleared.trans hEmitted).trans ?_
  exact ⟨rfl, rfl, rfl, rfl, [], (List.append_nil _).symm, by simp [Played]⟩

end Session

namespace Service

variable {C : Type} {w w' mid : Service C} {s : Session C}

/- What remains of a failed round after the call that failed. -/
structure Cleans (w w' : Service C) : Prop where
  peer : w'.peer = w.peer
  generation : w.generation ≤ w'.generation
  log : ∃ played, w'.log = w.log ++ played ∧ Played played

theorem Cleans.refl (w : Service C) : w.Cleans w := ⟨rfl, le_refl _, [], by simp, by simp [Played]⟩

theorem Cleans.trans (hFirst : w.Cleans mid) (hSecond : mid.Cleans w') : w.Cleans w' := by
  rcases hFirst.log with ⟨first, hLog, hPlayed⟩
  rcases hSecond.log with ⟨second, hLog', hPlayed'⟩
  refine ⟨hSecond.peer.trans hFirst.peer, hFirst.generation.trans hSecond.generation,
    first ++ second, ?_, ?_⟩
  · rw [hLog', hLog, List.append_assoc]
  · exact List.forall_mem_append.mpr ⟨hPlayed, hPlayed'⟩

theorem cleans_of_outputs {proxy : DeviceProxy} (hOutputs : (w.session proxy).Outputs s) :
    w.Cleans (w.resume s) :=
  ⟨hOutputs.peer, le_refl _, hOutputs.log⟩

theorem bypassed_cleans (s : Session C) (cleanup : Except IoError Unit)
    (hGeneration : w.generation ≤ w'.generation) :
    (w.resume s).Cleans (w'.resume (s.bypass cleanup)) := by
  have hOutputs := s.bypass_outputs cleanup
  exact ⟨hOutputs.peer, hGeneration, hOutputs.log⟩

theorem dropAll_cleans (cleanup : Except IoError Unit) (w : Service C) (proxies : List Held) :
    w.Cleans (dropAll cleanup w proxies) := by
  induction proxies generalizing w with
  | nil => exact ⟨rfl, le_refl _, [], (List.append_nil _).symm, by simp [Played]⟩
  | cons held rest ih =>
    exact (cleans_of_outputs ((w.session held.2).bypass_outputs cleanup)).trans (ih _)

theorem clear_cleans (w : Service C) (cleanup : Except IoError Unit) : w.Cleans (w.clear cleanup) :=
  dropAll_cleans cleanup w w.proxies

theorem dropAll_proxies (cleanup : Except IoError Unit) (w : Service C) (proxies : List Held) :
    (dropAll cleanup w proxies).proxies = [] := by
  induction proxies generalizing w with
  | nil => rfl
  | cons held rest ih => exact ih _

theorem clear_proxies (w : Service C) (cleanup : Except IoError Unit) :
    (w.clear cleanup).proxies = [] :=
  dropAll_proxies cleanup w w.proxies

end Service

-----
-- Moves

/- Every event of the round may reach any proxy. -/
def Round.Meets (r : Round) (P : DeviceProxy → Incoming → Prop) : Prop :=
  ∀ identity events, r.fetched identity = .ok events → ∀ i ∈ events, ∀ proxy, P proxy i

namespace Service

variable {C : Type}

/- One device is retired, admitted, or handles an event. -/
inductive Move (socket : Socket C) (P : DeviceProxy → Incoming → Prop) (w : Service C) :
    Service C → Prop where
  | retire (front back : List Held) (identity : DeviceIdentity) (proxy : DeviceProxy)
      (cleanup : Except IoError Unit)
      (s : Session C)
      (hProxies : w.proxies = front ++ (identity, proxy) :: back)
      (hTold : ((w.session proxy).bypass cleanup).retireClient socket = (s, .ok ())) :
      Move socket P w ((w.withProxies (front ++ back)).resume (s.bypass cleanup))
  | announce (front back : List Held) (identity : DeviceIdentity) (s : Session C)
      (hProxies : w.proxies = front ++ back)
      (hNew : ∀ held ∈ w.proxies, held.1.path ≠ identity.path)
      (hBound : w.proxies.length < 64)
      (hRoom : w.generation + 1 < 2 ^ 64)
      (hTold : (w.session (activeProxy (w.generation + 1))).resetClient socket = (s, .ok ())) :
      Move socket P w (((w.withGeneration (w.generation + 1)).withProxies
          (front ++ (identity, s.proxy) :: back)).resume s)
  | handle (front back : List Held) (identity : DeviceIdentity) (proxy : DeviceProxy) (i : Incoming)
      (s : Session C)
      (hProxies : w.proxies = front ++ (identity, proxy) :: back)
      (hInput : P proxy i)
      (hHandled : (w.session proxy).handle socket i = (s, .ok ())) :
      Move socket P w ((w.withProxies (front ++ (identity, s.proxy) :: back)).resume s)

/- The call that fails a round, if it used the socket. -/
inductive Fails (socket : Socket C) (P : DeviceProxy → Incoming → Prop) (w : Service C) :
    Service C → Prop where
  | quiet : Fails socket P w w
  | retire (front back : List Held) (identity : DeviceIdentity) (proxy : DeviceProxy)
      (cleanup : Except IoError Unit)
      (s : Session C)
      (error : IoError)
      (hProxies : w.proxies = front ++ (identity, proxy) :: back)
      (hTold : ((w.session proxy).bypass cleanup).retireClient socket = (s, .error error)) :
      Fails socket P w (w.resume s)
  | announce (s : Session C) (error : IoError) (hBound : w.proxies.length < 64)
      (hRoom : w.generation + 1 < 2 ^ 64)
      (hTold : (w.session (activeProxy (w.generation + 1))).resetClient socket =
          (s, .error error)) :
      Fails socket P w ((w.withGeneration (w.generation + 1)).resume s)
  | handle (front back : List Held) (identity : DeviceIdentity) (proxy : DeviceProxy) (i : Incoming)
      (s : Session C)
      (error : IoError)
      (hProxies : w.proxies = front ++ (identity, proxy) :: back)
      (hInput : P proxy i)
      (hHandled : (w.session proxy).handle socket i = (s, .error error)) :
      Fails socket P w (w.resume s)

abbrev Path (socket : Socket C) (P : DeviceProxy → Incoming → Prop) :=
  Relation.ReflTransGen (Move socket P)

/- How a part of a round that started at `w` ends. -/
def Ends (socket : Socket C) (P : DeviceProxy → Incoming → Prop) (w : Service C) :
    Service C × Except IoError Unit → Prop
  | (w', .ok ()) => Path socket P w w'
  | (w', .error _) =>
    ∃ mid failed, Path socket P w mid ∧ Fails socket P mid failed ∧ failed.Cleans w'

variable {socket : Socket C} {P : DeviceProxy → Incoming → Prop} {w w' mid : Service C}
variable {result : Except IoError Unit}

theorem Ends.after {ended : Service C × Except IoError Unit} (hPath : Path socket P w mid)
    (hEnds : Ends socket P mid ended) : Ends socket P w ended := by
  rcases ended with ⟨last, _ | _⟩
  · rcases hEnds with ⟨before, failed, hBefore, hFails⟩
    exact ⟨before, failed, hPath.trans hBefore, hFails⟩
  · exact hPath.trans hEnds

variable {error : IoError} {candidates : List DeviceIdentity} {r : Round} {s : Session C}

/- A failure without a word to the client. -/
theorem ends_quiet (hCleans : w.Cleans w') : Ends socket P w (w', .error error) :=
  ⟨w, w, Relation.ReflTransGen.refl, Fails.quiet, hCleans⟩

/- A failed part stays failed through more cleanup. -/
theorem Ends.cleans {error' : IoError} (hEnds : Ends socket P w (mid, .error error))
    (hCleans : mid.Cleans w') : Ends socket P w (w', .error error') := by
  rcases hEnds with ⟨before, failed, hPath, hFails, hBefore⟩
  exact ⟨before, failed, hPath, hFails, hBefore.trans hCleans⟩

theorem ends_refl : Ends socket P w (w, .ok ()) := Relation.ReflTransGen.refl

theorem ends_failed {failed : Service C} (hFails : Fails socket P w failed)
    (hCleans : failed.Cleans w') : Ends socket P w (w', .error error) :=
  ⟨w, failed, Relation.ReflTransGen.refl, hFails, hCleans⟩

theorem extract_split {path : String} {proxies rest : List Held} {proxy : DeviceProxy}
    (hSome : extract path proxies = some (proxy, rest)) :
    ∃ front identity back, proxies = front ++ (identity, proxy) :: back ∧
        rest = front ++ back ∧ identity.path = path := by
  induction proxies generalizing rest with
  | nil => cases hSome
  | cons held others ih =>
    unfold extract at hSome
    split_ifs at hSome with hPath
    · cases hSome
      exact ⟨[], held.1, _, rfl, rfl, hPath⟩
    · rcases Option.map_eq_some_iff.mp hSome with ⟨⟨found, remaining⟩, hFound, hPair⟩
      cases hPair
      rcases ih hFound with ⟨front, identity, back, rfl, rfl, hPath'⟩
      exact ⟨held :: front, identity, back, rfl, rfl, hPath'⟩

theorem extract_none {path : String} {proxies : List Held} {held : Held}
    (hNone : extract path proxies = none) (hMem : held ∈ proxies) : held.1.path ≠ path := by
  induction proxies with
  | nil => cases hMem
  | cons first rest ih =>
    unfold extract at hNone
    split_ifs at hNone with hPath
    rcases List.mem_cons.mp hMem with rfl | hRest
    · exact hPath
    · exact ih (Option.map_eq_none_iff.mp hNone) hRest

theorem place_split (entry : Held) (proxies : List Held) :
    ∃ front back, proxies = front ++ back ∧ place entry proxies = front ++ entry :: back := by
  induction proxies with
  | nil => exact ⟨[], [], rfl, rfl⟩
  | cons held rest ih =>
    unfold place
    split_ifs
    · exact ⟨[], held :: rest, rfl, rfl⟩
    · rcases ih with ⟨front, back, rfl, hPlaced⟩
      refine ⟨held :: front, back, rfl, ?_⟩
      rw [hPlaced]
      rfl

theorem retireAll_ends (cleanup : Except IoError Unit) (w : Service C) (paths : List String) :
    Ends socket P w (retireAll socket cleanup w paths) := by
  induction paths generalizing w with
  | nil => exact ends_refl
  | cons path paths ih =>
    unfold retireAll
    split
    · exact ih w
    rename_i proxy rest hExtract
    rcases extract_split hExtract with ⟨front, identity, back, hProxies, rfl, _⟩
    dsimp only
    split
    · rename_i s error hTold
      refine ends_failed (.retire front back identity proxy cleanup s error hProxies hTold) ?_
      exact bypassed_cleans s cleanup (le_refl _)
    · rename_i s hTold
      exact .after (.single
          (Move.retire front back identity proxy cleanup s hProxies hTold))
        (ih _)

/- No two proxies have the same path. -/
def Paths (w : Service C) : Prop := (w.proxies.map (·.1.path)).Nodup

theorem Move.paths (hMove : Move socket P w w') (hPaths : w.Paths) : w'.Paths := by
  unfold Paths at hPaths ⊢
  cases hMove with
  | retire front back identity proxy _ _ hProxies =>
    rw [hProxies] at hPaths
    refine hPaths.sublist (.map _ ?_)
    exact .append_left (List.sublist_cons_self _ _) _
  | announce front back identity _ hProxies hNew =>
    change ((front ++ (identity, _) :: back).map (·.1.path)).Nodup
    rw [hProxies] at hPaths hNew
    rw [List.map_append, List.map_cons, List.nodup_middle, List.nodup_cons, ← List.map_append]
    refine ⟨?_, hPaths⟩
    intro hMem
    rcases List.mem_map.mp hMem with ⟨held, hHeld, hSame⟩
    exact hNew held hHeld hSame
  | handle front back identity proxy _ s hProxies =>
    change ((front ++ (identity, s.proxy) :: back).map (·.1.path)).Nodup
    rw [hProxies] at hPaths
    simpa using hPaths

theorem Path.paths (hPath : Path socket P w w') (hPaths : w.Paths) : w'.Paths := by
  induction hPath with
  | refl => exact hPaths
  | tail _ hMove ih => exact hMove.paths ih

/- Retired paths are gone, and nothing is added. -/
theorem retireAll_proxies {cleanup : Except IoError Unit} {paths : List String} (hPaths : w.Paths)
    (hRetired : retireAll socket cleanup w paths = (w', .ok ())) :
    ∀ held ∈ w'.proxies, held ∈ w.proxies ∧ held.1.path ∉ paths := by
  induction paths generalizing w with
  | nil =>
    cases hRetired
    intro held hMem
    exact ⟨hMem, by simp⟩
  | cons path paths ih =>
    unfold retireAll at hRetired
    split at hRetired
    · rename_i hNone
      intro held hMem
      rcases ih hPaths hRetired held hMem with ⟨hOld, hOther⟩
      refine ⟨hOld, ?_⟩
      rw [List.mem_cons, not_or]
      refine ⟨?_, hOther⟩
      rintro rfl
      exact extract_none hNone hOld rfl
    rename_i proxy rest hExtract
    rcases extract_split hExtract with ⟨front, identity, back, hProxies, rfl, rfl⟩
    dsimp only at hRetired
    split at hRetired
    · cases hRetired
    · rename_i s hTold
      have hRest : Paths ((w.withProxies (front ++ back)).resume (s.bypass cleanup)) :=
        (Move.retire (P := fun _ _ => True) front back
          identity proxy cleanup s hProxies hTold).paths
          hPaths
      intro held hMem
      rcases ih hRest hRetired held hMem with ⟨hOld, hOther⟩
      change held ∈ front ++ back at hOld
      unfold Paths at hPaths
      rw [hProxies, List.map_append, List.map_cons, List.nodup_middle, ← List.map_append,
        List.nodup_cons] at hPaths
      refine ⟨?_, ?_⟩
      · rw [hProxies]
        simp only [List.mem_append, List.mem_cons] at hOld ⊢
        tauto
      · rw [List.mem_cons, not_or]
        refine ⟨?_, hOther⟩
        intro hSame
        exact hPaths.1 (List.mem_map.mpr ⟨held, hOld, hSame⟩)

/- All proxies are of keyboards that were found. -/
def Within (w : Service C) (candidates : List DeviceIdentity) : Prop :=
  ∀ held ∈ w.proxies, held.1 ∈ candidates

variable {identity : DeviceIdentity}

/- There is room for a keyboard without a proxy. -/
theorem Within.bound (hWithin : w.Within candidates) (hPaths : w.Paths)
    (hFound : identity ∈ candidates) (hNew : ∀ held ∈ w.proxies, held.1.path ≠ identity.path)
    (hCandidates : candidates.length ≤ 64) : w.proxies.length < 64 := by
  have hNodup : (identity :: w.proxies.map Prod.fst).Nodup := by
    rw [List.nodup_cons]
    constructor
    · intro hMem
      rcases List.mem_map.mp hMem with ⟨held, hHeld, rfl⟩
      exact hNew held hHeld rfl
    · refine List.Nodup.of_map DeviceIdentity.path ?_
      rw [List.map_map]
      exact hPaths
  have hSubset : identity :: w.proxies.map Prod.fst ⊆ candidates := by
    intro other hMem
    rcases List.mem_cons.mp hMem with rfl | hOld
    · exact hFound
    · rcases List.mem_map.mp hOld with ⟨held, hHeld, rfl⟩
      exact hWithin held hHeld
  have hLength := (hNodup.subperm hSubset).length_le
  simp only [List.length_cons, List.length_map] at hLength
  omega

theorem admitOne_ends
    (hNew : ∀ held ∈ w.proxies, held.1.path ≠ identity.path) (hBound : w.proxies.length < 64) :
    Ends socket P w (w.admitOne socket r identity) := by
  unfold admitOne
  dsimp only
  split
  · exact ends_quiet (.refl w)
  split_ifs
  · exact ends_quiet (.refl w)
  split
  · exact ends_quiet (.refl w)
  rename_i generation hGeneration
  unfold checkedAdd at hGeneration
  split_ifs at hGeneration with hRoom
  cases hGeneration
  have hNumbered : w.Cleans (w.withGeneration (w.generation + 1)) :=
    ⟨rfl, Nat.le_succ _, [], (List.append_nil _).symm, by simp [Played]⟩
  split
  · exact ends_quiet hNumbered
  split
  · refine ends_quiet (hNumbered.trans ?_)
    exact cleans_of_outputs (Session.bypass_outputs _ _)
  split
  · rename_i s error hTold
    exact ends_failed (.announce s error hBound hRoom hTold)
      (bypassed_cleans s r.cleanup (le_refl _))
  · rename_i s hTold
    rcases place_split (identity, s.proxy) w.proxies with ⟨front, back, hProxies, hPlaced⟩
    have hMove : Move socket P w _ := Move.announce front back identity s hProxies hNew hBound
        hRoom hTold
    rw [← hPlaced] at hMove
    exact .single hMove

theorem admitOne_proxies
    (hAdmitted : w.admitOne socket r identity = (w', .ok ())) :
    ∃ proxy, w'.proxies = place (identity, proxy) w.proxies := by
  unfold admitOne at hAdmitted
  dsimp only at hAdmitted
  split at hAdmitted
  · cases hAdmitted
  split_ifs at hAdmitted
  · cases hAdmitted
  split at hAdmitted
  · cases hAdmitted
  split at hAdmitted
  · cases hAdmitted
  split at hAdmitted
  · cases hAdmitted
  split at hAdmitted
  · cases hAdmitted
  · rename_i s hTold
    cases hAdmitted
    exact ⟨s.proxy, rfl⟩

theorem Within.admitOne (hWithin : w.Within candidates)
    (hFound : identity ∈ candidates) (hAdmitted : w.admitOne socket r identity = (w', .ok ())) :
    w'.Within candidates := by
  rcases admitOne_proxies hAdmitted with ⟨proxy, hPlaced⟩
  rcases place_split (identity, proxy) w.proxies with ⟨front, back, hProxies, hSplit⟩
  intro held hMem
  rw [hPlaced, hSplit, List.mem_append, List.mem_cons] at hMem
  rcases hMem with hFront | rfl | hBack
  · exact hWithin held (by simp [hProxies, hFront])
  · exact hFound
  · exact hWithin held (by simp [hProxies, hBack])

theorem admitAll_ends {identities : List DeviceIdentity} (hCandidates : candidates.length ≤ 64)
    (hFound : ∀ identity ∈ identities, identity ∈ candidates) (hWithin : w.Within candidates)
    (hPaths : w.Paths) : Ends socket P w (admitAll socket r w identities) := by
  induction identities generalizing w with
  | nil => exact ends_refl
  | cons identity rest ih =>
    rcases List.forall_mem_cons.mp hFound with ⟨hFirst, hRest⟩
    unfold admitAll
    split_ifs with hKnown
    · exact ih hRest hWithin hPaths
    have hNew : ∀ held ∈ w.proxies, held.1.path ≠ identity.path := by simpa using hKnown
    have hBound := hWithin.bound hPaths hFirst hNew hCandidates
    have hOne : Ends socket P w (w.admitOne socket r identity) := admitOne_ends hNew hBound
    split
    · rename_i next error hError
      rw [hError] at hOne
      exact hOne
    · rename_i next hOk
      rw [hOk] at hOne
      refine .after hOne (ih hRest ?_ (hOne.paths hPaths))
      exact .admitOne hWithin hFirst hOk

theorem reconcile_ends {peer : PeerIdentity} (hPaths : w.Paths) :
    Ends socket P w (w.reconcile socket r peer) := by
  unfold reconcile
  split
  · exact ends_quiet (.refl w)
  rename_i proof hProof
  by_cases hPermits : proof.permits peer = true
  swap
  · rw [if_pos hPermits]
    exact ends_quiet (clear_cleans w r.cleanup)
  rw [if_neg (not_not_intro hPermits)]
  split
  · exact ends_quiet (.refl w)
  rename_i candidates hDiscovered
  have hCandidates : candidates.length ≤ 64 := by
    unfold discoverKeyboards at hDiscovered
    split at hDiscovered
    · cases hDiscovered
    · split_ifs at hDiscovered with hMany
      cases hDiscovered
      omega
  let removed := (w.proxies.filter (isRemoved candidates proof.seat)).map (·.1.path)
  have hRetired : Ends socket P w (retireAll socket r.cleanup w removed) :=
    retireAll_ends r.cleanup w removed
  dsimp only
  split
  · rename_i next error hError
    rw [hError] at hRetired
    exact hRetired
  rename_i next hOk
  rw [hOk] at hRetired
  refine .after hRetired (admitAll_ends hCandidates ?_ ?_ (hRetired.paths hPaths))
  · intro identity hMem
    exact (List.mem_filter.mp hMem).1
  · intro held hMem
    rcases retireAll_proxies hPaths hOk held hMem with ⟨hOld, hKept⟩
    by_contra hGone
    refine hKept (List.mem_map.mpr ⟨held, ?_, rfl⟩)
    rw [List.mem_filter]
    exact ⟨hOld, by simp [isRemoved, hGone]⟩

variable {front back : List Held} {identity : DeviceIdentity} {proxy : DeviceProxy}

theorem resume_session (hProxies : w.proxies = front ++ (identity, proxy) :: back) :
    (w.withProxies (front ++ (identity, proxy) :: back)).resume (w.session proxy) = w := by
  rw [← hProxies]
  rfl

theorem handleAll_ends {events : List Incoming}
    (hProxies : w.proxies = front ++ (identity, proxy) :: back)
    (hInput : ∀ i ∈ events, ∀ proxy, P proxy i)
    (hHandled : (w.session proxy).handleAll socket events = (s, result)) :
    Ends socket P w ((w.withProxies (front ++ (identity, s.proxy) :: back)).resume s, result) := by
  induction events generalizing w proxy with
  | nil =>
    cases hHandled
    change Path socket P w ((w.withProxies (front ++ (identity, proxy) :: back)).resume
      (w.session proxy))
    rw [resume_session hProxies]
  | cons i rest ih =>
    rcases List.forall_mem_cons.mp hInput with ⟨hFirst, hRest⟩
    unfold Session.handleAll at hHandled
    split at hHandled
    · rename_i failed error hFailed
      cases hHandled
      refine ends_failed (.handle front back identity proxy i s error
        hProxies (hFirst proxy) hFailed) ?_
      exact ⟨rfl, le_refl _, [], (List.append_nil _).symm, by simp [Played]⟩
    · rename_i next hNext
      refine .after (.single (.handle front back identity proxy i next
            hProxies (hFirst proxy) hNext))
        (ih rfl hRest hHandled)

theorem pumpInner_ends (hProxies : w.proxies = front ++ (identity, proxy) :: back)
    (hMeets : r.Meets P)
    (hPumped : (w.session proxy).pumpInner socket (r.ready identity) (r.fetched identity) =
        (s, result)) :
    Ends socket P w ((w.withProxies (front ++ (identity, s.proxy) :: back)).resume s, result) := by
  have hIdle {error : IoError} : Ends socket P w ((w.withProxies
      (front ++ (identity, proxy) :: back)).resume
      (w.session proxy), .error error) := by
    rw [resume_session hProxies]
    exact ends_quiet (.refl w)
  unfold Session.pumpInner at hPumped
  split at hPumped
  · cases hPumped
    exact hIdle
  by_cases hGrabbed : (w.session proxy).proxy.grabbed = true
  swap
  · rw [if_pos hGrabbed] at hPumped
    cases hPumped
    exact hIdle
  rw [if_neg (not_not_intro hGrabbed)] at hPumped
  split at hPumped
  · cases hPumped
    exact hIdle
  rename_i events hFetched
  split_ifs at hPumped
  · cases hPumped
    exact hIdle
  · exact handleAll_ends hProxies (hMeets identity events hFetched) hPumped

theorem pump_ends (hProxies : w.proxies = front ++ (identity, proxy) :: back) (hMeets : r.Meets P)
    (hPumped : (w.session proxy).pump socket (r.ready identity) (r.fetched identity) r.cleanup =
        (s, result)) :
    Ends socket P w ((w.withProxies (front ++ (identity, s.proxy) :: back)).resume s, result) := by
  unfold Session.pump at hPumped
  split at hPumped
  · rename_i pumped hInner
    cases hPumped
    exact pumpInner_ends hProxies hMeets hInner
  · rename_i pumped error hInner
    cases hPumped
    exact (pumpInner_ends hProxies hMeets hInner).cleans
      (bypassed_cleans pumped r.cleanup (le_refl _))

theorem pumpAll_ends {done rest : List Held} (hProxies : w.proxies = done ++ rest)
    (hMeets : r.Meets P) : Ends socket P w (pumpAll socket r w done rest) := by
  induction rest generalizing w done with
  | nil => exact ends_refl
  | cons held rest ih =>
    rcases held with ⟨identity, proxy⟩
    unfold pumpAll
    dsimp only
    have hPumped := pump_ends hProxies hMeets (Prod.mk.eta (p := (w.session proxy).pump socket
        (r.ready identity) (r.fetched identity)
        r.cleanup)).symm
    rw [List.append_cons] at hPumped
    split
    · rename_i error hError
      rw [hError] at hPumped
      exact hPumped
    · rename_i hOk
      rw [hOk] at hPumped
      exact .after hPumped (ih rfl)

theorem stepInner_ends (hPaths : w.Paths) (hMeets : r.Meets P) :
    Ends socket P w (w.stepInner socket r) := by
  unfold stepInner
  split
  · exact ends_quiet (.refl w)
  rename_i peer hPeer
  have hReconciled : Ends socket P w (w.reconcile socket r peer) := reconcile_ends hPaths
  split
  · rename_i next error hError
    rw [hError] at hReconciled
    exact hReconciled
  · rename_i next hOk
    rw [hOk] at hReconciled
    exact .after hReconciled (pumpAll_ends rfl hMeets)

/- A round is a path of moves, and fails at one call at most. -/
theorem step_ends (hPaths : w.Paths) (hMeets : r.Meets P)
    (hStep : step socket w r = some (w', result)) :
    Ends socket P w (w', result) ∧ ∀ error, result = .error error → w'.proxies = [] := by
  have hInner : Ends socket P w (w.stepInner socket r) := stepInner_ends hPaths hMeets
  unfold step at hStep
  split at hStep
  · rename_i next hOk
    cases hStep
    rw [hOk] at hInner
    refine ⟨hInner, ?_⟩
    intro error hError
    cases hError
  · rename_i next error hError
    cases hStep
    rw [hError] at hInner
    exact ⟨hInner.cleans (clear_cleans next r.cleanup), fun _ _ => clear_proxies next r.cleanup⟩

end Service

end Sledge.Broker
