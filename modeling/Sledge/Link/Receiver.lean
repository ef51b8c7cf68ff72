import Sledge.Linux.Bridge

/-
  What a daemon remembers about the scopes of a compositor.

  A receiver is the part of a bridge that decides whether the
  scope of a packet is accepted.  A step of the bridge that
  leaves its connection open moves the receiver by exactly
  the packet it read, and a step that closes it loses at most
  that packet.

  Main results:
    * `Receiver.relays_append`
    * `Bridge.validate_of_accepts`
    * `Bridge.perform_receiver`
-/

-----
-- Receivers

namespace Sledge

namespace Link

open Linux

/- The registers a scope is checked against. -/
structure Receiver where
  nonce : Nat
  epoch : Nat
  sequence : Nat
  retired : Finset Nat
  previous : Finset Nat
  connected : Bool

namespace Receiver

/- The scope of the packet is accepted. -/
structure Accepts (r : Receiver) (packet : Packet) : Prop where
  nonce : packet.scope.nonce = r.nonce
  sequence : r.sequence < packet.scope.sequence
  generation : packet.scope.generation ∉ r.retired
  globalLock : packet.body.isLock = true → packet.scope.generation = 0
  epoch : r.epoch ≤ packet.scope.lockEpoch
  lockEpoch : packet.body.isLock = true → r.epoch < packet.scope.lockEpoch
  sameEpoch : packet.body.isLock = false → packet.scope.lockEpoch = r.epoch
  eventGeneration : packet.body.isEvent = true → packet.scope.generation ≠ 0

/- What an accepted packet leaves; nothing is heard offline. -/
def hear (r : Receiver) (packet : Packet) : Receiver :=
  if r.connected then
    { r with
      epoch := packet.scope.lockEpoch
      sequence := packet.scope.sequence
      retired := if packet.body.isRetire then
          insert packet.scope.generation r.retired
        else r.retired }
  else r

def hearAll (r : Receiver) (packets : List Packet) : Receiver := packets.foldl hear r

/- Every packet is accepted after the ones before it. -/
def Relays : Receiver → List Packet → Prop
  | _, [] => True
  | r, packet :: rest => (r.connected = true → r.Accepts packet) ∧ Relays (r.hear packet) rest

variable {r : Receiver} {packet : Packet} {packets rest : List Packet}

theorem hear_of_connected (hConnected : r.connected = true) : r.hear packet =
      { r with
        epoch := packet.scope.lockEpoch
        sequence := packet.scope.sequence
        retired := if packet.body.isRetire then
            insert packet.scope.generation r.retired
          else r.retired } := by
  rw [hear, if_pos hConnected]

theorem hear_of_closed (hClosed : r.connected = false) : r.hear packet = r := by
  rw [hear, hClosed]
  rfl

@[simp]
theorem hear_nonce : (r.hear packet).nonce = r.nonce := by
  unfold hear
  split <;> rfl

@[simp]
theorem hear_previous : (r.hear packet).previous = r.previous := by
  unfold hear
  split <;> rfl

theorem hear_retired (hRetire : packet.body.isRetire = false) :
    (r.hear packet).retired = r.retired := by
  unfold hear
  rw [hRetire]
  split <;> rfl

@[simp]
theorem hearAll_nil : r.hearAll [] = r := rfl

@[simp]
theorem hearAll_cons : r.hearAll (packet :: rest) = (r.hear packet).hearAll rest := rfl

theorem hearAll_append : r.hearAll (packets ++ rest) = (r.hearAll packets).hearAll rest :=
  List.foldl_append

@[simp]
theorem hearAll_nonce : (r.hearAll packets).nonce = r.nonce := by
  induction packets generalizing r with
  | nil => rfl
  | cons packet rest ih => rw [hearAll_cons, ih, hear_nonce]

@[simp]
theorem hearAll_previous : (r.hearAll packets).previous = r.previous := by
  induction packets generalizing r with
  | nil => rfl
  | cons packet rest ih => rw [hearAll_cons, ih, hear_previous]

theorem hearAll_of_closed (hClosed : r.connected = false) : r.hearAll packets = r := by
  induction packets with
  | nil => rfl
  | cons packet rest ih => rw [hearAll_cons, hear_of_closed hClosed, ih]

theorem relays_append :
    r.Relays (packets ++ rest) ↔ r.Relays packets ∧ (r.hearAll packets).Relays rest := by
  induction packets generalizing r with
  | nil => simp [Relays]
  | cons packet packets ih => simp only [List.cons_append, Relays, hearAll_cons, ih, and_assoc]

theorem relays_of_closed (hClosed : r.connected = false) : r.Relays packets := by
  induction packets with
  | nil => trivial
  | cons packet rest ih =>
    refine ⟨by simp [hClosed], ?_⟩
    rw [hear_of_closed hClosed]
    exact ih

/- The epoch never goes back, and retirements are kept. -/
theorem hear_mono (hAccepts : r.connected = true → r.Accepts packet) :
    r.epoch ≤ (r.hear packet).epoch ∧ r.retired ⊆ (r.hear packet).retired := by
  cases hConnected : r.connected with
  | false =>
    rw [hear_of_closed hConnected]
    exact ⟨le_rfl, Finset.Subset.refl _⟩
  | true =>
    rw [hear_of_connected hConnected]
    refine ⟨(hAccepts hConnected).epoch, ?_⟩
    simp only
    split
    · exact Finset.subset_insert _ _
    · exact Finset.Subset.refl _

theorem hearAll_mono (hRelays : r.Relays packets) :
    r.epoch ≤ (r.hearAll packets).epoch ∧ r.retired ⊆ (r.hearAll packets).retired := by
  induction packets generalizing r with
  | nil => exact ⟨le_rfl, Finset.Subset.refl _⟩
  | cons packet rest ih =>
    have hHead := hear_mono hRelays.1
    have hTail := ih hRelays.2
    exact ⟨hHead.1.trans hTail.1, hHead.2.trans hTail.2⟩

/- A closed receiver that knows no more than another. -/
structure Stops (r after : Receiver) : Prop where
  closed : after.connected = false
  nonce : after.nonce = r.nonce
  previous : after.previous = r.previous
  epoch : after.epoch ≤ r.epoch
  retired : after.retired ⊆ r.retired

theorem Stops.of_hearAll {after : Receiver} (hRelays : r.Relays packets) (hStops : r.Stops after) :
    (r.hearAll packets).Stops after where
  closed := hStops.closed
  nonce := by rw [hearAll_nonce, hStops.nonce]
  previous := by rw [hearAll_previous, hStops.previous]
  epoch := hStops.epoch.trans (hearAll_mono hRelays).1
  retired := hStops.retired.trans (hearAll_mono hRelays).2

end Receiver

end Link

-----
-- Bridges As Receivers

namespace Linux

namespace Bridge

open Link

def receiver (b : Bridge) : Receiver where
  nonce := b.nonce
  epoch := b.epoch
  sequence := b.sequence
  retired := b.retired
  previous := b.previousNonces
  connected := b.transport.isSome

variable {H : Type} {b : Bridge} {packet : Packet}

theorem inScope_iff_accepts : b.InScope packet ↔ b.receiver.Accepts packet :=
  ⟨fun hScope =>
      ⟨hScope.nonce, hScope.sequence, hScope.generation,
        hScope.globalLock, hScope.epoch, hScope.lockEpoch,
        hScope.sameEpoch, hScope.eventGeneration⟩,
    fun hAccepts =>
      ⟨hAccepts.nonce, hAccepts.sequence, hAccepts.generation, hAccepts.globalLock, hAccepts.epoch,
        hAccepts.lockEpoch, hAccepts.sameEpoch,
        hAccepts.eventGeneration⟩⟩

/- A timely packet that is accepted passes `validate`. -/
theorem validate_of_accepts {now : Except IoError Nat} (hAccepts : b.receiver.Accepts packet)
    (hTimely : checkDeadline now packet.scope.deadlineNs = .ok ()) :
    b.validate now packet = .ok (b.accept packet) := by
  unfold validate
  rw [hTimely]
  simp only
  rw [scopeReason_eq_none.mpr (inScope_iff_accepts.mpr hAccepts)]

/- The receiver of a bridge whose connection was closed. -/
def closedReceiver (b : Bridge) : Receiver := { b.receiver with connected := false }

/- An accepted scope is heard, a retirement apart. -/
theorem accept_receiver (hConnected : b.transport.isSome = true) :
    (b.accept packet).receiver = { b.receiver.hear packet with retired := b.retired } := by
  rw [Receiver.hear_of_connected hConnected]
  rfl

theorem accept_receiver_of_not_retire (hConnected : b.transport.isSome = true)
    (hRetire : packet.body.isRetire = false) :
    (b.accept packet).receiver = b.receiver.hear packet := by
  rw [Receiver.hear_of_connected hConnected, hRetire]
  rfl

/- A bridge that has heard a packet, and stops. -/
theorem stops_of_receiver_eq {b' : Bridge} {r : Receiver} (hReceiver : b'.receiver = r) :
    r.Stops b'.closedReceiver := by
  rw [closedReceiver, hReceiver]
  exact ⟨rfl, rfl, rfl, le_rfl, Finset.Subset.refl _⟩

/- A refused retirement is not remembered. -/
theorem stops_of_refused (hConnected : b.transport.isSome = true) :
    (b.receiver.hear packet).Stops (b.accept packet).closedReceiver := by
  rw [closedReceiver, accept_receiver hConnected]
  refine ⟨rfl, rfl, rfl, le_rfl, ?_⟩
  rw [Receiver.hear_of_connected hConnected]
  simp only
  split
  · exact Finset.subset_insert _ _
  · exact Finset.Subset.refl _

theorem Controls.receiver {b' : Bridge} (hConnected : b.transport.isSome = true)
    (hControls : (b.accept packet).Controls packet b' (.ok ())) :
    b'.receiver = b.receiver.hear packet := by
  cases hControls with
  | reconciled hBody => exact accept_receiver_of_not_retire hConnected (by rw [hBody]; rfl)
  | retired hBody =>
    rw [Receiver.hear_of_connected hConnected, hBody]
    rfl
  | awaited hBody =>
    refine accept_receiver_of_not_retire hConnected ?_
    cases hKind : packet.body <;>
      simp [hKind, Body.isLifecycleReset, Body.isRetire] at hBody ⊢
  | unchanged _ hRetire => exact accept_receiver_of_not_retire hConnected hRetire

/-
  A packet that is taken has been heard, and one that is not leaves a receiver that knows
  no more than that.
-/
theorem Processed.receiver {b' : Bridge} {log : List Record} {taken : Bool}
    (hProcessed : b.Processed packet b' log taken) (hConnected : b.transport.isSome = true)
    (hAccepts : b.receiver.Accepts packet) :
    (taken = true → b'.receiver = b.receiver.hear packet) ∧
      (b.receiver.hear packet).Stops b'.closedReceiver := by
  cases hProcessed with
  | invalid =>
    -- Only a late packet is refused here.
    have hMono := Receiver.hear_mono (fun _ => hAccepts)
    refine ⟨by simp, rfl, ?_, ?_, hMono.1, hMono.2⟩
    · exact (Receiver.hear_nonce (r := b.receiver)).symm
    · exact (Receiver.hear_previous (r := b.receiver)).symm
  | refused => exact ⟨by simp, stops_of_refused hConnected⟩
  | controlled _ hControls =>
    have hHeard := hControls.receiver hConnected
    exact ⟨fun _ => hHeard, stops_of_receiver_eq hHeard⟩
  | traced _ hBody =>
    refine ⟨fun _ => accept_receiver_of_not_retire hConnected ?_, stops_of_refused hConnected⟩
    cases hKind : packet.body <;>
      simp [hKind, Body.isEvent, Body.isRetire] at hBody ⊢

variable [EventHandler H] {s : Bridge × H} {op : Op}

/- Reading an accepted packet, in either kind of step. -/
theorem perform_receiver (hReads : op.reads = some packet) (hConnected : s.1.transport.isSome = true)
    (hAccepts : s.1.receiver.Accepts packet) :
    (perform s op).1.1.receiver = s.1.receiver.hear packet ∨ (s.1.receiver.hear packet).Stops
        (perform s op).1.1.receiver := by
  rcases (perform_performed s op).of_read hReads hConnected with
    ⟨log, hTaken⟩ | ⟨b', log, hRefused, hClosed⟩
  · exact .inl ((hTaken.receiver hConnected hAccepts).1 rfl)
  · rw [hClosed]
    exact .inr (hRefused.receiver hConnected hAccepts).2

/- A call that reads nothing leaves the receiver, or stops it. -/
theorem perform_receiver_unread (hReads : s.1.transport = none ∨ op.reads = none)
    (hOp : op.isReconnect = false) :
    (perform s op).1.1.receiver = s.1.receiver ∨ s.1.receiver.Stops (perform s op).1.1.receiver := by
  rcases (perform_performed s op).of_unread hReads hOp with hSame | ⟨awaiting, hClosed⟩
  · exact .inl (congrArg receiver hSame)
  · rw [hClosed]
    exact .inr (stops_of_receiver_eq rfl)

end Bridge

end Linux

end Sledge
