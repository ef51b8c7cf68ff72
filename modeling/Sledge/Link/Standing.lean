import Sledge.Link.Receiver

/-
  What a daemon waits for.

  After a boundary the bridge waits for a Reset(8) and takes
  no other one, and it takes none while it is locked.  A
  standing is the part of a bridge that decides this.  A step
  that leaves the connection open moves the standing by the
  packet it read.

  Main results:
    * `Bridge.perform_standing`
    * `Bridge.processPacket_reconciles`
-/

-----
-- Standings

namespace Sledge

namespace Link

open Linux

/- What decides whether a bridge takes a Reset(8). -/
@[ext]
structure Standing where
  locked : Bool
  awaiting : Bool

namespace Standing

/- What an accepted packet leaves. -/
def heed (st : Standing) (packet : Packet) : Standing where
  locked :=
    match packet.body with
    | .lock state _ => state != 0
    | _ => st.locked
  awaiting := if packet.body.isReconciliation then false
    else if packet.body.isLifecycleReset ∧ packet.scope.generation = 0 then true
    else st.awaiting

def heedAll (st : Standing) (packets : List Packet) : Standing := packets.foldl heed st

end Standing

/- The packet is no reset that the bridge looks at. -/
def resetless (packet : Packet) : Bool :=
  !packet.body.isReconciliation && !packet.body.isLifecycleReset

/- Every Reset(8) is global and finds a bridge that waits. -/
def Solicited : Standing → List Packet → Prop
  | _, [] => True
  | st, packet :: rest =>
    (packet.body = .reset 8 → packet.scope.generation = 0 ∧ st.locked = false ∧
          st.awaiting = true) ∧
      Solicited (st.heed packet) rest

variable {st : Standing} {packet : Packet} {packets rest : List Packet}

theorem heedAll_append : st.heedAll (packets ++ rest) = (st.heedAll packets).heedAll rest :=
  List.foldl_append

theorem solicited_append :
    Solicited st (packets ++ rest) ↔ Solicited st packets ∧ Solicited (st.heedAll packets) rest := by
  induction packets generalizing st with
  | nil =>
    rw [List.nil_append, Solicited, true_and]
    rfl
  | cons packet packets ih =>
    rw [List.cons_append, Solicited, Solicited, ih, and_assoc]
    rfl

theorem heed_awaiting (hOther : resetless packet = true) :
    (st.heed packet).awaiting = st.awaiting := by
  simp only [resetless, Bool.and_eq_true, Bool.not_eq_true'] at hOther
  simp [Standing.heed, hOther.1, hOther.2]

theorem heedAll_awaiting (hOther : ∀ p ∈ packets, resetless p = true) :
    (st.heedAll packets).awaiting = st.awaiting := by
  induction packets generalizing st with
  | nil => rfl
  | cons packet packets ih =>
    rw [List.forall_mem_cons] at hOther
    exact (ih hOther.2).trans (heed_awaiting hOther.1)

theorem solicited_of_resetless (hOther : ∀ p ∈ packets, resetless p = true) :
    Solicited st packets := by
  induction packets generalizing st with
  | nil => trivial
  | cons packet packets ih =>
    rw [List.forall_mem_cons] at hOther
    refine ⟨?_, ih hOther.2⟩
    intro hBody
    have hNot := hOther.1
    rw [resetless, hBody] at hNot
    cases hNot

/- A boundary makes the bridge wait. -/
theorem heed_boundary (hBody : packet.body.isLifecycleReset = true)
    (hGlobal : packet.scope.generation = 0) : (st.heed packet).awaiting = true := by
  have hOther : packet.body.isReconciliation = false := by
    by_contra hIs
    have hReset := Body.eq_of_isReconciliation (by simpa using hIs)
    rw [hReset] at hBody
    cases hBody
  simp [Standing.heed, hOther, hBody, hGlobal]

end Link

-----
-- Bridges

namespace Linux.Bridge

open Link

def standing (b : Bridge) : Standing where
  locked := b.locked
  awaiting := b.awaitingReconciliation

variable {H : Type} [EventHandler H] {b : Bridge} {h : H} {packet : Packet} {env : Surroundings}

theorem accept_locked (b : Bridge) (packet : Packet) :
    (b.accept packet).locked = (b.standing.heed packet).locked := by
  cases hBody : packet.body <;>
    simp [accept, Standing.heed, standing, hBody]

/- A lifecycle control that is taken is heeded. -/
theorem Controls.standing {b' : Bridge} {result : Except IoError Unit}
    (hControls : (b.accept packet).Controls packet b' result) (hOk : result = .ok ()) :
    b'.standing = b.standing.heed packet := by
  have hLocked := b.accept_locked packet
  cases hControls with
  | refused => cases hOk
  | reconciled hReset =>
    refine Standing.ext hLocked ?_
    simp [Bridge.standing, Standing.heed, hReset, Body.isReconciliation]
  | retired hRetire =>
    refine Standing.ext hLocked ?_
    cases hKind : packet.body <;>
      simp [hKind, Body.isRetire] at hRetire
    refine (heed_awaiting ?_).symm
    rw [resetless, hKind]
    rfl
  | awaited hLifecycle hGlobal => exact Standing.ext hLocked (heed_boundary hLifecycle hGlobal).symm
  | unchanged hReset _ hLifecycle =>
    refine Standing.ext hLocked ?_
    have hOther : packet.body.isReconciliation = false := by
      by_contra hIs
      apply hReset
      exact Body.eq_of_isReconciliation (by simpa using hIs)
    simp only [Bridge.standing, Standing.heed, accept, hOther,
      Bool.false_eq_true, if_false, if_neg hLifecycle]

/- A packet that is taken is heeded. -/
theorem Processed.standing {b' : Bridge} {log : List Record}
    (hProcessed : b.Processed packet b' log true) : b'.standing = b.standing.heed packet := by
  cases hProcessed with
  | controlled _ hControls => exact hControls.standing rfl
  | traced _ hBody =>
    cases hKind : packet.body <;>
      simp [hKind, Body.isEvent] at hBody
    simp [Bridge.standing, Standing.heed, accept, hKind, Body.isReconciliation,
      Body.isLifecycleReset]

section Perform

variable {s : Bridge × H} {op : Op}

/- A step closes the connection or heeds what it has read. -/
theorem perform_standing (hReads : op.reads = some packet)
    (hConnected : s.1.transport.isSome = true) :
    (perform s op).1.1.transport = none ∨ (perform s op).1.1.standing = s.1.standing.heed packet := by
  rcases (perform_performed s op).of_read hReads hConnected with
    ⟨log, hTaken⟩ | ⟨b', log, _, hClosed⟩
  · exact .inr hTaken.standing
  · exact .inl (by rw [hClosed])

/- A call that reads nothing changes nothing, or closes. -/
theorem perform_standing_unread (hReads : s.1.transport = none ∨ op.reads = none)
    (hOp : op.isReconnect = false) :
    (perform s op).1.1.transport = none ∨ (perform s op).1.1 = s.1 := by
  rcases (perform_performed s op).of_unread hReads hOp with hSame | ⟨awaiting, hClosed⟩
  · exact .inr hSame
  · exact .inl (by rw [hClosed])

theorem processPacket_reconciles {deadlineNs : Nat} {research : Bool}
    (hAccepts : b.receiver.Accepts packet)
    (hTimely : checkDeadline env.validatedAt packet.scope.deadlineNs = .ok ())
    (hBody : packet.body = .reset 8) (hGlobal : packet.scope.generation = 0)
    (hLocked : b.locked = false) (hAwaiting : b.awaitingReconciliation = true) :
    (b.processPacket h packet deadlineNs research env).result = .ok () := by
  have hReason : (b.accept packet).reconciliationReason packet = none := by
    simp [reconciliationReason, accept, hBody, hGlobal, hLocked, hAwaiting]
  unfold processPacket
  rw [validate_of_accepts hAccepts hTimely]
  simp [handle, handleControl, control, hBody, hReason]

end Perform

end Linux.Bridge

end Sledge
