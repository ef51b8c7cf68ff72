import Sledge.Native.Confinement

/-
  What becomes of a press the stock route consumes.

  `route` only proposes that a fresh key down goes through;
  `originalOutcome` is told whether the stock route admitted
  it.  A press that was not admitted must not be counted as
  held by a client.  This fails for a replacement that puts
  nothing out while another keyboard forwards the same key:
  such a proposal is neither merged nor delivered, so it is
  left alone.

  Main results:
    * `Router.route_fresh`
    * `Router.stock_consumed_iff`
-/

-----
-- Uncounted Presses

namespace Sledge.Native

open Transition

namespace Devices

/- Erasing the press changes nothing a client is told. -/
structure Uncounted (t : Devices) (id : Nat) (key : Key) : Prop where
  focusEnterKeys : (t.setOwner id key .none).focusEnterKeys = t.focusEnterKeys
  forwardedModifiers : (t.setOwner id key .none).forwardedModifiers = t.forwardedModifiers
  otherForwarded : ∀ asking, (t.setOwner id key .none).otherForwarded asking =
        t.otherForwarded asking

theorem setOwner_forwarded_iff {t : Devices} {id : Nat} (hTracked : t.Tracked id) {key : Key}
    (hOwner : t.ownerOf id key ≠ .forwarded) (other : Nat) (key' : Key) :
    (t.setOwner id key .none).ownerOf other key' = .forwarded ↔ t.ownerOf other key' = .forwarded := by
  rw [t.ownerOf_setOwner hTracked]
  split
  · rename_i hSame
    rcases hSame with ⟨rfl, rfl⟩
    simp [hOwner]
  · exact Iff.rfl

/- A press that is not forwarded counts for nothing. -/
theorem uncounted_of_owner {t : Devices} {id : Nat} (hTracked : t.Tracked id) {key : Key}
    (hOwner : t.ownerOf id key ≠ .forwarded) : t.Uncounted id key := by
  have hSame := setOwner_forwarded_iff hTracked hOwner
  have hFocus : (t.setOwner id key .none).focusEnterKeys =
      t.focusEnterKeys :=
    focusEnterKeys_congr hSame
  refine ⟨hFocus, ?_, ?_⟩
  · rw [forwardedModifiers_eq, forwardedModifiers_eq, hFocus]
  · intro asking
    funext key'
    apply Bool.eq_iff_iff.mpr
    rw [otherForwarded_iff, otherForwarded_iff]
    exact exists_congr (fun other => and_congr_right' (hSame other key'))

end Devices

-----
-- Fresh Presses

namespace Router

/- A replacement is in force and puts nothing out. -/
def replacementRejected (r : Router) (event : Event) (ticket : Option Ticket)
    (reply : Option Decision) (now : Nat) (output : Output) : Bool :=
  match r.verdictFor event ticket reply now, reply with
  | .replace, some reply =>
    !r.preflight event.key reply || decide (output.replace reply.key reply.modifiers
            r.devices.forwardedModifiers =
          .rejectedNoOutput)
  | _, _ => false

variable {r : Router} {event : Event} {id : Nat} {key : Key}

/- Why a decided key down goes through. -/
theorem decideDown_pass {ticket : Option Ticket} {reply : Option Decision} {now : Nat}
    {output : Output} (hPass : (r.decideDown event ticket reply now output).verdict = .pass) :
    (r.decideDown event ticket reply now output).outcome =
      if r.replacementRejected event ticket reply now output
      then .rejected
      else .forwarded := by
  unfold decideDown replacementRejected at *
  cases hVerdict : r.verdictFor event ticket reply now with
  | replace =>
    cases reply with
    | none => rfl
    | some d =>
      simp only [hVerdict] at hPass ⊢
      by_cases hFree : r.preflight event.key d = true
      · simp only [hFree, Bool.not_true, Bool.false_eq_true, if_false, Bool.false_or] at hPass ⊢
        split at hPass
        · rename_i hReply
          simp [hReply]
        · simp at hPass
        · simp at hPass
      · simp [hFree]
  | pass => rfl
  | swallow | invalid code => simp [hVerdict] at hPass

/- A key down nobody owns, routed while unlocked. -/
theorem route_fresh (hTracked : r.devices.Tracked id) (hConcerns : event.concerns id key = true)
    (hDown : event.state = .down) (hOwner : r.owner id key = .none) (hUnlocked : r.locked = false)
    (ticket : Option Ticket) (reply : Option Decision) (now : Nat) (output : Output) :
    r.route event ticket reply now output = r.routeFresh event key
        (r.decideDown event ticket reply now output) := by
  rw [route_of_unowned hTracked hConcerns hDown hOwner, hUnlocked]
  simp

/- The shape of a proposal to pass a fresh key down. -/
theorem routeFresh_proposal (r : Router) (event : Event) (key : Key) {decided : Decided}
    (hPass : decided.verdict = .pass)
    (hOutcome : decided.outcome = .rejected ∨ decided.outcome = .forwarded) :
    let proposal := (r.routeFresh event key decided).value
    (proposal.outcome = .merged ∨ proposal.deliverClient = true) ↔ ¬ (decided.outcome = .rejected ∧
        r.devices.otherForwarded event.device key = true) := by
  unfold routeFresh
  simp only [hPass, if_true, decide_true, Bool.true_and]
  rcases hOutcome with hRejected | hForwarded
  · cases r.devices.otherForwarded event.device key
    all_goals simp [hRejected]
  · cases r.devices.otherForwarded event.device key
    all_goals simp [hForwarded]

theorem routeFresh_processStock (r : Router) (event : Event) (key : Key) (decided : Decided) :
    (r.routeFresh event key decided).value.processStock = true ↔ decided.verdict = .pass := by
  unfold routeFresh
  by_cases hPass : decided.verdict = .pass
  · simp [hPass]
  · simp [hPass]

/- A fresh key down is delivered unless it is merged. -/
theorem routeFresh_deliverClient (r : Router) (event : Event) (key : Key) (decided : Decided) :
    (r.routeFresh event key decided).value.deliverClient = (decide (decided.verdict = .pass) &&
        !r.devices.otherForwarded event.device key) := by
  unfold routeFresh
  by_cases hPass : decided.verdict = .pass
  · simp [hPass]
  · simp [hPass]

theorem routeFresh_outcome (r : Router) (event : Event) (key : Key) {decided : Decided}
    (hOutcome : decided.outcome ≠ .lockerOwned) :
    (r.routeFresh event key decided).value.outcome ≠ .lockerOwned := by
  have hProposed : (if decided.verdict = .swallow then .swallowed
      else decided.outcome) ≠ Outcome.lockerOwned := by
    split
    · simp
    · exact hOutcome
  simp only [routeFresh]
  generalize (if decided.verdict = .swallow then .swallowed
    else decided.outcome) = proposed at hProposed ⊢
  split_ifs
  all_goals simp_all

theorem refused_owner (hTracked : r.devices.Tracked id) (hConcerns : event.concerns id key = true)
    (hDown : event.state = .down) (hOwner : r.owner id key = .none) (hUnlocked : r.locked = false)
    {ticket : Option Ticket} {reply : Option Decision} {now : Nat} {output : Output}
    (hStock : (r.route event ticket reply now output).value.processStock = true) :
    let e := r.route event ticket reply now output
    (e.router.originalOutcome event e.value false).1.owner id key =
      if r.replacementRejected event ticket reply now output = true ∧
          r.devices.otherForwarded id key = true then
        .forwarded
      else .stockConsumed := by
  rw [route_fresh hTracked hConcerns hDown hOwner hUnlocked] at hStock ⊢
  have hPass := (r.routeFresh_processStock ..).mp hStock
  have hOutcome := decideDown_pass hPass
  rcases device_of_concerns hConcerns with ⟨rfl, hKey⟩
  have hProposal := routeFresh_proposal r event key hPass (by
        rw [hOutcome]
        split
        · exact .inl rfl
        · exact .inr rfl)
  have hForwarded : (r.routeFresh event key (r.decideDown event ticket reply now
        output)).router.owner event.device key =
      .forwarded := by
    rw [routeFresh_owner r hTracked]
    simp [hPass]
  simp only [originalOutcome_owner, hKey, hDown, hForwarded, hProposal, hOutcome]
  by_cases hRejected : r.replacementRejected event ticket reply now output = true
  · cases r.devices.otherForwarded event.device key
    all_goals simp [hRejected]
  · simp [hRejected]

theorem ownerAfter_withheld (r : Router) (call : Call) (hFrees : call.frees id key = false)
    (hOwner : r.owner id key = .stockConsumed ∨ r.owner id key = .quarantined) :
    r.ownerAfter id key call = .stockConsumed ∨ r.ownerAfter id key call = .quarantined := by
  have hOwned : r.owner id key ≠ .none := by
    rcases hOwner with hStock | hQuarantined
    · simp [hStock]
    · simp [hQuarantined]
  rcases ownerAfter_of_owned hFrees hOwned with hSame | hQuarantined | ⟨_, hStock⟩
  · rw [hSame]
    exact hOwner
  · exact .inr hQuarantined
  · exact .inl hStock

/-
  A press the stock route refused is owned by the stock route and counts for nothing until
  it ends, unless it is a rejected replacement of a key another keyboard forwards.
-/
theorem stock_consumed_iff {r : Router} {event : Event} {id : Nat} {key : Key}
    (hTracked : r.devices.Tracked id) (hConcerns : event.concerns id key = true)
    (hDown : event.state = .down) (hOwner : r.owner id key = .none) (hUnlocked : r.locked = false)
    {ticket : Option Ticket} {reply : Option Decision} {now : Nat} {output : Output}
    (hStock : (r.route event ticket reply now output).value.processStock = true) :
    (let e := r.route event ticket reply now output
      let after := (e.router.originalOutcome event e.value false).1
      after.owner id key = .stockConsumed ∧ ∀ trace r', Run step after trace r' →
          (∀ entry ∈ trace, entry.op.frees id key = false) →
          r'.devices.Uncounted id key) ↔
      ¬ (r.replacementRejected event ticket reply now output = true ∧
          r.devices.otherForwarded id key = true) := by
  have hAfter := refused_owner hTracked hConcerns hDown hOwner hUnlocked hStock
  simp only at hAfter ⊢
  constructor
  · intro h hRejected
    rw [if_pos hRejected] at hAfter
    rw [hAfter] at h
    simp at h
  · intro hRejected
    rw [if_neg hRejected] at hAfter
    refine ⟨hAfter, ?_⟩
    intro trace r' hRun hHeld
    have hStart := Devices.tracked_of_owned _ (by
          unfold owner at hAfter
          rw [hAfter]
          simp)
    have hKept := run_owner (P := fun owner =>
          owner = .stockConsumed ∨ owner = .quarantined)
        ownerAfter_withheld hStart (.inl hAfter) hRun hHeld
    apply Devices.uncounted_of_owner hKept.1
    intro hForwarded
    have hCounted : r'.owner id key = .forwarded := hForwarded
    have hWithheld := hKept.2
    rw [hCounted] at hWithheld
    simp at hWithheld

/- The stock route refuses the first press of a keyboard. -/
theorem stock_consumed_heldKey :
    let key : Key := ⟨30, by decide⟩
    let press : Event := ⟨1, 30, .down, true⟩
    let r :=
      lastOf step init [.add 1, .unlockConfirmed]
    let e := r.route press none none 0 .compliant
    let after := (e.router.originalOutcome press e.value false).1
    after.owner 1 key = .stockConsumed ∧ ∀ trace r', Run step after trace r' →
        (∀ entry ∈ trace, entry.op.frees 1 key = false) →
        r'.devices.Uncounted 1 key := by
  refine
    (stock_consumed_iff (by decide +kernel)
      (by decide +kernel) rfl (by decide +kernel)
      (by decide +kernel) (by decide +kernel)).mpr ?_
  decide +kernel

/- Two keyboards press the same key; the second asks. -/
def mergedPress : List Call :=
  [.add 1, .add 2, .unlockConfirmed, .route ⟨1, 30, .down, true⟩ none none 0 .compliant,
    .begin ⟨2, 30, .down, true⟩ 0 10 false]

def mergedTicket : Ticket where
  device := 2
  epoch := 2
  focus := 2
  sequence := 1
  deadline := 10
  key := 30

/- A replacement by the pressed key itself is rejected. -/
def selfReplacement : Decision where
  ticket := mergedTicket
  verdict := .replace
  key := 30

/- The refused press of the second keyboard is forwarded. -/
theorem mergedPress_counted :
    let key : Key := ⟨30, by decide⟩
    let press : Event := ⟨2, 30, .down, true⟩
    let r := lastOf step init mergedPress
    let e :=
      r.route press (some mergedTicket) (some selfReplacement) 0 .compliant
    let after := (e.router.originalOutcome press e.value false).1
    r.Reachable ∧ r.devices.Tracked 2 ∧ press.concerns 2 key = true ∧
      r.owner 2 key = .none ∧ r.locked = false ∧
      e.value.processStock = true ∧
      after.owner 2 key = .forwarded ∧
      after.devices.otherForwarded 1 key = true := by
  refine ⟨⟨_, .of_isSome rfl⟩, ?_⟩
  decide +kernel

end Router

end Sledge.Native
