import Sledge.Core.Matcher

/-
  The packets exchanged with the compositor, as the daemon
  sees them once decoded
  (`packages/linux/src/hyprland/wire.rs`).

  A scope names one transaction: the keyboard it is about,
  the lock epoch and the position on the connection it was
  issued at, its deadline, and the connection's nonce.
-/

-----
-- Packets

namespace Sledge.Linux

def maxWaitNs : Nat := 10000000

structure Scope where
  generation : Nat
  lockEpoch : Nat
  sequence : Nat
  deadlineNs : Nat
  nonce : Nat
deriving DecidableEq, Repr

structure Identity where
  capabilities : Nat
  apiHash : String
  artifact : String
deriving DecidableEq, Repr

structure Event where
  key : Nat
  state : Nat
  timeMs : Nat
  modifiers : Nat
  focusEpoch : Nat
  focusKind : Nat
  focus : String
deriving DecidableEq, Repr

inductive Decision where
  | pass
  | swallow
  | replace (key modifiers : Nat)
deriving DecidableEq, Repr

namespace Decision

def isReplace : Decision → Bool
  | .replace _ _ => true
  | _ => false

end Decision

inductive ResultKind where
  | replaced
  | rejectedOriginalAdmitted
  | partialUncertainFatal
  | timeoutOriginalAdmitted
  | swallowCommitted
  | stockConsumed
  | originalAdmitted
  | mergedOriginal
  | lockerOwned
  | quarantined
deriving DecidableEq, Repr

structure Outcome where
  result : ResultKind
  reason : Nat
  key : Nat
  state : Nat
  focusEpoch : Nat
deriving DecidableEq, Repr

inductive Body where
  | hello (identity : Identity)
  | helloAck (identity : Identity)
  | event (event : Event)
  | decision (decision : Decision)
  | outcome (outcome : Outcome)
  | inject (decision : Decision)
  | reset (reason : Nat)
  | retire (reason : Nat)
  | lock (state reason : Nat)
deriving DecidableEq, Repr

namespace Body

def isEvent : Body → Bool
  | .event _ => true
  | _ => false

def isOutcome : Body → Bool
  | .outcome _ => true
  | _ => false

def isRetire : Body → Bool
  | .retire _ => true
  | _ => false

def isLock : Body → Bool
  | .lock _ _ => true
  | _ => false

/- The packets that report no key. -/
def isControl : Body → Bool
  | .reset _ => true
  | .retire _ => true
  | .lock _ _ => true
  | _ => false

/- A lifecycle boundary: a keymap or focus reset. -/
def isLifecycleReset : Body → Bool
  | .reset reason => reason == 2 || reason == 3
  | _ => false

/- The packet that attests native quiescence. -/
def isReconciliation : Body → Bool
  | .reset reason => reason == 8
  | _ => false

theorem eq_of_isReconciliation {body : Body} (hBody : body.isReconciliation = true) :
    body = .reset 8 := by
  cases body with
  | reset reason =>
    simp only [isReconciliation, beq_iff_eq] at hBody
    rw [hBody]
  | _ => cases hBody

end Body

structure Packet where
  scope : Scope
  body : Body
deriving DecidableEq, Repr

-----
-- Errors

inductive ErrorKind where
  | invalidData
  | timedOut
  | connectionAborted
  | connectionReset
  | unexpectedEof
  | brokenPipe
  | permissionDenied
  | other
deriving DecidableEq, Repr

structure IoError where
  kind : ErrorKind
  message : String
deriving DecidableEq, Repr

def invalid : IoError where
  kind := .invalidData
  message := "invalid Hyprland SHP1 packet/scope"

/- A rejected scope, next to what the bridge expected. -/
def scopeError (reason : String) (scope : Scope) (nonce sequence epoch : Nat) : IoError where
  kind := .invalidData
  message := "Hyprland " ++ reason ++ ": generation=" ++ toString scope.generation ++
      " nonce=" ++ toString scope.nonce ++
      "/" ++ toString nonce ++
      " sequence=" ++ toString scope.sequence ++
      "/" ++ toString sequence ++
      " epoch=" ++ toString scope.lockEpoch ++
      "/" ++ toString epoch ++
      " deadline=" ++ toString scope.deadlineNs

/- A transaction has a nonzero budget of at most 10 ms. -/
def checkDeadline (now : Except IoError Nat) (deadlineNs : Nat) : Except IoError Unit :=
  match now with
  | .error error => .error error
  | .ok now =>
    if deadlineNs < now then
      .error ⟨.timedOut, "stale Hyprland transaction"⟩
    else if 1 ≤ deadlineNs - now ∧ deadlineNs - now ≤ maxWaitNs then
      .ok ()
    else
      .error ⟨.invalidData, "Hyprland deadline outside 1..=10ms budget"⟩

-----
-- Delivery Reports

/- An actual acknowledgement, or none that could be used. -/
inductive DeliveryReport where
  | acknowledged (outcome : Outcome)
  | uncertain
deriving DecidableEq, Repr

namespace DeliveryReport

def outcome? : DeliveryReport → Option Outcome
  | .acknowledged outcome => some outcome
  | .uncertain => none

/- The acknowledged result, when there is one. -/
def result? (report : DeliveryReport) : Option ResultKind := report.outcome?.map (·.result)

/-
  The conservative reading for a replacement token.  Stock consumption, merging and the
  locker are not forwarding.
-/
def replacementDelivery : DeliveryReport → Core.ReplacementDelivery
  | .acknowledged outcome =>
    match outcome.result with
    | .replaced => .delivered
    | .rejectedOriginalAdmitted => .rejectedOriginalForwarded
    | .timeoutOriginalAdmitted => .rejectedOriginalForwarded
    | _ => .uncertain
  | .uncertain => .uncertain

end DeliveryReport

end Sledge.Linux
