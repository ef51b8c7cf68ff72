import Sledge.Daemon.Sink
import Sledge.Linux.Session
import Sledge.Linux.Transactions

/-
  The daemon's handler for compositor events
  (`packages/cli/src/daemon/hyprland_research.rs`) over the
  matching state it shares with the reload callback
  (`packages/cli/src/daemon.rs`, Linux build).

  Each method takes the matching lock once.  The time, the
  source queue and whether a proposal finds the lock free
  are given by the handler's `Circumstances`.
-/

-----
-- Matching State

namespace Sledge

namespace Linux

inductive FocusCategory where
  | wayland
  | x11Class
  | kwinResourceClass
deriving DecidableEq

structure FocusIdentity where
  category : FocusCategory
  value : String
deriving DecidableEq

/- `char::is_control` of the source. -/
def isControl (c : Char) : Bool := c.toNat < 32 || (127 ≤ c.toNat && c.toNat < 160)

def validId (value : String) : Bool :=
  value != "" && decide (value.utf8ByteSize ≤ 4096) && !value.toList.any isControl

def FocusIdentity.new (category : FocusCategory) (value : String) : Option FocusIdentity :=
  if validId value then some ⟨category, value⟩ else none

/- The focus an event carries; no desktop snapshot is used. -/
def MatcherAdapter.focus (event : Event) : Option FocusIdentity :=
  match event.focusKind with
  | 1 => FocusIdentity.new .wayland event.focus
  | 2 => FocusIdentity.new .x11Class event.focus
  | _ => none

end Linux

namespace Daemon.Linux

open Core Config Sledge.Linux

def identityOf (focus : FocusIdentity) : AppIdentity :=
  match focus.category with
  | .wayland => .linuxWayland focus.value
  | .x11Class => .linuxX11Class focus.value
  | .kwinResourceClass => .linuxLegacy focus.value

/- The typed alias, the legacy alias, or the name itself. -/
def resolveFocusedApp (aliases : Dict String AppAlias) (focusedApp : Option String)
    (identity : Option AppIdentity) : Option String :=
  ((identity.bind (resolveAppIdentity aliases)).or (focusedApp.bind (fun id =>
      resolveAppIdentity aliases (.linuxLegacy id)))).or focusedApp

/- The matcher and its transactions are kept as one value. -/
structure MatchingState where
  hyprland : MatcherAdapter
  aliases : Dict String AppAlias
  hyprlandDownOnly : Bool
  hyprlandFeatures : Nat
  hyprlandHealth : Option SessionHealth

namespace MatchingState

def new (rules : RuleSet) (aliases : Dict String AppAlias) : MatchingState where
  hyprland := .new (Matcher.new rules)
  aliases := aliases
  hyprlandDownOnly := false
  hyprlandFeatures := 1
  hyprlandHealth := none

/- What `run_linux` sets up for an installed session. -/
def installed (s : MatchingState) (features : Nat) : MatchingState :=
  { s with
    hyprlandDownOnly := true
    hyprlandFeatures := features
    hyprland := s.hyprland.setModifierTapRelease (features == tapFeatures) }

def replace (s : MatchingState) (rules : RuleSet) (aliases : Dict String AppAlias) :
    MatchingState :=
  { s with hyprland := s.hyprland.invalidateSpeculation.swapRules rules, aliases := aliases }

end MatchingState

-----
-- Handler

/- What the outside answers to the next proposal. -/
structure Circumstances where
  lockFree : Bool
  now : Instant
  submit : String → Bool

structure Handler where
  matching : MatchingState
  observationGap : Bool
  circumstances : Circumstances

namespace Handler

def onMatching (h : Handler) (f : MatcherAdapter → MatcherAdapter) : Handler :=
  { h with matching := { h.matching with hyprland := f h.matching.hyprland } }

/- The application an event's rules are scoped by. -/
def logicalApp (s : MatchingState) (event : Event) : Option String :=
  let focus := MatcherAdapter.focus event
  resolveFocusedApp s.aliases (focus.map (·.value)) (focus.map identityOf)

/- Missed observations end all speculation. -/
def closeGap (h : Handler) : Handler :=
  if h.observationGap then
    { h.onMatching .invalidateSpeculation with observationGap := false }
  else h

def passOnError : Except IoError Decision → Decision
  | .ok decision => decision
  | .error _ => .pass

/- Propose, or note a gap when a reload holds the lock. -/
def proposeLocked (h : Handler) (scope : Scope) (event : Event) : Option (Handler × Decision) :=
  if ¬ h.circumstances.lockFree then
    some ({ h with observationGap := true }, .pass)
  else
    let h := h.closeGap
    (h.matching.hyprland.proposeWithSource scope event
      (logicalApp h.matching event) h.circumstances.now
      h.circumstances.submit).map (fun (a, result) =>
        (h.onMatching (fun _ => a), passOnError result))

/- A panic ends the thread; nothing is decided after it. -/
def propose (h : Handler) (scope : Scope) (event : Event) : Handler × Decision :=
  (h.proposeLocked scope event).getD (h, .pass)

/- Everything a proposal of the handler can do. -/
inductive Proposes (h : Handler) (scope : Scope) (event : Event) : Handler → Decision → Prop where
  | missed {h' : Handler} (hMatching : h'.matching = h.matching) : Proposes h scope event h' .pass
  | proposed {b : MatcherAdapter} {result : Except IoError Decision} (hProposed :
        MatcherAdapter.Proposed h.closeGap.matching.hyprland
          scope event (logicalApp h.closeGap.matching event)
          h.circumstances.now h.circumstances.submit b result) :
      Proposes h scope event (h.closeGap.onMatching (fun _ => b)) (passOnError result)

theorem closeGap_circumstances (h : Handler) : h.closeGap.circumstances = h.circumstances := by
  unfold closeGap
  split_ifs <;> rfl

theorem propose_proposes (h : Handler) (scope : Scope) (event : Event) :
    Proposes h scope event (h.propose scope event).1 (h.propose scope event).2 := by
  unfold propose proposeLocked
  by_cases hFree : h.circumstances.lockFree = true
  · rw [if_neg (not_not_intro hFree)]
    dsimp only
    rw [closeGap_circumstances]
    cases hPropose : h.closeGap.matching.hyprland.proposeWithSource scope
      event (logicalApp h.closeGap.matching event)
      h.circumstances.now h.circumstances.submit with
    | none => exact .missed rfl
    | some answer =>
      rcases answer with ⟨b, result⟩
      exact Proposes.proposed (MatcherAdapter.proposed_of_proposeWithSource hPropose)
  · rw [if_pos hFree]
    exact .missed rfl

def delivery (h : Handler) (scope : Scope) (event : Event) (report : DeliveryReport) : Handler :=
  if event.state = 1 ∨ h.matching.hyprland.modifierTapRelease then
    h.onMatching (fun a => (a.onDelivery scope report).1)
  else
    h.onMatching (fun a =>
      (a.settleDeviceEvent scope event report).1)

/- The health a lifecycle control leaves behind. -/
def awaitHealth (h : Handler) (body : Body) : Handler :=
  if body.isLifecycleReset ∨ body.isLock then
    { h with
      matching :=
        { h.matching with
          hyprlandHealth := h.matching.hyprlandHealth.map (fun health =>
              { health with awaitingReconciliation := true }) } }
  else h

/- What a lifecycle control does to the transactions. -/
def control (downOnly : Bool) (scope : Scope) (body : Body) (a : MatcherAdapter) : MatcherAdapter :=
  let a := if body.isLock ∧ downOnly then
      a.observeLockBoundary scope.nonce
    else a
  let a := if body.isLifecycleReset then
      (a.awaitLifecycleReconciliation scope body).1
    else a
  let (a, reconciled) := a.reconciled scope body
  let a := if reconciled then a else a.invalidateSpeculation
  if body.isRetire then a.retireDevice scope.generation else a

def reset (h : Handler) (scope : Scope) (body : Body) : Handler :=
  (h.awaitHealth body).onMatching (control h.matching.hyprlandDownOnly scope body)

def unlockedEpoch (h : Handler) (scope : Scope) (body : Body) : Handler :=
  if h.matching.hyprlandDownOnly then
    h.onMatching (·.observeUnlockedEpoch scope.nonce)
  else h.reset scope body

def disconnected (h : Handler) : Handler :=
  { h with
    matching :=
      { h.matching with
        hyprlandHealth := h.matching.hyprlandHealth.map SessionHealth.invalidate } }.onMatching
              .disconnected

instance : EventHandler Handler where
  propose := propose
  delivery := fun h scope event _ report =>
    h.delivery scope event report
  reset := reset
  unlockedEpoch := unlockedEpoch
  disconnected := disconnected

/- Publish the health of the session. -/
def observe (h : Handler) (health : SessionHealth) : Handler :=
  { h with matching := { h.matching with hyprlandHealth := some health } }

/- `bind_matcher` of the installed session. -/
def bindMatcher (h : Handler) (s : Session) : Session × Handler × Bool :=
  let (a, bound) := h.matching.hyprland.awaitReconciliation s.bridge.nonce
  let s := { s with matcherBound := bound }
  let h := h.onMatching (fun _ => a)
  (s, if bound then h.observe s.health else h, bound)

end Handler

end Daemon.Linux

end Sledge
