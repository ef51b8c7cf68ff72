import Sledge.Linux.Codec
import Sledge.Linux.Replay
import Sledge.Linux.Session

/-
  Admission from the catalogue compiled into the daemon
  (`packages/linux/src/hyprland/catalogue.rs`).

  The catalogue names the builds a session may be opened for;
  a supported build must also be on a second compiled list.
  The digest, the two JSON readers and the files of the scope
  guard are parameters.

  Main results:
    * `Catalogue.Policy.choose_iff`
    * `Catalogue.Policy.choose_perm`
    * `Session.run_featureMask`
    * `Catalogue.Compiled.admission_unambiguous`
-/

-----
-- Entries

namespace Sledge.Linux

open Transition

/- Each revision comes with one set of features. -/
def validCapabilities (revision features : Nat) : Bool :=
  (revision = 1 ∧ features = freshDownSendKey) ∨ (revision = 2 ∧ features = tapFeatures)

inductive Qualification where
  | unqualified
  | candidate
  | supported
deriving DecidableEq, Repr

namespace Catalogue

/- A SHA-256 digest in lower case. -/
def hex (value : String) : Bool :=
  (asBytes value).length = 64 ∧
    (asBytes value).all (fun b => (48 ≤ b ∧ b ≤ 57) ∨ (97 ≤ b ∧ b ≤ 102))

structure Entry where
  descriptorSha256 : String
  buildId : String
  evidenceSha256 : String
  featureMask : Nat
  qualificationRevision : Nat
  isolatedVm : Bool
  machineIdSha256 : String
  bootMarkerPath : String
  bootMarkerSha256 : String
deriving DecidableEq, Repr

structure SupportedEntry where
  descriptorSha256 : String
  buildId : String
  evidenceSha256 : String
  qualificationRevision : Nat
  featureMask : Nat
  approvalRevision : Nat
deriving DecidableEq, Repr

inductive Admission where
  | candidate (entry : Entry)
  | supported (entry : SupportedEntry)
deriving DecidableEq, Repr

namespace Admission

def revision : Admission → Nat
  | .candidate e => e.qualificationRevision
  | .supported e => e.qualificationRevision

def identity : Admission → String × String
  | .candidate e => (e.descriptorSha256, e.buildId)
  | .supported e => (e.descriptorSha256, e.buildId)

def qualification : Admission → Qualification
  | .candidate _ => .candidate
  | .supported _ => .supported

def featureMask : Admission → Nat
  | .candidate e => e.featureMask
  | .supported e => e.featureMask

def refusal : Admission → String
  | .candidate _ => "unsupported candidate features/scope"
  | .supported _ => "unsupported supported revision/features"

/- What `select` requires of the fields of an entry. -/
def meets : Admission → Bool
  | .candidate e =>
    e.isolatedVm ∧ validCapabilities e.qualificationRevision e.featureMask ∧
      hex e.descriptorSha256 ∧ hex e.evidenceSha256 ∧
      hex e.machineIdSha256 ∧ hex e.bootMarkerSha256 ∧
      (asBytes e.bootMarkerPath).head? = some 47
  | .supported e =>
    validCapabilities e.qualificationRevision e.featureMask ∧ e.approvalRevision ≠ 0 ∧
      hex e.descriptorSha256 ∧ hex e.evidenceSha256

end Admission

structure Policy where
  policyRevision : Nat
  entries : List Admission

structure Acceptance where
  acceptanceRevision : Nat
  entries : List SupportedEntry

end Catalogue

-----
-- Choosing An Entry

namespace Catalogue.Policy

/- The part of `select` after the catalogue is parsed. -/
def choose (policy : Policy) (descriptor build : String) : Except IoError Admission :=
  if ¬ (policy.policyRevision = 1 ∨ policy.policyRevision = 2) ∨ 16 < policy.entries.length then
    .error (denied "unsupported catalogue policy revision/budget")
  else
    match policy.entries.filter (fun e => e.identity = (descriptor, build)) with
    | [] => .error (denied "descriptor not in compiled catalogue")
    | [entry] =>
      if (entry.qualification = .supported → policy.policyRevision = 2) ∧ entry.meets then
        .ok entry
      else .error (denied entry.refusal)
    | _ => .error (denied "ambiguous catalogue descriptor")

/- The entry is the only one of its identity, and sound. -/
structure Admits (policy : Policy) (descriptor build : String) (e : Admission) : Prop where
  policyRevision : policy.policyRevision = 1 ∨ policy.policyRevision = 2
  budget : policy.entries.length ≤ 16
  listed : e ∈ policy.entries
  identity : e.identity = (descriptor, build)
  only : policy.entries.countP (fun e => e.identity = (descriptor, build)) = 1
  meets : e.meets = true
  supported : e.qualification = .supported → policy.policyRevision = 2

variable {policy : Policy} {descriptor build : String} {e : Admission}

theorem filter_eq_singleton {α : Type} {p : α → Bool} {l : List α} {x : α} :
    l.filter p = [x] ↔ x ∈ l ∧ p x = true ∧ l.countP p = 1 := by
  rw [List.countP_eq_length_filter]
  constructor
  · intro hFilter
    have hMem : x ∈ l.filter p := by simp [hFilter]
    exact ⟨(List.mem_filter.mp hMem).1, (List.mem_filter.mp hMem).2, by simp [hFilter]⟩
  · rintro ⟨hMem, hHolds, hOne⟩
    rcases List.length_eq_one_iff.mp hOne with ⟨y, hFilter⟩
    have hFound : x ∈ l.filter p := List.mem_filter.mpr ⟨hMem, hHolds⟩
    rw [hFilter, List.mem_singleton] at hFound
    rw [hFilter, hFound]

theorem choose_iff : policy.choose descriptor build = .ok e ↔ policy.Admits descriptor build e := by
  constructor
  · intro hChosen
    unfold choose at hChosen
    split_ifs at hChosen with hPolicy
    rw [not_or, not_not, Nat.not_lt] at hPolicy
    split at hChosen
    · cases hChosen
    · rename_i hFound
      split_ifs at hChosen with hSound
      cases hChosen
      rcases filter_eq_singleton.mp hFound with ⟨hListed, hIdentity, hOnly⟩
      exact ⟨hPolicy.1, hPolicy.2, hListed, of_decide_eq_true hIdentity, hOnly, hSound.2, hSound.1⟩
    · cases hChosen
  · intro hAdmits
    have hFound := filter_eq_singleton.mpr
      ⟨hAdmits.listed, decide_eq_true hAdmits.identity, hAdmits.only⟩
    unfold choose
    rw [if_neg (by simp [hAdmits.policyRevision, hAdmits.budget]), hFound]
    exact if_pos ⟨hAdmits.supported, hAdmits.meets⟩

/- The order of the entries decides nothing, errors included. -/
theorem choose_perm {entries : List Admission} (hPerm : entries.Perm policy.entries) :
    ({ policy with entries := entries } : Policy).choose descriptor build =
      policy.choose descriptor build := by
  have hFound := hPerm.filter (fun e => e.identity = (descriptor, build))
  simp only [choose, hPerm.length_eq]
  generalize entries.filter _ = found at hFound
  generalize policy.entries.filter _ = other at hFound
  match other, hFound with
  | [], hFound => rw [hFound.eq_nil]
  | [x], hFound => rw [List.perm_singleton.mp hFound]
  | x :: y :: rest, hFound =>
    match found, hFound.length_eq with
    | _ :: _ :: _, _ => rfl

end Catalogue.Policy

-----
-- The Compiled Catalogue

namespace Catalogue

structure VerifiedMetadata where
  descriptorDigest : String
  buildId : String
  sdkApiHash : String
  qualificationRevision : Nat

structure AdmittedMetadata where
  metadata : VerifiedMetadata
  featureMask : Nat
  qualification : Qualification

/- What the build embeds, and how it is read. -/
structure Compiled where
  catalogue : List UInt8
  cataloguePin : String
  acceptance : List UInt8
  acceptancePin : String
  digest : List UInt8 → String
  readPolicy : List UInt8 → Option Policy
  readAcceptance : List UInt8 → Option Acceptance

/- What `guarded_bytes` makes of a path. -/
abbrev Files := String → Except IoError (List UInt8)

namespace Compiled

def pinned (c : Compiled) (bytes : List UInt8) (pin : String) : Bool :=
  bytes ≠ [] ∧ bytes.length ≤ 65536 ∧ hex pin ∧ c.digest bytes = pin

def select (c : Compiled) (descriptor build : String) : Except IoError Admission :=
  if c.pinned c.catalogue c.cataloguePin then
    match c.readPolicy c.catalogue with
    | none => .error (denied "invalid catalogue schema")
    | some policy => policy.choose descriptor build
  else .error (denied "missing/mismatched compile-pinned catalogue")

def verifyAcceptance (c : Compiled) (entry : SupportedEntry) : Except IoError Unit :=
  if c.pinned c.acceptance c.acceptancePin then
    match c.readAcceptance c.acceptance with
    | none => .error (denied "invalid acceptance schema")
    | some acceptance =>
      if acceptance.acceptanceRevision ≠ 1 ∨ 16 < acceptance.entries.length ∨
          acceptance.entries.count entry ≠ 1 then
        .error (denied "supported binding not independently accepted")
      else .ok ()
  else .error (denied "missing/mismatched compiled acceptance")

def verifyScope (c : Compiled) (files : Files) (e : Entry) : Except IoError Unit :=
  match files "/etc/machine-id" with
  | .error error => .error error
  | .ok machine =>
    if c.digest machine ≠ e.machineIdSha256 then .error (denied "candidate VM scope mismatch")
    else
      match files e.bootMarkerPath with
      | .error error => .error error
      | .ok marker =>
        if c.digest marker ≠ e.bootMarkerSha256 then .error (denied "candidate VM scope mismatch")
        else .ok ()

def verify (c : Compiled) (files : Files) : Admission → Except IoError Unit
  | .candidate e => c.verifyScope files e
  | .supported e => c.verifyAcceptance e

def recheck (c : Compiled) (files : Files) (metadata : VerifiedMetadata) : Except IoError Unit :=
  match c.select metadata.descriptorDigest metadata.buildId with
  | .error error => .error error
  | .ok entry => c.verify files entry

def qualify (c : Compiled) (files : Files) (metadata : VerifiedMetadata) :
    Except IoError AdmittedMetadata :=
  match c.select metadata.descriptorDigest metadata.buildId with
  | .error error => .error error
  | .ok entry =>
    if metadata.qualificationRevision ≠ entry.revision then
      .error (denied "descriptor qualification revision mismatch")
    else
      match c.verify files entry with
      | .error error => .error error
      | .ok () => .ok ⟨metadata, entry.featureMask, entry.qualification⟩

end Compiled

end Catalogue

-----
-- Accepting A Session

/- What one attempt to accept the compositor meets. -/
structure Attempt where
  now : Except IoError Nat
  accepted : Except IoError Transport
  unchanged : Except IoError Bool
  limit : Except IoError Nat
  greeting : Greeting

namespace Attempt

def hello (a : Attempt) (identity : Identity) : Except IoError Bridge := do
  let transport ← a.accepted
  if ¬ (← a.unchanged) then
    throw (denied "compositor PID/starttime changed at accept")
  let _ ← a.limit
  Bridge.passiveHandshake transport identity a.greeting

end Attempt

/- The failures of a greeting that the compositor may repeat. -/
def ErrorKind.retries : ErrorKind → Bool
  | .timedOut | .brokenPipe | .unexpectedEof | .connectionReset | .connectionAborted => true
  | _ => false

/- `none` while the deadline still allows another attempt. -/
def retryHello (deadline : Nat) (identity : Identity) :
    List Attempt → Option (Except IoError Bridge)
  | [] => none
  | a :: rest =>
    match a.now with
    | .error error => some (.error error)
    | .ok now =>
      if deadline ≤ now then some (.error ⟨.timedOut, "Hyprland admission deadline expired"⟩)
      else
        match a.hello identity with
        | .ok bridge => some (.ok bridge)
        | .error error =>
          if error.kind.retries then retryHello deadline identity rest else some (.error error)

namespace Session

def accept (metadata : Catalogue.VerifiedMetadata) (revalidated : Except IoError Unit)
    (deadline : Nat) (attempts : List Attempt) : Option (Except IoError Session) :=
  match revalidated with
  | .error error => some (.error error)
  | .ok () =>
    let identity : Identity := ⟨0, metadata.sdkApiHash, metadata.buildId⟩
    (retryHello deadline identity attempts).map fun result => result.map fun bridge =>
        { bridge := bridge
          identity := identity
          revision := metadata.qualificationRevision
          matcherBound := false
          active := false }

def acceptAdmitted (c : Catalogue.Compiled) (files : Catalogue.Files)
    (admitted : Catalogue.AdmittedMetadata) (revalidated : Except IoError Unit) (deadline : Nat)
    (attempts : List Attempt) : Option (Except IoError (Session × Qualification)) :=
  if ¬ validCapabilities admitted.metadata.qualificationRevision admitted.featureMask then
    some (.error (denied "unsupported admitted features"))
  else
    match c.recheck files admitted.metadata with
    | .error error => some (.error error)
    | .ok () =>
      (accept admitted.metadata revalidated deadline attempts).map fun result =>
        result.map fun s => ({ s with active := true }, admitted.qualification)

variable {H : Type} [EventHandler H]

/- A small step of a call, or `bind_matcher` with what `await_reconciliation` does. -/
inductive Call (H : Type) where
  | act (act : Act)
  | bindMatcher (awaitReconciliation : H → Nat → H × Bool)

def call (l : Live H) : Call H → Option (Live H × Returned)
  | .act act => advance l act
  | .bindMatcher awaitReconciliation =>
    match l.phase with
    | .idle =>
      let (h, bound) := awaitReconciliation l.handler l.session.bridge.nonce
      some (⟨{ l.session with matcherBound := bound }, .idle, h⟩, some (.ok bound))
    | _ => none

theorem advance_featureMask {l l' : Live H} {act : Act} {returned : Returned}
    (hStep : advance l act = some (l', returned)) :
    l'.session.featureMask = l.session.featureMask := by
  cases advanced_of_advance hStep with
  | polled env _ =>
    have hPolled := l.session.poll_polled env
    generalize l.session.poll env = answer at hPolled
    rcases answer with ⟨s, phase, result⟩
    cases hPolled <;> rfl
  | reconnected transport greeting _ =>
    simp only [Session.reconnect]
    split <;> rfl
  | _ => rfl

theorem call_featureMask {l l' : Live H} {op : Call H} {returned : Returned}
    (hStep : call l op = some (l', returned)) :
    l'.session.featureMask = l.session.featureMask := by
  cases op with
  | act act => exact advance_featureMask hStep
  | bindMatcher awaitReconciliation =>
    simp only [call] at hStep
    split at hStep <;> cases hStep
    rfl

/- No call of a session changes what it was admitted for. -/
theorem run_featureMask {l last : Live H} {log : List (Entry (Live H) (Call H) Returned)}
    (hRun : Run call l log last) :
    last.session.featureMask = l.session.featureMask :=
  hRun.invariant (P := fun last : Live H => last.session.featureMask = l.session.featureMask) rfl
    (fun _ _ _ _ hBefore hStep => (call_featureMask hStep).trans hBefore)

theorem featureMask_of_valid {s : Session} {features : Nat} (hActive : s.active = true)
    (hValid : validCapabilities s.revision features = true) :
    s.featureMask = features := by
  simp only [validCapabilities, decide_eq_true_eq] at hValid
  rcases hValid with ⟨hRevision, rfl⟩ | ⟨hRevision, rfl⟩ <;>
    simp [featureMask, hActive, hRevision]

theorem acceptAdmitted_ok {c : Catalogue.Compiled} {files : Catalogue.Files}
    {admitted : Catalogue.AdmittedMetadata} {revalidated : Except IoError Unit} {deadline : Nat}
    {attempts : List Attempt} {s : Session} {qualification : Qualification}
    (hAccepted : acceptAdmitted c files admitted revalidated deadline attempts =
      some (.ok (s, qualification))) :
    s.featureMask = admitted.featureMask ∧ qualification = admitted.qualification := by
  unfold acceptAdmitted at hAccepted
  split_ifs at hAccepted with hValid
  swap
  · cases hAccepted
  split at hAccepted
  · cases hAccepted
  · rcases Option.map_eq_some_iff.mp hAccepted with ⟨result, hAccept, hResult⟩
    cases result with
    | error error => cases hResult
    | ok passive =>
      cases hResult
      have hRevision : passive.revision = admitted.metadata.qualificationRevision := by
        unfold accept at hAccept
        split at hAccept
        · cases hAccept
        · rcases Option.map_eq_some_iff.mp hAccept with ⟨hello, _, hHello⟩
          cases hello <;> cases hHello
          rfl
      exact ⟨featureMask_of_valid rfl (by rw [hRevision]; exact hValid), rfl⟩

end Session

namespace Catalogue.Compiled

variable {c : Compiled}

/- The embedded bytes are the pinned ones and name a policy. -/
structure Carries (c : Compiled) (policy : Policy) : Prop where
  pinned : c.pinned c.catalogue c.cataloguePin = true
  read : c.readPolicy c.catalogue = some policy

theorem Carries.select_eq {policy : Policy} (hCarries : c.Carries policy)
    (descriptor build : String) : c.select descriptor build = policy.choose descriptor build := by
  simp only [select, hCarries.pinned, hCarries.read, if_true]

/- An entry qualifies with what it lists; a supported one was accepted. -/
theorem qualify_ok {files : Files} {metadata : VerifiedMetadata} {admitted : AdmittedMetadata}
    (hQualify : c.qualify files metadata = .ok admitted) :
    ∃ e, c.select metadata.descriptorDigest metadata.buildId = .ok e ∧
      admitted.featureMask = e.featureMask ∧ admitted.qualification = e.qualification ∧
      ∀ entry, e = .supported entry → ∀ acceptance,
        c.readAcceptance c.acceptance = some acceptance → acceptance.entries.count entry = 1 := by
  unfold qualify at hQualify
  split at hQualify
  · cases hQualify
  · rename_i e hSelect
    split_ifs at hQualify
    split at hQualify
    · cases hQualify
    · rename_i hVerified
      cases hQualify
      refine ⟨e, hSelect, rfl, rfl, ?_⟩
      rintro entry rfl acceptance hRead
      simp only [verify, verifyAcceptance, hRead] at hVerified
      split_ifs at hVerified with _ hRefused
      simp only [not_or, not_not] at hRefused
      exact hRefused.2.2

/-
  Admission is unambiguous.  An entry is selected if it is the only one of its identity,
  in a list within its budget and of a known revision, and its fields are sound; the order
  of the list plays no part.  A session accepted on it has the features of that entry, for
  as long as it lasts, and a supported one has its entry on the acceptance list once.
-/
theorem admission_unambiguous (c : Compiled) {policy : Policy} {acceptance : Acceptance}
    (hCarries : c.Carries policy) (hRead : c.readAcceptance c.acceptance = some acceptance) :
    (∀ descriptor build e,
      c.select descriptor build = .ok e ↔ policy.Admits descriptor build e) ∧
    (∀ (other : Compiled) (entries : List Admission), entries.Perm policy.entries →
      other.Carries { policy with entries := entries } →
      ∀ descriptor build, other.select descriptor build = c.select descriptor build) ∧
    (∀ files metadata admitted laterFiles revalidated deadline attempts session qualification,
      c.qualify files metadata = .ok admitted →
      Session.acceptAdmitted c laterFiles admitted revalidated deadline attempts =
        some (.ok (session, qualification)) →
      ∃ e, c.select metadata.descriptorDigest metadata.buildId = .ok e ∧
        (∀ (H : Type) [EventHandler H] (h : H) log last,
          Run Session.call ⟨session, .idle, h⟩ log last →
          last.session.featureMask = e.featureMask ∧
          (EventHandler.modifierReleaseActions (last.session.wrap last.handler) = true ↔
            e.featureMask = 3)) ∧
        (qualification = .supported →
          ∃ entry, e = .supported entry ∧ acceptance.entries.count entry = 1)) := by
  refine ⟨fun descriptor build e => ?_, fun other entries hPerm hOther descriptor build => ?_, ?_⟩
  · rw [hCarries.select_eq]
    exact Policy.choose_iff
  · rw [hOther.select_eq, hCarries.select_eq]
    exact Policy.choose_perm hPerm
  · intro files metadata admitted laterFiles revalidated deadline attempts session qualification
      hQualify hAccepted
    rcases qualify_ok hQualify with ⟨e, hSelect, hMask, hQualification, hSupported⟩
    rcases Session.acceptAdmitted_ok hAccepted with ⟨hSession, rfl⟩
    refine ⟨e, hSelect, fun H _ h log last hRun => ?_, fun hQualified => ?_⟩
    · have hFeatures : last.session.featureMask = e.featureMask :=
        (Session.run_featureMask hRun).trans (hSession.trans hMask)
      refine ⟨hFeatures, ?_⟩
      show (last.session.featureMask == tapFeatures) = true ↔ _
      rw [hFeatures, beq_iff_eq]
      exact Iff.rfl
    · rw [hQualification] at hQualified
      cases e with
      | candidate entry => cases hQualified
      | supported entry => exact ⟨entry, rfl, hSupported entry rfl acceptance hRead⟩

/- A digest, and a build that carries one policy and acceptance. -/
def aDigest : String := "aaaaaaaaaaaaaaaaaaaaaaaaaaaaaaaaaaaaaaaaaaaaaaaaaaaaaaaaaaaaaaaa"

def carrying (policy : Policy) (acceptance : Acceptance) : Compiled where
  catalogue := [0]
  cataloguePin := aDigest
  acceptance := [0]
  acceptancePin := aDigest
  digest := fun _ => aDigest
  readPolicy := fun _ => some policy
  readAcceptance := fun _ => some acceptance

def aSupported : SupportedEntry where
  descriptorSha256 := aDigest
  buildId := "stock"
  evidenceSha256 := aDigest
  qualificationRevision := 2
  featureMask := 3
  approvalRevision := 1

def aCandidate : Entry where
  descriptorSha256 := aDigest
  buildId := "stock"
  evidenceSha256 := aDigest
  featureMask := 1
  qualificationRevision := 1
  isolatedVm := true
  machineIdSha256 := aDigest
  bootMarkerPath := "/boot"
  bootMarkerSha256 := aDigest

/- The catalogue also lists another build. -/
def aCatalogue : Compiled :=
  carrying ⟨2, [.candidate { aCandidate with buildId := "other" }, .supported aSupported]⟩
    ⟨1, [aSupported]⟩

def aMetadata : VerifiedMetadata := ⟨aDigest, "stock", "api", 2⟩

def anAdmitted : AdmittedMetadata := ⟨aMetadata, 3, .supported⟩

def anAttempt : Attempt := ⟨.ok 0, .ok ⟨0⟩, .ok true, .ok 1, .hello ⟨0, "api", "stock"⟩ 5⟩

def aSession : Session := .admitted (.fresh 5) ⟨0, "api", "stock"⟩ 2

/- The matcher is bound and the compositor unlocked. -/
def bindAndUnlock : List (Session.Call Bystander) :=
  [.bindMatcher (fun h _ => (h, true)), .act (.poll (.reading ⟨⟨0, 1, 1, 9, 5⟩, .lock 0 0⟩)),
    .act .notify]

theorem admission_unambiguous_bound :
    let last := lastOf Session.call ⟨aSession, .idle, Bystander.mk⟩ bindAndUnlock
    aCatalogue.qualify (fun _ => .error invalid) aMetadata = .ok anAdmitted ∧
    Session.acceptAdmitted aCatalogue (fun _ => .error invalid) anAdmitted (.ok ()) 9 [anAttempt] =
      some (.ok (aSession, .supported)) ∧
    last.session.matcherBound = true ∧ last.session.bridge.sequence = 1 ∧
    last.session.featureMask = 3 ∧
    EventHandler.modifierReleaseActions (last.session.wrap last.handler) = true := by
  intro last
  have hQualify : aCatalogue.qualify (fun _ => .error invalid) aMetadata = .ok anAdmitted := rfl
  have hAccepted : Session.acceptAdmitted aCatalogue (fun _ => .error invalid) anAdmitted (.ok ())
      9 [anAttempt] = some (.ok (aSession, .supported)) := rfl
  refine ⟨hQualify, hAccepted, rfl, rfl, ?_⟩
  rcases (admission_unambiguous aCatalogue ⟨by decide +kernel, rfl⟩ rfl).2.2 _ _ _ _ _ _ _ _ _
    hQualify hAccepted with ⟨e, hSelect, hFeatures, _⟩
  have hEntry : aCatalogue.select aDigest "stock" = .ok (.supported aSupported) := rfl
  cases hEntry.symm.trans hSelect
  have hLast := hFeatures Bystander Bystander.mk _ last (Run.of_isSome (by decide +kernel))
  exact ⟨hLast.1, hLast.2.mpr rfl⟩

/- A sound candidate in a list of an unknown revision. -/
theorem select_unknown_revision :
    (carrying ⟨3, [.candidate aCandidate]⟩ ⟨1, []⟩).Carries ⟨3, [.candidate aCandidate]⟩ ∧
    (Admission.candidate aCandidate).meets = true ∧
    (Admission.candidate aCandidate).identity = (aDigest, "stock") ∧
    (carrying ⟨3, [.candidate aCandidate]⟩ ⟨1, []⟩).select aDigest "stock" =
      .error (denied "unsupported catalogue policy revision/budget") := by
  have hCarries : (carrying ⟨3, [.candidate aCandidate]⟩ ⟨1, []⟩).Carries
      ⟨3, [.candidate aCandidate]⟩ := ⟨by decide +kernel, rfl⟩
  refine ⟨hCarries, by decide +kernel, rfl, ?_⟩
  rw [hCarries.select_eq]
  rfl

end Catalogue.Compiled

end Sledge.Linux
