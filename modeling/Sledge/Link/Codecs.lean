import Sledge.Linux.Bridge
import Sledge.Native.StockWire

/-
  The two codecs of the connection, side by side.

  What the compositor writes is read by the daemon as it was
  meant, and the acknowledgement of a Hello is accepted where
  it echoes the Hello and nowhere else.

  Main results:
    * `handshakePacket_eq`
    * `correlated_iff`
    * `helloAck_iff`
    * `codecs_agree`
-/

-----
-- The Acknowledgement Of A Hello

namespace Sledge.Link

open Linux Native.Wire

/- The packet a handshake sends, where it sends one. -/
def acknowledgement (expected : Identity) (passive : Bool) (greetedAt : Except IoError Nat)
    (hello : Packet) : Except IoError Packet :=
  match hello.body with
  | .hello identity =>
    let timely : Except IoError Unit := if passive then
        if hello.scope.lockEpoch ≠ 0 ∨ hello.scope.deadlineNs ≠ 0 then
          .error invalid
        else .ok ()
      else checkDeadline greetedAt hello.scope.deadlineNs
    match timely with
    | .error error => .error error
    | .ok () =>
      if identity ≠ expected ∨ identity.apiHash = "" ∨ identity.artifact = "" ∨
          hello.scope.generation ≠ 0 ∨
          hello.scope.sequence ≠ 0 ∨
          hello.scope.nonce = 0 then
        .error invalid
      else
        .ok ⟨hello.scope, .helloAck ⟨0, identity.apiHash, identity.artifact⟩⟩
  | _ => .error invalid

/- A handshake fails, or sends its acknowledgement. -/
theorem handshakePacket_eq (transport : Transport) (expected : Identity) (passive : Bool)
    (greeting : Greeting) (hello : Packet) :
    Bridge.handshakePacket transport expected passive greeting hello =
      (acknowledgement expected passive greeting.greetedAt hello).bind (fun ack =>
        greeting.sent.map (fun _ =>
          { Bridge.fresh ack.scope.nonce with
            transport := some transport, epoch := ack.scope.lockEpoch })) := by
  unfold Bridge.handshakePacket acknowledgement
  cases hello.body with
  | hello identity =>
    -- Both make the same checks, in the same order.
    dsimp only
    generalize (if passive = true then _ else _) = timely
    cases timely with
    | error => rfl
    | ok =>
      dsimp only
      split_ifs
      · rfl
      · cases greeting.sent <;> rfl
  | _ => rfl

/- What is acknowledged is echoed, without capabilities. -/
theorem acknowledgement_ok {expected : Identity} {passive : Bool} {greetedAt : Except IoError Nat}
    {scope : Scope} {identity : Identity} {ack : Packet}
    (hAck : acknowledgement expected passive greetedAt ⟨scope, .hello identity⟩ = .ok ack) :
    ack = ⟨scope, .helloAck ⟨0, identity.apiHash, identity.artifact⟩⟩ := by
  simp only [acknowledgement] at hAck
  split at hAck
  · cases hAck
  split_ifs at hAck
  cases hAck
  rfl

-----
-- The Bytes Of A Scope

open Buffer

variable {p q : Packet}

def scopeBytes (s : Scope) : List UInt8 :=
  leBytes 8 s.generation ++ (leBytes 8 s.lockEpoch ++ (leBytes 8 s.sequence ++
        (leBytes 8 s.deadlineNs ++ leBytes 8 s.nonce)))

theorem scopeBytes_inj {s t : Scope} (hS : s.Fits) (hT : t.Fits)
    (hSame : scopeBytes s = scopeBytes t) : s = t := by
  have hNumber : ∀ {m n : Nat}, m < 2 ^ 64 → n < 2 ^ 64 → leBytes 8 m = leBytes 8 n → m = n := by
    intro m n hM hN hEq
    have hFirst : leNat (leBytes 8 m) = m := leNat_leBytes hM
    have hSecond : leNat (leBytes 8 n) = n := leNat_leBytes hN
    rw [← hFirst, ← hSecond, hEq]
  unfold scopeBytes at hSame
  rcases List.append_inj hSame (by simp) with ⟨hOne, hSame⟩
  rcases List.append_inj hSame (by simp) with ⟨hTwo, hSame⟩
  rcases List.append_inj hSame (by simp) with ⟨hThree, hSame⟩
  rcases List.append_inj hSame (by simp) with ⟨hFour, hFive⟩
  apply Scope.ext
  · exact hNumber hS.generation hT.generation hOne
  · exact hNumber hS.lockEpoch hT.lockEpoch hTwo
  · exact hNumber hS.sequence hT.sequence hThree
  · exact hNumber hS.deadlineNs hT.deadlineNs hFour
  · exact hNumber hS.nonce hT.nonce hFive

/- A packet as the compositor reads it. -/
structure Framed (p : Packet) (bytes : List UInt8) : Prop where
  length : bytes.length = 512
  header : header bytes p.body.opcode p.body.size = true
  scope : slice bytes 16 56 = scopeBytes p.scope
  body : slice bytes 64 (64 + p.body.size) = p.body.bytes

theorem framed_bytes (hBounded : p.body.Bounded) : Framed p p.bytes := by
  have hSize := Body.size_le hBounded
  have hOpcode := p.body.opcode_lt
  have hMagic : shp1.length = 4 := rfl
  have hZeros : ∀ n, (zeros n).all (· == 0) = true := by
    intro n
    simp [zeros]
  rcases (eq_puts_iff (Packet.placed hBounded)).mp rfl with ⟨hLength, hHolds⟩
  change p.bytes.length = 512 at hLength
  change Holds p.bytes 0 p.fields 512 at hHolds
  simp only [Packet.fields, Scope.fields, List.cons_append, List.nil_append, Holds, length_leBytes,
    slice_self, Nat.reduceAdd, Nat.reduceSub, Nat.sub_self, true_and, Body.length_bytes,
    hMagic] at hHolds
  rcases hHolds with ⟨hFirst, hVersion, hCode, hBodySize, hZero, hGeneration,
    hEpoch, hSequence, hDeadline, hNonce, hReserved, hBody,
    hTail⟩
  refine ⟨hLength, ?_, ?_, hBody⟩
  · have hReadCode : leNat (leBytes 2 p.body.opcode) = _ := leNat_leBytes hOpcode
    have hReadSize : leNat (leBytes 4 p.body.size) = _ := leNat_leBytes (by omega)
    simp only [Native.Wire.header, Native.Wire.get, Native.Wire.zero, Nat.reduceAdd, hFirst,
      hVersion, hCode, hBodySize, hZero, hReserved, hTail, hReadCode, hReadSize, hZeros,
      Bool.and_true, beq_self_eq_true]
    rfl
  · rw [scopeBytes, ← hGeneration, ← hEpoch, ← hSequence, ← hDeadline, ← hNonce]
    rw [← slice_split (by omega) (by omega),
      ← slice_split (by omega) (by omega),
      ← slice_split (by omega) (by omega),
      ← slice_split (by omega) (by omega)]

/- The replies to a packet carry its scope. -/
theorem correlated_iff (hP : p.scope.Fits ∧ p.body.Bounded) (hQ : q.scope.Fits ∧ q.body.Bounded) :
    correlated p.bytes q.bytes = true ↔ p.scope = q.scope := by
  rw [correlated, beq_iff_eq, (framed_bytes hP.2).scope, (framed_bytes hQ.2).scope]
  constructor
  · exact scopeBytes_inj hP.1 hQ.1
  · intro hSame
    rw [hSame]

/- The reply to a Hello echoes its scope and its identity. -/
theorem helloAck_iff {scope other : Scope} {i j : Identity} (hI : scope.Fits ∧ i.Valid)
    (hJ : other.Fits ∧ j.Valid) :
    helloAck (Packet.mk scope (.hello i)).bytes (Packet.mk other (.helloAck j)).bytes =
        true ↔
      scope = other ∧ i = j := by
  have hHello : (Body.hello i).Bounded := hI.2.bounded
  have hAck : (Body.helloAck j).Bounded := hJ.2.bounded
  have hFirst := framed_bytes (p := ⟨scope, .hello i⟩) hHello
  have hSecond := framed_bytes (p := ⟨other, .helloAck j⟩) hAck
  have hHeader : header (Packet.mk other (.helloAck j)).bytes 2 400 =
      true :=
    hSecond.header
  have hScope := correlated_iff (p := ⟨scope, .hello i⟩)
      (q := ⟨other, .helloAck j⟩) ⟨hI.1, hHello⟩ ⟨hJ.1, hAck⟩
  have hBodies : slice (Packet.mk scope (.hello i)).bytes 64 464 =
        slice (Packet.mk other (.helloAck j)).bytes 64 464 ↔
      i = j := by
    have hLeft : slice (Packet.mk scope (.hello i)).bytes 64 464 = (Body.hello i).bytes :=
      hFirst.body
    have hRight : slice (Packet.mk other (.helloAck j)).bytes 64 464 = (Body.hello j).bytes :=
      hSecond.body
    rw [hLeft, hRight]
    constructor
    · intro hSame
      have hOther : (Body.hello j).Bounded := hAck
      have hLaid := (Body.eq_bytes_iff hOther).mp hSame
      have hOwn := (Body.eq_bytes_iff hHello).mp rfl
      exact Identity.unique ⟨hI.2.capabilities.trans (by decide), hHello⟩
        ⟨hJ.2.capabilities.trans (by decide), hAck⟩
        hOwn.length hOwn.holds hLaid.holds
    · rintro rfl
      rfl
  rw [helloAck, hHeader, Bool.true_and, Bool.and_eq_true, hScope, beq_iff_eq, hBodies]

-----
-- Agreement

variable {packet : List UInt8}

/- A Hello is read, and its acknowledgement alone accepted. -/
theorem hello_agrees {nonce : Nat} {hash artifact : List UInt8} (hNonce : nonce < 2 ^ 64)
    (hHello : hello nonce hash artifact = some packet) :
    ∃ h a, asBytes h = hash ∧ asBytes a = artifact ∧ decode packet =
          .ok ⟨⟨0, 0, 0, 0, nonce⟩, .hello ⟨0, h, a⟩⟩ ∧
        (∀ greetedAt, ∃ ack, acknowledgement ⟨0, h, a⟩ true greetedAt
                ⟨⟨0, 0, 0, 0, nonce⟩, .hello ⟨0, h, a⟩⟩ =
              .ok ack) ∧
        (∀ passive greetedAt ack, acknowledgement ⟨0, h, a⟩ passive greetedAt
              ⟨⟨0, 0, 0, 0, nonce⟩, .hello ⟨0, h, a⟩⟩ =
            .ok ack →
          ∃ bytes, encode ack = .ok bytes ∧ helloAck packet bytes = true) ∧
        ∀ q j bytes, q.Fits → q.body = .helloAck j → encode q = .ok bytes →
          helloAck packet bytes = true →
          q.scope = ⟨0, 0, 0, 0, nonce⟩ ∧ j = ⟨0, h, a⟩ := by
  rcases hello_eq hHello with
    ⟨hNonzero, h, a, hHash, hArtifact, hHashSome, hArtifactSome, hValid, rfl⟩
  have hZero : 0 < 2 ^ 64 := by decide
  have hScope : Scope.Fits ⟨0, 0, 0, 0, nonce⟩ := ⟨hZero, hZero, hZero, hZero, hNonce⟩
  refine ⟨h, a, hHash, hArtifact, ?_, ?_, ?_, ?_⟩
  · exact decode_iff.mpr ⟨⟨hScope, hValid⟩, rfl⟩
  · intro greetedAt
    refine ⟨⟨⟨0, 0, 0, 0, nonce⟩, .helloAck ⟨0, h, a⟩⟩, ?_⟩
    simp [acknowledgement, hHashSome, hArtifactSome, hNonzero]
  · intro passive greetedAt ack hAck
    rw [acknowledgement_ok hAck]
    have hAckValid : Packet.Valid ⟨⟨0, 0, 0, 0, nonce⟩, .helloAck ⟨0, h, a⟩⟩ := ⟨hScope, hValid⟩
    refine ⟨_, (encode_iff hAckValid.fits).mpr ⟨hAckValid, rfl⟩, ?_⟩
    exact (helloAck_iff ⟨hScope, hValid⟩ ⟨hScope, hValid⟩).mpr ⟨rfl, rfl⟩
  · intro q j bytes hFits hBody hEncode hAccepted
    rcases (encode_iff hFits).mp hEncode with ⟨hPacket, rfl⟩
    rcases q with ⟨scope, body⟩
    cases hBody
    rcases (helloAck_iff ⟨hScope, hValid⟩ ⟨hPacket.scope, hPacket.body⟩).mp hAccepted with
      ⟨hSameScope, hSameIdentity⟩
    exact ⟨hSameScope.symm, hSameIdentity.symm⟩

/- A control packet is read as it was meant. -/
theorem control_agrees {opcode : Opcode} {scope : Scope} {value : Nat}
    (hScope : scope.Fits) (hControl : control opcode scope value = some packet) :
    ∃ o : Native.Opcode, opcode = wireOpcode o ∧
        decode packet = .ok ⟨scope, o.body value⟩ := by
  have hKnown : ∃ o, opcode = wireOpcode o := by
    cases opcode with
    | reset => exact ⟨.reset, rfl⟩
    | retire => exact ⟨.retire, rfl⟩
    | lock => exact ⟨.lock, rfl⟩
    | event | outcome => simp [Native.Wire.control] at hControl
  rcases hKnown with ⟨o, rfl⟩
  rw [control_eq, Native.control] at hControl
  split_ifs at hControl with hOut
  · cases hControl
  have hPacket := Option.some.inj hControl
  subst hPacket
  refine ⟨o, rfl, decode_iff.mpr ⟨⟨hScope, ?_⟩, rfl⟩⟩
  rw [Bool.or_eq_true, not_or] at hOut
  have hTaken := hOut.2
  cases o <;>
    simp [Native.Opcode.refuses, Native.Opcode.body, Body.Valid] at hTaken ⊢ <;>
    omega

theorem event_valid {key state time mods focus : Nat} (hKey : key < 768) (hState : state ≤ 2)
    (hTime : time < 2 ^ 32) (hMods : mods ≤ 255) (hFocus : focus < 2 ^ 64) {kind : Nat}
    {text : String} (hKind : kind ≤ 2) (hNone : kind = 0 ↔ text = "")
    (hLength : (asBytes text).length ≤ 256) (hClean : ¬ 0 ∈ asBytes text) :
    Event.Valid ⟨key, state, time, mods, focus, kind, text⟩ := by
  refine ⟨⟨?_, ?_, hTime, ?_, hFocus, ?_⟩, hState, ?_, hKind,
    hNone, hLength, hClean⟩ <;> dsimp only <;> omega

/- An event is read with the focus patched into it, if any. -/
theorem eventPacket_agrees {scope : Scope} {key state time mods focus : Nat} (hScope : scope.Fits)
    (hTime : time < 2 ^ 32) (hFocus : focus < 2 ^ 64)
    (hEvent : eventPacket scope key state time mods focus = some packet) :
    decode packet = .ok ⟨scope, .event ⟨key, state, time, mods, focus, 0, ""⟩⟩ ∧ ∀ kind identity,
        ((encodeFocus packet kind identity).2 = false → decode
              (encodeFocus packet kind identity).1 =
            .ok ⟨scope, .event ⟨key, state, time, mods, focus, 0, ""⟩⟩) ∧
        ((encodeFocus packet kind identity).2 = true → ∃ text, asBytes text = identity ∧
              decode (encodeFocus packet kind identity).1 = .ok ⟨scope, .event
                      ⟨key, state, time, mods, focus, kind, text⟩⟩) := by
  rw [eventPacket_eq, Native.eventPacket] at hEvent
  split_ifs at hEvent with hOut
  · cases hEvent
  have hPacket := Option.some.inj hEvent
  subst hPacket
  simp only [Bool.or_eq_true, decide_eq_true_eq, not_or, not_lt, not_le] at hOut
  rcases hOut with ⟨⟨⟨_, hKey⟩, hState⟩, hMods⟩
  have hKeyBound : key < 768 := hKey
  have hEmpty : asBytes "" = [] := rfl
  have hPlain : decode (Packet.mk scope (.event ⟨key, state, time, mods, focus, 0, ""⟩)).bytes = .ok
      ⟨scope, .event ⟨key, state, time, mods, focus, 0, ""⟩⟩ := by
    refine decode_iff.mpr ⟨⟨hScope, ?_⟩, rfl⟩
    refine event_valid hKeyBound hState hTime hMods hFocus (Nat.zero_le 2) (by simp) ?_ ?_
    · rw [hEmpty]
      exact Nat.zero_le 256
    · rw [hEmpty]
      exact List.not_mem_nil
  refine ⟨hPlain, fun kind identity => ⟨?_, ?_⟩⟩
  · intro hRefused
    unfold encodeFocus at hRefused ⊢
    split_ifs at hRefused ⊢
    exact hPlain
  · intro hPatched
    by_cases hAccepted : (kind = 1 ∨ kind = 2) ∧ Native.Focus.validFocusIdentity identity = .ok true
    swap
    · unfold encodeFocus at hPatched
      rw [if_pos (not_and_or.mp hAccepted)] at hPatched
      cases hPatched
    rcases hAccepted with ⟨hKind, hText⟩
    rcases (Native.Focus.validFocusIdentity_iff_text identity).mp hText with
      ⟨hSome, hLength, text, hRead⟩
    rcases text_ok_iff.mp hRead with ⟨hClean, rfl⟩
    refine ⟨text, rfl, ?_⟩
    rw [encodeFocus_event hLength hKind hText]
    refine decode_iff.mpr ⟨⟨hScope, ?_⟩, rfl⟩
    refine event_valid hKeyBound hState hTime hMods hFocus (by omega) ?_ hLength hClean
    constructor
    · omega
    · rintro rfl
      exact absurd rfl hSome

/- The bytes of the compositor, as the daemon reads them. -/
theorem codecs_agree : (∀ nonce hash artifact packet, nonce < 2 ^ 64 →
      hello nonce hash artifact = some packet →
      ∃ h a, asBytes h = hash ∧ asBytes a = artifact ∧ decode packet =
            .ok ⟨⟨0, 0, 0, 0, nonce⟩, .hello ⟨0, h, a⟩⟩ ∧
          (∀ greetedAt, ∃ ack, acknowledgement ⟨0, h, a⟩ true greetedAt
                  ⟨⟨0, 0, 0, 0, nonce⟩, .hello ⟨0, h, a⟩⟩ =
                .ok ack) ∧
          (∀ passive greetedAt ack, acknowledgement ⟨0, h, a⟩ passive greetedAt
                ⟨⟨0, 0, 0, 0, nonce⟩, .hello ⟨0, h, a⟩⟩ =
              .ok ack →
            ∃ bytes, encode ack = .ok bytes ∧ helloAck packet bytes = true) ∧
          ∀ q j bytes, q.Fits → q.body = .helloAck j → encode q = .ok bytes →
            helloAck packet bytes = true →
            q.scope = ⟨0, 0, 0, 0, nonce⟩ ∧ j = ⟨0, h, a⟩) ∧
      (∀ opcode scope value packet, scope.Fits →
        control opcode scope value = some packet →
        ∃ o : Native.Opcode, opcode = wireOpcode o ∧
            decode packet = .ok ⟨scope, o.body value⟩) ∧
      ∀ scope key state time mods focus packet, scope.Fits → time < 2 ^ 32 → focus < 2 ^ 64 →
        eventPacket scope key state time mods focus = some packet →
        decode packet = .ok ⟨scope, .event ⟨key, state, time, mods, focus, 0, ""⟩⟩ ∧
          ∀ kind identity, ((encodeFocus packet kind identity).2 = false → decode
                  (encodeFocus packet kind identity).1 =
                .ok ⟨scope, .event ⟨key, state, time, mods, focus, 0, ""⟩⟩) ∧
            ((encodeFocus packet kind identity).2 = true → ∃ text,
                asBytes text = identity ∧ decode (encodeFocus packet kind identity).1 =
                    .ok ⟨scope, .event ⟨key, state, time, mods, focus, kind, text⟩⟩) := by
  refine ⟨?_, ?_, ?_⟩
  · intro nonce hash artifact packet hNonce hHello
    exact hello_agrees hNonce hHello
  · intro opcode scope value packet hScope hControl
    exact control_agrees hScope hControl
  · intro scope key state time mods focus packet hScope hTime hFocus hEvent
    exact eventPacket_agrees hScope hTime hFocus hEvent

theorem codecs_agree_reconciliation :
    ∃ packet, control .reset ⟨0, 7, 1, 1000, 5⟩ 8 = some packet ∧ ∃ o : Native.Opcode,
          Opcode.reset = wireOpcode o ∧ decode packet =
              .ok ⟨⟨0, 7, 1, 1000, 5⟩, o.body 8⟩ := by
  have hScope : Scope.Fits ⟨0, 7, 1, 1000, 5⟩ :=
    ⟨by decide, by decide, by decide, by decide, by decide⟩
  have hControl : control .reset ⟨0, 7, 1, 1000, 5⟩ 8 = some (put
      (envelope .reset 8 ⟨0, 7, 1, 1000, 5⟩)
      64 4 8) := by
    rw [Native.Wire.control, if_neg (by decide)]
  exact ⟨_, hControl, codecs_agree.2.1 _ _ _ _ hScope hControl⟩

end Sledge.Link
