import Sledge.Native.RingWindow

/-
  The order of notifications and events on one connection.

  The worker looks at the ring first and at the mailbox only
  when the ring was empty.  Between the two looks the
  compositor thread can queue a notification and publish an
  event, and the event is then sent first.  If every claim of
  a request finds the ring still empty, this cannot happen.

  Main results:
    * `StockWorker.stream_ordered`
    * `StockWorker.event_overtakes`
-/

-----
-- The Claim Of A Request

namespace Sledge.Native

open Transition

/- A request is claimed by a `take` that finds one. -/
theorem Exchange.claimed_of_step {α : Type} {s s' : Exchange α} {op : Exchange.Op α}
    (hStep : s.step op = some (s', .claimed)) : op = .take ∧ s.mailbox.phase = .request := by
  generalize hSignal : Signal.claimed = signal at hStep
  cases stepped_of_step hStep with
  | decide _ =>
    unfold DecisionMailbox.decide at hSignal
    split at hSignal <;> cases hSignal
  | advance hAdvances =>
    generalize s.producer = producer at hAdvances
    cases hAdvances <;> cases hSignal
  | serve hServes =>
    generalize s.worker = worker at hServes
    cases hServes with
    | claim hPhase => exact ⟨rfl, hPhase⟩
    | _ => cases hSignal

namespace StockWorker

variable {α : Type} {f : Framing α} {seed : Nat}

variable {s s' : StockWorker α}

theorem claimed_of_work {a : Ambient α} (hStep : s.work f seed a = some (s', .mailbox .claimed)) :
    (∃ link, s.place = .taking link) ∧ s.exchange.mailbox.phase = .request := by
  generalize hPlace : s.place = place at hStep
  cases place <;>
    simp only [work, hPlace, workRun, workConnect, workLoop, workTransaction, goto, onMailbox,
      Option.or_none, Option.none_or, Option.map_eq_some_iff] at hStep
  case taking link =>
    rcases hStep with ⟨⟨x, y⟩, hExchange, hSame⟩
    cases hSame
    exact ⟨⟨link, rfl⟩, (Exchange.claimed_of_step hExchange).2⟩
  case taken | completing | finishing =>
    rcases hStep with ⟨⟨x, y⟩, hExchange, hSame⟩
    cases hSame
    cases (Exchange.claimed_of_step hExchange).1
  all_goals repeat' split at hStep
  all_goals cases hStep

theorem not_mailbox_of_call {signal : Native.Signal α}
    (hStep : s.call f = some (s', .mailbox signal)) : False := by
  unfold call at hStep
  cases hCaller : s.caller <;>
    simp only [hCaller, resume, leave] at hStep
  all_goals repeat' split at hStep
  all_goals cases hStep

theorem not_mailbox_of_enter {op : Op α} {signal : Native.Signal α}
    (hStep : s.enter op = some (s', .mailbox signal)) : False := by
  cases op <;> simp only [enter, resume, leave] at hStep
  all_goals repeat' split at hStep
  all_goals cases hStep

theorem not_claimed_of_onDecide {op : Exchange.Op α} (hOp : op ≠ .take)
    (hStep : s.onDecide op = some (s', .mailbox .claimed)) : False := by
  rcases Option.map_eq_some_iff.mp hStep with ⟨⟨x, y⟩, hExchange, hSame⟩
  cases hSame
  exact hOp (Exchange.claimed_of_step hExchange).1

/- Only the worker claims, at its `take`. -/
theorem claimed_of_step {op : Op α} (hStep : s.step f seed op = some (s', .mailbox .claimed)) :
    (∃ a, op = .work a) ∧ (∃ link, s.place = .taking link) ∧ s.exchange.mailbox.phase = .request := by
  cases op with
  | work a => exact ⟨⟨a, rfl⟩, claimed_of_work hStep⟩
  | call => exact (not_mailbox_of_call hStep).elim
  | advance now wait => exact (not_claimed_of_onDecide (by simp) hStep).elim
  | decide event deadlineNs start =>
    simp only [step] at hStep
    split at hStep
    · exact (not_claimed_of_onDecide (by simp) hStep).elim
    · cases hStep
  | _ =>
    simp only [step] at hStep
    split at hStep
    · exact (not_mailbox_of_enter hStep).elim
    · cases hStep

/- Where the worker is about to claim a request, the ring is still empty. -/
def claimsWhenEmpty (e : Entry α) : Bool :=
  match e.op, e.pre.place with
  | .work _, .taking _ =>
    e.pre.exchange.mailbox.phase ≠ .request ∨ e.pre.ring.read = e.pre.ring.write
  | _, _ => true

-----
-- Overtaking

/- The event a `decide` call offers. -/
def offered (e : Entry α) : Option α :=
  match e.op with
  | .decide event _ _ => some event
  | _ => none

/-
  An event overtakes a notification.  At `i` the notification is queued, at `j` the event
  is offered by a `decide` call, at `k` the worker claims that call's request, at `m` the
  event is sent, and at `l`, on the same connection, the notification.
-/
structure Overtaken (history : List (Entry α)) (i j k m l : Nat) (n : Notification α) (link : Link)
    (event : α) : Prop where
  order : i < j ∧ j < k ∧ k < m ∧ m < l
  queuing : history[i]?.map (fun e => e.out) = some (.queued n)
  calling : history[j]?.bind offered = some event
  sameCall : ∀ x < k, j < x → history[x]?.bind offered = none
  claiming : history[k]?.map (fun e => e.out) = some (.mailbox .claimed)
  sameClaim : ∀ x < m, k < x → history[x]?.map (fun e => e.out) ≠ some (.mailbox .claimed)
  sending : history[m]?.map (fun e => e.out) = some (.sentEvent link event)
  passing : history[l]?.map (fun e => e.out) = some (.sent link n)
  sameItem : (fates (history.take l)).length = (queued (history.take i)).length

def Overtakes (history : List (Entry α)) : Prop :=
  ∃ i j k m l n link event, Overtaken history i j k m l n link event

/- Histories of a longer part of a run only grow. -/
theorem fates_take_le (history : List (Entry α)) {k l : Nat} (hLe : k ≤ l) :
    (fates (history.take k)).length ≤ (fates (history.take l)).length := by
  obtain ⟨d, rfl⟩ := Nat.exists_eq_add_of_le hLe
  rw [List.take_add]
  simp [fates]

theorem queued_take_lt {history : List (Entry α)} {i k : Nat} {n : Notification α} (hLt : i < k)
    (hQueuing : history[i]?.map (fun e => e.out) = some (.queued n)) :
    (queued (history.take i)).length < (queued (history.take k)).length := by
  obtain ⟨d, rfl⟩ := Nat.exists_eq_add_of_le hLt
  rcases Option.map_eq_some_iff.mp hQueuing with ⟨e, hAt, hOut⟩
  have hQueued : queuedBy e ≠ none := by simp [queuedBy, hOut]
  rcases Option.ne_none_iff_exists'.mp hQueued with ⟨x, hx⟩
  rw [List.take_add, List.take_add_one, hAt]
  simp [queued, hx]

/- At a claim that finds the ring empty, all is consumed. -/
theorem consumed_of_claim {trace : List (Entry α)} {s : StockWorker α} {e : Entry α}
    (hRun : Run f seed (trace ++ [e]) s) (hClaim : e.out = .mailbox .claimed)
    (hEmpty : claimsWhenEmpty e = true) : (queued trace).length ≤ (fates trace).length := by
  rcases hRun.concat_inv with ⟨hFront, hStep⟩
  rw [hClaim] at hStep
  rcases claimed_of_step hStep with ⟨⟨a, hWork⟩, ⟨link, hPlace⟩, hPhase⟩
  have hRing : e.pre.ring.read = e.pre.ring.write := by
    simpa [claimsWhenEmpty, hWork, hPlace, hPhase] using hEmpty
  have hItems := ((run_window hFront).holds.read_eq_write_iff capacity_lt).mp hRing
  have hLength := congrArg List.length hItems
  simp only [items, pending, List.length_map, List.length_drop, List.length_nil] at hLength
  omega

/-
  If every claim of a request finds the ring still empty, no event overtakes a
  notification queued before it was offered.
-/
theorem stream_ordered (f : Framing α) (seed : Nat) {history : List (Entry α)} {s : StockWorker α}
    (hRun : Run f seed history s) (hClaims : ∀ e ∈ history, claimsWhenEmpty e = true) :
    ¬ Overtakes history := by
  rintro ⟨i, j, k, m, l, n, link, event, h⟩
  rcases h.order with ⟨hij, hjk, hkm, hml⟩
  rcases Option.map_eq_some_iff.mp h.claiming with ⟨e, hAt, hOut⟩
  obtain ⟨hLt, hGet⟩ := List.getElem?_eq_some_iff.mp hAt
  have hSplit : history = history.take k ++ e :: history.drop (k + 1) := by
    rw [← hGet, List.getElem_cons_drop, List.take_append_drop]
  rw [hSplit] at hRun
  rcases hRun.upto with ⟨mid, hUpto⟩
  have hConsumed := consumed_of_claim hUpto hOut (hClaims e (List.mem_of_getElem? hAt))
  have hQueued := queued_take_lt (k := k) (by omega) h.queuing
  have hFates := fates_take_le history (k := k) (l := l) (by omega)
  have hItem := h.sameItem
  omega

/- Notification 501 is sent before event 502 is claimed. -/
def timelyNotification : List (Op Nat) :=
  List.replicate 8 (Op.work Ambient.calm) ++ [Op.notify 501] ++
    List.replicate 6 Op.call ++ [Op.decide 502 100 1] ++
    List.replicate 4 (Op.advance 0 .woken) ++
    List.replicate 14 (Op.work Ambient.calm)

theorem stream_ordered_timelyNotification : ((entriesOf (step Framing.numbered 5)
        (initial Framing.numbered) timelyNotification).map (fun e => e.out)).getLast? =
        some (.sentEvent ⟨1, 5⟩ 502) ∧
      ¬ Overtakes (entriesOf (step Framing.numbered 5)
          (initial Framing.numbered) timelyNotification) :=
  ⟨by decide +kernel,
    stream_ordered Framing.numbered 5 (Run.of_isSome (by decide +kernel))
      (List.all_eq_true.mp (by decide +kernel))⟩

/-
  The worker finds the ring empty.  Notification 501 is then queued and event 502
  published, before the worker goes on to its `take`.
-/
def lateNotification : List (Op Nat) :=
  List.replicate 11 (Op.work Ambient.calm) ++ [Op.notify 501] ++
    List.replicate 6 Op.call ++ [Op.decide 502 100 1] ++
    List.replicate 4 (Op.advance 0 .woken) ++
    List.replicate 16 (Op.work Ambient.calm)

/- The history of that interleaving. -/
def lateNotificationRun : List (Entry Nat) :=
  entriesOf (step Framing.numbered 5) (initial Framing.numbered) lateNotification

theorem event_overtakes : Run Framing.numbered 5 lateNotificationRun
        (lastOf (step Framing.numbered 5) (initial Framing.numbered) lateNotification) ∧
      Overtakes lateNotificationRun := by
  refine ⟨.of_isSome (by decide +kernel), ?_⟩
  refine ⟨17, 18, 23, 27, 38, ⟨501, 1⟩, ⟨1, 5⟩, 502, ?_⟩
  exact
    { order := by decide +kernel
      queuing := by decide +kernel
      calling := by decide +kernel
      sameCall := by decide +kernel
      claiming := by decide +kernel
      sameClaim := by decide +kernel
      sending := by decide +kernel
      passing := by decide +kernel
      sameItem := by decide +kernel }

end StockWorker

end Sledge.Native
