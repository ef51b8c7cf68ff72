import Mathlib.Data.List.Chain
import Mathlib.Order.Bounds.Basic

/-
  Numbered events, read backwards.

  `SinceAt` looks for a marked point with only quiet points
  after it.  `Longest` is the length of the longest chain that
  ends at a point, along a relation where a point has at most
  one predecessor.  `Spans` counts stretches that follow one
  another.

  Main rules:
    * `sinceAt_succ`
    * `Chain.take`
    * `Longest.first`
    * `Longest.next`
    * `Longest.exists_of_forward`
    * `Longest.unique`
    * `Spans.map`
-/

-----
-- Since A Point

namespace Timeline

/- A marked point before `n`, and quiet points after it. -/
def SinceAt (mark quiet : Nat → Prop) (n : Nat) : Prop :=
  ∃ j < n, mark j ∧ ∀ l, j < l → l < n → quiet l

variable {mark quiet : Nat → Prop} {n : Nat}

theorem not_sinceAt_zero : ¬ SinceAt mark quiet 0 := by
  rintro ⟨j, hBefore, _⟩
  exact absurd hBefore (Nat.not_lt_zero j)

/- How one more point can establish the property. -/
theorem sinceAt_succ : SinceAt mark quiet (n + 1) ↔ mark n ∨ (SinceAt mark quiet n ∧ quiet n) := by
  constructor
  · rintro ⟨j, hBefore, hMark, hQuiet⟩
    rcases Nat.lt_succ_iff_lt_or_eq.mp hBefore with hEarlier | rfl
    · right
      refine ⟨⟨j, hEarlier, hMark, ?_⟩, ?_⟩
      · intro l hAfter hLast
        exact hQuiet l hAfter (Nat.lt_succ_of_lt hLast)
      · exact hQuiet n hEarlier (Nat.lt_succ_self n)
    · exact .inl hMark
  · rintro (hMark | ⟨⟨j, hBefore, hMark, hQuiet⟩, hLast⟩)
    · refine ⟨n, Nat.lt_succ_self n, hMark, ?_⟩
      intro l hAfter hBefore
      omega
    · refine ⟨j, Nat.lt_succ_of_lt hBefore, hMark, ?_⟩
      intro l hAfter hWithin
      rcases Nat.lt_succ_iff_lt_or_eq.mp hWithin with hEarlier | rfl
      · exact hQuiet l hAfter hEarlier
      · exact hLast

-----
-- Longest Chains

variable {α : Type}

/- Points that end at `i`, each linked to the one before. -/
def Chain (link : α → α → Prop) (i : α) (earlier : List α) : Prop :=
  (i :: earlier).IsChain (fun later sooner => link sooner later)

/- The length of the longest chain that ends at `i`. -/
def Longest (link : α → α → Prop) (i : α) (n : Nat) : Prop :=
  IsGreatest {n | ∃ earlier, Chain link i earlier ∧ n = earlier.length + 1} n

variable {link : α → α → Prop} {a i : α}

theorem Chain.take {earlier : List α} (hChain : Chain link i earlier) (k : Nat) :
    Chain link i (earlier.take k) :=
  List.IsChain.take hChain (k + 1)

namespace Longest

theorem unique {m : Nat} (hLeft : Longest link i n) (hRight : Longest link i m) : n = m :=
  IsGreatest.unique hLeft hRight

theorem first (hFirst : ∀ a, ¬ link a i) : Longest link i 1 := by
  constructor
  · exact ⟨[], List.isChain_singleton i, rfl⟩
  · rintro m ⟨earlier, hChain, rfl⟩
    cases earlier with
    | nil => exact Nat.le_refl 1
    | cons a rest => exact absurd (List.isChain_cons_cons.mp hChain).1 (hFirst a)

theorem next (hLongest : Longest link a n) (hOnly : ∀ b, link b i → b = a) (hLink : link a i) :
    Longest link i (n + 1) := by
  rcases hLongest with ⟨⟨earlier, hChain, rfl⟩, hBound⟩
  constructor
  · exact ⟨a :: earlier, List.isChain_cons_cons.mpr ⟨hLink, hChain⟩, rfl⟩
  · rintro m ⟨others, hOther, rfl⟩
    cases others with
    | nil => simp
    | cons b rest =>
      rcases List.isChain_cons_cons.mp hOther with ⟨hBefore, hRest⟩
      obtain rfl := hOnly b hBefore
      have hLength := hBound ⟨rest, hRest, rfl⟩
      simpa using hLength

/- Where links go forward, every point has a longest chain. -/
theorem exists_of_forward {link : Nat → Nat → Prop} (hForward : ∀ a b, link a b → a < b)
    (hOnly : ∀ a b i, link a i → link b i → a = b) (i : Nat) : ∃ n, Longest link i n := by
  induction i using Nat.strong_induction_on with
  | _ i ih =>
    by_cases hLink : ∃ a, link a i
    · rcases hLink with ⟨a, hLink⟩
      rcases ih a (hForward a i hLink) with ⟨n, hLongest⟩
      refine ⟨n + 1, hLongest.next ?_ hLink⟩
      intro b hOther
      exact hOnly b a i hOther hLink
    · exact ⟨1, first (not_exists.mp hLink)⟩

end Longest

-----
-- Spans In A Row

variable {τ : Type}

/-
  `count` spans one after another, from `first` to `last`, where each ends near the end of
  the one before.
-/
inductive Spans (span : Nat → Nat → τ → Prop) (near : τ → τ → Prop) :
    Nat → Nat → Nat → τ → Prop where
  | one {first last : Nat} {t : τ} (hSpan : span first last t) : Spans span near 1 first last t
  | more {count first mid start last : Nat} {s t : τ} (hBefore : Spans span near count first mid s)
      (hOrder : mid < start)
      (hSpan : span start last t)
      (hNear : near s t) :
      Spans span near (count + 1) first last t

namespace Spans

variable {span span' : Nat → Nat → τ → Prop} {near : τ → τ → Prop} {count first last : Nat} {t : τ}

/- The last span, and the point it starts at. -/
theorem last_span (hSpans : Spans span near count first last t) : ∃ start, span start last t := by
  cases hSpans with
  | one hSpan | more _ _ hSpan _ => exact ⟨_, hSpan⟩

theorem lt (hForward : ∀ a b s, span a b s → a < b) (hSpans : Spans span near count first last t) :
    first < last := by
  induction hSpans with
  | one hSpan => exact hForward _ _ _ hSpan
  | more _ hOrder hSpan _ ih => exact (ih.trans hOrder).trans (hForward _ _ _ hSpan)

theorem map (f : Nat → Nat) (hSpan : ∀ a b s, span a b s → span' (f a) (f b) s)
    (hOrder : ∀ a b c d r s, span a b r → span c d s → b < c → f b < f c)
    (hSpans : Spans span near count first last t) :
    Spans span' near count (f first) (f last) t := by
  induction hSpans with
  | one hOne => exact .one (hSpan _ _ _ hOne)
  | more hBefore hLess hLast hNear ih =>
    rcases hBefore.last_span with ⟨start, hMid⟩
    exact .more ih (hOrder _ _ _ _ _ _ hMid hLast hLess) (hSpan _ _ _ hLast) hNear

end Spans

end Timeline
