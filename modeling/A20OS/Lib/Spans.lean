import Mathlib.Data.List.Sort

/-!
Lists of tagged spans of integers.

A span marks every integer from `start` to `stop` with its tag (`Marks`). `cut` takes a range out
of a span, `sortSpans` is insertion sort by start, and `coalesce` joins a span to the one before
it when they have the same tag and leave no gap. Spans that are pairwise `Apart` stay so.
-/

namespace A20OS.Lib

open List

universe u

variable {τ : Type u} {hi lo x : Int}

structure Span (τ : Type u) where
  start : Int
  stop : Int
  tag : τ
deriving DecidableEq

variable {l₁ l₂ seen spans : List (Span τ)} {s : Span τ} {t : τ}

/-- Some span of the list with tag `t` contains `x`. -/
def Marks (spans : List (Span τ)) (t : τ) (x : Int) : Prop :=
  ∃ s ∈ spans, s.tag = t ∧ s.start ≤ x ∧ x ≤ s.stop

instance [DecidableEq τ] (spans : List (Span τ)) (t : τ) (x : Int) :
    Decidable (Marks spans t x) := by
  unfold Marks
  infer_instance

@[simp] theorem marks_nil : ¬ Marks [] t x := by
  simp [Marks]

@[simp] theorem marks_cons :
    Marks (s :: spans) t x ↔ (s.tag = t ∧ s.start ≤ x ∧ x ≤ s.stop) ∨ Marks spans t x := by
  simp [Marks]

@[simp] theorem marks_append : Marks (l₁ ++ l₂) t x ↔ Marks l₁ t x ∨ Marks l₂ t x := by
  simp [Marks, or_and_right, exists_or]

theorem marks_of_perm (same : l₁.Perm l₂) : Marks l₁ t x ↔ Marks l₂ t x := by
  simp only [Marks, same.mem_iff]

@[simp] theorem marks_reverse {l : List (Span τ)} : Marks l.reverse t x ↔ Marks l t x :=
  marks_of_perm l.reverse_perm

/-- The two spans have no integer in common. -/
def Span.Apart (a b : Span τ) : Prop := a.stop < b.start ∨ b.stop < a.start

instance (a b : Span τ) : Decidable (a.Apart b) := by
  unfold Span.Apart
  infer_instance

theorem Span.Apart.symm {a b : Span τ} (h : a.Apart b) : b.Apart a := Or.symm h

/-- Every span contains an integer and no two have one in common. -/
structure Spread (spans : List (Span τ)) : Prop where
  inhabited : ∀ s ∈ spans, s.start ≤ s.stop
  apart : spans.Pairwise Span.Apart

@[simp] theorem spread_nil : Spread ([] : List (Span τ)) :=
  ⟨by simp, .nil⟩

theorem Spread.perm (h : Spread l₁) (same : l₁.Perm l₂) : Spread l₂ where
  inhabited s member := h.inhabited s (same.mem_iff.mpr member)
  apart := (same.pairwise_iff Span.Apart.symm).mp h.apart

/-! ### Taking a range out -/

/-- What is left of a span without the integers from `lo` to `hi`. -/
def Span.cut (lo hi : Int) (s : Span τ) : List (Span τ) :=
  if s.stop < lo ∨ hi < s.start then [s]
  else
    (if s.start < lo then [{ s with stop := lo - 1 }] else []) ++
      (if hi < s.stop then [{ s with start := hi + 1 }] else [])

/-- The pieces of a cut lie in the span, outside the range, under the span's tag. -/
theorem Span.mem_cut {p : Span τ} (member : p ∈ s.cut lo hi) :
    s.start ≤ p.start ∧ p.stop ≤ s.stop ∧ (p.stop < lo ∨ hi < p.start) ∧
      (s.start ≤ s.stop → p.start ≤ p.stop) ∧ p.tag = s.tag := by
  by_cases outside : s.stop < lo ∨ hi < s.start
  · rw [Span.cut, if_pos outside, mem_singleton] at member
    subst member
    refine ⟨?_, ?_, ?_, ?_, rfl⟩ <;> omega
  rw [Span.cut, if_neg outside, mem_append] at member
  rcases member with member | member
  · obtain ⟨left, rfl⟩ := mem_ite_nil_right.mp member |>.imp_right mem_singleton.mp
    refine ⟨?_, ?_, ?_, ?_, rfl⟩ <;> dsimp only <;> omega
  · obtain ⟨right, rfl⟩ := mem_ite_nil_right.mp member |>.imp_right mem_singleton.mp
    refine ⟨?_, ?_, ?_, ?_, rfl⟩ <;> dsimp only <;> omega

theorem Span.marks_cut : Marks (s.cut lo hi) t x ↔ Marks [s] t x ∧ ¬ (lo ≤ x ∧ x ≤ hi) := by
  by_cases tagged : s.tag = t
  · by_cases outside : s.stop < lo ∨ hi < s.start
    · simp only [Span.cut, if_pos outside, marks_cons, marks_nil, or_false, tagged, true_and]
      omega
    · simp only [Span.cut, if_neg outside, marks_append, marks_cons, marks_nil, or_false, tagged,
        true_and]
      split <;> split <;> simp <;> omega
  · simp only [Marks, mem_singleton, exists_eq_left, tagged, false_and, iff_false]
    rintro ⟨p, member, same, -⟩
    exact tagged ((Span.mem_cut member).2.2.2.2.symm.trans same)

theorem marks_flatMap_cut :
    Marks (spans.flatMap (Span.cut lo hi)) t x ↔ Marks spans t x ∧ ¬ (lo ≤ x ∧ x ≤ hi) := by
  induction spans with
  | nil => simp
  | cons s spans ih =>
    rw [flatMap_cons, marks_append, Span.marks_cut, ih, marks_cons, marks_cons]
    simp only [marks_nil, or_false, or_and_right]

/-- The two pieces of one cut are apart. -/
theorem Span.apart_cut (order : lo ≤ hi) (s : Span τ) : (s.cut lo hi).Pairwise Span.Apart := by
  unfold Span.cut
  split
  · simp
  · split <;> split <;> simp [Span.Apart]
    omega

theorem Spread.cut (order : lo ≤ hi) (h : Spread spans) :
    Spread (spans.flatMap (Span.cut lo hi)) where
  inhabited p member := by
    obtain ⟨s, listed, piece⟩ := mem_flatMap.mp member
    exact (Span.mem_cut piece).2.2.2.1 (h.inhabited s listed)
  apart := by
    rw [pairwise_flatMap]
    refine ⟨fun s _ => Span.apart_cut order s, h.apart.imp ?_⟩
    intro a b apart p piece q other
    have low := Span.mem_cut piece
    have high := Span.mem_cut other
    unfold Span.Apart at *
    omega

/-- A new span fits where its range was cut out. -/
theorem Spread.fill (order : lo ≤ hi) (h : Spread spans)
    (t : τ) : Spread (spans.flatMap (Span.cut lo hi) ++ [⟨lo, hi, t⟩]) where
  inhabited := forall_mem_append.mpr
    ⟨(h.cut order).inhabited, forall_mem_singleton.mpr order⟩
  apart := by
    rw [pairwise_append]
    refine ⟨(h.cut order).apart, pairwise_singleton _ _, fun p member => ?_⟩
    obtain ⟨s, -, piece⟩ := mem_flatMap.mp member
    exact forall_mem_singleton.mpr (Span.mem_cut piece).2.2.1

/-! ### Insertion sort -/

/-- Insert a span into a list whose spans start later the nearer they are to the head:
go past the spans that start after it. -/
def insertSpan (s : Span τ) : List (Span τ) → List (Span τ)
  | [] => [s]
  | r :: rest => if s.start < r.start then r :: insertSpan s rest else s :: r :: rest

/-- Insertion sort by start; the sorted part is kept with its last span first. -/
def sortSpans (spans : List (Span τ)) : List (Span τ) :=
  (spans.foldl (fun sorted s => insertSpan s sorted) []).reverse

/-- The span starts later; the order of the sorted part. -/
abbrev Span.Later (a b : Span τ) : Prop := b.start ≤ a.start

instance : Std.Total (@Span.Later τ) := ⟨fun a b => Int.le_total b.start a.start⟩

instance : IsTrans (Span τ) Span.Later := ⟨fun _ _ _ first second => second.trans first⟩

theorem insertSpan_eq (l : List (Span τ)) : insertSpan s l = l.orderedInsert Span.Later s := by
  induction l with
  | nil => rfl
  | cons r rest ih =>
    rw [insertSpan, ih, orderedInsert_cons, ← ite_not]
    simp only [not_lt]

theorem sortSpans_eq : sortSpans spans = (spans.reverse.insertionSort Span.Later).reverse := by
  unfold sortSpans insertionSort
  rw [foldr_reverse]
  simp only [insertSpan_eq]

theorem sortSpans_perm (spans : List (Span τ)) : (sortSpans spans).Perm spans := by
  rw [sortSpans_eq]
  exact (reverse_perm _).trans
    ((perm_insertionSort _ _).trans (reverse_perm _))

theorem sortSpans_sorted (spans : List (Span τ)) :
    (sortSpans spans).Pairwise fun a b => a.start ≤ b.start := by
  rw [sortSpans_eq, pairwise_reverse]
  exact pairwise_insertionSort Span.Later _

/-- Sorting spans that are apart lines them up. -/
theorem Spread.lined (h : Spread spans) :
    (sortSpans spans).Pairwise fun a b => a.stop < b.start := by
  have sorted := h.perm (sortSpans_perm spans).symm
  refine List.Pairwise.imp_of_mem ?_ (sorted.apart.and (sortSpans_sorted spans))
  rintro a b left right ⟨apart, order⟩
  have := sorted.inhabited b right
  unfold Span.Apart at apart
  omega

/-! ### Joining neighbours -/

section Coalesce

variable [DecidableEq τ]

/-- Join a span to the last one seen, or put it behind it. -/
def coalesceStep (seen : List (Span τ)) (s : Span τ) : List (Span τ) :=
  match seen with
  | [] => [s]
  | last :: rest =>
      if last.tag = s.tag ∧ s.start ≤ last.stop + 1 then
        { last with stop := if last.stop < s.stop then s.stop else last.stop } :: rest
      else s :: last :: rest

/-- Join each span to the one before it if they have the same tag and leave no gap. -/
def coalesce (spans : List (Span τ)) : List (Span τ) :=
  (spans.foldl coalesceStep []).reverse

/-- The last span seen starts no later than the spans to come. -/
def Before (seen spans : List (Span τ)) : Prop :=
  ∀ last ∈ seen.head?, ∀ s ∈ spans, last.start ≤ s.start

theorem marks_coalesceStep (before : Before seen [s]) :
    Marks (coalesceStep seen s) t x ↔ Marks seen t x ∨ Marks [s] t x := by
  cases seen with
  | nil => simp [coalesceStep]
  | cons last rest =>
    have order : last.start ≤ s.start := before last rfl s (mem_singleton_self s)
    by_cases joins : last.tag = s.tag ∧ s.start ≤ last.stop + 1
    · have joined : (last.tag = t ∧ last.start ≤ x ∧
          x ≤ (if last.stop < s.stop then s.stop else last.stop)) ↔
          (last.tag = t ∧ last.start ≤ x ∧ x ≤ last.stop) ∨
            (s.tag = t ∧ s.start ≤ x ∧ x ≤ s.stop) := by
        rw [← joins.1]
        by_cases same : last.tag = t
        · simp only [same, true_and]
          split <;> omega
        · simp [same]
      simp only [coalesceStep, if_pos joins, marks_cons, marks_nil, or_false, joined]
      rw [or_right_comm]
    · simp only [coalesceStep, if_neg joins, marks_cons, marks_nil, or_false]
      rw [or_comm]

theorem before_coalesceStep (before : Before seen (s :: spans))
    (sorted : ∀ b ∈ spans, s.start ≤ b.start) : Before (coalesceStep seen s) spans := by
  intro last first b member
  cases seen with
  | nil =>
    cases first
    exact sorted b member
  | cons old rest =>
    rw [coalesceStep] at first
    split at first
    · cases first
      exact before old rfl b (.tail _ member)
    · cases first
      exact sorted b member

theorem marks_coalesce (sorted : spans.Pairwise fun a b => a.start ≤ b.start) :
    Marks (coalesce spans) t x ↔ Marks spans t x := by
  have fold : ∀ (l seen : List (Span τ)), (l.Pairwise fun a b => a.start ≤ b.start) →
      Before seen l → (Marks (l.foldl coalesceStep seen) t x ↔ Marks seen t x ∨ Marks l t x) := by
    intro l
    induction l with
    | nil => simp
    | cons s l ih =>
      intro seen sorted before
      obtain ⟨first, sortedRest⟩ := pairwise_cons.mp sorted
      have now : Before seen [s] := fun last head b member =>
        before last head b (by simp_all)
      rw [foldl_cons, ih _ sortedRest (before_coalesceStep before first),
        marks_coalesceStep now, marks_cons, marks_cons, or_assoc]
      simp
  rw [coalesce, marks_reverse, fold spans [] sorted (by simp [Before])]
  simp

/-- Spans seen so far in reverse, all before the spans to come. -/
structure Lined (seen spans : List (Span τ)) : Prop where
  inhabited : ∀ s ∈ seen, s.start ≤ s.stop
  reversed : seen.Pairwise fun a b => b.stop < a.start
  ahead : ∀ a ∈ seen, ∀ b ∈ spans, a.stop < b.start

theorem Lined.step (h : Lined seen (s :: spans)) (nonempty : s.start ≤ s.stop)
    (first : ∀ b ∈ spans, s.stop < b.start) : Lined (coalesceStep seen s) spans := by
  cases seen with
  | nil =>
    simp only [coalesceStep]
    constructor <;> simp_all
  | cons last rest =>
    obtain ⟨reversed, rest_reversed⟩ := pairwise_cons.mp h.reversed
    obtain ⟨lastFirst, inhabited⟩ := forall_mem_cons.mp h.inhabited
    have here : last.stop < s.start := h.ahead last mem_cons_self s (.head _)
    rw [coalesceStep]
    split
    · -- the joined span starts where the last one did and stops where the new one does
      have grows : last.stop < s.stop := by omega
      rw [if_pos grows]
      refine ⟨forall_mem_cons.mpr ⟨?_, inhabited⟩,
        pairwise_cons.mpr ⟨reversed, rest_reversed⟩, forall_mem_cons.mpr ⟨first, ?_⟩⟩
      · dsimp only
        omega
      · exact fun a old b coming => h.ahead a (.tail _ old) b (.tail _ coming)
    · refine ⟨forall_mem_cons.mpr ⟨nonempty, h.inhabited⟩,
        pairwise_cons.mpr ⟨?_, h.reversed⟩, forall_mem_cons.mpr ⟨first, ?_⟩⟩
      · exact fun a member => h.ahead a member s (.head _)
      · exact fun a old b coming => h.ahead a old b (.tail _ coming)

/-- Sorting and joining spans that are apart leaves them apart. -/
theorem Spread.coalesce (h : Spread spans) : Spread (coalesce (sortSpans spans)) := by
  have fold : ∀ (l seen : List (Span τ)), (∀ s ∈ l, s.start ≤ s.stop) →
      (l.Pairwise fun a b => a.stop < b.start) → Lined seen l →
      Lined (l.foldl coalesceStep seen) [] := by
    intro l
    induction l with
    | nil => exact fun _ _ _ lined => lined
    | cons s l ih =>
      intro seen inhabited order lined
      obtain ⟨first, orderRest⟩ := pairwise_cons.mp order
      exact ih _ (fun b member => inhabited b (.tail _ member)) orderRest
        (lined.step (inhabited s (.head _)) first)
  have sorted := h.perm (sortSpans_perm spans).symm
  have lined := fold (sortSpans spans) [] sorted.inhabited h.lined
    ⟨by simp, .nil, by simp⟩
  refine Spread.perm ⟨lined.inhabited, lined.reversed.imp Or.inr⟩ (reverse_perm _).symm

end Coalesce

end A20OS.Lib
