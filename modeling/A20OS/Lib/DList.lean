import Mathlib.Data.List.Nodup

/-!
Doubly linked lists in a table of nodes.

`DList prev next head xs` says that the list with the given head has exactly the nodes `xs`, in
order. Linking a node in (`DList.push`, `DList.insert`) and taking one out (`DList.remove`) change
the links as the usual code does, and a list does not notice changes elsewhere (`DList.frame`).
`DQueue` has a pointer to the last node too (`DQueue.append`).
-/

namespace A20OS.Lib

open List Option

universe u

variable {ι : Type u} {prev next prev' next' : ι → Option ι} {ys : List ι} {head tail : Option ι}
  {x : ι}

/-- The nodes are linked to each other, the first one back to `p` and the last one on to
`q`. -/
def Segment (prev next : ι → Option ι) : Option ι → List ι → Option ι → Prop
  | _, [], _ => True
  | p, x :: xs, q => prev x = p ∧ next x = xs.head?.or q ∧ Segment prev next (some x) xs q

variable {xs : List ι}

theorem Segment.frame {p q : Option ι} (h : Segment prev next p xs q)
    (same : ∀ x ∈ xs, prev' x = prev x ∧ next' x = next x) : Segment prev' next' p xs q := by
  induction xs generalizing p with
  | nil => trivial
  | cons x xs ih =>
    obtain ⟨back, on, rest⟩ := h
    obtain ⟨samePrev, sameNext⟩ := same x (.head _)
    refine ⟨samePrev.trans back, sameNext.trans on, ih rest ?_⟩
    intro y hy
    exact same y (.tail _ hy)

theorem segment_append {p q : Option ι} :
    Segment prev next p (xs ++ ys) q ↔
      Segment prev next p xs (ys.head?.or q) ∧ Segment prev next (xs.getLast?.or p) ys q := by
  induction xs generalizing p with
  | nil => simp [Segment]
  | cons x xs ih =>
    have first : (xs ++ ys).head?.or q = xs.head?.or (ys.head?.or q) := by
      rw [head?_append, Option.or_assoc]
    have last : (x :: xs).getLast?.or p = xs.getLast?.or (some x) := by
      rw [getLast?_cons]
      cases xs.getLast? <;> rfl
    simp only [cons_append, Segment, ih, first, last, and_assoc]

section
variable [DecidableEq ι] {p p' q q' : Option ι}

/-- The first node is linked back to another one. -/
theorem Segment.relinkFirst (h : Segment prev next p xs q) (nodup : xs.Nodup)
    (back : ∀ y ∈ xs, prev' y = if xs.head? = some y then p' else prev y)
    (on : ∀ y ∈ xs, next' y = next y) : Segment prev' next' p' xs q := by
  cases xs with
  | nil => trivial
  | cons x xs =>
    obtain ⟨-, xNext, rest⟩ := h
    obtain ⟨apart, -⟩ := nodup_cons.mp nodup
    refine ⟨?_, (on x (.head _)).trans xNext, rest.frame ?_⟩
    · rw [back x (.head _), if_pos head?_cons]
    · intro y hy
      have other : (x :: xs).head? ≠ some y := by
        rintro ⟨⟩
        exact apart hy
      refine ⟨?_, on y (.tail _ hy)⟩
      rw [back y (.tail _ hy), if_neg other]

/-- The last node is linked on to another one. -/
theorem Segment.relinkLast (h : Segment prev next p xs q) (nodup : xs.Nodup)
    (back : ∀ y ∈ xs, prev' y = prev y)
    (on : ∀ y ∈ xs, next' y = if xs.getLast? = some y then q' else next y) :
    Segment prev' next' p xs q' := by
  induction xs generalizing p with
  | nil => trivial
  | cons x xs ih =>
    obtain ⟨xPrev, xNext, rest⟩ := h
    obtain ⟨apart, nodup⟩ := nodup_cons.mp nodup
    have first := (back x (.head _)).trans xPrev
    cases xs with
    | nil =>
      refine ⟨first, ?_, trivial⟩
      rw [on x (.head _)]
      exact if_pos rfl
    | cons y ys =>
      rw [getLast?_cons_cons] at on
      refine ⟨first, ?_, ih rest nodup ?_ ?_⟩
      · have other : (y :: ys).getLast? ≠ some x := fun last => apart (mem_of_getLast? last)
        rw [on x (.head _), if_neg other]
        exact xNext
      · exact fun z hz => back z (.tail _ hz)
      · exact fun z hz => on z (.tail _ hz)

/-- Two segments without common nodes, of which the first gets another next node and the second
another previous one. -/
theorem Segment.relink {p₂ q₂ : Option ι} (before : Segment prev next p xs q)
    (after : Segment prev next p₂ ys q₂) (nodup : (xs ++ ys).Nodup)
    (back : ∀ y ∈ xs ++ ys, prev' y = if ys.head? = some y then p' else prev y)
    (on : ∀ y ∈ xs ++ ys, next' y = if xs.getLast? = some y then q' else next y) :
    Segment prev' next' p xs q' ∧ Segment prev' next' p' ys q₂ := by
  obtain ⟨nodupXs, nodupYs, apart⟩ := nodup_append.mp nodup
  constructor
  · refine before.relinkLast nodupXs ?_ fun y hy => on y (mem_append_left _ hy)
    intro y hy
    have other : ys.head? ≠ some y := by
      intro same
      exact apart y hy y (mem_of_mem_head? same) rfl
    rw [back y (mem_append_left _ hy), if_neg other]
  · refine after.relinkFirst nodupYs (fun y hy => back y (mem_append_right _ hy)) ?_
    intro y hy
    have other : xs.getLast? ≠ some y := by
      intro same
      exact apart y (mem_of_getLast? same) y hy rfl
    rw [on y (mem_append_right _ hy), if_neg other]

end

structure DList (prev next : ι → Option ι) (head : Option ι) (xs : List ι) : Prop where
  first : head = xs.head?
  linked : Segment prev next none xs none
  nodup : xs.Nodup

theorem dlist_nil (prev next : ι → Option ι) : DList prev next none [] :=
  ⟨rfl, trivial, nodup_nil⟩

theorem DList.frame (h : DList prev next head xs)
    (same : ∀ x ∈ xs, prev' x = prev x ∧ next' x = next x) : DList prev' next' head xs :=
  ⟨h.first, h.linked.frame same, h.nodup⟩

/-- The neighbours of a node. -/
theorem DList.neighbours (h : DList prev next head (xs ++ x :: ys)) :
    prev x = xs.getLast? ∧ next x = ys.head? := by
  obtain ⟨-, back, on, -⟩ := segment_append.mp h.linked
  rw [or_none] at back on
  exact ⟨back, on⟩

/-- A new node between two others. -/
theorem DList.insert [DecidableEq ι] (h : DList prev next head (xs ++ ys)) (new : x ∉ xs ++ ys)
    (newPrev : prev' x = xs.getLast?) (newNext : next' x = ys.head?)
    (back : ∀ y ∈ xs ++ ys, prev' y = if ys.head? = some y then some x else prev y)
    (on : ∀ y ∈ xs ++ ys, next' y = if xs.getLast? = some y then some x else next y) :
    DList prev' next' (if xs.getLast? = none then some x else head) (xs ++ x :: ys) := by
  obtain ⟨before, after⟩ := segment_append.mp h.linked
  obtain ⟨before, after⟩ := before.relink after h.nodup back on
  refine ⟨?_, segment_append.mpr ⟨before, ?_, ?_, after⟩, ?_⟩
  · rw [h.first]
    cases xs with
    | nil => rfl
    | cons y xs => simp
  · rw [newPrev, or_none]
  · rw [newNext, or_none]
  · exact nodup_middle.mpr (nodup_cons.mpr ⟨new, h.nodup⟩)

/-- A new node in front. -/
theorem DList.push [DecidableEq ι] (h : DList prev next head xs) (new : x ∉ xs)
    (newPrev : prev' x = none) (newNext : next' x = head)
    (back : ∀ y ∈ xs, prev' y = if head = some y then some x else prev y)
    (on : ∀ y ∈ xs, next' y = next y) : DList prev' next' (some x) (x :: xs) := by
  rw [h.first] at newNext back
  have whole : DList prev next head ([] ++ xs) := h
  exact whole.insert new newPrev newNext back on

/-- A node is taken out; its neighbours are linked to each other. -/
theorem DList.remove [DecidableEq ι] (h : DList prev next head (xs ++ x :: ys))
    (back : ∀ y ∈ xs ++ ys, prev' y = if next x = some y then prev x else prev y)
    (on : ∀ y ∈ xs ++ ys, next' y = if prev x = some y then next x else next y) :
    DList prev' next' (if prev x = none then next x else head) (xs ++ ys) := by
  obtain ⟨before, -, -, after⟩ := segment_append.mp h.linked
  obtain ⟨xPrev, xNext⟩ := h.neighbours
  have nodup : (xs ++ ys).Nodup := h.nodup.sublist (by simp)
  rw [xNext, xPrev] at back on
  refine ⟨?_, segment_append.mpr ?_, nodup⟩
  · rw [xPrev, xNext, h.first]
    cases xs with
    | nil => rfl
    | cons y xs => simp [getLast?_cons]
  · rw [or_none, or_none]
    exact before.relink after nodup back on

/-! ### Queues -/

/-- A list with a pointer to its last node. -/
structure DQueue (prev next : ι → Option ι) (head tail : Option ι) (xs : List ι) : Prop where
  list : DList prev next head xs
  last : tail = xs.getLast?

theorem dqueue_nil (prev next : ι → Option ι) : DQueue prev next none none [] :=
  ⟨dlist_nil prev next, rfl⟩

theorem DQueue.frame (h : DQueue prev next head tail xs)
    (same : ∀ x ∈ xs, prev' x = prev x ∧ next' x = next x) : DQueue prev' next' head tail xs :=
  ⟨h.list.frame same, h.last⟩

/-- A new node behind the last one. -/
theorem DQueue.append [DecidableEq ι] (h : DQueue prev next head tail xs) (new : x ∉ xs)
    (newPrev : prev' x = tail) (newNext : next' x = none) (back : ∀ y ∈ xs, prev' y = prev y)
    (on : ∀ y ∈ xs, next' y = if tail = some y then some x else next y) :
    DQueue prev' next' (if tail = none then some x else head) (some x) (xs ++ [x]) := by
  rw [h.last] at newPrev on ⊢
  have whole : DList prev next head (xs ++ []) := by
    rw [append_nil]
    exact h.list
  refine ⟨whole.insert ?_ newPrev newNext ?_ ?_, getLast?_concat.symm⟩
  all_goals rwa [append_nil]

/-- A node is taken out anywhere. -/
theorem DQueue.remove [DecidableEq ι] (h : DQueue prev next head tail (xs ++ x :: ys))
    (back : ∀ y ∈ xs ++ ys, prev' y = if next x = some y then prev x else prev y)
    (on : ∀ y ∈ xs ++ ys, next' y = if prev x = some y then next x else next y) :
    DQueue prev' next' (if prev x = none then next x else head)
      (if next x = none then prev x else tail) (xs ++ ys) := by
  obtain ⟨xPrev, xNext⟩ := h.list.neighbours
  refine ⟨h.list.remove back on, ?_⟩
  rw [xPrev, xNext, h.last]
  cases ys with
  | nil => simp
  | cons y ys => simp [getLast?_cons]

end A20OS.Lib
