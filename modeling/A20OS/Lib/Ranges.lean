import Mathlib.Data.List.Pairwise

/-!
Ranges that follow one another.

The things of a list have ranges `[lo p, hi p)`. `Ranges lo hi xs` says that none is empty and
that each ends before the next one begins, so that a number is in the range of at most one of
them (`Ranges.unique`). `bisect` finds, by halving, where a test that holds up to some place
stops to hold.
-/

namespace A20OS.Lib

open List

universe u

variable {ι : Type u} {lo hi lo' hi' : ι → Nat} {xs ys : List ι} {p q : ι} {x : Nat}

/-- The number is in the range. -/
def Covers (lo hi : ι → Nat) (p : ι) (x : Nat) : Prop := lo p ≤ x ∧ x < hi p

instance (p : ι) (x : Nat) : Decidable (Covers lo hi p x) := inferInstanceAs (Decidable (_ ∧ _))

structure Ranges (lo hi : ι → Nat) (xs : List ι) : Prop where
  nonempty : ∀ p ∈ xs, lo p < hi p
  sorted : xs.Pairwise fun p q => hi p ≤ lo q

theorem ranges_nil (lo hi : ι → Nat) : Ranges lo hi [] := ⟨nofun, .nil⟩

theorem ranges_append : Ranges lo hi (xs ++ ys) ↔
    Ranges lo hi xs ∧ Ranges lo hi ys ∧ ∀ p ∈ xs, ∀ q ∈ ys, hi p ≤ lo q := by
  constructor
  · intro h
    obtain ⟨first, second, between⟩ := pairwise_append.mp h.sorted
    obtain ⟨here, there⟩ := forall_mem_append.mp h.nonempty
    exact ⟨⟨here, first⟩, ⟨there, second⟩, between⟩
  · rintro ⟨first, second, between⟩
    exact ⟨forall_mem_append.mpr ⟨first.nonempty, second.nonempty⟩,
      pairwise_append.mpr ⟨first.sorted, second.sorted, between⟩⟩

theorem ranges_cons : Ranges lo hi (p :: xs) ↔
    lo p < hi p ∧ Ranges lo hi xs ∧ ∀ q ∈ xs, hi p ≤ lo q := by
  constructor
  · intro h
    obtain ⟨first, rest⟩ := pairwise_cons.mp h.sorted
    obtain ⟨here, later⟩ := forall_mem_cons.mp h.nonempty
    exact ⟨here, ⟨later, rest⟩, first⟩
  · rintro ⟨nonempty, rest, first⟩
    exact ⟨forall_mem_cons.mpr ⟨nonempty, rest.nonempty⟩, .cons first rest.sorted⟩

namespace Ranges

theorem congr (h : Ranges lo hi xs) (same : ∀ p ∈ xs, lo' p = lo p ∧ hi' p = hi p) :
    Ranges lo' hi' xs := by
  constructor
  · intro p member
    obtain ⟨low, high⟩ := same p member
    rw [low, high]
    exact h.nonempty p member
  · refine h.sorted.imp_of_mem ?_
    intro p q first second le
    rw [(same p first).2, (same q second).1]
    exact le

/-- Other things have the same ranges. -/
theorem map {κ : Type u} {f : ι → κ} {lo hi : κ → Nat} (h : Ranges (lo ∘ f) (hi ∘ f) xs) :
    Ranges lo hi (xs.map f) := by
  constructor
  · intro q member
    obtain ⟨p, inside, rfl⟩ := mem_map.mp member
    exact h.nonempty p inside
  · exact pairwise_map.mpr h.sorted

/-- Some of the things are replaced by others that reach no further. -/
theorem replace {ds es : List ι} (h : Ranges lo hi (xs ++ ds ++ ys)) (new : Ranges lo hi es)
    (low : ∀ e ∈ es, ∃ d ∈ ds, lo d ≤ lo e) (high : ∀ e ∈ es, ∃ d ∈ ds, hi e ≤ hi d) :
    Ranges lo hi (xs ++ es ++ ys) := by
  obtain ⟨left, right, across⟩ := ranges_append.mp h
  obtain ⟨left, -, seam⟩ := ranges_append.mp left
  refine ranges_append.mpr ⟨ranges_append.mpr ⟨left, new, ?_⟩, right, ?_⟩
  · intro p first e second
    obtain ⟨d, member, le⟩ := low e second
    exact Nat.le_trans (seam p first d member) le
  · intro e first q second
    rcases mem_append.mp first with before | here
    · exact across e (mem_append_left _ before) q second
    · obtain ⟨d, member, le⟩ := high e here
      exact Nat.le_trans le (across d (mem_append_right _ member) q second)

/-- Each thing is replaced by others that lie in its range. -/
theorem flatMap {pieces : ι → List ι} (h : Ranges lo hi (xs ++ ys))
    (split : ∀ p ∈ xs, Ranges lo hi (pieces p))
    (inside : ∀ p ∈ xs, ∀ e ∈ pieces p, lo p ≤ lo e ∧ hi e ≤ hi p) :
    Ranges lo hi (xs.flatMap pieces ++ ys) := by
  induction xs with
  | nil => exact h
  | cons p rest ih =>
    obtain ⟨-, tail, before⟩ := ranges_cons.mp h
    have later := ih tail (fun q member => split q (.tail _ member))
      (fun q member => inside q (.tail _ member))
    rw [flatMap_cons, append_assoc]
    refine ranges_append.mpr ⟨split p (.head _), later, ?_⟩
    intro d first q second
    obtain ⟨-, le⟩ := inside p mem_cons_self d first
    rcases mem_append.mp second with here | behind
    · obtain ⟨r, member, found⟩ := mem_flatMap.mp here
      have := before r (mem_append_left _ member)
      have := (inside r (.tail _ member) q found).1
      omega
    · have := before q (mem_append_right _ behind)
      omega

/-- Of two things, one ends before the other begins. -/
theorem apart (h : Ranges lo hi xs) (first : p ∈ xs) (second : q ∈ xs) (ne : p ≠ q) :
    hi p ≤ lo q ∨ hi q ≤ lo p := by
  have sides : xs.Pairwise fun p q => hi p ≤ lo q ∨ hi q ≤ lo p := h.sorted.imp .inl
  have : Std.Symm fun p q => hi p ≤ lo q ∨ hi q ≤ lo p := ⟨fun _ _ => Or.symm⟩
  exact sides.forall first second ne

/-- A number is in one range only. -/
theorem unique (h : Ranges lo hi xs) (first : p ∈ xs) (second : q ∈ xs)
    (here : Covers lo hi p x) (there : Covers lo hi q x) : p = q := by
  unfold Covers at here there
  by_contra ne
  have := h.apart first second ne
  omega

/-- There is not room for more things than numbers. -/
theorem length_le (h : Ranges lo hi xs) {bottom top : Nat} (le : bottom ≤ top)
    (low : ∀ p ∈ xs, bottom ≤ lo p) (high : ∀ p ∈ xs, hi p ≤ top) : bottom + xs.length ≤ top := by
  induction xs generalizing bottom with
  | nil => exact le
  | cons p rest ih =>
    obtain ⟨nonempty, tail, before⟩ := ranges_cons.mp h
    have start := low p (.head _)
    have stop := high p (.head _)
    have := ih tail stop before fun q member => high q (.tail _ member)
    simp only [length_cons]
    omega

end Ranges

/-! ### Halving -/

/-- Halve the places from `lo` to `hi` while the test tells on which side to go on. -/
def bisect (test : Nat → Bool) : Nat → Nat → Nat → Nat
  | 0, lo, _ => lo
  | fuel + 1, lo, hi =>
      if lo < hi then
        let mid := lo + (hi - lo) / 2
        if test mid then bisect test fuel (mid + 1) hi else bisect test fuel lo mid
      else lo

/-- A test that holds below every place where it holds stops to hold at the result. -/
theorem bisect_spec (test : Nat → Bool) (n : Nat)
    (down : ∀ i j, i ≤ j → j < n → test j = true → test i = true) {fuel lo hi : Nat}
    (le : lo ≤ hi) (inside : hi ≤ n) (enough : hi - lo ≤ fuel)
    (below : ∀ i < lo, test i = true) (above : ∀ i < n, hi ≤ i → test i = false) :
    bisect test fuel lo hi ≤ n ∧ (∀ i < bisect test fuel lo hi, test i = true) ∧
      ∀ i < n, bisect test fuel lo hi ≤ i → test i = false := by
  induction fuel generalizing lo hi with
  | zero =>
    have same : hi = lo := by omega
    subst same
    exact ⟨inside, below, above⟩
  | succ fuel ih =>
    unfold bisect
    by_cases more : lo < hi
    · rw [if_pos more]
      dsimp only
      cases found : test (lo + (hi - lo) / 2) with
      | true =>
        refine ih (by omega) inside (by omega) ?_ above
        intro i le
        exact down i (lo + (hi - lo) / 2) (by omega) (by omega) found
      | false =>
        refine ih (by omega) (by omega) (by omega) below ?_
        intro i inside' le
        by_contra holds
        have := down (lo + (hi - lo) / 2) i le inside' (by simpa using holds)
        rw [found] at this
        cases this
    · rw [if_neg more]
      have same : hi = lo := by omega
      subst same
      exact ⟨inside, below, above⟩

end A20OS.Lib
