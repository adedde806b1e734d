import Mathlib.Algebra.Order.Ring.Int

/-!
Binary min-heaps in arrays.

The array is given by its keys, and the children of position `i` are `2 * i + 1` and
`2 * i + 2`. An array that is ordered but for one entry is `Up` when the entry may be too small
for its place and `Down` when it may be too large; exchanging it with its parent, or with its
least child, moves the fault along (`Up.swap`, `Down.swap`).
-/

namespace A20OS.Lib.BinaryHeap

universe u

variable {κ : Type u} {key : Nat → κ} {n i : Nat}

def parent (i : Nat) : Nat := (i - 1) / 2

theorem parent_lt (pos : 0 < i) : parent i < i := by
  unfold parent
  omega

theorem parent_eq_iff {c : Nat} (pos : 0 < c) : parent c = i ↔ c = 2 * i + 1 ∨ c = 2 * i + 2 := by
  unfold parent
  omega

/-- The keys after two positions were exchanged. -/
def swapped (key : Nat → κ) (a b : Nat) : Nat → κ := key ∘ Equiv.swap a b

theorem swapped_left (a b : Nat) : swapped key a b a = key b := by
  rw [swapped, Function.comp_apply, Equiv.swap_apply_left]

theorem swapped_right (a b : Nat) : swapped key a b b = key a := by
  rw [swapped, Function.comp_apply, Equiv.swap_apply_right]

theorem swapped_of_ne {a b j : Nat} (left : j ≠ a) (right : j ≠ b) : swapped key a b j = key j := by
  rw [swapped, Function.comp_apply, Equiv.swap_apply_of_ne_of_ne left right]

variable [LinearOrder κ]

/-- No entry is less than its parent. -/
def Ordered (key : Nat → κ) (n : Nat) : Prop :=
  ∀ j, 0 < j → j < n → key (parent j) ≤ key j

theorem Ordered.root_le (ordered : Ordered key n) : ∀ {j}, j < n → key 0 ≤ key j := by
  intro j
  induction j using Nat.strong_induction_on with
  | _ j ih =>
    intro below
    rcases Nat.eq_zero_or_pos j with rfl | pos
    · exact le_rfl
    · have less := parent_lt pos
      exact (ih _ less (less.trans below)).trans (ordered j pos below)

/-- The entry at `i` may be less than its parent; all else is in order. -/
structure Up (key : Nat → κ) (n i : Nat) : Prop where
  others : ∀ j, 0 < j → j < n → j ≠ i → key (parent j) ≤ key j
  grand : ∀ j, 0 < j → j < n → parent j = i → 0 < i → key (parent i) ≤ key j

/-- The entry at `i` may be greater than its children; all else is in order. -/
structure Down (key : Nat → κ) (n i : Nat) : Prop where
  others : ∀ j, 0 < j → j < n → parent j ≠ i → key (parent j) ≤ key j
  grand : ∀ j, 0 < j → j < n → parent j = i → 0 < i → key (parent i) ≤ key j

theorem Up.done (up : Up key n i) (stop : 0 < i → key (parent i) ≤ key i) : Ordered key n := by
  intro j pos below
  by_cases here : j = i
  · subst here
    exact stop pos
  · exact up.others j pos below here

theorem Down.done (down : Down key n i)
    (stop : ∀ j, 0 < j → j < n → parent j = i → key i ≤ key j) : Ordered key n := by
  intro j pos below
  by_cases here : parent j = i
  · rw [here]
    exact stop j pos below here
  · exact down.others j pos below here

theorem Up.swap (up : Up key n i) (pos : 0 < i) (below : i < n) (less : key i < key (parent i)) :
    Up (swapped key (parent i) i) n (parent i) := by
  have above := parent_lt pos
  constructor
  · intro j jpos jbelow other
    by_cases here : j = i
    · subst here
      rw [swapped_left, swapped_right]
      exact less.le
    rw [swapped_of_ne other here]
    by_cases sibling : parent j = parent i
    · rw [sibling, swapped_left]
      exact less.le.trans (sibling ▸ up.others j jpos jbelow here)
    · by_cases child : parent j = i
      · rw [child, swapped_right]
        exact up.grand j jpos jbelow child pos
      · rw [swapped_of_ne sibling child]
        exact up.others j jpos jbelow here
  · intro j jpos jbelow child ppos
    have higher := parent_lt ppos
    have ordered := up.others (parent i) ppos (above.trans below) above.ne
    rw [swapped_of_ne higher.ne (higher.trans above).ne]
    by_cases here : j = i
    · rw [here, swapped_right]
      exact ordered
    · have order := up.others j jpos jbelow here
      rw [child] at order
      rw [swapped_of_ne (child ▸ parent_lt jpos).ne' here]
      exact ordered.trans order

theorem Down.swap (down : Down key n i) {c : Nat} (pos : 0 < c) (below : c < n)
    (child : parent c = i) (less : key c < key i)
    (least : ∀ j, 0 < j → j < n → parent j = i → key c ≤ key j) : Down (swapped key i c) n c := by
  have above : i < c := child ▸ parent_lt pos
  constructor
  · intro j jpos jbelow other
    by_cases here : j = c
    · rw [here, child, swapped_left, swapped_right]
      exact less.le
    by_cases hole : j = i
    · -- the least child moved up, below the parent of the hole
      subst hole
      rw [swapped_left, swapped_of_ne (parent_lt jpos).ne ((parent_lt jpos).trans above).ne]
      exact down.grand c pos below child jpos
    rw [swapped_of_ne hole here]
    by_cases sibling : parent j = i
    · rw [sibling, swapped_left]
      exact least j jpos jbelow sibling
    · rw [swapped_of_ne sibling other]
      exact down.others j jpos jbelow sibling
  · intro j jpos jbelow grandchild _
    have lower : c < j := grandchild ▸ parent_lt jpos
    rw [child, swapped_left, swapped_of_ne (above.trans lower).ne' lower.ne']
    have order := down.others j jpos jbelow (grandchild ▸ above.ne')
    rwa [grandchild] at order

section Replace

variable {key' : Nat → κ}

/-- An entry was replaced by one that is less than its parent. -/
theorem Ordered.replace_up (ordered : Ordered key n) (below : i < n)
    (same : ∀ j, j ≠ i → j < n → key' j = key j) (pos : 0 < i) (less : key' i < key' (parent i)) :
    Up key' n i := by
  have above := parent_lt pos
  have parent_same : key' (parent i) = key (parent i) := same _ above.ne (above.trans below)
  constructor
  · intro j jpos jbelow other
    rw [same j other jbelow]
    by_cases child : parent j = i
    · have order := ordered j jpos jbelow
      rw [child] at order
      rw [child]
      exact (parent_same ▸ less).le.trans ((ordered i pos below).trans order)
    · rw [same _ child ((parent_lt jpos).trans jbelow)]
      exact ordered j jpos jbelow
  · intro j jpos jbelow child _
    have order := ordered j jpos jbelow
    rw [child] at order
    rw [parent_same, same j (child ▸ parent_lt jpos).ne' jbelow]
    exact (ordered i pos below).trans order

/-- An entry was replaced by one that is not less than its parent. -/
theorem Ordered.replace_down (ordered : Ordered key n) (below : i < n)
    (same : ∀ j, j ≠ i → j < n → key' j = key j)
    (above : 0 < i → key' (parent i) ≤ key' i) : Down key' n i := by
  constructor
  · intro j jpos jbelow other
    by_cases here : j = i
    · subst here
      exact above jpos
    · rw [same j here jbelow, same _ other ((parent_lt jpos).trans jbelow)]
      exact ordered j jpos jbelow
  · intro j jpos jbelow child pos
    have order := ordered j jpos jbelow
    rw [child] at order
    rw [same _ (parent_lt pos).ne ((parent_lt pos).trans below),
      same j (child ▸ parent_lt jpos).ne' jbelow]
    exact (ordered i pos below).trans order

end Replace

/-- An entry was appended. -/
theorem Ordered.append {key' : Nat → κ} (ordered : Ordered key n)
    (same : ∀ j, j < n → key' j = key j) : Up key' (n + 1) n := by
  constructor
  · intro j jpos jbelow other
    have below : j < n := by omega
    rw [same j below, same _ ((parent_lt jpos).trans below)]
    exact ordered j jpos below
  · intro j jpos jbelow child _
    have := parent_lt jpos
    omega

end A20OS.Lib.BinaryHeap
