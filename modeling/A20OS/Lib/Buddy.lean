import Mathlib.Algebra.BigOperators.Intervals
import Mathlib.Data.Nat.Bitwise
import Mathlib.Tactic.Ring

/-!
Blocks of a buddy system.

A block of order `o` has `2 ^ o` numbers. The buddy of an aligned block is found by flipping one
bit of its start (`start_xor`): the two are the halves of an aligned block of the next order
(`Block.has_joined`). `ofLists` is the list of all blocks of one list of starts per order.
-/

namespace A20OS.Lib

open Function List

/-- A block of `2 ^ order` numbers. -/
structure Block where
  start : Nat
  order : Nat
deriving DecidableEq

namespace Block

variable {b c d : Block} {i o p : Nat} {bs : List Block}

def size (b : Block) : Nat := 2 ^ b.order

def Has (b : Block) (i : Nat) : Prop := b.start ≤ i ∧ i < b.start + b.size

instance (b : Block) (i : Nat) : Decidable (b.Has i) :=
  inferInstanceAs (Decidable (_ ∧ _))

/-- The blocks do not overlap. -/
def Apart (b c : Block) : Prop := b.start + b.size ≤ c.start ∨ c.start + c.size ≤ b.start

def Aligned (b : Block) : Prop := b.size ∣ b.start

theorem size_pos (b : Block) : 0 < b.size := Nat.two_pow_pos b.order

theorem has_start (b : Block) : b.Has b.start :=
  ⟨le_rfl, Nat.lt_add_of_pos_right b.size_pos⟩

theorem Apart.symm (h : b.Apart c) : c.Apart b := Or.symm h

instance : Std.Symm Apart := ⟨fun _ _ => Apart.symm⟩

theorem Apart.not_has (h : b.Apart c) (hb : b.Has i) : ¬c.Has i := by
  unfold Apart Has at *
  omega

/-- Blocks without a common number are apart. -/
theorem apart_of_not_has (h : ∀ i, b.Has i → ¬c.Has i) : b.Apart c := by
  have common := h (max b.start c.start)
  have := b.size_pos
  have := c.size_pos
  unfold Apart
  unfold Has at common
  omega

/-- In a list of blocks that are apart two blocks with a common number are the same. -/
theorem eq_of_has (apart : bs.Pairwise Apart) (hb : b ∈ bs) (hc : c ∈ bs) (bi : b.Has i)
    (ci : c.Has i) : b = c := by
  by_contra other
  exact (apart.forall hb hc other).not_has bi ci

/-- Blocks that are apart and below a bound have no more numbers than there are below it. -/
theorem sum_size_le {n : Nat} (apart : bs.Pairwise Apart) (below : ∀ b ∈ bs, b.start + b.size ≤ n) :
    (bs.map size).sum ≤ n := by
  let numbers : List Nat := bs.flatMap fun b => range' b.start b.size
  have distinct : numbers.Nodup := by
    refine nodup_flatMap.mpr ⟨fun b _ => nodup_range', apart.imp fun clear i here there => ?_⟩
    exact clear.not_has (mem_range'_1.mp here) (mem_range'_1.mp there)
  have inside : numbers ⊆ range n := by
    intro i mem
    obtain ⟨b, mem, here⟩ := mem_flatMap.mp mem
    exact mem_range.mpr ((mem_range'_1.mp here).2.trans_le (below b mem))
  simpa [numbers, length_flatMap] using (distinct.subperm inside).length_le

/-! ### Buddies -/

/-- A start whose bit is clear: the buddy lies behind it. -/
theorem xor_eq_add (h : 2 ^ (o + 1) ∣ p) : p ^^^ 2 ^ o = p + 2 ^ o := by
  obtain ⟨k, rfl⟩ := h
  apply Nat.eq_of_testBit_eq
  intro j
  have small : 2 ^ o < 2 ^ (o + 1) := Nat.pow_lt_pow_succ (by decide)
  rw [Nat.testBit_xor, Nat.testBit_two_pow_mul_add k small, Nat.testBit_two_pow_mul]
  by_cases low : j < o + 1
  · have notHigh : ¬o + 1 ≤ j := by omega
    simp [low, notHigh]
  · have high : o + 1 ≤ j := by omega
    have other : o ≠ j := by omega
    simp [low, high, Nat.testBit_two_pow_of_ne other]

/-- The buddy lies right behind the block or right before it. -/
theorem start_xor (h : 2 ^ o ∣ p) :
    (2 ^ (o + 1) ∣ p ∧ p ^^^ 2 ^ o = p + 2 ^ o) ∨
    (2 ^ (o + 1) ∣ p ^^^ 2 ^ o ∧ p = (p ^^^ 2 ^ o) + 2 ^ o) := by
  obtain ⟨k, rfl⟩ := h
  rcases Nat.even_or_odd' k with ⟨m, rfl | rfl⟩
  · have even : 2 ^ (o + 1) ∣ 2 ^ o * (2 * m) := ⟨m, by ring⟩
    exact .inl ⟨even, xor_eq_add even⟩
  have even : 2 ^ (o + 1) ∣ 2 ^ (o + 1) * m := ⟨m, rfl⟩
  have here : 2 ^ o * (2 * m + 1) = (2 ^ (o + 1) * m) ^^^ 2 ^ o := by
    rw [xor_eq_add even]
    ring
  have there : (2 ^ o * (2 * m + 1)) ^^^ 2 ^ o = 2 ^ (o + 1) * m := by
    rw [here, Nat.xor_assoc, Nat.xor_self, Nat.xor_zero]
  rw [there]
  exact .inr ⟨even, by ring⟩

/-- A block and its buddy make up the block of the next order. -/
theorem has_joined (h : 2 ^ o ∣ p) :
    (⟨min p (p ^^^ 2 ^ o), o + 1⟩ : Block).Has i ↔
      (⟨p, o⟩ : Block).Has i ∨ (⟨p ^^^ 2 ^ o, o⟩ : Block).Has i := by
  have double : 2 ^ (o + 1) = 2 ^ o + 2 ^ o := by ring
  simp only [Has, size, double]
  rcases start_xor h with ⟨-, buddy⟩ | ⟨-, buddy⟩
  · omega
  · omega

theorem aligned_joined (h : 2 ^ o ∣ p) : 2 ^ (o + 1) ∣ min p (p ^^^ 2 ^ o) := by
  rcases start_xor h with ⟨even, buddy⟩ | ⟨even, buddy⟩
  · rw [buddy, Nat.min_eq_left (Nat.le_add_right _ _)]
    exact even
  · rw [Nat.min_eq_right (by omega)]
    exact even

/-- The two halves of a block. -/
theorem has_halves :
    (⟨p, o + 1⟩ : Block).Has i ↔ (⟨p, o⟩ : Block).Has i ∨ (⟨p + 2 ^ o, o⟩ : Block).Has i := by
  have double : 2 ^ (o + 1) = 2 ^ o + 2 ^ o := by ring
  simp only [Has, size, double]
  omega

/-! ### Lists by order -/

/-- What a table holds, when one entry is written: what is there now, and the rest. -/
theorem flatMap_update {α β : Type} (table : Nat → β) (items : Nat → β → List α) {n : Nat}
    (below : i < n) (x : β) :
    ((List.range n).flatMap fun j => items j (update table i x j)).Perm
      (items i x ++ ((List.range n).erase i).flatMap fun j => items j (table j)) := by
  have split := perm_cons_erase (mem_range.mpr below)
  refine (split.flatMap_right _).trans ?_
  rw [flatMap_cons, update_self]
  refine List.Perm.append_left _ (List.Perm.of_eq (flatMap_congr ?_))
  intro j mem
  have other : j ≠ i := by
    rintro rfl
    exact nodup_range.not_mem_erase mem
  rw [update_of_ne other]

/-- The blocks whose starts are listed, with orders below `n`. -/
def ofLists (n : Nat) (free : Nat → List Nat) : List Block :=
  (List.range n).flatMap fun o => (free o).map fun p => ⟨p, o⟩

variable {n : Nat} {free : Nat → List Nat}

theorem mem_ofLists : b ∈ ofLists n free ↔ b.order < n ∧ b.start ∈ free b.order := by
  obtain ⟨p, o⟩ := b
  simp only [ofLists, mem_flatMap, mem_range, mem_map, mk.injEq]
  constructor
  · rintro ⟨o', below, p', mem, rfl, rfl⟩
    exact ⟨below, mem⟩
  · rintro ⟨below, mem⟩
    exact ⟨o, below, p, mem, rfl, rfl⟩

theorem ofLists_update (free : Nat → List Nat) (below : o < n) (l : List Nat) :
    (ofLists n (update free o l)).Perm
      (l.map (fun p => ⟨p, o⟩) ++
        ((List.range n).erase o).flatMap fun o => (free o).map fun p => ⟨p, o⟩) :=
  flatMap_update free (fun o l => l.map fun p => Block.mk p o) below l

/-- A start more, a block more. -/
theorem ofLists_cons (below : o < n) (p : Nat) :
    (ofLists n (update free o (p :: free o))).Perm (⟨p, o⟩ :: ofLists n free) := by
  refine (ofLists_update free below _).trans ?_
  refine List.Perm.cons _ (List.Perm.symm ?_)
  have same := ofLists_update free below (free o)
  rwa [update_eq_self] at same

/-- A start less, a block less. -/
theorem ofLists_remove (below : o < n) {xs ys : List Nat} (split : free o = xs ++ p :: ys) :
    (ofLists n free).Perm (⟨p, o⟩ :: ofLists n (update free o (xs ++ ys))) := by
  have all := ofLists_update free below (free o)
  rw [update_eq_self] at all
  refine all.trans ?_
  rw [split, map_append, map_cons, append_assoc, cons_append]
  refine perm_middle.trans (List.Perm.cons _ ?_)
  rw [← append_assoc, ← map_append]
  exact (ofLists_update free below _).symm

/-- The numbers in all listed blocks. -/
theorem sum_size_ofLists (free : Nat → List Nat) :
    ((ofLists n free).map size).sum = ∑ o ∈ Finset.range n, (free o).length * 2 ^ o := by
  induction n with
  | zero => rfl
  | succ n ih =>
    have last : ((free n).map (size ∘ fun p => ⟨p, n⟩)).sum = (free n).length * 2 ^ n := by
      have constant : (size ∘ fun p => ⟨p, n⟩ : Nat → Nat) = fun _ => 2 ^ n := rfl
      rw [constant, map_const', sum_replicate_nat]
    unfold ofLists at ih ⊢
    rw [range_succ, flatMap_append, map_append, sum_append, ih,
      Finset.sum_range_succ, flatMap_singleton, map_map, last]

end Block

end A20OS.Lib
