import Mathlib.Algebra.BigOperators.Group.List.Basic
import Mathlib.Algebra.Order.Ring.Int
import Mathlib.Data.List.Count

/-!
Reference counts kept apart from their owners.

A ledger gives every key a count; entries are credited and debited one key at a time.
The owners of references are lists of keys and whatever else can be counted key by
key; `total` adds a count up over a list of components, and `total_set` says how the
sum moves when one component is replaced.
-/

namespace A20OS.Lib

open List Function

universe u v

/-! ### Ledgers -/

/-- A count per key. It is an integer, so that one release too many shows. -/
abbrev Ledger (κ : Type u) := κ → Int

namespace Ledger

variable {κ : Type u} [DecidableEq κ]

def credit (l : Ledger κ) (k : κ) : Ledger κ := Function.update l k (l k + 1)

def debit (l : Ledger κ) (k : κ) : Ledger κ := Function.update l k (l k - 1)

theorem credit_apply (l : Ledger κ) (k j : κ) : l.credit k j = l j + ([k].count j : Int) := by
  by_cases same : j = k
  · subst same
    rw [credit, update_self, count_singleton_self]
    rfl
  · rw [credit, update_of_ne same, count_eq_zero_of_not_mem (by simpa using same)]
    exact (Int.add_zero _).symm

theorem debit_apply (l : Ledger κ) (k j : κ) : l.debit k j = l j - ([k].count j : Int) := by
  by_cases same : j = k
  · subst same
    rw [debit, update_self, count_singleton_self]
    rfl
  · rw [debit, update_of_ne same, count_eq_zero_of_not_mem (by simpa using same)]
    exact (Int.sub_zero _).symm

end Ledger

/-! ### Sums over components -/

section Total

variable {α : Type v} {l : List α} {a : α} {i : Nat}

/-- The sum of a measure over a list. -/
def total (f : α → Nat) (l : List α) : Nat := (l.map f).sum


@[simp] theorem total_cons (f : α → Nat) : total f (a :: l) = f a + total f l := by
  rfl

/-- Replacing a component moves the sum by the difference. -/
theorem total_set {f : α → Nat} (at_i : l[i]? = some a) (b : α) :
    total f (l.set i b) + f a = total f l + f b := by
  induction l generalizing i with
  | nil => cases at_i
  | cons x l ih =>
    cases i with
    | zero =>
      cases at_i
      rw [set_cons_zero, total_cons, total_cons]
      omega
    | succ i =>
      rw [set_cons_succ, total_cons, total_cons, Nat.add_assoc, ih at_i, Nat.add_assoc]

/-- A component is taken out. -/
theorem total_eraseIdx (f : α → Nat) (at_i : l[i]? = some a) :
    total f (l.eraseIdx i) + f a = total f l := by
  obtain ⟨below, rfl⟩ := List.getElem?_eq_some_iff.mp at_i
  rw [total, total, ← ((getElem_cons_eraseIdx_perm below).map f).sum_eq, map_cons,
    sum_cons, Nat.add_comm]

/-- A component of the changed list is the new one, or an old one elsewhere. -/
theorem getElem?_set_cases {i j : Nat} {a b : α} (at_j : (l.set i a)[j]? = some b) :
    j = i ∧ b = a ∨ j ≠ i ∧ l[j]? = some b := by
  by_cases same : j = i
  · subst same
    have inside : j < l.length := by
      have bound := (List.getElem?_eq_some_iff.mp at_j).1
      rwa [length_set] at bound
    rw [List.getElem?_set_self inside] at at_j
    exact .inl ⟨rfl, (Option.some.inj at_j).symm⟩
  · rw [List.getElem?_set_ne (Ne.symm same)] at at_j
    exact .inr ⟨same, at_j⟩

/-- No summand exceeds the total. -/
theorem le_total_of_mem (f : α → Nat) (member : a ∈ l) : f a ≤ total f l := by
  obtain ⟨i, at_i⟩ := mem_iff_getElem?.mp member
  rw [← total_eraseIdx f at_i]
  exact Nat.le_add_left _ _

theorem total_eq_zero {f : α → Nat} (zero : ∀ a ∈ l, f a = 0) : total f l = 0 :=
  sum_eq_zero (forall_mem_map.mpr zero)

end Total

end A20OS.Lib
