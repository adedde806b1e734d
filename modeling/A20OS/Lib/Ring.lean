import Mathlib.Data.List.Basic
import Mathlib.Data.Nat.ModEq

/-!
Bounded queues in an array that is used as a ring.

A ring has `n` slots, the index of its first element and the number of its elements.
`toList` reads the elements in order. Pushing appends at the end unless the ring is
full (`toList_push`), popping takes the first element (`toList_pop`), and clearing
forgets them all.
-/

namespace A20OS.Lib

open List

universe u

structure Ring (n : Nat) (α : Type u) where
  slots : Fin n → α
  head : Nat
  count : Nat
  head_lt : head < n
  count_le : count ≤ n

namespace Ring

variable {n : Nat} {α : Type u}

/-- The slot `i` places after the head. -/
def slot (r : Ring n α) (i : Nat) : Fin n :=
  ⟨(r.head + i) % n, Nat.mod_lt _ (Nat.zero_lt_of_lt r.head_lt)⟩

def toList (r : Ring n α) : List α := (List.range r.count).map fun i => r.slots (r.slot i)

def push (r : Ring n α) (a : α) : Option (Ring n α) :=
  if room : r.count < n then
    some { r with
      slots := Function.update r.slots (r.slot r.count) a
      count := r.count + 1
      count_le := room }
  else none

def pop (r : Ring n α) : Option (α × Ring n α) :=
  if r.count = 0 then none
  else
    some (r.slots ⟨r.head, r.head_lt⟩,
      { r with
        head := (r.head + 1) % n
        count := r.count - 1
        head_lt := Nat.mod_lt _ (Nat.zero_lt_of_lt r.head_lt)
        count_le := le_trans (Nat.sub_le _ _) r.count_le })

def clear (r : Ring n α) : Ring n α :=
  { r with
    head := 0
    count := 0
    head_lt := Nat.zero_lt_of_lt r.head_lt
    count_le := Nat.zero_le n }

variable {r r' : Ring n α} {a : α}

@[simp] theorem length_toList : r.toList.length = r.count := by
  rw [toList, length_map, length_range]

theorem toList_eq_nil (empty : r.count = 0) : r.toList = [] := by
  rw [toList, empty]
  rfl

@[simp] theorem toList_clear (r : Ring n α) : r.clear.toList = [] := rfl

/-- Two places less than `n` apart are different slots. -/
theorem slot_ne {i : Nat} (before : i < r.count) (room : r.count < n) :
    r.slot i ≠ r.slot r.count := by
  intro same
  have sameMod : r.head + i ≡ r.head + r.count [MOD n] := congrArg Fin.val same
  have congruent : i ≡ r.count [MOD n] := Nat.ModEq.add_left_cancel' r.head sameMod
  exact Nat.ne_of_lt before (Nat.ModEq.eq_of_lt_of_lt congruent (before.trans room) room)

theorem toList_push (pushed : r.push a = some r') : r'.toList = r.toList ++ [a] := by
  unfold push at pushed
  split at pushed
  · next room =>
    cases pushed
    simp only [toList, range_succ, map_append, map_singleton]
    congr 1
    · refine map_congr_left fun i member => ?_
      exact Function.update_of_ne (slot_ne (mem_range.mp member) room) a r.slots
    · exact congrArg (fun b => [b]) (Function.update_self (r.slot r.count) a r.slots)
  · cases pushed

theorem toList_pop (popped : r.pop = some (a, r')) : r.toList = a :: r'.toList := by
  obtain ⟨-, ⟨⟩⟩ | ⟨empty, ⟨⟩⟩ := ite_eq_iff.mp popped
  obtain ⟨k, more⟩ := Nat.exists_eq_succ_of_ne_zero empty
  have first : r.slot 0 = ⟨r.head, r.head_lt⟩ := Fin.ext (Nat.mod_eq_of_lt r.head_lt)
  simp only [toList, more, Nat.succ_eq_add_one, Nat.add_sub_cancel, range_succ_eq_map,
    map_cons, map_map, first]
  congr 1
  refine map_congr_left fun i _ => congrArg r.slots (Fin.ext ?_)
  change (r.head + (i + 1)) % n = ((r.head + 1) % n + i) % n
  rw [Nat.mod_add_mod, Nat.add_assoc, Nat.add_comm i 1]

theorem pop_eq_none (none_ : r.pop = none) : r.toList = [] := by
  unfold pop at none_
  by_cases empty : r.count = 0
  · exact toList_eq_nil empty
  · rw [if_neg empty] at none_
    cases none_

end Ring

end A20OS.Lib
