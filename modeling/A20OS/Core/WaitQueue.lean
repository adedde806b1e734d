import Mathlib.Data.List.Perm.Basic

/-!
Wait queues (`kernel/core/sync.c`).

A queue is the list of its entries from the head on; `wait_queue_link` puts an entry in front.
An entry carries the task, the sequence number of the wait it belongs to, and what its owner
tagged it with. Wakers detach entries under the queue's lock, up to a limit, and try to wake
their tasks afterwards, each with the number of its entry.
-/

namespace A20OS.Core

universe u

variable {κ : Type u}

structure WaitEntry (κ : Type u) where
  task : Nat
  seq : Nat
  tag : κ
deriving DecidableEq

/-- `PROC_WAKE_Q_CAPACITY` -/
def procWakeQCapacity : Nat := 64

/-- `wait_queue_collect_matching`: detach the first `limit` entries that match, and what is left. -/
def collectMatching (wanted : WaitEntry κ → Bool) :
    Nat → List (WaitEntry κ) → List (WaitEntry κ) × List (WaitEntry κ)
  | _, [] => ([], [])
  | limit, e :: q =>
      match limit, wanted e with
      | 0, _ => ([], e :: q)
      | limit + 1, true =>
          (e :: (collectMatching wanted limit q).1, (collectMatching wanted limit q).2)
      | limit + 1, false =>
          ((collectMatching wanted (limit + 1) q).1, e :: (collectMatching wanted (limit + 1) q).2)

/-- The entries without those of a task. -/
def unlinkTask (q : List (WaitEntry κ)) (t : Nat) : List (WaitEntry κ) :=
  q.filter fun e => e.task != t

/-- How many of the entries are a task's. -/
def entriesOf (t : Nat) (q : List (WaitEntry κ)) : Nat := q.countP fun e => e.task == t

variable {t : Nat} {e : WaitEntry κ} {q : List (WaitEntry κ)}

@[simp] theorem entriesOf_nil : entriesOf t ([] : List (WaitEntry κ)) = 0 := rfl

theorem entriesOf_cons : entriesOf t (e :: q) = entriesOf t q + if e.task = t then 1 else 0 := by
  simp [entriesOf, List.countP_cons]

theorem entriesOf_pos_iff : 0 < entriesOf t q ↔ ∃ e ∈ q, e.task = t := by
  simp [entriesOf, List.countP_pos_iff]

theorem unlinkTask_eq_self (none_of : entriesOf t q = 0) : unlinkTask q t = q := by
  rw [unlinkTask, List.filter_eq_self]
  intro e member
  have := List.countP_eq_zero.mp none_of e member
  simpa using this

section Collect

variable (wanted : WaitEntry κ → Bool)

theorem collectMatching_perm (limit : Nat) (q : List (WaitEntry κ)) :
    ((collectMatching wanted limit q).1 ++ (collectMatching wanted limit q).2).Perm q := by
  fun_induction collectMatching wanted limit q with
  | case1 | case2 => exact .refl _
  | case3 e q limit takes ih => exact ih.cons e
  | case4 e q limit keeps ih => exact List.perm_middle.trans (ih.cons e)

theorem length_collectMatching_le (limit : Nat) (q : List (WaitEntry κ)) :
    (collectMatching wanted limit q).1.length ≤ limit := by
  fun_induction collectMatching wanted limit q with
  | case1 => exact Nat.zero_le _
  | case2 e q => exact Nat.le_refl _
  | case3 e q limit takes ih => exact Nat.succ_le_succ ih
  | case4 e q limit keeps ih => exact ih

/-- Below the limit nothing that matches is left. -/
theorem rest_of_collectMatching {limit : Nat}
    (short : (collectMatching wanted limit q).1.length < limit) :
    ∀ e ∈ (collectMatching wanted limit q).2, wanted e = false := by
  fun_induction collectMatching wanted limit q with
  | case1 => simp
  | case2 e q => exact absurd short (Nat.not_lt_zero _)
  | case3 e q limit takes ih => exact ih (Nat.lt_of_succ_lt_succ short)
  | case4 e q limit keeps ih => exact List.forall_mem_cons.mpr ⟨by simpa using keeps, ih short⟩

theorem entriesOf_collectMatching (t limit : Nat) (q : List (WaitEntry κ)) :
    entriesOf t (collectMatching wanted limit q).1 +
      entriesOf t (collectMatching wanted limit q).2 =
      entriesOf t q := by
  have same := (collectMatching_perm wanted limit q).countP_eq fun e => e.task == t
  rwa [List.countP_append] at same

end Collect

end A20OS.Core
