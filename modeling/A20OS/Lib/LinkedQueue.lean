import Mathlib.Data.List.Nodup

/-!
Singly linked queues in a heap.

`Represents heap links cells` says that the queue holds the given cells, each a pointer with its
value, in order. Appending at the tail and taking from the head act on that list
(`Represents.enqueue`, `Represents.dequeue`), and a queue does not notice changes of the heap
outside its cells (`Represents.frame`), so several queues can share a heap.
-/

namespace A20OS.Lib

open List Function

universe u

variable {α : Type u}

structure Node (α : Type u) where
  value : α
  next : Option Nat

/-- Allocated nodes by address. -/
abbrev Heap (α : Type u) := Nat → Option (Node α)

structure Links where
  head : Option Nat
  tail : Option Nat
deriving DecidableEq

/-- The links after the head node, whose next pointer is `next`, is taken off. -/
def Links.behind (links : Links) (next : Option Nat) : Links :=
  ⟨next, if next = none then none else links.tail⟩

namespace Heap

def alloc (heap : Heap α) (p : Nat) (v : α) : Heap α := Function.update heap p (some ⟨v, none⟩)

def free (heap : Heap α) (p : Nat) : Heap α := Function.update heap p none

/-- `t->next = next`. -/
def setNext (heap : Heap α) (t : Nat) (next : Option Nat) : Heap α :=
  Function.update heap t ((heap t).map fun node => { node with next })

/-- Link the allocated node `p` behind the tail. -/
def append (heap : Heap α) (links : Links) (p : Nat) : Heap α × Links :=
  match links.tail with
  | some t => (heap.setNext t (some p), { links with tail := some p })
  | none => (heap, ⟨some p, some p⟩)

/-- Free the nodes of a queue, following at most `n` next pointers. -/
def freeAll (heap : Heap α) : Nat → Option Nat → Heap α
  | 0, _ => heap
  | _ + 1, none => heap
  | n + 1, some p => freeAll (heap.free p) n ((heap p).bind Node.next)

/-- The values of a queue, following at most `n` next pointers. -/
def values (heap : Heap α) : Nat → Option Nat → List α
  | 0, _ => []
  | _ + 1, none => []
  | n + 1, some p =>
      match heap p with
      | none => []
      | some node => node.value :: values heap n node.next

end Heap

variable {heap heap' : Heap α} {cells : List (Nat × α)} {links : Links} {p : Nat}
  {start : Option Nat}

/-! ### Representation -/

/-- Following next pointers from `start` visits the given cells and ends. -/
def Chain (heap : Heap α) : Option Nat → List (Nat × α) → Prop
  | start, [] => start = none
  | start, (p, v) :: cells => start = some p ∧ ∃ next, heap p = some ⟨v, next⟩ ∧
      Chain heap next cells

/-- The addresses of the cells. -/
abbrev addresses (cells : List (Nat × α)) : List Nat := cells.map Prod.fst

structure Represents (heap : Heap α) (links : Links) (cells : List (Nat × α)) : Prop where
  chain : Chain heap links.head cells
  tail : links.tail = (addresses cells).getLast?
  distinct : (addresses cells).Nodup

theorem represents_nil (heap : Heap α) : Represents heap ⟨none, none⟩ [] :=
  ⟨rfl, rfl, nodup_nil⟩

theorem Chain.frame (chain : Chain heap start cells)
    (same : ∀ p ∈ addresses cells, heap' p = heap p) : Chain heap' start cells := by
  induction cells generalizing start with
  | nil => exact chain
  | cons cell cells ih =>
    obtain ⟨p, v⟩ := cell
    obtain ⟨rfl, next, here, rest⟩ := chain
    refine ⟨rfl, next, (same p (.head _)).trans here, ih rest ?_⟩
    exact fun q hq => same q (.tail _ hq)

/-- A queue does not notice changes of the heap outside its cells. -/
theorem Represents.frame (h : Represents heap links cells)
    (same : ∀ p ∈ addresses cells, heap' p = heap p) : Represents heap' links cells :=
  ⟨h.chain.frame same, h.tail, h.distinct⟩

theorem Chain.free (chain : Chain heap start cells) (apart : p ∉ addresses cells) :
    Chain (heap.free p) start cells := by
  refine chain.frame fun q hq => update_of_ne ?_ _ _
  rintro rfl
  exact apart hq

theorem Chain.allocated
    (chain : Chain heap start cells) : ∀ p ∈ addresses cells, heap p ≠ none := by
  induction cells generalizing start with
  | nil => exact nofun
  | cons cell cells ih =>
    obtain ⟨p, v⟩ := cell
    obtain ⟨-, next, here, rest⟩ := chain
    exact forall_mem_cons.mpr ⟨by simp [here], ih rest⟩

/-- The cells of a queue are allocated. -/
theorem Represents.allocated
    (h : Represents heap links cells) : ∀ p ∈ addresses cells, heap p ≠ none :=
  h.chain.allocated

/-! ### Appending and taking -/

/-- Redirecting the last cell of a chain to a new cell appends it. -/
theorem Chain.snoc {t : Nat} {w v : α} (chain : Chain heap start (cells ++ [(t, w)]))
    (same : ∀ q ∈ addresses cells, heap' q = heap q) (last : heap' t = some ⟨w, some p⟩)
    (new : heap' p = some ⟨v, none⟩) : Chain heap' start (cells ++ [(t, w)] ++ [(p, v)]) := by
  induction cells generalizing start with
  | nil =>
    obtain ⟨rfl, -, -, -⟩ := chain
    exact ⟨rfl, some p, last, rfl, none, new, rfl⟩
  | cons cell cells ih =>
    obtain ⟨q, u⟩ := cell
    obtain ⟨rfl, next, here, rest⟩ := chain
    refine ⟨rfl, next, (same q (.head _)).trans here, ih rest ?_⟩
    exact fun r hr => same r (.tail _ hr)

/-- The last cell of a chain has no next cell. -/
theorem Chain.last {t : Nat} {w : α}
    (chain : Chain heap start (cells ++ [(t, w)])) : heap t = some ⟨w, none⟩ := by
  induction cells generalizing start with
  | nil =>
    obtain ⟨-, next, here, ended⟩ := chain
    rw [here, ended]
  | cons cell cells ih =>
    obtain ⟨-, next, -, rest⟩ := chain
    exact ih rest

/-- Appending changes the new node and the last cell only. -/
theorem append_alloc_of_ne {q : Nat} (v : α) (hq : q ≠ p)
    (last : links.tail ≠ some q) : ((heap.alloc p v).append links p).1 q = heap q := by
  unfold Heap.append
  cases tail : links.tail with
  | none => exact update_of_ne hq _ _
  | some t =>
    have ht : q ≠ t := fun same => last (by rw [tail, same])
    change update _ _ _ q = _
    rw [update_of_ne ht]
    exact update_of_ne hq _ _

theorem nodup_addresses_snoc {v : α} :
    (addresses (cells ++ [(p, v)])).Nodup ↔ (addresses cells).Nodup ∧ p ∉ addresses cells := by
  rw [addresses, map_append, map_singleton, nodup_append_comm,
    singleton_append, nodup_cons, and_comm]

theorem getLast?_addresses_snoc (cells : List (Nat × α)) (p : Nat) (v : α) :
    (addresses (cells ++ [(p, v)])).getLast? = some p := by
  rw [addresses, map_append, map_singleton, getLast?_concat]

theorem Represents.enqueue (h : Represents heap links cells) (fresh : heap p = none) (v : α) :
    Represents ((heap.alloc p v).append links p).1 ((heap.alloc p v).append links p).2
      (cells ++ [(p, v)]) := by
  have unused : p ∉ addresses cells := fun used => h.allocated p used fresh
  have distinct : (addresses (cells ++ [(p, v)])).Nodup :=
    nodup_addresses_snoc.mpr ⟨h.distinct, unused⟩
  rcases eq_nil_or_concat' cells with rfl | ⟨front, ⟨t, w⟩, rfl⟩
  · have tail : links.tail = none := h.tail
    unfold Heap.append
    rw [tail]
    exact ⟨⟨rfl, none, update_self .., rfl⟩, rfl, distinct⟩
  have tail : links.tail = some t := by rw [h.tail, getLast?_addresses_snoc]
  obtain ⟨-, later⟩ := nodup_addresses_snoc.mp h.distinct
  have pt : t ≠ p := by
    rintro rfl
    exact unused (by simp)
  have redirected : ((heap.alloc p v).append links p).1 t = some ⟨w, some p⟩ := by
    unfold Heap.append
    rw [tail]
    change update _ _ _ t = _
    rw [update_self, Heap.alloc, update_of_ne pt, h.chain.last]
    rfl
  have new : ((heap.alloc p v).append links p).1 p = some ⟨v, none⟩ := by
    unfold Heap.append
    rw [tail]
    change update _ _ _ p = _
    rw [update_of_ne pt.symm, Heap.alloc, update_self]
  have links' : ((heap.alloc p v).append links p).2 = { links with tail := some p } := by
    unfold Heap.append
    rw [tail]
  rw [links']
  refine ⟨h.chain.snoc ?_ redirected new, ?_, distinct⟩
  · intro q hq
    refine append_alloc_of_ne v ?_ ?_
    · rintro rfl
      exact unused (by simp at hq ⊢; exact .inl hq)
    · rw [tail]
      rintro ⟨⟩
      exact later hq
  · exact (getLast?_addresses_snoc _ p v).symm

/-- Taking the head off leaves the remaining cells, also once the node is freed. -/
theorem Represents.dequeue {v : α} (h : Represents heap links ((p, v) :: cells)) :
    links.head = some p ∧ ∃ next, heap p = some ⟨v, next⟩ ∧
      Represents (heap.free p) (links.behind next) cells := by
  obtain ⟨head, next, here, rest⟩ := h.chain
  obtain ⟨apart, distinct⟩ := nodup_cons.mp h.distinct
  refine ⟨head, next, here, ?_, ?_, distinct⟩
  · exact rest.free apart
  · cases cells with
    | nil =>
      have ended : next = none := rest
      rw [ended]
      rfl
    | cons cell cells =>
      obtain ⟨more, -⟩ := rest
      rw [more]
      change links.tail = _
      rw [h.tail]
      exact getLast?_cons_cons

theorem Chain.values
    (chain : Chain heap start cells) : heap.values cells.length start = cells.map Prod.snd := by
  induction cells generalizing start with
  | nil => rfl
  | cons cell cells ih =>
    obtain ⟨p, v⟩ := cell
    obtain ⟨rfl, next, here, rest⟩ := chain
    rw [length_cons, Heap.values, here]
    exact congrArg (v :: ·) (ih rest)

theorem Represents.head_eq_none
    (h : Represents heap links cells) : links.head = none ↔ cells = [] := by
  cases cells with
  | nil => exact ⟨fun _ => rfl, fun _ => h.chain⟩
  | cons cell cells =>
    obtain ⟨head, -⟩ := h.chain
    constructor
    · intro none
      rw [head] at none
      cases none
    · exact nofun

/-! ### Freeing a whole queue -/

theorem freeAll_of_notMem {q : Nat} (n : Nat) (chain : Chain heap start cells)
    (apart : q ∉ addresses cells) (distinct : (addresses cells).Nodup) :
    (heap.freeAll n start) q = heap q := by
  induction n generalizing heap start cells with
  | zero => rfl
  | succ n ih =>
    cases cells with
    | nil =>
      have ended : start = none := chain
      rw [ended]
      rfl
    | cons cell cells =>
      obtain ⟨p, v⟩ := cell
      obtain ⟨rfl, next, here, rest⟩ := chain
      obtain ⟨hp, distinct⟩ := nodup_cons.mp distinct
      rw [addresses, map_cons, mem_cons, not_or] at apart
      rw [Heap.freeAll, here]
      exact (ih (rest.free hp) apart.2 distinct).trans (update_of_ne apart.1 _ _)

end A20OS.Lib
