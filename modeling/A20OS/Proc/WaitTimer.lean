import A20OS.Lib.BinaryHeap
import A20OS.Proc.WaitProtocol

/-!
The wait-timer heap (`kernel/proc/timer_heap.c`).

Deadlines of waiting tasks are in a binary heap; each entry owns a reference to its task, and the
task stores the position of its entry. The functions are the critical sections of
`g_wait_timer_lock`, and the whole of `proc_sched_expire_wait_timers`, which takes expired entries
out in batches and wakes their tasks. `HeapOk` is what every section finds and leaves: an ordered
heap, tasks that point back at their entries, and `next_wake_scan` the deadline at the root.
-/

namespace A20OS.Proc.TimerHeap

open Lib Lib.BinaryHeap

/-- `wait_timer_t`. A task is given by its address, and 0 is the null pointer. -/
structure WaitTimer where
  deadline : Nat := 0
  task : Nat := 0
  waitSeq : Nat := 0
deriving DecidableEq

/-- `SCHED_NO_DEADLINE` -/
def schedNoDeadline : Nat := 2 ^ 64 - 1

/-- What the timer heap uses of a task. -/
structure TimerTask where
  waitTimerIndex : Int := -1
  wakeTime : Nat := 0
  refs : Nat
  state : TaskState := .running
  park : Park := {}
deriving DecidableEq

/-- `proc_try_wake_locked_common`, for a timeout: the park fields, and whether the wake won. -/
def TimerTask.timeout (task : TimerTask) (seq : Nat) : Park × Bool :=
  if task.state = .unused ∨ task.state = .zombie then (task.park, false)
  else task.park.tryWake seq .timeout

structure WaitTimers where
  heap : Nat → WaitTimer := fun _ => {}
  count : Nat := 0
  tasks : Nat → TimerTask
  nextWakeScan : Nat := schedNoDeadline
  fullFailures : Nat := 0
  duplicateRejections : Nat := 0
  staleExpirations : Nat := 0
  /-- `proc_put` found no reference to drop. -/
  underflow : Bool := false

namespace WaitTimers

/-! ### The functions -/

section

variable (s : WaitTimers)

def setTask (t : Nat) (f : TimerTask → TimerTask) : WaitTimers :=
  { s with tasks := Function.update s.tasks t (f (s.tasks t)) }

/-- `t->wait_timer_index = i` -/
def setIndex (t : Nat) (i : Int) : WaitTimers :=
  s.setTask t fun task => { task with waitTimerIndex := i }

/-- `proc_get`; `none` when the last reference is gone. -/
def procGet (t : Nat) : Option WaitTimers :=
  if (s.tasks t).refs = 0 then none
  else some (s.setTask t fun task => { task with refs := task.refs + 1 })

/-- `proc_put` -/
def procPut (t : Nat) : WaitTimers :=
  if t = 0 then s
  else if (s.tasks t).refs = 0 then { s with underflow := true }
  else s.setTask t fun task => { task with refs := task.refs - 1 }

/-- `wait_timer_heap_swap` -/
def heapSwap (a b : Nat) : WaitTimers :=
  let heap := Function.update (Function.update s.heap a (s.heap b)) b (s.heap a)
  ({ s with heap }.setIndex (heap a).task a).setIndex (heap b).task b

def siftUpLoop : Nat → WaitTimers → Nat → WaitTimers
  | 0, s, _ => s
  | fuel + 1, s, index =>
      if 0 < index then
        if (s.heap (parent index)).deadline ≤ (s.heap index).deadline then s
        else siftUpLoop fuel (s.heapSwap (parent index) index) (parent index)
      else s

/-- `wait_timer_sift_up` -/
def siftUp (index : Nat) : WaitTimers := siftUpLoop (index + 1) s index

/-- The candidate `b` if it is an entry with an earlier deadline, else `a`. -/
def earlier (a b : Nat) : Nat :=
  if b < s.count ∧ (s.heap b).deadline < (s.heap a).deadline then b else a

/-- The earliest of an entry and its two children. -/
def smallest (index : Nat) : Nat :=
  s.earlier (s.earlier index (index * 2 + 1)) (index * 2 + 1 + 1)

def siftDownLoop : Nat → WaitTimers → Nat → WaitTimers
  | 0, s, _ => s
  | fuel + 1, s, index =>
      if s.smallest index = index then s
      else siftDownLoop fuel (s.heapSwap index (s.smallest index)) (s.smallest index)

/-- `wait_timer_sift_down` -/
def siftDown (index : Nat) : WaitTimers := siftDownLoop (s.count + 1) s index

/-- Forget the position of the task of an entry, and count one entry less. -/
def takeOut (index : Nat) : WaitTimers :=
  { (if (s.heap index).task ≠ 0 then s.setIndex (s.heap index).task (-1) else s) with
    count := s.count - 1 }

/-- The last entry moves to the place of another. -/
def moveLast (index : Nat) : WaitTimers :=
  { s with heap := Function.update s.heap index (s.heap s.count) }.setIndex
    (s.heap s.count).task index

/-- Fill the place of a removed entry with the last one, and sift it. -/
def refill (index : Nat) : WaitTimers :=
  let s := s.moveLast index
  if 0 < index ∧ (s.heap index).deadline < (s.heap (parent index)).deadline then s.siftUp index
  else s.siftDown index

/-- Clear the place behind the last entry and publish the deadline at the root. -/
def publish : WaitTimers :=
  let s := { s with heap := Function.update s.heap s.count {} }
  { s with nextWakeScan := if s.count ≠ 0 then (s.heap 0).deadline else schedNoDeadline }

/-- `wait_timer_remove_index_locked` -/
def removeIndex (index : Nat) : WaitTimer × WaitTimers :=
  if index ≥ s.count then ({}, s)
  else
    (s.heap index,
      (if index ≠ (s.takeOut index).count then (s.takeOut index).refill index
        else s.takeOut index).publish)

/-- A new entry behind the last one. -/
def place (t deadline waitSeq : Nat) : WaitTimers :=
  { s with
    count := s.count + 1
    heap := Function.update s.heap s.count { deadline, task := t, waitSeq } }.setTask t
      fun task => { task with waitTimerIndex := s.count, wakeTime := deadline }

/-- Publish the deadline at the root of a heap that is not empty. -/
def publishRoot : WaitTimers := { s with nextWakeScan := (s.heap 0).deadline }

/-- `proc_wait_timer_register_locked`, for a heap of `max` places; the hardware timer is not
part of the model. -/
def procWaitTimerRegister (max : Nat) (s : WaitTimers) (t deadline waitSeq : Nat) :
    WaitTimers × Option PrepareError :=
  if t = 0 ∨ deadline = 0 ∨ waitSeq = 0 then (s, some .invalid)
  else if (s.tasks t).waitTimerIndex ≥ 0 then
    ({ s with duplicateRejections := s.duplicateRejections + 1 }, some .timeoutDuplicate)
  else if s.count ≥ max then
    ({ s with fullFailures := s.fullFailures + 1 }, some .timeoutCapacity)
  else
    match s.procGet t with
    | none => (s, some .timeoutRef)
    | some s => (((s.place t deadline waitSeq).siftUp s.count).publishRoot, none)

/-- `proc_wait_timer_cancel_locked` -/
def procWaitTimerCancel (t waitSeq : Nat) : WaitTimers :=
  if t = 0 ∨ (s.tasks t).waitTimerIndex < 0 then s
  else
    let index := (s.tasks t).waitTimerIndex.toNat
    if index ≥ s.count ∨ (s.heap index).task ≠ t ∨ (s.heap index).waitSeq ≠ waitSeq then s
    else
      let removed := (s.removeIndex index).1
      let s := (s.removeIndex index).2
      (s.setTask t fun task => { task with wakeTime := 0 }).procPut removed.task

/-- Take expired entries out, at most 128 of them. -/
def collect (now : Nat) : Nat → WaitTimers → List (Nat × Nat) → WaitTimers × List (Nat × Nat)
  | 0, s, expired => (s, expired)
  | fuel + 1, s, expired =>
      if s.count ≠ 0 ∧ (s.heap 0).deadline ≤ now ∧ expired.length < 128 then
        let timer := (s.removeIndex 0).1
        let s := (s.removeIndex 0).2
        if timer.task ≠ 0 ∧ timer.waitSeq ≠ 0 then
          collect now fuel s (expired ++ [(timer.task, timer.waitSeq)])
        else collect now fuel (s.procPut timer.task) expired
      else (s, expired)

/-- Wake the task of a timer that was taken out, and drop the timer's reference. -/
def wakeExpired (expired : Nat × Nat) : WaitTimers :=
  let t := expired.1
  let seq := expired.2
  let stale := (s.tasks t).park.waitSeq ≠ seq
  let (park, woke) := (s.tasks t).timeout seq
  -- the winning wake cancels the timer of its wait
  let s := if woke then s.procWaitTimerCancel t seq else s
  let s := s.setTask t fun task =>
    { task with park, wakeTime := if woke then 0 else task.wakeTime }
  let s := if woke = false ∧ stale then { s with staleExpirations := s.staleExpirations + 1 } else s
  s.procPut t

/-- The batches of `proc_sched_expire_wait_timers`. -/
def expireLoop (now : Nat) : Nat → WaitTimers → WaitTimers
  | 0, s => s
  | fuel + 1, s =>
      let batch := collect now s.count s []
      let s := batch.2.foldl wakeExpired batch.1
      if batch.2.length = 128 then expireLoop now fuel s else s

/-- `proc_sched_expire_wait_timers` -/
def procSchedExpireWaitTimers (now : Nat) : WaitTimers :=
  expireLoop now (s.count + 1) s

end

/-! ### The entries of the heap -/

/-- The entry is in the heap. -/
def Has (s : WaitTimers) (e : WaitTimer) : Prop := ∃ i < s.count, s.heap i = e

/-- The deadlines by position. -/
def key (s : WaitTimers) (i : Nat) : Nat := (s.heap i).deadline

def index (s : WaitTimers) (t : Nat) : Int := (s.tasks t).waitTimerIndex

/-- The task of every entry points at it, and no other task points into the heap. -/
structure Indexed (s : WaitTimers) : Prop where
  back : ∀ i < s.count, s.index (s.heap i).task = i
  absent : ∀ t, (∀ e, s.Has e → e.task ≠ t) → s.index t = -1

/-- All fields of two states agree, but for the array and the positions of the tasks. -/
structure Framed (s s' : WaitTimers) : Prop where
  tasks : ∀ t, s'.tasks t = { s.tasks t with waitTimerIndex := s'.index t }
  fullFailures : s'.fullFailures = s.fullFailures
  duplicateRejections : s'.duplicateRejections = s.duplicateRejections
  staleExpirations : s'.staleExpirations = s.staleExpirations
  underflow : s'.underflow = s.underflow

/-- The entries of the heap were permuted, and nothing else changed. -/
structure Rearranged (s s' : WaitTimers) : Prop extends Framed s s' where
  count : s'.count = s.count
  has : ∀ e, s'.Has e ↔ s.Has e

variable {s s' s'' : WaitTimers}

theorem Framed.refl (s : WaitTimers) : Framed s s := ⟨fun _ => rfl, rfl, rfl, rfl, rfl⟩

theorem Framed.trans (first : Framed s s') (second : Framed s' s'') : Framed s s'' := by
  obtain ⟨tasks, full, duplicate, stale, under⟩ := second
  refine ⟨fun t => ?_, full.trans first.fullFailures, duplicate.trans first.duplicateRejections,
    stale.trans first.staleExpirations, under.trans first.underflow⟩
  rw [tasks t, first.tasks t]

theorem Framed.refs (framed : Framed s s') (t : Nat) : (s'.tasks t).refs = (s.tasks t).refs := by
  rw [framed.tasks t]

theorem Rearranged.refl (s : WaitTimers) : Rearranged s s := ⟨.refl s, rfl, fun _ => Iff.rfl⟩

theorem Rearranged.trans (first : Rearranged s s') (second : Rearranged s' s'') :
    Rearranged s s'' :=
  ⟨first.toFramed.trans second.toFramed, second.count.trans first.count,
    fun e => (second.has e).trans (first.has e)⟩

variable {t : Nat}

theorem framed_setIndex {i : Int} : Framed s (s.setIndex t i) := by
  refine ⟨fun t' => ?_, rfl, rfl, rfl, rfl⟩
  unfold index setIndex setTask
  by_cases same : t' = t
  · subst same
    simp
  · simp [same]

theorem index_setIndex {i : Int} {t' : Nat} :
    (s.setIndex t i).index t' = if t' = t then i else s.index t' := by
  unfold index setIndex setTask
  by_cases same : t' = t
  · subst same
    simp
  · simp [same]

variable {i a b : Nat}

/-- Two entries of one task are the same. -/
theorem Indexed.eq_of_task (indexed : Indexed s) {j : Nat} (first : i < s.count)
    (second : j < s.count) (same : (s.heap i).task = (s.heap j).task) : i = j := by
  have back := indexed.back i first
  rw [same, indexed.back j second] at back
  exact_mod_cast back.symm

theorem Indexed.present_iff (indexed : Indexed s) (t : Nat) :
    0 ≤ s.index t ↔ ∃ e, s.Has e ∧ e.task = t := by
  constructor
  · intro present
    by_contra none_
    have gone := indexed.absent t fun e has same => none_ ⟨e, has, same⟩
    omega
  · rintro ⟨e, ⟨i, below, rfl⟩, rfl⟩
    rw [indexed.back i below]
    exact Int.natCast_nonneg i

open Function

/-! ### Sifting -/

theorem heap_heapSwap : (s.heapSwap a b).heap = s.heap ∘ Equiv.swap a b := by
  rw [Equiv.swap_comm]
  exact (Equiv.comp_swap_eq_update b a s.heap).symm

theorem key_heapSwap : (s.heapSwap a b).key = swapped s.key a b := by
  funext i
  rw [key, heap_heapSwap]
  rfl

variable {n : Nat}

theorem swap_lt (left : a < n) (right : b < n) (below : i < n) : Equiv.swap a b i < n := by
  rw [Equiv.swap_apply_def]
  split
  · exact right
  · split
    · exact left
    · exact below

theorem index_heapSwap :
    (s.heapSwap a b).index t =
      if t = (s.heap a).task then (b : Int) else if t = (s.heap b).task then (a : Int)
      else s.index t := by
  have ends : (s.heapSwap a b).heap a = s.heap b ∧ (s.heapSwap a b).heap b = s.heap a := by
    rw [heap_heapSwap]
    exact ⟨congrArg s.heap (Equiv.swap_apply_left a b),
      congrArg s.heap (Equiv.swap_apply_right a b)⟩
  rw [← ends.1, ← ends.2]
  unfold heapSwap
  rw [index_setIndex, index_setIndex]
  rfl

theorem rearranged_heapSwap (left : a < s.count) (right : b < s.count) :
    Rearranged s (s.heapSwap a b) := by
  refine ⟨?_, rfl, fun e => ?_⟩
  · refine Framed.trans ?_ (framed_setIndex.trans framed_setIndex)
    exact ⟨fun _ => rfl, rfl, rfl, rfl, rfl⟩
  · unfold Has
    rw [heap_heapSwap]
    constructor
    · rintro ⟨i, below, rfl⟩
      exact ⟨Equiv.swap a b i, swap_lt left right below, rfl⟩
    · rintro ⟨i, below, rfl⟩
      refine ⟨Equiv.swap a b i, swap_lt left right below, ?_⟩
      rw [comp_apply, Equiv.swap_apply_self]

theorem Indexed.heapSwap (indexed : Indexed s) (left : a < s.count)
    (right : b < s.count) : Indexed (s.heapSwap a b) := by
  have moved := rearranged_heapSwap (s := s) left right
  constructor
  · intro i below
    have other := swap_lt left right below
    rw [index_heapSwap, heap_heapSwap, comp_apply]
    by_cases atB : Equiv.swap a b i = a
    · rw [atB, if_pos rfl, ← Equiv.swap_apply_self a b i, atB, Equiv.swap_apply_left]
    rw [if_neg fun same => atB (indexed.eq_of_task other left same)]
    by_cases atA : Equiv.swap a b i = b
    · rw [atA, if_pos rfl, ← Equiv.swap_apply_self a b i, atA, Equiv.swap_apply_right]
    · rw [if_neg fun same => atA (indexed.eq_of_task other right same), indexed.back _ other]
      have fixed : Equiv.swap a b i = i :=
        Equiv.swap_apply_of_ne_of_ne (fun same => atA (same ▸ Equiv.swap_apply_left a b))
          (fun same => atB (same ▸ Equiv.swap_apply_right a b))
      rw [fixed]
  · intro t none_
    have away : ∀ e, s.Has e → e.task ≠ t := fun e has => none_ e ((moved.has e).mpr has)
    rw [index_heapSwap, if_neg (away _ ⟨a, left, rfl⟩).symm, if_neg (away _ ⟨b, right, rfl⟩).symm]
    exact indexed.absent t away

/-- What a sift leaves. -/
structure Sifted (s s' : WaitTimers) : Prop where
  rearranged : Rearranged s s'
  indexed : Indexed s'
  ordered : Ordered s'.key s'.count

theorem siftUpLoop_spec (fuel : Nat) : ∀ {s : WaitTimers} {i : Nat}, Indexed s →
    Up s.key s.count i → i < s.count → i < fuel → Sifted s (siftUpLoop fuel s i) := by
  induction fuel with
  | zero =>
    intro s i _ _ _ enough
    exact absurd enough (Nat.not_lt_zero _)
  | succ fuel ih =>
    intro s i indexed up below enough
    rw [siftUpLoop]
    by_cases pos : 0 < i
    · rw [if_pos pos]
      by_cases stop : (s.heap (parent i)).deadline ≤ (s.heap i).deadline
      · rw [if_pos stop]
        exact ⟨.refl s, indexed, up.done fun _ => stop⟩
      rw [if_neg stop]
      have above := parent_lt pos
      have left := above.trans below
      have moved := rearranged_heapSwap (s := s) left below
      have next : Up (s.heapSwap (parent i) i).key (s.heapSwap (parent i) i).count (parent i) := by
        rw [key_heapSwap, moved.count]
        exact up.swap pos below (not_le.mp stop)
      obtain ⟨rearranged, indexed', ordered⟩ := ih (indexed.heapSwap left below) next
        (moved.count.symm ▸ left) (by omega)
      exact ⟨moved.trans rearranged, indexed', ordered⟩
    · rw [if_neg pos]
      exact ⟨.refl s, indexed, up.done fun pos' => absurd pos' pos⟩

theorem earlier_cases (s : WaitTimers) (a b : Nat) :
    (s.earlier a b = b ∧ b < s.count ∧ s.key b < s.key a) ∨
    (s.earlier a b = a ∧ (b < s.count → s.key a ≤ s.key b)) := by
  unfold earlier
  by_cases better : b < s.count ∧ (s.heap b).deadline < (s.heap a).deadline
  · rw [if_pos better]
    exact .inl ⟨rfl, better⟩
  · rw [if_neg better]
    exact .inr ⟨rfl, fun below => not_lt.mp fun less => better ⟨below, less⟩⟩

/-- The earliest of an entry and its children is the entry itself, or a child that has to
change places with it. -/
theorem smallest_cases (s : WaitTimers) (i : Nat) :
    (s.smallest i = i ∧ ∀ j, 0 < j → j < s.count → parent j = i → s.key i ≤ s.key j) ∨
    (0 < s.smallest i ∧ s.smallest i < s.count ∧ parent (s.smallest i) = i ∧
      s.key (s.smallest i) < s.key i ∧
      ∀ j, 0 < j → j < s.count → parent j = i → s.key (s.smallest i) ≤ s.key j) := by
  have children : ∀ {k : Nat}, (i * 2 + 1 < s.count → k ≤ s.key (i * 2 + 1)) →
      (i * 2 + 1 + 1 < s.count → k ≤ s.key (i * 2 + 1 + 1)) →
      ∀ j, 0 < j → j < s.count → parent j = i → k ≤ s.key j := by
    intro k left right j pos below child
    have place := (parent_eq_iff pos).mp child
    obtain rfl | rfl : j = i * 2 + 1 ∨ j = i * 2 + 1 + 1 := by omega
    · exact left below
    · exact right below
  have left : parent (i * 2 + 1) = i := by unfold parent; omega
  have right : parent (i * 2 + 1 + 1) = i := by unfold parent; omega
  unfold smallest
  rcases s.earlier_cases i (i * 2 + 1) with ⟨first, inside, less⟩ | ⟨first, least⟩
  · rw [first]
    rcases s.earlier_cases (i * 2 + 1) (i * 2 + 1 + 1) with ⟨second, inside', less'⟩ |
      ⟨second, least'⟩
    · rw [second]
      exact .inr ⟨Nat.succ_pos _, inside', right, less'.trans less,
        children (fun _ => less'.le) fun _ => le_rfl⟩
    · rw [second]
      exact .inr ⟨Nat.succ_pos _, inside, left, less, children (fun _ => le_rfl) least'⟩
  · rw [first]
    rcases s.earlier_cases i (i * 2 + 1 + 1) with ⟨second, inside', less'⟩ | ⟨second, least'⟩
    · rw [second]
      exact .inr ⟨Nat.succ_pos _, inside', right, less',
        children (fun below => less'.le.trans (least below)) fun _ => le_rfl⟩
    · rw [second]
      exact .inl ⟨rfl, children least least'⟩

theorem siftDownLoop_spec (fuel : Nat) : ∀ {s : WaitTimers} {i : Nat}, Indexed s →
    Down s.key s.count i → i < s.count → s.count < fuel + i → Sifted s (siftDownLoop fuel s i) := by
  induction fuel with
  | zero =>
    intro s i _ _ below enough
    omega
  | succ fuel ih =>
    intro s i indexed down below enough
    rw [siftDownLoop]
    rcases smallest_cases s i with ⟨here, least⟩ | ⟨pos, inside, child, less, least⟩
    · rw [if_pos here]
      exact ⟨.refl s, indexed, down.done least⟩
    have lower : i < s.smallest i := by
      have := parent_lt pos
      omega
    rw [if_neg lower.ne']
    have moved := rearranged_heapSwap (s := s) below inside
    generalize s.smallest i = c at *
    have next : Down (s.heapSwap i c).key (s.heapSwap i c).count c := by
      rw [key_heapSwap, moved.count]
      exact down.swap pos inside child less least
    obtain ⟨rearranged, indexed', ordered⟩ := ih (indexed.heapSwap below inside) next
      (moved.count.symm ▸ inside) (by rw [moved.count]; omega)
    exact ⟨moved.trans rearranged, indexed', ordered⟩

/-! ### Removing an entry -/

/-- The heap is in order. -/
structure HeapOk (s : WaitTimers) : Prop where
  ordered : Ordered s.key s.count
  indexed : Indexed s
  valid : ∀ {e}, s.Has e → e.task ≠ 0 ∧ e.waitSeq ≠ 0
  scan : s.nextWakeScan = if s.count ≠ 0 then s.key 0 else schedNoDeadline

/-- One entry was taken out. -/
structure Removed (s s' : WaitTimers) (e : WaitTimer) : Prop where
  framed : Framed s s'
  ok : HeapOk s'
  count : s'.count + 1 = s.count
  has : ∀ x, s'.Has x ↔ s.Has x ∧ x ≠ e

theorem framed_takeOut : Framed s (s.takeOut i) := by
  refine Framed.trans ?_ ⟨fun _ => rfl, rfl, rfl, rfl, rfl⟩
  split
  · exact framed_setIndex
  · exact .refl s

theorem framed_moveLast : Framed s (s.moveLast i) := by
  refine Framed.trans ?_ framed_setIndex
  exact ⟨fun _ => rfl, rfl, rfl, rfl, rfl⟩

theorem count_takeOut (count : s.count = n + 1) (i : Nat) : (s.takeOut i).count = n :=
  Nat.sub_eq_of_eq_add count

theorem heap_takeOut : (s.takeOut i).heap = s.heap := by
  unfold takeOut
  split <;> rfl

theorem index_takeOut (task : (s.heap i).task ≠ 0) (t : Nat) :
    (s.takeOut i).index t = if t = (s.heap i).task then -1 else s.index t := by
  unfold takeOut
  rw [if_pos task]
  exact index_setIndex

theorem Indexed.has_ne (indexed : Indexed s) {j : Nat} (first : i < s.count) (second : j < s.count)
    (other : j ≠ i) : s.heap j ≠ s.heap i := fun same =>
  other (indexed.eq_of_task second first (by rw [same]))

/-- The last entry is taken out. -/
theorem Indexed.takeOut_last (indexed : Indexed s) (count : s.count = n + 1)
    (task : (s.heap n).task ≠ 0) :
    Indexed (s.takeOut n) ∧ ∀ x, (s.takeOut n).Has x ↔ s.Has x ∧ x ≠ s.heap n := by
  have last : n < s.count := by omega
  have fewer := count_takeOut count n
  have has : ∀ x, (s.takeOut n).Has x ↔ s.Has x ∧ x ≠ s.heap n := by
    intro x
    unfold Has
    rw [heap_takeOut, fewer]
    constructor
    · rintro ⟨j, below, rfl⟩
      exact ⟨⟨j, by omega, rfl⟩, indexed.has_ne last (by omega) below.ne⟩
    · rintro ⟨⟨j, below, rfl⟩, other⟩
      have ne : j ≠ n := fun same => other (same ▸ rfl)
      exact ⟨j, by omega, rfl⟩
  refine ⟨⟨fun j below => ?_, fun t away => ?_⟩, has⟩
  · rw [fewer] at below
    rw [heap_takeOut, index_takeOut task, if_neg fun same =>
      below.ne (indexed.eq_of_task (by omega) last same)]
    exact indexed.back j (by omega)
  · rw [index_takeOut task]
    by_cases gone : t = (s.heap n).task
    · rw [if_pos gone]
    · rw [if_neg gone]
      refine indexed.absent t fun e present same => ?_
      by_cases this : e = s.heap n
      · exact gone (this ▸ same.symm)
      · exact away e ((has e).mpr ⟨present, this⟩) same

/-- Another entry is taken out, and the last one moves to its place. -/
theorem Indexed.moveLast (indexed : Indexed s) (count : s.count = n + 1) (below : i < n)
    (task : (s.heap i).task ≠ 0) :
    Indexed ((s.takeOut i).moveLast i) ∧
      ∀ x, ((s.takeOut i).moveLast i).Has x ↔ s.Has x ∧ x ≠ s.heap i := by
  have last : n < s.count := by omega
  have inside : i < s.count := by omega
  have fewer := count_takeOut count i
  have heap : ((s.takeOut i).moveLast i).heap = update s.heap i (s.heap n) := by
    change update (s.takeOut i).heap i ((s.takeOut i).heap (s.takeOut i).count) = _
    rw [heap_takeOut, fewer]
  have index : ∀ t, ((s.takeOut i).moveLast i).index t =
      if t = (s.heap n).task then (i : Int) else if t = (s.heap i).task then -1 else s.index t := by
    intro t
    change (WaitTimers.setIndex _ ((s.takeOut i).heap (s.takeOut i).count).task i).index t = _
    rw [index_setIndex, fewer, heap_takeOut]
    change (if _ then _ else (s.takeOut i).index t) = _
    rw [index_takeOut task]
  have has : ∀ x, ((s.takeOut i).moveLast i).Has x ↔ s.Has x ∧ x ≠ s.heap i := by
    intro x
    unfold Has
    rw [heap]
    change (∃ j < (s.takeOut i).count, _) ↔ _
    rw [fewer]
    constructor
    · rintro ⟨j, jbelow, rfl⟩
      by_cases here : j = i
      · rw [here, update_self]
        exact ⟨⟨n, last, rfl⟩, indexed.has_ne inside last below.ne'⟩
      · rw [update_of_ne here]
        exact ⟨⟨j, by omega, rfl⟩, indexed.has_ne inside (by omega) here⟩
    · rintro ⟨⟨j, jbelow, rfl⟩, other⟩
      have ne : j ≠ i := fun same => other (same ▸ rfl)
      by_cases atEnd : j = n
      · exact ⟨i, below, by rw [update_self, atEnd]⟩
      · exact ⟨j, by omega, update_of_ne ne _ _⟩
  refine ⟨⟨fun j jbelow => ?_, fun t away => ?_⟩, has⟩
  · have jbelow : j < n := fewer ▸ jbelow
    rw [index, heap]
    by_cases here : j = i
    · rw [here, update_self, if_pos rfl]
    · rw [update_of_ne here, if_neg fun same => jbelow.ne (indexed.eq_of_task (by omega) last same),
        if_neg fun same => here (indexed.eq_of_task (by omega) inside same)]
      exact indexed.back j (by omega)
  · rw [index]
    have notLast : t ≠ (s.heap n).task := fun same =>
      away _ ((has _).mpr ⟨⟨n, last, rfl⟩, indexed.has_ne inside last below.ne'⟩) same.symm
    rw [if_neg notLast]
    by_cases gone : t = (s.heap i).task
    · rw [if_pos gone]
    · rw [if_neg gone]
      refine indexed.absent t fun e present same => ?_
      by_cases this : e = s.heap i
      · exact gone (this ▸ same.symm)
      · exact away e ((has e).mpr ⟨present, this⟩) same

/-- Filling the place of an entry keeps the heap in order. -/
theorem HeapOk.refill (ok : HeapOk s) (count : s.count = n + 1) (below : i < n) :
    Sifted ((s.takeOut i).moveLast i) ((s.takeOut i).refill i) := by
  obtain ⟨indexed, -⟩ :=
    ok.indexed.moveLast count below (ok.valid ⟨i, by omega, rfl⟩).1
  have fewer : ((s.takeOut i).moveLast i).count = n := count_takeOut count i
  have same : ∀ j, j ≠ i → j < n → ((s.takeOut i).moveLast i).key j = s.key j := by
    intro j other _
    change (update (s.takeOut i).heap i _ j).deadline = _
    rw [update_of_ne other, heap_takeOut]
    rfl
  have shorter : Ordered s.key n := fun j pos jbelow => ok.ordered j pos (by omega)
  unfold WaitTimers.refill
  by_cases up : 0 < i ∧ (((s.takeOut i).moveLast i).heap i).deadline <
      (((s.takeOut i).moveLast i).heap (parent i)).deadline
  · rw [if_pos up]
    refine siftUpLoop_spec _ indexed ?_ (fewer.symm ▸ below) (Nat.lt_succ_self i)
    rw [fewer]
    exact shorter.replace_up below same up.1 up.2
  · rw [if_neg up]
    refine siftDownLoop_spec _ indexed ?_ (fewer.symm ▸ below) (by omega)
    rw [fewer]
    exact shorter.replace_down below same fun pos => not_lt.mp fun less => up ⟨pos, less⟩

/-- Publishing the root finishes a removal. -/
theorem Sifted.publish {base : WaitTimers} (sifted : Sifted base s)
    (valid : ∀ {e}, base.Has e → e.task ≠ 0 ∧ e.waitSeq ≠ 0) :
    HeapOk s.publish ∧ Framed base s.publish ∧ s.publish.count = base.count ∧
      ∀ x, s.publish.Has x ↔ base.Has x := by
  obtain ⟨rearranged, indexed, ordered⟩ := sifted
  have heap : ∀ j < s.count, s.publish.heap j = s.heap j := fun j below =>
    update_of_ne below.ne _ _
  have has : ∀ x, s.publish.Has x ↔ s.Has x := by
    intro x
    constructor
    · rintro ⟨j, below, rfl⟩
      exact ⟨j, below, (heap j below).symm⟩
    · rintro ⟨j, below, rfl⟩
      exact ⟨j, below, heap j below⟩
  refine ⟨⟨?_, ⟨?_, ?_⟩, ?_, rfl⟩, ?_, rearranged.count, fun x => (has x).trans (rearranged.has x)⟩
  · intro j pos below
    change (s.publish.heap (parent j)).deadline ≤ (s.publish.heap j).deadline
    rw [heap j below, heap _ ((parent_lt pos).trans below)]
    exact ordered j pos below
  · intro j below
    rw [heap j below]
    exact indexed.back j below
  · intro t away
    exact indexed.absent t fun e present => away e ((has e).mpr present)
  · intro e present
    exact valid ((rearranged.has e).mp ((has e).mp present))
  · exact rearranged.toFramed.trans ⟨fun _ => rfl, rfl, rfl, rfl, rfl⟩

/-- Removing an entry takes out that entry only and leaves the heap in order. -/
theorem removeIndex_spec (ok : HeapOk s) (below : i < s.count) :
    (s.removeIndex i).1 = s.heap i ∧ Removed s (s.removeIndex i).2 (s.heap i) := by
  obtain ⟨n, count⟩ : ∃ n, s.count = n + 1 := ⟨s.count - 1, by omega⟩
  have fewer := count_takeOut count i
  have task : (s.heap i).task ≠ 0 := (ok.valid ⟨i, below, rfl⟩).1
  unfold removeIndex
  rw [if_neg (not_le.mpr below), fewer]
  refine ⟨rfl, ?_⟩
  by_cases last : i = n
  · subst last
    obtain ⟨indexed, has⟩ := ok.indexed.takeOut_last count task
    have sifted : Sifted (s.takeOut i) (s.takeOut i) := by
      refine ⟨.refl _, indexed, fun j pos jbelow => ?_⟩
      unfold key
      rw [heap_takeOut]
      exact ok.ordered j pos (by omega)
    obtain ⟨ok', framed, count', has'⟩ := sifted.publish fun {e} present =>
      ok.valid ((has e).mp present).1
    rw [if_neg (not_not.mpr rfl)]
    refine ⟨framed_takeOut.trans framed, ok', ?_, fun x => (has' x).trans (has x)⟩
    rw [count', fewer, count]
  · have inner : i < n := by omega
    obtain ⟨-, has⟩ := ok.indexed.moveLast count inner task
    obtain ⟨ok', framed, count', has'⟩ := (ok.refill count inner).publish fun {e} present =>
      ok.valid ((has e).mp present).1
    rw [if_pos last]
    refine ⟨(framed_takeOut.trans framed_moveLast).trans framed, ok', ?_,
      fun x => (has' x).trans (has x)⟩
    rw [count', count]
    exact congrArg (· + 1) fewer

end WaitTimers

end A20OS.Proc.TimerHeap
