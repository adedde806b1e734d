import A20OS.Proc.SwitchPath

/-!
Round-robin tasks of one priority.

When the running task is to stop, `rt_pick_best_locked` moves the head of the list to its end and
takes the task behind it; only then is the task that ran linked in again, at the end. In the order
of the one that runs and those that wait, a turn takes the first two to the end and exchanges them
(`turned`). With an even number of tasks every one of them gets to the front within as many turns
as there are tasks (`exists_head_turned`). With an odd number those at the odd positions never do.
-/

namespace A20OS.Proc

open Lib List Option

variable {i y : Nat} {r : Option Nat} {prio : Int} {ys : List Nat} {c x : Nat} {state : TaskState}

/-! ### Turns -/

section Turns

variable {α : Type}

/-- The task that runs and those that wait, in order, after a turn. -/
def turned : List α → List α
  | r :: x :: xs => xs ++ [x, r]
  | ring => ring

/-- The position of a task after a turn of `n` tasks. -/
def hop (n i : Nat) : Nat := if i < 2 then n - 1 - i else i - 2

theorem perm_turned (ring : List α) : (turned ring).Perm ring := by
  match ring with
  | [] => rfl
  | [_] => rfl
  | r :: x :: xs => exact perm_append_comm.trans (List.Perm.swap r x xs)

theorem perm_iterate_turned (k : Nat) (ring : List α) : (turned^[k] ring).Perm ring := by
  induction k with
  | zero => exact .refl _
  | succ k ih =>
    rw [Function.iterate_succ_apply']
    exact (perm_turned _).trans ih

theorem length_iterate_turned (k : Nat) (ring : List α) :
    (turned^[k] ring).length = ring.length := (perm_iterate_turned k ring).length_eq

theorem hop_lt {n : Nat} (below : i < n) : hop n i < n := by
  unfold hop
  split <;> omega

variable {ring : List α}

theorem getElem?_turned (two : 2 ≤ ring.length) (below : i < ring.length) :
    (turned ring)[hop ring.length i]? = ring[i]? := by
  match ring, i with
  | r :: x :: xs, 0 => simp [turned, hop]
  | r :: x :: xs, 1 => simp [turned, hop]
  | r :: x :: xs, i + 2 =>
    have inside : i < xs.length := by simpa using below
    simp [turned, hop, getElem?_append_left inside]

/-- Positions after several turns. -/
theorem getElem?_iterate_turned (two : 2 ≤ ring.length) (k : Nat) (below : i < ring.length) :
    (hop ring.length)^[k] i < ring.length ∧
      (turned^[k] ring)[(hop ring.length)^[k] i]? = ring[i]? := by
  induction k with
  | zero => exact ⟨below, rfl⟩
  | succ k ih =>
    obtain ⟨inside, same⟩ := ih
    have length := length_iterate_turned k ring
    rw [Function.iterate_succ_apply', Function.iterate_succ_apply']
    refine ⟨hop_lt inside, ?_⟩
    rw [← same, ← length]
    exact getElem?_turned (length ▸ two) (length ▸ inside)

theorem iterate_hop (n j q : Nat) : (hop n)^[j] (2 * j + q) = q := by
  induction j with
  | zero => simp
  | succ j ih =>
    rw [Function.iterate_succ_apply]
    have down : hop n (2 * (j + 1) + q) = 2 * j + q := by
      unfold hop
      rw [if_neg (by omega)]
      omega
    rw [down, ih]

/-- Among an even number of positions each one leads to the front in fewer turns. -/
theorem exists_iterate_hop {n : Nat} (even : n % 2 = 0) (below : i < n) :
    ∃ k < n, (hop n)^[k] i = 0 := by
  rcases Nat.mod_two_eq_zero_or_one i with zero | one
  · refine ⟨i / 2, by omega, ?_⟩
    have front := iterate_hop n (i / 2) 0
    rwa [show 2 * (i / 2) + 0 = i by omega] at front
  -- to position 1, to the last even position, and to the front
  refine ⟨(n / 2 - 1) + (1 + i / 2), by omega, ?_⟩
  have second := iterate_hop n (i / 2) 1
  have last : hop n 1 = 2 * (n / 2 - 1) + 0 := by
    unfold hop
    rw [if_pos (by omega)]
    omega
  rw [show 2 * (i / 2) + 1 = i by omega] at second
  rw [Function.iterate_add_apply, Function.iterate_add_apply, second, Function.iterate_one, last]
  exact iterate_hop n (n / 2 - 1) 0

/-- Every one of an even number of tasks comes to the front in fewer turns than there are
tasks. -/
theorem exists_head_turned (even : ring.length % 2 = 0) {t : α} (member : t ∈ ring) :
    ∃ k < ring.length, (turned^[k] ring).head? = some t := by
  obtain ⟨i, below, here⟩ := mem_iff_getElem.mp member
  obtain ⟨k, few, front⟩ := exists_iterate_hop even below
  have ⟨_, same⟩ := getElem?_iterate_turned (by omega) k below
  refine ⟨k, few, ?_⟩
  rw [head?_eq_getElem?, ← front, same, getElem?_eq_getElem below, here]

/-- Among an odd number of positions the odd ones lead to odd ones. -/
theorem odd_iterate_hop {n : Nat} (odd : n % 2 = 1) (k : Nat) (below : i < n) (here : i % 2 = 1) :
    (hop n)^[k] i % 2 = 1 := by
  induction k generalizing i with
  | zero => exact here
  | succ k ih =>
    refine ih (hop_lt below) ?_
    unfold hop
    split <;> omega

/-- The second of an odd number of tasks never comes to the front. -/
theorem exists_never_head (odd : ring.length % 2 = 1) (two : 2 ≤ ring.length) (once : ring.Nodup) :
    ∃ t ∈ ring, ∀ k, (turned^[k] ring).head? ≠ some t := by
  refine ⟨ring[1], getElem_mem two, fun k front => ?_⟩
  have ⟨_, same⟩ := getElem?_iterate_turned two k two
  have stays := odd_iterate_hop odd k two rfl
  have some_ : 0 < (turned^[k] ring).length := by rw [length_iterate_turned]; omega
  rw [head?_eq_getElem?, ← getElem?_eq_getElem two, ← same] at front
  rw [← (getElem?_inj some_ ((perm_iterate_turned k ring).nodup_iff.mpr once)).mp front] at stays
  cases stays

end Turns

namespace Sched

/-! ### The list of one priority -/

/-- The tasks queued on a processor at level 0 are those of one list. -/
def OnlyList (p : SchedParams) (s : Sched) (cpu slot : Nat) (xs : List Nat) : Prop :=
  ∃ rt, Linked p s (s.places p) rt ∧ rt cpu slot = xs ∧ ∀ l, l ≠ slot → rt cpu l = []

variable {p : SchedParams} {s s' : Sched} {cpu slot t : Nat} {xs : List Nat}

theorem OnlyList.nodup (only : OnlyList p s cpu slot xs) : xs.Nodup := by
  obtain ⟨rt, linked, rfl, -⟩ := only
  exact (linked.queues cpu slot).list.nodup

theorem OnlyList.mem_iff (only : OnlyList p s cpu slot xs) :
    t ∈ xs ↔ (s.tasks t).place p = some (.rt cpu slot) := by
  obtain ⟨rt, linked, rfl, -⟩ := only
  exact linked.rtMembers t cpu slot

/-- One list is replaced, and the others stay empty. -/
theorem onlyList_setList {rt : Nat → Nat → List Nat}
    (linked : Linked p s (s.places p) (setList rt cpu slot xs))
    (others : ∀ l, l ≠ slot → rt cpu l = []) : OnlyList p s cpu slot xs := by
  refine ⟨_, linked, setList_self, fun l other => ?_⟩
  rw [setList_of_ne fun same => other same.2]
  exact others l other

variable {f : SchedTask → SchedTask}

section
variable (only : OnlyList p s cpu slot xs)
include only

theorem OnlyList.ne_of_off (off : (s.tasks c).onRq = false) (member : t ∈ xs) : t ≠ c := by
  rintro rfl
  have on := (places_eq_rt (only.mem_iff.mp member)).1
  rw [off] at on
  cases on

/-- A task is written, and its place stays what it was. -/
theorem OnlyList.write
    (place : (f (s.tasks t)).place p = (s.tasks t).place p)
    (links : (s.tasks t).place p ≠ none →
      (f (s.tasks t)).rqPrev = (s.tasks t).rqPrev ∧ (f (s.tasks t)).rqNext = (s.tasks t).rqNext) :
    OnlyList p (s.modify t f) cpu slot xs := by
  obtain ⟨rt, linked, list, others⟩ := only
  have now : (s.modify t f).places p = s.places p := by
    funext u
    unfold places
    by_cases same : u = t
    · rw [same, modify_self, place]
    · rw [modify_of_ne s same]
  refine ⟨rt, ?_, list, others⟩
  rw [now]
  exact linked.modify links

theorem OnlyList.modifyOff (off : (s.tasks t).onRq = false)
    (stays : (f (s.tasks t)).onRq = false) : OnlyList p (s.modify t f) cpu slot xs :=
  only.write ((place_of_off stays).trans (place_of_off off).symm) fun queued =>
    absurd (place_of_off off) queued

theorem OnlyList.procPut (t : Nat) :
    OnlyList p (s.procPut t) cpu slot xs := only.write rfl fun _ => ⟨rfl, rfl⟩

omit only in
/-- The tasks after one was taken off. -/
theorem takeOff_tasks (p : SchedParams) (s : Sched) (cpu t : Nat) (level : Int) :
    ((s.takeOff p cpu t level).tasks t =
      { s.tasks t with rqNext := none, rqPrev := none, onRq := false }) ∧
    ∀ u, u ≠ t → ∃ next prev, (s.takeOff p cpu t level).tasks u =
      { s.tasks u with rqNext := next, rqPrev := prev } := by
  rw [takeOff_eq]
  constructor
  · obtain ⟨next, prev, self⟩ := s.retire_self p cpu t level
    rw [modify_self]
    change { (s.retire p cpu t level).tasks t with rqNext := none, rqPrev := none } = _
    rw [self]
  · intro u other
    rw [modify_of_ne _ other]
    exact s.retire_of_ne p cpu level other

theorem OnlyList.takeOff (member : t ∈ xs) :
    OnlyList p (s.takeOff p cpu t 0) cpu slot (xs.erase t) := by
  have place := only.mem_iff.mp member
  obtain ⟨-, -, -, own⟩ := places_eq_rt place
  obtain ⟨rt, linked, rfl, others⟩ := only
  obtain ⟨self, rest⟩ := s.takeOff_tasks p cpu t 0
  have now : (s.takeOff p cpu t 0).places p = Function.update (s.places p) t none := by
    refine places_eq_update (fun u other => .links (rest u other)) ?_
    rw [self, place_of_off rfl]
  refine onlyList_setList ?_ others
  rw [now]
  refine ((linked.rtUnlink place own).modify fun queued => ?_).lessRunning cpu
  exact absurd (Function.update_self ..) queued

omit only in
theorem places_putOn (level : Int) :
    ((s.putOn p cpu t level).moreRunning cpu).places p = Function.update (s.places p) t
      (some (placeAt p cpu (schedLevelClamp level) (s.tasks t).priority)) := by
  obtain ⟨next, prev, fair, self⟩ := s.putOn_self p cpu t level
  refine places_eq_update (fun u other => .links (s.putOn_of_ne p cpu level other)) ?_
  change ((s.putOn p cpu t level).tasks t).place p = _
  rw [self, place_of_onRq rfl]

/-- A task of the priority is queued. -/
theorem OnlyList.enter (off : (s.tasks t).onRq = false)
    (own : p.rtPrioSlot (s.tasks t).priority = slot) :
    OnlyList p ((s.putOn p cpu t 0).moreRunning cpu) cpu slot (xs ++ [t]) := by
  obtain ⟨rt, linked, rfl, others⟩ := only
  subst own
  refine onlyList_setList ?_ others
  rw [places_putOn]
  exact (linked.putOnRt (place_of_off off) rfl).moreRunning cpu

/-- A task that is not real-time is queued, here or elsewhere. -/
theorem OnlyList.enterFair (off : (s.tasks t).onRq = false) (c : Nat) :
    OnlyList p ((s.putOn p c t eevdfLevel).moreRunning c) cpu slot xs := by
  obtain ⟨rt, linked, list, others⟩ := only
  refine ⟨rt, ?_, list, others⟩
  rw [places_putOn]
  exact (linked.putOnFair (place_of_off off) c (by decide)).moreRunning c

end

/-- The pick of a processor that has only round-robin tasks of one priority: the head of the
list goes to the end, and the task behind it is taken, or the head if it is alone. -/
theorem OnlyList.pick (inv : Inv p s) (only : OnlyList p s cpu slot (x :: xs))
    (turns : s.rotated x xs = y :: ys) (may : s.runnable p cpu y) (locked : List Nat) :
    ∃ s', s.procRunqPickLocal p cpu locked = some (s', some y) ∧ Inv p s' ∧
      OnlyList p s' cpu slot ys ∧ s'.current = s.current ∧
      s'.tasks y = { s.tasks y with
        rqNext := none, rqPrev := none, onRq := false, dispatching := true,
        ownerCpu := some cpu } ∧
      ∀ u, u ≠ y → ∃ next prev, s'.tasks u = { s.tasks u with rqNext := next, rqPrev := prev } := by
  obtain ⟨rt, linked, list, others⟩ := only
  have own : ∀ u l, u ∈ rt cpu l → p.rtPrioSlot (s.tasks u).priority = l :=
    fun u l inside => (places_eq_rt ((linked.rtMembers u cpu l).mp inside)).2.2.2
  rcases linked.rtPickBest own with
    ⟨-, empty⟩ | ⟨l, x', xs', s₁, y', list', -, picked, head, same, linked₁⟩
  · rw [empty slot] at list
    cases list
  -- the only list that has a task
  obtain rfl : l = slot := by
    by_contra other
    rw [others l other] at list'
    cases list'
  rw [list] at list'
  cases list'
  rw [turns] at head linked₁
  cases head
  have inv₁ := inv.relinked linked₁ (fun u => .links (same.tasks u)) same.counts
  have now : s₁.places p = s.places p :=
    funext fun u => (SamePlace.links (same.tasks u)).place
  have only₁ : OnlyList p s₁ cpu l (y :: ys) := onlyList_setList (now ▸ linked₁) others
  obtain ⟨on, here, zero, -⟩ := places_eq_rt (only₁.mem_iff.mp (.head _))
  have levels : schedLevelClamp 0 = 0 ↔ _ := iff_of_true rfl zero
  obtain ⟨inv₂, off⟩ := inv₁.takeOff on here levels
  have only₂ := only₁.takeOff (.head _)
  rw [erase_cons_head] at only₂
  obtain ⟨next, prev, before⟩ := same.tasks y
  obtain ⟨self, rest⟩ := s₁.takeOff_tasks p cpu y 0
  have may₂ : (s₁.takeOff p cpu y 0).runnable p cpu y := by
    unfold runnable
    rw [self, before]
    exact may
  refine ⟨(s₁.takeOff p cpu y 0).dispatch cpu y, ?_, inv₂.dispatch off cpu,
    only₂.modifyOff off off, same.current, ?_, fun u other => ?_⟩
  · have chosen : s.candidate p cpu = (s₁, some (y, 0)) := by
      unfold Sched.candidate
      rw [picked]
    unfold Sched.procRunqPickLocal
    rw [Sched.pickLoop, chosen]
    dsimp only
    rw [if_pos may₂]
    rfl
  · rw [dispatch, modify_self, self, before]
  · rw [dispatch, modify_of_ne _ other]
    obtain ⟨next', prev', last⟩ := rest u other
    obtain ⟨next, prev, before⟩ := same.tasks u
    rw [last, before]
    exact ⟨next', prev', rfl⟩

/-! ### A turn -/

/-- A processor's turn: the current task stops in a state, another one is picked and switched
to, and the old one is queued again if it is ready. The answer is the picked task. -/
def turn (p : SchedParams) (s : Sched) (cpu : Nat) (state : TaskState) (locked : List Nat) :
    Option (Sched × Nat) := do
  let c ← s.current cpu
  let (s, next) ← (s.stop cpu c state).procRunqPickLocal p cpu locked
  let t ← next
  if s.publishable t ∧ ¬ s.keepsCpu p cpu c t then
    some ((s.publish cpu t).procSwitchComplete p cpu c, t)
  else none

/-- A ready round-robin task of the priority. -/
structure RrTask (prio : Int) (task : SchedTask) : Prop where
  policy : task.policy = .rr
  priority : task.priority = prio
  kstack : task.kstack = true
  free : task.cgThrottled = false
  refs : task.refs ≠ 0

theorem RrTask.linkwise {a b : SchedTask} (rr : RrTask prio b) (same : Linkwise a b) :
    RrTask prio a := by
  obtain ⟨next, prev, rfl⟩ := same
  exact { rr with }

/-- The processor runs the task `r` of the ring, or another task that is not real-time, and the
other tasks of the ring wait. -/
structure Ring (p : SchedParams) (cpu : Nat) (prio : Int) (s : Sched) (r : Option Nat)
    (xs : List Nat) : Prop where
  inside : cpu < p.nrCpus
  inv : Inv p s
  only : OnlyList p s cpu (p.rtPrioSlot prio) xs
  tasks : ∀ t ∈ r.toList ++ xs, t ≠ p.idle cpu ∧ RrTask prio (s.tasks t)
  waiting : ∀ t ∈ xs, (s.tasks t).state = .ready ∧ (s.tasks t).onCpu = false
  running : ∃ c, s.current cpu = some c ∧ (s.tasks c).onRq = false ∧
    (s.tasks c).dispatching = false ∧ (s.tasks c).onCpu = true ∧
    (r = some c ∨ r = none ∧ (s.tasks c).policy.rt = false)

/-- A task that is not real-time leaves the list alone when it is queued. -/
theorem OnlyList.enqueueFair (only : OnlyList p s cpu slot xs)
    (normal : (s.tasks t).policy.rt = false) (here : Nat) :
    OnlyList p (s.procRunqEnqueue p here t).1 cpu slot xs := by
  rcases s.procRunqEnqueue_cases p here t with same | ⟨-, off, -, queued⟩
  · rw [same]
    exact only
  have counted : OnlyList p (s.modify t fun task => { task with refs := task.refs + 1 })
      cpu slot xs := only.modifyOff off off
  have level : (s.tasks t).level = eevdfLevel := by
    rw [SchedTask.level, normal]
    rfl
  rw [queued, level]
  exact counted.enterFair (by rw [modify_self]; exact off) _

section
variable (only : OnlyList p s cpu (p.rtPrioSlot prio) xs) (inside : cpu < p.nrCpus)
  (rr : RrTask prio (s.tasks t)) (awake : t ≠ p.idle cpu) (ready : (s.tasks t).state = .ready)
  (off : (s.tasks t).onRq = false) (free : (s.tasks t).dispatching = false)
  (own : (s.tasks t).cpuId = cpu)
include only inside rr awake ready off free own

/-- A task of the priority that becomes ready goes to the end of the list. -/
theorem OnlyList.enqueueRt (left : (s.tasks t).onCpu = false) :
    OnlyList p (s.procRunqEnqueue p cpu t).1 cpu (p.rtPrioSlot prio) (xs ++ [t]) ∧
      ∃ next prev fair, (s.procRunqEnqueue p cpu t).1.tasks t =
        { s.tasks t with
          cpuId := cpu, schedLevel := 0, rqNext := next, rqPrev := prev, fair, onRq := true,
          refs := (s.tasks t).refs + 1 } := by
  have cpuOf : s.runqOf p cpu t = cpu := by
    unfold runqOf
    rw [own, if_pos inside]
  have level : (s.tasks t).level = 0 := by
    rw [SchedTask.level, rr.policy]
    rfl
  have counted : OnlyList p (s.modify t fun task => { task with refs := task.refs + 1 }) cpu
      (p.rtPrioSlot prio) xs := only.modifyOff off off
  rw [s.procRunqEnqueue_eq p awake ready off free left rr.refs, cpuOf, level]
  refine ⟨counted.enter (by rw [modify_self]; exact off) (by rw [modify_self, ← rr.priority]), ?_⟩
  obtain ⟨next, prev, fair, last⟩ := (s.modify t fun task =>
    { task with refs := task.refs + 1 }).putOn_self p cpu t 0
  exact ⟨next, prev, fair, by rw [moreRunning_tasks, last, modify_self]⟩

/-- A task of the ring that stopped goes to the end of the list. -/
theorem procSwitchComplete_ring (inv : Inv p s) :
    ∃ s', s.procSwitchComplete p cpu t = s' ∧ Inv p s' ∧
      OnlyList p s' cpu (p.rtPrioSlot prio) (xs ++ [t]) ∧ RrTask prio (s'.tasks t) ∧
      (s'.tasks t).state = .ready ∧ (s'.tasks t).onCpu = false := by
  let s₁ := s.modify t fun task => { task with onCpu := false, ownerCpu := none }
  have self : s₁.tasks t = { s.tasks t with onCpu := false, ownerCpu := none } := modify_self ..
  have inv₁ : Inv p s₁ := inv.modifyOff off off
  have only₁ : OnlyList p s₁ cpu (p.rtPrioSlot prio) xs := only.modifyOff off off
  have rr₁ : RrTask prio (s₁.tasks t) := by
    rw [self]
    exact { rr with }
  have complete : s.procSwitchComplete p cpu t = (s₁.procRunqEnqueue p cpu t).1.procPut t := by
    unfold Sched.procSwitchComplete
    dsimp only
    rw [if_pos]
    simp [ready, free, off]
  obtain ⟨only₂, next, prev, fair, last⟩ := only₁.enqueueRt inside rr₁ awake
    (by rw [self]; exact ready) (by rw [self]; exact off) (by rw [self]; exact free)
    (by rw [self]; exact own) (by rw [self])
  refine ⟨_, complete, (inv₁.procRunqEnqueue inside t).procPut t, only₂.procPut t, ?_⟩
  rw [procPut, modify_self, last, self]
  exact ⟨{ rr with }, ready, rfl⟩

end

/-- A task that is not real-time stops, in any state. -/
theorem procSwitchComplete_other (inv : Inv p s) (inside : cpu < p.nrCpus)
    (only : OnlyList p s cpu slot xs) (normal : (s.tasks t).policy.rt = false)
    (off : (s.tasks t).onRq = false) :
    Inv p (s.procSwitchComplete p cpu t) ∧
      OnlyList p (s.procSwitchComplete p cpu t) cpu slot xs := by
  have inv₁ : Inv p (s.modify t fun task => { task with onCpu := false, ownerCpu := none }) :=
    inv.modifyOff off off
  have only₁ : OnlyList p (s.modify t fun task => { task with onCpu := false, ownerCpu := none })
      cpu slot xs := only.modifyOff off off
  unfold Sched.procSwitchComplete
  dsimp only
  split
  · refine ⟨(inv₁.procRunqEnqueue inside t).procPut t, (only₁.enqueueFair ?_ cpu).procPut t⟩
    rw [modify_self]
    exact normal
  · exact ⟨inv₁.procPut t, only₁.procPut t⟩

/-- A task of a fair queue leaves the list alone when it is removed. -/
theorem OnlyList.removeFair (only : OnlyList p s cpu slot xs)
    (fair : schedLevelClamp (s.tasks t).schedLevel ≠ 0) {here : Nat} (inv : Inv p s) :
    OnlyList p (s.procRunqRemove p here t) cpu slot xs := by
  unfold procRunqRemove
  split
  · next on =>
    have own : s.runqOf p here t = (s.tasks t).cpuId := if_pos (inv.cpus t on)
    have place : s.places p t = some (.fair (s.tasks t).cpuId) := by
      rw [places, place_of_onRq on, placeAt, if_neg fair]
    have out : s.retire p (s.tasks t).cpuId t (s.tasks t).schedLevel =
        (s.eevdfRemove (s.tasks t).cpuId t).modify t fun task => { task with onRq := false } := by
      rw [retire, dequeue, if_neg fair]
    obtain ⟨rt, linked, list, others⟩ := only
    rw [own]
    refine OnlyList.procPut ⟨rt, ?_, list, others⟩ t
    obtain ⟨next, prev, self⟩ := s.retire_self p (s.tasks t).cpuId t (s.tasks t).schedLevel
    have now : ((s.retire p (s.tasks t).cpuId t (s.tasks t).schedLevel).lessRunning
        (s.tasks t).cpuId).places p = Function.update (s.places p) t none := by
      refine places_eq_update (fun u other => .links (s.retire_of_ne p _ _ other)) ?_
      change ((s.retire p (s.tasks t).cpuId t (s.tasks t).schedLevel).tasks t).place p = none
      rw [self, place_of_off rfl]
    rw [now, out]
    exact ((linked.eevdfRemove place).modify fun _ => ⟨rfl, rfl⟩).lessRunning _
  · exact only

/-- The next task is published, and stays off the queues. -/
theorem publish_kept (inv : Inv p s) (only : OnlyList p s cpu slot xs)
    (off : (s.tasks t).onRq = false) :
    Inv p (s.publish cpu t) ∧ OnlyList p (s.publish cpu t) cpu slot xs := by
  have inv₁ : Inv p { s with current := Function.update s.current cpu (some t) } :=
    inv.outside rfl fun c => ⟨rfl, rfl, rfl, rfl, rfl, rfl, rfl⟩
  obtain ⟨rt, linked, list, others⟩ := only
  have only₁ :
      OnlyList p { s with current := Function.update s.current cpu (some t) } cpu slot xs :=
    ⟨rt, linked.frame (fun _ _ => ⟨rfl, rfl⟩) fun c => ⟨rfl, rfl, rfl, rfl, rfl, rfl⟩, list, others⟩
  exact ⟨inv₁.modifyOff off rfl, only₁.modifyOff off rfl⟩

theorem perm_rotated (s : Sched) (x : Nat) (xs : List Nat) : (s.rotated x xs).Perm (x :: xs) := by
  unfold rotated
  split
  · exact perm_append_comm
  · exact .refl _

/-- Neither a task of the ring nor one that is not real-time outranks a task of the ring. -/
theorem not_keepsCpu (rr : RrTask prio (s.tasks y))
    (stops : RrTask prio (s.tasks c) ∨ (s.tasks c).policy.rt = false) : ¬ s.keepsCpu p cpu c y := by
  rintro ⟨-, -, -, -, -, outranks⟩
  rw [rr.policy, rr.priority] at outranks
  rcases stops with other | normal
  · rw [other.policy, other.priority] at outranks
    simp [SchedPolicy.rt] at outranks
  · rw [normal, if_pos (by decide)] at outranks
    cases outranks

/-- The first part of a turn: the next task runs, and the old one `c` is about to be queued. -/
theorem Ring.switch (ring : Ring p cpu prio s r (x :: xs)) (turns : s.rotated x xs = y :: ys)
    (current : s.current cpu = some c) (off : (s.tasks c).onRq = false)
    (role : r = some c ∨ r = none ∧ (s.tasks c).policy.rt = false) (state : TaskState)
    (locked : List Nat) :
    ∃ s₂, s.turn p cpu state locked = some (s₂.procSwitchComplete p cpu c, y) ∧ c ≠ y ∧
      Inv p s₂ ∧ OnlyList p s₂ cpu (p.rtPrioSlot prio) ys ∧ s₂.current cpu = some y ∧
      (RrTask prio (s₂.tasks y) ∧ (s₂.tasks y).onRq = false ∧ (s₂.tasks y).dispatching = false ∧
        (s₂.tasks y).onCpu = true) ∧
      Linkwise (s₂.tasks c) { s.tasks c with state, cpuId := cpu } ∧
      ∀ u, u ≠ y → u ≠ c → Linkwise (s₂.tasks u) (s.tasks u) := by
  have chosen : y ∈ x :: xs := (s.perm_rotated x xs).mem_iff.mp (turns ▸ .head _)
  have queued : ∀ t ∈ x :: xs, t ≠ c := fun t => ring.only.ne_of_off off
  have apart := queued y chosen
  obtain ⟨awake, rr⟩ := ring.tasks y (mem_append_right _ chosen)
  -- the current task stops
  have self : (s.stop cpu c state).tasks c = { s.tasks c with state, cpuId := cpu } :=
    modify_self ..
  have rest : ∀ u, u ≠ c → (s.stop cpu c state).tasks u = s.tasks u := fun u other =>
    modify_of_ne s other _
  have inv₀ : Inv p (s.stop cpu c state) := ring.inv.modifyOff off off
  have only₀ : OnlyList p (s.stop cpu c state) cpu (p.rtPrioSlot prio) (x :: xs) :=
    ring.only.modifyOff off off
  have turns₀ : (s.stop cpu c state).rotated x xs = y :: ys := by
    rw [← turns, rotated, rotated, rest x (queued x (.head _))]
  have may : (s.stop cpu c state).runnable p cpu y := by
    unfold runnable
    rw [rest y apart]
    exact ⟨awake, (ring.waiting y chosen).1, rr.kstack, by simp [rr.free]⟩
  -- the next one is picked
  obtain ⟨s₁, picked, inv₁, only₁, -, taken, others⟩ := only₀.pick inv₀ turns₀ may locked
  rw [rest y apart] at taken
  have rr₁ : RrTask prio (s₁.tasks y) := by
    rw [taken]
    exact { rr with }
  have stopped : Linkwise (s₁.tasks c) { s.tasks c with state, cpuId := cpu } := by
    rw [← self]
    exact others c apart.symm
  have stops : RrTask prio (s₁.tasks c) ∨ (s₁.tasks c).policy.rt = false := by
    obtain ⟨next, prev, same⟩ := stopped
    rw [same]
    rcases role with rfl | ⟨-, normal⟩
    · obtain ⟨-, rr⟩ := ring.tasks c (mem_append_left _ (.head _))
      exact .inl { rr with }
    · exact .inr normal
  have goes : s₁.publishable y ∧ ¬ s₁.keepsCpu p cpu c y := by
    refine ⟨?_, not_keepsCpu rr₁ stops⟩
    unfold publishable
    rw [taken]
    exact ⟨(ring.waiting y chosen).1, rr.kstack, by simp [(ring.waiting y chosen).2]⟩
  -- and published
  obtain ⟨inv₂, only₂⟩ := publish_kept inv₁ only₁ (by rw [taken])
  have runs : (s₁.publish cpu y).tasks y = { s₁.tasks y with
      state := .running, onRq := false, dispatching := false, onCpu := true, ownerCpu := some cpu,
      refs := if (s₁.tasks y).dispatching then (s₁.tasks y).refs + 1 - 1
        else (s₁.tasks y).refs + 1 } := modify_self ..
  have still : ∀ u, u ≠ y → (s₁.publish cpu y).tasks u = s₁.tasks u := fun u other =>
    modify_of_ne _ other _
  refine ⟨s₁.publish cpu y, ?_, Ne.symm apart, inv₂, only₂, Function.update_self .., ?_, ?_,
    fun u other away => ?_⟩
  · unfold Sched.turn
    simp only [current, bind_eq_bind, bind_some, picked, if_pos goes]
  · rw [runs, taken]
    exact ⟨{ rr with }, rfl, rfl, rfl⟩
  · rw [still c apart.symm]
    exact stopped
  · rw [still u other, ← rest u away]
    exact others u other

/-- A turn of the ring: the head of the list goes to the end, the next one runs, and the one
that ran goes behind it. -/
theorem Ring.turn (ring : Ring p cpu prio s r (x :: xs)) (turns : s.rotated x xs = y :: ys)
    (stays : r ≠ none → state = .ready) (locked : List Nat) :
    ∃ s', s.turn p cpu state locked = some (s', y) ∧
      Ring p cpu prio s' (some y) (ys ++ r.toList) := by
  obtain ⟨c, current, off, free, -, role⟩ := ring.running
  obtain ⟨s₂, turned, apart, inv₂, only₂, now, ⟨rr, yOff, yFree, yOn⟩, ⟨next, prev, stopped⟩,
    others⟩ :=
    ring.switch turns current off role state locked
  have nodup : (y :: ys).Nodup := turns ▸ (s.perm_rotated x xs).nodup_iff.mpr ring.only.nodup
  have members : ∀ u ∈ y :: ys, u ∈ x :: xs := fun u inside =>
    (s.perm_rotated x xs).mem_iff.mp (turns ▸ inside)
  let s₃ := s₂.procSwitchComplete p cpu c
  have first : Linkwise (s₃.tasks y) (s₂.tasks y) := procSwitchComplete_of_ne p s₂ cpu apart.symm
  -- the tasks that go on waiting
  have waits : ∀ u ∈ ys, (u ≠ p.idle cpu ∧ RrTask prio (s₃.tasks u)) ∧
      (s₃.tasks u).state = .ready ∧ (s₃.tasks u).onCpu = false := by
    intro u inside
    have old := members u (.tail _ inside)
    have other := ring.only.ne_of_off off old
    have apart : u ≠ y := by
      rintro rfl
      exact (nodup_cons.mp nodup).1 inside
    have same : Linkwise (s₃.tasks u) (s.tasks u) :=
      (procSwitchComplete_of_ne p s₂ cpu other).trans (others u apart other)
    obtain ⟨awake, was⟩ := ring.tasks u (mem_append_right _ old)
    refine ⟨⟨awake, was.linkwise same⟩, ?_⟩
    obtain ⟨next, prev, same⟩ := same
    rw [same]
    exact ring.waiting u old
  -- a task of the ring goes to the end
  obtain ⟨inv₃, only₃, last⟩ : Inv p s₃ ∧ OnlyList p s₃ cpu (p.rtPrioSlot prio) (ys ++ r.toList) ∧
      ∀ u ∈ r.toList, (u ≠ p.idle cpu ∧ RrTask prio (s₃.tasks u)) ∧
        (s₃.tasks u).state = .ready ∧ (s₃.tasks u).onCpu = false := by
    rcases role with rfl | ⟨rfl, normal⟩
    · obtain ⟨awake, was⟩ := ring.tasks c (mem_append_left _ (.head _))
      have ready := stays (some_ne_none c)
      have rrC : RrTask prio (s₂.tasks c) := by
        rw [stopped]
        exact { was with }
      obtain ⟨_, rfl, inv₃, only₃, rr₃, left₃⟩ := procSwitchComplete_ring only₂ ring.inside
        rrC awake (by rw [stopped]; exact ready) (by rw [stopped]; exact off)
        (by rw [stopped]; exact free) (by rw [stopped]) inv₂
      exact ⟨inv₃, only₃, forall_mem_singleton.mpr ⟨⟨awake, rr₃⟩, left₃⟩⟩
    · obtain ⟨inv₃, only₃⟩ := procSwitchComplete_other inv₂ ring.inside only₂
        (by rw [stopped]; exact normal) (by rw [stopped]; exact off)
      rw [toList_none, append_nil]
      exact ⟨inv₃, only₃, nofun⟩
  have rest := forall_mem_append.mpr ⟨waits, last⟩
  refine ⟨s₃, turned, ring.inside, inv₃, only₃, forall_mem_cons.mpr ⟨⟨?_, rr.linkwise first⟩,
    fun u inside => (rest u inside).1⟩, fun u inside => (rest u inside).2, y, ?_⟩
  · exact (ring.tasks y (mem_append_right _ (members y (.head _)))).1
  · obtain ⟨next, prev, first⟩ := first
    rw [first]
    exact ⟨(congrFun (procSwitchComplete_current ..) cpu).trans now, yOff, yFree, yOn, .inl rfl⟩

section
variable (ring : Ring p cpu prio s r xs)
include ring

/-- Another task is queued or removed. -/
theorem Ring.other (normal : (s.tasks t).policy.rt = false) (inv : Inv p s')
    (only : OnlyList p s' cpu (p.rtPrioSlot prio) xs) (current : s'.current = s.current)
    (others : ∀ u, u ≠ t → Linkwise (s'.tasks u) (s.tasks u))
    (running : s.current cpu = some t → s'.tasks t = s.tasks t) : Ring p cpu prio s' r xs := by
  have apart : ∀ u ∈ r.toList ++ xs, u ≠ t := by
    rintro u inside rfl
    rw [(ring.tasks u inside).2.policy] at normal
    cases normal
  refine ⟨ring.inside, inv, only, fun u inside => ?_, fun u inside => ?_, ?_⟩
  · obtain ⟨awake, rr⟩ := ring.tasks u inside
    exact ⟨awake, rr.linkwise (others u (apart u inside))⟩
  · obtain ⟨next, prev, same⟩ := others u (apart u (mem_append_right _ inside))
    rw [same]
    exact ring.waiting u inside
  · obtain ⟨c, now, off, free, on, role⟩ := ring.running
    refine ⟨c, current ▸ now, ?_⟩
    by_cases here : c = t
    · subst here
      rw [running now]
      exact ⟨off, free, on, role⟩
    · obtain ⟨next, prev, same⟩ := others c here
      rw [same]
      exact ⟨off, free, on, role⟩

theorem Ring.nodup : (r.toList ++ xs).Nodup := by
  obtain ⟨c, -, off, -, -, rfl | ⟨rfl, -⟩⟩ := ring.running
  · exact nodup_cons.mpr ⟨fun member => ring.only.ne_of_off off member rfl, ring.only.nodup⟩
  · exact ring.only.nodup

omit ring in
/-- Nobody waits at first. -/
theorem ring_boot (boot : Boot s) (inside : cpu < p.nrCpus) (current : s.current cpu = some c)
    (awake : c ≠ p.idle cpu) (rr : RrTask prio (s.tasks c)) (free : (s.tasks c).dispatching = false)
    (on : (s.tasks c).onCpu = true) : Ring p cpu prio s (some c) [] := by
  obtain ⟨rt, linked⟩ := (boot.inv (p := p)).linked
  have empty : ∀ l, rt cpu l = [] := by
    intro l
    refine eq_nil_iff_forall_not_mem.mpr fun t member => ?_
    have queued := (places_eq_rt ((linked.rtMembers t cpu l).mp member)).1
    rw [boot.off] at queued
    cases queued
  exact ⟨inside, boot.inv, ⟨rt, linked, empty _, fun l _ => empty l⟩,
    forall_mem_singleton.mpr ⟨awake, rr⟩, nofun, c, current, boot.off c, free, on, .inl rfl⟩

/-- A further task of the priority becomes ready. -/
theorem Ring.join (rr : RrTask prio (s.tasks t)) (awake : t ≠ p.idle cpu)
    (ready : (s.tasks t).state = .ready) (off : (s.tasks t).onRq = false)
    (free : (s.tasks t).dispatching = false) (left : (s.tasks t).onCpu = false)
    (own : (s.tasks t).cpuId = cpu) :
    Ring p cpu prio (s.procRunqEnqueue p cpu t).1 r (xs ++ [t]) := by
  obtain ⟨only, next, prev, fair, self⟩ :=
    ring.only.enqueueRt ring.inside rr awake ready off free own left
  have others : ∀ u, u ≠ t → Linkwise ((s.procRunqEnqueue p cpu t).1.tasks u) (s.tasks u) :=
    fun u other => procRunqEnqueue_of_ne p s cpu other
  have rr' : RrTask prio ((s.procRunqEnqueue p cpu t).1.tasks t) := by
    rw [self]
    exact { rr with refs := Nat.succ_ne_zero _ }
  refine ⟨ring.inside, ring.inv.procRunqEnqueue ring.inside t, only, fun u inside => ?_,
    fun u inside => ?_, ?_⟩
  · by_cases same : u = t
    · rw [same]
      exact ⟨awake, rr'⟩
    · have old : u ∈ r.toList ++ xs := by
        rw [← append_assoc] at inside
        exact (mem_append.mp inside).resolve_right fun h => same (mem_singleton.mp h)
      obtain ⟨awake, was⟩ := ring.tasks u old
      exact ⟨awake, was.linkwise (others u same)⟩
  · by_cases same : u = t
    · rw [same, self]
      exact ⟨ready, left⟩
    · have old := (mem_append.mp inside).resolve_right fun h => same (mem_singleton.mp h)
      obtain ⟨next, prev, kept⟩ := others u same
      rw [kept]
      exact ring.waiting u old
  · obtain ⟨c, now, cOff, cFree, on, role⟩ := ring.running
    have other : c ≠ t := by
      rintro rfl
      rw [left] at on
      cases on
    obtain ⟨next, prev, kept⟩ := others c other
    refine ⟨c, by rw [procRunqEnqueue_current]; exact now, ?_⟩
    rw [kept]
    exact ⟨cOff, cFree, on, role⟩

theorem Ring.enqueue {here : Nat}
    (inside : here < p.nrCpus) (normal : (s.tasks t).policy.rt = false) :
    Ring p cpu prio (s.procRunqEnqueue p here t).1 r xs := by
  refine ring.other normal (ring.inv.procRunqEnqueue inside t) (ring.only.enqueueFair normal here)
    (procRunqEnqueue_current ..) (fun u other => procRunqEnqueue_of_ne p s here other) fun now => ?_
  -- the current task is on its processor and is not queued
  obtain ⟨c, current, -, -, on, -⟩ := ring.running
  obtain rfl : c = t := some.inj (current.symm.trans now)
  unfold procRunqEnqueue
  dsimp only
  split
  · rfl
  · rw [if_pos (.inr (.inr on))]

theorem Ring.remove (here : Nat)
    (normal : (s.tasks t).policy.rt = false) (fair : schedLevelClamp (s.tasks t).schedLevel ≠ 0) :
    Ring p cpu prio (s.procRunqRemove p here t) r xs := by
  refine ring.other normal (ring.inv.procRunqRemove here t) (ring.only.removeFair fair ring.inv)
    (procRunqRemove_current ..) (fun u other => procRunqRemove_tasks p s here other) fun now => ?_
  obtain ⟨c, current, off, -⟩ := ring.running
  obtain rfl : c = t := some.inj (current.symm.trans now)
  unfold procRunqRemove
  rw [off]
  rfl

end

end Sched

/-! ### Runs -/

/-- The scheduler, and the tasks that the processor picked, in order. -/
structure RrSys where
  sched : Sched
  picks : List Nat := []

inductive RrLabel where
  /-- The current task stops in a state, and another one is picked. -/
  | turn (state : TaskState) (locked : List Nat)
  /-- A task that is not real-time is queued or removed. -/
  | enqueue (here t : Nat)
  | remove (here t : Nat)

namespace RrSys

def step (p : SchedParams) (cpu : Nat) (s : RrSys) : RrLabel → Option RrSys
  | .turn state locked =>
      -- a real-time task that stops is ready, so that it is queued again
      if (s.sched.current cpu).any (fun c => (s.sched.tasks c).policy.rt) ∧ state ≠ .ready then none
      else (s.sched.turn p cpu state locked).map fun picked =>
        { sched := picked.1, picks := s.picks ++ [picked.2] }
  | .enqueue here t =>
      if here < p.nrCpus ∧ (s.sched.tasks t).policy.rt = false then
        some { s with sched := (s.sched.procRunqEnqueue p here t).1 }
      else none
  | .remove here t =>
      if (s.sched.tasks t).policy.rt = false ∧
          schedLevelClamp (s.sched.tasks t).schedLevel ≠ 0 then
        some { s with sched := s.sched.procRunqRemove p here t }
      else none

/-- The ring after the next pick. -/
def upcoming (r : Option Nat) : List Nat → List Nat
  | x :: xs => xs ++ [x] ++ r.toList
  | [] => r.toList

theorem perm_upcoming (r : Option Nat) (xs : List Nat) : (upcoming r xs).Perm (r.toList ++ xs) := by
  cases xs with
  | nil => simp [upcoming]
  | cons x xs => exact perm_append_comm.trans (perm_append_comm.append_left _)

/-- The picks so far are the heads of successive turns of the first ring. -/
structure Follows (p : SchedParams) (cpu : Nat) (prio : Int) (first : List Nat) (s : RrSys) :
    Prop where
  ring : ∃ r xs, Sched.Ring p cpu prio s.sched r xs ∧
    upcoming r xs = turned^[s.picks.length] first
  picks : ∀ i < s.picks.length, s.picks[i]? = (turned^[i] first).head?

variable {p : SchedParams} {cpu : Nat} {first : List Nat} {s s' : RrSys}

theorem Follows.turn (follows : Follows p cpu prio first s) (two : 2 ≤ first.length)
    {locked : List Nat} (taken : s.step p cpu (.turn state locked) = some s') :
    Follows p cpu prio first s' := by
  obtain ⟨r, xs, ring, next⟩ := follows.ring
  have length : (upcoming r xs).length = first.length := by rw [next, length_iterate_turned]
  -- somebody waits
  obtain ⟨x, rest, rfl⟩ : ∃ x rest, xs = x :: rest := by
    cases xs with
    | nil =>
      have : r.toList.length ≤ 1 := by cases r <;> simp
      rw [upcoming] at length
      omega
    | cons x rest => exact ⟨x, rest, rfl⟩
  have rr := (ring.tasks x (mem_append_right _ (.head _))).2
  have rotated : s.sched.rotated x rest = rest ++ [x] := by
    unfold Sched.rotated
    split
    · rfl
    · next alone =>
      rw [not_and_not_right] at alone
      rw [alone rr.policy]
      rfl
  obtain ⟨y, ys, turns⟩ : ∃ y ys, rest ++ [x] = y :: ys := by
    cases rest with
    | nil => exact ⟨x, [], rfl⟩
    | cons y ys => exact ⟨y, ys ++ [x], rfl⟩
  rw [step] at taken
  split at taken
  · cases taken
  · next stops =>
    have stays : r ≠ none → state = .ready := by
      intro some_
      by_contra other
      obtain ⟨c, current, -, -, -, role⟩ := ring.running
      obtain rfl := role.resolve_right fun h => some_ h.1
      refine stops ⟨?_, other⟩
      rw [current, any_some, (ring.tasks c (mem_append_left _ (.head _))).2.policy]
      rfl
    obtain ⟨sched, turned_, ring'⟩ := ring.turn (rotated.trans turns) stays locked
    rw [turned_] at taken
    cases taken
    have now : y :: (ys ++ r.toList) = turned^[s.picks.length] first := by
      rw [← next, upcoming, turns, cons_append]
    refine ⟨⟨some y, ys ++ r.toList, ring', ?_⟩, fun i below => ?_⟩
    · rw [length_append, length_singleton, Function.iterate_succ_apply', ← now]
      have more : 2 ≤ (y :: (ys ++ r.toList)).length := by
        rw [now, length_iterate_turned]
        exact two
      cases list : ys ++ r.toList with
      | nil =>
        rw [list] at more
        simp at more
      | cons z zs => simp [upcoming, turned]
    · rw [length_append, length_singleton] at below
      rcases Nat.lt_succ_iff_lt_or_eq.mp below with below | rfl
      · rw [getElem?_append_left below]
        exact follows.picks i below
      · rw [← now, getElem?_concat_length]
        rfl

theorem Follows.step (follows : Follows p cpu prio first s) (two : 2 ≤ first.length)
    {label : RrLabel} (taken : s.step p cpu label = some s') : Follows p cpu prio first s' := by
  cases label with
  | turn state locked => exact follows.turn two taken
  | enqueue here t =>
    obtain ⟨⟨inside, normal⟩, ⟨⟩⟩ := ite_none_right_eq_some.mp taken
    obtain ⟨r, xs, ring, next⟩ := follows.ring
    exact ⟨⟨r, xs, ring.enqueue inside normal, next⟩, follows.picks⟩
  | remove here t =>
    obtain ⟨⟨normal, fair⟩, ⟨⟩⟩ := ite_none_right_eq_some.mp taken
    obtain ⟨r, xs, ring, next⟩ := follows.ring
    exact ⟨⟨r, xs, ring.remove here normal fair, next⟩, follows.picks⟩

/-- **Round-robin progress.** When an even number of round-robin tasks of one priority are ready
on a processor, and there is no other real-time task, every one of them is picked at least once
in as many consecutive picks. Of an odd number one is never picked. -/
theorem run_round_robin {sched : Sched} {r : Option Nat} {xs : List Nat}
    (ring : Sched.Ring p cpu prio sched r xs) (two : 2 ≤ (r.toList ++ xs).length)
    (run : RunsTo (step p cpu) always { sched } s) :
    ((r.toList ++ xs).length % 2 = 0 → ∀ before window after,
      s.picks = before ++ window ++ after → window.length = (r.toList ++ xs).length →
      ∀ t ∈ r.toList ++ xs, t ∈ window) ∧
    ((r.toList ++ xs).length % 2 = 1 → ∃ t ∈ r.toList ++ xs, t ∉ s.picks) := by
  have perm := perm_upcoming r xs
  rw [← perm.length_eq] at two
  have start : Follows p cpu prio (upcoming r xs) { sched } :=
    ⟨⟨r, xs, ring, rfl⟩, nofun⟩
  have follows := run.invariant (fun follows _ taken => Follows.step follows two taken) start
  refine ⟨fun even before window after split length t member => ?_, fun odd => ?_⟩
  rotate_left
  · rw [← perm.length_eq] at odd
    obtain ⟨t, member, never⟩ := exists_never_head odd two (perm.nodup_iff.mpr ring.nodup)
    refine ⟨t, perm.mem_iff.mp member, fun picked => ?_⟩
    obtain ⟨i, below, here⟩ := mem_iff_getElem.mp picked
    refine never i ?_
    rw [← follows.picks i below, getElem?_eq_getElem below, here]
  -- the window starts with some turn of the ring
  have here : t ∈ turned^[before.length] (upcoming r xs) :=
    (perm_iterate_turned _ _).mem_iff.mpr (perm.mem_iff.mpr member)
  obtain ⟨k, few, head⟩ := exists_head_turned
    (by rw [length_iterate_turned, perm.length_eq]; exact even) here
  rw [length_iterate_turned, perm.length_eq, ← length] at few
  have pick := follows.picks (before.length + k) (by
    rw [split, length_append, length_append]
    omega)
  rw [Nat.add_comm, Function.iterate_add_apply, head, split, append_assoc,
    Nat.add_comm, getElem?_append_right (Nat.le_add_right _ _), Nat.add_sub_cancel_left,
    getElem?_append_left few] at pick
  exact mem_of_getElem? pick

/-- Round-robin tasks of priority 10, of which task 5 runs on processor 0. -/
def oneRuns : Sched :=
  { tasks := fun t =>
      if t = 5 then
        { policy := .rr, priority := 10, state := .running, onCpu := true, ownerCpu := some 0 }
      else { policy := .rr, priority := 10 }
    current := fun _ => some 5 }

/-- The given tasks become ready. -/
def readied (ts : List Nat) : Sched :=
  ts.foldl (fun s t => (s.procRunqEnqueue Sched.twoCpus 0 t).1) oneRuns

theorem ring_oneRuns : Sched.Ring Sched.twoCpus 0 10 oneRuns (some 5) [] := by
  refine Sched.ring_boot ⟨fun t => ?_, rfl⟩ (by decide) rfl (by decide)
    ⟨rfl, rfl, rfl, rfl, by decide⟩ rfl rfl
  unfold oneRuns
  dsimp only
  split <;> rfl

theorem ring_two_wait : Sched.Ring Sched.twoCpus 0 10 (readied [6, 7]) (some 5) [6, 7] :=
  have six := ring_oneRuns.join (t := 6) ⟨rfl, rfl, rfl, rfl, by decide⟩
    (by decide) rfl rfl rfl rfl rfl
  six.join (t := 7) ⟨rfl, rfl, rfl, rfl, by decide⟩ (by decide) rfl rfl rfl rfl rfl

theorem ring_three_wait : Sched.Ring Sched.twoCpus 0 10 (readied [6, 7, 8]) (some 5) [6, 7, 8] :=
  ring_two_wait.join (t := 8) ⟨rfl, rfl, rfl, rfl, by decide⟩ (by decide) rfl rfl rfl rfl rfl

/-- Four tasks take their turns. -/
theorem run_round_robin_four : ∃ s,
    exec (step Sched.twoCpus 0) { sched := readied [6, 7, 8] }
      [.turn .ready [], .turn .ready [], .turn .ready [], .turn .ready []] = some s ∧
      s.picks = [7, 6, 8, 5] ∧ 6 ∈ s.picks := by
  have ran : (exec (step Sched.twoCpus 0) { sched := readied [6, 7, 8] }
      [.turn .ready [], .turn .ready [], .turn .ready [], .turn .ready []]).map RrSys.picks =
      some [7, 6, 8, 5] := by decide +kernel
  obtain ⟨s, reached, picks⟩ := map_eq_some_iff.mp ran
  have window : s.picks = [] ++ s.picks ++ [] := by simp
  refine ⟨s, reached, picks, ?_⟩
  exact (run_round_robin ring_three_wait (by decide) (exec_runsTo reached)).1 rfl [] s.picks []
    window (by rw [picks]; rfl) 6 (by decide)

/-- With three tasks, two of them alternate, and the third one is ready and never picked. -/
theorem run_round_robin_odd :
    Sched.Ring Sched.twoCpus 0 10 (readied [6, 7]) (some 5) [6, 7] ∧
    ∃ s, exec (step Sched.twoCpus 0) { sched := readied [6, 7] }
      [.turn .ready [], .turn .ready [], .turn .ready []] = some s ∧ s.picks = [7, 5, 7] ∧
      (s.sched.tasks 6).state = .ready ∧ (s.sched.tasks 6).onRq = true := by
  refine ⟨ring_two_wait, eq_some_of_any ?_⟩
  decide +kernel

end RrSys

end A20OS.Proc
