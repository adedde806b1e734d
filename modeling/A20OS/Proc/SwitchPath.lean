import A20OS.Proc.RunqMembership

/-!
Switching from one task to the next (`kernel/proc/sched.c`, `kernel/proc/current.c`).

The task that is to stop keeps its processor while the next one is picked. It gives it up, and
is queued again if it is ready, only when the next one runs (`proc_switch_complete`).
-/

namespace A20OS.Proc.Sched

/-- `sched_task_strictly_preempts` -/
def strictlyPreempts (s : Sched) (candidate running : Nat) : Prop :=
  candidate ≠ running ∧
    if (s.tasks candidate).policy.rt ≠ (s.tasks running).policy.rt then
      (s.tasks candidate).policy.rt = true
    else if (s.tasks candidate).policy.rt then
      (s.tasks candidate).priority > (s.tasks running).priority
    else (s.tasks candidate).fair.deadline < (s.tasks running).fair.deadline

instance (s : Sched) (candidate running : Nat) :
    Decidable (s.strictlyPreempts candidate running) := by
  unfold strictlyPreempts
  infer_instance

/-- The picked task can still be switched to. -/
def publishable (s : Sched) (next : Nat) : Prop :=
  (s.tasks next).state = .ready ∧ (s.tasks next).kstack ∧ ¬ (s.tasks next).onCpu

instance (s : Sched) (next : Nat) : Decidable (s.publishable next) :=
  inferInstanceAs (Decidable (_ ∧ _))

/-- A ready task that outranks the picked one keeps its processor. -/
def keepsCpu (p : SchedParams) (s : Sched) (cpu current next : Nat) : Prop :=
  current ≠ p.idle cpu ∧ (s.tasks current).state = .ready ∧ (s.tasks current).onCpu ∧
    (s.tasks current).ownerCpu = some cpu ∧ s.strictlyPreempts current next

instance (p : SchedParams) (s : Sched) (cpu current next : Nat) :
    Decidable (s.keepsCpu p cpu current next) :=
  inferInstanceAs (Decidable (_ ∧ _))

/-- The second window of `context_switch_locked`: the next task is published as running. The
current slot takes a reference, and the one for the dispatch is dropped. -/
def publish (s : Sched) (cpu next : Nat) : Sched :=
  { s with current := Function.update s.current cpu (some next) }.modify next fun task =>
    { task with
      state := .running
      onRq := false
      dispatching := false
      onCpu := true
      ownerCpu := some cpu
      refs := if task.dispatching then task.refs + 1 - 1 else task.refs + 1 }

/-- `proc_switch_complete_locked`, for the outgoing task. -/
def procSwitchComplete (p : SchedParams) (s : Sched) (cpu old : Nat) : Sched :=
  let s := s.modify old fun task => { task with onCpu := false, ownerCpu := none }
  let task := s.tasks old
  let queue := task.state = .ready ∧ ¬ task.dispatching ∧ ¬ task.onRq
  -- the reference of the processor is dropped
  (if queue then (s.procRunqEnqueue p cpu old).1 else s).procPut old

/-- The outgoing task of `proc_yield`, or of a preemption or a wait, in the state it stops in. -/
def stop (s : Sched) (cpu current : Nat) (state : TaskState) : Sched :=
  s.modify current fun task => { task with state, cpuId := cpu }

/-! ### What is left alone -/

variable {p : SchedParams} {s s' : Sched} {cpu t : Nat}

/-- Only the links are different. -/
def Linkwise (a b : SchedTask) : Prop :=
  ∃ next prev, a = { b with rqNext := next, rqPrev := prev }

theorem Linkwise.trans {a b c : SchedTask} (first : Linkwise a b) (second : Linkwise b c) :
    Linkwise a c := by
  obtain ⟨next, prev, rfl⟩ := first
  obtain ⟨_, _, rfl⟩ := second
  exact ⟨next, prev, rfl⟩

theorem Linkwise.refl (a : SchedTask) : Linkwise a a := ⟨_, _, rfl⟩

section
variable (p s)

/-- What enqueueing a task leaves of the others. -/
theorem procRunqEnqueue_of_ne (here : Nat) {t u : Nat}
    (other : u ≠ t) : Linkwise ((s.procRunqEnqueue p here t).1.tasks u) (s.tasks u) := by
  rcases s.procRunqEnqueue_cases p here t with same | ⟨-, -, -, queued⟩
  · rw [same]
    exact .refl _
  obtain ⟨next, prev, same⟩ := (s.modify t fun task =>
    { task with refs := task.refs + 1 }).putOn_of_ne p (s.runqOf p here t) (s.tasks t).level other
  rw [modify_of_ne s other] at same
  rw [queued]
  exact ⟨next, prev, same⟩

/-- A task that passes the checks is queued. -/
theorem procRunqEnqueue_eq {here : Nat} (awake : t ≠ p.idle here)
    (ready : (s.tasks t).state = .ready) (off : (s.tasks t).onRq = false)
    (free : (s.tasks t).dispatching = false) (left : (s.tasks t).onCpu = false)
    (refs : (s.tasks t).refs ≠ 0) :
    (s.procRunqEnqueue p here t).1 =
      ((s.modify t fun task => { task with refs := task.refs + 1 }).putOn p (s.runqOf p here t) t
        (s.tasks t).level).moreRunning (s.runqOf p here t) := by
  unfold procRunqEnqueue
  rw [if_neg (by simp [awake, ready]), if_neg (by simp [off, free, left]), if_neg refs]

theorem putOn_current (cpu t : Nat) (level : Int) :
    (s.putOn p cpu t level).current = s.current := by
  unfold Sched.putOn Sched.link
  split <;> rfl

theorem procRunqEnqueue_current (here t : Nat) :
    (s.procRunqEnqueue p here t).1.current = s.current := by
  rcases s.procRunqEnqueue_cases p here t with same | ⟨-, -, -, queued⟩
  · rw [same]
  · rw [queued]
    exact putOn_current ..

theorem procRunqRemove_tasks (here : Nat) {t u : Nat}
    (other : u ≠ t) : Linkwise ((s.procRunqRemove p here t).tasks u) (s.tasks u) := by
  unfold procRunqRemove procPut
  split
  · rw [modify_of_ne _ other]
    exact s.retire_of_ne p _ _ other
  · exact .refl _

theorem procRunqRemove_current (here t : Nat) :
    (s.procRunqRemove p here t).current = s.current := by
  unfold procRunqRemove
  split
  · unfold Sched.retire Sched.dequeue
    split <;> rfl
  · rfl

theorem procSwitchComplete_of_ne (cpu : Nat) {t u : Nat}
    (other : u ≠ t) : Linkwise ((s.procSwitchComplete p cpu t).tasks u) (s.tasks u) := by
  unfold procSwitchComplete procPut
  rw [modify_of_ne _ other]
  split
  · have same := procRunqEnqueue_of_ne p (s.modify t fun task =>
      { task with onCpu := false, ownerCpu := none }) cpu other
    rw [modify_of_ne s other] at same
    exact same
  · rw [modify_of_ne s other]
    exact .refl _

theorem procSwitchComplete_current (cpu t : Nat) :
    (s.procSwitchComplete p cpu t).current = s.current := by
  unfold procSwitchComplete procPut Sched.modify
  dsimp only
  split
  · exact procRunqEnqueue_current ..
  · rfl

end

end A20OS.Proc.Sched
