import A20OS.Lib.DList
import A20OS.Proc.Eevdf
import A20OS.Proc.WaitProtocol

/-!
The run queues of the processors (`kernel/proc/sched.c`).

Each processor has a list for every real-time priority, linked through the tasks, with a bitmap of
the lists that are not empty, and the fair queue. Where a task is queued follows from fields that
can change: its processor, its level and, at level 0, its priority.

`proc_runq_pick_local` takes the first real-time task, an eligible fair one, or the first fair one,
drops it when it may not run, and looks at other processors when its own queues are empty. Each
operation is one step; the caller gives the processors whose locks `spin_trylock_irqsave` misses.
-/

namespace A20OS.Proc

open Function

inductive SchedPolicy where
  | normal | fifo | rr | batch | idle
deriving DecidableEq, Repr

/-- `sched_policy_rt_value` -/
def SchedPolicy.rt : SchedPolicy → Bool
  | .fifo => true
  | .rr => true
  | _ => false

/-- The fields of a task that the scheduler uses. -/
structure SchedTask where
  pid : Nat := 1
  state : TaskState := .ready
  policy : SchedPolicy := .normal
  priority : Int := 0
  schedLevel : Int := 0
  resetOnFork : Bool := false
  cpuId : Nat := 0
  /-- `none` for `PROC_CPU_NONE` -/
  ownerCpu : Option Nat := none
  onRq : Bool := false
  dispatching : Bool := false
  onCpu : Bool := false
  rqNext : Option Nat := none
  rqPrev : Option Nat := none
  fair : EevdfTask := {}
  cpusAllowed : BitVec 32 := BitVec.allOnes 32
  cgroup : Option Nat := none
  cgThrottled : Bool := false
  cgCpuStart : Nat := 0
  kstack : Bool := true
  destroyStarted : Bool := false
  refs : Nat := 1
deriving DecidableEq

/-- `proc_runq_t`; the words of `rt_bitmap` are read bit by bit. -/
structure Runq where
  head : Nat → Option Nat := fun _ => none
  tail : Nat → Option Nat := fun _ => none
  bitmap : Nat → Bool := fun _ => false
  fair : EevdfRunq := {}
  nrRunning : Nat := 0

/-- `CONFIG_NR_CPUS`, `RT_PRI_LEVELS`, the constants of the fair queue and the idle tasks. -/
structure SchedParams where
  nrCpus : Nat
  rtPriLevels : Nat
  levels_pos : 0 < rtPriLevels
  eevdf : EevdfConfig
  /-- `idle_tasks` -/
  idle : Nat → Nat

/-- The tasks by their addresses, the run queues and the current tasks of the processors, the
processors online, and `effective_cpus` of the groups. -/
structure Sched where
  tasks : Nat → SchedTask := fun _ => {}
  runqs : Nat → Runq := fun _ => {}
  current : Nat → Option Nat := fun _ => none
  online : BitVec 32 := BitVec.allOnes 32
  effectiveCpus : Nat → BitVec 32 := fun _ => BitVec.allOnes 32
  /-- `g_eevdf_rng_seq` -/
  rngSeq : BitVec 64 := 0x853C49E6748FEA9B

/-- `rt_prio_slot` -/
def SchedParams.rtPrioSlot (p : SchedParams) (prio : Int) : Nat :=
  if prio < 0 then 0 else if (p.rtPriLevels : Int) ≤ prio then p.rtPriLevels - 1 else prio.toNat

/-- `sched_level_clamp` -/
def schedLevelClamp (level : Int) : Int :=
  if level < 0 then 0 else if 8 ≤ level then 7 else level

/-- `EEVDF_LEVEL` -/
def eevdfLevel : Int := 1

/-- The level at which a task is queued. -/
def SchedTask.level (task : SchedTask) : Int := if task.policy.rt then 0 else eevdfLevel

/-- `eevdf_heap_prio`, for a number of `g_eevdf_rng_seq`. -/
def eevdfHeapPrio (x : BitVec 64) : Nat :=
  let x := x ^^^ (x >>> 30)
  let x := x * 0xBF58476D1CE4E5B9
  let x := x ^^^ (x >>> 27)
  let x := x * 0x94D049BB133111EB
  let x := x ^^^ (x >>> 31)
  (x >>> 32).toNat ||| 1

namespace Sched

variable (p : SchedParams) (s : Sched)

/-- Write fields of a task. -/
def modify (t : Nat) (f : SchedTask → SchedTask) : Sched :=
  { s with tasks := update s.tasks t (f (s.tasks t)) }

/-- Write fields of a run queue. -/
def modifyRunq (cpu : Nat) (f : Runq → Runq) : Sched :=
  { s with runqs := update s.runqs cpu (f (s.runqs cpu)) }

/-- The fields of the tasks that the fair queues use. -/
def fairTasks : EevdfTasks := fun u => (s.tasks u).fair

/-! ### Level 0 -/

/-- `rt_enqueue_locked` -/
def rtEnqueue (cpu t : Nat) : Sched :=
  let slot := p.rtPrioSlot (s.tasks t).priority
  let last := (s.runqs cpu).tail slot
  { s with
    tasks := fun u =>
      { s.tasks u with
        rqNext :=
          if last = some u then some t else if u = t then none else (s.tasks u).rqNext
        rqPrev := if u = t then last else (s.tasks u).rqPrev }
    runqs := update s.runqs cpu
      { s.runqs cpu with
        head := update (s.runqs cpu).head slot
          (if last = none then some t else (s.runqs cpu).head slot)
        tail := update (s.runqs cpu).tail slot (some t)
        bitmap := update (s.runqs cpu).bitmap slot true } }

/-- `rt_unlink_locked` -/
def rtUnlink (cpu t : Nat) : Sched :=
  let slot := p.rtPrioSlot (s.tasks t).priority
  let before := (s.tasks t).rqPrev
  let behind := (s.tasks t).rqNext
  let head := if before = none then behind else (s.runqs cpu).head slot
  { s with
    tasks := fun u =>
      { s.tasks u with
        rqNext :=
          if u = t then none else if before = some u then behind else (s.tasks u).rqNext
        rqPrev :=
          if u = t then none else if behind = some u then before else (s.tasks u).rqPrev }
    runqs := update s.runqs cpu
      { s.runqs cpu with
        head := update (s.runqs cpu).head slot head
        tail := update (s.runqs cpu).tail slot
          (if behind = none then before else (s.runqs cpu).tail slot)
        bitmap := update (s.runqs cpu).bitmap slot
          (if head = none then false else (s.runqs cpu).bitmap slot) } }

/-- The highest list with a task, from the given slot on down; a bit that is set for an empty
list is cleared. -/
def rtScan (rq : Runq) : Nat → Runq × Option (Nat × Nat)
  | 0 => (rq, none)
  | slot + 1 =>
      if rq.bitmap slot then
        match rq.head slot with
        | some t => (rq, some (slot, t))
        | none => rtScan { rq with bitmap := update rq.bitmap slot false } slot
      else rtScan rq slot

/-- `rt_pick_best_locked` -/
def rtPickBest (cpu : Nat) : Sched × Option Nat :=
  -- all bits of the `RT_BITMAP_WORDS` words
  let found := rtScan (s.runqs cpu) (32 * ((p.rtPriLevels + 31) / 32))
  let s := { s with runqs := update s.runqs cpu found.1 }
  match found.2 with
  | none => (s, none)
  | some (slot, t) =>
      if (s.tasks t).policy = .rr ∧ (s.tasks t).rqNext ≠ none then
        let s := (s.rtUnlink p cpu t).rtEnqueue p cpu t
        (s, (s.runqs cpu).head slot)
      else (s, some t)

/-! ### Level 1 -/

/-- `eevdf_insert_locked` -/
def eevdfInsert (cpu t : Nat) : Sched :=
  let next := (s.runqs cpu).fair.insert p.eevdf s.fairTasks t (eevdfHeapPrio s.rngSeq)
  { s with
    tasks := update s.tasks t { s.tasks t with fair := next.2 t }
    runqs := update s.runqs cpu { s.runqs cpu with fair := next.1 }
    rngSeq := s.rngSeq + 1 }

/-- `eevdf_remove_locked` and `sched_runq_eevdf_del_weight`. -/
def eevdfRemove (cpu t : Nat) : Sched :=
  let rq := (s.runqs cpu).fair
  -- a node that is in no tree has no parent, and its missing child becomes the root
  let fair := (rq.remove s.fairTasks t).getD { rq with root := .nil }
  let weight := (s.tasks t).fair.weight
  { s with
    runqs := update s.runqs cpu
      { s.runqs cpu with
        fair := { fair with weight := if fair.weight > weight then fair.weight - weight else 0 } } }

/-! ### Both levels -/

/-- Take a task out of the queue at a level. -/
def dequeue (cpu t : Nat) (level : Int) : Sched :=
  if schedLevelClamp level = 0 then s.rtUnlink p cpu t else s.eevdfRemove cpu t

/-- Put a task into the queue at a level. -/
def link (cpu t : Nat) (level : Int) : Sched :=
  if level = 0 then s.rtEnqueue p cpu t else s.eevdfInsert p cpu t

/-- The task is taken out, and `on_rq` cleared. -/
def retire (cpu t : Nat) (level : Int) : Sched :=
  (s.dequeue p cpu t level).modify t fun task => { task with onRq := false }

/-- `cpu_id` and `sched_level` are set, the task is put in, and `on_rq` set. -/
def putOn (cpu t : Nat) (level : Int) : Sched :=
  ((s.modify t fun task => { task with cpuId := cpu, schedLevel := level }).link p cpu t
    level).modify t fun task => { task with onRq := true }

def moreRunning (cpu : Nat) : Sched :=
  s.modifyRunq cpu fun rq => { rq with nrRunning := rq.nrRunning + 1 }

def lessRunning (cpu : Nat) : Sched :=
  s.modifyRunq cpu fun rq => { rq with nrRunning := rq.nrRunning - 1 }

/-- `proc_put` -/
def procPut (t : Nat) : Sched :=
  s.modify t fun task => { task with refs := task.refs - 1 }

/-- The run queue of a task, seen from the processor `here`. -/
def runqOf (here t : Nat) : Nat :=
  if (s.tasks t).cpuId < p.nrCpus then (s.tasks t).cpuId else here

/-- `proc_runq_enqueue_locked`, with the answer whether the task is queued. -/
def procRunqEnqueue (here t : Nat) : Sched × Bool :=
  let task := s.tasks t
  if t = p.idle here ∨ task.state ≠ .ready then (s, task.onRq)
  else if task.onRq ∨ task.dispatching ∨ task.onCpu then (s, task.onRq)
  else if task.refs = 0 then (s, false)
  else
    let cpu := s.runqOf p here t
    let s := s.modify t fun task => { task with refs := task.refs + 1 }
    ((s.putOn p cpu t task.level).moreRunning cpu, true)

/-- `proc_runq_remove_locked` -/
def procRunqRemove (here t : Nat) : Sched :=
  if (s.tasks t).onRq then
    let cpu := s.runqOf p here t
    (((s.retire p cpu t (s.tasks t).schedLevel).lessRunning cpu).procPut t)
  else s

/-! ### The pick -/

/-- The next task of a processor's own queues, and its level. -/
def candidate (cpu : Nat) : Sched × Option (Nat × Int) :=
  match s.rtPickBest p cpu with
  | (s, some t) => (s, some (t, 0))
  | (s, none) =>
      let rq := (s.runqs cpu).fair
      if rq.root = .nil then (s, none)
      else (s, ((rq.pickEligible s.fairTasks).or rq.first).map fun t => (t, eevdfLevel))

/-- A candidate is taken off its queue. -/
def takeOff (cpu t : Nat) (level : Int) : Sched :=
  ((s.dequeue p cpu t level).modify t fun task =>
    { task with rqNext := none, rqPrev := none, onRq := false }).lessRunning cpu

/-- A task that was taken off may run. -/
def runnable (cpu t : Nat) : Prop :=
  t ≠ p.idle cpu ∧ (s.tasks t).state = .ready ∧ (s.tasks t).kstack ∧ ¬ (s.tasks t).cgThrottled

instance (cpu t : Nat) : Decidable (s.runnable p cpu t) :=
  inferInstanceAs (Decidable (_ ∧ _))

/-- The task is published as chosen by a processor. -/
def dispatch (cpu t : Nat) : Sched :=
  s.modify t fun task => { task with dispatching := true, ownerCpu := some cpu }

/-- The loop of `proc_runq_pick_local`; `none` when the fuel does not suffice. -/
def pickLoop (p : SchedParams) (cpu : Nat) : Nat → Sched → Option (Sched × Option Nat)
  | 0, _ => none
  | fuel + 1, s =>
      match s.candidate p cpu with
      | (s, none) => some (s, none)
      | (s, some (t, level)) =>
          let s := s.takeOff p cpu t level
          if s.runnable p cpu t then some (s.dispatch cpu t, some t)
          -- the task is dropped
          else pickLoop p cpu fuel (s.procPut t)

/-- `sched_task_cpu_mask` -/
def schedTaskCpuMask (t : Nat) : BitVec 32 :=
  let all := BitVec.ofNat 32 (2 ^ p.nrCpus - 1)
  let group := ((s.tasks t).cgroup.elim (BitVec.allOnes 32) s.effectiveCpus)
  all &&& (s.tasks t).cpusAllowed &&& group &&& s.online

/-- The task that `sched_runq_steal_locked` takes from a processor's queue. -/
def stealable (local_ : Nat) (locked : List Nat) (remote : Nat) : Option (Nat × Nat) :=
  let rq := s.runqs remote
  if remote = local_ ∨ ¬ s.online.getLsbD remote ∨ remote ∈ locked ∨ rq.nrRunning < 2 then none
  else
    rq.fair.last.bind fun t =>
      if (s.tasks t).state = .ready ∧ (s.tasks t).onRq ∧ (s.tasks t).kstack ∧
          ¬ (s.tasks t).cgThrottled ∧ (s.schedTaskCpuMask p t).getLsbD local_
      then some (remote, t) else none

/-- `sched_runq_steal_locked` -/
def steal (local_ : Nat) (locked : List Nat) : Sched × Option Nat :=
  match (List.range p.nrCpus).findSome? (s.stealable p local_ locked) with
  | none => (s, none)
  | some (remote, t) =>
      let s := s.takeOff p remote t eevdfLevel
      ((s.modify t fun task => { task with cpuId := local_ }).dispatch local_ t, some t)

/-- `proc_runq_pick_local`, on the processor `cpu`. -/
def procRunqPickLocal (cpu : Nat) (locked : List Nat) : Option (Sched × Option Nat) :=
  (pickLoop p cpu ((s.runqs cpu).nrRunning + 1) s).map fun picked =>
    match picked with
    | (s, some t) => (s, some t)
    | (s, none) => s.steal p cpu locked

/-- `sched_runq_unpick_locked` -/
def schedRunqUnpick (t : Nat) : Sched :=
  let task := s.tasks t
  match task.ownerCpu with
  | none => s
  | some cpu =>
      if ¬ task.dispatching ∨ task.onRq ∨ task.onCpu ∨ p.nrCpus ≤ cpu ∨ task.state ≠ .ready then s
      else
        -- a task that is no longer real-time keeps the level it had
        let level := if task.policy.rt then 0 else schedLevelClamp task.schedLevel
        let s := s.modify t fun task => { task with dispatching := false, ownerCpu := none }
        (s.putOn p cpu t level).moreRunning cpu

end Sched

end A20OS.Proc
