import A20OS.Proc.SwitchPath

/-!
The processor quota of a group of tasks (`kernel/proc/cg_cpu.c`) and the scheduling pass that
applies it (`kernel/proc/sched.c`).

The time of a task is charged to its group when it is switched out, and the task is marked when
the quota of the period is used up; a pick that finds a marked task drops it. The marks are taken
off, and the ready tasks queued again, when a task of the group is switched out and the period has
elapsed (`cg_cpu_check_unthrottle`), right after its time was charged. Times wrap at 64 bits. A
pass is one step: the next task completes the switch before it does anything else.
-/

namespace A20OS.Proc

open Function

/-- `CG_CPU_QUOTA_MAX` -/
def cgCpuQuotaMax : BitVec 64 := BitVec.allOnes 64

/-- `cg_cpu_state_t`, and the `pids` of its node. -/
structure CgCpu where
  quota : BitVec 64 := cgCpuQuotaMax
  period : BitVec 64 := 100000000
  runtime : BitVec 64 := 0
  periodStart : BitVec 64 := 0
  throttled : Bool := false
  nrThrottled : BitVec 32 := 0
  throttledTime : BitVec 64 := 0
  totalRuntime : BitVec 64 := 0
  pids : List Nat := []
deriving DecidableEq

namespace CgCpu

/-- The period has elapsed. -/
def Elapsed (c : CgCpu) (now : BitVec 64) : Prop := c.period ≤ now - c.periodStart

instance (c : CgCpu) (now : BitVec 64) : Decidable (c.Elapsed now) :=
  inferInstanceAs (Decidable (_ ≤ _))

/-- The next period begins. -/
def renew (c : CgCpu) (now : BitVec 64) : CgCpu :=
  { c with
    throttledTime :=
      if c.throttled then c.throttledTime + (now - c.periodStart - c.runtime) else c.throttledTime
    runtime := 0
    periodStart := now
    throttled := false }

/-- The group in the period that `now` is in. -/
def current (c : CgCpu) (now : BitVec 64) : CgCpu :=
  let c := if c.periodStart = 0 then { c with periodStart := now } else c
  if c.Elapsed now then c.renew now else c

/-- The time is added, and `true` returned when the quota is used up. -/
def charge (c : CgCpu) (elapsed : BitVec 64) : CgCpu × Bool :=
  let c := { c with runtime := c.runtime + elapsed, totalRuntime := c.totalRuntime + elapsed }
  if c.quota ≤ c.runtime then
    ({ c with throttled := true, nrThrottled := c.nrThrottled + 1 }, true)
  else (c, false)

/-- `cg_cpu_account` -/
def cgCpuAccount (c : CgCpu) (elapsed now : BitVec 64) : CgCpu × Bool :=
  if c.quota = cgCpuQuotaMax then (c, false) else (c.current now).charge elapsed

end CgCpu

/-- `eevdf_account_run` -/
def EevdfTask.accountRun (cfg : EevdfConfig) (t : EevdfTask) (dt : Nat) : EevdfTask :=
  EevdfTask.resetDeadline cfg
    { t with vruntime := (t.vruntime + dt * eevdfNice0Load % 2 ^ 64 / t.weight) % 2 ^ 64 }

namespace Sched

/-- What `eevdf_charge` does for a time that is not zero. -/
def eevdfCharge (p : SchedParams) (s : Sched) (cpu t dt : Nat) : Sched :=
  (s.modify t fun task => { task with fair := task.fair.accountRun p.eevdf dt }).modifyRunq cpu
    fun rq =>
      let more := if rq.fair.weight = 0 then 0 else dt * eevdfNice0Load % 2 ^ 64 / rq.fair.weight
      { rq with fair := { rq.fair with vtime := (rq.fair.vtime + more) % 2 ^ 64 } }

/-- The pick of a pass; the picked task goes back when it cannot be switched to, or when the
current one outranks it. -/
def schedPick (p : SchedParams) (s : Sched) (cpu : Nat) (locked : List Nat) :
    Option (Sched × Option Nat) :=
  (s.procRunqPickLocal p cpu locked).map fun picked =>
    match picked with
    | (s, none) => (s, none)
    | (s, some next) =>
        if ¬ s.publishable next then (s.schedRunqUnpick p next, none)
        else
          match s.current cpu with
          | none => (s, some next)
          | some c =>
              if s.keepsCpu p cpu c next then
                ((s.schedRunqUnpick p next).modify c fun task => { task with state := .running },
                  none)
              else (s, some next)

/-- The current task goes on. -/
def keep (p : SchedParams) (s : Sched) (cpu c : Nat) : Sched :=
  (if (s.tasks c).onRq then s.procRunqRemove p cpu c else s).modify c fun task =>
    { task with state := .running }

/-- The task that a pass switches to: the picked one, the idle task when there is none and the
current one cannot go on, and otherwise `none`. -/
def schedTarget (p : SchedParams) (s : Sched) (cpu : Nat) (locked : List Nat) :
    Option (Sched × Option Nat) :=
  (s.schedPick p cpu locked).map fun picked =>
    match picked with
    | (s, some next) => (s, some next)
    | (s, none) =>
        match s.current cpu with
        | none => (s, some (p.idle cpu))
        | some c =>
            if (s.tasks c).state = .ready ∨ (s.tasks c).state = .running then
              (s.keep p cpu c, none)
            else if c = p.idle cpu then (s, none)
            else (s, some (p.idle cpu))

/-- `context_switch_locked` to the task that is current already. -/
def republish (s : Sched) (cpu next : Nat) : Sched :=
  s.modify next fun task =>
    { task with
      state := .running
      onRq := false
      dispatching := false
      onCpu := true
      ownerCpu := some cpu
      refs := if task.dispatching then task.refs - 1 else task.refs }

/-- The windows of `context_switch_locked`, up to the end of `proc_switch_complete`. -/
def switchTo (p : SchedParams) (s : Sched) (cpu next : Nat) : Sched :=
  match s.current cpu with
  | none => s.publish cpu next
  | some prev =>
      if prev = next then s.republish cpu next
      else (s.publish cpu next).procSwitchComplete p cpu prev

end Sched

/-- The scheduler, the groups and the park fields of the tasks, the tasks by their `pid`, and the
time. -/
structure CgSched where
  sched : Sched := {}
  groups : Nat → CgCpu := fun _ => {}
  park : Nat → Park := fun _ => {}
  pidTable : Nat → Option Nat := fun _ => none
  /-- `eevdf_last_account` of the tasks -/
  lastAccount : Nat → BitVec 64 := fun _ => 0
  now : BitVec 64 := 0
  /-- `TICKS_PER_SEC` -/
  ticksPerSec : BitVec 64 := 10000000

namespace CgSched

variable (p : SchedParams) (s : CgSched)

/-- Write fields of a task. -/
def modify (t : Nat) (f : SchedTask → SchedTask) : CgSched :=
  { s with sched := s.sched.modify t f }

/-- `proc_find_get` up to the reference it takes. -/
def procFind (pid : Nat) : Option Nat :=
  (s.pidTable pid).filter fun t =>
    (s.sched.tasks t).state ≠ .unused ∧ (s.sched.tasks t).refs ≠ 0

/-- `proc_try_wake_locked` with `PROC_WAKE_EVENT`, for the current wait of a task. -/
def tryWakeEvent (here t : Nat) : CgSched :=
  let (park, won) := (s.park t).tryWake (s.park t).waitSeq .event
  let awake := { s with park := update s.park t park }
  if won ∧ (s.park t).state = .parked then
    let sched := s.sched.modify t fun task => { task with state := .ready }
    { awake with sched := (sched.procRunqEnqueue p here t).1 }
  else awake

/-- The processor on which `proc_make_ready` queues a task. -/
def readyCpu (s : Sched) (here t : Nat) : Nat :=
  let task := s.tasks t
  if task.onCpu then task.ownerCpu.getD (2 ^ 32 - 1)
  else if ¬ task.dispatching ∧ ¬ task.onRq ∧ task.state ≠ .blocked then
    s.procSchedSelectCpu p here t
  else task.cpuId

/-- The last part of `proc_make_ready`. -/
def readied (s : Sched) (here t : Nat) : Sched :=
  let cpuId := readyCpu p s here t
  ((s.modify t fun task => { task with state := .ready, cpuId }).procRunqEnqueue p here t).1

/-- `proc_make_ready`, on the processor `here`. -/
def procMakeReady (here t : Nat) : CgSched :=
  let task := s.sched.tasks t
  if task.state = .unused ∨ task.state = .zombie then s
  else if (s.park t).unwoken then s.tryWakeEvent p here t
  else if task.state = .running ∧
      (s.sched.current here ≠ some t ∨ ¬ task.onCpu ∨ task.ownerCpu ≠ some here) then s
  else { s with sched := readied p s.sched here t }

/-- The mark of a task of the group is taken off, and the task queued if it is ready. -/
def unthrottle (here : Nat) (s : CgSched) (pid : Nat) : CgSched :=
  match s.procFind pid with
  | none => s
  | some t =>
      let s := s.modify t fun task => { task with refs := task.refs + 1, cgThrottled := false }
      let s := if (s.sched.tasks t).state = .ready then s.procMakeReady p here t else s
      s.modify t fun task => { task with refs := task.refs - 1 }

/-- `cg_cpu_check_unthrottle` -/
def cgCpuCheckUnthrottle (here g : Nat) : CgSched :=
  let group := s.groups g
  if group.throttled ∧ group.Elapsed s.now then
    group.pids.foldl (unthrottle p here)
      { s with groups := update s.groups g (group.renew s.now) }
  else s

/-- `eevdf_charge` -/
def eevdfCharge (cpu t : Nat) : CgSched :=
  let task := s.sched.tasks t
  if task.policy.rt ∨ task.pid = 0 then s
  else
    let dt := s.now - s.lastAccount t
    let s := { s with lastAccount := update s.lastAccount t s.now }
    if dt = 0 then s else { s with sched := s.sched.eevdfCharge p cpu t dt.toNat }

/-- The time that the current task has run, in nanoseconds. -/
def elapsedNs (start : Nat) : BitVec 64 :=
  (s.now - BitVec.ofNat 64 start) * 1000000000 / s.ticksPerSec

/-- The time of a task is charged to its group. -/
def charged (c g : Nat) : CgSched :=
  let (group, throttled) :=
    (s.groups g).cgCpuAccount (s.elapsedNs (s.sched.tasks c).cgCpuStart) s.now
  let s := { s with groups := update s.groups g group }
  if throttled then s.modify c fun task => { task with cgThrottled := true } else s

/-- The part of `context_switch_locked` for the group of the task that is switched out. -/
def accountGroup (cpu c : Nat) : CgSched :=
  match (s.sched.tasks c).cgroup with
  | none => s
  | some g =>
      if (s.sched.tasks c).cgCpuStart ≠ 0 ∧
          ((s.groups g).quota ≠ cgCpuQuotaMax ∨ (s.groups g).throttled) then
        (s.charged c g).cgCpuCheckUnthrottle p cpu g
      else s

/-- The first part of `context_switch_locked`: the task that is switched out is charged. -/
def chargeCurrent (cpu : Nat) : CgSched :=
  match s.sched.current cpu with
  | none => s
  | some c => (s.eevdfCharge p cpu c).accountGroup p cpu c

/-- `context_switch_locked` -/
def contextSwitch (cpu next : Nat) : CgSched :=
  if (s.sched.tasks next).kstack then
    let s := s.chargeCurrent p cpu
    let s := s.modify next fun task => { task with cgCpuStart := s.now.toNat }
    { s with sched := s.sched.switchTo p cpu next }
  else s

/-- The scheduler after the choice; the account of a picked task begins now. -/
def chosen (cpu : Nat) (sched : Sched) (next : Nat) : CgSched :=
  { s with
    sched
    lastAccount :=
      if next = p.idle cpu then s.lastAccount else update s.lastAccount next s.now }

/-- `sched`, on the processor `cpu`. -/
def schedPass (cpu : Nat) (locked : List Nat) : Option CgSched :=
  (s.sched.schedTarget p cpu locked).map fun target =>
    match target with
    | (sched, none) => { s with sched }
    | (sched, some next) => (s.chosen p cpu sched next).contextSwitch p cpu next

/-- `proc_yield` up to the pass. -/
def procYield (cpu c : Nat) : CgSched :=
  (s.eevdfCharge p cpu c).modify c fun task => { task with state := .ready, cpuId := cpu }

/-! ### Runs -/

inductive CgLabel where
  /-- Calls on a processor. -/
  | enqueue (here t : Nat)
  | makeReady (here t : Nat)
  /-- The current task is to yield, or it blocks, stops or exits. -/
  | yield (cpu : Nat)
  | leave (cpu : Nat) (state : TaskState)
  /-- A scheduling pass. -/
  | sched (cpu : Nat) (locked : List Nat)
  | advance (ticks : BitVec 64)
  /-- The park fields of a task are written. -/
  | park (t : Nat) (park : Park)
  /-- The limits of a group are written. -/
  | limit (g : Nat) (quota period : BitVec 64)

/-- The current task of a processor, if it runs there and is not an idle task. -/
def runs (cpu : Nat) : Option Nat :=
  (s.sched.current cpu).filter fun c =>
    let task := s.sched.tasks c
    (∀ i < p.nrCpus, c ≠ p.idle i) ∧ task.state = .running ∧ task.onCpu ∧
      task.ownerCpu = some cpu

def step : CgLabel → Option CgSched
  | .enqueue here t =>
      if here < p.nrCpus then some { s with sched := (s.sched.procRunqEnqueue p here t).1 }
      else none
  | .makeReady here t =>
      if here < p.nrCpus ∧ ∀ cpu < p.nrCpus, t ≠ p.idle cpu then some (s.procMakeReady p here t)
      else none
  | .yield cpu =>
      if cpu < p.nrCpus then (s.runs p cpu).map (s.procYield p cpu) else none
  | .leave cpu state =>
      if cpu < p.nrCpus ∧ (state = .blocked ∨ state = .stopped ∨ state = .zombie) then
        (s.runs p cpu).map fun c => s.modify c fun task => { task with state }
      else none
  | .sched cpu locked => if cpu < p.nrCpus then s.schedPass p cpu locked else none
  | .advance ticks => some { s with now := s.now + ticks }
  | .park t park => some { s with park := update s.park t park }
  | .limit g quota period =>
      some { s with groups := update s.groups g { s.groups g with quota, period } }

end CgSched

end A20OS.Proc
