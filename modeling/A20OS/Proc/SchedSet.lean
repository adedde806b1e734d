import A20OS.Proc.Runq

/-!
Changing how a task is scheduled (`proc_sched_set`, `kernel/proc/sched.c`).

The call checks the new policy, priority, nice value and affinity, writes them into the task,
and moves a queued task to the queue that the new values name. It writes the values first, so
that `rt_unlink_locked` computes the list to take the task from with the new priority.
-/

namespace A20OS.Proc

/-- `proc_sched_config_t`; a field is there when its bit in `fields` is set. -/
structure ProcSchedConfig where
  /-- `fields` has bits other than the four. -/
  unknownFields : Bool := false
  /-- `some none` for a number that is no policy. -/
  policy : Option (Option SchedPolicy) := none
  priority : Option Int := none
  affinity : Option (BitVec 32) := none
  nice : Option Int := none
  resetOnFork : Bool := false
deriving DecidableEq

/-- `sched_prio_to_weight` -/
def schedPrioToWeight : List Nat :=
  [43020, 36814, 31492, 26940, 23044, 19711, 16860, 14424,
   12340, 10562, 9041, 7738, 6623, 5668, 4851, 4148,
   3546, 3032, 2593, 2218, 1898, 1622, 1386, 1185,
   1013, 867, 742, 635, 543, 465, 399, 341,
   292, 251, 215, 183, 156, 132, 110, 88]

/-- `sched_weight_for_nice` -/
def schedWeightForNice (nice : Int) : Nat :=
  let idx := nice + 20
  let idx := if idx < 0 then 0 else if 39 < idx then 39 else idx
  schedPrioToWeight.getD idx.toNat 0

namespace SchedTask

/-- `sched_nice_value` -/
def niceValue (task : SchedTask) : Int :=
  if task.policy.rt then
    ((List.range 40).map fun i : Nat => (i : Int) - 20).find?
      (fun nice => schedWeightForNice nice = task.fair.cfsWeight) |>.getD 0
  else task.priority

/-- The weight that the idle and the batch policy give, and another one otherwise. -/
def policyWeight (policy : SchedPolicy) (nice : Int) (otherwise : Nat) : Nat :=
  match policy with
  | .idle => eevdfNice0Load / 4
  | .batch => schedWeightForNice (nice + 5)
  | _ => otherwise

/-- The policy is written, with the priority and the weight that come with it. -/
def writePolicy (task : SchedTask) (policy : SchedPolicy) (resetOnFork : Bool) : SchedTask :=
  let priority := if ¬ policy.rt ∧ task.policy.rt then task.niceValue else task.priority
  { task with
    policy
    resetOnFork
    schedLevel := if policy.rt then 0 else task.schedLevel
    priority
    fair := { task.fair with cfsWeight := policyWeight policy priority task.fair.cfsWeight } }

/-- The nice value is written. -/
def writeNice (cfg : EevdfConfig) (task : SchedTask) (policy : SchedPolicy) (nice : Int) :
    SchedTask :=
  let fair :=
    { task.fair with cfsWeight := policyWeight policy nice (schedWeightForNice nice) }
  if policy.rt then { task with fair }
  else { task with priority := nice, fair := fair.resetDeadline cfg }

/-- What `proc_sched_set` writes into the task, for a checked policy and priority. -/
def configured (p : SchedParams) (task : SchedTask) (policy : SchedPolicy) (priority : Int)
    (config : ProcSchedConfig) : SchedTask :=
  let task := if config.policy.isSome then task.writePolicy policy config.resetOnFork else task
  let task := if policy.rt then { task with priority } else task
  let task := config.nice.elim task (task.writeNice p.eevdf policy)
  config.affinity.elim task fun mask =>
    { task with cpusAllowed := mask &&& BitVec.ofNat 32 (2 ^ p.nrCpus - 1) }

end SchedTask

namespace Sched

/-- The load of a processor: its queued tasks and the one it runs. -/
def load (s : Sched) (cpu : Nat) : Nat :=
  (s.runqs cpu).nrRunning + (s.current cpu).elim 0 fun u =>
    if (s.tasks u).pid ≠ 0 ∧ (s.tasks u).state = .running then 1 else 0

/-- A processor in the mask is better than the best so far when its load is less. -/
def lighter (s : Sched) (mask : BitVec 32) (best : Option (Nat × Nat)) (cpu : Nat) :
    Option (Nat × Nat) :=
  if mask.getLsbD cpu ∧ best.all (fun b => s.load cpu < b.2) then some (cpu, s.load cpu) else best

/-- `proc_sched_select_cpu`, on the processor `here`. -/
def procSchedSelectCpu (p : SchedParams) (s : Sched) (here t : Nat) : Nat :=
  let mask := s.schedTaskCpuMask p t
  if p.nrCpus ≤ 1 ∨ mask = 0 then here
  else if s.current here = some t ∧ mask.getLsbD here then here
  else ((List.range (min p.nrCpus 32)).foldl (s.lighter mask) none).elim here Prod.fst

/-- The counters when a task moves. -/
def countMove (s : Sched) (src dst : Nat) : Sched :=
  if src = dst then s else (s.lessRunning src).moreRunning dst

/-- `sched_runq_requeue_locked` -/
def schedRunqRequeue (p : SchedParams) (s : Sched) (t dst : Nat) (oldLevel : Int) : Sched :=
  let task := s.tasks t
  if ¬ task.onRq ∨ task.state ≠ .ready ∨ p.nrCpus ≤ task.cpuId ∨ p.nrCpus ≤ dst then s
  else ((s.retire p task.cpuId t oldLevel).countMove task.cpuId dst).putOn p dst t task.level

/-- The checked policy and priority of a request. -/
def schedSetCheck (s : Sched) (t : Nat) (config : ProcSchedConfig) :
    Option (SchedPolicy × Int) := do
  let task := s.tasks t
  if config.unknownFields ∨ task.state = .unused ∨ task.destroyStarted then none
  let policy ← config.policy.getD (some task.policy)
  let priority := config.priority.getD (if policy.rt ∧ task.policy.rt then task.priority else 0)
  if (if policy.rt then priority < 1 ∨ 99 < priority else priority ≠ 0) then none
  if config.nice.any fun nice => nice < -20 ∨ 19 < nice then none
  if config.affinity.any fun mask =>
      let eligible := mask &&& s.online &&& task.cgroup.elim (BitVec.allOnes 32) s.effectiveCpus
      eligible = 0 ∨ (task.onCpu ∨ task.dispatching) ∧
        ¬ task.ownerCpu.any fun cpu => eligible.getLsbD cpu then none
  some (policy, priority)

/-- The processor that a task is to be on. -/
def targetCpu (p : SchedParams) (s : Sched) (here t : Nat) : Nat :=
  let task := s.tasks t
  if task.onCpu ∨ task.dispatching ∨ (s.schedTaskCpuMask p t).getLsbD task.cpuId then task.cpuId
  else s.procSchedSelectCpu p here t

/-- `proc_sched_set`, on the processor `here`; `false` when the request is refused. -/
def procSchedSet (p : SchedParams) (s : Sched) (here t : Nat) (config : ProcSchedConfig) :
    Sched × Bool :=
  match s.schedSetCheck t config with
  | none => (s, false)
  | some (policy, priority) =>
      let task := s.tasks t
      let s := s.modify t fun task => task.configured p policy priority config
      let target := s.targetCpu p here t
      let changed := config.policy.isSome ∨ config.priority.isSome ∨ config.nice.isSome
      if task.onRq ∧ task.state = .ready then
        if changed ∨ target ≠ task.cpuId then
          (s.schedRunqRequeue p t target task.schedLevel, true)
        else (s, true)
      else if ¬ task.onCpu ∧ ¬ task.dispatching ∧ ¬ task.onRq then
        (s.modify t fun task => { task with cpuId := target }, true)
      else (s, true)

end Sched

end A20OS.Proc
