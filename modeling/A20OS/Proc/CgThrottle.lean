import A20OS.Proc.PassFrame
import Mathlib.Tactic.MkIffOfInductiveProp

/-!
What becomes of a task that a pick has dropped because its group has used up its quota.

It is ready and in no queue, and comes back only when no wait of its own holds it (`Heeds`) and a
pass unthrottles its group (`Unthrottles`): the pass switches away from a task of the group, and
the quota has been lifted in the meantime. As long as there is a quota, `cg_cpu_account` begins the
new period itself, an instant before `cg_cpu_check_unthrottle` asks whether the period has elapsed.
-/

namespace A20OS.Proc

open Lib Option

variable {P : SchedTask → Prop}

/-! ### The group -/

namespace CgCpu

variable {c : CgCpu} {elapsed now : BitVec 64}

/-- A charge at the very beginning of a period. -/
theorem charge_renewed (fresh : c.runtime = 0) (free : c.throttled = false)
    (start : c.periodStart = now) :
    ((c.charge elapsed).1.throttled = true ∧ (c.charge elapsed).1.Elapsed now) ↔
      c.period = 0 ∧ c.quota ≤ elapsed := by
  have sum : c.runtime + elapsed = elapsed := by simp [fresh]
  unfold charge Elapsed
  dsimp only
  rw [sum]
  split
  · next used => simp [start, used]
  · next left => simp [free, left]

/-- When the period has elapsed, a charge leaves the group to be unthrottled only if there is no
quota any more, or a period of length zero. -/
theorem cgCpuAccount_elapsed (past : c.Elapsed now) :
    ((c.cgCpuAccount elapsed now).1.throttled = true ∧
      (c.cgCpuAccount elapsed now).1.Elapsed now) ↔
      c.quota = cgCpuQuotaMax ∧ c.throttled = true ∨
      c.quota ≠ cgCpuQuotaMax ∧ c.period = 0 ∧ c.quota ≤ elapsed := by
  unfold cgCpuAccount
  by_cases unlimited : c.quota = cgCpuQuotaMax
  · simp [unlimited, past]
  rw [if_neg unlimited]
  simp only [unlimited, false_and, false_or, ne_eq, not_false_eq_true, true_and]
  unfold current
  by_cases first : c.periodStart = 0
  · rw [if_pos first]
    by_cases zero : c.period = 0
    · rw [if_pos (by simp [Elapsed, zero])]
      exact charge_renewed rfl rfl rfl
    -- the first period begins now, and is not over
    have short : ¬ c.period ≤ 0 := fun le => zero (BitVec.le_zero_iff.mp le)
    rw [if_neg (by simpa [Elapsed] using short)]
    simp only [zero, false_and, iff_false, not_and]
    intro _
    unfold charge Elapsed
    dsimp only
    split <;> simpa using short
  · rw [if_neg first, if_pos past]
    exact charge_renewed rfl rfl rfl

theorem cgCpuAccount_pids (c : CgCpu) (elapsed now : BitVec 64) :
    (c.cgCpuAccount elapsed now).1.pids = c.pids := by
  have began : (c.current now).pids = c.pids := by
    unfold current renew
    dsimp only
    split <;> split <;> rfl
  unfold cgCpuAccount charge
  dsimp only
  split
  · rfl
  · split <;> exact began

end CgCpu

/-! ### The wait of a task -/

namespace Park

variable {p : Park} {calls : Nat}

/-- So many calls of `proc_make_ready` queue a ready task: a call for a task that prepares to park
only ends the wait. -/
def Heeds (p : Park) (calls : Nat) : Prop :=
  p.unwoken = true → p.waitSeq ≠ 0 ∧ (p.state = .parked ∨ 1 < calls)

instance : Decidable (p.Heeds calls) := inferInstanceAs (Decidable (_ → _))

/-- The wait after a call. -/
def called (p : Park) : Park := (p.tryWake p.waitSeq .event).1

theorem Heeds.mono (heard : p.Heeds 1) : p.Heeds (calls + 1) := by
  intro unwoken
  obtain ⟨started, parked⟩ := heard unwoken
  exact ⟨started, .inl (parked.resolve_right (by omega))⟩

/-- A call that is not heeded is the first of them. -/
theorem called_heeds (missed : ¬ p.Heeds 1) :
    (0 < calls ∧ p.called.Heeds calls) ↔ p.Heeds (calls + 1) := by
  unfold Heeds at missed ⊢
  push Not at missed
  obtain ⟨unwoken, missed⟩ := missed
  by_cases started : p.waitSeq = 0
  · have stays : p.called = p := congrArg Prod.fst (if_pos (.inl started))
    simp [stays, unwoken, started]
  · have won : p.called = p.donated := congrArg Prod.fst
      (tryWake_event (waits_iff.mpr ⟨rfl, unwoken⟩) (Nat.pos_of_ne_zero started))
    simp [won, show p.donated.unwoken = false from rfl, unwoken, started, missed started]

end Park

/-! ### The tasks of a group -/

namespace CgSched

variable {p : SchedParams} {s s' s'' : CgSched} {cpu here t g : Nat} {K : Nat → Prop}

/-- The tasks in `K` keep everything but their links, and the tables of the tasks and groups are
as they were. -/
structure Keeps (K : Nat → Prop) (s s' : CgSched) : Prop where
  sched : Sched.Spares K s.sched s'.sched
  pidTable : s'.pidTable = s.pidTable
  pids : ∀ g, (s'.groups g).pids = (s.groups g).pids

/-- The tasks in `K` are left alone, and the processors keep their current tasks. -/
structure Leaves (K : Nat → Prop) (s s' : CgSched) : Prop extends Keeps K s s' where
  park : ∀ u, K u → s'.park u = s.park u
  current : s'.sched.current = s.sched.current

/-- The scheduler is sound, and the tasks in `K` have been left alone. -/
abbrev Leads (p : SchedParams) (K : Nat → Prop) (s s' : CgSched) : Prop :=
  Sched.Sound p s'.sched ∧ Leaves K s s'

theorem Leaves.refl (s : CgSched) : Leaves K s s :=
  ⟨⟨.refl _, rfl, fun _ => rfl⟩, fun _ _ => rfl, rfl⟩

theorem Keeps.trans (first : Keeps K s s') (second : Keeps K s' s'') : Keeps K s s'' :=
  ⟨first.sched.trans second.sched, second.pidTable.trans first.pidTable,
    fun g => (second.pids g).trans (first.pids g)⟩

theorem Leaves.trans (first : Leaves K s s') (second : Leaves K s' s'') : Leaves K s s'' :=
  ⟨first.toKeeps.trans second.toKeeps,
    fun u kept => (second.park u kept).trans (first.park u kept),
    second.current.trans first.current⟩

theorem Leaves.mono {K' : Nat → Prop} (leaves : Leaves K s s') (sub : ∀ u, K' u → K u) :
    Leaves K' s s' :=
  ⟨⟨leaves.sched.mono sub, leaves.pidTable, leaves.pids⟩,
    fun u kept => leaves.park u (sub u kept), leaves.current⟩

/-- Another task is written than the one that is left alone. -/
theorem Leaves.aside {c : Nat} (leaves : Leaves (· ≠ c) s s') (other : c ≠ t) :
    Leaves (· = t) s s' := by
  refine leaves.mono ?_
  rintro u rfl
  exact other.symm

variable {sched : Sched}

/-- Only the scheduler changes. -/
theorem Leaves.ofSched (spares : Sched.Spares K s.sched sched)
    (current : sched.current = s.sched.current) : Leaves K s { s with sched } :=
  ⟨⟨spares, rfl, fun _ => rfl⟩, fun _ _ => rfl, current⟩

/-- One task is written. -/
theorem Leads.modify {f : SchedTask → SchedTask}
    (altered : Sched.Alters p t s.sched (s.sched.modify t f)) : Leads p (· ≠ t) s (s.modify t f) :=
  ⟨altered.1, .ofSched altered.2 rfl⟩

theorem modify_self (s : CgSched) (t : Nat) (f : SchedTask → SchedTask) :
    (s.modify t f).sched.tasks t = f (s.sched.tasks t) := Sched.modify_self ..

/-- The tasks of the groups are listed there by their `pid`, under which they are found. -/
structure Listed (s : CgSched) : Prop where
  found : ∀ pid t, s.pidTable pid = some t → (s.sched.tasks t).pid = pid
  listed : ∀ t, s.pidTable (s.sched.tasks t).pid = some t → ∀ g,
    (s.sched.tasks t).cgroup = some g ↔ (s.sched.tasks t).pid ∈ (s.groups g).pids

/-- The scheduler is sound, and the idle tasks are in no group. -/
structure Good (p : SchedParams) (s : CgSched) : Prop extends Listed s where
  sound : Sched.Sound p s.sched
  idle : ∀ cpu < p.nrCpus, (s.sched.tasks (p.idle cpu)).cgroup = none

theorem Good.keeps (good : Good p s) (leaves : Keeps K s s') (sound : Sched.Sound p s'.sched) :
    Good p s' := by
  refine ⟨⟨fun pid t there => ?_, fun t there g => ?_⟩, sound, fun cpu inside => ?_⟩
  · rw [leaves.pidTable] at there
    rw [(leaves.sched.ident t).1]
    exact good.found pid t there
  · rw [leaves.pidTable, (leaves.sched.ident t).1] at there
    rw [(leaves.sched.ident t).1, (leaves.sched.ident t).2, leaves.pids]
    exact good.listed t there g
  · rw [(leaves.sched.ident _).2]
    exact good.idle cpu inside

/-! ### Making a task ready -/

theorem setReady (sound : Sched.Sound p s.sched) (awake : ∀ cpu < p.nrCpus, t ≠ p.idle cpu)
    {cpuId : Nat} (own : (s.sched.tasks t).onRq = true → cpuId = (s.sched.tasks t).cpuId) :
    Sched.Alters p t s.sched
      (s.sched.modify t fun task => { task with state := .ready, cpuId }) := by
  refine sound.modify ?_
    ⟨⟨(sound.tasks t).1, fun cpu inside idle => absurd idle (awake cpu inside)⟩, rfl, rfl⟩
  by_cases on : (s.sched.tasks t).onRq = true
  · exact sound.inv.modify ⟨rfl, own on, rfl, rfl, rfl⟩ fun _ => ⟨rfl, rfl⟩
  · have off := Bool.eq_false_iff.mpr on
    exact sound.inv.modifyOff off off

/-- The processor of a queued task stays. -/
theorem readyCpu_of_onRq (here : Nat) (sound : Sched.Sound p sched)
    (on : (sched.tasks t).onRq = true) : readyCpu p sched here t = (sched.tasks t).cpuId := by
  simp [readyCpu, on, (sound.tasks t).1 on]

theorem Leaves.procMakeReady (sound : Sched.Sound p s.sched) (inside : here < p.nrCpus)
    (awake : ∀ cpu < p.nrCpus, t ≠ p.idle cpu) : Leads p (· ≠ t) s (s.procMakeReady p here t) := by
  unfold CgSched.procMakeReady
  dsimp only
  split
  · exact ⟨sound, .refl s⟩
  split
  · -- a wait of the task ends
    unfold tryWakeEvent
    dsimp only
    have parks : ∀ park u, u ≠ t → Function.update s.park t park u = s.park u :=
      fun park u other => Function.update_of_ne other ..
    split
    · have ready := setReady sound awake fun _ => rfl
      obtain ⟨queued, spares⟩ := ready.trans (ready.1.procRunqEnqueue inside t)
      exact ⟨queued, ⟨spares, rfl, fun _ => rfl⟩, parks _, Sched.procRunqEnqueue_current ..⟩
    · exact ⟨sound, ⟨.refl _, rfl, fun _ => rfl⟩, parks _, rfl⟩
  · split
    · exact ⟨sound, .refl s⟩
    · have ready := setReady sound awake (readyCpu_of_onRq here sound)
      obtain ⟨queued, spares⟩ := ready.trans (ready.1.procRunqEnqueue inside t)
      exact ⟨queued, .ofSched spares (Sched.procRunqEnqueue_current ..)⟩

/-- The task is queued and not marked. -/
def Back (s : CgSched) (t : Nat) : Prop :=
  (s.sched.tasks t).onRq = true ∧ (s.sched.tasks t).cgThrottled = false

theorem back_congr (same : Sched.Linkwise (s'.sched.tasks t) (s.sched.tasks t)) :
    s'.Back t ↔ s.Back t := by
  obtain ⟨next, prev, last⟩ := same
  unfold Back
  rw [last]

/-- What holds of a task that is queued or chosen, and of which nothing is said that making it
ready or unthrottling it could change. -/
structure Stable (P : SchedTask → Prop) : Prop where
  held : ∀ task, P task → task.onRq = true ∨ task.dispatching = true
  linkwise : ∀ a b, P b → Sched.Linkwise a b → P a
  readied : ∀ task cpuId, P task → P { task with state := .ready, cpuId }
  unmarked : ∀ task refs, P task → P { task with refs, cgThrottled := false }
  counted : ∀ task refs, P task → P { task with refs }

theorem stable_back : Stable fun task => task.onRq = true ∧ task.cgThrottled = false where
  held _ back := .inl back.1
  linkwise := by
    rintro _ b back ⟨next, prev, rfl⟩
    exact back
  readied _ _ back := back
  unmarked _ _ back := ⟨back.1, rfl⟩
  counted _ _ back := back

theorem stable_chosen : Stable fun task => task.onRq = false ∧ task.dispatching = true where
  held _ chosen := .inr chosen.2
  linkwise := by
    rintro _ b chosen ⟨next, prev, rfl⟩
    exact chosen
  readied _ _ chosen := chosen
  unmarked _ _ chosen := chosen
  counted _ _ chosen := chosen

theorem Stable.procMakeReady (stable : Stable P)
    (holds : P (s.sched.tasks t)) : P ((s.procMakeReady p here t).sched.tasks t) := by
  have queued : ∀ cpuId, P (((s.sched.modify t fun task =>
      { task with state := .ready, cpuId }).procRunqEnqueue p here t).1.tasks t) := by
    intro cpuId
    have after := stable.readied _ cpuId holds
    rw [Sched.procRunqEnqueue_held]
    · rw [Sched.modify_self]
      exact after
    · rw [Sched.modify_self]
      exact stable.held _ after
  unfold CgSched.procMakeReady
  dsimp only
  split
  · exact holds
  split
  · unfold tryWakeEvent
    dsimp only
    split
    · exact queued (s.sched.tasks t).cpuId
    · exact holds
  · split
    · exact holds
    · exact queued _

/-- A task that is ready and nowhere. -/
@[mk_iff]
structure RestingTask (task : SchedTask) : Prop where
  ready : task.state = .ready
  kstack : task.kstack = true
  off : task.onRq = false
  free : task.dispatching = false
  left : task.onCpu = false

theorem RestingTask.linkwise {a b : SchedTask} (resting : RestingTask b)
    (same : Sched.Linkwise a b) : RestingTask a := by
  obtain ⟨next, prev, rfl⟩ := same
  exact { resting with }

theorem RestingTask.queued {sched : Sched} (resting : RestingTask (sched.tasks t))
    (awake : t ≠ p.idle here) (refs : (sched.tasks t).refs ≠ 0) (cpuId : Nat) :
    ∃ task, ((sched.modify t fun task =>
        { task with state := .ready, cpuId }).procRunqEnqueue p here t).1.tasks t = task ∧
      task.onRq = true ∧ task.cgThrottled = (sched.tasks t).cgThrottled := by
  refine ⟨_, rfl, ?_⟩
  generalize modified : (sched.modify t fun task => { task with state := .ready, cpuId }) = s₂
  have changed : s₂.tasks t = { sched.tasks t with state := .ready, cpuId } := by
    rw [← modified]
    exact Sched.modify_self ..
  rw [s₂.procRunqEnqueue_eq p awake (by rw [changed]) (by rw [changed]; exact resting.off)
    (by rw [changed]; exact resting.free) (by rw [changed]; exact resting.left)
    (by rw [changed]; exact refs)]
  obtain ⟨next, prev, fair, last⟩ := (s₂.modify t fun task =>
    { task with refs := task.refs + 1 }).putOn_self p (s₂.runqOf p here t) t (s₂.tasks t).level
  rw [Sched.moreRunning_tasks, last, Sched.modify_self, changed]
  exact ⟨rfl, rfl⟩

/-- The first call that the task heeds queues it; a call that it does not heed is recorded. -/
theorem RestingTask.procMakeReady (resting : RestingTask (s.sched.tasks t))
    (awake : t ≠ p.idle here) (refs : (s.sched.tasks t).refs ≠ 0) :
    ((s.park t).Heeds 1 → ((s.procMakeReady p here t).sched.tasks t).onRq = true ∧
      ((s.procMakeReady p here t).sched.tasks t).cgThrottled =
        (s.sched.tasks t).cgThrottled) ∧
    (¬ (s.park t).Heeds 1 → s.procMakeReady p here t =
      { s with park := Function.update s.park t (s.park t).called }) := by
  have queued := resting.queued awake refs
  unfold CgSched.procMakeReady
  rw [if_neg (by simp [resting.ready])]
  by_cases unwoken : (s.park t).unwoken = true
  · rw [if_pos unwoken]
    unfold tryWakeEvent
    dsimp only
    constructor
    · intro heard
      obtain ⟨started, parked⟩ := heard unwoken
      have won := Park.tryWake_event (Park.waits_iff.mpr ⟨rfl, unwoken⟩)
        (Nat.pos_of_ne_zero started)
      rw [won, if_pos ⟨rfl, parked.resolve_right (by omega)⟩]
      obtain ⟨_, rfl, queued⟩ := queued (s.sched.tasks t).cpuId
      exact queued
    · intro missed
      refine if_neg ?_
      rintro ⟨won, parked⟩
      refine missed fun _ => ⟨fun zero => ?_, .inl parked⟩
      rw [zero, Park.tryWake, if_pos (.inl rfl)] at won
      cases won
  · rw [if_neg unwoken, if_neg (by simp [resting.ready])]
    constructor
    · intro _
      obtain ⟨_, rfl, queued⟩ := queued (readyCpu p s.sched here t)
      exact queued
    · intro missed
      exact absurd (fun wait => absurd wait unwoken) missed

/-! ### Unthrottling -/

theorem procFind_eq_some {pid : Nat} : s.procFind pid = some t ↔
    s.pidTable pid = some t ∧ (s.sched.tasks t).state ≠ .unused ∧ (s.sched.tasks t).refs ≠ 0 := by
  unfold procFind
  simp

/-- A resting task of a group that exists. -/
@[mk_iff]
structure Resting (s : CgSched) (t g : Nat) : Prop where
  task : RestingTask (s.sched.tasks t)
  found : s.procFind (s.sched.tasks t).pid = some t
  group : (s.sched.tasks t).cgroup = some g

theorem Resting.leaves (resting : s.Resting t g) (leaves : Leaves (· = t) s s') :
    s'.Resting t g := by
  have same := leaves.sched.spared t rfl
  obtain ⟨there, used, refs⟩ := procFind_eq_some.mp resting.found
  refine ⟨resting.task.linkwise same, ?_, (leaves.sched.ident t).2.trans resting.group⟩
  obtain ⟨next, prev, last⟩ := same
  rw [procFind_eq_some, leaves.pidTable, last]
  exact ⟨there, used, refs⟩

theorem Resting.not_back (resting : s.Resting t g) : ¬ s.Back t := by
  rintro ⟨on, -⟩
  rw [resting.task.off] at on
  cases on

section
variable (inside : here < p.nrCpus)
include inside

section
variable (sound : Sched.Sound p s.sched)
include sound

theorem Leaves.unthrottle (pid : Nat) :
    Leads p (fun u => s.pidTable pid ≠ some u) s (s.unthrottle p here pid) := by
  unfold CgSched.unthrottle
  cases found : s.procFind pid with
  | none => exact ⟨sound, .refl s⟩
  | some t =>
    have others : ∀ u, s.pidTable pid ≠ some u → u ≠ t := by
      rintro u away rfl
      exact away (procFind_eq_some.mp found).1
    dsimp only
    have unmarked : Leads p (· ≠ t) s (s.modify t fun task =>
        { task with refs := task.refs + 1, cgThrottled := false }) :=
      .modify (sound.touch ⟨rfl, rfl, rfl, rfl, rfl⟩ ⟨rfl, rfl⟩ ⟨rfl, rfl, rfl, rfl⟩)
    generalize (s.modify t fun task =>
      { task with refs := task.refs + 1, cgThrottled := false }) = s₁ at unmarked
    obtain ⟨sound₁, leaves₁⟩ := unmarked
    obtain ⟨sound₂, leaves₂⟩ : Leads p (· ≠ t) s₁
        (if (s₁.sched.tasks t).state = .ready then s₁.procMakeReady p here t else s₁) := by
      split
      · next ready => exact Leaves.procMakeReady sound₁ inside (sound₁.awake ready)
      · exact ⟨sound₁, .refl s₁⟩
    obtain ⟨sound₃, leaves₃⟩ := Leads.modify (f := fun task => { task with refs := task.refs - 1 })
      (sound₂.touch ⟨rfl, rfl, rfl, rfl, rfl⟩ ⟨rfl, rfl⟩ ⟨rfl, rfl, rfl, rfl⟩)
    exact ⟨sound₃, ((leaves₁.trans leaves₂).trans leaves₃).mono others⟩

/-- A resting task is queued when it is found, or rests on. -/
theorem Resting.unthrottle (resting : s.Resting t g) {pid : Nat} (found : s.procFind pid = some t) :
    ((s.park t).Heeds 1 → (s.unthrottle p here pid).Back t) ∧
    (¬ (s.park t).Heeds 1 → (s.unthrottle p here pid).Resting t g ∧
      (s.unthrottle p here pid).park t = (s.park t).called) := by
  obtain ⟨there, used, refs⟩ := procFind_eq_some.mp resting.found
  unfold CgSched.unthrottle
  rw [found]
  dsimp only
  generalize unmarked : (s.modify t fun task =>
    { task with refs := task.refs + 1, cgThrottled := false }) = s₁
  have self : s₁.sched.tasks t =
      { s.sched.tasks t with refs := (s.sched.tasks t).refs + 1, cgThrottled := false } := by
    rw [← unmarked, modify_self]
  have rests : RestingTask (s₁.sched.tasks t) := by
    rw [self]
    exact { resting.task with }
  have park : s₁.park = s.park := by rw [← unmarked]; rfl
  obtain ⟨heeds, misses⟩ := rests.procMakeReady (sound.awake resting.task.ready here inside)
    (by rw [self]; exact Nat.succ_ne_zero _)
  rw [if_pos rests.ready, ← park]
  constructor
  · intro heard
    obtain ⟨on, mark⟩ := heeds heard
    unfold Back
    rw [modify_self]
    exact ⟨on, mark.trans (by rw [self])⟩
  · intro missed
    rw [misses missed]
    refine ⟨⟨?_, ?_, ?_⟩, Function.update_self ..⟩
    · rw [modify_self]
      exact { rests with }
    · rw [procFind_eq_some, modify_self, ← unmarked, modify_self]
      exact ⟨there, used, refs⟩
    · rw [modify_self, self]
      exact resting.group

theorem Stable.unthrottle (stable : Stable P) (holds : P (s.sched.tasks t)) (pid : Nat) :
    P ((s.unthrottle p here pid).sched.tasks t) := by
  by_cases away : s.pidTable pid = some t
  · unfold CgSched.unthrottle
    cases found : s.procFind pid with
    | none => exact holds
    | some u =>
      obtain rfl : t = u := some.inj (away.symm.trans (procFind_eq_some.mp found).1)
      have unmarked : P ((s.modify t fun task =>
          { task with refs := task.refs + 1, cgThrottled := false }).sched.tasks t) := by
        rw [modify_self]
        exact stable.unmarked _ _ holds
      dsimp only
      generalize (s.modify t fun task =>
        { task with refs := task.refs + 1, cgThrottled := false }) = s₁ at unmarked
      rw [modify_self]
      refine stable.counted _ _ ?_
      split
      · exact stable.procMakeReady unmarked
      · exact unmarked
  · obtain ⟨-, leaves⟩ := Leaves.unthrottle inside sound pid
    exact stable.linkwise _ _ holds (leaves.sched.spared t away)

end

/-- The whole group is unthrottled. -/
theorem Leaves.foldl_unthrottle (pids : List Nat) :
    ∀ {s : CgSched}, Sched.Sound p s.sched →
      Leads p (fun u => ∀ pid ∈ pids, s.pidTable pid ≠ some u) s
        (pids.foldl (CgSched.unthrottle p here) s) := by
  induction pids with
  | nil => exact fun sound => ⟨sound, .refl _⟩
  | cons pid pids ih =>
    intro s sound
    obtain ⟨sound₁, leaves₁⟩ := Leaves.unthrottle inside sound pid
    obtain ⟨sound₂, leaves₂⟩ := ih sound₁
    refine ⟨sound₂, (leaves₁.mono fun u away => away pid (.head _)).trans
      (leaves₂.mono fun u away other member => ?_)⟩
    rw [leaves₁.pidTable]
    exact away other (.tail _ member)

theorem Stable.foldl_unthrottle (stable : Stable P) (pids : List Nat) :
    ∀ {s : CgSched}, P (s.sched.tasks t) → Sched.Sound p s.sched →
      P ((pids.foldl (CgSched.unthrottle p here) s).sched.tasks t) := by
  induction pids with
  | nil => exact fun holds _ => holds
  | cons pid pids ih =>
    intro s holds sound
    exact ih (stable.unthrottle inside sound holds pid) (Leaves.unthrottle inside sound pid).1

/-- The task comes back if it heeds as many calls as its `pid` is listed. -/
theorem Resting.foldl_unthrottle (pids : List Nat) :
    ∀ {s : CgSched}, Good p s → s.Resting t g →
      ((pids.foldl (CgSched.unthrottle p here) s).Back t ↔
        0 < pids.count (s.sched.tasks t).pid ∧
          (s.park t).Heeds (pids.count (s.sched.tasks t).pid)) := by
  induction pids with
  | nil => exact fun _ resting => iff_of_false resting.not_back fun listed => nomatch listed.1
  | cons first pids ih =>
    intro s good resting
    obtain ⟨there, exists_⟩ := procFind_eq_some.mp resting.found
    obtain ⟨sound₁, leaves⟩ := Leaves.unthrottle inside good.sound first
    have good₁ := good.keeps leaves.toKeeps sound₁
    have pid := (leaves.sched.ident t).1
    rw [List.foldl_cons]
    by_cases here_ : s.pidTable first = some t
    · obtain ⟨heeds, misses⟩ :=
        resting.unthrottle inside good.sound (procFind_eq_some.mpr ⟨here_, exists_⟩)
      rw [good.found first t here_, List.count_cons_self]
      by_cases heard : (s.park t).Heeds 1
      · have back := stable_back.foldl_unthrottle inside pids (heeds heard) sound₁
        exact iff_of_true back ⟨Nat.succ_pos _, heard.mono⟩
      · obtain ⟨rests, park⟩ := misses heard
        rw [ih good₁ rests, pid, park, good.found first t here_, Park.called_heeds heard]
        exact (and_iff_right (Nat.succ_pos _)).symm
    -- its turn comes later
    have left : Leaves (· = t) s (s.unthrottle p here first) := by
      refine leaves.mono ?_
      rintro u rfl
      exact here_
    have other : first ≠ (s.sched.tasks t).pid := by
      rintro rfl
      exact here_ there
    rw [ih good₁ (resting.leaves left), pid, left.park t rfl, List.count_cons_of_ne other]

end

/-! ### Charging a group -/

theorem pids_update (s : CgSched) {group : CgCpu} (same : group.pids = (s.groups g).pids) :
    ∀ h, (Function.update s.groups g group h).pids = (s.groups h).pids :=
  (Function.forall_update_iff s.groups fun h x => x.pids = (s.groups h).pids).mpr
    ⟨same, fun _ _ => rfl⟩

theorem Leaves.charged (sound : Sched.Sound p s.sched) (c g : Nat) :
    Leads p (· ≠ c) s (s.charged c g) := by
  have pids := pids_update s ((s.groups g).cgCpuAccount_pids
    (s.elapsedNs (s.sched.tasks c).cgCpuStart) s.now)
  unfold CgSched.charged
  dsimp only
  split
  · have marked : Sched.Alters p c s.sched (s.sched.modify c fun task =>
        { task with cgThrottled := true }) :=
      sound.touch ⟨rfl, rfl, rfl, rfl, rfl⟩ ⟨rfl, rfl⟩ ⟨rfl, rfl, rfl, rfl⟩
    exact ⟨marked.1, ⟨marked.2, rfl, pids⟩, fun _ _ => rfl, rfl⟩
  · exact ⟨sound, ⟨.refl _, rfl, pids⟩, fun _ _ => rfl, rfl⟩

theorem charged_group (s : CgSched) (c g : Nat) : (s.charged c g).groups g =
      ((s.groups g).cgCpuAccount (s.elapsedNs (s.sched.tasks c).cgCpuStart) s.now).1 ∧
    (s.charged c g).now = s.now := by
  unfold CgSched.charged
  dsimp only
  split <;> exact ⟨Function.update_self .., rfl⟩

theorem Leaves.renew (s : CgSched) (g : Nat) : Leaves K s
    { s with groups := Function.update s.groups g ((s.groups g).renew s.now) } := by
  exact ⟨⟨.refl _, rfl, pids_update s rfl⟩, fun _ _ => rfl, rfl⟩

theorem Leaves.cgCpuCheckUnthrottle (sound : Sched.Sound p s.sched) (inside : here < p.nrCpus)
    (g : Nat) : Leads p (fun u => (s.groups g).throttled = true ∧ (s.groups g).Elapsed s.now →
      ∀ pid ∈ (s.groups g).pids, s.pidTable pid ≠ some u) s (s.cgCpuCheckUnthrottle p here g) := by
  unfold CgSched.cgCpuCheckUnthrottle
  dsimp only
  split
  · next fires =>
    have renewed : Sched.Sound p { s with
      groups := Function.update s.groups g ((s.groups g).renew s.now) }.sched := sound
    obtain ⟨sound₁, leaves⟩ := Leaves.foldl_unthrottle inside (s.groups g).pids renewed
    exact ⟨sound₁, (Leaves.renew s g).trans (leaves.mono fun u away => away fires)⟩
  · exact ⟨sound, .refl s⟩

theorem Leaves.accountGroup (sound : Sched.Sound p s.sched) (inside : cpu < p.nrCpus) (c : Nat) :
    Leads p (fun _ => False) s (s.accountGroup p cpu c) := by
  unfold CgSched.accountGroup
  split
  · exact ⟨sound, .refl s⟩
  · next g _ =>
    split
    · obtain ⟨sound₁, leaves₁⟩ := Leaves.charged sound c g
      obtain ⟨sound₂, leaves₂⟩ := Leaves.cgCpuCheckUnthrottle sound₁ inside g
      exact ⟨sound₂, (leaves₁.mono fun u => False.elim).trans (leaves₂.mono fun u => False.elim)⟩
    · exact ⟨sound, .refl s⟩

/-- Charging the time of the task `c` lets its group `g` go: the quota has been lifted, or the
period has no length. -/
def Lifts (s : CgSched) (c g : Nat) : Prop :=
  (s.sched.tasks c).cgroup = some g ∧ (s.sched.tasks c).cgCpuStart ≠ 0 ∧
    ((s.groups g).quota = cgCpuQuotaMax ∧ (s.groups g).throttled = true ∨
      (s.groups g).quota ≠ cgCpuQuotaMax ∧ (s.groups g).period = 0 ∧
        (s.groups g).quota ≤ s.elapsedNs (s.sched.tasks c).cgCpuStart)

/-- The wait of the task lets it come back when its group is let go. -/
def Heeds (s : CgSched) (t g : Nat) : Prop :=
  (s.park t).Heeds ((s.groups g).pids.count (s.sched.tasks t).pid)

theorem Leaves.heeds (leaves : Leaves (· = t) s s') : s'.Heeds t g ↔ s.Heeds t g := by
  unfold Heeds
  rw [leaves.park t rfl, leaves.pids, (leaves.sched.ident t).1]

theorem Resting.cgCpuCheckUnthrottle (resting : s.Resting t g) (good : Good p s)
    (inside : here < p.nrCpus)
    (fires : (s.groups g).throttled = true ∧ (s.groups g).Elapsed s.now) :
    (s.cgCpuCheckUnthrottle p here g).Back t ↔ s.Heeds t g := by
  have listed := (good.listed t (procFind_eq_some.mp resting.found).1 g).mp resting.group
  unfold CgSched.cgCpuCheckUnthrottle
  rw [if_pos fires]
  have renewed : Leaves (· = t) s _ := Leaves.renew s g
  rw [(resting.leaves renewed).foldl_unthrottle inside _ (good.keeps renewed.toKeeps good.sound)]
  exact and_iff_right (List.count_pos_iff.mpr listed)

/-- The task comes back exactly when the charge lets its group go and the task heeds this. -/
theorem Resting.accountGroup (good : Good p s) (inside : cpu < p.nrCpus) (resting : s.Resting t g)
    (past : (s.groups g).Elapsed s.now) {c : Nat} (other : c ≠ t) :
    (s.accountGroup p cpu c).Back t ↔ s.Lifts c g ∧ s.Heeds t g := by
  have there := (procFind_eq_some.mp resting.found).1
  suffices split_ : (s.Lifts c g → ((s.accountGroup p cpu c).Back t ↔ s.Heeds t g)) ∧
      (¬ s.Lifts c g → Leaves (· = t) s (s.accountGroup p cpu c)) by
    by_cases lifts : s.Lifts c g
    · rw [split_.1 lifts, and_iff_right lifts]
    · exact iff_of_false (resting.leaves (split_.2 lifts)).not_back fun both => lifts both.1
  constructor
  · rintro ⟨same, started, lifted⟩
    have guard : (s.sched.tasks c).cgCpuStart ≠ 0 ∧
        ((s.groups g).quota ≠ cgCpuQuotaMax ∨ (s.groups g).throttled = true) :=
      ⟨started, lifted.symm.imp And.left And.right⟩
    obtain ⟨sound₁, leaves₁⟩ := Leaves.charged good.sound c g
    have left := leaves₁.aside other
    obtain ⟨result, now⟩ := s.charged_group c g
    have fires := (CgCpu.cgCpuAccount_elapsed past).mpr lifted
    rw [← result, ← now] at fires
    unfold CgSched.accountGroup
    rw [same]
    dsimp only
    rw [if_pos guard, ← left.heeds]
    exact (resting.leaves left).cgCpuCheckUnthrottle (good.keeps left.toKeeps sound₁) inside fires
  · intro stays
    unfold CgSched.accountGroup
    split
    · exact .refl s
    · next g' same =>
      split
      · next guard =>
        obtain ⟨sound₁, leaves₁⟩ := Leaves.charged good.sound c g'
        obtain ⟨-, leaves₂⟩ := Leaves.cgCpuCheckUnthrottle sound₁ inside g'
        refine (leaves₁.aside other).trans (leaves₂.mono ?_)
        rintro u rfl fires pid member
        obtain ⟨result, now⟩ := s.charged_group c g'
        rw [leaves₁.pidTable]
        intro found
        -- a task found through the group is in it, so this is the group of the task
        rw [leaves₁.pids, ← good.found pid u found] at member
        have own := (good.listed u there g').mpr member
        obtain rfl : g = g' := some.inj (resting.group.symm.trans own)
        rw [result, now] at fires
        exact stays ⟨same, guard.1, (CgCpu.cgCpuAccount_elapsed past).mp fires⟩
      · exact .refl s

/-! ### A pass -/

theorem Leaves.eevdfCharge (sound : Sched.Sound p s.sched) (cpu t : Nat) :
    Leads p (· ≠ t) s (s.eevdfCharge p cpu t) := by
  unfold CgSched.eevdfCharge
  dsimp only
  split
  · exact ⟨sound, .refl s⟩
  · split
    · exact ⟨sound, ⟨.refl _, rfl, fun _ => rfl⟩, fun _ _ => rfl, rfl⟩
    · obtain ⟨sound₁, spares⟩ := sound.eevdfCharge cpu t (s.now - s.lastAccount t).toNat
      exact ⟨sound₁, ⟨spares, rfl, fun _ => rfl⟩, fun _ _ => rfl, rfl⟩

theorem eevdfCharge_kept (p : SchedParams) (s : CgSched) (cpu t : Nat) :
    (∃ fair, (s.eevdfCharge p cpu t).sched.tasks t = { s.sched.tasks t with fair }) ∧
      (s.eevdfCharge p cpu t).groups = s.groups ∧ (s.eevdfCharge p cpu t).now = s.now ∧
      (s.eevdfCharge p cpu t).ticksPerSec = s.ticksPerSec := by
  unfold CgSched.eevdfCharge
  dsimp only
  split
  · exact ⟨⟨_, rfl⟩, rfl, rfl, rfl⟩
  · split
    · exact ⟨⟨_, rfl⟩, rfl, rfl, rfl⟩
    · exact ⟨⟨(s.sched.tasks t).fair.accountRun p.eevdf (s.now - s.lastAccount t).toNat,
        Function.update_self ..⟩, rfl, rfl, rfl⟩

/-- The task that is switched to stays chosen while the one that is switched out is charged. -/
theorem Stable.accountGroup (stable : Stable P)
    (marked : ∀ task, P task → P { task with cgThrottled := true })
    (sound : Sched.Sound p s.sched) (inside : cpu < p.nrCpus) (holds : P (s.sched.tasks t))
    (c : Nat) : P ((s.accountGroup p cpu c).sched.tasks t) := by
  unfold CgSched.accountGroup
  split
  · exact holds
  · next g _ =>
    split
    · obtain ⟨sound₁, leaves⟩ := Leaves.charged sound c g
      have charged : P ((s.charged c g).sched.tasks t) := by
        by_cases same : t = c
        · subst same
          unfold CgSched.charged
          dsimp only
          split
          · rw [modify_self]
            exact marked _ holds
          · exact holds
        · exact stable.linkwise _ _ holds (leaves.sched.spared t same)
      unfold CgSched.cgCpuCheckUnthrottle
      dsimp only
      split
      · exact stable.foldl_unthrottle inside _ charged sound₁
      · exact charged
    · exact holds

section
variable (sound : Sched.Sound p s.sched)
include sound

theorem Leaves.chargeCurrent (inside : cpu < p.nrCpus) :
    Leads p (fun _ => False) s (s.chargeCurrent p cpu) := by
  unfold CgSched.chargeCurrent
  split
  · exact ⟨sound, .refl s⟩
  · next c _ =>
    obtain ⟨sound₁, leaves₁⟩ := Leaves.eevdfCharge sound cpu c
    obtain ⟨sound₂, leaves₂⟩ := Leaves.accountGroup sound₁ inside c
    exact ⟨sound₂, (leaves₁.mono fun u => False.elim).trans leaves₂⟩

theorem chosen_chargeCurrent (inside : cpu < p.nrCpus) {n : Nat}
    (chosen : (s.sched.tasks n).onRq = false ∧ (s.sched.tasks n).dispatching = true) :
    ((s.chargeCurrent p cpu).sched.tasks n).onRq = false ∧
      ((s.chargeCurrent p cpu).sched.tasks n).dispatching = true := by
  unfold CgSched.chargeCurrent
  split
  · exact chosen
  · next c _ =>
    obtain ⟨sound₁, leaves⟩ := Leaves.eevdfCharge sound cpu c
    refine stable_chosen.accountGroup (fun _ chosen => chosen) sound₁ inside ?_ c
    by_cases same : n = c
    · subst same
      obtain ⟨⟨fair, last⟩, -⟩ := s.eevdfCharge_kept p cpu n
      rw [last]
      exact chosen
    · exact stable_chosen.linkwise _ _ chosen (leaves.sched.spared n same)

/-- After the charge a switch leaves alone all but the two tasks. -/
theorem Keeps.contextSwitch (inside : cpu < p.nrCpus) {n : Nat}
    (next : n = p.idle cpu ∨
      (s.sched.tasks n).onRq = false ∧ (s.sched.tasks n).dispatching = true)
    (stack : (s.sched.tasks n).kstack = true) :
    Sched.Sound p (s.contextSwitch p cpu n).sched ∧
      Keeps (fun u => u ≠ n ∧ s.sched.current cpu ≠ some u) (s.chargeCurrent p cpu)
        (s.contextSwitch p cpu n) := by
  obtain ⟨sound₁, leaves₁⟩ := Leaves.chargeCurrent sound inside
  have off : ((s.chargeCurrent p cpu).sched.tasks n).onRq = false := by
    rcases next with idle | chosen
    · exact ((sound₁.tasks n).2 cpu inside idle).2
    · exact (chosen_chargeCurrent sound inside chosen).1
  have current := congrFun leaves₁.current cpu
  unfold CgSched.contextSwitch
  rw [if_pos stack]
  generalize s.chargeCurrent p cpu = s₁ at sound₁ off current
  have started : Sched.Alters p n s₁.sched
      (s₁.sched.modify n fun task => { task with cgCpuStart := s₁.now.toNat }) :=
    sound₁.touch ⟨rfl, rfl, rfl, rfl, rfl⟩ ⟨rfl, rfl⟩ ⟨rfl, rfl, rfl, rfl⟩
  obtain ⟨sound₂, spares₂⟩ := started.1.switchTo inside (by rw [Sched.modify_self]; exact off)
  refine ⟨sound₂, (started.2.mono fun u aside => aside.1).trans (spares₂.mono fun u aside => ?_),
    rfl, fun _ => rfl⟩
  refine ⟨aside.1, ?_⟩
  rw [← current] at aside
  exact aside.2

end

theorem Resting.chargeCurrent (good : Good p s) (inside : cpu < p.nrCpus) (resting : s.Resting t g)
    (past : (s.groups g).Elapsed s.now) (off : s.sched.current cpu ≠ some t) :
    (s.chargeCurrent p cpu).Back t ↔
      (∃ c, s.sched.current cpu = some c ∧ s.Lifts c g) ∧ s.Heeds t g := by
  unfold CgSched.chargeCurrent
  cases running : s.sched.current cpu with
  | none =>
    refine iff_of_false resting.not_back ?_
    rintro ⟨⟨c, some_, -⟩, -⟩
    cases some_
  | some c =>
    have other : c ≠ t := by
      rintro rfl
      exact off running
    obtain ⟨sound₁, leaves⟩ := Leaves.eevdfCharge good.sound cpu c
    have good₁ := good.keeps leaves.toKeeps sound₁
    have left := leaves.aside other
    obtain ⟨⟨fair, task⟩, groups, now, ticks⟩ := s.eevdfCharge_kept p cpu c
    have past₁ : ((s.eevdfCharge p cpu c).groups g).Elapsed (s.eevdfCharge p cpu c).now := by
      rw [groups, now]
      exact past
    have lifts : (s.eevdfCharge p cpu c).Lifts c g ↔ s.Lifts c g := by
      unfold Lifts elapsedNs
      rw [groups, now, ticks, task]
    rw [(resting.leaves left).accountGroup good₁ inside past₁ other, lifts, left.heeds]
    refine and_congr_left' ⟨fun lifts => ⟨c, rfl, lifts⟩, ?_⟩
    rintro ⟨d, ⟨⟩, lifts⟩
    exact lifts

/-! ### Runs -/

/-- The choice of the next task. -/
theorem Leaves.chosen {next : Option Nat} (targets : Sched.Targets p cpu s.sched sched next)
    (n : Nat) :
    Leaves (fun u => (s.sched.tasks u).onRq = false ∧ s.sched.current cpu ≠ some u) s
      (s.chosen p cpu sched n) :=
  ⟨⟨targets.spares, rfl, fun _ => rfl⟩, fun _ _ => rfl, targets.current⟩

theorem Good.schedPass (good : Good p s) (inside : cpu < p.nrCpus) (locked : List Nat) :
    ∃ s', s.schedPass p cpu locked = some s' ∧ Good p s' := by
  obtain ⟨sched, next, found, targets⟩ := good.sound.schedTarget cpu locked
  unfold CgSched.schedPass
  rw [found, map_some]
  cases next with
  | none =>
    have keeps : Keeps _ s { s with sched } := ⟨targets.spares, rfl, fun _ => rfl⟩
    exact ⟨_, rfl, good.keeps keeps targets.sound⟩
  | some n =>
    refine ⟨_, rfl, ?_⟩
    have good₁ : Good p (s.chosen p cpu sched n) :=
      good.keeps (Leaves.chosen targets n).toKeeps targets.sound
    by_cases stack : (sched.tasks n).kstack = true
    · have next := (targets.next n rfl).imp_right fun picked => picked.2
      obtain ⟨sound₁, leaves₁⟩ := Leaves.chargeCurrent good₁.sound inside
      obtain ⟨sound₂, keeps₂⟩ := Keeps.contextSwitch good₁.sound inside next stack
      exact (good₁.keeps leaves₁.toKeeps sound₁).keeps keeps₂ sound₂
    · have stays : (s.chosen p cpu sched n).contextSwitch p cpu n = _ := if_neg stack
      dsimp only
      rw [stays]
      exact good₁

theorem runs_eq_some {c : Nat} (runs : s.runs p cpu = some c) :
    (∀ i < p.nrCpus, c ≠ p.idle i) ∧ (s.sched.tasks c).onCpu = true := by
  unfold CgSched.runs at runs
  rw [filter_eq_some_iff] at runs
  have task := of_decide_eq_true runs.2
  exact ⟨task.1, task.2.2.1⟩

theorem Good.step (good : Good p s) {label : CgLabel} (taken : s.step p label = some s') :
    Good p s' := by
  cases label with
  | enqueue here t =>
    obtain ⟨inside, ⟨⟩⟩ := ite_none_right_eq_some.mp taken
    obtain ⟨sound, spares⟩ := good.sound.procRunqEnqueue inside t
    exact good.keeps ⟨spares, rfl, fun _ => rfl⟩ sound
  | makeReady here t =>
    obtain ⟨⟨inside, awake⟩, ⟨⟩⟩ := ite_none_right_eq_some.mp taken
    obtain ⟨sound, leaves⟩ := Leaves.procMakeReady good.sound inside awake
    exact good.keeps leaves.toKeeps sound
  | yield cpu =>
    obtain ⟨inside, found⟩ := ite_none_right_eq_some.mp taken
    obtain ⟨c, runs, ⟨⟩⟩ := map_eq_some_iff.mp found
    obtain ⟨awake, on⟩ := runs_eq_some runs
    obtain ⟨sound₁, leaves₁⟩ := Leaves.eevdfCharge good.sound cpu c
    have idle : ((s.eevdfCharge p cpu c).sched.tasks c).onRq = true →
        cpu = ((s.eevdfCharge p cpu c).sched.tasks c).cpuId := by
      intro queued
      have left := (sound₁.tasks c).1 queued
      obtain ⟨⟨fair, task⟩, -⟩ := s.eevdfCharge_kept p cpu c
      rw [task] at left
      rw [on] at left
      cases left
    obtain ⟨ready, leaves₂⟩ := Leads.modify (setReady sound₁ awake idle)
    exact (good.keeps leaves₁.toKeeps sound₁).keeps leaves₂.toKeeps ready
  | leave cpu state =>
    obtain ⟨-, found⟩ := ite_none_right_eq_some.mp taken
    obtain ⟨c, runs, ⟨⟩⟩ := map_eq_some_iff.mp found
    obtain ⟨awake, on⟩ := runs_eq_some runs
    obtain ⟨left, leaves⟩ : Leads p (· ≠ c) s (s.modify c fun task => { task with state }) :=
      .modify (good.sound.modify
        (good.sound.inv.modify ⟨rfl, rfl, rfl, rfl, rfl⟩ fun _ => ⟨rfl, rfl⟩)
        ⟨⟨(good.sound.tasks c).1, fun i inside idle => absurd idle (awake i inside)⟩, rfl, rfl⟩)
    exact good.keeps leaves.toKeeps left
  | sched cpu locked =>
    obtain ⟨inside, found⟩ := ite_none_right_eq_some.mp taken
    obtain ⟨s₁, passed, good₁⟩ := good.schedPass inside locked
    rw [passed] at found
    cases found
    exact good₁
  | advance | park =>
    cases taken
    exact { good with }
  | limit g quota period =>
    cases taken
    have keeps : Keeps (fun _ => False) s { s with
        groups := Function.update s.groups g { s.groups g with quota, period } } :=
      ⟨.refl _, rfl, pids_update s rfl⟩
    exact good.keeps keeps good.sound

/-- No task is queued, the idle tasks run and are in no group, and the tasks of the groups are
listed there. -/
structure Boot (p : SchedParams) (s : CgSched) : Prop extends Listed s where
  sched : Sched.Boot s.sched
  idle : ∀ cpu < p.nrCpus, (s.sched.tasks (p.idle cpu)).cgroup = none ∧
    (s.sched.tasks (p.idle cpu)).state = .running

theorem Boot.good (boot : Boot p s) : Good p s := by
  refine ⟨boot.toListed, ⟨boot.sched.inv, fun t => ⟨fun on => ?_, fun cpu inside idle => ?_⟩⟩,
    fun cpu inside => (boot.idle cpu inside).1⟩
  · rw [boot.sched.off] at on
    cases on
  · rw [idle]
    exact ⟨(boot.idle cpu inside).2, boot.sched.off _⟩

/-- The pass switches away from a task of the group, and charging it lets the group go. -/
def Unthrottles (p : SchedParams) (s : CgSched) (cpu : Nat) (locked : List Nat) (g : Nat) : Prop :=
  ∃ sched next, s.sched.schedTarget p cpu locked = some (sched, some next) ∧
    (sched.tasks next).kstack = true ∧
    ∃ c, sched.current cpu = some c ∧ { s with sched }.Lifts c g

/-- **Which passes bring a throttled task back.** In every run, when a task that exists is ready
and nowhere, as one that a pick has dropped is, and its group's period has elapsed, a scheduling
pass on any processor that does not run the task makes it ready again exactly if it unthrottles
the group and the task heeds this. -/
theorem run_unthrottle {s₀ : CgSched} (boot : Boot p s₀) (run : RunsTo (step p) always s₀ s)
    (resting : s.Resting t g) (past : (s.groups g).Elapsed s.now) (inside : cpu < p.nrCpus)
    (off : s.sched.current cpu ≠ some t) (locked : List Nat) :
    ∃ s', s.step p (.sched cpu locked) = some s' ∧
      (s'.Back t ↔ s.Unthrottles p cpu locked g ∧ s.Heeds t g) := by
  have good : Good p s := run.invariant (fun good _ taken => Good.step good taken) boot.good
  obtain ⟨sched, next, found, targets⟩ := good.sound.schedTarget cpu locked
  have aside : ∀ u, u = t → (s.sched.tasks u).onRq = false ∧ s.sched.current cpu ≠ some u := by
    rintro u rfl
    exact ⟨resting.task.off, off⟩
  rw [CgSched.step, if_pos inside]
  unfold CgSched.schedPass Unthrottles
  rw [found, map_some]
  cases next with
  | none =>
    -- the current task goes on
    refine ⟨_, rfl, iff_of_false ?_ ?_⟩
    · have left : Leaves (· = t) s { s with sched } :=
        ⟨⟨targets.spares.mono aside, rfl, fun _ => rfl⟩, fun _ _ => rfl, targets.current⟩
      exact (resting.leaves left).not_back
    · rintro ⟨⟨_, _, same, -⟩, -⟩
      cases same
  | some n =>
    refine ⟨_, rfl, ?_⟩
    have leaves := (Leaves.chosen targets n).mono aside
    have good₁ : Good p (s.chosen p cpu sched n) :=
      good.keeps leaves.toKeeps targets.sound
    have resting₁ := resting.leaves leaves
    have off₁ : (s.chosen p cpu sched n).sched.current cpu ≠ some t := by
      rw [leaves.current]
      exact off
    by_cases stack : (sched.tasks n).kstack = true
    · have next := (targets.next n rfl).imp_right fun picked => picked.2
      obtain ⟨-, keeps⟩ := Keeps.contextSwitch good₁.sound inside next stack
      have apart : t ≠ n := by
        rintro rfl
        rcases targets.next t rfl with idle | ⟨on, -⟩
        · have group := resting.group
          rw [idle, good.idle cpu inside] at group
          cases group
        · rw [resting.task.off] at on
          cases on
      have same := keeps.sched.spared t ⟨apart, off₁⟩
      rw [back_congr same, resting₁.chargeCurrent good₁ inside past off₁, leaves.heeds]
      refine and_congr_left' ⟨fun lifted => ⟨sched, n, rfl, stack, lifted⟩, ?_⟩
      rintro ⟨_, _, ⟨⟩, -, lifted⟩
      exact lifted
    · have stays : (s.chosen p cpu sched n).contextSwitch p cpu n = _ := if_neg stack
      dsimp only
      rw [stays]
      refine iff_of_false resting₁.not_back ?_
      rintro ⟨⟨_, _, ⟨⟩, has, -⟩, -⟩
      exact stack has

/-- Task 5 of group 0 runs on processor 0 and task 7 of the group on processor 1; task 6 is in no
group. The quota is a millisecond. -/
def threeTasks : CgSched where
  sched :=
    { tasks := fun t =>
        if t = 5 ∨ t = 7 then
          { pid := t, state := .running, onCpu := true, ownerCpu := some (t / 7), cpuId := t / 7,
            cgroup := some 0, cgCpuStart := 1, refs := 2 }
        else if t = 6 then { pid := 6 }
        else { pid := 0, state := .running }
      current := fun cpu => if cpu = 0 then some 5 else if cpu = 1 then some 7 else none }
  groups := fun g => if g = 0 then { quota := 1000000, pids := [5, 7] } else {}
  pidTable := fun pid => if pid = 5 ∨ pid = 6 ∨ pid = 7 then some pid else none

theorem boot_threeTasks : Boot Sched.twoCpus threeTasks := by
  have found : ∀ pid t, threeTasks.pidTable pid = some t →
      t = pid ∧ (t = 5 ∨ t = 6 ∨ t = 7) := by
    intro pid t there
    obtain ⟨one, ⟨⟩⟩ := ite_none_right_eq_some.mp there
    exact ⟨rfl, one⟩
  refine ⟨⟨fun pid t there => ?_, fun t there g => ?_⟩, ⟨fun t => ?_, rfl⟩, fun cpu inside => ?_⟩
  · obtain ⟨rfl, rfl | rfl | rfl⟩ := found pid t there <;> rfl
  · obtain ⟨-, rfl | rfl | rfl⟩ := found _ t there
    all_goals
      by_cases first : g = 0
      · subst first
        decide
      · simp [threeTasks, first, Ne.symm first]
  · unfold threeTasks
    dsimp only
    split
    · rfl
    · split <;> rfl
  · have two : cpu = 0 ∨ cpu = 1 := by
      have : cpu < 2 := inside
      omega
    rcases two with rfl | rfl <;> exact ⟨rfl, rfl⟩

/-- **Picks.** In every run no queued task runs, and a pick on any processor returns. The task it
picks was queued and is taken off, and tasks in no queue are left alone. -/
theorem run_picks {s₀ : CgSched} (boot : Boot p s₀) (run : RunsTo (step p) always s₀ s) (cpu : Nat)
    (locked : List Nat) :
    (∀ t, (s.sched.tasks t).onRq = true → (s.sched.tasks t).onCpu = false) ∧
      ∃ sched picked, s.sched.procRunqPickLocal p cpu locked = some (sched, picked) ∧
        Sched.Picks p s.sched sched picked := by
  have good : Good p s := run.invariant (fun good _ taken => Good.step good taken) boot.good
  exact ⟨fun t => (good.sound.tasks t).1, good.sound.procRunqPickLocal cpu locked⟩

theorem run_picks_threeTasks : ∃ s sched, threeTasks.step Sched.twoCpus (.enqueue 0 6) = some s ∧
    s.sched.procRunqPickLocal Sched.twoCpus 0 [] = some (sched, some 6) ∧
      Sched.Picks Sched.twoCpus s.sched sched (some 6) := by
  obtain ⟨s, queued, six⟩ : ∃ s, threeTasks.step Sched.twoCpus (.enqueue 0 6) = some s ∧
      (s.sched.procRunqPickLocal Sched.twoCpus 0 []).map Prod.snd = some (some 6) :=
    eq_some_of_any (by decide)
  obtain ⟨sched, picked, found, picks⟩ :=
    (run_picks boot_threeTasks (.tail (a := .enqueue 0 6) .refl trivial queued) 0 []).2
  rw [found] at six
  cases six
  exact ⟨s, sched, queued, found, picks⟩

/-- Processor 0 switches from task 5 to task 6, which marks task 5; the next pass drops it. -/
def dropFive : List CgLabel :=
  [.enqueue 0 6, .advance 100000, .yield 0, .sched 0 [], .yield 0, .sched 0 []]

/-- The task has been dropped because it is marked, and the period of its group has elapsed. -/
def Overdue (p : SchedParams) (s : CgSched) (t g : Nat) : Prop :=
  (s.sched.tasks t).cgThrottled = true ∧ s.Resting t g ∧ (s.groups g).Elapsed s.now ∧
    ∀ cpu < p.nrCpus, s.sched.current cpu ≠ some t

instance (task : SchedTask) : Decidable (RestingTask task) :=
  decidable_of_iff' _ (restingTask_iff task)

instance (s : CgSched) (t g : Nat) : Decidable (s.Resting t g) :=
  decidable_of_iff' _ (s.resting_iff t g)

instance (p : SchedParams) (s : CgSched) (t g : Nat) : Decidable (s.Overdue p t g) :=
  inferInstanceAs (Decidable (_ ∧ _))

instance (s : CgSched) (c g : Nat) : Decidable (s.Lifts c g) :=
  inferInstanceAs (Decidable (_ ∧ _))

instance (s : CgSched) (t : Nat) : Decidable (s.Back t) :=
  inferInstanceAs (Decidable (_ ∧ _))

instance (s : CgSched) (t g : Nat) : Decidable (s.Heeds t g) :=
  inferInstanceAs (Decidable (Park.Heeds ..))

/-- When the quota is lifted, the next pass that switches away from task 7 brings task 5 back. -/
theorem run_unthrottle_lifted : ∃ s s',
    exec (step Sched.twoCpus) threeTasks (dropFive ++
      [.advance 100000000, .limit 0 cgCpuQuotaMax 100000000, .leave 1 .blocked]) = some s ∧
    s.step Sched.twoCpus (.sched 1 []) = some s' ∧ s'.Back 5 := by
  obtain ⟨s, reached, ⟨-, resting, past, off⟩, heeds, target⟩ : ∃ s,
      exec (step Sched.twoCpus) threeTasks (dropFive ++
        [.advance 100000000, .limit 0 cgCpuQuotaMax 100000000, .leave 1 .blocked]) = some s ∧
      s.Overdue Sched.twoCpus 5 0 ∧ s.Heeds 5 0 ∧
      (s.sched.schedTarget Sched.twoCpus 1 []).any (fun target =>
        target.2 = some 1 ∧ (target.1.tasks 1).kstack ∧ target.1.current 1 = some 7 ∧
          { s with sched := target.1 }.Lifts 7 0) = true :=
    eq_some_of_any (by decide +kernel)
  obtain ⟨⟨sched, next⟩, found, rfl, stack, running, lifts⟩ := eq_some_of_any target
  have inside : 1 < Sched.twoCpus.nrCpus := by decide
  obtain ⟨s', passed, back⟩ := run_unthrottle boot_threeTasks (exec_runsTo reached) resting past
    inside (off 1 inside) []
  exact ⟨s, s', reached, passed, back.mpr ⟨⟨sched, 1, found, stack, 7, running, lifts⟩, heeds⟩⟩

/-- With a quota, no pass does: neither one of task 6, nor the one that switches away from task
7, which is of the same group. -/
theorem run_unthrottle_never : ∃ s,
    exec (step Sched.twoCpus) threeTasks (dropFive ++ [.advance 100000000]) = some s ∧
    s.Overdue Sched.twoCpus 5 0 ∧
    (exec (step Sched.twoCpus) s [.sched 0 []]).any (fun s' => ¬ s'.Back 5) ∧
    (exec (step Sched.twoCpus) s [.yield 0, .sched 0 []]).any (fun s' => ¬ s'.Back 5) ∧
    (exec (step Sched.twoCpus) s [.leave 1 .blocked, .sched 1 []]).any (fun s' => ¬ s'.Back 5) :=
  eq_some_of_any (by decide +kernel)

end CgSched

end A20OS.Proc
