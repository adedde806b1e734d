import A20OS.Lib.Machine
import A20OS.Proc.Park
import Mathlib.Data.List.Nodup

/-!
The wait protocol of one task (`kernel/proc/park.c`), with its deadlines.

The steps are the critical sections of the task's park lock: the task prepares, cancels, commits
and finishes its waits; wakers try to wake it with the number they were told; the timer scan
collects its timer and wakes it later; another task may hand its processor over.

Sequence numbers skip zero and come round after `2 ^ 64 - 1` waits. The state keeps the waits
opened so far: a wait is won at most once (`Inv.once`), and a number is not used again before it
comes round (`issued_nodup`).
-/

namespace A20OS.Proc

open Lib List

/-! ### The task -/

/-- `proc_state_t`. -/
inductive TaskState where
  | unused | ready | running | blocked | stopped | zombie
deriving DecidableEq, Repr

abbrev Seq := BitVec 64

/-- `wait_seq++`, once more when that is zero. -/
def nextSeq (seq : Seq) : Seq := if seq + 1 = 0 then seq + 1 + 1 else seq + 1

/-- `wait_timer_t` of a task. -/
structure WaitTimer where
  deadline : Nat
  seq : Seq
deriving DecidableEq

/-- The fields of `task_t` that waits use; `waitTimer` is the entry in the timer heap
that `wait_timer_index` points at. -/
structure ParkTask where
  state : TaskState := .running
  parkState : ParkState := .idle
  waitSeq : Seq := 0
  waitDeadline : Nat := 0
  wakeTime : Nat := 0
  waitMode : WaitMode := .uninterruptible
  wakeReason : WakeReason := .none
  waitTimer : Option WaitTimer := none
deriving DecidableEq

/-- `proc_park_prepare_error_t`. -/
inductive PrepareError where
  | invalid | timeoutCapacity | timeoutDuplicate | timeoutRef
deriving DecidableEq, Repr

/-- What a prepare finds: the timer heap, and signals or an exit that are pending. -/
structure PrepareEnv where
  heapFull : Bool := false
  refFailed : Bool := false
  exitPending : Bool := false
  hasFatal : Bool := false
  hasUnblocked : Bool := false
deriving DecidableEq

/-- The wake a prepare makes itself, for what was pending before it. -/
def PrepareEnv.pendingReason (env : PrepareEnv) (mode : WaitMode) : Option WakeReason :=
  if env.exitPending ∧ mode ≠ .uninterruptible then some .taskExit
  else
    match mode with
    | .killable => if env.hasFatal then some .fatalSignal else none
    | .interruptible =>
        if env.hasFatal then some .fatalSignal
        else if env.hasUnblocked then some .signal
        else none
    | .uninterruptible => none

namespace ParkTask

variable (t : ParkTask)

/-- `proc_wait_timer_cancel`. -/
def waitTimerCancel (seq : Seq) : ParkTask :=
  match t.waitTimer with
  | some timer => if timer.seq ≠ seq then t else { t with waitTimer := none, wakeTime := 0 }
  | none => t

/-- `proc_wait_timer_register`. -/
def waitTimerRegister (deadline : Nat) (env : PrepareEnv) : ParkTask × Option PrepareError :=
  if deadline = 0 ∨ t.waitSeq = 0 then (t, some .invalid)
  else if t.waitTimer.isSome then (t, some .timeoutDuplicate)
  else if env.heapFull then (t, some .timeoutCapacity)
  else if env.refFailed then (t, some .timeoutRef)
  else ({ t with waitTimer := some ⟨deadline, t.waitSeq⟩, wakeTime := deadline }, none)

/-- A wait without a deadline has no timer. -/
def armTimer (deadline : Nat) (env : PrepareEnv) : ParkTask × Option PrepareError :=
  if deadline ≠ 0 then t.waitTimerRegister deadline env else (t, none)

/-- The fields a wake writes. -/
def woken (reason : WakeReason) : ParkTask :=
  { t with parkState := .woken, wakeReason := reason, waitDeadline := 0, wakeTime := 0 }

/-- `proc_try_wake_locked_common`, and whether the wake won. -/
def tryWake (seq : Seq) (reason : WakeReason) : ParkTask × Bool :=
  if seq = 0 ∨ t.waitSeq ≠ seq ∨ t.state = .unused ∨ t.state = .zombie then (t, false)
  else if reason = .signal ∧ t.waitMode ≠ .interruptible then (t, false)
  else if (reason = .fatalSignal ∨ reason = .taskExit) ∧ t.waitMode = .uninterruptible then
    (t, false)
  else
    match t.parkState with
    | .preparing => ((t.waitTimerCancel seq).woken reason, true)
    | .parked => ({ (t.waitTimerCancel seq).woken reason with state := .ready }, true)
    | .idle | .woken => (t, false)

/-- The fields a prepare writes before it registers a timer. -/
def openWait (mode : WaitMode) (deadline : Nat) : ParkTask :=
  { t with
    waitSeq := nextSeq t.waitSeq, waitDeadline := deadline, waitMode := mode
    wakeReason := .none, parkState := .preparing }

/-- The fields a prepare resets when the timer could not be registered. -/
def undoWait : ParkTask :=
  { t with
    waitDeadline := 0, wakeTime := 0, wakeReason := .none, waitMode := .uninterruptible
    parkState := .idle }

/-- `proc_park_prepare_locked`. -/
def prepare (mode : WaitMode) (deadline : Nat) (env : PrepareEnv) :
    ParkTask × Except PrepareError Seq :=
  if t.state = .unused ∨ t.state = .zombie then (t, .error .invalid)
  else if t.parkState ≠ .idle then (t, .error .invalid)
  else
    match (t.openWait mode deadline).armTimer deadline env with
    | (t, some e) => (t.undoWait, .error e)
    | (t, none) =>
        match env.pendingReason mode with
        | some reason => ((t.tryWake t.waitSeq reason).1, .ok t.waitSeq)
        | none => (t, .ok t.waitSeq)

/-- `proc_park_cancel`; `current` says whether the caller is the task itself. -/
def cancel (current : Bool) (seq : Seq) : ParkTask × Bool :=
  if seq = 0 then (t, false)
  else if current ∧ t.waitSeq = seq ∧ t.parkState = .preparing then
    ((t.waitTimerCancel seq).woken .cancel, true)
  else (t, false)

/-- `proc_park_commit` up to `sched()`, which it reaches when the result is `none`;
otherwise it returns the reason. -/
def commit (current : Bool) (seq : Seq) : ParkTask × Option WakeReason :=
  if seq = 0 then (t, some .cancel)
  else if ¬current ∨ t.waitSeq ≠ seq then (t, some .cancel)
  else if t.parkState = .woken then (t, some t.wakeReason)
  else if t.parkState ≠ .preparing then (t, some .cancel)
  else ({ t with parkState := .parked, state := .blocked }, none)

/-- `proc_park_finish`. -/
def finish (seq : Seq) : ParkTask :=
  if seq = 0 then t
  else if t.waitSeq ≠ seq then t
  else if t.parkState ≠ .woken then t
  else (t.waitTimerCancel seq).undoWait

/-- The wake of the task that `proc_park_commit_donate` hands the processor to. -/
def donate : ParkTask × Bool :=
  if t.parkState = .parked ∧ t.state = .blocked then
    ({ (t.waitTimerCancel t.waitSeq).woken .event with state := .ready }, true)
  else (t, false)

/-- `proc_destroy` on the task: it is unused and its timer is gone. -/
def destroy : ParkTask := { t.waitTimerCancel t.waitSeq with state := .unused }

end ParkTask

/-! ### The system -/

/-- A wait that was opened, and the wakes that won it, the last one first. -/
structure Wait where
  seq : Seq
  wakes : List WakeReason
deriving DecidableEq

/-- The task, the timers that are due and whose wake is still to come, and the waits
opened so far, the last one first. -/
structure ParkSys where
  task : ParkTask := {}
  expired : List Seq := []
  waits : List Wait := []
deriving DecidableEq

/-- The wake won the last wait that was opened under the number. -/
def credit (seq : Seq) (reason : WakeReason) : List Wait → List Wait
  | [] => []
  | w :: ws =>
      if w.seq = seq then { w with wakes := reason :: w.wakes } :: ws else w :: credit seq reason ws

/-- All wakes that won a wait under the number. -/
def wakesOf (seq : Seq) (waits : List Wait) : List WakeReason :=
  (waits.filter fun w => w.seq = seq).flatMap Wait.wakes

namespace ParkSys

inductive Label where
  | prepare (mode : WaitMode) (deadline : Nat) (env : PrepareEnv)
  | tryWake (seq : Seq) (reason : WakeReason)
  | interruptWait (reason : WakeReason)
  | cancel (current : Bool) (seq : Seq)
  | commit (current : Bool) (seq : Seq)
  | finish (seq : Seq)
  | expire (now : Nat)
  | timeout (seq : Seq)
  | donate
  | scheduled (state : TaskState)
  | destroy

/-- A wake, and whom it is credited to. -/
def wake (s : ParkSys) (seq : Seq) (reason : WakeReason) : ParkSys :=
  { s with
    task := (s.task.tryWake seq reason).1
    waits := if (s.task.tryWake seq reason).2 then credit seq reason s.waits else s.waits }

/-- The wait that a prepare opened, if it took a number; the wake it made itself, for
what was pending, is a wake of that wait. -/
def openedWait (old new : ParkTask) : List Wait :=
  if new.waitSeq = old.waitSeq then []
  else [⟨new.waitSeq, if new.parkState = .woken then [new.wakeReason] else []⟩]

/-- The timer scan takes the timer out of the heap when it is due. -/
def expire (s : ParkSys) (now : Nat) : ParkSys :=
  match s.task.waitTimer with
  | some timer =>
      if timer.deadline ≤ now then
        { s with task := { s.task with waitTimer := none }, expired := timer.seq :: s.expired }
      else s
  | none => s

def step (s : ParkSys) : Label → Option ParkSys
  | .prepare mode deadline env =>
      some { s with
        task := (s.task.prepare mode deadline env).1
        waits := openedWait s.task (s.task.prepare mode deadline env).1 ++ s.waits }
  | .tryWake seq reason => some (s.wake seq reason)
  | .interruptWait reason => some (s.wake s.task.waitSeq reason)
  | .cancel current seq => some { s with task := (s.task.cancel current seq).1 }
  | .commit current seq => some { s with task := (s.task.commit current seq).1 }
  | .finish seq => some { s with task := s.task.finish seq }
  | .expire now => some (s.expire now)
  | .timeout seq =>
      if seq ∈ s.expired then
        some { s.wake seq .timeout with expired := s.expired.erase seq }
      else none
  | .donate =>
      some { s with
        task := s.task.donate.1
        waits := if s.task.donate.2 then credit s.task.waitSeq .event s.waits else s.waits }
  | .scheduled state => some { s with task := { s.task with state } }
  | .destroy => some { s with task := s.task.destroy }

end ParkSys

/-! ### What the steps do to a wait -/

namespace ParkTask

/-- A wake may still win the current wait. -/
def Unwoken (t : ParkTask) : Prop := t.parkState = .preparing ∨ t.parkState = .parked

/-- To cancel the timer leaves the wait alone. -/
@[simp] theorem waitTimerCancel_frame (t : ParkTask) (seq : Seq) :
    (t.waitTimerCancel seq).waitSeq = t.waitSeq ∧ (t.waitTimerCancel seq).parkState = t.parkState ∧
      (t.waitTimerCancel seq).wakeReason = t.wakeReason ∧
      (t.waitTimerCancel seq).waitMode = t.waitMode := by
  unfold waitTimerCancel
  split
  · split <;> exact ⟨rfl, rfl, rfl, rfl⟩
  · exact ⟨rfl, rfl, rfl, rfl⟩

/-- The same wait goes on or ends. -/
structure Continues (t t' : ParkTask) : Prop where
  waitSeq : t'.waitSeq = t.waitSeq
  unwoken : t'.Unwoken → t.Unwoken

/-- A wake ended the current wait. -/
structure Won (t t' : ParkTask) (reason : WakeReason) : Prop where
  waiting : t.Unwoken
  waitSeq : t'.waitSeq = t.waitSeq
  woken : t'.parkState = .woken
  reason : t'.wakeReason = reason

theorem Continues.refl (t : ParkTask) : Continues t t := ⟨rfl, id⟩

variable {t : ParkTask} {current : Bool} {seq : Seq}

theorem not_unwoken_of_woken (woken : t.parkState = .woken) : ¬t.Unwoken := by
  unfold Unwoken
  rw [woken]
  rintro (preparing | parked)
  · cases preparing
  · cases parked

theorem not_unwoken_of_idle (idle : t.parkState = .idle) : ¬t.Unwoken := by
  unfold Unwoken
  rw [idle]
  rintro (preparing | parked)
  · cases preparing
  · cases parked

/-- A wake changes nothing, or it carries the current number and ends the wait. -/
theorem tryWake_cases (t : ParkTask) (seq : Seq) (reason : WakeReason) :
    t.tryWake seq reason = (t, false) ∨
      (t.tryWake seq reason).2 = true ∧ seq = t.waitSeq ∧
        Won t (t.tryWake seq reason).1 reason := by
  unfold tryWake
  by_cases stale : seq = 0 ∨ t.waitSeq ≠ seq ∨ t.state = .unused ∨ t.state = .zombie
  · rw [if_pos stale]
    exact .inl rfl
  rw [if_neg stale]
  rw [not_or, not_or, not_not] at stale
  by_cases signal : reason = .signal ∧ t.waitMode ≠ .interruptible
  · rw [if_pos signal]
    exact .inl rfl
  rw [if_neg signal]
  by_cases fatal : (reason = .fatalSignal ∨ reason = .taskExit) ∧ t.waitMode = .uninterruptible
  · rw [if_pos fatal]
    exact .inl rfl
  rw [if_neg fatal]
  cases parkState : t.parkState with
  | idle | woken => exact .inl rfl
  | preparing =>
    exact .inr ⟨rfl, stale.2.1.symm, .inl parkState, (waitTimerCancel_frame t seq).1, rfl, rfl⟩
  | parked =>
    exact .inr ⟨rfl, stale.2.1.symm, .inr parkState, (waitTimerCancel_frame t seq).1, rfl, rfl⟩

theorem tryWake_stale (stale : seq ≠ t.waitSeq) (reason : WakeReason) :
    t.tryWake seq reason = (t, false) := by
  rcases tryWake_cases t seq reason with same | ⟨-, current, -⟩
  · exact same
  · exact absurd current stale

theorem donate_cases (t : ParkTask) :
    t.donate = (t, false) ∨ t.donate.2 = true ∧ Won t t.donate.1 .event := by
  unfold donate
  by_cases parked : t.parkState = .parked ∧ t.state = .blocked
  · rw [if_pos parked]
    exact .inr ⟨rfl, .inr parked.1, (waitTimerCancel_frame t _).1, rfl, rfl⟩
  · rw [if_neg parked]
    exact .inl rfl

theorem cancel_continues : Continues t (t.cancel current seq).1 := by
  unfold cancel
  by_cases none : seq = 0
  · rw [if_pos none]
    exact .refl t
  rw [if_neg none]
  by_cases preparing : current ∧ t.waitSeq = seq ∧ t.parkState = .preparing
  · rw [if_pos preparing]
    exact ⟨(waitTimerCancel_frame t seq).1, fun _ => .inl preparing.2.2⟩
  · rw [if_neg preparing]
    exact .refl t

/-- A commit parks the task, or it returns and changes nothing. -/
theorem commit_cases (t : ParkTask) (current : Bool) (seq : Seq) :
    (∃ reason, t.commit current seq = (t, some reason)) ∨
      t.parkState = .preparing ∧
        t.commit current seq = ({ t with parkState := .parked, state := .blocked }, none) := by
  unfold commit
  by_cases none : seq = 0
  · rw [if_pos none]
    exact .inl ⟨_, rfl⟩
  rw [if_neg none]
  by_cases stale : ¬current ∨ t.waitSeq ≠ seq
  · rw [if_pos stale]
    exact .inl ⟨_, rfl⟩
  rw [if_neg stale]
  by_cases woken : t.parkState = .woken
  · rw [if_pos woken]
    exact .inl ⟨_, rfl⟩
  rw [if_neg woken]
  by_cases preparing : t.parkState = .preparing
  · rw [if_neg (not_not.mpr preparing)]
    exact .inr ⟨preparing, rfl⟩
  · rw [if_pos preparing]
    exact .inl ⟨_, rfl⟩

theorem commit_continues : Continues t (t.commit current seq).1 := by
  rcases commit_cases t current seq with ⟨reason, same⟩ | ⟨preparing, parked⟩
  · rw [same]
    exact .refl t
  · rw [parked]
    exact ⟨rfl, fun _ => .inl preparing⟩

theorem commit_woken (woken : t.parkState = .woken) (started : t.waitSeq ≠ 0) :
    t.commit true t.waitSeq = (t, some t.wakeReason) := by
  unfold commit
  rw [if_neg started, if_neg (by simp), if_pos woken]

theorem finish_continues : Continues t (t.finish seq) := by
  unfold finish
  by_cases none : seq = 0
  · rw [if_pos none]
    exact .refl t
  rw [if_neg none]
  by_cases stale : t.waitSeq ≠ seq
  · rw [if_pos stale]
    exact .refl t
  rw [if_neg stale]
  by_cases waiting : t.parkState ≠ .woken
  · rw [if_pos waiting]
    exact .refl t
  · rw [if_neg waiting]
    exact ⟨(waitTimerCancel_frame t seq).1, fun unwoken => absurd unwoken (not_unwoken_of_idle rfl)⟩

theorem destroy_continues : Continues t t.destroy := by
  refine ⟨(waitTimerCancel_frame t _).1, fun unwoken => ?_⟩
  unfold Unwoken at unwoken ⊢
  rwa [← (waitTimerCancel_frame t t.waitSeq).2.1]

theorem waitSeq_armTimer (t : ParkTask) (deadline : Nat) (env : PrepareEnv) :
    (t.armTimer deadline env).1.waitSeq = t.waitSeq := by
  unfold armTimer waitTimerRegister
  repeat' split
  all_goals rfl

/-- A prepare that takes no number changes nothing; any other takes the next one. -/
theorem prepare_cases (t : ParkTask) (mode : WaitMode) (deadline : Nat) (env : PrepareEnv) :
    t.prepare mode deadline env = (t, .error .invalid) ∨
      (t.prepare mode deadline env).1.waitSeq = nextSeq t.waitSeq := by
  unfold prepare
  by_cases gone : t.state = .unused ∨ t.state = .zombie
  · rw [if_pos gone]
    exact .inl rfl
  rw [if_neg gone]
  by_cases busy : t.parkState ≠ .idle
  · rw [if_pos busy]
    exact .inl rfl
  rw [if_neg busy]
  right
  have opened := waitSeq_armTimer (t.openWait mode deadline) deadline env
  cases armed : (t.openWait mode deadline).armTimer deadline env with
  | mk t' failed =>
    rw [armed] at opened
    cases failed with
    | some e => exact opened
    | none =>
      cases env.pendingReason mode with
      | none => exact opened
      | some reason =>
        rcases tryWake_cases t' t'.waitSeq reason with same | ⟨-, -, won⟩
        · dsimp only
          rw [same]
          exact opened
        · exact won.waitSeq.trans opened

end ParkTask

variable {n : Nat} {s s' : ParkSys} {t : ParkTask} {seq : Seq} {reason : WakeReason}

/-! ### Numbers -/

/-- The number of the `n`-th wait. -/
def seqAt : Nat → Seq
  | 0 => 0
  | n + 1 => nextSeq (seqAt n)

/-- The numbers of the first `n` waits, the last one first. -/
def issued : Nat → List Seq
  | 0 => []
  | n + 1 => seqAt (n + 1) :: issued n

theorem nextSeq_ne (seq : Seq) : nextSeq seq ≠ seq := by
  unfold nextSeq
  split
  · rename_i zero
    rw [zero]
    rintro rfl
    simp at zero
  · simp

theorem ofNat_succ_ne_zero (below : n + 1 < 2 ^ 64) : BitVec.ofNat 64 (n + 1) ≠ 0 := by
  intro zero
  have value := congrArg BitVec.toNat zero
  rw [BitVec.toNat_ofNat, Nat.mod_eq_of_lt below] at value
  exact absurd value (Nat.succ_ne_zero n)

theorem nextSeq_ofNat (below : n + 1 < 2 ^ 64) :
    nextSeq (BitVec.ofNat 64 n) = BitVec.ofNat 64 (n + 1) := by
  have step : BitVec.ofNat 64 n + 1 = BitVec.ofNat 64 (n + 1) := BitVec.ofNat_add_ofNat n 1
  rw [nextSeq, step, if_neg (ofNat_succ_ne_zero below)]

theorem seqAt_eq_ofNat (below : n < 2 ^ 64) : seqAt n = BitVec.ofNat 64 n := by
  induction n with
  | zero => rfl
  | succ n ih => rw [seqAt, ih (Nat.lt_of_succ_lt below), nextSeq_ofNat below]

theorem toNat_seqAt (below : n < 2 ^ 64) : (seqAt n).toNat = n := by
  rw [seqAt_eq_ofNat below, BitVec.toNat_ofNat, Nat.mod_eq_of_lt below]

/-- Before the numbers come round, none is used twice. -/
theorem issued_nodup (below : n < 2 ^ 64) : (issued n).Nodup ∧ ∀ seq ∈ issued n, seq.toNat ≤ n := by
  induction n with
  | zero => exact ⟨nodup_nil, nofun⟩
  | succ n ih =>
    obtain ⟨distinct, bounded⟩ := ih (Nat.lt_of_succ_lt below)
    have latest := toNat_seqAt below
    refine ⟨nodup_cons.mpr ⟨fun again => ?_, distinct⟩, forall_mem_cons.mpr
      ⟨Nat.le_of_eq latest, fun seq earlier => Nat.le_succ_of_le (bounded seq earlier)⟩⟩
    have := bounded _ again
    omega

theorem wakesOf_le_one {waits : List Wait} (distinct : (waits.map Wait.seq).Nodup)
    (once : ∀ w ∈ waits, w.wakes.length ≤ 1) (seq : Seq) : (wakesOf seq waits).length ≤ 1 := by
  -- No two waits were opened under the number.
  have alone : (waits.filter fun w => w.seq = seq).length ≤ 1 := by
    rw [← countP_eq_length_filter]
    have count := nodup_iff_count_le_one.mp distinct seq
    rwa [List.count, List.countP_map] at count
  have once : ∀ w ∈ waits.filter fun w => w.seq = seq, w.wakes.length ≤ 1 := fun w member =>
    once w (mem_of_mem_filter member)
  unfold wakesOf
  generalize (waits.filter fun w => w.seq = seq) = found at alone once
  rcases found with _ | ⟨w, _ | _⟩
  · exact Nat.zero_le 1
  · simpa using once w (.head _)
  · simp at alone

/-! ### The invariant -/

namespace ParkSys

/-- Every wait was won at most once, and the current one not at all while it lasts. -/
structure Inv (s : ParkSys) : Prop where
  once : ∀ w ∈ s.waits, w.wakes.length ≤ 1
  numbers : s.waits.map Wait.seq = issued s.waits.length
  current : s.task.waitSeq = seqAt s.waits.length
  fresh : s.task.Unwoken → ∃ w ws, s.waits = w :: ws ∧ w.wakes = []

theorem init_inv : Inv {} := by
  refine ⟨nofun, rfl, rfl, fun unwoken => ?_⟩
  exact absurd unwoken (ParkTask.not_unwoken_of_idle rfl)

section
variable (inv : s.Inv)
include inv

theorem Inv.continues {task : ParkTask} (expired : List Seq)
    (continues : s.task.Continues task) : Inv { s with task, expired } :=
  ⟨inv.once, inv.numbers, continues.waitSeq.trans inv.current,
    fun unwoken => inv.fresh (continues.unwoken unwoken)⟩

/-- The wake that wins the current wait is its first. -/
theorem Inv.won {task : ParkTask} (expired : List Seq) (won : s.task.Won task reason) :
    Inv { task, expired, waits := credit s.task.waitSeq reason s.waits } := by
  obtain ⟨w, ws, waits, unwon⟩ := inv.fresh won.waiting
  have numbers := inv.numbers
  have current := inv.current
  rw [waits] at numbers current
  have number : w.seq = s.task.waitSeq := by
    rw [current]
    exact (cons.inj numbers).1
  have credited : credit s.task.waitSeq reason s.waits = { w with wakes := [reason] } :: ws := by
    rw [waits, credit, if_pos number, unwon]
  rw [credited]
  refine ⟨?_, numbers, won.waitSeq.trans current,
    fun unwoken => absurd unwoken (ParkTask.not_unwoken_of_woken won.woken)⟩
  have once := inv.once
  rw [waits] at once
  exact forall_mem_cons.mpr ⟨Nat.le_refl 1, (forall_mem_cons.mp once).2⟩

theorem Inv.wake (seq : Seq) (reason : WakeReason)
    (expired : List Seq) : Inv { s.wake seq reason with expired } := by
  unfold ParkSys.wake
  rcases s.task.tryWake_cases seq reason with same | ⟨success, rfl, won⟩
  · rw [same]
    exact inv.continues expired (.refl _)
  · rw [success]
    exact inv.won expired won

theorem Inv.donate :
    Inv { s with
      task := s.task.donate.1
      waits := if s.task.donate.2 then credit s.task.waitSeq .event s.waits else s.waits } := by
  rcases s.task.donate_cases with same | ⟨success, won⟩
  · rw [same]
    exact inv
  · rw [success]
    exact inv.won s.expired won

theorem Inv.prepare (mode : WaitMode) (deadline : Nat) (env : PrepareEnv) :
    Inv { s with
      task := (s.task.prepare mode deadline env).1
      waits := openedWait s.task (s.task.prepare mode deadline env).1 ++ s.waits } := by
  rcases s.task.prepare_cases mode deadline env with same | opened
  · rw [same, openedWait, if_pos rfl]
    exact inv
  generalize (s.task.prepare mode deadline env).1 = task at opened ⊢
  rw [openedWait, if_neg (by rw [opened]; exact nextSeq_ne _)]
  have number : task.waitSeq = seqAt (s.waits.length + 1) := by
    rw [opened, inv.current]
    rfl
  refine ⟨?_, ?_, number, fun unwoken => ⟨_, _, rfl, ?_⟩⟩
  · refine forall_mem_cons.mpr ⟨?_, inv.once⟩
    split
    · exact Nat.le_refl 1
    · exact Nat.zero_le 1
  · change task.waitSeq :: s.waits.map Wait.seq =
      seqAt (s.waits.length + 1) :: issued s.waits.length
    rw [number, inv.numbers]
  · exact if_neg fun woken => ParkTask.not_unwoken_of_woken woken unwoken

theorem Inv.step {a : Label} (taken : s.step a = some s') : s'.Inv := by
  cases a with
  | prepare mode deadline env => cases taken; exact inv.prepare mode deadline env
  | tryWake seq reason => cases taken; exact inv.wake seq reason s.expired
  | interruptWait reason => cases taken; exact inv.wake s.task.waitSeq reason s.expired
  | cancel current seq => cases taken; exact inv.continues _ ParkTask.cancel_continues
  | commit current seq => cases taken; exact inv.continues _ ParkTask.commit_continues
  | finish seq => cases taken; exact inv.continues _ ParkTask.finish_continues
  | expire now =>
    cases taken
    unfold expire
    cases s.task.waitTimer with
    | none => exact inv
    | some timer =>
      dsimp only
      split
      · exact inv.continues _ ⟨rfl, id⟩
      · exact inv
  | timeout seq =>
    rw [ParkSys.step] at taken
    split at taken
    · cases taken
      exact inv.wake seq .timeout _
    · cases taken
  | donate => cases taken; exact inv.donate
  | scheduled state => cases taken; exact inv.continues _ ⟨rfl, id⟩
  | destroy => cases taken; exact inv.continues _ ParkTask.destroy_continues

end

theorem run_inv {ok : ParkSys → Label → Prop} (run : RunsTo step ok {} s) : s.Inv :=
  run.invariant (fun inv _ taken => inv.step taken) init_inv

/-! ### A wake before the commit -/

/-- The task has been woken out of the wait `seq`, for `reason`. -/
structure WokenFrom (seq : Seq) (reason : WakeReason) (t : ParkTask) : Prop where
  waitSeq : t.waitSeq = seq
  woken : t.parkState = .woken
  reason : t.wakeReason = reason

/-- The steps of everyone else, and those of the task until it ends the wait itself. -/
def untilFinished (_ : ParkSys) : Label → Prop
  | .prepare _ _ _ => False
  | .finish _ => False
  | _ => True

theorem WokenFrom.tryWake (woken : WokenFrom seq reason t) (other : Seq) (reason' : WakeReason) :
    t.tryWake other reason' = (t, false) := by
  rcases t.tryWake_cases other reason' with same | ⟨-, -, won⟩
  · exact same
  · exact absurd won.waiting (ParkTask.not_unwoken_of_woken woken.woken)

theorem WokenFrom.step {a : Label} (woken : WokenFrom seq reason s.task) (meets : untilFinished s a)
    (taken : s.step a = some s') : WokenFrom seq reason s'.task := by
  have notPreparing : s.task.parkState ≠ .preparing := by rw [woken.woken]; decide
  cases a with
  | prepare | finish => exact absurd meets id
  | tryWake | interruptWait =>
    cases taken
    rw [wake, woken.tryWake]
    exact woken
  | cancel current other =>
    cases taken
    rw [ParkTask.cancel]
    split
    · exact woken
    · rw [if_neg fun preparing => notPreparing preparing.2.2]
      exact woken
  | commit current other =>
    cases taken
    rcases s.task.commit_cases current other with ⟨_, same⟩ | ⟨preparing, -⟩
    · rw [same]
      exact woken
    · exact absurd preparing notPreparing
  | expire now =>
    cases taken
    unfold expire
    cases s.task.waitTimer with
    | none => exact woken
    | some timer =>
      dsimp only
      split
      · exact { woken with }
      · exact woken
  | timeout other =>
    rw [ParkSys.step] at taken
    split at taken
    · cases taken
      rw [wake, woken.tryWake]
      exact woken
    · cases taken
  | donate =>
    cases taken
    rcases s.task.donate_cases with same | ⟨-, won⟩
    · rw [same]
      exact woken
    · exact absurd won.waiting (ParkTask.not_unwoken_of_woken woken.woken)
  | scheduled state => cases taken; exact { woken with }
  | destroy =>
    cases taken
    obtain ⟨same, state, why, -⟩ := s.task.waitTimerCancel_frame s.task.waitSeq
    exact ⟨same.trans woken.waitSeq, state.trans woken.woken, why.trans woken.reason⟩

/-- A wake that won the wait decides what its commit returns. -/
theorem wake_decides_commit (won : (s.task.tryWake seq reason).2 = true)
    (run : RunsTo step untilFinished (s.wake seq reason) s') :
    s'.task.commit true seq = (s'.task, some reason) ∧ s'.task.parkState ≠ .parked := by
  have first : WokenFrom seq reason (s.wake seq reason).task ∧ seq ≠ 0 := by
    rcases s.task.tryWake_cases seq reason with same | ⟨-, current, woken⟩
    · rw [same] at won
      cases won
    · refine ⟨⟨woken.waitSeq.trans current.symm, woken.woken, woken.reason⟩, ?_⟩
      rintro rfl
      cases won
  have woken : WokenFrom seq reason s'.task :=
    RunsTo.invariant (P := fun s => WokenFrom seq reason s.task)
      (fun woken meets taken => woken.step meets taken) run first.1
  refine ⟨?_, by rw [woken.woken]; decide⟩
  rw [← woken.waitSeq, ← woken.reason]
  exact ParkTask.commit_woken woken.woken (by rw [woken.waitSeq]; exact first.2)

/-! ### The protocol -/

/-- In every run: every wait that was opened has been won by at most one wake, so a
sequence number has been too as long as the numbers have not come round; a wake with a
number other than the current one changes nothing; and after a wake that won the wait
before its commit, the commit returns the reason of the wake and does not park the task,
whatever happens in between. -/
theorem run_protocol {s : ParkSys} (run : RunsTo step always {} s) :
    (∀ w ∈ s.waits, w.wakes.length ≤ 1) ∧
      (s.waits.length < 2 ^ 64 → ∀ seq, (wakesOf seq s.waits).length ≤ 1) ∧
      (∀ seq reason, seq ≠ s.task.waitSeq → s.step (.tryWake seq reason) = some s) ∧
      ∀ seq reason, s.task.parkState = .preparing → (s.task.tryWake seq reason).2 = true →
        ∀ {s'}, RunsTo step untilFinished (s.wake seq reason) s' →
          s'.task.commit true seq = (s'.task, some reason) ∧ s'.task.parkState ≠ .parked := by
  have inv := run_inv run
  refine ⟨inv.once, ?_, ?_, fun seq reason _ won s' later => wake_decides_commit won later⟩
  · intro below
    exact wakesOf_le_one (inv.numbers ▸ (issued_nodup below).1) inv.once
  · intro seq reason stale
    rw [step, wake, ParkTask.tryWake_stale stale]
    rfl

theorem run_protocol_woken_early :
    ∃ s, RunsTo step always {} s ∧ s.task.parkState = .preparing ∧
      (s.wake 1 .event).task.commit true 1 = ((s.wake 1 .event).task, some .event) := by
  obtain ⟨s, run, preparing, won⟩ : ∃ s, RunsTo step always {} s ∧
      s.task.parkState = .preparing ∧ (s.task.tryWake 1 .event).2 = true :=
    runsTo_of_exec [.prepare .interruptible 50 {}] (by decide)
  exact ⟨s, run, preparing, ((run_protocol run).2.2.2 1 .event preparing won .refl).1⟩

/-! ### Numbers come round -/

/-- A task that is not waiting, after the wait `seq`. -/
def idleAfter (seq : Seq) : ParkTask := { waitSeq := seq }

/-- A wait that is woken by an event before it commits. -/
theorem quickWait (s : ParkSys) (seq : Seq) (idle : s.task = idleAfter seq)
    (nonzero : nextSeq seq ≠ 0#64) :
    RunsTo step always s
      { s with
        task := idleAfter (nextSeq seq)
        waits := ⟨nextSeq seq, [.event]⟩ :: s.waits } := by
  obtain ⟨task, expired, waits⟩ := s
  cases idle
  have prepared : step ⟨idleAfter seq, expired, waits⟩ (.prepare .uninterruptible 0 {}) =
      some ⟨{ waitSeq := nextSeq seq, parkState := .preparing }, expired,
        ⟨nextSeq seq, []⟩ :: waits⟩ := by
    have opened : (idleAfter seq).prepare .uninterruptible 0 {} =
      ({ waitSeq := nextSeq seq, parkState := .preparing }, .ok (nextSeq seq)) := rfl
    rw [step, opened]
    simp [openedWait, idleAfter, nextSeq_ne]
  have woke : step ⟨{ waitSeq := nextSeq seq, parkState := .preparing }, expired,
      ⟨nextSeq seq, []⟩ :: waits⟩ (.tryWake (nextSeq seq) .event) =
      some ⟨{ waitSeq := nextSeq seq, parkState := .woken, wakeReason := .event }, expired,
        ⟨nextSeq seq, [.event]⟩ :: waits⟩ := by
    simp [step, wake, ParkTask.tryWake, nonzero, ParkTask.waitTimerCancel, ParkTask.woken, credit]
  have finished : step ⟨{ waitSeq := nextSeq seq, parkState := .woken, wakeReason := .event },
      expired, ⟨nextSeq seq, [.event]⟩ :: waits⟩ (.finish (nextSeq seq)) =
      some ⟨idleAfter (nextSeq seq), expired, ⟨nextSeq seq, [.event]⟩ :: waits⟩ := by
    simp [step, ParkTask.finish, nonzero, ParkTask.waitTimerCancel, ParkTask.undoWait, idleAfter]
  exact .head trivial prepared (.head trivial woke (.head trivial finished .refl))

/-- A wait under another number leaves the wakes under a number alone, and one under it
adds to them. -/
theorem wakesOf_cons (seq other : Seq) (waits : List Wait) :
    wakesOf seq (⟨other, [.event]⟩ :: waits) =
      if other = seq then .event :: wakesOf seq waits else wakesOf seq waits := by
  unfold wakesOf
  by_cases same : other = seq <;> simp [same]

/-- Waits are opened and won until the number is `n`. -/
theorem waits_upto (n : Nat) (below : n + 1 < 2 ^ 64) :
    ∃ s, RunsTo step always {} s ∧ s.task = idleAfter (BitVec.ofNat 64 (n + 1)) ∧
      1 ≤ (wakesOf 1 s.waits).length := by
  induction n with
  | zero => exact ⟨_, quickWait {} 0 rfl (by decide), rfl, by decide⟩
  | succ n ih =>
    obtain ⟨s, run, idle, once⟩ := ih (Nat.lt_of_succ_lt below)
    have next := nextSeq_ofNat below
    refine ⟨_, run.trans (quickWait s _ idle (next ▸ ofNat_succ_ne_zero below)),
      congrArg idleAfter next, ?_⟩
    rw [wakesOf_cons]
    split
    · exact Nat.succ_le_succ (Nat.zero_le _)
    · exact once

/-- After `2 ^ 64 - 1` waits the numbers come round: number 1 is won a second time. -/
theorem number_won_twice :
    ∃ s, RunsTo step always {} s ∧ 2 ≤ (wakesOf 1 s.waits).length := by
  obtain ⟨s, run, idle, once⟩ := waits_upto (2 ^ 64 - 2) (by decide)
  have around : nextSeq (BitVec.ofNat 64 (2 ^ 64 - 2 + 1)) = 1 := by decide
  refine ⟨_, run.trans (quickWait s _ idle (by rw [around]; decide)), ?_⟩
  exact Nat.succ_le_succ once

end ParkSys

/-! ### The waits of the channels

Of a task channels see its `Park`, without deadlines and with numbers that do not come
round. A section that is refused or moves only the timer is none to them, and a prepare that
gets no timer is a wait that is cancelled at once (`ops`). -/

/-- The sections of the park lock, to a channel. -/
inductive Park.Op where
  | prepare (mode : WaitMode) (pending : Option WakeReason)
  | tryWake (seq : Nat) (reason : WakeReason)
  | cancel | commit | finish | donate

def Park.step (p : Park) : Op → Option Park
  | .prepare mode pending => p.prepare mode pending
  | .tryWake seq reason => some (p.tryWake seq reason).1
  | .cancel => some p.cancel
  | .commit => some p.commit
  | .finish => some p.finish
  | .donate => if p.state = .parked then some p.donated else none

namespace ParkTask

variable {current : Bool}

/-- What a channel sees of the task. -/
def view (t : ParkTask) : Park where
  state := t.parkState
  waitSeq := t.waitSeq.toNat
  waitMode := t.waitMode
  wakeReason := t.wakeReason

/-- The task is neither unused nor a zombie. -/
abbrev Alive (t : ParkTask) : Prop := ¬(t.state = .unused ∨ t.state = .zombie)

/-- A section of the task itself has to name its wait. -/
def ownOps (t : ParkTask) (current : Bool) (seq : Seq) (op : Park.Op) : List Park.Op :=
  if current ∧ seq ≠ 0 ∧ t.waitSeq = seq then [op] else []

def wakeOps (t : ParkTask) (seq : Seq) (reason : WakeReason) : List Park.Op :=
  if t.Alive then [.tryWake seq.toNat reason] else []

def prepareOps (t : ParkTask) (mode : WaitMode) (deadline : Nat) (env : PrepareEnv) :
    List Park.Op :=
  if t.Alive ∧ t.parkState = .idle then
    match ((t.openWait mode deadline).armTimer deadline env).2 with
    | some _ => [.prepare mode none, .cancel, .finish]
    | none => [.prepare mode (env.pendingReason mode)]
  else []

theorem view_tryWake (alive : t.Alive) (seq : Seq) (reason : WakeReason) :
    ((t.tryWake seq reason).1.view, (t.tryWake seq reason).2) =
      t.view.tryWake seq.toNat reason := by
  have stale : (seq = 0 ∨ t.waitSeq ≠ seq ∨ t.state = .unused ∨ t.state = .zombie) ↔
      (seq.toNat = 0 ∨ t.view.waitSeq ≠ seq.toNat) := by
    have zero : seq = 0 ↔ seq.toNat = 0 := BitVec.toNat_eq
    have same : t.waitSeq = seq ↔ t.waitSeq.toNat = seq.toNat := BitVec.toNat_eq
    simp only [zero, same, ne_eq, view, alive, or_false]
  have seen := apply_ite fun result : ParkTask × Bool => (result.1.view, result.2)
  unfold tryWake Park.tryWake
  refine (seen ..).trans (if_congr stale rfl ?_)
  refine (seen ..).trans (if_congr Iff.rfl rfl ?_)
  refine (seen ..).trans (if_congr Iff.rfl rfl ?_)
  cases parkState : t.parkState <;> simp [Park.unwoken, view, woken, parkState]

theorem exec_wakeOps :
    exec Park.step t.view (t.wakeOps seq reason) = some (t.tryWake seq reason).1.view := by
  unfold wakeOps
  by_cases alive : t.Alive
  · rw [if_pos alive]
    exact congrArg (fun result => some result.1) (view_tryWake alive seq reason).symm
  · rw [if_neg alive, tryWake, if_pos (.inr (.inr (not_not.mp alive)))]
    rfl

theorem exec_cancel :
    exec Park.step t.view (t.ownOps current seq .cancel) = some (t.cancel current seq).1.view := by
  unfold ownOps cancel
  grind [exec, Park.step, Park.cancel, view, woken, waitTimerCancel_frame]

theorem exec_commit :
    exec Park.step t.view (t.ownOps current seq .commit) = some (t.commit current seq).1.view := by
  unfold ownOps commit
  grind [exec, Park.step, Park.commit, view]

theorem exec_finish :
    exec Park.step t.view (t.ownOps true seq .finish) = some (t.finish seq).view := by
  unfold ownOps finish
  grind [exec, Park.step, Park.finish, view, undoWait, waitTimerCancel_frame]

theorem exec_donate :
    exec Park.step t.view (if t.donate.2 then [.donate] else []) = some t.donate.1.view := by
  unfold donate
  by_cases parked : t.parkState = .parked ∧ t.state = .blocked
  · simp [parked, exec, Park.step, Park.donated, view, woken]
  · rw [if_neg parked]
    rfl

theorem armTimer_frame (t : ParkTask) (deadline : Nat) (env : PrepareEnv) :
    (t.armTimer deadline env).1.view = t.view ∧ ((t.armTimer deadline env).1.Alive ↔ t.Alive) := by
  unfold armTimer waitTimerRegister
  repeat' split
  all_goals exact ⟨rfl, Iff.rfl⟩

theorem view_openWait (below : t.waitSeq.toNat + 1 < 2 ^ 64) (idle : t.parkState = .idle)
    (mode : WaitMode) (deadline : Nat) :
    t.view.prepare mode none = some (t.openWait mode deadline).view := by
  have next := nextSeq_ofNat below
  rw [BitVec.ofNat_toNat, BitVec.setWidth_eq] at next
  unfold Park.prepare
  simp only [view, openWait, idle, next, BitVec.toNat_ofNat, Nat.mod_eq_of_lt below]
  rfl

theorem exec_prepareOps (below : t.waitSeq.toNat + 1 < 2 ^ 64) (mode : WaitMode) (deadline : Nat)
    (env : PrepareEnv) :
    exec Park.step t.view (t.prepareOps mode deadline env) =
      some (t.prepare mode deadline env).1.view := by
  unfold prepareOps prepare
  by_cases gone : t.state = .unused ∨ t.state = .zombie
  · rw [if_neg fun opens => opens.1 gone, if_pos gone]
    rfl
  by_cases busy : t.parkState ≠ .idle
  · rw [if_neg fun opens => busy opens.2, if_neg gone, if_pos busy]
    rfl
  have idle := not_not.mp busy
  rw [if_pos ⟨gone, idle⟩, if_neg gone, if_neg busy]
  have opened := view_openWait below idle mode deadline
  obtain ⟨seen, lives⟩ := (t.openWait mode deadline).armTimer_frame deadline env
  rw [← seen] at opened
  generalize (t.openWait mode deadline).armTimer deadline env = armed at seen lives opened ⊢
  obtain ⟨t', none | e⟩ := armed
  · cases env.pendingReason mode with
    | none => exact congrArg (fun p => p.bind some) opened
    | some reason =>
      have pending : t.view.prepare mode (some reason) =
          (t.view.prepare mode none).map fun p => (p.tryWake p.waitSeq reason).1 := by
        unfold Park.prepare
        iterate 2 rw [if_neg (show ¬t.view.state ≠ .idle from busy)]
        rfl
      rw [opened] at pending
      rw [exec, Park.step, pending]
      have woke := view_tryWake (lives.mpr gone) t'.waitSeq reason
      exact congrArg (fun result => some result.1) woke.symm
  · have preparing : t'.view.state = .preparing := congrArg Park.state seen
    have cancelled : t'.view.cancel.finish = t'.undoWait.view := by
      rw [Park.cancel, if_pos preparing]
      rfl
    rw [exec, Park.step, opened, ← cancelled]
    rfl

end ParkTask

namespace ParkSys

/-- What a section is to a channel. -/
def ops (s : ParkSys) : Label → List Park.Op
  | .prepare mode deadline env => s.task.prepareOps mode deadline env
  | .tryWake seq reason => s.task.wakeOps seq reason
  | .interruptWait reason => s.task.wakeOps s.task.waitSeq reason
  | .cancel current seq => s.task.ownOps current seq .cancel
  | .commit current seq => s.task.ownOps current seq .commit
  | .finish seq => s.task.ownOps true seq .finish
  | .timeout seq => s.task.wakeOps seq .timeout
  | .donate => if s.task.donate.2 then [.donate] else []
  | .expire _ | .scheduled _ | .destroy => []

/-- There is a number left. -/
abbrev unwrapped (s : ParkSys) (_ : Label) : Prop := s.waits.length + 1 < 2 ^ 64

theorem Inv.exec_ops {a : Label} (inv : s.Inv) (below : s.unwrapped a)
    (taken : s.step a = some s') :
    exec Park.step s.task.view (s.ops a) = some s'.task.view := by
  cases a with
  | prepare mode deadline env =>
    cases taken
    refine ParkTask.exec_prepareOps ?_ mode deadline env
    rwa [inv.current, toNat_seqAt (Nat.lt_of_succ_lt below)]
  | tryWake | interruptWait => cases taken; exact ParkTask.exec_wakeOps
  | cancel current seq => cases taken; exact ParkTask.exec_cancel
  | commit current seq => cases taken; exact ParkTask.exec_commit
  | finish seq => cases taken; exact ParkTask.exec_finish
  | expire now =>
    cases taken
    unfold expire
    cases s.task.waitTimer with
    | none => rfl
    | some timer => dsimp only; split <;> rfl
  | timeout seq =>
    obtain ⟨-, taken⟩ | ⟨-, ⟨⟩⟩ := ite_eq_iff.mp taken
    cases taken
    exact ParkTask.exec_wakeOps
  | donate => cases taken; exact ParkTask.exec_donate
  | scheduled state => cases taken; rfl
  | destroy =>
    cases taken
    simp [ops, exec, ParkTask.view, ParkTask.destroy]

/-- Until the numbers come round, every run is a run of the `Park` that channels see: each
section does to it what its `ops` do. -/
theorem run_refines (run : RunsTo step unwrapped {} s) :
    RunsTo Park.step always {} s.task.view ∧
      ∀ a s', s.unwrapped a → s.step a = some s' →
        exec Park.step s.task.view (s.ops a) = some s'.task.view := by
  refine ⟨?_, fun a s' below taken => (run_inv run).exec_ops below taken⟩
  induction run with
  | refl => exact .refl
  | tail run below taken seen =>
    exact seen.trans (exec_runsTo ((run_inv run).exec_ops below taken))

theorem run_refines_timeout :
    ∃ s, RunsTo step unwrapped {} s ∧ s.task.wakeReason = .timeout ∧
      RunsTo Park.step always {} s.task.view := by
  obtain ⟨s, run, woken⟩ : ∃ s, RunsTo step unwrapped {} s ∧ s.task.wakeReason = .timeout :=
    runsTo_of_execWhile [.prepare .interruptible 50 {}, .commit true 1, .expire 60, .timeout 1]
      (by decide)
  exact ⟨s, run, woken, (run_refines run).1⟩

end ParkSys

end A20OS.Proc
