import Mathlib.Logic.Basic

/-!
Parking (`kernel/proc/park.c`): how a task goes to sleep without missing a wake.

A task prepares, which opens a wait under a fresh sequence number, publishes itself where wakers
look, and commits. A wake carries the number it was collected under; the first one wins, and a
wake between prepare and commit makes the commit return at once. Each function is one critical
section. `ParkTask` is a waiting task, and `Park` what a channel sees of it (`ParkTask.view`).
-/

namespace A20OS.Proc

/-- `proc_park_state_t`. -/
inductive ParkState where
  | idle | preparing | parked | woken
deriving DecidableEq, Repr

/-- `proc_wake_reason_t`. -/
inductive WakeReason where
  | none | event | timeout | timeoutCapacity | signal | fatalSignal | taskExit | exit | cancel
deriving DecidableEq, Repr

/-- `proc_wait_mode_t`. -/
inductive WaitMode where
  | uninterruptible | interruptible | killable
deriving DecidableEq, Repr

/-- `proc_wake_reason_is_task_interrupt`. -/
def WakeReason.isTaskInterrupt : WakeReason → Bool
  | .signal | .fatalSignal | .taskExit => true
  | .none | .event | .timeout | .timeoutCapacity | .exit | .cancel => false

/-- The park fields of a task. -/
structure Park where
  state : ParkState := .idle
  waitSeq : Nat := 0
  waitMode : WaitMode := .uninterruptible
  wakeReason : WakeReason := .none
deriving DecidableEq

namespace Park

/-- A wake may still win the current wait. -/
def unwoken (p : Park) : Bool := p.state = .preparing ∨ p.state = .parked

/-- The task waits under the sequence number `seq`. -/
def waits (p : Park) (seq : Nat) : Bool := p.waitSeq = seq ∧ p.unwoken

/-- `proc_try_wake_locked_common`, and whether the wake won. -/
def tryWake (p : Park) (seq : Nat) (reason : WakeReason) : Park × Bool :=
  if seq = 0 ∨ p.waitSeq ≠ seq then (p, false)
  else if reason = .signal ∧ p.waitMode ≠ .interruptible then (p, false)
  else if (reason = .fatalSignal ∨ reason = .taskExit) ∧ p.waitMode = .uninterruptible then
    (p, false)
  else if p.unwoken then ({ p with state := .woken, wakeReason := reason }, true)
  else (p, false)

/-- `proc_park_prepare_locked`; `pending` is the signal or exit that was already there. -/
def prepare (p : Park) (mode : WaitMode) (pending : Option WakeReason) : Option Park :=
  if p.state ≠ .idle then none
  else
    let p := { p with
      state := .preparing, waitSeq := p.waitSeq + 1, waitMode := mode, wakeReason := .none }
    match pending with
    | some reason => some (p.tryWake p.waitSeq reason).1
    | none => some p

/-- `proc_park_cancel` for the current wait. -/
def cancel (p : Park) : Park :=
  if p.state = .preparing then { p with state := .woken, wakeReason := .cancel } else p

/-- `proc_park_commit` up to `sched()`: a task that was woken stays awake. -/
def commit (p : Park) : Park := if p.state = .preparing then { p with state := .parked } else p

/-- `proc_park_finish` for the current wait. -/
def finish (p : Park) : Park :=
  if p.state = .woken then
    { p with state := .idle, waitMode := .uninterruptible, wakeReason := .none }
  else p

/-- The wake inside `proc_park_commit_donate`; it checks no sequence number. -/
def donated (p : Park) : Park := { p with state := .woken, wakeReason := .event }

/-! ### What the steps do to a wait -/

/-- The same wait goes on or ends. -/
structure Continues (p p' : Park) : Prop where
  waitSeq : p'.waitSeq = p.waitSeq
  unwoken : p'.unwoken = true → p.unwoken = true

/-- A new wait is opened. -/
def Opens (p p' : Park) : Prop := p'.waitSeq = p.waitSeq + 1

variable {p p' : Park} {seq : Nat}

theorem unwoken_iff : p.unwoken = true ↔ p.state = .preparing ∨ p.state = .parked := by
  simp [unwoken]

theorem waits_iff : p.waits seq = true ↔ p.waitSeq = seq ∧ p.unwoken = true := by
  simp [waits]

/-- A wake moves nothing, or ends the current wait with its reason. -/
theorem tryWake_cases (p : Park) (seq : Nat) (reason : WakeReason) :
    p.tryWake seq reason = (p, false) ∨
      (p.waits seq = true ∧
        p.tryWake seq reason = ({ p with state := .woken, wakeReason := reason }, true)) := by
  unfold tryWake
  by_cases stale : seq = 0 ∨ p.waitSeq ≠ seq
  · rw [if_pos stale]
    exact .inl rfl
  rw [if_neg stale]
  by_cases signal : reason = .signal ∧ p.waitMode ≠ .interruptible
  · rw [if_pos signal]
    exact .inl rfl
  rw [if_neg signal]
  by_cases fatal : (reason = .fatalSignal ∨ reason = .taskExit) ∧ p.waitMode = .uninterruptible
  · rw [if_pos fatal]
    exact .inl rfl
  rw [if_neg fatal]
  by_cases unwoken : p.unwoken = true
  · rw [if_pos unwoken]
    rw [not_or, not_not] at stale
    exact .inr ⟨waits_iff.mpr ⟨stale.2, unwoken⟩, rfl⟩
  · rw [if_neg unwoken]
    exact .inl rfl

/-- An event wins the wait it was collected under. -/
theorem tryWake_event (waits : p.waits seq = true) (started : 0 < seq) :
    p.tryWake seq .event = (p.donated, true) := by
  obtain ⟨current, unwoken⟩ := waits_iff.mp waits
  have fresh : ¬(seq = 0 ∨ p.waitSeq ≠ seq) := by
    rw [not_or, not_not]
    exact ⟨Nat.ne_of_gt started, current⟩
  unfold tryWake
  rw [if_neg fresh, if_neg (by rintro ⟨event, -⟩; cases event),
    if_neg (by rintro ⟨event | event, -⟩ <;> cases event), if_pos unwoken]
  rfl

theorem Continues.refl (p : Park) : Continues p p := ⟨rfl, id⟩

theorem Continues.trans {p₁ p₂ p₃ : Park} (first : Continues p₁ p₂) (second : Continues p₂ p₃) :
    Continues p₁ p₃ :=
  ⟨second.waitSeq.trans first.waitSeq, fun h => first.unwoken (second.unwoken h)⟩

theorem Continues.waits (h : Continues p p') (waits : p'.waits seq = true) :
    p.waits seq = true := by
  rw [waits_iff] at waits ⊢
  exact ⟨h.waitSeq ▸ waits.1, h.unwoken waits.2⟩

theorem prepare_opens {mode : WaitMode} {pending : Option WakeReason}
    (prepared : p.prepare mode pending = some p') : Opens p p' := by
  obtain ⟨-, ⟨⟩⟩ | ⟨-, prepared⟩ := ite_eq_iff.mp prepared
  cases pending with
  | none => cases prepared; rfl
  | some reason =>
    cases prepared
    rcases tryWake_cases
      { p with state := .preparing, waitSeq := p.waitSeq + 1, waitMode := mode,
               wakeReason := .none } (p.waitSeq + 1) reason with same | ⟨-, woken⟩
    · unfold Opens; rw [same]
    · unfold Opens; rw [woken]

theorem tryWake_continues (p : Park) (seq : Nat) (reason : WakeReason) :
    Continues p (p.tryWake seq reason).1 := by
  rcases tryWake_cases p seq reason with same | ⟨-, woken⟩
  · rw [same]
    exact .refl p
  · rw [woken]
    exact ⟨rfl, nofun⟩

theorem donated_waits : p.donated.waits seq = false := by
  rw [waits, decide_eq_false_iff_not]
  exact fun h => nomatch h.2

theorem donated_continues : Continues p p.donated := ⟨rfl, nofun⟩

theorem commit_continues (p : Park) : Continues p p.commit := by
  unfold commit
  by_cases preparing : p.state = .preparing
  · rw [if_pos preparing]
    exact ⟨rfl, fun _ => unwoken_iff.mpr (.inl preparing)⟩
  · rw [if_neg preparing]
    exact .refl p

theorem cancel_continues (p : Park) : Continues p p.cancel := by
  unfold cancel
  split
  · exact ⟨rfl, nofun⟩
  · exact .refl p

theorem finish_continues (p : Park) : Continues p p.finish := by
  unfold finish
  split
  · exact ⟨rfl, nofun⟩
  · exact .refl p

end Park

end A20OS.Proc
