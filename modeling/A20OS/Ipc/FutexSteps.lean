import A20OS.Ipc.Futex

/-!
What the steps on a futex do.

Most steps move one task only (`FutexTask.Moves`); the others change the bucket, end a call, or
deliver a wake. `change_of_step` is the only place where the step function is taken apart. An
entry in the bucket belongs to the wait its task is in (`Sound.queued`), and a task that can
still be woken has its entry in the bucket or with a waker (`Sound.found`).
-/

namespace A20OS.Ipc

open A20OS.Core Lib Proc List Option

universe u

variable {ω : Type u} {l : FutexLabel ω} {w : FutexWait ω} {s : FutexSys ω} {arg : FutexWakeArg}
  {nr t q : Nat} {reason : WakeReason}

/-- A timeout, a signal or an exit. -/
def CutsShort (reason : WakeReason) : Prop := reason = .timeout ∨ reason.isTaskInterrupt = true

theorem CutsShort.ne_event (cuts : CutsShort reason) : reason ≠ .event := by
  rintro rfl
  rcases cuts with same | same <;> cases same

/-- The label of a step that begins a call. -/
def FutexLabel.starts : FutexLabel ω → Bool
  | .wait .. | .wake .. => true
  | _ => false

namespace FutexTask

variable (x y : FutexTask ω)

/-! ### What a task is doing -/

abbrev seq : Nat := x.park.waitSeq

/-- The arguments of the call the task is in, as long as it needs them. -/
def call : Option (FutexWait ω ⊕ FutexWakeArg × Nat) :=
  match x.phase with
  | .checked w | .prepared w | .linked w | .asleep w => some (.inl w)
  | .waking arg nr _ | .flushing arg nr _ _ _ => some (.inr (arg, nr))
  | _ => none

/-- The entries the task has detached and not yet woken. -/
def inFlight : List FutexEntry :=
  match x.phase with
  | .flushing _ _ _ _ es => es
  | _ => []

/-- What the task's `futex_wake` has counted so far. -/
def woke : Nat :=
  match x.phase with
  | .waking _ _ n | .flushing _ _ n _ _ => n
  | _ => 0

/-- A wait of the task is open: its sequence number has been given out. -/
def opened : Bool :=
  match x.phase with
  | .prepared _ | .linked _ | .asleep _ | .unlinking _ | .returning _ => true
  | _ => false

/-- The task's entry may be in the bucket. -/
def mayBeLinked : Bool :=
  match x.phase with
  | .linked _ | .asleep _ | .unlinking _ => true
  | _ => false

/-- The task is linked under `q` and no wake has reached it. -/
def waits (q : Nat) : Bool :=
  match x.phase with
  | .linked _ | .asleep _ => x.park.waits q
  | _ => false

/-- A wake has reached the task's open wait, and not a timeout or a signal. -/
def eventWoken : Bool :=
  match x.phase with
  | .linked _ | .asleep _ => decide (x.park.state = .woken ∧ x.park.wakeReason = .event)
  | .unlinking r | .returning r => decide (r = .event)
  | _ => false

/-- The park fields fit the phase. -/
def Consistent : Prop :=
  match x.phase with
  | .prepared _ | .linked _ => 0 < x.seq ∧ (x.park.state = .preparing ∨ x.park.state = .woken)
  | .asleep _ => 0 < x.seq ∧ (x.park.state = .parked ∨ x.park.state = .woken)
  | .flushing _ _ woke _ _ => x.park.state = .idle ∧ 0 < woke
  | _ => x.park.state = .idle

/-- A wait is ended by a timeout, a signal or an exit, or by a wake once the task is linked. -/
def Calm : Prop :=
  match x.phase with
  | .prepared _ => x.park.state = .woken → CutsShort x.park.wakeReason
  | .linked _ | .asleep _ => x.park.state = .woken →
      x.park.wakeReason = .event ∨ CutsShort x.park.wakeReason
  | .unlinking r | .returning r => r = .event ∨ CutsShort r
  | _ => True

/-- The task is in the same call as before, or has ended a wait. -/
def Keeps : Prop := y.call = x.call ∨ y.call = none ∧ ∀ a, x.call ≠ some (.inr a)

/-- What a step of its own, a timeout or a signal does to a task. -/
structure Moves : Prop where
  consistent : x.Consistent → y.Consistent
  calm : x.Calm → y.Calm
  waits : x.Consistent → ∀ q, y.waits q = true → x.waits q = true
  inFlight : y.inFlight = x.inFlight
  woke : y.woke = x.woke
  eventWoken : x.Consistent → y.eventWoken = x.eventWoken
  seq : x.seq ≤ y.seq
  opened : y.opened = true → x.seq < y.seq ∨ x.opened = true ∧ y.seq = x.seq
  kept : x.mayBeLinked = true ∨ x.eventWoken = true → y.seq = x.seq

variable {x y}

/-! ### Moves -/

/-- Outside of a wait the park is idle, and nothing is linked or woken. -/
theorem of_not_opened (closed : x.opened = false) :
    (x.Consistent → x.park.state = .idle) ∧ x.mayBeLinked = false ∧ (∀ q, x.waits q = false) ∧
      x.eventWoken = false ∧ x.Calm := by
  obtain ⟨phase, park, env, result⟩ := x
  cases phase with
  | user | checked | waking => exact ⟨id, rfl, fun _ => rfl, rfl, trivial⟩
  | flushing => exact ⟨And.left, rfl, fun _ => rfl, rfl, trivial⟩
  | _ => cases closed

/-- A move that opens no wait. -/
theorem Moves.of_seq (seq : y.seq = x.seq) (opened : y.opened = true → x.opened = true)
    (inFlight : y.inFlight = x.inFlight) (woke : y.woke = x.woke)
    (consistent : x.Consistent → y.Consistent) (calm : x.Calm → y.Calm)
    (waits : x.Consistent → ∀ q, y.waits q = true → x.waits q = true)
    (eventWoken : x.Consistent → y.eventWoken = x.eventWoken) : x.Moves y :=
  { consistent, calm, waits, inFlight, woke, eventWoken
    seq := Nat.le_of_eq seq.symm
    opened := fun still => .inr ⟨opened still, seq⟩
    kept := fun _ => seq }

/-- A move outside of waits. -/
theorem Moves.of_not_opened (closed : x.opened = false) (closed' : y.opened = false)
    (idle' : y.park.state = .idle → y.Consistent) (park : y.park = x.park)
    (inFlight : y.inFlight = x.inFlight) (woke : y.woke = x.woke) :
    x.Moves y := by
  obtain ⟨idle, unlinked, -, unwoken, -⟩ := FutexTask.of_not_opened closed
  obtain ⟨-, -, still', unwoken', calm'⟩ := FutexTask.of_not_opened closed'
  refine .of_seq (congrArg Park.waitSeq park) ?_ inFlight woke ?_ (fun _ => calm') ?_ ?_
  · intro opened
    rw [closed'] at opened
    cases opened
  · intro consistent
    rw [park] at idle'
    exact idle' (idle consistent)
  · intro _ q waiting
    rw [still'] at waiting
    cases waiting
  · exact fun _ => unwoken'.trans unwoken.symm

theorem moves_env (x : FutexTask ω) (env : PrepareEnv) : x.Moves { x with env } :=
  .of_seq rfl id rfl rfl id id (fun _ _ => id) fun _ => rfl

theorem moves_abandon (phase : x.phase = .prepared w) (e : Errno) : x.Moves (x.abandon e) := by
  obtain ⟨_, park, env, result⟩ := x
  cases phase
  have seq : park.cancel.finish.waitSeq = park.waitSeq :=
    park.cancel.finish_continues.waitSeq.trans park.cancel_continues.waitSeq
  refine .of_seq seq nofun rfl rfl ?_ (fun _ => trivial) nofun fun _ => rfl
  rintro ⟨-, state⟩
  change park.state = _ ∨ park.state = _ at state
  change park.cancel.finish.state = _
  rcases state with state | state <;> simp [Park.cancel, Park.finish, state]

theorem moves_commit (phase : x.phase = .linked w) :
    x.Moves { x with phase := .asleep w, park := x.park.commit } := by
  obtain ⟨_, park, env, result⟩ := x
  cases phase
  have seq : park.commit.waitSeq = park.waitSeq := park.commit_continues.waitSeq
  refine .of_seq seq (fun _ => rfl) rfl rfl ?_ ?_ ?_ ?_
  · rintro ⟨positive, state⟩
    change park.state = _ ∨ park.state = _ at state
    refine ⟨positive.trans_eq seq.symm, ?_⟩
    rcases state with state | state <;> simp [Park.commit, state]
  · intro calm woken
    have already : park.state = .woken := by
      unfold Park.commit at woken
      split at woken
      · cases woken
      · exact woken
    have same : park.commit = park := by simp [Park.commit, already]
    exact same.symm ▸ calm already
  · exact fun _ q waiting => park.commit_continues.waits waiting
  · rintro ⟨-, state⟩
    change park.state = _ ∨ park.state = _ at state
    rcases state with state | state <;> simp [eventWoken, Park.commit, state]

/-- A wake is lost on the task, or ends the wait it is in. -/
theorem tryWake_cases (x : FutexTask ω) (q : Nat) (reason : WakeReason) :
    x.tryWake q reason = x ∨ x.park.waits q = true ∧
      x.tryWake q reason =
        { x with park := { x.park with state := .woken, wakeReason := reason } } := by
  rcases x.park.tryWake_cases q reason with same | ⟨waiting, woken⟩
  · left
    rw [tryWake, same]
  · right
    rw [tryWake, woken]
    exact ⟨waiting, rfl⟩

theorem consistent_tryWake (q : Nat) (reason : WakeReason) (consistent : x.Consistent) :
    (x.tryWake q reason).Consistent := by
  rcases x.tryWake_cases q reason with same | ⟨waiting, woken⟩
  · rw [same]
    exact consistent
  obtain ⟨phase, park, env, result⟩ := x
  rw [woken]
  have notIdle : park.state ≠ .idle := by
    intro same
    simp [Park.waits, Park.unwoken, same] at waiting
  cases phase with
  | prepared w | linked w | asleep w => exact ⟨consistent.1, .inr rfl⟩
  | flushing => exact absurd consistent.1 notIdle
  | _ => exact absurd consistent notIdle

theorem waits_tryWake {r : Nat} (waiting : (x.tryWake q reason).waits r = true) :
    x.waits r = true := by
  rcases x.tryWake_cases q reason with same | ⟨-, woken⟩
  · rwa [same] at waiting
  · obtain ⟨phase, park, env, result⟩ := x
    rw [woken] at waiting
    cases phase with
    | linked w | asleep w => simp [FutexTask.waits, Park.waits, Park.unwoken] at waiting
    | _ => cases waiting

/-- A timeout or a signal ends the wait, or finds it ended. -/
theorem moves_tryWake (x : FutexTask ω) (cuts : CutsShort reason) :
    x.Moves (x.tryWake x.seq reason) := by
  have other := cuts.ne_event
  refine .of_seq (x.park.tryWake_continues x.seq reason).waitSeq id rfl rfl
    (consistent_tryWake x.seq reason) ?_ (fun _ q => waits_tryWake) ?_
  · intro calm
    rcases x.tryWake_cases x.seq reason with same | ⟨-, woken⟩
    · rwa [same]
    obtain ⟨phase, park, env, result⟩ := x
    rw [woken]
    cases phase with
    | prepared w => exact fun _ => cuts
    | linked w | asleep w => exact fun _ => .inr cuts
    | unlinking r | returning r => exact calm
    | _ => exact trivial
  · intro _
    rcases x.tryWake_cases x.seq reason with same | ⟨waiting, woken⟩
    · rw [same]
    obtain ⟨phase, park, env, result⟩ := x
    rw [woken]
    have notWoken : park.state ≠ .woken := by
      intro same
      simp [Park.waits, Park.unwoken, same] at waiting
    cases phase with
    | linked w | asleep w => simp [eventWoken, other, notWoken]
    | _ => rfl

theorem moves_resume (phase : x.phase = .asleep w) (woken : x.park.state = .woken) :
    x.Moves { x with phase := .unlinking x.park.wakeReason, park := x.park.finish } := by
  obtain ⟨_, park, env, result⟩ := x
  cases phase
  change park.state = _ at woken
  refine .of_seq park.finish_continues.waitSeq (fun _ => rfl) rfl rfl ?_
    (fun calm => calm woken) nofun ?_
  · intro _
    change park.finish.state = _
    simp [Park.finish, woken]
  · intro _
    simp [eventWoken, woken]

theorem moves_unlink (phase : x.phase = .unlinking reason) :
    x.Moves { x with phase := .returning reason } := by
  obtain ⟨_, park, env, result⟩ := x
  cases phase
  exact .of_seq rfl (fun _ => rfl) rfl rfl id id nofun fun _ => rfl

theorem moves_prepare (phase : x.phase = .checked w) {park : Park}
    {pending : Option WakeReason} (cuts : ∀ reason ∈ pending, CutsShort reason)
    (prepared : x.park.prepare .interruptible pending = some park) :
    x.Moves { x with phase := .prepared w, park } := by
  obtain ⟨_, old, env, result⟩ := x
  cases phase
  have seq : park.waitSeq = old.waitSeq + 1 := Park.prepare_opens prepared
  have state : park.state = .preparing ∨ park.state = .woken ∧ CutsShort park.wakeReason := by
    simp only [Park.prepare] at prepared
    split at prepared
    · cases prepared
    cases pending with
    | none =>
      cases prepared
      exact .inl rfl
    | some reason =>
      cases prepared
      rcases Park.tryWake_cases { old with
          state := .preparing, waitSeq := old.waitSeq + 1, waitMode := .interruptible,
          wakeReason := .none } (old.waitSeq + 1) reason with same | ⟨-, woken⟩
      · rw [same]
        exact .inl rfl
      · rw [woken]
        exact .inr ⟨rfl, cuts reason rfl⟩
  constructor
  · intro _
    exact ⟨(Nat.succ_pos _).trans_eq seq.symm, state.imp_right And.left⟩
  · intro _ woken
    rcases state with preparing | ⟨-, cut⟩
    · rw [preparing] at woken
      cases woken
    · exact cut
  · exact nofun
  · rfl
  · rfl
  · exact fun _ => rfl
  · change old.waitSeq ≤ park.waitSeq
    omega
  · intro _
    left
    change old.waitSeq < park.waitSeq
    omega
  · rintro (linked | woken)
    · cases linked
    · cases woken

end FutexTask

namespace FutexSys

open FutexTask

/-! ### Steps -/

/-- What a step with the given label does. -/
inductive Change (s : FutexSys ω) : FutexLabel ω → FutexSys ω → Prop where
  | store (v : ω) : Change s (.store v) { s with word := v }
  /-- A task moves on, and what waited waits. -/
  | move {l : FutexLabel ω} {t : Nat} {x y : FutexTask ω} (at_t : s.tasks[t]? = some x)
      (moves : x.Moves y) (linked : y.mayBeLinked = x.mayBeLinked)
      (still : x.Consistent → ∀ q, x.waits q = true → y.waits q = true)
      (call : l.starts = false → x.Keeps y) : Change s l (s.setTask t y)
  /-- A timeout or a signal. -/
  | interrupt {l : FutexLabel ω} {t : Nat} {x : FutexTask ω} {reason : WakeReason}
      (at_t : s.tasks[t]? = some x) (cuts : CutsShort reason)
      (label : l = .timeout t ∨ l = .interrupt t reason) :
      Change s l (s.setTask t (x.tryWake x.seq reason))
  | link {t : Nat} {x : FutexTask ω} {w : FutexWait ω} (at_t : s.tasks[t]? = some x)
      (phase : x.phase = .prepared w) (expected : s.word = w.expected) :
      Change s (.link t true true true)
        ({ s with bucket := ⟨t, x.seq, w.key⟩ :: unlinkTask s.bucket t }.setTask t
          { x with phase := .linked w })
  /-- A task takes its entry out. -/
  | unlink {l : FutexLabel ω} {t : Nat} {x y : FutexTask ω} (at_t : s.tasks[t]? = some x)
      (moves : x.Moves y) (before : ∀ q, x.waits q = false) (after : y.mayBeLinked = false)
      (call : x.Keeps y) : Change s l ({ s with bucket := unlinkTask s.bucket t }.setTask t y)
  | finishWait {t : Nat} {x : FutexTask ω} {reason : WakeReason} (at_t : s.tasks[t]? = some x)
      (phase : x.phase = .returning reason) : Change s (.finish t) (s.finishWait t x reason)
  /-- A wake has woken as many as it was to wake, or finds nobody else. -/
  | finishWake {l : FutexLabel ω} {t : Nat} {x : FutexTask ω} (at_t : s.tasks[t]? = some x)
      (closed : x.opened = false) (flushed : x.inFlight = [])
      (nobody : ∀ arg nr woke, x.phase = .waking arg nr woke → woke < nr →
        ∀ e ∈ s.bucket, futexWakeMatch arg e = false) :
      Change s l (s.finishWake t x x.woke)
  | collect {t nr woke want : Nat} {x : FutexTask ω} {arg : FutexWakeArg}
      {es rest : List FutexEntry}
      (at_t : s.tasks[t]? = some x) (phase : x.phase = .waking arg nr woke)
      (limit : want = min (nr - woke) futexWakeBatch)
      (detached : collectMatching (futexWakeMatch arg) want s.bucket = (es, rest))
      (somebody : es ≠ []) : Change s (.collect t)
      ({ s with bucket := rest, collected := es ++ s.collected }.setTask t
        { x with phase := .flushing arg nr (woke + es.length) (decide (es.length = want)) es })
  | deliver {t nr woke : Nat} {x : FutexTask ω} {arg : FutexWakeArg} {again : Bool} {e : FutexEntry}
      {es : List FutexEntry} (at_t : s.tasks[t]? = some x)
      (phase : x.phase = .flushing arg nr woke again (e :: es)) :
      Change s (.deliver t)
        ((s.setTask t { x with phase := .flushing arg nr woke again es }).deliverWake e)

variable {x y : FutexTask ω} {woke : Nat} {again : Bool} {e : FutexEntry} {es : List FutexEntry}
  {s' : FutexSys ω}

theorem pendingReason_cutsShort (env : PrepareEnv) (mode : WaitMode) :
    ∀ reason ∈ env.pendingReason mode, CutsShort reason := by
  intro reason pending
  unfold PrepareEnv.pendingReason at pending
  repeat' split at pending
  all_goals cases pending
  all_goals exact .inr rfl

section
variable (at_t : s.tasks[t]? = some x)
include at_t

/-- A move of a task that has nothing linked. -/
theorem Change.of_unlinked (moves : x.Moves y)
    (before : x.mayBeLinked = false) (after : y.mayBeLinked = false)
    (call : l.starts = false → x.Keeps y) : Change s l (s.setTask t y) := by
  refine .move at_t moves (after.trans before.symm) ?_ call
  intro _ q waiting
  obtain ⟨phase, park, env, result⟩ := x
  cases phase with
  | linked | asleep => cases before
  | _ => cases waiting

theorem Change.of_closed (closed : x.opened = false)
    (closed' : y.opened = false) (idle' : y.park.state = .idle → y.Consistent)
    (park : y.park = x.park) (inFlight : y.inFlight = x.inFlight) (woke : y.woke = x.woke)
    (call : l.starts = false → x.Keeps y) : Change s l (s.setTask t y) :=
  .of_unlinked at_t (.of_not_opened closed closed' idle' park inFlight woke)
    (FutexTask.of_not_opened closed).2.1 (FutexTask.of_not_opened closed').2.1 call

theorem change_futexWait [DecidableEq ω] (starts : l.starts = true) (phase : x.phase = .user)
    (w : FutexWait ω) : Change s l (s.futexWait t x w) := by
  obtain ⟨_, park, env, result⟩ := x
  cases phase
  refine Change.of_closed at_t rfl ?_ ?_ ?_ ?_ ?_ fun none_of => nomatch starts.symm.trans none_of
  all_goals repeat' split
  all_goals first | rfl | exact id

theorem change_futexWake (starts : l.starts = true) (phase : x.phase = .user)
    (arg : FutexWakeArg) (nr : Int) : Change s l (s.futexWake t x arg nr) := by
  obtain ⟨_, park, env, result⟩ := x
  cases phase
  refine Change.of_closed at_t rfl ?_ ?_ ?_ ?_ ?_ fun none_of => nomatch starts.symm.trans none_of
  all_goals repeat' split
  all_goals first | rfl | exact id

theorem change_prepareWait (phase : x.phase = .checked w) : Change s l (s.prepareWait t x w) := by
  have call : x.call = some (.inl w) := by rw [FutexTask.call, phase]
  have fails : Change s l (s.setTask t (x.returns (.error .EAGAIN))) := by
    refine .of_closed at_t ?_ rfl id rfl ?_ ?_ fun _ => .inr ⟨rfl, fun a same => ?_⟩
    · rw [opened, phase]
    · exact (show x.inFlight = [] by rw [inFlight, phase]).symm
    · exact (show x.woke = 0 by rw [FutexTask.woke, phase]).symm
    · rw [call] at same
      cases same
  unfold prepareWait
  split
  · exact fails
  split
  case h_1 park prepared =>
    refine .of_unlinked at_t (moves_prepare phase (pendingReason_cutsShort _ _) prepared) ?_ rfl ?_
    · rw [mayBeLinked, phase]
    · exact fun _ => .inl call.symm
  case h_2 => exact fails

omit at_t in
theorem keeps_abandon (phase : x.phase = .prepared w) (e : Errno) : x.Keeps (x.abandon e) := by
  refine .inr ⟨rfl, fun a same => ?_⟩
  rw [FutexTask.call, phase] at same
  cases same

theorem change_linkWait [DecidableEq ω]
    (phase : x.phase = .prepared w) (mapped room linked : Bool) :
    Change s (.link t mapped room linked) (s.linkWait t x w mapped room linked) := by
  have unlinked : x.mayBeLinked = false := by rw [mayBeLinked, phase]
  have unwaited : ∀ q, x.waits q = false := fun q => by rw [FutexTask.waits, phase]
  have abandons : ∀ {l : FutexLabel ω} e, Change s l (s.setTask t (x.abandon e)) := fun e =>
    .of_unlinked at_t (moves_abandon phase e) unlinked rfl fun _ => keeps_abandon phase e
  unfold linkWait
  cases mapped with
  | false => exact abandons _
  | true =>
    by_cases expected : s.word = w.expected
    · rw [if_neg (by simp), if_neg (not_not_intro expected)]
      split
      · exact abandons _
      cases room with
      | false => exact abandons _
      | true =>
        cases linked with
        | false =>
          exact .unlink at_t (moves_abandon phase _) unwaited rfl (keeps_abandon phase _)
        | true => exact .link at_t phase expected
    · rw [if_neg (by simp), if_pos expected]
      exact abandons _

theorem change_collectBatch (phase : x.phase = .waking arg nr woke) :
    Change s (.collect t) (s.collectBatch t x arg nr woke) := by
  have counted : woke = x.woke := by rw [FutexTask.woke, phase]
  have closed : x.opened = false := by rw [opened, phase]
  have flushed : x.inFlight = [] := by rw [inFlight, phase]
  unfold collectBatch
  by_cases more : woke < nr
  · rw [if_pos more]
    obtain ⟨want, limit⟩ : ∃ want, want = min (nr - woke) futexWakeBatch := ⟨_, rfl⟩
    have some_wanted : 0 < want := by
      rw [limit, futexWakeBatch]
      omega
    simp only [← limit]
    cases detached : collectMatching (futexWakeMatch arg) want s.bucket with
    | mk es rest =>
      by_cases nobody : es = []
      · rw [if_pos nobody, counted]
        subst nobody
        have parts := collectMatching_perm (futexWakeMatch arg) want s.bucket
        have short := @rest_of_collectMatching _ s.bucket (futexWakeMatch arg) want
        rw [detached] at parts short
        refine .finishWake at_t closed flushed ?_
        intro arg' nr' woke' same _ e member
        rw [phase] at same
        cases same
        exact short some_wanted e (parts.mem_iff.mpr member)
      · rw [if_neg nobody]
        exact .collect at_t phase limit detached nobody
  · rw [if_neg more, counted]
    refine .finishWake at_t closed flushed ?_
    intro arg' nr' woke' same less
    rw [phase] at same
    cases same
    exact absurd less more

theorem change_commit (phase : x.phase = .linked w) :
    Change s l (s.setTask t { x with phase := .asleep w, park := x.park.commit }) := by
  have call : x.call = some (.inl w) := by rw [FutexTask.call, phase]
  refine .move at_t (moves_commit phase) (by rw [mayBeLinked, mayBeLinked, phase]) ?_ ?_
  case refine_2 => exact fun _ => .inl call.symm
  intro consistent q waiting
  rw [FutexTask.waits, phase] at waiting
  rw [Consistent, phase] at consistent
  obtain ⟨current, unwoken⟩ := Park.waits_iff.mp waiting
  have preparing : x.park.state = .preparing := by
    rcases consistent.2 with preparing | woken
    · exact preparing
    · rw [Park.unwoken_iff, woken] at unwoken
      rcases unwoken with same | same <;> cases same
  change x.park.commit.waits q = true
  simp [Park.commit, preparing, Park.waits, Park.unwoken, current]

theorem change_resume (phase : x.phase = .asleep w) (woken : x.park.state = .woken) :
    Change s l (s.setTask t { x with
      phase := .unlinking x.park.wakeReason, park := x.park.finish }) := by
  refine .move at_t (moves_resume phase woken) (by rw [mayBeLinked, mayBeLinked, phase]) ?_ ?_
  case refine_2 =>
    refine fun _ => .inr ⟨rfl, fun a same => ?_⟩
    rw [FutexTask.call, phase] at same
    cases same
  intro _ q waiting
  rw [FutexTask.waits, phase] at waiting
  simp [Park.waits, Park.unwoken, woken] at waiting

theorem change_next (phase : x.phase = .flushing arg nr woke again []) :
    Change s l (if again then s.setTask t { x with phase := .waking arg nr woke }
      else s.finishWake t x woke) := by
  have counted : woke = x.woke := by rw [FutexTask.woke, phase]
  have closed : x.opened = false := by rw [opened, phase]
  have flushed : x.inFlight = [] := by rw [inFlight, phase]
  cases again with
  | true =>
    have call : x.call = some (.inr (arg, nr)) := by rw [FutexTask.call, phase]
    exact .of_closed at_t closed rfl id rfl flushed.symm counted fun _ => .inl call.symm
  | false =>
    rw [if_neg Bool.false_ne_true, counted]
    refine .finishWake at_t closed flushed ?_
    intro arg' nr' woke' same
    rw [phase] at same
    cases same

end

theorem change_of_step [DecidableEq ω] (taken : s.step l = some s') : Change s l s' := by
  cases l
  case store v =>
    cases taken
    exact .store v
  case pend t env =>
    obtain ⟨x, at_t, rfl⟩ := map_eq_some_iff.mp taken
    exact .move at_t (moves_env x env) rfl (fun _ q => id) fun _ => .inl rfl
  all_goals obtain ⟨x, at_t, taken⟩ := bind_eq_some_iff.mp taken
  case timeout t =>
    obtain ⟨-, ⟨⟩⟩ := ite_none_right_eq_some.mp taken
    exact .interrupt at_t (.inl rfl) (.inl rfl)
  case interrupt t reason =>
    obtain ⟨interrupts, ⟨⟩⟩ := ite_none_right_eq_some.mp taken
    exact .interrupt at_t (.inr interrupts) (.inr rfl)
  -- the other steps are those of a task in the phase that they start from
  all_goals
    split at taken
    case h_2 => cases taken
  case h_1 phase =>
    cases taken
    exact change_futexWait at_t rfl phase _
  case h_1 w phase =>
    cases taken
    exact change_prepareWait at_t phase
  case h_1 w phase =>
    cases taken
    exact change_linkWait at_t phase _ _ _
  case h_1 w phase =>
    cases taken
    exact change_commit at_t phase
  case h_1 w phase woken =>
    cases taken
    exact change_resume at_t phase woken
  case h_1 reason phase =>
    cases taken
    have call : x.call = none := by rw [FutexTask.call, phase]
    exact .unlink at_t (moves_unlink phase) (fun q => by rw [FutexTask.waits, phase]) rfl
      (.inl call.symm)
  case h_1 reason phase =>
    cases taken
    exact .finishWait at_t phase
  case h_1 phase =>
    cases taken
    exact change_futexWake at_t rfl phase _ _
  case h_1 arg nr woke phase =>
    cases taken
    exact change_collectBatch at_t phase
  case h_1 arg nr woke again e es phase =>
    cases taken
    exact .deliver at_t phase
  case h_1 t _ _ arg nr woke again phase =>
    have changes := change_next (l := .next t) at_t phase
    cases again <;> cases taken <;> exact changes

/-! ### What every run keeps -/

section SetTask

variable {u : Nat} {z : FutexTask ω}

theorem tasks_setTask_self (at_t : s.tasks[t]? = some x) : (s.setTask t y).tasks[t]? = some y := by
  rw [setTask, List.getElem?_set_self (List.getElem?_eq_some_iff.mp at_t).1]

theorem tasks_setTask_of_ne (other : u ≠ t) : (s.setTask t y).tasks[u]? = s.tasks[u]? := by
  rw [setTask, List.getElem?_set_ne other.symm]

theorem tasks_setTask_cases (at_u : (s.setTask t y).tasks[u]? = some z) :
    u = t ∧ z = y ∨ u ≠ t ∧ s.tasks[u]? = some z :=
  getElem?_set_cases at_u

theorem setTask_comm (other : u ≠ t) :
    (s.setTask t x).setTask u y = (s.setTask u y).setTask t x := by
  simp only [setTask, set_comm x y other.symm]

end SetTask

/-- The sum of a measure over the tasks. -/
def sum (f : FutexTask ω → Nat) (s : FutexSys ω) : Nat := total f s.tasks

theorem sum_setTask (f : FutexTask ω → Nat) (at_t : s.tasks[t]? = some x) :
    (s.setTask t y).sum f + f x = s.sum f + f y :=
  total_set at_t y

/-- Somewhere there is an entry of task `t` with number `q`. -/
def Has (s : FutexSys ω) (t q : Nat) : Prop :=
  (∃ e ∈ s.bucket, e.task = t ∧ e.seq = q) ∨
    ∃ (u : Nat) (x : FutexTask ω), s.tasks[u]? = some x ∧
      ∃ e ∈ x.inFlight, e.task = t ∧ e.seq = q

structure Sound (s : FutexSys ω) : Prop where
  consistent : ∀ (t : Nat) (x : FutexTask ω), s.tasks[t]? = some x → x.Consistent
  queued : ∀ e ∈ s.bucket, ∃ x : FutexTask ω, s.tasks[e.task]? = some x ∧
    x.mayBeLinked = true ∧ x.seq = e.seq
  found : ∀ (t : Nat) (x : FutexTask ω) (q : Nat), s.tasks[t]? = some x → x.waits q = true →
    s.Has t q

/-- The entries stay where they are while a task changes that has the same ones in flight. -/
theorem Has.setTask {u : Nat} (has : s.Has u q) (s₀ : FutexSys ω) (tasks : s₀.tasks = s.tasks)
    (at_t : s.tasks[t]? = some x)
    (bucket : ∀ e ∈ s.bucket, e.task = u → e ∈ s₀.bucket ∨ e ∈ y.inFlight)
    (inFlight : ∀ e ∈ x.inFlight, e.task = u → e.seq = q → e ∈ y.inFlight) :
    (s₀.setTask t y).Has u q := by
  have at₀ : s₀.tasks[t]? = some x := by rw [tasks, at_t]
  rcases has with ⟨e, member, task, seq⟩ | ⟨v, z, at_v, e, member, task, seq⟩
  · rcases bucket e member task with listed | flies
    · exact .inl ⟨e, listed, task, seq⟩
    · exact .inr ⟨t, y, tasks_setTask_self at₀, e, flies, task, seq⟩
  by_cases same : v = t
  · subst same
    cases at_t.symm.trans at_v
    exact .inr ⟨v, y, tasks_setTask_self at₀, e, inFlight e member task seq, task, seq⟩
  · refine .inr ⟨v, z, ?_, e, member, task, seq⟩
    rw [tasks_setTask_of_ne same, tasks, at_v]

theorem deliverWake_eq (at_e : s.tasks[e.task]? = some y) :
    s.deliverWake e = s.setTask e.task (y.tryWake e.seq .event) := by
  rw [deliverWake, at_e]

theorem ne_of_waits_tryWake {r : Nat} (consistent : y.Consistent)
    (waiting : (y.tryWake q .event).waits r = true) : r ≠ q := by
  rintro rfl
  have before := FutexTask.waits_tryWake waiting
  obtain ⟨phase, park, env, result⟩ := y
  cases phase with
  | linked w | asleep w =>
    have woken := Park.tryWake_event before (Park.waits_iff.mp before |>.1 ▸ consistent.1)
    simp [FutexTask.waits, FutexTask.tryWake, woken, Park.donated_waits] at waiting
  | _ => cases before

section
variable (h : s.Sound) (at_t : s.tasks[t]? = some x)
include h at_t

/-- A task changes from `x` to `y` while the bucket changes to that of `s₀`. -/
theorem Sound.change (s₀ : FutexSys ω) (tasks : s₀.tasks = s.tasks) (consistent : y.Consistent)
    (queued : ∀ e ∈ s₀.bucket, e ∈ s.bucket ∧ e.task ≠ t ∨
      e.task = t ∧ y.mayBeLinked = true ∧ y.seq = e.seq)
    (bucket : ∀ e ∈ s.bucket, e ∈ s₀.bucket ∨ e ∈ y.inFlight ∨ e.task = t)
    (inFlight : ∀ e ∈ x.inFlight, e ∈ y.inFlight ∨
      ∀ z : FutexTask ω, s.tasks[e.task]? = some z → z.waits e.seq = false)
    (found : ∀ q, y.waits q = true → (s₀.setTask t y).Has t q) : (s₀.setTask t y).Sound := by
  have at₀ : s₀.tasks[t]? = some x := by rw [tasks, at_t]
  constructor
  · intro u z at_u
    rcases tasks_setTask_cases at_u with ⟨rfl, rfl⟩ | ⟨-, at_u⟩
    · exact consistent
    · exact h.consistent u z (tasks ▸ at_u)
  · intro e member
    rcases queued e member with ⟨listed, other⟩ | ⟨rfl, linked, seq⟩
    · obtain ⟨z, at_e, linked, seq⟩ := h.queued e listed
      exact ⟨z, by rw [tasks_setTask_of_ne other, tasks, at_e], linked, seq⟩
    · exact ⟨y, tasks_setTask_self at₀, linked, seq⟩
  · intro u z q at_u waiting
    rcases tasks_setTask_cases at_u with ⟨rfl, rfl⟩ | ⟨other, at_u⟩
    · exact found q waiting
    rw [tasks] at at_u
    refine (h.found u z q at_u waiting).setTask s₀ tasks at_t ?_ ?_
    · intro e member task
      rcases bucket e member with listed | flies | same
      · exact .inl listed
      · exact .inr flies
      · exact absurd (task.symm.trans same) other
    · rintro e member rfl rfl
      refine (inFlight e member).resolve_right fun gone => ?_
      rw [gone z at_u] at waiting
      cases waiting

/-- The entries and the waits stay as they are. -/
theorem Sound.keep (consistent : y.Consistent) (waits : ∀ q, y.waits q = true → x.waits q = true)
    (inFlight : y.inFlight = x.inFlight) (linked : y.mayBeLinked = x.mayBeLinked)
    (seq : x.mayBeLinked = true → y.seq = x.seq) : (s.setTask t y).Sound := by
  apply h.change at_t s rfl consistent
  · intro e member
    by_cases same : e.task = t
    · obtain ⟨z, at_e, maybe, number⟩ := h.queued e member
      rw [same, at_t] at at_e
      cases at_e
      exact .inr ⟨same, linked.trans maybe, (seq maybe).trans number⟩
    · exact .inl ⟨member, same⟩
  · exact fun e member => .inl member
  · exact fun e member => .inl (inFlight ▸ member)
  · intro q waiting
    refine (h.found t x q at_t (waits q waiting)).setTask s rfl at_t ?_ ?_
    · exact fun e member _ => .inl member
    · exact fun e member _ _ => inFlight ▸ member

theorem Sound.move (moves : x.Moves y)
    (linked : y.mayBeLinked = x.mayBeLinked) : (s.setTask t y).Sound := by
  have consistent := h.consistent t x at_t
  exact h.keep at_t (moves.consistent consistent) (moves.waits consistent) moves.inFlight linked
    fun maybe => moves.kept (.inl maybe)

theorem Sound.not_queued (unlinked : x.mayBeLinked = false) : ∀ e ∈ s.bucket, e.task ≠ t := by
  intro e member same
  obtain ⟨z, at_e, maybe, -⟩ := h.queued e member
  rw [same, at_t] at at_e
  cases at_e
  rw [unlinked] at maybe
  cases maybe

theorem Sound.unlink (moves : x.Moves y) (before : ∀ q, x.waits q = false) :
    ({ s with bucket := unlinkTask s.bucket t }.setTask t y).Sound := by
  have consistent := h.consistent t x at_t
  apply h.change at_t { s with bucket := unlinkTask s.bucket t } rfl (moves.consistent consistent)
  · intro e member
    obtain ⟨listed, other⟩ := mem_filter.mp member
    exact .inl ⟨listed, by simpa using other⟩
  · intro e member
    by_cases same : e.task = t
    · exact .inr (.inr same)
    · exact .inl (mem_filter.mpr ⟨member, by simpa using same⟩)
  · exact fun e member => .inl (moves.inFlight ▸ member)
  · intro q waiting
    have := moves.waits consistent q waiting
    rw [before] at this
    cases this

theorem Sound.link (phase : x.phase = .prepared w) :
    ({ s with bucket := ⟨t, x.seq, w.key⟩ :: unlinkTask s.bucket t }.setTask t
      { x with phase := .linked w }).Sound := by
  have consistent := h.consistent t x at_t
  rw [Consistent, phase] at consistent
  have nothing : x.inFlight = [] := by rw [inFlight, phase]
  apply h.change at_t { s with bucket := ⟨t, x.seq, w.key⟩ :: unlinkTask s.bucket t } rfl
  · exact consistent
  · intro e member
    rcases mem_cons.mp member with rfl | old
    · exact .inr ⟨rfl, rfl, rfl⟩
    · obtain ⟨listed, other⟩ := mem_filter.mp old
      exact .inl ⟨listed, by simpa using other⟩
  · intro e member
    by_cases same : e.task = t
    · exact .inr (.inr same)
    · exact .inl (.tail _ (mem_filter.mpr ⟨member, by simpa using same⟩))
  · intro e member
    rw [nothing] at member
    cases member
  · intro q waiting
    exact .inl ⟨_, .head _, rfl, (Park.waits_iff.mp waiting).1⟩

/-- A call ends outside of waits; its record changes, the queue does not. -/
theorem Sound.returns (s₀ : FutexSys ω) (tasks : s₀.tasks = s.tasks) (bucket : s₀.bucket = s.bucket)
    (unlinked : x.mayBeLinked = false) (idle : x.park.state = .idle) (flushed : x.inFlight = [])
    (r : Except Errno Nat) : (s₀.setTask t (x.returns r)).Sound := by
  apply h.change at_t s₀ tasks
  · exact idle
  · intro e member
    rw [bucket] at member
    exact .inl ⟨member, h.not_queued at_t unlinked e member⟩
  · intro e member
    rw [bucket]
    exact .inl member
  · intro e member
    rw [flushed] at member
    cases member
  · exact nofun

theorem Sound.collect {want : Nat} {rest : List FutexEntry} (phase : x.phase = .waking arg nr woke)
    (detached : collectMatching (futexWakeMatch arg) want s.bucket = (es, rest))
    (somebody : es ≠ []) :
    ({ s with bucket := rest, collected := es ++ s.collected }.setTask t
      { x with phase := .flushing arg nr (woke + es.length) again es }).Sound := by
  have parts := collectMatching_perm (futexWakeMatch arg) want s.bucket
  rw [detached] at parts
  have consistent := h.consistent t x at_t
  rw [Consistent, phase] at consistent
  have nothing : x.inFlight = [] := by rw [inFlight, phase]
  apply h.change at_t { s with bucket := rest, collected := es ++ s.collected } rfl
  · exact ⟨consistent, Nat.add_pos_right woke (length_pos_of_ne_nil somebody)⟩
  · intro e member
    have listed : e ∈ s.bucket := parts.mem_iff.mp (mem_append_right _ member)
    exact .inl ⟨listed, h.not_queued at_t (by rw [mayBeLinked, phase]) e listed⟩
  · intro e member
    rcases mem_append.mp (parts.mem_iff.mpr member) with taken | left
    · exact .inr (.inl taken)
    · exact .inl left
  · intro e member
    rw [nothing] at member
    cases member
  · exact nofun

/-- A waker drops an entry when its task does not wait with the entry's number. -/
theorem Sound.drop (phase : x.phase = .flushing arg nr woke again (e :: es))
    (gone : ∀ z : FutexTask ω, s.tasks[e.task]? = some z → z.waits e.seq = false) :
    (s.setTask t { x with phase := .flushing arg nr woke again es }).Sound := by
  have idle := h.consistent t x at_t
  rw [Consistent, phase] at idle
  apply h.change at_t s rfl
  · exact idle
  · exact fun f member => .inl ⟨member, h.not_queued at_t (by rw [mayBeLinked, phase]) f member⟩
  · exact fun f member => .inl member
  · intro f member
    rw [inFlight, phase] at member
    rcases mem_cons.mp member with rfl | left
    · exact .inr gone
    · exact .inl left
  · exact nofun

theorem Sound.wake (q : Nat) : (s.setTask t (x.tryWake q .event)).Sound :=
  h.keep at_t (consistent_tryWake q .event (h.consistent t x at_t)) (fun _ => waits_tryWake) rfl rfl
    fun _ => (x.park.tryWake_continues q .event).waitSeq

theorem Sound.deliver (phase : x.phase = .flushing arg nr woke again (e :: es)) :
    ((s.setTask t { x with phase := .flushing arg nr woke again es }).deliverWake e).Sound := by
  by_cases same : e.task = t
  · -- the waker itself does not wait
    rw [deliverWake_eq (by rw [same]; exact tasks_setTask_self at_t), same]
    refine (h.drop at_t phase fun z at_z => ?_).wake (tasks_setTask_self at_t) _
    rw [same, at_t] at at_z
    cases at_z
    rw [FutexTask.waits, phase]
  cases target : s.tasks[e.task]? with
  | none =>
    rw [deliverWake, tasks_setTask_of_ne same, target]
    exact h.drop at_t phase fun z at_z => nomatch target.symm.trans at_z
  | some y =>
    -- the task is woken before its entry is dropped
    rw [deliverWake_eq ((tasks_setTask_of_ne same).trans target), setTask_comm same]
    refine (h.wake target e.seq).drop ?_ phase fun z at_z => ?_
    · rw [tasks_setTask_of_ne (Ne.symm same), at_t]
    · rw [tasks_setTask_self target] at at_z
      cases at_z
      rw [← Bool.not_eq_true]
      exact fun waiting => ne_of_waits_tryWake (h.consistent _ y target) waiting rfl

omit at_t in
theorem Sound.step [DecidableEq ω] (taken : s.step l = some s') : s'.Sound := by
  cases change_of_step taken with
  | store v => exact { h with }
  | move at_t moves linked still call => exact h.move at_t moves linked
  | interrupt at_t cuts label => exact h.move at_t (moves_tryWake _ cuts) rfl
  | link at_t phase expected => exact h.link at_t phase
  | unlink at_t moves before after call => exact h.unlink at_t moves before
  | @finishWait t x reason at_t phase =>
    have idle := h.consistent t x at_t
    rw [Consistent, phase] at idle
    exact h.returns at_t { s with waits := ⟨t, x.seq, x.ended reason⟩ :: s.waits } rfl rfl
      (by rw [mayBeLinked, phase]) idle (by rw [inFlight, phase]) _
  | @finishWake _ t x at_t closed flushed nobody =>
    obtain ⟨idle, unlinked, -⟩ := FutexTask.of_not_opened closed
    exact h.returns at_t { s with counts := x.woke :: s.counts } rfl rfl unlinked
      (idle (h.consistent t x at_t)) flushed _
  | collect at_t phase limit detached somebody => exact h.collect at_t phase detached somebody
  | deliver at_t phase => exact h.deliver at_t phase

end

theorem sound_init (word : ω) (pkey n : Nat) : (init word pkey n).Sound where
  consistent := fun t x at_t => by
    rw [eq_of_mem_replicate (mem_of_getElem? at_t)]
    rfl
  queued := nofun
  found := fun t x q at_t waiting => by
    rw [eq_of_mem_replicate (mem_of_getElem? at_t)] at waiting
    cases waiting

end FutexSys

end A20OS.Ipc
