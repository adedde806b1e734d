import A20OS.Ipc.FutexSteps

/-!
What a futex wake counts.

A wake counts the entries it detaches, not the tasks it wakes. The two agree as long as timeouts
and signals end no wait whose entry is detached and not yet woken, wakers detach no entry of an
ended wait, and a woken task has no signal when its wait returns (`Orderly`). Then every detached
entry is of a task that waits (`Exact.flying`) and has returned with success, has been woken, or
is in flight (`Told.balance`).
-/

namespace A20OS.Ipc

open A20OS.Core Lib Proc List Option

universe u

variable {ω : Type u} {again : Bool} {arg : FutexWakeArg} {es : List FutexEntry} {nr woke : Nat}
  {s : FutexSys ω} {x y : FutexTask ω} {t : Nat}

/-- The wait an entry was made for: its task and its number. -/
def waitOf (e : FutexEntry) : Nat × Nat := (e.task, e.seq)

def FutexDone.wait (d : FutexDone) : Nat × Nat := (d.task, d.seq)

/-- A wake has reached the task's wait with number `q`. -/
def FutexTask.wokenFrom (x : FutexTask ω) (q : Nat) : Nat :=
  if x.seq = q ∧ x.eventWoken = true then 1 else 0

theorem FutexTask.wokenFrom_eq_zero (unwoken : x.eventWoken = false) (q : Nat) :
    x.wokenFrom q = 0 := by
  simp [wokenFrom, unwoken]

/-- A woken task counts for its current wait only. -/
theorem FutexTask.wokenFrom_of_woken (woken : x.eventWoken = true) (t : Nat) (k : Nat × Nat) :
    (if k.1 = t then x.wokenFrom k.2 else 0) = [(t, x.seq)].count k := by
  obtain ⟨u, q⟩ := k
  simp only [wokenFrom, woken, and_true, count_singleton, beq_iff_eq, Prod.mk.injEq]
  by_cases task : u = t
  · subst task
    simp
  · rw [if_neg task, if_neg fun both => task both.1.symm]

namespace FutexSys

open FutexTask

/-- The waits that have returned with success. -/
def successes (s : FutexSys ω) : List (Nat × Nat) :=
  (s.waits.filter fun d => d.result.isOk).map FutexDone.wait

/-- A wake has reached wait `k`, which has not returned. -/
def wokenAt (s : FutexSys ω) (k : Nat × Nat) : Nat :=
  (s.tasks[k.1]?).elim 0 fun x => x.wokenFrom k.2

/-- The entries a waker is about to detach. -/
def nextBatch (s : FutexSys ω) (t : Nat) : List FutexEntry :=
  match s.tasks[t]?.map FutexTask.phase with
  | some (.waking arg nr woke) =>
      (collectMatching (futexWakeMatch arg) (min (nr - woke) futexWakeBatch) s.bucket).1
  | _ => []

/-- The condition on the steps of a run. -/
def Orderly (s : FutexSys ω) : FutexLabel ω → Prop
  | .timeout t | .interrupt t _ => ∀ x ∈ s.tasks, ∀ e ∈ x.inFlight, e.task ≠ t
  | .collect t => ∀ e ∈ s.nextBatch t, (s.tasks[e.task]?).any (fun y => y.waits e.seq) = true
  | .finish t => (s.tasks[t]?).all (fun x => !(x.eventWoken && x.env.hasUnblocked)) = true
  | _ => True

instance (s : FutexSys ω) (l : FutexLabel ω) : Decidable (s.Orderly l) := by
  cases l <;> unfold Orderly <;> infer_instance

/-! ### Entries in flight -/

/-- A detached entry is of a task that waits, and no task has two entries. -/
structure Exact (s : FutexSys ω) : Prop where
  calm : ∀ (t : Nat) (x : FutexTask ω), s.tasks[t]? = some x → x.Calm
  single : ∀ t, entriesOf t s.bucket + s.sum (fun x => entriesOf t x.inFlight) ≤ 1
  flying : ∀ (u : Nat) (x : FutexTask ω), s.tasks[u]? = some x → ∀ e ∈ x.inFlight,
    ∃ y : FutexTask ω, s.tasks[e.task]? = some y ∧ y.waits e.seq = true

theorem le_sum (f : FutexTask ω → Nat) (at_t : s.tasks[t]? = some x) : f x ≤ s.sum f :=
  le_total_of_mem f (mem_of_getElem? at_t)

theorem wokenAt_setTask (at_t : s.tasks[t]? = some x) (k : Nat × Nat) :
    (s.setTask t y).wokenAt k + (if k.1 = t then x.wokenFrom k.2 else 0) =
      s.wokenAt k + if k.1 = t then y.wokenFrom k.2 else 0 := by
  by_cases same : k.1 = t
  · rw [wokenAt, wokenAt, same, tasks_setTask_self at_t, at_t, if_pos rfl, if_pos rfl]
    exact Nat.add_comm _ _
  · rw [wokenAt, wokenAt, tasks_setTask_of_ne same, if_neg same, if_neg same]

variable {bucket rest : List FutexEntry} {w : FutexWait ω}

section
variable (h : s.Exact) (at_t : s.tasks[t]? = some x)
include h at_t

/-- A task changes from `x` to `y` while the bucket changes to that of `s₀`. -/
theorem Exact.change (s₀ : FutexSys ω) (tasks : s₀.tasks = s.tasks) (calm : y.Calm)
    (single : ∀ u, entriesOf u s₀.bucket + entriesOf u y.inFlight ≤
        entriesOf u s.bucket + entriesOf u x.inFlight ∨
      entriesOf u s.bucket + s.sum (fun z => entriesOf u z.inFlight) = 0 ∧
        entriesOf u s₀.bucket + entriesOf u y.inFlight ≤ 1)
    (flying : ∀ e ∈ y.inFlight, e ∈ x.inFlight ∨
      e.task ≠ t ∧ ∃ z : FutexTask ω, s.tasks[e.task]? = some z ∧ z.waits e.seq = true)
    (still : ∀ (u : Nat) (z : FutexTask ω), s.tasks[u]? = some z → ∀ e ∈ z.inFlight, e.task = t →
      y.waits e.seq = true) : (s₀.setTask t y).Exact := by
  have at₀ : s₀.tasks[t]? = some x := by rw [tasks, at_t]
  -- an entry that was in flight still finds its task waiting
  have lands : ∀ (u : Nat) (z : FutexTask ω), s.tasks[u]? = some z → ∀ e ∈ z.inFlight,
      ∃ z' : FutexTask ω, (s₀.setTask t y).tasks[e.task]? = some z' ∧ z'.waits e.seq = true := by
    intro u z at_u e member
    by_cases same : e.task = t
    · rw [same]
      exact ⟨y, tasks_setTask_self at₀, still u z at_u e member same⟩
    · obtain ⟨z', at_e, waiting⟩ := h.flying u z at_u e member
      exact ⟨z', by rw [tasks_setTask_of_ne same, tasks, at_e], waiting⟩
  constructor
  · intro u z at_u
    rcases tasks_setTask_cases at_u with ⟨-, rfl⟩ | ⟨-, at_u⟩
    · exact calm
    · exact h.calm u z (tasks ▸ at_u)
  · intro u
    have moved := sum_setTask (y := y) (fun z => entriesOf u z.inFlight) at₀
    have before := h.single u
    rw [show s₀.sum (fun z => entriesOf u z.inFlight) = s.sum fun z => entriesOf u z.inFlight by
      rw [sum, sum, tasks]] at moved
    change entriesOf u s₀.bucket + _ ≤ 1
    rcases single u with fewer | ⟨none_of, one⟩
    · omega
    · omega
  · intro u z at_u e member
    rcases tasks_setTask_cases at_u with ⟨-, rfl⟩ | ⟨-, at_u⟩
    · rcases flying e member with old | ⟨other, z, at_e, waiting⟩
      · exact lands t x at_t e old
      · exact ⟨z, by rw [tasks_setTask_of_ne other, tasks, at_e], waiting⟩
    · exact lands u z (tasks ▸ at_u) e member

theorem Exact.move
    (fewer : ∀ u, entriesOf u bucket ≤ entriesOf u s.bucket) (moves : x.Moves y)
    (still : ∀ (u : Nat) (z : FutexTask ω), s.tasks[u]? = some z → ∀ e ∈ z.inFlight, e.task = t →
      y.waits e.seq = true) : ({ s with bucket }.setTask t y).Exact := by
  apply h.change at_t { s with bucket } rfl (moves.calm (h.calm t x at_t))
  · intro u
    rw [moves.inFlight]
    exact .inl (Nat.add_le_add_right (fewer u) _)
  · intro e member
    rw [moves.inFlight] at member
    exact .inl member
  · exact still

/-- No wake is in flight for a task that does not wait. -/
theorem Exact.not_target {P : FutexEntry → Prop} (unwaited : ∀ q, x.waits q = false) (u : Nat)
    (z : FutexTask ω) (at_u : s.tasks[u]? = some z) : ∀ e ∈ z.inFlight, e.task = t → P e := by
  intro e member same
  obtain ⟨y, at_e, waiting⟩ := h.flying u z at_u e member
  rw [same, at_t] at at_e
  cases at_e
  rw [unwaited] at waiting
  cases waiting

/-- A task that has no wait open has no entry. -/
theorem Exact.no_entry (sound : s.Sound) (unlinked : x.mayBeLinked = false)
    (unwaited : ∀ q, x.waits q = false) :
    entriesOf t s.bucket + s.sum (fun z => entriesOf t z.inFlight) = 0 := by
  have bucket : entriesOf t s.bucket = 0 := by
    by_contra entries
    obtain ⟨e, member, same⟩ := entriesOf_pos_iff.mp (Nat.pos_of_ne_zero entries)
    exact sound.not_queued at_t unlinked e member same
  have flying : s.sum (fun z => entriesOf t z.inFlight) = 0 := by
    refine total_eq_zero fun z member => ?_
    obtain ⟨u, at_u⟩ := getElem?_of_mem member
    by_contra entries
    obtain ⟨e, member, same⟩ := entriesOf_pos_iff.mp (Nat.pos_of_ne_zero entries)
    exact h.not_target (P := fun _ => False) at_t unwaited u z at_u e member same
  omega

omit h at_t in
theorem entriesOf_unlinkTask_le (t u : Nat) (q : List FutexEntry) :
    entriesOf u (unlinkTask q t) ≤ entriesOf u q :=
  List.Sublist.countP_le filter_sublist

theorem Exact.link (sound : s.Sound) (phase : x.phase = .prepared w) :
    ({ s with bucket := ⟨t, x.seq, w.key⟩ :: unlinkTask s.bucket t }.setTask t
      { x with phase := .linked w }).Exact := by
  have unwaited : ∀ q, x.waits q = false := fun q => by rw [FutexTask.waits, phase]
  have empty := h.no_entry at_t sound (by rw [mayBeLinked, phase]) unwaited
  have calm := h.calm t x at_t
  rw [Calm, phase] at calm
  apply h.change at_t { s with bucket := ⟨t, x.seq, w.key⟩ :: unlinkTask s.bucket t } rfl
  · exact fun woken => .inr (calm woken)
  · intro u
    have fewer := entriesOf_unlinkTask_le t u s.bucket
    change entriesOf u (_ :: unlinkTask s.bucket t) + 0 ≤ _ ∨
      _ ∧ entriesOf u (_ :: unlinkTask s.bucket t) + 0 ≤ 1
    rw [entriesOf_cons]
    by_cases same : t = u
    · subst same
      refine .inr ⟨empty, ?_⟩
      rw [if_pos rfl]
      omega
    · left
      rw [if_neg same]
      omega
  · exact fun _ member => absurd member not_mem_nil
  · exact h.not_target at_t unwaited

theorem Exact.returns (s₀ : FutexSys ω) (tasks : s₀.tasks = s.tasks)
    (bucket : s₀.bucket = s.bucket) (unwaited : ∀ q, x.waits q = false) (r : Except Errno Nat) :
    (s₀.setTask t (x.returns r)).Exact := by
  apply h.change at_t s₀ tasks
  · exact trivial
  · intro u
    rw [bucket]
    exact .inl (Nat.add_le_add_left (Nat.zero_le _) _)
  · exact nofun
  · exact h.not_target at_t unwaited

theorem Exact.collect {want : Nat} {woke' : Nat} (phase : x.phase = .waking arg nr woke)
    (detached : collectMatching (futexWakeMatch arg) want s.bucket = (es, rest))
    (waiting : ∀ e ∈ es, (s.tasks[e.task]?).any (fun y => y.waits e.seq) = true) :
    ({ s with bucket := rest, collected := es ++ s.collected }.setTask t
      { x with phase := .flushing arg nr woke' again es }).Exact := by
  have unwaited : ∀ q, x.waits q = false := fun q => by rw [FutexTask.waits, phase]
  apply h.change at_t { s with bucket := rest, collected := es ++ s.collected } rfl
  · exact trivial
  · intro u
    left
    have counts := entriesOf_collectMatching (futexWakeMatch arg) u want s.bucket
    rw [detached] at counts
    change entriesOf u rest + entriesOf u es ≤ _
    dsimp only at counts
    omega
  · intro e member
    obtain ⟨z, at_e, waits⟩ := (any_eq_true _ _).mp (waiting e member)
    refine .inr ⟨?_, z, at_e, waits⟩
    intro same
    rw [same, at_t] at at_e
    cases at_e
    rw [unwaited] at waits
    cases waits
  · exact h.not_target at_t unwaited

omit h at_t in
/-- An event reaches a task that waits. -/
theorem tryWake_of_waits {q : Nat} (consistent : y.Consistent)
    (waiting : y.waits q = true) : y.seq = q ∧ y.eventWoken = false ∧
      (y.tryWake q .event).eventWoken = true ∧ (y.tryWake q .event).Calm := by
  obtain ⟨phase, park, env, result⟩ := y
  cases phase with
  | linked w | asleep w =>
    obtain ⟨seq, unwoken⟩ := Park.waits_iff.mp waiting
    have woken := Park.tryWake_event waiting (seq ▸ consistent.1)
    have notWoken : park.state ≠ .woken := by
      intro same
      simp [Park.unwoken, same] at unwoken
    refine ⟨seq, ?_, ?_, ?_⟩
    · simp [eventWoken, notWoken]
    · simp [eventWoken, FutexTask.tryWake, woken, Park.donated]
    · simp [Calm, FutexTask.tryWake, woken, Park.donated]
  | _ => cases waiting

/-- The wake of a detached entry leaves no other entry of the task behind. -/
theorem Exact.deliver {e : FutexEntry} (phase : x.phase = .flushing arg nr woke again (e :: es))
    (at_e : (s.setTask t { x with phase := .flushing arg nr woke again es }).tasks[e.task]? =
      some y)
    (calm : (y.tryWake e.seq .event).Calm) :
    ((s.setTask t { x with phase := .flushing arg nr woke again es }).setTask e.task
      (y.tryWake e.seq .event)).Exact := by
  set x' : FutexTask ω := { x with phase := .flushing arg nr woke again es }
  have before : x.inFlight = e :: es := by rw [inFlight, phase]
  have after : x'.inFlight = es := rfl
  -- the sums after the first of the two changes
  have counts : ∀ u, (s.setTask t x').sum (fun z => entriesOf u z.inFlight) +
      (if e.task = u then 1 else 0) = s.sum fun z => entriesOf u z.inFlight := by
    intro u
    have moved := sum_setTask (y := x') (fun z => entriesOf u z.inFlight) at_t
    beta_reduce at moved
    rw [before, after, entriesOf_cons] at moved
    omega
  have other : ∀ (u : Nat) (z : FutexTask ω), (s.setTask t x').tasks[u]? = some z →
      ∀ f ∈ z.inFlight, f.task ≠ e.task := by
    intro u z at_u f member same
    have once := h.single e.task
    have count := counts e.task
    have mine := le_sum (fun z => entriesOf e.task z.inFlight) at_u
    have positive : 0 < entriesOf e.task z.inFlight := entriesOf_pos_iff.mpr ⟨f, member, same⟩
    rw [if_pos rfl] at count
    omega
  have middle : (s.setTask t x').Exact := by
    apply h.change at_t s rfl
    · exact trivial
    · intro u
      left
      rw [before, after, entriesOf_cons]
      omega
    · intro f member
      rw [before]
      exact .inl (.tail _ member)
    · exact h.not_target at_t fun q => by rw [FutexTask.waits, phase]
  apply middle.change at_e (s.setTask t x') rfl calm
  · exact fun u => .inl (Nat.le_refl _)
  · exact fun f member => .inl member
  · exact fun u z at_u f member same => absurd same (other u z at_u f member)

end

/-! ### The ledger -/

/-- A wait that has returned is not the current wait of its task, if that is open. -/
def Passed (s : FutexSys ω) (d : FutexDone) : Prop :=
  ∃ x : FutexTask ω, s.tasks[d.task]? = some x ∧ d.seq ≤ x.seq ∧ (x.opened = true → d.seq < x.seq)

theorem Passed.setTask {d : FutexDone} (passed : s.Passed d) (at_t : s.tasks[t]? = some x)
    (seq : x.seq ≤ y.seq)
    (opened : y.opened = true → x.seq < y.seq ∨ x.opened = true ∧ y.seq = x.seq) :
    (s.setTask t y).Passed d := by
  obtain ⟨z, at_d, bound, strict⟩ := passed
  unfold Passed
  by_cases same : d.task = t
  · rw [same] at at_d ⊢
    cases at_t.symm.trans at_d
    refine ⟨y, tasks_setTask_self at_t, Nat.le_trans bound seq, fun nowOpen => ?_⟩
    rcases opened nowOpen with later | ⟨wasOpen, same⟩
    · exact Nat.lt_of_le_of_lt bound later
    · exact same ▸ strict wasOpen
  · exact ⟨z, by rw [tasks_setTask_of_ne same, at_d], bound, strict⟩

/-- Wait by wait, what was detached has returned with success, was woken, or is in flight; and the
calls have returned or hold what they counted. -/
structure Told (s : FutexSys ω) : Prop where
  past : ∀ d ∈ s.waits, ∃ x : FutexTask ω, s.tasks[d.task]? = some x ∧ d.seq ≤ x.seq ∧
    (x.opened = true → d.seq < x.seq)
  once : (s.waits.map FutexDone.wait).Nodup
  balance : ∀ k, (s.collected.map waitOf).count k =
    s.successes.count k + s.wokenAt k + s.sum fun x => (x.inFlight.map waitOf).count k
  woke : s.counts.sum + s.sum FutexTask.woke = s.collected.length

section
variable (h : s.Told) (at_t : s.tasks[t]? = some x)
include h at_t

/-- A task changes from `x` to `y`; the waits that return are of closed calls of the task. -/
theorem Told.change (s₀ : FutexSys ω) (tasks : s₀.tasks = s.tasks) (seq : x.seq ≤ y.seq)
    (opened : y.opened = true → x.seq < y.seq ∨ x.opened = true ∧ y.seq = x.seq)
    (past : ∀ d ∈ s₀.waits, d ∈ s.waits ∨ d.task = t ∧ d.seq ≤ y.seq ∧ y.opened = false)
    (once : (s₀.waits.map FutexDone.wait).Nodup)
    (balance : ∀ k, (s₀.collected.map waitOf).count k + s.successes.count k +
        (if k.1 = t then x.wokenFrom k.2 else 0) + (x.inFlight.map waitOf).count k =
      (s.collected.map waitOf).count k + s₀.successes.count k +
        (if k.1 = t then y.wokenFrom k.2 else 0) + (y.inFlight.map waitOf).count k)
    (woke : s₀.counts.sum + y.woke + s.collected.length =
      s.counts.sum + x.woke + s₀.collected.length) : (s₀.setTask t y).Told := by
  have at₀ : s₀.tasks[t]? = some x := by rw [tasks, at_t]
  have sums : ∀ f, s₀.sum f = s.sum f := fun f => by rw [sum, sum, tasks]
  constructor
  · intro d member
    rcases past d member with old | ⟨rfl, bound, closed⟩
    · have passed : s₀.Passed d := by
        rw [Passed, tasks]
        exact h.past d old
      exact passed.setTask at₀ seq opened
    · refine ⟨y, tasks_setTask_self at₀, bound, fun nowOpen => ?_⟩
      rw [closed] at nowOpen
      cases nowOpen
  · exact once
  · intro k
    have moved := sum_setTask (y := y) (fun z => (z.inFlight.map waitOf).count k) at₀
    have woken := wokenAt_setTask (y := y) at₀ k
    have before := h.balance k
    have now := balance k
    have same : s₀.wokenAt k = s.wokenAt k := by rw [wokenAt, wokenAt, tasks]
    rw [sums] at moved
    change (s₀.collected.map waitOf).count k = s₀.successes.count k + _ + _
    omega
  · have moved := sum_setTask (y := y) FutexTask.woke at₀
    have before := h.woke
    rw [sums] at moved
    change s₀.counts.sum + _ = s₀.collected.length
    omega

theorem Told.move (s₀ : FutexSys ω) (tasks : s₀.tasks = s.tasks) (waits : s₀.waits = s.waits)
    (collected : s₀.collected = s.collected) (counts : s₀.counts = s.counts) (moves : x.Moves y)
    (consistent : x.Consistent) : (s₀.setTask t y).Told := by
  have woken : ∀ q, y.wokenFrom q = x.wokenFrom q := by
    intro q
    rw [wokenFrom, wokenFrom, moves.eventWoken consistent]
    by_cases event : x.eventWoken = true
    · rw [moves.kept (.inr event)]
    · simp [event]
  apply h.change at_t s₀ tasks moves.seq moves.opened
  · exact fun d member => .inl (waits ▸ member)
  · exact waits ▸ h.once
  · intro k
    rw [collected, moves.inFlight, woken, successes, successes, waits]
  · rw [counts, collected, moves.woke]

theorem Told.link (phase : x.phase = .prepared w) (calm : x.Calm) :
    ({ s with bucket }.setTask t { x with phase := .linked w }).Told := by
  obtain ⟨_, park, env, result⟩ := x
  cases phase
  apply h.change at_t { s with bucket } rfl
  · exact Nat.le_refl _
  · exact fun _ => .inr ⟨rfl, rfl⟩
  · exact fun _ => .inl
  · exact h.once
  · intro k
    have notWoken : ¬ (park.state = .woken ∧ park.wakeReason = .event) := fun both =>
      (calm both.1).ne_event both.2
    have unwoken : FutexTask.eventWoken ⟨.linked w, park, env, result⟩ = false :=
      decide_eq_false notWoken
    rw [wokenFrom_eq_zero rfl, wokenFrom_eq_zero unwoken]
    rfl
  · rfl

theorem Told.finishWake (closed : x.opened = false) (flushed : x.inFlight = []) :
    (s.finishWake t x x.woke).Told := by
  obtain ⟨-, -, -, unwoken, -⟩ := FutexTask.of_not_opened closed
  apply h.change at_t { s with counts := x.woke :: s.counts } rfl
  · exact Nat.le_refl _
  · exact nofun
  · exact fun _ => .inl
  · exact h.once
  · intro k
    have unwoken' : (x.returns (.ok x.woke)).eventWoken = false := rfl
    rw [flushed, wokenFrom_eq_zero unwoken, wokenFrom_eq_zero unwoken']
    rfl
  · simp only [sum_cons, FutexTask.returns, FutexTask.woke]
    omega

theorem Told.collect (phase : x.phase = .waking arg nr woke) :
    ({ s with bucket := rest, collected := es ++ s.collected }.setTask t
      { x with phase := .flushing arg nr (woke + es.length) again es }).Told := by
  obtain ⟨_, park, env, result⟩ := x
  cases phase
  apply h.change at_t { s with bucket := rest, collected := es ++ s.collected } rfl
  · exact Nat.le_refl _
  · exact nofun
  · exact fun _ => .inl
  · exact h.once
  · intro k
    rw [wokenFrom_eq_zero rfl, wokenFrom_eq_zero rfl]
    simp only [map_append, count_append, inFlight, map_nil, count_nil, successes]
    omega
  · simp only [FutexTask.woke, length_append]
    omega

variable {reason : WakeReason}

omit h at_t in
/-- A wait returns with success when a wake has ended it and no signal is there. -/
theorem isOk_ended (known : reason = .event ∨ CutsShort reason)
    (unsignalled : reason = .event → x.env.hasUnblocked = false) :
    (x.ended reason).isOk = decide (reason = .event) := by
  rw [ended]
  rcases known with rfl | rfl | interrupt
  · rw [unsignalled rfl]
    rfl
  · split <;> rfl
  · have other : reason ≠ .event := CutsShort.ne_event (.inr interrupt)
    rw [if_pos (.inl interrupt), decide_eq_false other]
    rfl

theorem Told.finishWait (phase : x.phase = .returning reason) (calm : x.Calm)
    (unsignalled : reason = .event → x.env.hasUnblocked = false) :
    (s.finishWait t x reason).Told := by
  rw [Calm, phase] at calm
  have ok := isOk_ended calm unsignalled
  have opened : x.opened = true := by rw [opened, phase]
  have idle : x.inFlight = [] := by rw [inFlight, phase]
  have unwoke : x.woke = 0 := by rw [FutexTask.woke, phase]
  have event : x.eventWoken = decide (reason = .event) := by rw [eventWoken, phase]
  have fresh : (t, x.seq) ∉ s.waits.map FutexDone.wait := by
    intro member
    obtain ⟨d, listed, same⟩ := mem_map.mp member
    obtain ⟨z, at_d, -, strict⟩ := h.past d listed
    have task : d.task = t := congrArg Prod.fst same
    have number : d.seq = x.seq := congrArg Prod.snd same
    rw [task, at_t] at at_d
    cases at_d
    have := strict opened
    omega
  apply h.change at_t { s with waits := ⟨t, x.seq, x.ended reason⟩ :: s.waits } rfl
  · exact Nat.le_refl _
  · exact fun isOpen => absurd isOpen Bool.false_ne_true
  · intro d member
    rcases mem_cons.mp member with rfl | old
    · exact .inr ⟨rfl, Nat.le_refl _, rfl⟩
    · exact .inl old
  · exact nodup_cons.mpr ⟨fresh, h.once⟩
  · intro k
    have event' : (x.returns (x.ended reason)).eventWoken = false := rfl
    rw [idle, wokenFrom_eq_zero event', ite_self]
    by_cases awoken : reason = .event
    · rw [decide_eq_true awoken] at ok event
      have listed : successes { s with waits := ⟨t, x.seq, x.ended reason⟩ :: s.waits } =
          [(t, x.seq)] ++ s.successes := by
        simp [successes, ok, FutexDone.wait]
      rw [listed, count_append, wokenFrom_of_woken event]
      simp only [FutexTask.returns, inFlight]
      omega
    · rw [decide_eq_false awoken] at ok event
      have listed : successes { s with waits := ⟨t, x.seq, x.ended reason⟩ :: s.waits } =
          s.successes := by
        simp [successes, ok]
      rw [listed, wokenFrom_eq_zero event, ite_self]
      rfl
  · rw [unwoke]
    rfl

theorem Told.deliver {e : FutexEntry} (phase : x.phase = .flushing arg nr woke again (e :: es))
    (at_e : (s.setTask t { x with phase := .flushing arg nr woke again es }).tasks[e.task]? =
      some y)
    (consistent : y.Consistent) (waiting : y.waits e.seq = true) :
    ((s.setTask t { x with phase := .flushing arg nr woke again es }).setTask e.task
      (y.tryWake e.seq .event)).Told := by
  set x' : FutexTask ω := { x with phase := .flushing arg nr woke again es }
  obtain ⟨number, unwoken, woken, -⟩ := tryWake_of_waits consistent waiting
  set y' := y.tryWake e.seq .event
  have flying : x.inFlight = e :: es := by rw [inFlight, phase]
  have idle : x.eventWoken = false := by rw [eventWoken, phase]
  have idle' : x'.eventWoken = false := rfl
  have counted : x'.woke = x.woke := by rw [FutexTask.woke, FutexTask.woke, phase]
  have counted' : y'.woke = y.woke := rfl
  have seq' : y'.seq = y.seq := (y.park.tryWake_continues e.seq .event).waitSeq
  constructor
  · intro d member
    have middle : (s.setTask t x').Passed d :=
      Passed.setTask (h.past d member) at_t (Nat.le_refl _) fun isOpen =>
        absurd isOpen Bool.false_ne_true
    exact middle.setTask at_e (Nat.le_of_eq seq'.symm) fun isOpen => .inr ⟨isOpen, seq'⟩
  · exact h.once
  · intro k
    have moved := sum_setTask (y := x') (fun z => (z.inFlight.map waitOf).count k) at_t
    have moved' := sum_setTask (y := y') (fun z => (z.inFlight.map waitOf).count k) at_e
    have told := wokenAt_setTask (y := x') at_t k
    have told' := wokenAt_setTask (y := y') at_e k
    have before := h.balance k
    have same : y'.inFlight = y.inFlight := rfl
    rw [flying, map_cons, count_cons, show x'.inFlight = es from rfl] at moved
    rw [same] at moved'
    rw [wokenFrom_eq_zero idle, wokenFrom_eq_zero idle', ite_self] at told
    rw [wokenFrom_eq_zero unwoken, ite_self] at told'
    have one : (if k.1 = e.task then y'.wokenFrom k.2 else 0) = if waitOf e == k then 1 else 0 := by
      rw [wokenFrom_of_woken woken, seq', number, count_singleton]
      rfl
    change (s.collected.map waitOf).count k = s.successes.count k + _ + _
    omega
  · have moved := sum_setTask (y := x') FutexTask.woke at_t
    have moved' := sum_setTask (y := y') FutexTask.woke at_e
    have before := h.woke
    change s.counts.sum + _ = s.collected.length
    omega

end

/-! ### Every step -/

/-- The two together, and what every run keeps. -/
structure Counted (s : FutexSys ω) : Prop where
  sound : s.Sound
  precise : s.Exact
  told : s.Told

theorem Counted.step [DecidableEq ω] {s' : FutexSys ω} {l : FutexLabel ω} (h : s.Counted)
    (orderly : s.Orderly l) (taken : s.step l = some s') : s'.Counted := by
  obtain ⟨sound, precise, told⟩ := h
  have sound' := sound.step taken
  cases change_of_step taken with
  | store v => exact ⟨sound', { precise with },
      { told with }⟩
  | @move _ t x y at_t moves linked still call =>
    have consistent := sound.consistent t x at_t
    refine ⟨sound', precise.move at_t (fun _ => Nat.le_refl _) moves ?_,
      told.move at_t s rfl rfl rfl rfl moves consistent⟩
    intro u z at_u e member same
    obtain ⟨x', at_e, waiting⟩ := precise.flying u z at_u e member
    rw [same, at_t] at at_e
    cases at_e
    exact still consistent _ waiting
  | @interrupt _ t x reason at_t cuts label =>
    have moves := moves_tryWake x cuts
    refine ⟨sound', precise.move at_t (fun _ => Nat.le_refl _) moves ?_,
      told.move at_t s rfl rfl rfl rfl moves (sound.consistent t x at_t)⟩
    intro u z at_u e member same
    -- no wake for the task is in flight
    have clear : ∀ x ∈ s.tasks, ∀ e ∈ x.inFlight, e.task ≠ t := by
      rcases label with rfl | rfl <;> exact orderly
    exact absurd same (clear z (mem_of_getElem? at_u) e member)
  | @link t x w at_t phase expected =>
    exact ⟨sound', precise.link at_t sound phase, told.link at_t phase (precise.calm t x at_t)⟩
  | @unlink _ t x y at_t moves before after call =>
    exact ⟨sound', precise.move at_t (entriesOf_unlinkTask_le t · _) moves
      (precise.not_target at_t before), told.move at_t
      { s with bucket := unlinkTask s.bucket t } rfl rfl rfl rfl moves
      (sound.consistent t x at_t)⟩
  | @finishWait t x reason at_t phase =>
    have unwaited : ∀ q, x.waits q = false := fun q => by rw [FutexTask.waits, phase]
    refine ⟨sound', precise.returns at_t { s with waits := ⟨t, x.seq, x.ended reason⟩ :: s.waits }
      rfl rfl
      unwaited _, told.finishWait at_t phase (precise.calm t x at_t) ?_⟩
    rintro rfl
    have event : x.eventWoken = true := by rw [eventWoken, phase]; rfl
    simpa [Orderly, at_t, event] using orderly
  | @finishWake _ t x at_t closed flushed nobody =>
    obtain ⟨-, -, unwaited, -⟩ := FutexTask.of_not_opened closed
    exact ⟨sound', precise.returns at_t { s with counts := x.woke :: s.counts } rfl rfl unwaited _,
      told.finishWake at_t closed flushed⟩
  | @collect t nr woke want x arg es rest at_t phase limit detached somebody =>
    refine ⟨sound', precise.collect at_t phase detached ?_, told.collect at_t phase⟩
    have batch : s.nextBatch t = es := by
      rw [nextBatch, at_t, map_some, phase]
      simp only [← limit, detached]
    rw [← batch]
    exact orderly
  | @deliver t nr woke x arg again e es at_t phase =>
    have flying : x.inFlight = e :: es := by rw [inFlight, phase]
    obtain ⟨y, at_e, waiting⟩ := precise.flying t x at_t e (flying ▸ .head _)
    have other : e.task ≠ t := by
      intro same
      rw [same, at_t] at at_e
      cases at_e
      rw [FutexTask.waits, phase] at waiting
      cases waiting
    have consistent := sound.consistent _ y at_e
    rw [← tasks_setTask_of_ne (y := { x with phase := .flushing arg nr woke again es })
      other] at at_e
    rw [deliverWake_eq at_e] at sound' ⊢
    obtain ⟨-, -, -, calm⟩ := tryWake_of_waits consistent waiting
    exact ⟨sound', precise.deliver at_t phase at_e calm,
      told.deliver at_t phase at_e consistent waiting⟩

theorem sum_init {f : FutexTask ω → Nat} (user : f {} = 0) (word : ω) (pkey n : Nat) :
    (init word pkey n).sum f = 0 := by
  refine total_eq_zero fun x member => ?_
  rw [eq_of_mem_replicate member]
  exact user

theorem counted_init (word : ω) (pkey n : Nat) : (init word pkey n).Counted where
  sound := sound_init word pkey n
  precise := by
    constructor
    · intro t x at_t
      rw [eq_of_mem_replicate (mem_of_getElem? at_t)]
      exact trivial
    · intro t
      rw [sum_init rfl]
      exact Nat.zero_le _
    · intro u x at_u e member
      rw [eq_of_mem_replicate (mem_of_getElem? at_u)] at member
      cases member
  told := by
    constructor
    · exact nofun
    · exact nodup_nil
    · intro k
      rw [sum_init rfl, wokenAt]
      cases at_k : (init word pkey n).tasks[k.1]? with
      | none => rfl
      | some x =>
        rw [eq_of_mem_replicate (mem_of_getElem? at_k), elim_some, wokenFrom_eq_zero rfl]
        rfl
    · rw [sum_init rfl]
      rfl

/-! ### The count -/

/-- No `futex_wake` is under way, and no woken wait has yet to return. -/
def Quiet (s : FutexSys ω) : Prop :=
  ∀ x ∈ s.tasks, x.eventWoken = false ∧ x.woke = 0 ∧ x.inFlight = []

instance (s : FutexSys ω) : Decidable s.Quiet := by
  unfold Quiet
  infer_instance

/-- A wait that has returned is not woken any more, and has nothing in flight. -/
theorem Counted.settled (h : s.Counted) {d : FutexDone} (returned : d ∈ s.waits) :
    s.wokenAt d.wait = 0 ∧ (s.sum fun x => (x.inFlight.map waitOf).count d.wait) = 0 := by
  obtain ⟨x, at_d, bound, strict⟩ := h.told.past d returned
  constructor
  · rw [wokenAt, show d.wait.1 = d.task from rfl, at_d, elim_some]
    by_cases opened : x.opened = true
    · have later := strict opened
      refine if_neg fun both => ?_
      have same : x.seq = d.seq := both.1
      omega
    · rw [Bool.not_eq_true] at opened
      exact wokenFrom_eq_zero (FutexTask.of_not_opened opened).2.2.2.1 _
  · refine total_eq_zero fun z member => count_eq_zero.mpr fun flies => ?_
    obtain ⟨u, at_u⟩ := getElem?_of_mem member
    obtain ⟨e, listed, same⟩ := mem_map.mp flies
    have task : e.task = d.task := congrArg Prod.fst same
    have number : e.seq = d.seq := congrArg Prod.snd same
    obtain ⟨y, at_e, waiting⟩ := h.precise.flying u z at_u e listed
    rw [task] at at_e
    cases at_d.symm.trans at_e
    have current := (tryWake_of_waits (h.sound.consistent _ x at_d) waiting).1
    by_cases opened : x.opened = true
    · have later := strict opened
      omega
    · rw [Bool.not_eq_true] at opened
      rw [(FutexTask.of_not_opened opened).2.2.1] at waiting
      cases waiting

/-- **Wakes are counted once.** In a run whose steps are orderly no wait was counted that returned
with an error, and when no call is under way the counts that were returned add up to the waits
that returned with success. -/
theorem futex_wake_count [DecidableEq ω] {word : ω} {pkey n : Nat} {s : FutexSys ω}
    (run : RunsTo step Orderly (init word pkey n) s) :
    (∀ d ∈ s.waits, d.result.isOk = false → ∀ e ∈ s.collected, waitOf e ≠ d.wait) ∧
    (s.Quiet → s.counts.sum = s.successes.length) := by
  have h : s.Counted :=
    run.invariant Counted.step (counted_init word pkey n)
  constructor
  · intro d returned failed e counted same
    obtain ⟨unwoken, landed⟩ := h.settled returned
    have balance := h.told.balance d.wait
    have positive : 0 < (s.collected.map waitOf).count d.wait :=
      count_pos_iff.mpr (mem_map.mpr ⟨e, counted, same⟩)
    have success : 0 < s.successes.count d.wait := by omega
    obtain ⟨d', listed, twin⟩ := mem_map.mp (count_pos_iff.mp success)
    obtain ⟨returned', ok⟩ := mem_filter.mp listed
    -- a wait returns once, so the two are one
    have one := inj_on_of_nodup_map h.told.once returned' returned twin
    rw [one, failed] at ok
    cases ok
  · intro quiet
    have landed : ∀ k, (s.sum fun x => (x.inFlight.map waitOf).count k) = 0 := fun k =>
      total_eq_zero fun x member => by rw [(quiet x member).2.2]; rfl
    have unwoken : ∀ k, s.wokenAt k = 0 := by
      intro k
      rw [wokenAt]
      cases at_k : s.tasks[k.1]? with
      | none => rfl
      | some x => exact wokenFrom_eq_zero (quiet x (mem_of_getElem? at_k)).1 _
    have ended : s.sum FutexTask.woke = 0 := total_eq_zero fun x member => (quiet x member).2.1
    have same : (s.collected.map waitOf).Perm s.successes := by
      refine perm_iff_count.mpr fun k => ?_
      rw [h.told.balance k, unwoken, landed]
      rfl
    have total := h.told.woke
    rw [ended] at total
    rw [← same.length_eq, length_map]
    exact total

/-- A wait on the word from its only address. -/
def parkOn (t expected : Nat) (timed : Bool) : List (FutexLabel Nat) :=
  [.wait t 0 4096 futexBitsetMatchAny expected timed, .prepare t, .link t true true true, .commit t]

/-- Two tasks sleep and a third wakes both. -/
theorem futex_wake_count_two : ∃ s : FutexSys Nat, RunsTo step Orderly (init 0 8192 3) s ∧
    s.Quiet ∧ s.counts = [2] ∧ s.counts.sum = s.successes.length := by
  obtain ⟨s, run, quiet, counts⟩ : ∃ s : FutexSys Nat, RunsTo step Orderly (init 0 8192 3) s ∧
      s.Quiet ∧ s.counts = [2] :=
    runsTo_of_execWhile (parkOn 0 0 true ++ parkOn 1 0 false ++
      [.wake 2 0 4096 futexBitsetMatchAny true 5, .collect 2, .deliver 2, .deliver 2, .next 2,
        .resume 0, .unlink 0, .finish 0, .resume 1, .unlink 1, .finish 1]) (by decide +kernel)
  exact ⟨s, run, quiet, counts, (futex_wake_count run).2 quiet⟩

/-- The deadline of a sleeping task passes, and before the task has unlinked its entry a wake
detaches it: the wake counts one, and the wait times out. -/
theorem futex_wake_count_timeout : ∃ s : FutexSys Nat, RunsTo step always (init 0 8192 2) s ∧
    s.Quiet ∧ s.counts = [1] ∧ s.successes = [] ∧
    ∃ d ∈ s.waits, d.result = .error .ETIMEDOUT ∧ d.wait ∈ s.collected.map waitOf :=
  runsTo_of_exec (parkOn 0 0 true ++ [.timeout 0, .wake 1 0 4096 futexBitsetMatchAny true 1,
    .collect 1, .deliver 1, .next 1, .collect 1, .resume 0, .unlink 0, .finish 0])
      (by decide +kernel)

/-- **No waiter is lost.** In every run the entries and the waits fit: a task that waits and was
not woken has its entry in the queue or in the batch of a waker, and an entry in the queue is of
the wait its task is in. -/
theorem futex_sound [DecidableEq ω] {word : ω} {pkey n : Nat} {s : FutexSys ω}
    (run : RunsTo step always (init word pkey n) s) : s.Sound :=
  run.invariant (fun h _ => h.step) (sound_init word pkey n)

theorem futex_sound_asleep :
    ∃ s : FutexSys Nat, RunsTo step always (init 0 8192 2) s ∧ s.Has 0 1 := by
  obtain ⟨s, run, x, at_t, waits⟩ : ∃ s : FutexSys Nat, RunsTo step always (init 0 8192 2) s ∧
      ∃ x ∈ s.tasks[0]?, x.waits 1 = true := runsTo_of_exec (parkOn 0 0 true) (by decide +kernel)
  exact ⟨s, run, (futex_sound run).found 0 x 1 at_t waits⟩

end FutexSys

end A20OS.Ipc
