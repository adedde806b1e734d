import A20OS.Core.RwMutex

/-!
The read-write mutex over whole runs.

The invariant counts the readers inside, the writer inside and the writers that wait. Every
sleeping task has exactly one entry, in a wait queue or collected (`sleepers`). When nobody is
inside and a writer is linked, some task is bound to take the mutex as a writer or to wake one
(`PromisesWrite`); `PromisesRead` is the same for readers. Every step but a delivery moves one
task, so one lemma (`Inv.change`) carries them all.
-/

namespace A20OS.Core

open Lib List Option

variable {t n : Nat} {k : RwKind} {p p' : RwPhase} {s : RwSys}

namespace RwPhase

def holdsRead : RwPhase → Nat
  | .holding .read => 1
  | _ => 0

def holdsWrite : RwPhase → Nat
  | .holding .write => 1
  | _ => 0

/-- The task is counted in `waiting_writers`. -/
def waitsWrite : RwPhase → Nat
  | .trying .write | .preparing .write | .prepared .write _ | .parked .write _ _ => 1
  | _ => 0

/-- The task is parked and no wake has been delivered to it. -/
def asleep : RwPhase → Nat
  | .parked _ _ false => 1
  | _ => 0

/-- The entries the task has collected and not yet woken. -/
def inFlight : RwPhase → List RwEntry
  | .flushing _ es _ => es
  | _ => []

/-- The task is going to take the mutex as a writer, or to wake a writer. -/
def PromisesWrite : RwPhase → Prop
  | .collecting .write | .trying .write | .preparing .write | .prepared .write _
  | .parked .write _ true => True
  | .flushing .write es _ => es ≠ []
  | _ => False

/-- The task is outside, inside, or asleep. -/
def Settled : RwPhase → Prop
  | .outside | .holding _ | .parked _ _ false => True
  | _ => False

/-- The task is going to collect the readers. -/
def PromisesRead : RwPhase → Prop
  | .collecting .read => True
  | .flushing .read _ again => again = true
  | _ => False

theorem exists_holding (holds : 0 < p.holdsWrite ∨ 0 < p.holdsRead) : ∃ k, p = .holding k := by
  cases p with
  | holding k => exact ⟨k, rfl⟩
  | _ => exact holds.elim nofun nofun

end RwPhase

namespace RwSys

open RwPhase

/-- What task `t` is doing. -/
def phase (s : RwSys) (t : Nat) : Option RwPhase := s.tasks[t]?.map RwTask.phase

def asleepAt (s : RwSys) (t : Nat) : Nat := (s.phase t).elim 0 RwPhase.asleep

/-- The sum of a measure over the tasks. -/
def sum (f : RwPhase → Nat) (s : RwSys) : Nat := total (fun x => f x.phase) s.tasks

structure Inv (s : RwSys) : Prop where
  readers : s.readers = s.sum holdsRead
  writers : s.writer.toNat = s.sum holdsWrite
  waiting : s.waitingWriters = s.sum waitsWrite
  exclusive : s.writer = true → s.readers = 0
  sleepers : ∀ t, entriesOf t s.readerWaiters + entriesOf t s.writerWaiters +
    s.sum (fun p => entriesOf t p.inFlight) = s.asleepAt t
  linked : ∀ k, ∀ e ∈ s.waiters k, s.phase e.task = some (.parked k e.seq false)
  flying : ∀ t k es again, s.phase t = some (.flushing k es again) →
    ∀ e ∈ es, s.phase e.task = some (.parked k e.seq false)
  writeWake : s.writer = false → s.readers = 0 → s.writerWaiters ≠ [] →
    ∃ t p, s.phase t = some p ∧ p.PromisesWrite
  readWake : s.writer = false → s.waitingWriters = 0 → s.readerWaiters ≠ [] →
    ∃ t p, s.phase t = some p ∧ p.PromisesRead

/-! ### Moving one task -/

section SetTask

variable {x y : RwTask}

theorem phase_of_getElem? (at_t : s.tasks[t]? = some x) : s.phase t = some x.phase := by
  rw [phase, at_t]
  rfl

theorem phase_setTask_self (at_t : s.tasks[t]? = some x) :
    (s.setTask t y).phase t = some y.phase := by
  have inside : t < s.tasks.length := (List.getElem?_eq_some_iff.mp at_t).1
  simp [phase, setTask, inside]

theorem phase_setTask_of_ne {u : Nat} (other : u ≠ t) : (s.setTask t y).phase u = s.phase u := by
  simp [phase, setTask, List.getElem?_set_ne other.symm]

theorem sum_setTask (f : RwPhase → Nat) (at_t : s.tasks[t]? = some x) :
    (s.setTask t y).sum f + f x.phase = s.sum f + f y.phase :=
  total_set at_t y

theorem asleepAt_setTask (at_t : s.tasks[t]? = some x) (u : Nat) :
    (s.setTask t y).asleepAt u + (if u = t then x.phase.asleep else 0) =
      s.asleepAt u + if u = t then y.phase.asleep else 0 := by
  by_cases same : u = t
  · subst same
    simp only [asleepAt, phase_setTask_self at_t, phase_of_getElem? at_t, elim_some, if_true]
    exact Nat.add_comm _ _
  · simp only [asleepAt, phase_setTask_of_ne same, if_neg same]

theorem le_sum (f : RwPhase → Nat) (found : s.phase t = some p) : f p ≤ s.sum f := by
  obtain ⟨x, at_t, rfl⟩ := map_eq_some_iff.mp found
  exact le_total_of_mem (fun x : RwTask => f x.phase) (mem_of_getElem? at_t)

end SetTask

section
variable (h : s.Inv)
include h

section
variable (s₀ : RwSys) {n' : Nat}
  (tasks : s₀.tasks = s.tasks) (at_t : s.tasks[t]? = some ⟨p, n⟩) (awake : p.asleep = 0)
  (readers : s₀.readers + p.holdsRead = s.readers + p'.holdsRead)
  (writers : s₀.writer.toNat + p.holdsWrite = s.writer.toNat + p'.holdsWrite)
  (waiting : s₀.waitingWriters + p.waitsWrite = s.waitingWriters + p'.waitsWrite)
  (exclusive : s₀.writer = true → s₀.readers = 0)
  (writeWake : s₀.writer = false → s₀.readers = 0 → s₀.writerWaiters ≠ [] → p'.PromisesWrite ∨
    s.writer = false ∧ s.readers = 0 ∧ s.writerWaiters ≠ [] ∧ ¬ p.PromisesWrite)
  (readWake : s₀.writer = false → s₀.waitingWriters = 0 → s₀.readerWaiters ≠ [] →
    p'.PromisesRead ∨
    s.writer = false ∧ s.waitingWriters = 0 ∧ s.readerWaiters ≠ [] ∧ ¬ p.PromisesRead)
include tasks at_t awake readers writers waiting exclusive writeWake readWake

/-- **One task moves** from phase `p` to `p'` while counters and queues change to those of `s₀`. -/
theorem Inv.change
    (sleepers : ∀ u, entriesOf u s₀.readerWaiters + entriesOf u s₀.writerWaiters +
      entriesOf u p'.inFlight = entriesOf u s.readerWaiters + entriesOf u s.writerWaiters +
        entriesOf u p.inFlight + if u = t then p'.asleep else 0)
    (linked : ∀ k, ∀ e ∈ s₀.waiters k, e ∈ s.waiters k ∨ e.task = t ∧ p' = .parked k e.seq false)
    (flying : ∀ k es again, p' = .flushing k es again → ∀ e ∈ es, e ∈ s.waiters k) :
    (s₀.setTask t ⟨p', n'⟩).Inv := by
  have at₀ : s₀.tasks[t]? = some ⟨p, n⟩ := by rw [tasks, at_t]
  have sums : ∀ f, s₀.sum f = s.sum f := fun f => by rw [sum, sum, tasks]
  have phases : ∀ u, s₀.phase u = s.phase u := fun u => by rw [phase, phase, tasks]
  have old : s.phase t = some p := phase_of_getElem? at_t
  -- a task that sleeps is another one than `t`
  have kept : ∀ {u k q}, s.phase u = some (.parked k q false) →
      (s₀.setTask t ⟨p', n'⟩).phase u = some (.parked k q false) := by
    intro u k q asleep
    have other : u ≠ t := by
      rintro rfl
      rw [old] at asleep
      cases asleep
      cases awake
    rw [phase_setTask_of_ne other, phases, asleep]
  have promised : ∀ {P : RwPhase → Prop}, ¬ P p → (∃ u q, s.phase u = some q ∧ P q) →
      ∃ u q, (s₀.setTask t ⟨p', n'⟩).phase u = some q ∧ P q := by
    rintro P notHere ⟨u, q, found, holds⟩
    have other : u ≠ t := by
      rintro rfl
      rw [old] at found
      cases found
      exact notHere holds
    exact ⟨u, q, by rw [phase_setTask_of_ne other, phases, found], holds⟩
  have counts : ∀ {f a a₀}, a = s.sum f → a₀ + f p = a + f p' →
      a₀ = (s₀.setTask t ⟨p', n'⟩).sum f := by
    intro f a a₀ counted change
    have moved := sum_setTask (y := ⟨p', n'⟩) f at₀
    rw [sums, ← counted] at moved
    dsimp only at moved
    omega
  constructor
  · exact counts h.readers readers
  · exact counts h.writers writers
  · exact counts h.waiting waiting
  · exact exclusive
  · intro u
    have moved := sum_setTask (y := ⟨p', n'⟩) (fun p => entriesOf u p.inFlight) at₀
    have slept := asleepAt_setTask (y := ⟨p', n'⟩) at₀ u
    have before := h.sleepers u
    have now := sleepers u
    have same : s₀.asleepAt u = s.asleepAt u := by rw [asleepAt, asleepAt, phases]
    rw [sums] at moved
    simp only [awake, ite_self, Nat.add_zero] at slept
    dsimp only at moved
    change entriesOf u s₀.readerWaiters + entriesOf u s₀.writerWaiters + _ = _
    omega
  · intro k e member
    rcases linked k e (by cases k <;> exact member) with listed | ⟨rfl, rfl⟩
    · exact kept (h.linked k e listed)
    · exact phase_setTask_self at₀
  · intro u k es again found e member
    by_cases same : u = t
    · subst same
      rw [phase_setTask_self at₀] at found
      exact kept (h.linked k e (flying k es again (some.inj found) e member))
    · rw [phase_setTask_of_ne same, phases] at found
      exact kept (h.flying u k es again found e member)
  · intro unlocked empty queued
    rcases writeWake unlocked empty queued with here | ⟨unlocked, empty, queued, notHere⟩
    · exact ⟨t, p', phase_setTask_self at₀, here⟩
    · exact promised notHere (h.writeWake unlocked empty queued)
  · intro unlocked empty queued
    rcases readWake unlocked empty queued with here | ⟨unlocked, empty, queued, notHere⟩
    · exact ⟨t, p', phase_setTask_self at₀, here⟩
    · exact promised notHere (h.readWake unlocked empty queued)

/-- A move that no queue takes part in. -/
theorem Inv.calm (readerWaiters : s₀.readerWaiters = s.readerWaiters)
    (writerWaiters : s₀.writerWaiters = s.writerWaiters) (idle : p.inFlight = [])
    (idle' : p'.inFlight = []) (awake' : p'.asleep = 0) : (s₀.setTask t ⟨p', n'⟩).Inv := by
  apply h.change s₀ tasks at_t awake readers writers waiting exclusive writeWake readWake
  · intro u
    rw [readerWaiters, writerWaiters, idle, idle', awake', ite_self, Nat.add_zero]
  · intro k e member
    left
    cases k with
    | read => exact (congrArg (e ∈ ·) readerWaiters).mp member
    | write => exact (congrArg (e ∈ ·) writerWaiters).mp member
  · rintro k es again rfl e member
    rw [show es = [] from idle'] at member
    cases member

end

/-- A move that no counter and no queue takes part in. -/
theorem Inv.move {n' : Nat}
    (at_t : s.tasks[t]? = some ⟨p, n⟩) (awake : p.asleep = 0) (awake' : p'.asleep = 0)
    (reads : p'.holdsRead = p.holdsRead) (writes : p'.holdsWrite = p.holdsWrite)
    (waits : p'.waitsWrite = p.waitsWrite) (idle : p.inFlight = []) (idle' : p'.inFlight = [])
    (promisesWrite : p.PromisesWrite → p'.PromisesWrite)
    (promisesRead : p.PromisesRead → p'.PromisesRead) : (s.setTask t ⟨p', n'⟩).Inv := by
  refine h.calm s rfl at_t awake ?_ ?_ ?_ h.exclusive ?_ ?_ rfl rfl idle idle' awake'
  · rw [reads]
  · rw [writes]
  · rw [waits]
  · intro unlocked empty queued
    by_cases here : p.PromisesWrite
    · exact .inl (promisesWrite here)
    · exact .inr ⟨unlocked, empty, queued, here⟩
  · intro unlocked empty queued
    by_cases here : p.PromisesRead
    · exact .inl (promisesRead here)
    · exact .inr ⟨unlocked, empty, queued, here⟩

/-- A task takes the free mutex, from either of the two checks. -/
theorem Inv.take
    (at_t : s.tasks[t]? = some ⟨p, n⟩) (from_check : p = .trying k ∨ ∃ seq, p = .prepared k seq)
    (free : s.free k = true) : ((s.take k).setTask t ⟨.holding k, n⟩).Inv := by
  cases k with
  | read =>
    simp only [RwSys.free, Bool.and_eq_true, Bool.not_eq_true', beq_iff_eq] at free
    have exclusive : s.writer = true → s.readers + 1 = 0 := by
      rw [free.1]
      exact nofun
    rcases from_check with rfl | ⟨seq, rfl⟩ <;>
      exact h.calm (s.take .read) rfl at_t rfl rfl rfl rfl exclusive nofun
        (fun unlocked nobody queued => .inr ⟨unlocked, nobody, queued, id⟩) rfl rfl rfl rfl rfl
  | write =>
    simp only [RwSys.free, Bool.and_eq_true, Bool.not_eq_true', beq_iff_eq] at free
    have here := le_sum waitsWrite (phase_of_getElem? at_t)
    rw [← h.waiting] at here
    have enters : (s.take .write).writer.toNat = s.writer.toNat + 1 := by
      rw [free.1]
      rfl
    rcases from_check with rfl | ⟨seq, rfl⟩ <;>
      exact h.calm (s.take .write) rfl at_t rfl rfl enters (Nat.sub_add_cancel here)
        (fun _ => free.2)
        nofun nofun rfl rfl rfl rfl rfl

theorem Inv.writeLock (at_t : s.tasks[t]? = some ⟨.outside, n⟩) :
    ({ s with waitingWriters := s.waitingWriters + 1 }.setTask t ⟨.trying .write, n⟩).Inv := by
  exact h.calm { s with waitingWriters := s.waitingWriters + 1 } rfl at_t rfl rfl rfl rfl
    h.exclusive
    (fun _ _ _ => .inl trivial) nofun rfl rfl rfl rfl rfl

/-- A task that found the mutex taken goes to sleep. -/
theorem Inv.sleep {seq : Nat}
    (at_t : s.tasks[t]? = some ⟨.prepared k seq, n⟩) (taken : s.free k = false) :
    ((s.setWaiters k (⟨t, seq, ()⟩ :: s.waiters k)).setTask t ⟨.parked k seq false, n⟩).Inv := by
  apply h.change (s.setWaiters k (⟨t, seq, ()⟩ :: s.waiters k)) (by cases k <;> rfl) at_t rfl
  · cases k <;> rfl
  · cases k <;> rfl
  · cases k <;> rfl
  · cases k <;> exact h.exclusive
  · intro unlocked empty queued
    cases k with
    | read => exact .inr ⟨unlocked, empty, queued, id⟩
    | write =>
      rw [RwSys.free] at taken
      simp only [setWaiters] at unlocked empty
      simp [unlocked, empty] at taken
  · intro unlocked nobody queued
    cases k with
    | read =>
      rw [RwSys.free] at taken
      simp only [setWaiters] at unlocked nobody
      simp [unlocked, nobody] at taken
    | write => exact .inr ⟨unlocked, nobody, queued, id⟩
  · intro u
    cases k <;> simp only [setWaiters, waiters, entriesOf_cons, RwPhase.inFlight, RwPhase.asleep,
      entriesOf_nil, eq_comm] <;> omega
  · intro j e member
    by_cases same : j = k
    · subst same
      have here : e ∈ ⟨t, seq, ()⟩ :: s.waiters j := by cases j <;> exact member
      rcases mem_cons.mp here with rfl | old
      · exact .inr ⟨rfl, rfl⟩
      · exact .inl old
    · left
      cases j <;> cases k <;> first | exact member | exact absurd rfl same
  · exact nofun

theorem Inv.waitingWriters_pos (queued : s.writerWaiters ≠ []) : 0 < s.waitingWriters := by
  obtain ⟨e, linked⟩ := exists_mem_of_ne_nil _ queued
  have counted := le_sum waitsWrite (h.linked .write e linked)
  rwa [← h.waiting] at counted

theorem Inv.writer_of_holding (holds : s.phase t = some (.holding .write)) : s.writer = true := by
  have counted : 1 ≤ s.sum holdsWrite := le_sum holdsWrite holds
  rw [← h.writers] at counted
  cases locked : s.writer with
  | true => rfl
  | false =>
    rw [locked] at counted
    cases counted

/-- A reader or the writer leaves. -/
theorem Inv.unlock (at_t : s.tasks[t]? = some ⟨.holding k, n⟩) : ((s.release k).1.setTask t
    ⟨match (s.release k).2 with | some j => .collecting j | none => .outside, n⟩).Inv := by
  cases k with
  | read =>
    have inside := le_sum holdsRead (phase_of_getElem? at_t)
    rw [← h.readers] at inside
    have exclusive : s.writer = true → s.readers - 1 = 0 := by
      intro locked
      rw [h.exclusive locked]
    by_cases last : s.readers - 1 = 0 ∧ 0 < s.waitingWriters
    · simp only [release, if_pos last]
      exact h.calm { s with readers := s.readers - 1 } rfl at_t rfl
        (Nat.sub_add_cancel inside) rfl rfl
        exclusive (fun _ _ _ => .inl trivial)
        (fun unlocked nobody queued => .inr ⟨unlocked, nobody, queued, id⟩) rfl rfl rfl rfl rfl
    · simp only [release, if_neg last]
      exact h.calm { s with readers := s.readers - 1 } rfl at_t rfl
        (Nat.sub_add_cancel inside) rfl rfl
        exclusive (fun _ empty queued => absurd ⟨empty, h.waitingWriters_pos queued⟩ last)
        (fun unlocked nobody queued => .inr ⟨unlocked, nobody, queued, id⟩) rfl rfl rfl rfl rfl
  | write =>
    have leaves : 0 + 1 = s.writer.toNat + 0 := by
      rw [h.writer_of_holding (phase_of_getElem? at_t)]
      rfl
    by_cases waiting : 0 < s.waitingWriters
    · simp only [release, if_pos waiting]
      exact h.calm { s with writer := false } rfl at_t rfl rfl leaves rfl nofun
        (fun _ _ _ => .inl trivial) (fun _ nobody => absurd nobody (Nat.ne_of_gt waiting))
        rfl rfl rfl rfl rfl
    · simp only [release, if_neg waiting]
      exact h.calm { s with writer := false } rfl at_t rfl rfl leaves rfl nofun
        (fun _ _ queued => absurd (h.waitingWriters_pos queued) waiting) (fun _ _ _ => .inl trivial)
        rfl rfl rfl rfl rfl

variable {es : List RwEntry}

/-- An unlock collects the waiters it is going to wake. -/
theorem Inv.collect (at_t : s.tasks[t]? = some ⟨.collecting k, n⟩) {rest : List RwEntry}
    (collected : collectMatching (fun _ => true) (limit k) (s.waiters k) = (es, rest)) :
    ((s.setWaiters k rest).setTask t ⟨.flushing k es (k == .read && !rest.isEmpty), n⟩).Inv := by
  have parts := collectMatching_perm (fun _ => true) (limit k) (s.waiters k)
  have counts := fun u => entriesOf_collectMatching (fun _ => true) u (limit k) (s.waiters k)
  have short := @rest_of_collectMatching _ (s.waiters k) (fun _ => true) (limit k)
  rw [collected] at parts short
  simp only [collected] at counts
  have fromQueue : ∀ e ∈ es, e ∈ s.waiters k := fun e member =>
    parts.mem_iff.mp (mem_append_left _ member)
  have stillQueued : ∀ e ∈ rest, e ∈ s.waiters k := fun e member =>
    parts.mem_iff.mp (mem_append_right _ member)
  apply h.change (s.setWaiters k rest) (by cases k <;> rfl) at_t rfl
  · cases k <;> rfl
  · cases k <;> rfl
  · cases k <;> rfl
  · cases k <;> exact h.exclusive
  · intro unlocked empty queued
    cases k with
    | read => exact .inr ⟨unlocked, empty, queued, id⟩
    | write =>
      left
      rintro rfl
      -- one writer is taken if there is any, so none is left
      have nothing := short Nat.zero_lt_one
      cases rest with
      | nil => exact queued rfl
      | cons e rest => exact nomatch nothing e (.head _)
  · intro unlocked nobody queued
    cases k with
    | write => exact .inr ⟨unlocked, nobody, queued, id⟩
    | read =>
      left
      cases rest with
      | nil => exact absurd rfl queued
      | cons e rest => rfl
  · intro u
    have := counts u
    cases k with
    | read | write =>
      simp only [setWaiters, waiters, RwPhase.inFlight, RwPhase.asleep, ite_self,
        entriesOf_nil] at this ⊢
      omega
  · intro j e member
    left
    cases k <;> cases j
    · exact stillQueued e member
    · exact member
    · exact member
    · exact stillQueued e member
  · rintro j fs again ⟨⟩ e member
    exact fromQueue e member

/-- A woken task unlinks its entry, which its waker detached already, and tries again. -/
theorem Inv.resume {seq : Nat} (at_t : s.tasks[t]? = some ⟨.parked k seq true, n⟩) :
    ((s.setWaiters k (unlinkTask (s.waiters k) t)).setTask t ⟨.trying k, n⟩).Inv := by
  have gone := h.sleepers t
  rw [asleepAt, phase_of_getElem? at_t, elim_some,
    show (RwPhase.parked k seq true).asleep = 0 from rfl] at gone
  have nothing : entriesOf t (s.waiters k) = 0 := by
    cases k with
    | read => exact (show entriesOf t s.readerWaiters = 0 by omega)
    | write => exact (show entriesOf t s.writerWaiters = 0 by omega)
  have same : s.setWaiters k (unlinkTask (s.waiters k) t) = s := by
    rw [unlinkTask_eq_self nothing]
    cases k <;> rfl
  rw [same]
  apply h.move at_t <;> cases k <;> first | rfl | exact id

omit h in
/-- The task that waits with a collected entry is another one than the task that wakes it. -/
theorem getElem?_flushed {m : Nat} {e : RwEntry} {again : Bool}
    (at_t : s.tasks[t]? = some ⟨.flushing k (e :: es) again, n⟩)
    (at_e : s.tasks[e.task]? = some ⟨.parked k e.seq false, m⟩) :
    e.task ≠ t ∧ (s.setTask t ⟨.flushing k es again, n⟩).tasks[e.task]? =
      some ⟨.parked k e.seq false, m⟩ := by
  have other : e.task ≠ t := by
    intro same
    rw [same, at_t] at at_e
    cases at_e
  exact ⟨other, (List.getElem?_set_ne other.symm).trans at_e⟩

/-- The wake of a collected entry reaches the task that waits with it. -/
theorem Inv.deliver {m : Nat} {e : RwEntry} {again : Bool}
    (at_t : s.tasks[t]? = some ⟨.flushing k (e :: es) again, n⟩)
    (at_e : s.tasks[e.task]? = some ⟨.parked k e.seq false, m⟩) :
    ((s.setTask t ⟨.flushing k es again, n⟩).setTask e.task ⟨.parked k e.seq true, m⟩).Inv := by
  obtain ⟨other, at_e₁⟩ := getElem?_flushed at_t at_e
  let s' := (s.setTask t ⟨.flushing k es again, n⟩).setTask e.task ⟨.parked k e.seq true, m⟩
  have sums : ∀ f : RwPhase → Nat, f (.parked k e.seq true) = f (.parked k e.seq false) →
      s'.sum f + f (.flushing k (e :: es) again) = s.sum f + f (.flushing k es again) := by
    intro f same
    have first := sum_setTask (y := ⟨.flushing k es again, n⟩) f at_t
    have second : s'.sum f + _ = _ := sum_setTask f at_e₁
    dsimp only at first second
    omega
  have elsewhere : ∀ {u}, u ≠ t → u ≠ e.task → s'.phase u = s.phase u := by
    intro u notThere notWoken
    rw [phase_setTask_of_ne notWoken, phase_setTask_of_ne notThere]
  have here : s'.phase t = some (.flushing k es again) := by
    rw [phase_setTask_of_ne other.symm, phase_setTask_self at_t]
  have woken : s'.phase e.task = some (.parked k e.seq true) := phase_setTask_self at_e₁
  have counts : ∀ u, entriesOf u s.readerWaiters + entriesOf u s.writerWaiters +
      s'.sum (fun p => entriesOf u p.inFlight) = s'.asleepAt u := by
    intro u
    have moved : s'.sum (fun p => entriesOf u p.inFlight) + entriesOf u (e :: es) =
        s.sum (fun p => entriesOf u p.inFlight) + entriesOf u es := sums _ rfl
    have before := h.sleepers u
    have slept := asleepAt_setTask (y := ⟨.flushing k es again, n⟩) at_t u
    have slept₁ : s'.asleepAt u + _ = _ := asleepAt_setTask at_e₁ u
    simp only [RwPhase.asleep, ite_self] at slept slept₁
    rw [entriesOf_cons] at moved
    by_cases same : e.task = u
    · subst same
      omega
    · rw [if_neg same] at moved
      rw [if_neg (Ne.symm same)] at slept₁
      omega
  -- the woken task has no other entry, in a queue or collected
  have single := counts e.task
  rw [asleepAt, woken, elim_some, show (RwPhase.parked k e.seq true).asleep = 0 from rfl]
    at single
  have notQueued : ∀ j, ∀ f ∈ s.waiters j, f.task ≠ e.task := by
    intro j f member same
    have : 0 < entriesOf e.task (s.waiters j) := entriesOf_pos_iff.mpr ⟨f, member, same⟩
    cases j with
    | read => exact absurd this (show ¬ 0 < entriesOf e.task s.readerWaiters by omega)
    | write => exact absurd this (show ¬ 0 < entriesOf e.task s.writerWaiters by omega)
  have notCollected : ∀ u j fs more, s'.phase u = some (.flushing j fs more) →
      ∀ f ∈ fs, f.task ≠ e.task := by
    intro u j fs more found f member same
    have here := le_sum (fun p => entriesOf e.task p.inFlight) found
    have : 0 < entriesOf e.task fs := entriesOf_pos_iff.mpr ⟨f, member, same⟩
    change entriesOf e.task fs ≤ _ at here
    omega
  have asleepStays : ∀ {u j q}, s.phase u = some (.parked j q false) → u ≠ e.task →
      s'.phase u = some (.parked j q false) := by
    intro u j q asleep notWoken
    have notThere : u ≠ t := by
      rintro rfl
      rw [phase_of_getElem? at_t] at asleep
      cases asleep
    rw [elsewhere notThere notWoken, asleep]
  -- a promise that was not the waker's is kept by the same task
  have promised : ∀ {P : RwPhase → Prop}, ¬ P (.parked k e.seq false) →
      (P (.flushing k (e :: es) again) → ∃ u p, s'.phase u = some p ∧ P p) →
      (∃ u p, s.phase u = some p ∧ P p) → ∃ u p, s'.phase u = some p ∧ P p := by
    rintro P notAsleep fromWaker ⟨u, p, found, holds⟩
    by_cases same : u = t
    · rw [same, phase_of_getElem? at_t] at found
      cases found
      exact fromWaker holds
    refine ⟨u, p, (elsewhere same ?_).trans found, holds⟩
    rintro rfl
    rw [phase_of_getElem? at_e] at found
    cases found
    exact notAsleep holds
  constructor
  · exact h.readers.trans (sums holdsRead rfl).symm
  · exact h.writers.trans (sums holdsWrite rfl).symm
  · exact h.waiting.trans (sums waitsWrite (by cases k <;> rfl)).symm
  · exact h.exclusive
  · exact counts
  · intro j f member
    have old : f ∈ s.waiters j := by cases j <;> exact member
    exact asleepStays (h.linked j f old) (notQueued j f old)
  · intro u j fs more found f member
    have notWoken := notCollected u j fs more found f member
    by_cases same : u = t
    · subst same
      rw [here] at found
      cases found
      exact asleepStays
        (h.flying u k _ again (phase_of_getElem? at_t) f (.tail _ member)) notWoken
    have other' : u ≠ e.task := by
      rintro rfl
      rw [woken] at found
      cases found
    rw [elsewhere same other'] at found
    exact asleepStays (h.flying u j fs more found f member) notWoken
  · intro unlocked empty queued
    refine promised (by cases k <;> exact id) ?_ (h.writeWake unlocked empty queued)
    cases k with
    | read => exact nofun
    | write => exact fun _ => ⟨e.task, _, woken, trivial⟩
  · intro unlocked nobody queued
    refine promised (by cases k <;> exact id) ?_ (h.readWake unlocked nobody queued)
    cases k with
    | read => exact fun flushes => ⟨t, _, here, flushes⟩
    | write => exact nofun

/-! ### Every step -/

theorem Inv.step {s' : RwSys} {l : RwLabel} (taken : s.step l = some s') : s'.Inv := by
  -- every step is one of a task in the phase that it starts from
  cases l
  all_goals
    rw [RwSys.step] at taken
    split at taken
    case h_2 => cases taken
  case h_1 n at_t =>
    cases taken
    apply h.move at_t <;> first | rfl | exact id
  case h_1 n at_t =>
    cases taken
    exact h.writeLock at_t
  case h_1 k n at_t =>
    split at taken
    case isTrue free =>
      cases taken
      exact h.take at_t (.inl rfl) free
    case isFalse =>
      cases taken
      apply h.move at_t <;> cases k <;> first | rfl | exact id
  case h_1 ok _ k n at_t =>
    cases ok <;> cases taken <;>
      (apply h.move at_t <;> cases k <;> first | rfl | exact id)
  case h_1 linked _ k seq n at_t =>
    split at taken
    case isTrue free =>
      cases taken
      exact h.take at_t (.inr ⟨seq, rfl⟩) free
    case isFalse busy =>
      cases linked with
      | true =>
        cases taken
        exact h.sleep at_t (Bool.not_eq_true _ ▸ busy)
      | false =>
        cases taken
        apply h.move at_t <;> cases k <;> first | rfl | exact id
  case h_1 k seq n at_t =>
    cases taken
    exact h.resume at_t
  case h_1 k n at_t =>
    cases taken
    exact h.unlock at_t
  case h_1 k n at_t =>
    cases taken
    exact h.collect at_t rfl
  case h_1 t _ k e es again n at_t =>
    have asleep := h.flying t k _ again (phase_of_getElem? at_t) e (.head _)
    obtain ⟨⟨p, m⟩, at_e, parked⟩ := map_eq_some_iff.mp asleep
    cases parked
    simp only [(getElem?_flushed at_t at_e).2, RwTask.wake, if_true] at taken
    cases taken
    exact h.deliver at_t at_e
  case h_1 k again n at_t =>
    cases taken
    apply h.move at_t <;> cases k <;> cases again <;>
      first | rfl | exact id | exact fun _ => trivial | exact nofun

end

variable {f : RwPhase → Nat}

theorem sum_init (outside : f .outside = 0) (n : Nat) : (init n).sum f = 0 := by
  refine total_eq_zero fun x member => ?_
  rw [eq_of_mem_replicate member]
  exact outside

theorem phase_init (found : (init n).phase t = some p) : p = .outside := by
  obtain ⟨x, at_t, rfl⟩ := map_eq_some_iff.mp found
  rw [eq_of_mem_replicate (mem_of_getElem? at_t)]

theorem inv_init (n : Nat) : (init n).Inv where
  readers := (sum_init rfl n).symm
  writers := (sum_init rfl n).symm
  waiting := (sum_init rfl n).symm
  exclusive := fun _ => rfl
  sleepers := fun t => by
    rw [sum_init rfl n, asleepAt]
    cases found : (init n).phase t with
    | none => rfl
    | some p =>
      rw [phase_init found]
      rfl
  linked := fun k e member => by cases k <;> cases member
  flying := fun t k es again found => nomatch phase_init found
  writeWake := fun _ _ queued => absurd rfl queued
  readWake := fun _ _ queued => absurd rfl queued

/-! ### Exclusion and progress -/

theorem exists_of_sum_pos (positive : 0 < s.sum f) : ∃ t p, s.phase t = some p ∧ 0 < f p := by
  by_contra nobody
  have zero : s.sum f = 0 := by
    refine total_eq_zero fun x member => ?_
    obtain ⟨t, at_t⟩ := List.getElem?_of_mem member
    by_contra adds
    exact nobody ⟨t, x.phase, phase_of_getElem? at_t, Nat.pos_of_ne_zero adds⟩
  omega

/-- While a writer is inside, nobody else is. -/
theorem Inv.exclusion (h : s.Inv) {u : Nat} (other : u ≠ t)
    (writes : s.phase t = some (.holding .write)) : s.phase u ≠ some (.holding k) := by
  intro holds
  have locked := h.writer_of_holding writes
  cases k with
  | read =>
    have counted : 1 ≤ s.sum holdsRead := le_sum holdsRead holds
    rw [← h.readers, h.exclusive locked] at counted
    cases counted
  | write =>
    obtain ⟨x, at_t, phase⟩ := map_eq_some_iff.mp writes
    -- without the first writer the second is still counted
    have removed := sum_setTask (y := ⟨.outside, 0⟩) holdsWrite at_t
    have counted : 1 ≤ (s.setTask t ⟨.outside, 0⟩).sum holdsWrite := by
      refine le_sum (p := .holding .write) (t := u) holdsWrite ?_
      rw [phase_setTask_of_ne other, holds]
    rw [← h.writers, locked, phase] at removed
    simp only [RwPhase.holdsWrite, Bool.toNat_true] at removed
    omega

section Settled

variable (settled : ∀ t p, s.phase t = some p → p.Settled)

include settled

theorem not_promisesWrite_of_settled (found : s.phase t = some p) : ¬ p.PromisesWrite := by
  have := settled t p found
  cases p with
  | outside | holding => exact id
  | parked k q woken => cases woken <;> cases k <;> first | exact id | cases this
  | _ => cases this

theorem not_promisesRead_of_settled (found : s.phase t = some p) : ¬ p.PromisesRead := by
  have := settled t p found
  cases p with
  | outside | holding | parked => exact id
  | _ => cases this

theorem sum_inFlight_of_settled (t : Nat) : s.sum (fun p => entriesOf t p.inFlight) = 0 := by
  by_contra adds
  obtain ⟨u, p, found, positive⟩ := exists_of_sum_pos (Nat.pos_of_ne_zero adds)
  have := settled u p found
  cases p with
  | outside | holding | parked => cases positive
  | _ => cases this

theorem Inv.linked_of_settled (h : s.Inv) {q : Nat}
    (asleep : s.phase t = some (.parked k q false)) : s.waiters k ≠ [] := by
  have entries := h.sleepers t
  rw [sum_inFlight_of_settled settled, asleepAt, asleep, elim_some,
    show (RwPhase.parked k q false).asleep = 1 from rfl] at entries
  have somewhere : ∃ j, ∃ e ∈ s.waiters j, e.task = t := by
    by_cases reading : entriesOf t s.readerWaiters = 0
    · exact ⟨.write, entriesOf_pos_iff.mp (show 0 < entriesOf t s.writerWaiters by omega)⟩
    · exact ⟨.read, entriesOf_pos_iff.mp (show 0 < entriesOf t s.readerWaiters by omega)⟩
  obtain ⟨j, e, member, rfl⟩ := somewhere
  have same := (h.linked j e member).symm.trans asleep
  cases same
  exact ne_nil_of_mem member

theorem Inv.holder_of_writer (h : s.Inv) (queued : s.writerWaiters ≠ []) :
    0 < s.sum holdsWrite ∨ 0 < s.sum holdsRead := by
  rw [← h.writers, ← h.readers]
  by_contra empty
  have unlocked : s.writer = false := Bool.toNat_eq_zero.mp (by omega)
  obtain ⟨t, p, found, promises⟩ := h.writeWake unlocked (by omega) queued
  exact not_promisesWrite_of_settled settled found promises

theorem Inv.holder_of_sleeper (h : s.Inv) {q : Nat}
    (asleep : s.phase t = some (.parked k q false)) :
    0 < s.sum holdsWrite ∨ 0 < s.sum holdsRead := by
  have queued := h.linked_of_settled settled asleep
  cases k with
  | write => exact h.holder_of_writer settled queued
  | read =>
    by_cases nobody : s.waitingWriters = 0
    · rw [← h.writers]
      by_contra empty
      have unlocked : s.writer = false := Bool.toNat_eq_zero.mp (by omega)
      obtain ⟨u, p, found, promises⟩ := h.readWake unlocked nobody queued
      exact not_promisesRead_of_settled settled found promises
    -- a writer that waits is asleep too, and linked
    rw [h.waiting] at nobody
    obtain ⟨u, p, found, waits⟩ := exists_of_sum_pos (Nat.pos_of_ne_zero nobody)
    have still := settled u p found
    cases p with
    | outside => cases waits
    | holding j => cases waits
    | parked j r woken =>
      cases woken with
      | true => cases still
      | false =>
        cases j with
        | read => cases waits
        | write => exact h.holder_of_writer settled (h.linked_of_settled settled found)
    | _ => cases still

end Settled

/-- **The read-write mutex.** In every run of any number of tasks a writer inside is alone, and
whenever every task is outside, inside or asleep without a wake, and one is asleep, one is
inside. -/
theorem rw_mutex {n : Nat} {s : RwSys} (run : RunsTo step always (init n) s) :
    (∀ t u k, u ≠ t → s.phase t = some (.holding .write) → s.phase u ≠ some (.holding k)) ∧
    ((∀ t p, s.phase t = some p → p.Settled) →
      (∃ t k q, s.phase t = some (.parked k q false)) → ∃ t k, s.phase t = some (.holding k)) := by
  have h : s.Inv := run.invariant (fun inv _ taken => inv.step taken) (inv_init n)
  constructor
  · intro t u k other writes
    exact h.exclusion other writes
  · rintro settled ⟨t, k, q, asleep⟩
    rcases h.holder_of_sleeper settled asleep with counted | counted
    · obtain ⟨u, p, found, holds⟩ := exists_of_sum_pos counted
      obtain ⟨k, rfl⟩ := exists_holding (.inl holds)
      exact ⟨u, k, found⟩
    · obtain ⟨u, p, found, holds⟩ := exists_of_sum_pos counted
      obtain ⟨k, rfl⟩ := exists_holding (.inr holds)
      exact ⟨u, k, found⟩

/-- A writer inside, a reader and a second writer asleep behind it. -/
theorem rw_mutex_two_asleep : ∃ s : RwSys, RunsTo step always (init 3) s ∧
    s.phase 1 = some (.parked .read 1 false) ∧ s.phase 2 = some (.parked .write 1 false) ∧
    (∀ u k, u ≠ 0 → s.phase u ≠ some (.holding k)) ∧ ∃ t k, s.phase t = some (.holding k) := by
  obtain ⟨s, run, tasks⟩ : ∃ s, RunsTo step always (init 3) s ∧ s.tasks =
      [⟨.holding .write, 0⟩, ⟨.parked .read 1 false, 1⟩, ⟨.parked .write 1 false, 1⟩] :=
    runsTo_of_exec [.writeLock 0, .attempt 0, .readLock 1, .attempt 1, .prepare 1 true,
      .link 1 true,
      .writeLock 2, .attempt 2, .prepare 2 true, .link 2 true] (by decide +kernel)
  have inside : s.phase 0 = some (.holding .write) := by rw [phase, tasks]; rfl
  have reader : s.phase 1 = some (.parked .read 1 false) := by rw [phase, tasks]; rfl
  have writer : s.phase 2 = some (.parked .write 1 false) := by rw [phase, tasks]; rfl
  obtain ⟨exclusion, progress⟩ := rw_mutex run
  refine ⟨s, run, reader, writer, fun u k other => exclusion 0 u k other inside, ?_⟩
  refine progress ?_ ⟨1, .read, 1, reader⟩
  intro t p found
  obtain ⟨x, at_t, rfl⟩ := map_eq_some_iff.mp found
  rw [tasks] at at_t
  have member := mem_of_getElem? at_t
  simp only [mem_cons, not_mem_nil, or_false] at member
  rcases member with rfl | rfl | rfl <;> exact trivial

end RwSys

end A20OS.Core
