import A20OS.Ipc.PiFutex

/-!
Priority-inheritance futexes over whole runs.

A release forgets the bit that says that tasks wait, and a waiter that claims the freed word does
not set it again; the waiters left are then not woken by a release in user space. Nobody is left
as long as every release with the bit set finds no more entries linked than wakes are to come
(`Sole`). The invariant is that the bucket holds no more entries than wakes are to come while the
word has no owner or no bit (`Inv.enough`).
-/

namespace A20OS.Ipc

open A20OS.Core Lib Proc List Option

variable {f : FutexSys PiWord} {t : Nat} {s : PiSys} {p : PiTask}

/-! ### The futex layer below -/

/-- The arguments of the calls: waits expect the bit, wakes are for one waiter of the word. -/
def PiArgs (pkey : Nat) : Option (FutexWait PiWord ⊕ FutexWakeArg × Nat) → Prop
  | some (.inl w) => w.expected.waiters = true ∧ w.key.pkey = pkey ∧
      w.key.bitset = futexBitsetMatchAny
  | some (.inr (arg, nr)) => arg.pkey = pkey ∧ arg.bitset = futexBitsetMatchAny ∧ nr = 1
  | none => True

namespace FutexTask

/-- The task is in a `futex_wake` and has detached nothing yet. -/
def emptyHanded {ω : Type} (x : FutexTask ω) : Nat :=
  match x.call with
  | some (.inr _) => if x.woke = 0 then 1 else 0
  | _ => 0

theorem Keeps.emptyHanded {ω : Type} {x y : FutexTask ω} (keeps : x.Keeps y)
    (woke : y.woke = x.woke) : y.emptyHanded = x.emptyHanded := by
  rcases keeps with same | ⟨ended, wait⟩
  · rw [FutexTask.emptyHanded, FutexTask.emptyHanded, same, woke]
  have zero : x.emptyHanded = 0 := by
    rw [FutexTask.emptyHanded]
    cases call : x.call with
    | none => rfl
    | some c =>
      cases c with
      | inl w => rfl
      | inr a => exact absurd call (wait a)
  rw [zero, FutexTask.emptyHanded, ended]

theorem Keeps.piArgs {x y : FutexTask PiWord} {pkey : Nat} (keeps : x.Keeps y)
    (args : PiArgs pkey x.call) : PiArgs pkey y.call := by
  rcases keeps with same | ⟨ended, -⟩
  · rwa [same]
  · rw [ended]
    exact trivial

end FutexTask

namespace FutexSys

open FutexTask

structure Tagged (f : FutexSys PiWord) : Prop where
  sound : f.Sound
  calls : ∀ (t : Nat) (x : FutexTask PiWord), f.tasks[t]? = some x → PiArgs f.pkey x.call
  bucket : ∀ e ∈ f.bucket, e.tag.pkey = f.pkey ∧ e.tag.bitset = futexBitsetMatchAny
  pkey : f.pkey ≠ 0

/-- The bucket has not grown against the wakes to come, unless the word expects a wait. -/
def Held (f f' : FutexSys PiWord) : Prop :=
  f.word.waiters = true ∨ f'.bucket = [] ∨
    f'.bucket.length + f.sum emptyHanded ≤ f.bucket.length + f'.sum emptyHanded

/-- A wake of a waiter matches every entry. -/
theorem Tagged.matches (h : f.Tagged) {arg : FutexWakeArg} {nr : Nat}
    (args : PiArgs f.pkey (some (.inr (arg, nr)))) {e : FutexEntry} (member : e ∈ f.bucket) :
    futexWakeMatch arg e = true := by
  obtain ⟨pkey, bitset⟩ := h.bucket e member
  obtain ⟨pkey', bitset', -⟩ := args
  have both : ¬ e.tag.bitset &&& arg.bitset = 0 := by
    rw [bitset, bitset']
    decide
  rw [futexWakeMatch, if_neg both]
  split
  · rfl
  · exact decide_eq_true ⟨pkey' ▸ h.pkey, pkey.trans pkey'.symm⟩

section Step

variable {x y : FutexTask PiWord}

/-- A waker with nothing in its hands is at the head of its loop. -/
theorem Tagged.waking_of_emptyHanded (h : f.Tagged) (at_t : f.tasks[t]? = some x)
    (hand : x.emptyHanded ≠ 0) : ∃ arg, x.phase = .waking arg 1 0 := by
  have consistent := h.sound.consistent t x at_t
  have args := h.calls t x at_t
  obtain ⟨phase, park, env, result⟩ := x
  cases phase with
  | waking arg nr woke =>
    have one : nr = 1 := args.2.2
    have zero : woke = 0 := by
      by_contra some_of
      exact hand (if_neg some_of)
    exact ⟨arg, by rw [one, zero]⟩
  | flushing arg nr woke again es => exact absurd (if_neg (Nat.ne_of_gt consistent.2)) hand
  | _ => exact absurd rfl hand

/-- A task changes from `x` to `y` while the bucket changes to that of `f₀`. -/
theorem Tagged.change (h : f.Tagged) (f₀ : FutexSys PiWord) (sound : (f₀.setTask t y).Sound)
    (tasks : f₀.tasks = f.tasks) (pkey : f₀.pkey = f.pkey) (args : PiArgs f.pkey y.call)
    (bucket : ∀ e ∈ f₀.bucket, e ∈ f.bucket ∨
      e.tag.pkey = f.pkey ∧ e.tag.bitset = futexBitsetMatchAny) : (f₀.setTask t y).Tagged := by
  constructor
  · exact sound
  · intro u z at_u
    change PiArgs f₀.pkey z.call
    rw [pkey]
    rcases tasks_setTask_cases at_u with ⟨-, rfl⟩ | ⟨-, at_u⟩
    · exact args
    · exact h.calls u z (tasks ▸ at_u)
  · intro e member
    change e.tag.pkey = f₀.pkey ∧ _
    rw [pkey]
    rcases bucket e member with old | new
    · exact h.bucket e old
    · exact new
  · change f₀.pkey ≠ 0
    rw [pkey]
    exact h.pkey

/-- The same, and the wakes to come are counted. -/
theorem Tagged.held (h : f.Tagged) {f₀ : FutexSys PiWord} (sound : (f₀.setTask t y).Sound)
    (tasks : f₀.tasks = f.tasks) (pkey : f₀.pkey = f.pkey) (word : f₀.word = f.word)
    (at_t : f.tasks[t]? = some x) (args : PiArgs f.pkey y.call)
    (bucket : ∀ e ∈ f₀.bucket, e ∈ f.bucket)
    (fewer : f₀.bucket.length + x.emptyHanded ≤ f.bucket.length + y.emptyHanded) :
    (f₀.setTask t y).Tagged ∧ (f₀.setTask t y).word = f.word ∧ f.Held (f₀.setTask t y) := by
  have at₀ : f₀.tasks[t]? = some x := by rw [tasks, at_t]
  have moved := sum_setTask (y := y) emptyHanded at₀
  have same : f₀.sum emptyHanded = f.sum emptyHanded := by rw [sum, sum, tasks]
  refine ⟨h.change f₀ sound tasks pkey args fun e member => .inl (bucket e member), word,
    .inr (.inr ?_)⟩
  change f₀.bucket.length + _ ≤ _
  omega

theorem Tagged.deliver (h : f.Tagged) {f' : FutexSys PiWord} {nr woke : Nat} {arg : FutexWakeArg}
    {again : Bool} {e : FutexEntry} {es : List FutexEntry} (at_t : f.tasks[t]? = some x)
    (phase : x.phase = .flushing arg nr woke again (e :: es))
    (delivered : (f.setTask t { x with phase := .flushing arg nr woke again es }).deliverWake e =
      f')
    (sound : f'.Sound) : f'.Tagged ∧ f'.word = f.word ∧ f.Held f' := by
  set x' : FutexTask PiWord := { x with phase := .flushing arg nr woke again es }
  have call : x'.call = x.call := by rw [FutexTask.call, FutexTask.call, phase]
  have counted : x'.woke = x.woke := by rw [FutexTask.woke, FutexTask.woke, phase]
  have hand : x'.emptyHanded = x.emptyHanded := Keeps.emptyHanded (.inl call) counted
  have calls : ∀ (u : Nat) (z : FutexTask PiWord), (f.setTask t x').tasks[u]? = some z →
      PiArgs f.pkey z.call := by
    intro u z at_u
    rcases tasks_setTask_cases at_u with ⟨-, rfl⟩ | ⟨-, at_u⟩
    · exact call ▸ h.calls t x at_t
    · exact h.calls u z at_u
  have moved := sum_setTask (y := x') emptyHanded at_t
  cases target : (f.setTask t x').tasks[e.task]? with
  | none =>
    rw [deliverWake, target] at delivered
    obtain rfl : f.setTask t x' = f' := delivered
    refine ⟨⟨sound, calls, h.bucket, h.pkey⟩, rfl, .inr (.inr ?_)⟩
    change f.bucket.length + _ ≤ f.bucket.length + _
    omega
  | some y =>
    rw [deliverWake_eq target] at delivered
    subst delivered
    refine ⟨⟨sound, ?_, h.bucket, h.pkey⟩, rfl, .inr (.inr ?_)⟩
    · intro u z at_u
      rcases tasks_setTask_cases at_u with ⟨-, rfl⟩ | ⟨-, at_u⟩
      · exact calls e.task y target
      · exact calls u z at_u
    · have moved' := sum_setTask (y := y.tryWake e.seq .event) emptyHanded target
      change f.bucket.length + _ ≤ f.bucket.length + _
      rw [show (y.tryWake e.seq .event).emptyHanded = y.emptyHanded from rfl] at moved'
      omega

end Step

variable {f' : FutexSys PiWord}

/-- **What a step inside a wait or a wake does to the bucket.** -/
theorem Tagged.step {l : FutexLabel PiWord} (h : f.Tagged) (inner : l.inner = true)
    (taken : f.step l = some f') : f'.Tagged ∧ f'.word = f.word ∧ f.Held f' := by
  have sound' := h.sound.step taken
  have starts : l.starts = false := by
    cases l with
    | wait | wake => cases inner
    | _ => rfl
  cases change_of_step taken with
  | store v => cases inner
  | @move _ t x y at_t moves linked still call =>
    have keeps := call starts
    have same := keeps.emptyHanded moves.woke
    exact h.held sound' rfl rfl rfl at_t (keeps.piArgs (h.calls t x at_t)) (fun e => id)
      (Nat.le_of_eq (by rw [same]))
  | @interrupt _ t x reason at_t cuts label =>
    exact h.held sound' rfl rfl rfl at_t (h.calls t x at_t) (fun e => id) (Nat.le_refl _)
  | @link t x w at_t phase expected =>
    have call : x.call = some (.inl w) := by rw [FutexTask.call, phase]
    have args := h.calls t x at_t
    rw [call] at args
    refine ⟨h.change { f with bucket := ⟨t, x.seq, w.key⟩ :: unlinkTask f.bucket t } sound' rfl rfl
      args ?_, rfl, .inl (expected ▸ args.1)⟩
    intro e member
    rcases mem_cons.mp member with rfl | old
    · exact .inr args.2
    · exact .inl (mem_filter.mp old).1
  | @unlink _ t x y at_t moves before after keeps =>
    have same := keeps.emptyHanded moves.woke
    refine h.held sound' rfl rfl rfl at_t (keeps.piArgs (h.calls t x at_t))
      (fun e member => (mem_filter.mp member).1) ?_
    rw [same]
    exact Nat.add_le_add_right (length_filter_le _ _) _
  | @finishWait t x reason at_t phase =>
    have call : x.call = none := by rw [FutexTask.call, phase]
    have none_of : x.emptyHanded = 0 := by rw [emptyHanded, call]
    refine h.held sound' rfl rfl rfl at_t trivial (fun e => id) ?_
    rw [none_of]
    exact Nat.le_add_right _ _
  | @finishWake _ t x at_t closed flushed nobody =>
    by_cases hand : x.emptyHanded = 0
    · refine h.held sound' rfl rfl rfl at_t trivial (fun e => id) ?_
      rw [hand]
      exact Nat.le_add_right _ _
    obtain ⟨arg, phase⟩ := h.waking_of_emptyHanded at_t hand
    have args := h.calls t x at_t
    rw [FutexTask.call, phase] at args
    refine ⟨h.change { f with counts := x.woke :: f.counts } sound' rfl rfl trivial fun e => .inl,
      rfl, .inr (.inl (eq_nil_iff_forall_not_mem.mpr fun e member => ?_))⟩
    have unmatched := nobody arg 1 0 phase Nat.zero_lt_one e member
    rw [h.matches args member] at unmatched
    cases unmatched
  | @collect t nr woke want x arg es rest at_t phase limit detached somebody =>
    have args := h.calls t x at_t
    rw [FutexTask.call, phase] at args
    have parts := collectMatching_perm (futexWakeMatch arg) want f.bucket
    have bound := length_collectMatching_le (futexWakeMatch arg) want f.bucket
    rw [detached] at parts bound
    have lengths := parts.length_eq
    rw [length_append] at lengths
    have positive := length_pos_of_ne_nil somebody
    have first : woke = 0 := by
      have one : nr = 1 := args.2.2
      dsimp only at bound
      omega
    refine h.held sound' rfl rfl rfl at_t args
      (fun e member => parts.mem_iff.mp (mem_append_right _ member)) ?_
    have hand : x.emptyHanded = 1 := by
      rw [emptyHanded, FutexTask.call, FutexTask.woke, phase, first]
      rfl
    change rest.length + x.emptyHanded ≤ f.bucket.length + _
    dsimp only at lengths
    omega
  | @deliver t nr woke x arg again e es at_t phase => exact h.deliver at_t phase rfl sound'

/-- A wait begins. -/
theorem Tagged.wait (h : f.Tagged) {mm vkey : Nat} {w : PiWord} (set : w.waiters = true)
    (taken : f.step (.wait t mm vkey futexBitsetMatchAny w false) = some f') :
    f'.Tagged ∧ f'.word = f.word ∧ f'.bucket = f.bucket ∧
      f'.sum emptyHanded = f.sum emptyHanded := by
  have sound' := h.sound.step taken
  obtain ⟨x, at_t, taken⟩ := bind_eq_some_iff.mp taken
  split at taken
  case h_2 => cases taken
  case h_1 phase =>
    cases taken
    have hand : x.emptyHanded = 0 := by rw [emptyHanded, FutexTask.call, phase]
    obtain ⟨y, becomes, args, hand'⟩ : ∃ y : FutexTask PiWord,
        f.futexWait t x ⟨⟨vkey, f.pkey, mm, futexBitsetMatchAny⟩, w, false⟩ = f.setTask t y ∧
          PiArgs f.pkey y.call ∧ y.emptyHanded = 0 := by
      refine ⟨_, rfl, ?_, ?_⟩
      · repeat' split
        all_goals first | exact trivial | exact ⟨set, rfl, rfl⟩
      · repeat' split
        all_goals rfl
    rw [becomes] at sound' ⊢
    have moved := sum_setTask (y := y) emptyHanded at_t
    exact ⟨h.change f sound' rfl rfl args fun e => .inl, rfl, rfl, by omega⟩

/-- A wake of one waiter begins. -/
theorem Tagged.wake (h : f.Tagged) {mm vkey : Nat} (valid : vkey ≠ 0)
    (taken : f.step (.wake t mm vkey futexBitsetMatchAny false 1) = some f') :
    f'.Tagged ∧ f'.word = f.word ∧ f'.bucket = f.bucket ∧
      f'.sum emptyHanded = f.sum emptyHanded + 1 := by
  have sound' := h.sound.step taken
  obtain ⟨x, at_t, taken⟩ := bind_eq_some_iff.mp taken
  split at taken
  case h_2 => cases taken
  case h_1 phase =>
    cases taken
    have hand : x.emptyHanded = 0 := by rw [emptyHanded, FutexTask.call, phase]
    have becomes : f.futexWake t x ⟨mm, vkey, f.pkey, futexBitsetMatchAny⟩ 1 =
        f.setTask t { x with phase := .waking ⟨mm, vkey, f.pkey, futexBitsetMatchAny⟩ 1 0 } := by
      have bits : futexBitsetMatchAny ≠ 0 := by decide
      rw [futexWake, if_neg valid, if_neg bits, if_neg (by decide)]
      rfl
    have moved := sum_setTask
      (y := { x with phase := .waking ⟨mm, vkey, f.pkey, futexBitsetMatchAny⟩ 1 0 }) emptyHanded
        at_t
    change (f.futexWake t x ⟨mm, vkey, f.pkey, futexBitsetMatchAny⟩ 1).Sound at sound'
    rw [becomes] at sound'
    simp only [Bool.false_eq_true, if_false, becomes]
    exact ⟨h.change f sound' rfl rfl ⟨rfl, rfl, rfl⟩ fun e => .inl, rfl, rfl, by
      rw [hand] at moved
      exact moved⟩

end FutexSys

/-! ### Runs -/

/-- The task has stored zero and is going to call `futex_wake`. -/
def PiTask.notifies (p : PiTask) : Nat := if p.phase = .notifying then 1 else 0

theorem PiTask.notifies_eq_zero {phase : PiPhase} (at_ : p.phase = phase)
    (other : phase ≠ .notifying) : p.notifies = 0 :=
  if_neg (at_ ▸ other)

namespace PiSys

open FutexSys FutexTask PiTask

/-- The wakes that are to come: releases that have yet to detach a waiter. -/
def pending (s : PiSys) : Nat := total PiTask.notifies s.tasks + s.futex.sum emptyHanded

/-- A wake for the wait of task `t` with number `q` is in flight: its entry is detached, or linked
with no more entries than wakes are to come. -/
def WakeInFlight (s : PiSys) (t q : Nat) : Prop :=
  (∃ (u : Nat) (x : FutexTask PiWord), s.futex.tasks[u]? = some x ∧
    ∃ e ∈ x.inFlight, e.task = t ∧ e.seq = q) ∨
  (∃ e ∈ s.futex.bucket, e.task = t ∧ e.seq = q) ∧ s.futex.bucket.length ≤ s.pending

/-- The condition on the steps of a run: a release that finds the bit set finds no more entries
linked than wakes are to come, its own included. -/
def Sole (s : PiSys) : PiLabel → Prop
  | .release t _ => s.futex.word.owner = tid t → s.futex.word.waiters = true →
      s.futex.bucket.length ≤ s.pending + 1
  | _ => True

instance (s : PiSys) (l : PiLabel) : Decidable (s.Sole l) := by
  cases l <;> unfold Sole <;> infer_instance

structure Inv (s : PiSys) : Prop where
  tagged : s.futex.Tagged
  word : s.futex.word.waiters = true → s.futex.word.owner ≠ 0
  parking : ∀ (t : Nat) (p : PiTask) (w : PiWord), s.tasks[t]? = some p → p.phase = .parking w →
    w.waiters = true
  notifying : ∀ (t : Nat) (p : PiTask), s.tasks[t]? = some p → p.phase = .notifying → p.vkey ≠ 0
  enough : s.futex.word.covered = false → s.futex.bucket.length ≤ s.pending

/-- A task changes from `p` to `p'`, and the rest to that of `s₀`. -/
theorem Inv.change (h : s.Inv) (s₀ : PiSys) {p' : PiTask}
    (tasks : s₀.tasks = s.tasks) (at_t : s.tasks[t]? = some p) (tagged : s₀.futex.Tagged)
    (word : s₀.futex.word.waiters = true → s₀.futex.word.owner ≠ 0)
    (parking : ∀ w, p'.phase = .parking w → w.waiters = true)
    (notifying : p'.phase = .notifying → p'.vkey ≠ 0)
    (enough : s₀.futex.word.covered = false →
      s₀.futex.bucket.length + p.notifies ≤ s₀.pending + p'.notifies) : (s₀.setTask t p').Inv := by
  have at₀ : s₀.tasks[t]? = some p := by rw [tasks, at_t]
  constructor
  · exact tagged
  · exact word
  · intro u q w at_u phase
    rcases getElem?_set_cases at_u with ⟨-, rfl⟩ | ⟨-, at_u⟩
    · exact parking w phase
    · exact h.parking u q w (tasks ▸ at_u) phase
  · intro u q at_u phase
    rcases getElem?_set_cases at_u with ⟨-, rfl⟩ | ⟨-, at_u⟩
    · exact notifying phase
    · exact h.notifying u q (tasks ▸ at_u) phase
  · intro uncovered
    have moved := total_set (f := PiTask.notifies) at₀ p'
    have now := enough uncovered
    rw [pending] at now
    change s₀.futex.bucket.length ≤
      total PiTask.notifies (s₀.tasks.set t p') + s₀.futex.sum emptyHanded
    omega

/-- A task moves between phases in which it neither parks nor notifies. -/
theorem Inv.move (h : s.Inv) (s₀ : PiSys) {p' : PiTask}
    (tasks : s₀.tasks = s.tasks) (futex : s₀.futex = s.futex) (at_t : s.tasks[t]? = some p)
    (before : p.notifies = 0) (parking : ∀ w, p'.phase = .parking w → w.waiters = true)
    (after : p'.phase ≠ .notifying) : (s₀.setTask t p').Inv := by
  apply h.change s₀ tasks at_t
  · rw [futex]
    exact h.tagged
  · rw [futex]
    exact h.word
  · exact parking
  · exact fun same => absurd same after
  · intro uncovered
    have now := h.enough (futex ▸ uncovered)
    rw [pending, ← tasks, ← futex] at now
    rw [before]
    exact Nat.le_add_right_of_le now

theorem Tagged.setWord (h : f.Tagged) (v : PiWord) : FutexSys.Tagged { f with word := v } :=
  ⟨{ h.sound with }, h.calls, h.bucket, h.pkey⟩

/-- User space swaps one uncovered word for another. -/
theorem Inv.cas (h : s.Inv) {old new : PiWord} (uncovered : old.covered = false)
    (unset : new.waiters = false) : (s.cas old new).Inv := by
  unfold PiSys.cas
  split
  case isFalse => exact h
  case isTrue same =>
    constructor
    · exact Tagged.setWord h.tagged new
    · intro set
      exact nomatch unset.symm.trans set
    · exact h.parking
    · exact h.notifying
    · exact fun _ => h.enough (same ▸ uncovered)

theorem Inv.swapSection (h : s.Inv) {tryOnly : Bool} {oldv : PiWord}
    (at_t : s.tasks[t]? = some p) (before : p.notifies = 0) (holder : Option Nat) :
    (PiSys.swapSection { s with holder } t p tryOnly oldv).Inv := by
  have moves : ∀ {p' : PiTask}, (∀ w, p'.phase = .parking w → w.waiters = true) →
      p'.phase ≠ .notifying → ({ s with holder }.setTask t p').Inv := fun parking after =>
    h.move { s with holder } rfl rfl at_t before parking after
  unfold PiSys.swapSection
  by_cases free : oldv.free = true
  · rw [if_pos free]
    by_cases same : s.futex.word = oldv
    · rw [if_pos same]
      -- the bit is not set on a word without an owner
      have unset : oldv.waiters = false := by
        rw [← Bool.not_eq_true]
        intro set
        exact h.word (same ▸ set) (same ▸ (of_decide_eq_true free).1)
      have uncovered : s.futex.word.covered = false := by
        rw [same, PiWord.covered, unset]
        simp
      have now := h.enough uncovered
      apply h.change (PiSys.setWord { s with holder } { oldv with owner := tid t }) rfl at_t
      · exact Tagged.setWord h.tagged _
      · exact fun set => nomatch unset.symm.trans set
      · exact nofun
      · exact nofun
      · intro _
        change s.futex.bucket.length + p.notifies ≤ s.pending + _
        omega
    · rw [if_neg same]
      exact moves nofun nofun
  · rw [if_neg free]
    split
    · exact moves nofun nofun
    split
    · exact moves nofun nofun
    by_cases set : oldv.waiters = true
    · rw [if_pos set]
      refine moves ?_ nofun
      intro w phase
      cases phase
      exact set
    rw [if_neg set]
    by_cases same : s.futex.word = oldv
    · rw [if_pos same]
      have owned : oldv.owner ≠ 0 := by
        intro nobody
        refine free (decide_eq_true ⟨nobody, ?_⟩)
        obtain ⟨owner, waiters, died⟩ := oldv
        cases died with
        | true => exact .inr rfl
        | false =>
          rw [Bool.not_eq_true] at set
          exact .inl (by rw [show owner = 0 from nobody, show waiters = false from set]; rfl)
      apply h.change (PiSys.setWord { s with holder } { oldv with waiters := true }) rfl at_t
      · exact Tagged.setWord h.tagged _
      · exact fun _ => owned
      · intro w phase
        cases phase
        rfl
      · exact nofun
      · intro uncovered
        exact absurd (decide_eq_true ⟨owned, rfl⟩) (Bool.eq_false_iff.mp uncovered)
    · rw [if_neg same]
      refine moves ?_ nofun
      intro w phase
      cases phase
      rfl

theorem Inv.releaseSection (h : s.Inv) {mapped : Bool}
    (at_t : s.tasks[t]? = some p) (before : p.notifies = 0) (vkey : p.vkey ≠ 0)
    (sole : s.Sole (.release t mapped)) : (s.releaseSection t p).Inv := by
  unfold PiSys.releaseSection
  by_cases owner : s.futex.word.owner = tid t
  · rw [if_neg (not_not_intro owner)]
    by_cases set : s.futex.word.waiters = true
    · rw [if_pos set]
      have room := sole owner set
      apply h.change (s.setWord .zero) rfl at_t
      · exact Tagged.setWord h.tagged _
      · exact nofun
      · exact nofun
      · exact fun _ => vkey
      · intro _
        change s.futex.bucket.length + p.notifies ≤ s.pending + 1
        omega
    · rw [if_neg set]
      have uncovered : s.futex.word.covered = false := by simp [PiWord.covered, set]
      have now := h.enough uncovered
      apply h.change (s.setWord .zero) rfl at_t
      · exact Tagged.setWord h.tagged _
      · exact nofun
      · exact nofun
      · exact nofun
      · intro _
        change s.futex.bucket.length + p.notifies ≤ s.pending + _
        omega
  · rw [if_pos owner]
    exact h.move s rfl rfl at_t before nofun nofun

theorem Inv.step {s' : PiSys} {l : PiLabel} (h : s.Inv) (sole : s.Sole l)
    (taken : s.step l = some s') : s'.Inv := by
  cases l
  case futex l =>
    obtain ⟨⟨inner, -⟩, taken⟩ := ite_none_right_eq_some.mp taken
    obtain ⟨f, moved, rfl⟩ := map_eq_some_iff.mp taken
    obtain ⟨tagged, word, held⟩ := h.tagged.step inner moved
    constructor
    · exact tagged
    · exact word ▸ h.word
    · exact h.parking
    · exact h.notifying
    · intro uncovered
      change f.bucket.length ≤ total PiTask.notifies s.tasks + f.sum emptyHanded
      rw [word] at uncovered
      have now := h.enough uncovered
      rw [pending] at now
      rcases held with set | empty | fewer
      · exact absurd (decide_eq_true ⟨h.word set, set⟩) (Bool.eq_false_iff.mp uncovered)
      · rw [empty]
        exact Nat.zero_le _
      · omega
  all_goals
    rw [PiSys.step, bind_eq_some_iff] at taken
    obtain ⟨p, at_t, taken⟩ := taken
  case userLock t =>
    obtain ⟨-, ⟨⟩⟩ := ite_none_right_eq_some.mp taken
    exact h.cas rfl rfl
  case userUnlock t =>
    obtain ⟨-, ⟨⟩⟩ := ite_none_right_eq_some.mp taken
    exact h.cas (by simp [PiWord.covered]) rfl
  case lock t tryOnly =>
    obtain ⟨phase, ⟨⟩⟩ := ite_none_right_eq_some.mp taken
    exact h.move s rfl rfl at_t (notifies_eq_zero phase nofun) nofun nofun
  case load t mapped =>
    split at taken
    case h_2 => cases taken
    case h_1 tryOnly phase =>
      have before := notifies_eq_zero phase nofun
      split at taken
      · cases taken
        exact h.move s rfl rfl at_t before nofun nofun
      · obtain ⟨-, taken⟩ := ite_none_right_eq_some.mp taken
        cases taken
        exact h.move { s with holder := some t } rfl rfl at_t before nofun nofun
  case swap t =>
    split at taken
    case h_2 => cases taken
    case h_1 tryOnly oldv phase =>
      cases taken
      exact h.swapSection at_t (notifies_eq_zero phase nofun) none
  case park t =>
    split at taken
    case h_2 => cases taken
    case h_1 waitVal phase =>
      obtain ⟨f, begun, rfl⟩ := map_eq_some_iff.mp taken
      obtain ⟨tagged, word, bucket, sum⟩ := h.tagged.wait (h.parking t p waitVal at_t phase) begun
      have before := notifies_eq_zero phase nofun
      apply h.change { s with futex := f } rfl at_t tagged
      · exact word ▸ h.word
      · exact nofun
      · exact nofun
      · intro uncovered
        have now := h.enough (word ▸ uncovered)
        rw [pending] at now ⊢
        rw [bucket, sum]
        dsimp only
        omega
  case waited t =>
    obtain ⟨phase, taken⟩ := ite_none_right_eq_some.mp taken
    obtain ⟨r, -, rfl⟩ := map_eq_some_iff.mp taken
    have before := notifies_eq_zero phase nofun
    cases r with
    | ok n => exact h.move s rfl rfl at_t before nofun nofun
    | error e =>
      rw [afterWait]
      split
      · exact h.move s rfl rfl at_t before nofun nofun
      · exact h.move s rfl rfl at_t before nofun nofun
  case unlock t =>
    obtain ⟨phase, ⟨⟩⟩ := ite_none_right_eq_some.mp taken
    exact h.move s rfl rfl at_t (notifies_eq_zero phase nofun) nofun nofun
  case release t mapped =>
    obtain ⟨phase, taken⟩ := ite_none_right_eq_some.mp taken
    have before := notifies_eq_zero phase nofun
    split at taken
    case isTrue =>
      cases taken
      exact h.move s rfl rfl at_t before nofun nofun
    case isFalse valid =>
      obtain ⟨-, ⟨⟩⟩ := ite_none_right_eq_some.mp taken
      exact h.releaseSection at_t before (fun zero => valid (.inr zero)) sole
  case notify t =>
    obtain ⟨phase, taken⟩ := ite_none_right_eq_some.mp taken
    obtain ⟨f, begun, rfl⟩ := map_eq_some_iff.mp taken
    obtain ⟨tagged, word, bucket, sum⟩ := h.tagged.wake (h.notifying t p at_t phase) begun
    have before : p.notifies = 1 := by rw [PiTask.notifies, phase]; rfl
    apply h.change { s with futex := f } rfl at_t tagged
    · exact word ▸ h.word
    · exact nofun
    · exact nofun
    · intro uncovered
      have now := h.enough (word ▸ uncovered)
      rw [pending] at now ⊢
      rw [bucket, sum]
      dsimp only
      omega
  case woke t =>
    obtain ⟨phase, taken⟩ := ite_none_right_eq_some.mp taken
    obtain ⟨r, -, rfl⟩ := map_eq_some_iff.mp taken
    exact h.move s rfl rfl at_t (notifies_eq_zero phase nofun) nofun nofun

theorem inv_init (frame : Nat) (views : List (Nat × Nat)) : (init frame views).Inv where
  tagged := by
    refine ⟨sound_init _ _ _, ?_, nofun, Nat.succ_ne_zero frame⟩
    intro t x at_t
    rw [eq_of_mem_replicate (mem_of_getElem? at_t)]
    exact trivial
  word := nofun
  parking := by
    intro t p w at_t phase
    obtain ⟨v, -, rfl⟩ := mem_map.mp (mem_of_getElem? at_t)
    cases phase
  notifying := by
    intro t p at_t phase
    obtain ⟨v, -, rfl⟩ := mem_map.mp (mem_of_getElem? at_t)
    cases phase
  enough := fun _ => Nat.zero_le _

/-- **Nobody is forgotten.** In a run whose releases each find no more entries linked than wakes are
to come, every task that sleeps on a word without an owner or without the bit has its wake in
flight. -/
theorem pi_progress {frame : Nat} {views : List (Nat × Nat)} {s : PiSys}
    (run : RunsTo step Sole (init frame views) s) {t q : Nat} {x : FutexTask PiWord}
    (at_t : s.futex.tasks[t]? = some x) (parked : x.waits q = true)
    (unowned : s.futex.word.owner = 0 ∨ s.futex.word.waiters = false) : s.WakeInFlight t q := by
  have h : s.Inv := run.invariant Inv.step (inv_init frame views)
  have uncovered : s.futex.word.covered = false := by
    rw [PiWord.covered, decide_eq_false_iff_not]
    rintro ⟨owned, set⟩
    rcases unowned with nobody | unset
    · exact owned nobody
    · exact nomatch unset.symm.trans set
  rcases h.tagged.sound.found t x q at_t parked with linked | flying
  · exact .inr ⟨linked, h.enough uncovered⟩
  · exact .inl flying

/-- Three tasks that share one address space. -/
def threeTasks : PiSys := init 0 [(0, 4096), (0, 4096), (0, 4096)]

/-- Task `t` finds the word owned, sets the bit and goes to sleep. -/
def sleeps (t : Nat) : List PiLabel :=
  [.lock t false, .load t true, .swap t, .park t, .futex (.prepare t),
    .futex (.link t true true true), .futex (.commit t)]

/-- The owner releases the word, and the one task that sleeps on it is going to be woken. -/
theorem pi_progress_one : ∃ s : PiSys, RunsTo step Sole threeTasks s ∧ s.futex.word = .zero ∧
    s.WakeInFlight 1 1 := by
  obtain ⟨s, run, zero, x, at_one, parked⟩ : ∃ s, RunsTo step Sole threeTasks s ∧
      s.futex.word = .zero ∧ ∃ x ∈ s.futex.tasks[1]?, x.waits 1 = true :=
    runsTo_of_execWhile (.userLock 0 :: sleeps 1 ++ [.unlock 0, .release 0 true])
      (by decide +kernel)
  exact ⟨s, run, zero, pi_progress run at_one parked (.inl (by rw [zero]; rfl))⟩

/-- Two tasks sleep. The release wakes one of them, which claims the word without the bit and
frees it in user space: the word is zero, the other task sleeps, and nobody will wake it. -/
theorem pi_progress_two_sleepers : ∃ s : PiSys, RunsTo step always threeTasks s ∧
    s.futex.word = .zero ∧ s.tasks.map PiTask.phase = [.outside, .waiting, .outside] ∧
    (∃ x ∈ s.futex.tasks[1]?, x.waits 1 = true) ∧ ¬ s.WakeInFlight 1 1 := by
  obtain ⟨s, run, zero, phases, parked, landed, fewer⟩ : ∃ s, RunsTo step always threeTasks s ∧
      s.futex.word = .zero ∧ s.tasks.map PiTask.phase = [.outside, .waiting, .outside] ∧
      (∃ x ∈ s.futex.tasks[1]?, x.waits 1 = true) ∧
      (∀ x ∈ s.futex.tasks, x.inFlight = []) ∧ s.pending < s.futex.bucket.length :=
    runsTo_of_exec (.userLock 0 :: sleeps 1 ++ sleeps 2 ++
      [.unlock 0, .release 0 true, .notify 0, .futex (.collect 0), .futex (.deliver 0),
        .futex (.next 0), .futex (.collect 0), .woke 0, .futex (.resume 2), .futex (.unlink 2),
        .futex (.finish 2), .waited 2, .load 2 true, .swap 2, .userUnlock 2]) (by decide +kernel)
  refine ⟨s, run, zero, phases, parked, ?_⟩
  rintro (⟨u, x, at_u, e, member, -⟩ | ⟨-, enough⟩)
  · rw [landed x (mem_of_getElem? at_u)] at member
    cases member
  · omega

end PiSys

end A20OS.Ipc
