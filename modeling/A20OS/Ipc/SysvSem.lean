import A20OS.Errno
import A20OS.Lib.Machine
import Mathlib.Data.List.Nodup

/-!
System V semaphores (`kernel/ipc/sysv_sem.c`).

A `semop` is a loop of attempts under one lock: an attempt (`semTry`) applies the whole array,
fails, or parks, and the call comes back through a section that takes its count of waiters off. A
section that changes or removes a set wakes its waiters in a step of its own.

What an array means is `sequential`: one operation after the other, each on the value the ones
before it left. The code checks all operations against the values before the call and then
applies them without a further check.
-/

namespace A20OS.Ipc

open Lib List Option Function

/-! ### Sets -/

/-- `sysv_sembuf_t`; `semOp` is a `short`. -/
structure Sembuf where
  semNum : Nat
  semOp : Int
  nowait : Bool
deriving DecidableEq

def sysvSemMax : Nat := 32
def sysvSemPerSet : Nat := 64

/-- The largest value of a semaphore, `semvmx`. -/
def semvmx : Nat := 32767

/-- `sysv_sem_set_t` without owner, mode and wait queue. -/
structure SemSet where
  used : Bool
  key : Int
  nsems : Nat
  val : Nat → Nat
  ncnt : Nat → Nat
  zcnt : Nat → Nat

def SemSet.unused : SemSet := ⟨false, 0, 0, fun _ => 0, fun _ => 0, fun _ => 0⟩

/-- `sysv_sem_get`: the index, and the sets with a new one at a free index. -/
def sysvSemGet (sets : Nat → SemSet) (key nsems : Int) (creat excl : Bool) :
    (Nat → SemSet) × Except Errno Nat :=
  if nsems < 0 ∨ (sysvSemPerSet : Int) < nsems then (sets, .error .EINVAL)
  else
    match (range sysvSemMax).find? fun i =>
      (sets i).used && decide ((sets i).key = key) && decide (key ≠ 0) with
    | some i =>
        if creat ∧ excl then (sets, .error .EEXIST)
        else if 0 < nsems ∧ ((sets i).nsems : Int) < nsems then (sets, .error .EINVAL)
        else (sets, .ok i)
    | none =>
        if !creat then (sets, .error .ENOENT)
        else if nsems ≤ 0 then (sets, .error .EINVAL)
        else
          match (range sysvSemMax).find? fun i => !(sets i).used with
          | some i =>
              (update sets i { SemSet.unused with used := true, key, nsems := nsems.toNat }, .ok i)
          | none => (sets, .error .ENOSPC)

/-! ### An attempt -/

inductive CanApply where
  | tooBig
  | waits (n : Nat) (zero : Bool)
  | yes
deriving DecidableEq

/-- `sem_ops_can_apply`: the values are those before the call for every operation. -/
def semOpsCanApply (set : SemSet) : List Sembuf → CanApply
  | [] => .yes
  | op :: ops =>
      if set.nsems ≤ op.semNum then .tooBig
      else if op.semOp < 0 ∧ (set.val op.semNum : Int) < -op.semOp then .waits op.semNum false
      else if op.semOp = 0 ∧ set.val op.semNum ≠ 0 then .waits op.semNum true
      else semOpsCanApply set ops

/-- One iteration of `sem_ops_apply`, on `unsigned short` values. -/
def applyOp (val : Nat → Nat) (op : Sembuf) : Nat → Nat :=
  update val op.semNum (((val op.semNum : Int) + op.semOp) % 65536).toNat

def semOpsApply (val : Nat → Nat) (ops : List Sembuf) : Nat → Nat := ops.foldl applyOp val

/-- How an attempt ends. -/
inductive SemEnd where
  | returned (r : Except Errno Unit)
  /-- The lock is dropped to prepare the wait, and the attempt is made again. -/
  | prepares
  /-- The call is linked and goes to sleep, counted at semaphore `n`. -/
  | parks (n : Nat) (zero : Bool)
deriving DecidableEq

/-- What the attempt finds besides the set. -/
structure SemEnv where
  token : Bool := false
  signal : Bool := false
  expired : Bool := false

/-- Count a waiter at semaphore `n`. -/
def SemSet.addWaiter (set : SemSet) (n : Nat) (zero : Bool) : SemSet :=
  if zero then { set with zcnt := update set.zcnt n (set.zcnt n + 1) }
  else { set with ncnt := update set.ncnt n (set.ncnt n + 1) }

/-- Take a waiter off the count at semaphore `n`. -/
def SemSet.dropWaiter (set : SemSet) (n : Nat) (zero : Bool) : SemSet :=
  if zero then { set with zcnt := update set.zcnt n (set.zcnt n - 1) }
  else { set with ncnt := update set.ncnt n (set.ncnt n - 1) }

/-- One iteration of the loop of `sysv_sem_timedop`, up to where it drops the lock. -/
def semTry (set : SemSet) (ops : List Sembuf) (env : SemEnv) : SemSet × SemEnd :=
  if !set.used then (set, .returned (.error .EINVAL))
  else
    match semOpsCanApply set ops with
    | .tooBig => (set, .returned (.error .EFBIG))
    | .yes => ({ set with val := semOpsApply set.val ops }, .returned (.ok ()))
    | .waits n zero =>
        if ops.any Sembuf.nowait then (set, .returned (.error .EAGAIN))
        else if env.signal then (set, .returned (.error .EINTR))
        else if env.expired then (set, .returned (.error .EAGAIN))
        else if !env.token then (set, .prepares)
        else (set.addWaiter n zero, .parks n zero)

/-! ### The system -/

/-- The entry of a waiting call: in the queue of its set, not there any more because the set was
made anew, or woken. -/
inductive SemWait where
  | linked | lost | woken
deriving DecidableEq, Repr

/-- Where a `semop` is between its attempts. -/
inductive SemPhase where
  | trying (token : Bool)
  | parked (n : Nat) (zero : Bool) (wait : SemWait)
deriving DecidableEq

structure SemCall where
  semid : Nat
  ops : List Sembuf
  phase : SemPhase

/-- The call when the entries in the queue of a set are woken or lost. -/
def SemCall.unlinked (semid : Nat) (wait : SemWait) (c : SemCall) : SemCall :=
  match c.phase with
  | .parked n zero .linked => if c.semid = semid then { c with phase := .parked n zero wait } else c
  | _ => c

/-- The sets by index, the calls in progress, and the sets whose waiters a section has still to
wake. -/
structure SemSys where
  sets : Nat → SemSet
  calls : List SemCall
  wakes : List Nat := []

variable {ops : List Sembuf} {env : SemEnv} {set : SemSet} {s : SemSys} {val : Nat → Nat}
  {i semid : Nat}

inductive SemLabel where
  | get (key nsems : Int) (creat excl : Bool)
  | rmid (semid : Nat)
  /-- `SETVAL`, with the low 16 bits of the argument stored. -/
  | setval (semid semnum raw : Nat)
  /-- The second section of `SETALL`: `n` staged values are stored, where `n` is the size the
  first section read. -/
  | setall (semid n : Nat) (stage : Nat → Nat)
  | call (semid : Nat) (ops : List Sembuf)
  /-- Call `i` makes an attempt; `prepared` tells whether a wait can be prepared if needed. -/
  | attempt (i : Nat) (env : SemEnv) (prepared : Bool)
  /-- The wake-up number `k` of those to be made. -/
  | wake (k : Nat)
  /-- Call `i` is back from its wait, also `early`, by a signal or at its deadline. -/
  | back (i : Nat) (early : Bool)

namespace SemSys

def init : SemSys := ⟨fun _ => .unused, [], []⟩

/-- Write back one set. -/
def setSet (s : SemSys) (semid : Nat) (set : SemSet) : SemSys :=
  { s with sets := update s.sets semid set }

/-- The calls after call `i` ended its attempt. -/
def settle (calls : List SemCall) (i : Nat) (c : SemCall) (prepared : Bool) :
    SemEnd → List SemCall
  | .returned _ => calls.eraseIdx i
  | .prepares =>
      if prepared then calls.set i { c with phase := .trying true } else calls.eraseIdx i
  | .parks n zero => calls.set i { c with phase := .parked n zero .linked }

def step (s : SemSys) : SemLabel → Option SemSys
  | .get key nsems creat excl =>
      let (sets, got) := sysvSemGet s.sets key nsems creat excl
      some { s with
        sets
        calls := match got with
          | .ok i => if (s.sets i).used then s.calls else s.calls.map (·.unlinked i .lost)
          | .error _ => s.calls }
  | .rmid semid =>
      if semid < sysvSemMax ∧ (s.sets semid).used = true then
        some { s.setSet semid { s.sets semid with used := false } with wakes := semid :: s.wakes }
      else none
  | .setval semid semnum raw =>
      if semid < sysvSemMax ∧ (s.sets semid).used = true ∧ semnum < (s.sets semid).nsems then
        some { s.setSet semid
          { s.sets semid with val := update (s.sets semid).val semnum (raw % 65536) } with
          wakes := semid :: s.wakes }
      else none
  | .setall semid n stage =>
      if semid < sysvSemMax ∧ (s.sets semid).used = true ∧ n ≤ sysvSemPerSet then
        some { s.setSet semid { s.sets semid with
          val := fun i => if i < n then stage i % 65536 else (s.sets semid).val i } with
          wakes := semid :: s.wakes }
      else none
  | .call semid ops =>
      if 0 < ops.length ∧ ops.length ≤ 64 then
        some { s with calls := s.calls ++ [⟨semid, ops, .trying false⟩] }
      else none
  | .attempt i env prepared =>
      (s.calls[i]?).bind fun c =>
        if c.phase = .trying env.token then
          let tried := semTry (s.sets c.semid) c.ops env
          some { s.setSet c.semid tried.1 with
            calls := settle s.calls i c prepared tried.2
            wakes := if tried.2 = .returned (.ok ()) then c.semid :: s.wakes else s.wakes }
        else none
  | .wake k =>
      (s.wakes[k]?).map fun semid => { s with
        wakes := s.wakes.eraseIdx k, calls := s.calls.map (·.unlinked semid .woken) }
  | .back i early =>
      (s.calls[i]?).bind fun c =>
        match c.phase with
        | .parked n zero wait =>
            if wait = .woken ∨ early then
              some { s.setSet c.semid ((s.sets c.semid).dropWaiter n zero) with
                calls := s.calls.set i { c with phase := .trying false } }
            else none
        | .trying _ => none

end SemSys

/-! ### What an array of operations means -/

/-- Run the operations one after the other; each must keep its semaphore in 0..32767, and a zero
needs the value to be zero. -/
def sequential : (Nat → Nat) → List Sembuf → Option (Nat → Nat)
  | val, [] => some val
  | val, op :: ops =>
      let v := (val op.semNum : Int) + op.semOp
      if 0 ≤ v ∧ v ≤ semvmx ∧ (op.semOp = 0 → val op.semNum = 0) then
        sequential (update val op.semNum v.toNat) ops
      else none

/-- A value before the call and what the operations before this one add to it. -/
def shifted (val : Nat → Nat) (before : List Sembuf) (n : Nat) : Int :=
  val n + ((before.filter fun op => op.semNum = n).map Sembuf.semOp).sum

/-- Every operation finds a value that it can be applied to, those before it counted. -/
def Fits (val : Nat → Nat) (ops : List Sembuf) : Prop :=
  ∀ i < ops.length, ∀ op ∈ ops[i]?,
    0 ≤ shifted val (ops.take i) op.semNum + op.semOp ∧
      shifted val (ops.take i) op.semNum + op.semOp ≤ semvmx ∧
      (op.semOp = 0 → shifted val (ops.take i) op.semNum = 0)

instance (val : Nat → Nat) (ops : List Sembuf) : Decidable (Fits val ops) := by
  unfold Fits
  infer_instance

/-- The operation cannot be applied to the values before the call. -/
def Refuses (set : SemSet) (op : Sembuf) : Prop :=
  set.nsems ≤ op.semNum ∨ (set.val op.semNum : Int) + op.semOp < 0 ∨
    op.semOp = 0 ∧ set.val op.semNum ≠ 0

theorem semOpsCanApply_yes_iff :
    semOpsCanApply set ops = .yes ↔ ¬∃ op ∈ ops, Refuses set op := by
  induction ops with
  | nil => simp [semOpsCanApply]
  | cons op ops ih =>
    rw [semOpsCanApply]
    simp only [mem_cons, exists_eq_or_imp, not_or, ← ih]
    rw [Refuses]
    repeat' split
    · exact iff_of_false nofun (by simp_all)
    · exact iff_of_false nofun (by omega)
    · exact iff_of_false nofun (by simp_all)
    · rw [iff_and_self]
      intro _
      omega

theorem shifted_cons (op : Sembuf) (before : List Sembuf) (n : Nat)
    (nonneg : 0 ≤ (val op.semNum : Int) + op.semOp) : shifted val (op :: before) n =
      shifted (update val op.semNum ((val op.semNum : Int) + op.semOp).toNat) before n := by
  unfold shifted
  by_cases same : op.semNum = n
  · subst same
    rw [filter_cons_of_pos (by simp), map_cons, sum_cons, update_self]
    omega
  · rw [filter_cons_of_neg (by simpa using same), update_of_ne (Ne.symm same)]

/-- The array runs if each of its operations fits behind those before it. -/
theorem sequential_isSome_iff : (sequential val ops).isSome = true ↔ Fits val ops := by
  induction ops generalizing val with
  | nil => exact iff_of_true rfl nofun
  | cons op ops ih =>
    have first : shifted val [] op.semNum = val op.semNum := by simp [shifted]
    rw [sequential]
    split
    · next here =>
      rw [ih]
      constructor
      · intro fits i inside other found
        cases i with
        | zero =>
          cases found
          rw [take_zero, first]
          exact ⟨here.1, here.2.1, fun zero => by exact_mod_cast here.2.2 zero⟩
        | succ i =>
          rw [take_succ_cons, shifted_cons _ _ _ here.1]
          exact fits i (Nat.lt_of_succ_lt_succ inside) other found
      · intro fits i inside other found
        have later := fits (i + 1) (Nat.succ_lt_succ inside) other found
        rwa [take_succ_cons, shifted_cons _ _ _ here.1] at later
    · next refused =>
      refine iff_of_false nofun fun fits => refused ?_
      have here := fits 0 (Nat.succ_pos _) op rfl
      rw [take_zero, first] at here
      exact ⟨here.1, here.2.1, fun zero => by exact_mod_cast here.2.2 zero⟩

/-- The code's arithmetic is that of the sequential run as long as this goes on. -/
theorem semOpsApply_of_sequential {val' : Nat → Nat} (ran : sequential val ops = some val') :
    semOpsApply val ops = val' := by
  induction ops generalizing val with
  | nil => exact some.inj ran
  | cons op ops ih =>
    obtain ⟨⟨low, high, -⟩, rest⟩ := ite_none_right_eq_some.mp ran
    have small : ((val op.semNum : Int) + op.semOp) % 65536 = (val op.semNum : Int) + op.semOp := by
      simp only [semvmx] at high
      omega
    rw [semOpsApply, foldl_cons, applyOp, small]
    exact ih rest

theorem sequential_range {val' : Nat → Nat} (ran : sequential val ops = some val')
    (range : ∀ n, val n ≤ semvmx) (n : Nat) : val' n ≤ semvmx := by
  induction ops generalizing val with
  | nil =>
    cases ran
    exact range n
  | cons op ops ih =>
    obtain ⟨⟨-, bound, -⟩, rest⟩ := ite_none_right_eq_some.mp ran
    refine ih rest ((forall_update_iff val fun _ v => v ≤ semvmx).mpr ⟨?_, fun i _ => range i⟩)
    omega

/-! ### Attempts -/

/-- An attempt on a set that exists and passes the check applies the array, and any other leaves
the values alone. -/
theorem semTry_cases (set : SemSet) (ops : List Sembuf) (env : SemEnv) :
    (set.used = true ∧ semOpsCanApply set ops = .yes) ∧
      semTry set ops env = ({ set with val := semOpsApply set.val ops }, .returned (.ok ())) ∨
    ¬(set.used = true ∧ semOpsCanApply set ops = .yes) ∧
      (semTry set ops env).2 ≠ .returned (.ok ()) ∧ (semTry set ops env).1.val = set.val := by
  unfold semTry
  cases set.used with
  | false => exact .inr ⟨nofun, nofun, rfl⟩
  | true =>
    cases semOpsCanApply set ops with
    | tooBig => exact .inr ⟨nofun, nofun, rfl⟩
    | yes => exact .inl ⟨⟨rfl, rfl⟩, rfl⟩
    | waits n zero =>
      refine .inr ⟨nofun, ?_⟩
      dsimp only [Bool.not_true, Bool.false_eq_true, if_false]
      repeat' split
      all_goals exact ⟨nofun, by cases zero <;> rfl⟩

theorem semTry_ok_iff : (semTry set ops env).2 = .returned (.ok ()) ↔
    set.used = true ∧ semOpsCanApply set ops = .yes := by
  rcases semTry_cases set ops env with ⟨can, applied⟩ | ⟨cannot, failed, -⟩
  · exact iff_of_true (congrArg Prod.snd applied) can
  · exact iff_of_false failed cannot

theorem sequential_of_fits (fits : Fits set.val ops)
    (done : (semTry set ops env).2 = .returned (.ok ())) :
    sequential set.val ops = some (semTry set ops env).1.val := by
  obtain ⟨-, applied⟩ := (semTry_cases set ops env).resolve_right fun failed => failed.2.1 done
  obtain ⟨val', ran⟩ := isSome_iff_exists.mp (sequential_isSome_iff.mpr fits)
  rw [applied, ran, semOpsApply_of_sequential ran]

/-- A successful attempt is the sequential run exactly if the array fits or is refused. -/
theorem semTry_sequential_iff (set : SemSet) (ops : List Sembuf) (env : SemEnv) :
    ((semTry set ops env).2 = .returned (.ok ()) →
      sequential set.val ops = some (semTry set ops env).1.val) ↔
    set.used = false ∨ (∃ op ∈ ops, Refuses set op) ∨ Fits set.val ops := by
  constructor
  · intro runs
    by_contra outside
    obtain ⟨used, refuses, unfit⟩ := by simpa only [not_or] using outside
    have done : (semTry set ops env).2 = .returned (.ok ()) :=
      semTry_ok_iff.mpr ⟨by simpa using used, semOpsCanApply_yes_iff.mpr refuses⟩
    exact unfit (sequential_isSome_iff.mp (by rw [runs done, isSome_some]))
  · rintro (unused | refuses | fits) done
    · rw [(semTry_ok_iff.mp done).1] at unused
      cases unused
    · exact absurd refuses (semOpsCanApply_yes_iff.mp (semTry_ok_iff.mp done).2)
    · exact sequential_of_fits fits done

/-! ### Runs -/

namespace SemSys

/-- The condition on the steps of a run: control stores values in range, and an array that is
about to be applied fits. -/
def Tame (s : SemSys) : SemLabel → Prop
  | .setval _ _ raw => raw % 65536 ≤ semvmx
  | .setall _ n stage => ∀ i < n, stage i % 65536 ≤ semvmx
  | .attempt i _ _ => ∀ c ∈ s.calls[i]?, semOpsCanApply (s.sets c.semid) c.ops = .yes →
      Fits (s.sets c.semid).val c.ops
  | _ => True

instance (s : SemSys) (l : SemLabel) : Decidable (Tame s l) := by
  cases l <;> unfold Tame <;> infer_instance

/-- Every value of every set is in range. -/
def InRange (s : SemSys) : Prop := ∀ semid n, (s.sets semid).val n ≤ semvmx

theorem InRange.setSet (h : s.InRange) (range : ∀ n, set.val n ≤ semvmx) :
    (s.setSet semid set).InRange :=
  (forall_update_iff s.sets fun _ set => ∀ n, set.val n ≤ semvmx).mpr ⟨range, fun j _ => h j⟩

theorem InRange.semTry (h : s.InRange)
    (tame : semOpsCanApply (s.sets semid) ops = .yes → Fits (s.sets semid).val ops) (n : Nat) :
    (Ipc.semTry (s.sets semid) ops env).1.val n ≤ semvmx := by
  rcases semTry_cases (s.sets semid) ops env with ⟨can, done⟩ | ⟨-, -, same⟩
  · exact sequential_range (sequential_of_fits (tame can.2) (congrArg Prod.snd done)) (h semid) n
  · rw [same]
    exact h semid n

theorem InRange.get (h : s.InRange) (key nsems : Int) (creat excl : Bool) (semid n : Nat) :
    ((sysvSemGet s.sets key nsems creat excl).1 semid).val n ≤ semvmx := by
  unfold sysvSemGet
  repeat' split
  all_goals first
    | exact h semid n
    | exact h.setSet (fun _ => Nat.zero_le _) semid n

variable {s' : SemSys}

/-- An attempt writes back the set it was made on. -/
theorem sets_attempt {prepared : Bool} (taken : s.step (.attempt i env prepared) = some s') :
    ∃ c, s.calls[i]? = some c ∧
      s'.sets = (s.setSet c.semid (Ipc.semTry (s.sets c.semid) c.ops env).1).sets ∧
      s'.calls = settle s.calls i c prepared (Ipc.semTry (s.sets c.semid) c.ops env).2 ∧
      s.wakes ⊆ s'.wakes := by
  obtain ⟨c, found, taken⟩ := bind_eq_some_iff.mp taken
  obtain ⟨-, ⟨⟩⟩ := ite_none_right_eq_some.mp taken
  refine ⟨c, found, rfl, rfl, ?_⟩
  dsimp only
  split
  · exact subset_cons_self ..
  · exact Subset.refl _

/-- A call that is back takes itself off a count. -/
theorem sets_back {early : Bool} (taken : s.step (.back i early) = some s') :
    ∃ (c : SemCall) (n : Nat) (zero : Bool),
    s'.sets = (s.setSet c.semid ((s.sets c.semid).dropWaiter n zero)).sets ∧
      s'.calls = s.calls.set i { c with phase := .trying false } ∧ s'.wakes = s.wakes := by
  obtain ⟨c, found, taken⟩ := bind_eq_some_iff.mp taken
  dsimp only at taken
  split at taken
  · obtain ⟨-, ⟨⟩⟩ := ite_none_right_eq_some.mp taken
    exact ⟨c, _, _, rfl, rfl, rfl⟩
  · cases taken

theorem InRange.step {l : SemLabel} (h : s.InRange) (tame : s.Tame l)
    (taken : s.step l = some s') : s'.InRange := by
  cases l with
  | get key nsems creat excl =>
    cases taken
    exact h.get key nsems creat excl
  | rmid semid =>
    obtain ⟨-, ⟨⟩⟩ := ite_none_right_eq_some.mp taken
    exact h.setSet (h semid)
  | setval semid semnum raw =>
    obtain ⟨-, ⟨⟩⟩ := ite_none_right_eq_some.mp taken
    exact h.setSet ((forall_update_iff _ fun _ v => v ≤ semvmx).mpr ⟨tame, fun n _ => h semid n⟩)
  | setall semid n stage =>
    obtain ⟨-, ⟨⟩⟩ := ite_none_right_eq_some.mp taken
    apply h.setSet
    intro i
    dsimp only
    split
    · next inside => exact tame i inside
    · exact h semid i
  | call semid ops =>
    obtain ⟨-, ⟨⟩⟩ := ite_none_right_eq_some.mp taken
    exact h
  | attempt i env prepared =>
    obtain ⟨c, found, sets, -⟩ := sets_attempt taken
    rw [InRange, sets]
    exact h.setSet (h.semTry (tame c found))
  | wake k =>
    obtain ⟨_, -, rfl⟩ := map_eq_some_iff.mp taken
    exact h
  | back i early =>
    obtain ⟨c, n, zero, sets, -⟩ := sets_back taken
    rw [InRange, sets]
    apply h.setSet
    cases zero <;> exact h c.semid

/-- **Semaphore operations.** An attempt of a `semop` that does not return 0 changes no value. One
that returns 0 is the sequential run of the array exactly if the array fits; one that an operation
refuses does not return 0. In every run whose arrays fit when they are applied, with control
storing values in range, every value of every set is in 0..32767. -/
theorem semop_sequential (set : SemSet) (ops : List Sembuf) (env : SemEnv) (s : SemSys) :
    ((Ipc.semTry set ops env).2 ≠ .returned (.ok ()) →
      (Ipc.semTry set ops env).1.val = set.val) ∧
    (((Ipc.semTry set ops env).2 = .returned (.ok ()) →
      sequential set.val ops = some (Ipc.semTry set ops env).1.val) ↔
      set.used = false ∨ (∃ op ∈ ops, Refuses set op) ∨ Fits set.val ops) ∧
    (RunsTo step Tame init s → ∀ semid n, (s.sets semid).val n ≤ semvmx) := by
  refine ⟨fun failed => ?_, semTry_sequential_iff set ops env, fun run => ?_⟩
  · rcases semTry_cases set ops env with ⟨-, done⟩ | ⟨-, -, same⟩
    · exact absurd (congrArg Prod.snd done) failed
    · exact same
  have start : init.InRange := fun _ _ => Nat.zero_le _
  exact run.invariant InRange.step start

/-- A set of two semaphores of which the first starts at `raw`, and an array for it. -/
def oneCall (raw : Nat) (ops : List Sembuf) : List SemLabel :=
  [.get 7 2 true false, .setval 0 0 raw, .call 0 ops, .attempt 0 {} true]

/-- The second array names semaphore 0 twice. -/
theorem semop_sequential_moves :
    ∃ s, RunsTo step Tame init s ∧ (∀ semid n, (s.sets semid).val n ≤ semvmx) ∧
      sequential (s.sets 0).val [⟨0, -3, false⟩, ⟨0, 2, false⟩] =
        some (Ipc.semTry (s.sets 0) [⟨0, -3, false⟩, ⟨0, 2, false⟩] {}).1.val := by
  obtain ⟨s, run, fits, done⟩ : ∃ s, RunsTo step Tame init s ∧
      Fits (s.sets 0).val [⟨0, -3, false⟩, ⟨0, 2, false⟩] ∧
      (Ipc.semTry (s.sets 0) [⟨0, -3, false⟩, ⟨0, 2, false⟩] {}).2 =
        .returned (.ok ()) :=
    runsTo_of_execWhile (oneCall 5 [⟨0, -2, false⟩, ⟨1, 2, false⟩]) (by decide +kernel)
  have result := semop_sequential (s.sets 0) [⟨0, -3, false⟩, ⟨0, 2, false⟩] {} s
  exact ⟨s, run, result.2.2 run, result.2.1.mpr (.inr (.inr fits)) done⟩

/-- Taking 1 twice from a semaphore that holds 1 succeeds and leaves 65535. -/
theorem semop_sequential_repeated :
    ∃ s, RunsTo step always init s ∧ s.calls = [] ∧ semvmx < (s.sets 0).val 0 ∧
      sequential (update (fun _ => 0) 0 1) [⟨0, -1, false⟩, ⟨0, -1, false⟩] = none := by
  obtain ⟨s, run, ended, above⟩ : ∃ s, RunsTo step always init s ∧ s.calls.length = 0 ∧
      semvmx < (s.sets 0).val 0 :=
    runsTo_of_exec (oneCall 1 [⟨0, -1, false⟩, ⟨0, -1, false⟩]) (by decide +kernel)
  exact ⟨s, run, length_eq_zero_iff.mp ended, above, rfl⟩

/-! ### Removal -/

/-- No new set takes the slot. -/
def Spares (semid : Nat) (s : SemSys) : SemLabel → Prop
  | .get key nsems creat excl => (sysvSemGet s.sets key nsems creat excl).1 semid = s.sets semid
  | _ => True

/-- The call is in the queue of a set. -/
def Queued (semid : Nat) (c : SemCall) : Prop :=
  c.semid = semid ∧ ∃ n zero, c.phase = .parked n zero .linked

/-- Who is still in a queue when those of another were taken out. -/
theorem queued_of_unlinked {j : Nat} {wait : SemWait} {c : SemCall} (out : wait ≠ .linked)
    (queued : Queued semid (c.unlinked j wait)) : Queued semid c ∧ semid ≠ j := by
  unfold SemCall.unlinked at queued
  split at queued
  · next phase =>
    split at queued
    · obtain ⟨-, _, _, ⟨⟩⟩ := queued
      exact absurd rfl out
    · next other => exact ⟨queued, queued.1 ▸ other⟩
  · next none =>
    obtain ⟨-, n, zero, linked⟩ := queued
    exact absurd linked (none n zero)

/-- The set is removed, and who is in its queue has a wake-up to come. -/
def Removed (semid : Nat) (s : SemSys) : Prop :=
  (s.sets semid).used = false ∧ ∀ c ∈ s.calls, Queued semid c → semid ∈ s.wakes

theorem semTry_unused (gone : (s.sets semid).used = false) (ops : List Sembuf) (env : SemEnv) :
    Ipc.semTry (s.sets semid) ops env = (s.sets semid, .returned (.error .EINVAL)) := by
  rw [Ipc.semTry, gone]
  rfl

theorem unused_setSet (gone : (s.sets semid).used = false) {j : Nat}
    (kept : semid = j → set.used = false) : ((s.setSet j set).sets semid).used = false := by
  change (update s.sets j set semid).used = false
  rw [update_apply]
  split
  · next same => exact kept same
  · exact gone

section
variable (removed : s.Removed semid)
include removed

theorem Removed.attempt {i : Nat} {env : SemEnv} {prepared : Bool}
    (taken : s.step (.attempt i env prepared) = some s') : s'.Removed semid := by
  obtain ⟨gone, pending⟩ := removed
  obtain ⟨c, found, sets, calls, wakes⟩ := sets_attempt taken
  refine ⟨?_, fun other member queued => wakes ?_⟩
  · rw [sets]
    refine unused_setSet gone fun same => ?_
    rw [← same, semTry_unused gone]
    exact gone
  · rw [calls] at member
    unfold settle at member
    repeat' split at member
    · exact pending other (mem_of_mem_eraseIdx member) queued
    · rcases mem_or_eq_of_mem_set member with old | rfl
      · exact pending other old queued
      · obtain ⟨-, _, _, ⟨⟩⟩ := queued
    · exact pending other (mem_of_mem_eraseIdx member) queued
    · next parks =>
      -- a call on the removed set does not park
      rcases mem_or_eq_of_mem_set member with old | rfl
      · exact pending other old queued
      · obtain rfl : c.semid = semid := queued.1
        rw [semTry_unused gone] at parks
        cases parks

theorem Removed.wake {k : Nat} (taken : s.step (.wake k) = some s') : s'.Removed semid := by
  obtain ⟨gone, pending⟩ := removed
  obtain ⟨j, waking, rfl⟩ := map_eq_some_iff.mp taken
  refine ⟨gone, fun c member queued => ?_⟩
  obtain ⟨c, old, rfl⟩ := mem_map.mp member
  obtain ⟨queued, other⟩ := queued_of_unlinked (by decide) queued
  obtain ⟨at_, found⟩ := getElem?_of_mem (pending c old queued)
  refine mem_eraseIdx_iff_getElem?.mpr ⟨at_, ?_, found⟩
  rintro rfl
  exact other (some.inj (found.symm.trans waking))

end

theorem Removed.step {l : SemLabel} (removed : s.Removed semid) (spared : Spares semid s l)
    (taken : s.step l = some s') : s'.Removed semid := by
  have ⟨gone, pending⟩ := removed
  cases l with
  | get key nsems creat excl =>
    cases taken
    refine ⟨(congrArg SemSet.used spared).trans gone, fun c member queued => ?_⟩
    dsimp only at member
    repeat' split at member
    · exact pending c member queued
    · obtain ⟨c, old, rfl⟩ := mem_map.mp member
      exact pending c old (queued_of_unlinked (by decide) queued).1
    · exact pending c member queued
  | rmid =>
    obtain ⟨-, ⟨⟩⟩ := ite_none_right_eq_some.mp taken
    exact ⟨unused_setSet gone fun _ => rfl, fun c member queued =>
      .tail _ (pending c member queued)⟩
  | setval | setall =>
    obtain ⟨-, ⟨⟩⟩ := ite_none_right_eq_some.mp taken
    exact ⟨unused_setSet gone fun same => same ▸ gone, fun c member queued =>
      .tail _ (pending c member queued)⟩
  | call =>
    obtain ⟨-, ⟨⟩⟩ := ite_none_right_eq_some.mp taken
    refine ⟨gone, fun c member queued => ?_⟩
    rcases mem_append.mp member with old | new
    · exact pending c old queued
    · obtain rfl := mem_singleton.mp new
      obtain ⟨-, _, _, ⟨⟩⟩ := queued
  | attempt => exact removed.attempt taken
  | wake => exact removed.wake taken
  | back i early =>
    obtain ⟨c, n, zero, sets, calls, wakes⟩ := sets_back taken
    refine ⟨?_, fun other member queued => ?_⟩
    · rw [sets]
      exact unused_setSet gone fun same => by cases zero <;> exact same ▸ gone
    · rw [calls] at member
      rw [wakes]
      rcases mem_or_eq_of_mem_set member with old | rfl
      · exact pending other old queued
      · obtain ⟨-, _, _, ⟨⟩⟩ := queued

theorem removed_of_rmid {s₁ : SemSys} (taken : s.step (.rmid semid) = some s₁) :
    s₁.Removed semid := by
  obtain ⟨-, ⟨⟩⟩ := ite_none_right_eq_some.mp taken
  exact ⟨by simp [setSet], fun _ _ _ => .head _⟩

/-- **Removal of a set.** No attempt of a `semop` ever answers EIDRM. Once a set is removed, and as
long as no new set takes its slot, a call that is in its queue has the wake-up of the removal to
come, a call that was woken can come back, and a call that makes an attempt on the identifier,
parked at the removal or not, returns with EINVAL and changes nothing. -/
theorem semop_removed (s s₁ s' : SemSys) (semid : Nat) :
    (∀ set ops env, (Ipc.semTry set ops env).2 ≠ .returned (.error .EIDRM)) ∧
    (s.step (.rmid semid) = some s₁ → RunsTo step (Spares semid) s₁ s' →
      ∀ (i : Nat) (c : SemCall), s'.calls[i]? = some c → c.semid = semid → match c.phase with
        | .parked _ _ .linked => semid ∈ s'.wakes
        | .parked _ _ .woken => ∃ s'', s'.step (.back i false) = some s''
        | .parked _ _ .lost => True
        | .trying token => ∀ env prepared, env.token = token →
            (Ipc.semTry (s'.sets semid) c.ops env).2 = .returned (.error .EINVAL) ∧
              ∃ s'', s'.step (.attempt i env prepared) = some s'' ∧ s''.sets = s'.sets ∧
                s''.calls = s'.calls.eraseIdx i) := by
  constructor
  · intro set ops env
    unfold Ipc.semTry
    repeat' split
    all_goals nofun
  intro removal run i c call same
  obtain ⟨gone, pending⟩ := run.invariant Removed.step (removed_of_rmid removal)
  have refused := semTry_unused gone
  split
  · next linked => exact pending c (mem_of_getElem? call) ⟨same, _, _, linked⟩
  · next woken => simp [SemSys.step, call, woken]
  · trivial
  · next trying =>
    rintro env prepared rfl
    refine ⟨congrArg Prod.snd (refused c.ops env), ?_⟩
    simp [SemSys.step, call, trying, same, refused, setSet, settle]

/-- A call waits when its set is removed, is woken, and returns. -/
theorem semop_removed_waiter : ∃ s s₁ s' : SemSys, RunsTo step always init s ∧
    s.calls.map SemCall.phase = [.parked 0 false .linked] ∧ s.step (.rmid 0) = some s₁ ∧
    RunsTo step (Spares 0) s₁ s' ∧
      ∃ s'', s'.step (.attempt 0 {} true) = some s'' ∧
      s''.sets = s'.sets ∧ s''.calls = s'.calls.eraseIdx 0 := by
  obtain ⟨s, run, parked, later⟩ : ∃ s, RunsTo step always init s ∧
      s.calls.map SemCall.phase = [.parked 0 false .linked] ∧ ((s.step (.rmid 0)).any fun s₁ =>
        decide ((exec step s₁ [.wake 0, .back 0 false]).any (fun s' => decide
          (s'.calls.map (fun c => (c.semid, c.phase)) = [(0, .trying false)])) = true)) = true :=
    runsTo_of_exec [.get 7 1 true false, .call 0 [⟨0, -1, false⟩],
      .attempt 0 {} true, .attempt 0 { token := true } true]
        (by decide +kernel)
  obtain ⟨s₁, removal, later⟩ := eq_some_of_any later
  obtain ⟨s', ran, later⟩ := eq_some_of_any later
  obtain ⟨c, calls, ends⟩ := map_eq_singleton_iff.mp later
  obtain ⟨same, trying⟩ := Prod.mk.inj ends
  have call : s'.calls[0]? = some c := by rw [calls]; rfl
  have spares : RunsTo step (Spares 0) s₁ s' := by
    obtain ⟨s₂, woken, ran⟩ := bind_eq_some_iff.mp ran
    obtain ⟨s₃, back, ⟨⟩⟩ := bind_eq_some_iff.mp ran
    exact .tail (a := .back 0 false) (.tail (a := .wake 0) .refl trivial woken) trivial back
  have result := (semop_removed s s₁ s' 0).2 removal spares 0 c call same
  rw [trying] at result
  exact ⟨s, s₁, s', run, parked, removal, spares, (result _ true rfl).2⟩

/-- A call waits for zero while its set is removed and a new set gets the identifier; then the
call changes the value of the new set. -/
theorem removed_semop_applies : ∃ s s' : SemSys, RunsTo step always init s ∧
    s.calls.map SemCall.phase = [.parked 0 true .linked] ∧
    RunsTo step always s s' ∧ s'.calls.map SemCall.phase = [] ∧ (s'.sets 0).val 0 = 3 := by
  obtain ⟨s, run, parked, later⟩ : ∃ s, RunsTo step always init s ∧
      s.calls.map SemCall.phase = [.parked 0 true .linked] ∧
      (exec step s [.rmid 0, .wake 0, .get 8 1 true false, .back 0 false,
        .attempt 0 {} true]).any
        (fun s' => decide (s'.calls.map SemCall.phase = [] ∧ (s'.sets 0).val 0 = 3)) = true :=
    runsTo_of_exec [.get 7 1 true false, .call 0 [⟨0, 1, false⟩],
      .attempt 0 {} true, .wake 0, .call 0 [⟨0, 0, false⟩, ⟨0, 3, false⟩],
      .attempt 0 {} true, .attempt 0 { token := true } true]
      (by decide +kernel)
  obtain ⟨s', ran, applied⟩ := runsTo_of_exec _ later
  exact ⟨s, s', run, parked, ran, applied⟩

end SemSys

end A20OS.Ipc
