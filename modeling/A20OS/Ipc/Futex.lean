import A20OS.Core.WaitQueue
import A20OS.Errno
import A20OS.Lib.Ledger
import A20OS.Proc.WaitProtocol

/-!
Futexes (`kernel/ipc/futex.c`).

Any number of tasks wait on one word of memory and wake each other. The word stays mapped, so
its physical key names one bucket. Values are of any type: the code only compares them.

The steps are the sections under the bucket's lock and the park locks, with the timer scan and
the senders of signals as tasks of their own. A wake detaches a batch of entries and wakes their
tasks one by one afterwards; a waiter that was woken in another way unlinks its entry itself.
The state also keeps the entries that wakes detached, the counts they returned, and the ends of
the waits that were linked.
-/

namespace A20OS.Ipc

open A20OS.Core Lib Proc

universe u

variable {ω : Type u}

/-! ### Keys -/

/-- `futex_wait_key_t`. -/
structure FutexWaitKey where
  vkey : Nat
  pkey : Nat
  mm : Nat
  bitset : BitVec 32
deriving DecidableEq

/-- `futex_wake_arg_t`. -/
structure FutexWakeArg where
  mm : Nat
  vkey : Nat
  pkey : Nat
  bitset : BitVec 32
deriving DecidableEq

abbrev FutexEntry := WaitEntry FutexWaitKey

/-- `FUTEX_BITSET_MATCH_ANY` -/
def futexBitsetMatchAny : BitVec 32 := 0xffffffff

/-- `FUTEX_WAKE_BATCH` -/
def futexWakeBatch : Nat := 64

/-- `futex_wake_match`, for the entry of a task that is alive. -/
def futexWakeMatch (a : FutexWakeArg) (e : FutexEntry) : Bool :=
  if e.tag.bitset &&& a.bitset = 0 then false
  else if e.tag.mm = a.mm ∧ e.tag.vkey = a.vkey then true
  else decide (a.pkey ≠ 0 ∧ e.tag.pkey = a.pkey)

/-! ### Tasks -/

/-- The arguments of a `futex_wait_ticks`; `timed` when it has a deadline. -/
structure FutexWait (ω : Type u) where
  key : FutexWaitKey
  expected : ω
  timed : Bool
deriving DecidableEq

/-- Where a task is. -/
inductive FutexPhase (ω : Type u) where
  | user
  /-- The word had the expected value; the wait is to be prepared. -/
  | checked (w : FutexWait ω)
  /-- Prepared; the section that links is to come. -/
  | prepared (w : FutexWait ω)
  /-- Linked; the park is to be committed. -/
  | linked (w : FutexWait ω)
  /-- In the scheduler, until something wakes the task. -/
  | asleep (w : FutexWait ω)
  /-- The park is finished; the entry is still to be unlinked. -/
  | unlinking (reason : WakeReason)
  | returning (reason : WakeReason)
  /-- At the head of the loop of `futex_wake`. -/
  | waking (arg : FutexWakeArg) (nr woke : Nat)
  /-- A batch is detached and counted; `es` are still to be woken. -/
  | flushing (arg : FutexWakeArg) (nr woke : Nat) (again : Bool) (es : List FutexEntry)
deriving DecidableEq

structure FutexTask (ω : Type u) where
  phase : FutexPhase ω := .user
  park : Park := {}
  /-- What the task's next prepare finds: signals, an exit, the room for a timer. -/
  env : PrepareEnv := {}
  result : Except Errno Nat := .ok 0
deriving DecidableEq

/-- The end of a wait that was linked. -/
structure FutexDone where
  task : Nat
  seq : Nat
  result : Except Errno Nat
deriving DecidableEq

structure FutexSys (ω : Type u) where
  word : ω
  /-- The physical address of the word. -/
  pkey : Nat
  bucket : List FutexEntry
  tasks : List (FutexTask ω)
  collected : List FutexEntry
  counts : List Nat
  waits : List FutexDone
deriving DecidableEq

inductive FutexLabel (ω : Type u) where
  /-- A store to the word from user space. -/
  | store (v : ω)
  /-- Signals are sent, taken, blocked or let through, or an exit is asked for. -/
  | pend (t : Nat) (env : PrepareEnv)
  | wait (t mm vkey : Nat) (bitset : BitVec 32) (expected : ω) (timed : Bool)
  | prepare (t : Nat)
  /-- The section that links, and whether the word is mapped, memory is there and the entry takes
  its reference. -/
  | link (t : Nat) (mapped room linked : Bool)
  | commit (t : Nat)
  | timeout (t : Nat)
  | interrupt (t : Nat) (reason : WakeReason)
  | resume (t : Nat)
  | unlink (t : Nat)
  | finish (t : Nat)
  | wake (t mm vkey : Nat) (bitset : BitVec 32) (isPrivate : Bool) (nr : Int)
  | collect (t : Nat)
  | deliver (t : Nat)
  | next (t : Nat)
deriving DecidableEq

namespace FutexTask

/-- Back to user space. -/
def returns (x : FutexTask ω) (r : Except Errno Nat) : FutexTask ω :=
  { x with phase := .user, result := r }

/-- The prepared park is given up. -/
def abandon (x : FutexTask ω) (e : Errno) : FutexTask ω :=
  { x with park := x.park.cancel.finish }.returns (.error e)

/-- `proc_try_wake` on the task. -/
def tryWake (x : FutexTask ω) (seq : Nat) (reason : WakeReason) : FutexTask ω :=
  { x with park := (x.park.tryWake seq reason).1 }

/-- What `futex_wait_ticks` returns in the end. -/
def ended (x : FutexTask ω) (reason : WakeReason) : Except Errno Nat :=
  if reason.isTaskInterrupt ∨ x.env.hasUnblocked then .error .ERESTARTSYS
  else if reason = .timeout then .error .ETIMEDOUT
  else .ok 0

/-- The park has a timer that can go off. -/
def timed (x : FutexTask ω) : Bool :=
  match x.phase with
  | .prepared w | .linked w | .asleep w => w.timed
  | _ => false

end FutexTask

namespace FutexSys

def init (word : ω) (pkey n : Nat) : FutexSys ω :=
  ⟨word, pkey, [], List.replicate n {}, [], [], []⟩

def setTask (s : FutexSys ω) (t : Nat) (x : FutexTask ω) : FutexSys ω :=
  { s with tasks := s.tasks.set t x }

/-! ### Waiting -/

/-- `futex_wait_ticks` up to the first look at the word. -/
def futexWait [DecidableEq ω] (s : FutexSys ω) (t : Nat) (x : FutexTask ω) (w : FutexWait ω) :
    FutexSys ω :=
  s.setTask t <|
    if w.key.vkey = 0 then x.returns (.error .EFAULT)
    else if w.key.vkey % 4 ≠ 0 then x.returns (.error .EINVAL)
    else if w.key.bitset = 0 then x.returns (.error .EINVAL)
    else if s.word ≠ w.expected then x.returns (.error .EAGAIN)
    else { x with phase := .checked w }

/-- `proc_park_prepare`, with a deadline or without. -/
def prepareWait (s : FutexSys ω) (t : Nat) (x : FutexTask ω) (w : FutexWait ω) : FutexSys ω :=
  s.setTask t <|
    if w.timed ∧ (x.env.heapFull ∨ x.env.refFailed) then x.returns (.error .EAGAIN)
    else
      match x.park.prepare .interruptible (x.env.pendingReason .interruptible) with
      | some park => { x with phase := .prepared w, park }
      | none => x.returns (.error .EAGAIN)

/-- The section of `futex_wait_ticks` under the lock of the bucket. -/
def linkWait [DecidableEq ω] (s : FutexSys ω) (t : Nat) (x : FutexTask ω) (w : FutexWait ω)
    (mapped room linked : Bool) : FutexSys ω :=
  if !mapped then s.setTask t (x.abandon .EFAULT)
  else if s.word ≠ w.expected then s.setTask t (x.abandon .EAGAIN)
  else if x.env.hasUnblocked then s.setTask t (x.abandon .ERESTARTSYS)
  else if !room then s.setTask t (x.abandon .ENOMEM)
  else if !linked then
    { s with bucket := unlinkTask s.bucket t }.setTask t (x.abandon .ESRCH)
  else
    { s with bucket := ⟨t, x.park.waitSeq, w.key⟩ :: unlinkTask s.bucket t }.setTask t
      { x with phase := .linked w }

/-- The end of `futex_wait_ticks`. -/
def finishWait (s : FutexSys ω) (t : Nat) (x : FutexTask ω) (reason : WakeReason) : FutexSys ω :=
  { s with waits := ⟨t, x.park.waitSeq, x.ended reason⟩ :: s.waits }.setTask t
    (x.returns (x.ended reason))

/-! ### Waking -/

/-- `futex_wake` up to its loop. -/
def futexWake (s : FutexSys ω) (t : Nat) (x : FutexTask ω) (arg : FutexWakeArg) (nr : Int) :
    FutexSys ω :=
  s.setTask t <|
    if arg.vkey = 0 then x.returns (.error .EFAULT)
    else if arg.bitset = 0 then x.returns (.error .EINVAL)
    else if nr < 0 then x.returns (.error .EINVAL)
    else { x with phase := .waking arg nr.toNat 0 }

/-- The end of `futex_wake`. -/
def finishWake (s : FutexSys ω) (t : Nat) (x : FutexTask ω) (woke : Nat) : FutexSys ω :=
  { s with counts := woke :: s.counts }.setTask t (x.returns (.ok woke))

/-- A batch is detached and counted as woken; a full batch is followed by another look. -/
def collectBatch (s : FutexSys ω) (t : Nat) (x : FutexTask ω) (arg : FutexWakeArg)
    (nr woke : Nat) : FutexSys ω :=
  if woke < nr then
    let want := min (nr - woke) futexWakeBatch
    let (es, rest) := collectMatching (futexWakeMatch arg) want s.bucket
    if es = [] then s.finishWake t x woke
    else
      { s with bucket := rest, collected := es ++ s.collected }.setTask t
        { x with phase := .flushing arg nr (woke + es.length) (decide (es.length = want)) es }
  else s.finishWake t x woke

/-- The wake of the first entry that is left. -/
def deliverWake (s : FutexSys ω) (e : FutexEntry) : FutexSys ω :=
  match s.tasks[e.task]? with
  | some y => s.setTask e.task (y.tryWake e.seq .event)
  | none => s

def step [DecidableEq ω] (s : FutexSys ω) : FutexLabel ω → Option (FutexSys ω)
  | .store v => some { s with word := v }
  | .pend t env => s.tasks[t]?.map fun x => s.setTask t { x with env }
  | .wait t mm vkey bitset expected timed =>
      s.tasks[t]?.bind fun x =>
        match x.phase with
        | .user => some (s.futexWait t x ⟨⟨vkey, s.pkey, mm, bitset⟩, expected, timed⟩)
        | _ => none
  | .prepare t =>
      s.tasks[t]?.bind fun x =>
        match x.phase with
        | .checked w => some (s.prepareWait t x w)
        | _ => none
  | .link t mapped room linked =>
      s.tasks[t]?.bind fun x =>
        match x.phase with
        | .prepared w => some (s.linkWait t x w mapped room linked)
        | _ => none
  | .commit t =>
      s.tasks[t]?.bind fun x =>
        match x.phase with
        | .linked w => some (s.setTask t { x with phase := .asleep w, park := x.park.commit })
        | _ => none
  | .timeout t =>
      s.tasks[t]?.bind fun x =>
        if x.timed then some (s.setTask t (x.tryWake x.park.waitSeq .timeout)) else none
  | .interrupt t reason =>
      s.tasks[t]?.bind fun x =>
        if reason.isTaskInterrupt then some (s.setTask t (x.tryWake x.park.waitSeq reason))
        else none
  | .resume t =>
      s.tasks[t]?.bind fun x =>
        match x.phase, x.park.state with
        | .asleep _, .woken =>
            some (s.setTask t { x with
              phase := .unlinking x.park.wakeReason, park := x.park.finish })
        | _, _ => none
  | .unlink t =>
      s.tasks[t]?.bind fun x =>
        match x.phase with
        | .unlinking reason =>
            some ({ s with bucket := unlinkTask s.bucket t }.setTask t
              { x with phase := .returning reason })
        | _ => none
  | .finish t =>
      s.tasks[t]?.bind fun x =>
        match x.phase with
        | .returning reason => some (s.finishWait t x reason)
        | _ => none
  | .wake t mm vkey bitset isPrivate nr =>
      s.tasks[t]?.bind fun x =>
        match x.phase with
        | .user =>
            some (s.futexWake t x ⟨mm, vkey, if isPrivate then 0 else s.pkey, bitset⟩ nr)
        | _ => none
  | .collect t =>
      s.tasks[t]?.bind fun x =>
        match x.phase with
        | .waking arg nr woke => some (s.collectBatch t x arg nr woke)
        | _ => none
  | .deliver t =>
      s.tasks[t]?.bind fun x =>
        match x.phase with
        | .flushing arg nr woke again (e :: es) =>
            some ((s.setTask t { x with phase := .flushing arg nr woke again es }).deliverWake e)
        | _ => none
  | .next t =>
      s.tasks[t]?.bind fun x =>
        match x.phase with
        | .flushing arg nr woke again [] =>
            if again then some (s.setTask t { x with phase := .waking arg nr woke })
            else some (s.finishWake t x woke)
        | _ => none

end FutexSys

end A20OS.Ipc
