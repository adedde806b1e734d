import A20OS.Core.WaitQueue
import A20OS.Lib.Ledger
import A20OS.Lib.Machine

/-!
The sleeping read-write mutex (`kernel/core/sync.c`, `rw_mutex_*`).

The steps are the sections under the mutex's lock, and between them the preparation of a wait,
the collection of entries and the delivery of one wake. Waits are uninterruptible and have no
deadline. An unlock decides under the lock whom to wake and wakes after it dropped the lock
(`collecting`, `flushing`). Readers do not enter past a waiting writer.
-/

namespace A20OS.Core

open Lib

inductive RwKind where
  | read
  | write
deriving DecidableEq, Repr

abbrev RwEntry := WaitEntry Unit

/-- Where a task is. -/
inductive RwPhase where
  | outside
  /-- Before the check at the head of the lock's loop. -/
  | trying (k : RwKind)
  /-- The check failed; a wait is to be prepared. -/
  | preparing (k : RwKind)
  /-- The wait is prepared; the check is to be made again before linking. -/
  | prepared (k : RwKind) (seq : Nat)
  | parked (k : RwKind) (seq : Nat) (woken : Bool)
  | holding (k : RwKind)
  /-- An unlock that is about to collect waiters of kind `k`: one writer, or all readers. -/
  | collecting (k : RwKind)
  /-- An unlock that has yet to wake the collected waiters, and to collect again or not. -/
  | flushing (k : RwKind) (es : List RwEntry) (again : Bool)
deriving DecidableEq

structure RwTask where
  phase : RwPhase
  waitSeq : Nat
deriving DecidableEq

/-- `rw_mutex_t` without the owner, which nothing reads, and the tasks that use it. -/
structure RwSys where
  readers : Nat
  waitingWriters : Nat
  writer : Bool
  readerWaiters : List RwEntry
  writerWaiters : List RwEntry
  tasks : List RwTask
deriving DecidableEq

/-- `proc_try_wake` on the task of an entry. -/
def RwTask.wake (x : RwTask) (e : RwEntry) : RwTask :=
  match x.phase with
  | .parked k seq false => if seq = e.seq then { x with phase := .parked k seq true } else x
  | _ => x

inductive RwLabel where
  | readLock (t : Nat)
  | writeLock (t : Nat)
  | attempt (t : Nat)
  /-- `proc_park_prepare`, and whether it succeeds; otherwise the task yields and tries again. -/
  | prepare (t : Nat) (ok : Bool)
  | link (t : Nat) (linked : Bool)
  | resume (t : Nat)
  | unlock (t : Nat)
  | collect (t : Nat)
  | deliver (t : Nat)
  | finish (t : Nat)
deriving DecidableEq

namespace RwSys

def init (n : Nat) : RwSys := ⟨0, 0, false, [], [], List.replicate n ⟨.outside, 0⟩⟩

def setTask (s : RwSys) (t : Nat) (x : RwTask) : RwSys := { s with tasks := s.tasks.set t x }

/-- The mutex can be taken now. -/
def free (s : RwSys) : RwKind → Bool
  | .read => !s.writer && s.waitingWriters == 0
  | .write => !s.writer && s.readers == 0

/-- Take the mutex. -/
def take (s : RwSys) : RwKind → RwSys
  | .read => { s with readers := s.readers + 1 }
  | .write => { s with waitingWriters := s.waitingWriters - 1, writer := true }

def waiters (s : RwSys) : RwKind → List RwEntry
  | .read => s.readerWaiters
  | .write => s.writerWaiters

def setWaiters (s : RwSys) : RwKind → List RwEntry → RwSys
  | .read, q => { s with readerWaiters := q }
  | .write, q => { s with writerWaiters := q }

/-- How many waiters of a kind one collection takes. -/
def limit : RwKind → Nat
  | .read => procWakeQCapacity
  | .write => 1

/-- The section of `rw_mutex_read_unlock` or `rw_mutex_write_unlock`, and whom it wakes. -/
def release (s : RwSys) : RwKind → RwSys × Option RwKind
  | .read =>
      let readers := s.readers - 1
      ({ s with readers },
        if readers = 0 ∧ 0 < s.waitingWriters then some .write else none)
  | .write =>
      ({ s with writer := false }, if 0 < s.waitingWriters then some .write else some .read)

def step (s : RwSys) (l : RwLabel) : Option RwSys :=
  match l with
  | .readLock t =>
      match s.tasks[t]? with
      | some ⟨.outside, n⟩ => some (s.setTask t ⟨.trying .read, n⟩)
      | _ => none
  | .writeLock t =>
      match s.tasks[t]? with
      | some ⟨.outside, n⟩ =>
          some ({ s with waitingWriters := s.waitingWriters + 1 }.setTask t ⟨.trying .write, n⟩)
      | _ => none
  | .attempt t =>
      match s.tasks[t]? with
      | some ⟨.trying k, n⟩ =>
          if s.free k then some ((s.take k).setTask t ⟨.holding k, n⟩)
          else some (s.setTask t ⟨.preparing k, n⟩)
      | _ => none
  | .prepare t ok =>
      match s.tasks[t]? with
      | some ⟨.preparing k, n⟩ =>
          if ok then some (s.setTask t ⟨.prepared k (n + 1), n + 1⟩)
          else some (s.setTask t ⟨.trying k, n⟩)
      | _ => none
  | .link t linked =>
      match s.tasks[t]? with
      | some ⟨.prepared k seq, n⟩ =>
          if s.free k then some ((s.take k).setTask t ⟨.holding k, n⟩)
          else if linked then
            some ((s.setWaiters k (⟨t, seq, ()⟩ :: s.waiters k)).setTask t ⟨.parked k seq false, n⟩)
          else some (s.setTask t ⟨.trying k, n⟩)
      | _ => none
  | .resume t =>
      match s.tasks[t]? with
      | some ⟨.parked k _ true, n⟩ =>
          some ((s.setWaiters k (unlinkTask (s.waiters k) t)).setTask t ⟨.trying k, n⟩)
      | _ => none
  | .unlock t =>
      match s.tasks[t]? with
      | some ⟨.holding k, n⟩ =>
          some ((s.release k).1.setTask t
            ⟨match (s.release k).2 with | some j => .collecting j | none => .outside, n⟩)
      | _ => none
  | .collect t =>
      match s.tasks[t]? with
      | some ⟨.collecting k, n⟩ =>
          let (es, rest) := collectMatching (fun _ => true) (limit k) (s.waiters k)
          some ((s.setWaiters k rest).setTask t
            ⟨.flushing k es (k == .read && !rest.isEmpty), n⟩)
      | _ => none
  | .deliver t =>
      match s.tasks[t]? with
      | some ⟨.flushing k (e :: es) again, n⟩ =>
          let s := s.setTask t ⟨.flushing k es again, n⟩
          match s.tasks[e.task]? with
          | some x => some (s.setTask e.task (x.wake e))
          | none => some s
      | _ => none
  | .finish t =>
      match s.tasks[t]? with
      | some ⟨.flushing k [] again, n⟩ =>
          some (s.setTask t ⟨if again then .collecting k else .outside, n⟩)
      | _ => none

end RwSys

end A20OS.Core
