import A20OS.Errno
import A20OS.Lib.Spans
import Mathlib.Algebra.Order.Ring.Int

/-!
Byte range locks (`kernel/fs/locks.c`).

All locks sit in one table of 256 entries: a byte range, a type, an owner, and a key computed
from the open file by `fs_lock_key`. `fs_locks_set` looks for a conflicting entry of another
owner, and sleeps and retries if it may. Once there is none, it cuts the range out of those the
owner holds under the key, adds the new one, sorts and joins them, and writes them back if they fit.

An attempt runs under the table's spinlock and is one function, `fsLocksTry`; what a sleeping
call carries between attempts is a `Waiter`. Offsets are integers: the sums of `fs_lock_range`
are those of the code whenever its range can be represented.
-/

namespace A20OS.Fs

open Lib

/-! ### Open files and their keys -/

structure VNode where
  /-- Which file the node stands for. -/
  id : Nat
  mnt : Nat
  ino : Nat
  size : Int
deriving DecidableEq

structure LockFile where
  /-- The address of the `vfile_t`. -/
  addr : Nat
  vnode : Option VNode
  offset : Int
deriving DecidableEq

/-- The file behind an open file: the node's, or its own when it has no node. -/
def LockFile.file (vf : LockFile) : Nat ⊕ Nat :=
  match vf.vnode with
  | some vnode => .inl vnode.id
  | none => .inr vf.addr

def fsLockKey (vf : LockFile) : Nat :=
  match vf.vnode with
  | some vnode =>
      if vnode.ino ≠ 0 then
        ((vnode.mnt >>> 3) ^^^ ((vnode.ino <<< 17) % 2 ^ 64)) ^^^ vnode.ino
      else vf.addr
  | none => vf.addr

def fsFileSize (vf : LockFile) : Int :=
  match vf.vnode with
  | some vnode => vnode.size
  | none => 0

/-! ### Requests -/

inductive FlockType where
  | rdlck
  | wrlck
  | unlck
deriving DecidableEq, Repr

inductive Whence where
  | seekSet
  | seekCur
  | seekEnd
deriving DecidableEq, Repr

/-- `fs_flock_t`; a type or whence that is not one of the defined ones is `none`. -/
structure Flock where
  lType : Option FlockType
  lWhence : Option Whence
  lStart : Int
  lLen : Int
deriving DecidableEq

def int64Max : Int := 0x7fffffffffffffff

/-- The offset a request counts from. -/
def lockBase (vf : LockFile) : Whence → Int
  | .seekSet => 0
  | .seekCur => vf.offset
  | .seekEnd => fsFileSize vf

def fsLockRange (vf : LockFile) (lk : Flock) : Except Errno (Int × Int) :=
  match lk.lWhence with
  | none => .error .EINVAL
  | some whence =>
      let s := lockBase vf whence + lk.lStart
      let range :=
        if lk.lLen = 0 then (s, int64Max)
        else if 0 < lk.lLen then (s, s + lk.lLen - 1)
        else (s + lk.lLen, s - 1)
      if range.1 < 0 then .error .EINVAL else .ok range

inductive OwnerKind where
  | pid
  | ofd
deriving DecidableEq, Repr

structure Owner where
  kind : OwnerKind
  id : Nat
deriving DecidableEq

/-! ### The table -/

structure FileLock where
  used : Bool
  key : Nat
  owner : Owner
  type : FlockType
  start : Int
  stop : Int
deriving DecidableEq

def fsFileLockMax : Nat := 256

/-- `g_file_locks` and the generation that tells sleepers of a change. -/
structure LockTable where
  locks : List FileLock
  generation : Nat
  size : locks.length = fsFileLockMax
deriving DecidableEq

def FileLock.empty : FileLock := ⟨false, 0, ⟨.pid, 0⟩, .rdlck, 0, 0⟩

def LockTable.init : LockTable :=
  ⟨List.replicate fsFileLockMax .empty, 0, List.length_replicate⟩

def fsLockOverlaps (a0 a1 b0 b1 : Int) : Bool := decide (a0 ≤ b1) && decide (b0 ≤ a1)

def fsLockConflicts (held : FileLock) (key : Nat) (owner : Owner) (type : FlockType)
    (start stop : Int) : Bool :=
  held.used && held.key == key && held.owner != owner &&
    fsLockOverlaps held.start held.stop start stop &&
    !(held.type == .rdlck && type == .rdlck)

/-- The entry is in use for the key and the owner. -/
def FileLock.isOwn (key : Nat) (owner : Owner) (l : FileLock) : Bool :=
  l.used && l.key == key && l.owner == owner

def FileLock.range (l : FileLock) : Span FlockType := ⟨l.start, l.stop, l.type⟩

/-- The ranges stored for the key and the owner, in table order. -/
def rangesOf (locks : List FileLock) (key : Nat) (owner : Owner) : List (Span FlockType) :=
  (locks.filter (FileLock.isOwn key owner)).map FileLock.range

/-! ### One attempt -/

/-- The owner's ranges under the key once the request is granted: the old ones without the
requested range, and the requested range unless it is unlocked. -/
def newRanges (locks : List FileLock) (key : Nat) (owner : Owner) (type : FlockType)
    (start stop : Int) : List (Span FlockType) :=
  (rangesOf locks key owner).flatMap (Span.cut start stop) ++
    (if type ≠ .unlck then [⟨start, stop, type⟩] else [])

/-- Mark the chosen entries unused. -/
def dropLocks (drop : FileLock → Bool) (locks : List FileLock) : List FileLock :=
  locks.map fun l => if drop l then { l with used := false } else l

/-- Write the ranges into the first unused entries. -/
def writeBack (key : Nat) (owner : Owner) : List FileLock → List (Span FlockType) → List FileLock
  | [], _ => []
  | locks, [] => locks
  | l :: locks, r :: ranges =>
      if l.used then l :: writeBack key owner locks (r :: ranges)
      else ⟨true, key, owner, r.tag, r.start, r.stop⟩ :: writeBack key owner locks ranges

theorem length_dropLocks (drop : FileLock → Bool) (locks : List FileLock) :
    (dropLocks drop locks).length = locks.length := by
  simp [dropLocks]

theorem length_writeBack (key : Nat) (owner : Owner) (locks : List FileLock)
    (ranges : List (Span FlockType)) :
    (writeBack key owner locks ranges).length = locks.length := by
  fun_induction writeBack key owner locks ranges <;> simp_all

/-- Steps 2 to 7 of `fs_locks_set`. -/
def fsLocksApply (table : LockTable) (key : Nat) (owner : Owner) (type : FlockType)
    (start stop : Int) : Except Errno LockTable :=
  let merged := coalesce (sortSpans (newRanges table.locks key owner type start stop))
  let own := table.locks.countP (FileLock.isOwn key owner)
  if fsFileLockMax < table.locks.countP (·.used) - own + merged.length then .error .ENOLCK
  else
    .ok {
      locks := writeBack key owner (dropLocks (FileLock.isOwn key owner) table.locks) merged
      generation := if own ≠ 0 ∨ type = .unlck then table.generation + 1 else table.generation
      size := by rw [length_writeBack, length_dropLocks, table.size] }

/-- What a call carries across its retries. -/
structure Progress where
  retries : Nat
  prevBlocker : Nat
deriving DecidableEq

inductive Outcome where
  | returned (r : Except Errno Unit)
  | blocked (progress : Progress)

/-- `FS_LOCK_MAX_RETRIES`. -/
def fsLockMaxRetries : Nat := 1024

/-- One attempt of `fs_locks_set`, from the label `retry` on. -/
def fsLocksTry (table : LockTable) (key : Nat) (owner : Owner) (type : FlockType)
    (start stop : Int) (wait : Bool) (progress : Progress) : LockTable × Outcome :=
  if fsLockMaxRetries ≤ progress.retries then (table, .returned (.error .EDEADLK))
  else
    let retries := progress.retries + 1
    let blocker :=
      if type ≠ .unlck then table.locks.find? (fsLockConflicts · key owner type start stop)
      else none
    match blocker with
    | some held =>
        if !wait then (table, .returned (.error .EAGAIN))
        else if held.owner.id = progress.prevBlocker ∧ held.owner.id ≠ 0 ∧ 4 < retries ∧
            table.locks.any (fun l => l.used && l.owner == owner && l.key != key) then
          (table, .returned (.error .EDEADLK))
        else (table, .blocked ⟨retries, held.owner.id⟩)
    | none =>
        match fsLocksApply table key owner type start stop with
        | .error e => (table, .returned (.error e))
        | .ok table' => (table', .returned (.ok ()))

/-- The call up to the end of its first attempt; `scratch` tells whether the scratch
array could be allocated. -/
def fsLocksSet (table : LockTable) (vf : LockFile) (lk : Flock) (owner : Owner) (wait : Bool)
    (scratch : Bool) : LockTable × Outcome :=
  match lk.lType with
  | none => (table, .returned (.error .EINVAL))
  | some type =>
      match fsLockRange vf lk with
      | .error e => (table, .returned (.error e))
      | .ok (start, stop) =>
          if scratch then fsLocksTry table (fsLockKey vf) owner type start stop wait ⟨0, 0⟩
          else (table, .returned (.error .ENOMEM))

/-- Drop the chosen entries of a table; the generation moves if there are any. -/
def LockTable.drop (table : LockTable) (chosen : FileLock → Bool) : LockTable where
  locks := dropLocks chosen table.locks
  generation := if table.locks.any chosen then table.generation + 1 else table.generation
  size := by rw [length_dropLocks, table.size]

def fsLocksReleaseProcess (table : LockTable) (pid : Nat) : LockTable :=
  table.drop fun l => l.used && l.owner == ⟨.pid, pid⟩

def fsLocksReleaseProcessFile (table : LockTable) (vf : LockFile) (pid : Nat) : LockTable :=
  table.drop fun l => l.isOwn (fsLockKey vf) ⟨.pid, pid⟩

/-- The locks of the open file description and those of the current process on the file.
The whole-file locks of `flock` are another table. -/
def fsLocksReleaseFile (table : LockTable) (vf : LockFile) (owner curPid : Nat) : LockTable :=
  table.drop fun l =>
    (l.used && l.owner == ⟨.ofd, owner⟩) || l.isOwn (fsLockKey vf) ⟨.pid, curPid⟩

/-! ### The system -/

/-- A call asleep in `fs_lock_wait`. -/
structure Waiter where
  key : Nat
  owner : Owner
  type : FlockType
  start : Int
  stop : Int
  progress : Progress
deriving DecidableEq

structure LockSys where
  table : LockTable
  waiters : List Waiter

inductive LockLabel where
  /-- A task calls `fs_locks_set`. -/
  | set (vf : LockFile) (lk : Flock) (owner : Owner) (wait : Bool) (scratch : Bool)
  /-- A sleeping call wakes up and tries again. -/
  | retry (i : Nat)
  /-- A sleeping call returns an error of `fs_lock_wait`. -/
  | giveUp (i : Nat)
  | releaseProcess (pid : Nat)
  | releaseProcessFile (vf : LockFile) (pid : Nat)
  | releaseFile (vf : LockFile) (owner curPid : Nat)

namespace LockSys

def init : LockSys := ⟨LockTable.init, []⟩

/-- The range the request asks for is not empty and can be represented. -/
def Representable (vf : LockFile) (lk : Flock) : Prop :=
  ∀ range, fsLockRange vf lk = .ok range → range.1 ≤ range.2 ∧ range.2 ≤ int64Max

instance (vf : LockFile) (lk : Flock) : Decidable (Representable vf lk) :=
  match h : fsLockRange vf lk with
  | .error e => .isTrue (by simp [Representable, h])
  | .ok range => decidable_of_iff (range.1 ≤ range.2 ∧ range.2 ≤ int64Max)
      (by simp [Representable, h])

/-- Put a call that is blocked back to sleep. -/
def settle (waiters : List Waiter) (waiter : Progress → Option Waiter) :
    LockTable × Outcome → LockSys
  | (table, .returned _) => ⟨table, waiters⟩
  | (table, .blocked progress) => ⟨table, waiters ++ (waiter progress).toList⟩

def step (s : LockSys) : LockLabel → Option LockSys
  | .set vf lk owner wait scratch =>
      if Representable vf lk then
        some (settle s.waiters
          (fun progress =>
            match lk.lType, fsLockRange vf lk with
            | some type, .ok (start, stop) =>
                some ⟨fsLockKey vf, owner, type, start, stop, progress⟩
            | _, _ => none)
          (fsLocksSet s.table vf lk owner wait scratch))
      else none
  | .retry i =>
      match s.waiters[i]? with
      | some w =>
          some (settle (s.waiters.eraseIdx i) (fun progress => some { w with progress })
            (fsLocksTry s.table w.key w.owner w.type w.start w.stop true w.progress))
      | none => none
  | .giveUp i =>
      match s.waiters[i]? with
      | some _ => some { s with waiters := s.waiters.eraseIdx i }
      | none => none
  | .releaseProcess pid => some { s with table := fsLocksReleaseProcess s.table pid }
  | .releaseProcessFile vf pid => some { s with table := fsLocksReleaseProcessFile s.table vf pid }
  | .releaseFile vf owner curPid =>
      some { s with table := fsLocksReleaseFile s.table vf owner curPid }

end LockSys

/-! ### Ranges in 64-bit arithmetic -/

/-- `fs_lock_range` with the base of its whence, in the 64-bit arithmetic of the code. -/
def fsLockRange64 (base lStart lLen : BitVec 64) : Except Errno (BitVec 64 × BitVec 64) :=
  let s := base + lStart
  let range :=
    if lLen = 0 then (s, 0x7fffffffffffffff)
    else if 0 < lLen.toInt then (s, s + lLen - 1)
    else (s + lLen, s - 1)
  if range.1.toInt < 0 then .error .EINVAL else .ok range

/-- The first and the last byte POSIX assigns to a request. -/
def posixRange (base lStart lLen : BitVec 64) : Int × Int :=
  let s := base.toInt + lStart.toInt
  if lLen = 0 then (s, int64Max)
  else if 0 < lLen.toInt then (s, s + lLen.toInt - 1)
  else (s + lLen.toInt, s - 1)

/-- **Lock ranges.** `fs_lock_range` refuses a request or gives exactly its bytes, unless the first
byte comes round to an offset from below, or is an offset and the last one comes round. -/
theorem fsLockRange64_posix (base lStart lLen : BitVec 64) :
    (match fsLockRange64 base lStart lLen with
      | .error _ => True
      | .ok (start, stop) => 0 ≤ start.toInt ∧ start.toInt ≤ stop.toInt ∧
          (start.toInt, stop.toInt) = posixRange base lStart lLen) ↔
      ((posixRange base lStart lLen).1 < -2 ^ 64 ∨ -2 ^ 63 ≤ (posixRange base lStart lLen).1) ∧
        (0 ≤ (posixRange base lStart lLen).1 → (posixRange base lStart lLen).1 ≤ int64Max →
          (posixRange base lStart lLen).2 ≤ int64Max) := by
  have start := BitVec.toInt_add base lStart
  unfold posixRange fsLockRange64 int64Max at *
  by_cases whole : lLen = 0
  · grind
  · have nonzero : lLen.toInt ≠ 0 := fun zero => whole (BitVec.toInt_inj.mp zero)
    by_cases after : 0 < lLen.toInt
    · have stop := @BitVec.toInt_sub 64 (base + lStart + lLen) 1
      grind
    · have stop := @BitVec.toInt_sub 64 (base + lStart) 1
      grind

/-- Two bytes from the largest offset on are accepted as a range that ends below its start. -/
theorem range_wraps : ∃ start stop, fsLockRange64 0 0x7fffffffffffffff 2 = .ok (start, stop) ∧
    stop.toInt < start.toInt := ⟨_, _, rfl, by decide⟩

end A20OS.Fs
