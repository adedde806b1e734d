import A20OS.Ipc.FutexSteps

/-!
Priority-inheritance futexes (`futex_pi_acquire` and `futex_pi_release` in `kernel/ipc/futex.c`).

The word holds the owner's thread id and two bits: tasks wait, and the owner died. An acquire
claims a free word, or sets the first bit and waits on the word as it then is; a release stores
zero and, if the bit was set, wakes one waiter. The waits and wakes are those of `Ipc/Futex.lean`.
User space takes a zero word and frees its own with a compare-and-swap; the kernel's load and
compare-and-swap are two steps under the bucket's lock. Task `t` has thread id `t + 1`.
-/

namespace A20OS.Ipc

open A20OS.Core Lib Proc

/-! ### The word -/

structure PiWord where
  owner : Nat
  waiters : Bool
  died : Bool
deriving DecidableEq

namespace PiWord

def zero : PiWord := ⟨0, false, false⟩

/-- The word can be claimed: it is zero, or its owner has died. -/
def free (v : PiWord) : Bool := decide (v.owner = 0 ∧ (v = zero ∨ v.died = true))

/-- The word has an owner that will call the kernel to release it. -/
def covered (v : PiWord) : Bool := decide (v.owner ≠ 0 ∧ v.waiters = true)

end PiWord

/-! ### The calls -/

inductive PiPhase where
  | outside
  /-- At the head of the loop of `futex_pi_acquire`. -/
  | acquiring (tryOnly : Bool)
  /-- The word was `oldv`; the lock of the bucket is held. -/
  | loaded (tryOnly : Bool) (oldv : PiWord)
  | parking (waitVal : PiWord)
  /-- In `futex_wait_ticks`. -/
  | waiting
  | releasing
  | notifying
  /-- In `futex_wake`. -/
  | waking
deriving DecidableEq

/-- A task, with the address at which it sees the word. -/
structure PiTask where
  mm : Nat
  vkey : Nat
  phase : PiPhase := .outside
  result : Except Errno Unit := .ok ()
deriving DecidableEq

structure PiSys where
  futex : FutexSys PiWord
  tasks : List PiTask
  /-- The task between its load of the word and its compare-and-swap. -/
  holder : Option Nat
deriving DecidableEq

inductive PiLabel where
  /-- A compare-and-swap from zero to the own thread id, in user space. -/
  | userLock (t : Nat)
  /-- A compare-and-swap from the own thread id to zero, in user space. -/
  | userUnlock (t : Nat)
  | lock (t : Nat) (tryOnly : Bool)
  | load (t : Nat) (mapped : Bool)
  | swap (t : Nat)
  | park (t : Nat)
  | waited (t : Nat)
  | unlock (t : Nat)
  | release (t : Nat) (mapped : Bool)
  | notify (t : Nat)
  | woke (t : Nat)
  /-- A step of a wait or a wake, or a signal. -/
  | futex (l : FutexLabel PiWord)
deriving DecidableEq

/-- The step belongs to a call that is under way, or is a signal. -/
def FutexLabel.inner : FutexLabel PiWord → Bool
  | .store _ | .wait .. | .wake .. => false
  | _ => true

/-- The step takes the lock of the bucket. -/
def FutexLabel.locks : FutexLabel PiWord → Bool
  | .link .. | .unlink _ | .collect _ => true
  | _ => false

namespace PiSys

/-- The thread id of a task. -/
def tid (t : Nat) : Nat := t + 1

/-- A physical address is not zero. -/
def init (frame : Nat) (views : List (Nat × Nat)) : PiSys :=
  ⟨.init .zero (frame + 1) views.length, views.map fun v => { mm := v.1, vkey := v.2 }, none⟩

def setTask (s : PiSys) (t : Nat) (p : PiTask) : PiSys := { s with tasks := s.tasks.set t p }

def returns (s : PiSys) (t : Nat) (p : PiTask) (r : Except Errno Unit) : PiSys :=
  s.setTask t { p with phase := .outside, result := r }

def setWord (s : PiSys) (v : PiWord) : PiSys := { s with futex := { s.futex with word := v } }

/-- A compare-and-swap on the word. -/
def cas (s : PiSys) (old new : PiWord) : PiSys := if s.futex.word = old then s.setWord new else s

/-- `futex_pi_acquire` from the load of `oldv` on, up to the release of the lock. -/
def swapSection (s : PiSys) (t : Nat) (p : PiTask) (tryOnly : Bool) (oldv : PiWord) : PiSys :=
  if oldv.free then
    if s.futex.word = oldv then (s.setWord { oldv with owner := tid t }).returns t p (.ok ())
    else s.setTask t { p with phase := .acquiring tryOnly }
  else if oldv.owner = tid t then s.returns t p (.error .EDEADLK)
  else if tryOnly then s.returns t p (.error .EAGAIN)
  else if oldv.waiters then s.setTask t { p with phase := .parking oldv }
  else if s.futex.word = oldv then
    (s.setWord { oldv with waiters := true }).setTask t
      { p with phase := .parking { oldv with waiters := true } }
  else s.setTask t { p with phase := .parking { s.futex.word with waiters := true } }

/-- The section of `futex_pi_release`. -/
def releaseSection (s : PiSys) (t : Nat) (p : PiTask) : PiSys :=
  if s.futex.word.owner ≠ tid t then s.returns t p (.error .EPERM)
  else if s.futex.word.waiters then (s.setWord .zero).setTask t { p with phase := .notifying }
  else (s.setWord .zero).returns t p (.ok ())

/-- `futex_pi_acquire` after its wait. -/
def afterWait (s : PiSys) (t : Nat) (p : PiTask) : Except Errno Nat → PiSys
  | .error e =>
      if e = .ETIMEDOUT then s.setTask t { p with phase := .acquiring false }
      else s.returns t p (.error e)
  | .ok _ => s.setTask t { p with phase := .acquiring false }

/-- What the task's call into the futex layer has returned. -/
def returned (s : PiSys) (t : Nat) : Option (Except Errno Nat) :=
  s.futex.tasks[t]?.bind fun x => if x.phase = .user then some x.result else none

def step (s : PiSys) : PiLabel → Option PiSys
  | .userLock t =>
      s.tasks[t]?.bind fun p =>
        if p.phase = .outside then some (s.cas .zero ⟨tid t, false, false⟩) else none
  | .userUnlock t =>
      s.tasks[t]?.bind fun p =>
        if p.phase = .outside then some (s.cas ⟨tid t, false, false⟩ .zero) else none
  | .lock t tryOnly =>
      s.tasks[t]?.bind fun p =>
        if p.phase = .outside then some (s.setTask t { p with phase := .acquiring tryOnly })
        else none
  | .load t mapped =>
      s.tasks[t]?.bind fun p =>
        match p.phase with
        | .acquiring tryOnly =>
            if mapped = false ∨ p.vkey = 0 then some (s.returns t p (.error .EFAULT))
            else if s.holder = none then
              some ({ s with holder := some t }.setTask t
                { p with phase := .loaded tryOnly s.futex.word })
            else none
        | _ => none
  | .swap t =>
      s.tasks[t]?.bind fun p =>
        match p.phase with
        | .loaded tryOnly oldv => some ({ s with holder := none }.swapSection t p tryOnly oldv)
        | _ => none
  | .park t =>
      s.tasks[t]?.bind fun p =>
        match p.phase with
        | .parking waitVal =>
            (s.futex.step (.wait t p.mm p.vkey futexBitsetMatchAny waitVal false)).map fun f =>
              { s with futex := f }.setTask t { p with phase := .waiting }
        | _ => none
  | .waited t =>
      s.tasks[t]?.bind fun p =>
        if p.phase = .waiting then (s.returned t).map (s.afterWait t p) else none
  | .unlock t =>
      s.tasks[t]?.bind fun p =>
        if p.phase = .outside then some (s.setTask t { p with phase := .releasing }) else none
  | .release t mapped =>
      s.tasks[t]?.bind fun p =>
        if p.phase = .releasing then
          if mapped = false ∨ p.vkey = 0 then some (s.returns t p (.error .EFAULT))
          else if s.holder = none then some (s.releaseSection t p)
          else none
        else none
  | .notify t =>
      s.tasks[t]?.bind fun p =>
        if p.phase = .notifying then
          (s.futex.step (.wake t p.mm p.vkey futexBitsetMatchAny false 1)).map fun f =>
            { s with futex := f }.setTask t { p with phase := .waking }
        else none
  | .woke t =>
      s.tasks[t]?.bind fun p =>
        if p.phase = .waking then (s.returned t).map fun _ => s.returns t p (.ok ()) else none
  | .futex l =>
      if l.inner = true ∧ (l.locks = true → s.holder = none) then
        (s.futex.step l).map fun f => { s with futex := f }
      else none

end PiSys

end A20OS.Ipc
