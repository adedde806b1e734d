import A20OS.Errno
import A20OS.Lib.Machine

/-!
System V message queues (`kernel/ipc/sysv_msg.c`).

One lock guards all queues. Sends and receives are sequences of sections under it; in between
they prepare a wait, sleep, or clean up a wait. The steps of `MsgSys` are these sections, with
the wakes they send, the failure of a prepare and the signals that end a sleep. A message is its
type and size. A wait queue is the list of the tasks linked to it, the last linked first; a task
woken by a signal stays linked until it runs again, so a wake can be spent on it.
-/

namespace A20OS.Ipc

open Lib

/-! ### Queues -/

structure Msg where
  type : Int
  size : Nat
deriving DecidableEq

def msgMax : Nat := 8192
def msgQbytes : Nat := 16384
def sysvMsgMax : Nat := 32

/-- `sysv_msg_queue_t` without permissions, times and process numbers. -/
structure MsgQueue where
  used : Bool
  key : Int
  cbytes : Nat
  qnum : Nat
  qbytes : Nat
  msgs : List Msg
  recvWq : List Nat
  sendWq : List Nat
deriving DecidableEq

/-- A queue after `memset`. -/
def MsgQueue.zero : MsgQueue := ⟨false, 0, 0, 0, 0, [], [], []⟩

/-- The queue `sysv_msg_get` makes. -/
def MsgQueue.fresh (key : Int) : MsgQueue := { zero with used := true, key, qbytes := msgQbytes }

/-- `q->cbytes + msgsz <= q->qbytes` -/
def MsgQueue.Room (q : MsgQueue) (size : Nat) : Prop := q.cbytes + size ≤ q.qbytes

instance (q : MsgQueue) (size : Nat) : Decidable (q.Room size) := by
  unfold MsgQueue.Room
  infer_instance

/-- Whether a receive with type argument `typ` takes the message; the negation is on `int64_t`. -/
def msgMatches (typ : Int) (m : Msg) : Bool :=
  if typ = 0 then true
  else if 0 < typ then m.type == typ
  else decide (m.type ≤ (-typ).bmod (2 ^ 64))

/-- The message a receive finds: the first that matches. -/
def msgSelect (msgs : List Msg) (typ : Int) : Option Msg := msgs.find? (msgMatches typ)

def MsgQueue.append (q : MsgQueue) (m : Msg) : MsgQueue :=
  { q with msgs := q.msgs ++ [m], cbytes := q.cbytes + m.size, qnum := q.qnum + 1 }

/-- Unlink the message a receive found. -/
def MsgQueue.take (q : MsgQueue) (typ : Int) (m : Msg) : MsgQueue :=
  { q with
    msgs := q.msgs.eraseP (msgMatches typ), cbytes := q.cbytes - m.size, qnum := q.qnum - 1 }

/-- `sysv_msg_get`: the slot, and whether a queue is to be made in it. -/
def sysvMsgGet (queues : Nat → MsgQueue) (key : Int) (creat excl : Bool) :
    Except Errno (Nat × Bool) :=
  match (List.range sysvMsgMax).find? fun i =>
    (queues i).used && decide ((queues i).key = key) && decide (key ≠ 0) with
  | some i => if creat ∧ excl then .error .EEXIST else .ok (i, false)
  | none =>
      if !creat then .error .ENOENT
      else
        match (List.range sysvMsgMax).find? fun i => !(queues i).used with
        | some i => .ok (i, true)
        | none => .error .ENOSPC

/-! ### Calls -/

inductive MsgOp where
  | send (m : Msg)
  | recv (msgsz : Nat) (typ : Int) (noerror : Bool)
deriving DecidableEq

def MsgOp.isSend : MsgOp → Bool
  | .send _ => true
  | .recv _ _ _ => false

/-- What ended a sleep: a wake or a failed link, or a signal. -/
inductive MsgWake where
  | event
  | interrupt
deriving DecidableEq, Repr

/-- Where a call is while it does not hold the lock. -/
inductive MsgPhase where
  /-- It has found nothing to do and prepares a wait. -/
  | preparing
  /-- A sender that has found room and dropped the lock to give its wait back. -/
  | granted
  /-- It is linked and asleep, or woken and has not run yet. -/
  | parked (woken : Option MsgWake)
deriving DecidableEq

/-- A call that waits; calls with `IPC_NOWAIT` are over after their first section. -/
structure MsgCall where
  msqid : Nat
  op : MsgOp
  phase : MsgPhase
deriving DecidableEq

/-- A wake as the task sees it; one that is awake already does not notice. -/
def MsgCall.wake (c : MsgCall) : MsgCall :=
  if c.phase = .parked none then { c with phase := .parked (some .event) } else c

/-- Wake the given tasks. -/
def wakeAll (calls : Nat → Option MsgCall) (ts : List Nat) : Nat → Option MsgCall :=
  fun t => if t ∈ ts then (calls t).map MsgCall.wake else calls t

/-- An append, with the state of the queue it went to. -/
structure Append where
  msqid : Nat
  live : Bool
  cbytes : Nat
  qbytes : Nat
deriving DecidableEq

structure MsgSys where
  /-- The number of tasks. -/
  tasks : Nat
  queues : Nat → MsgQueue
  calls : Nat → Option MsgCall
  /-- Every append so far. -/
  log : List Append

inductive MsgLabel where
  | get (key : Int) (creat excl : Bool)
  | rmid (msqid : Nat)
  /-- The first section of a send or of a receive. -/
  | send (t msqid : Nat) (m : Msg) (nowait : Bool)
  | recv (t msqid msgsz : Nat) (typ : Int) (noerror nowait : Bool)
  /-- No wait can be prepared; the call returns `EAGAIN`. -/
  | noWait (t : Nat)
  /-- The section in which a call with a prepared wait links itself; `linked` tells whether that
  succeeds. -/
  | link (t : Nat) (linked : Bool)
  /-- A signal reaches a sleeping call. -/
  | signal (t : Nat)
  /-- A woken call unlinks itself and goes on. -/
  | resume (t : Nat)
  /-- A sender that was granted room retakes the lock and appends. -/
  | append (t : Nat)

namespace MsgSys

def init (tasks : Nat) : MsgSys := ⟨tasks, fun _ => .zero, fun _ => none, []⟩

/-- What a section writes: one queue, the wakes it sends, and the appends it makes. -/
def commit (s : MsgSys) (id : Nat) (q : MsgQueue) (woken : List Nat) (appends : List Append) :
    MsgSys :=
  { s with
    queues := Function.update s.queues id q
    calls := wakeAll s.calls woken
    log := s.log ++ appends }

def setCall (s : MsgSys) (t : Nat) (c : Option MsgCall) : MsgSys :=
  { s with calls := Function.update s.calls t c }

/-- The end of a send: append the message and wake one receiver. -/
def publish (s : MsgSys) (id : Nat) (m : Msg) : MsgSys :=
  let q := s.queues id
  s.commit id { q.append m with recvWq := q.recvWq.tail } q.recvWq.head?.toList
    [⟨id, q.used, q.cbytes + m.size, q.qbytes⟩]

/-- One iteration of the receive loop of task `t`, from the scan to where it drops the lock. -/
def scan (s : MsgSys) (t id msgsz : Nat) (typ : Int) (noerror nowait : Bool) : MsgSys :=
  let q := s.queues id
  match msgSelect q.msgs typ with
  | some m =>
      if msgsz < m.size ∧ !noerror then s.setCall t none
      else (s.commit id { q.take typ m with sendWq := [] } q.sendWq []).setCall t none
  | none =>
      if nowait then s.setCall t none
      else s.setCall t (some ⟨id, .recv msgsz typ noerror, .preparing⟩)

/-- The call after its link section; a link that failed is as good as a wake. -/
def asleep (c : MsgCall) (linked : Bool) : MsgCall :=
  { c with phase := .parked (if linked then none else some .event) }

/-- The link section of a sender or a receiver. -/
def linkSection (s : MsgSys) (t : Nat) (c : MsgCall) (linked : Bool) : MsgSys :=
  let q := s.queues c.msqid
  match c.op with
  | .send m =>
      if q.used ∧ q.Room m.size then s.setCall t (some { c with phase := .granted })
      else
        (s.commit c.msqid { q with sendWq := if linked then t :: q.sendWq else q.sendWq } []
          []).setCall t (some (asleep c linked))
  | .recv _ _ _ =>
      if !q.used then s.setCall t none
      else
        (s.commit c.msqid { q with recvWq := if linked then t :: q.recvWq else q.recvWq } []
          []).setCall t (some (asleep c linked))

/-- Take a task off the wait queues of a queue. -/
def unlink (s : MsgSys) (id t : Nat) : MsgSys :=
  let q := s.queues id
  s.commit id { q with recvWq := q.recvWq.filter (· ≠ t), sendWq := q.sendWq.filter (· ≠ t) } [] []

/-- What a woken call does next. -/
def resumeSection (s : MsgSys) (t : Nat) (c : MsgCall) : MsgWake → MsgSys
  | .interrupt => (s.unlink c.msqid t).setCall t none
  | .event =>
      match c.op with
      | .send _ =>
          if (s.queues c.msqid).used then
            (s.unlink c.msqid t).setCall t (some { c with phase := .preparing })
          else (s.unlink c.msqid t).setCall t none
      | .recv msgsz typ noerror => (s.unlink c.msqid t).scan t c.msqid msgsz typ noerror false

def step (s : MsgSys) : MsgLabel → Option MsgSys
  | .get key creat excl =>
      match sysvMsgGet s.queues key creat excl with
      | .ok (id, true) => some (s.commit id (.fresh key) [] [])
      | _ => some s
  | .rmid id =>
      let q := s.queues id
      if q.used then some (s.commit id .zero (q.recvWq ++ q.sendWq) []) else none
  | .send t id m nowait =>
      if t < s.tasks ∧ s.calls t = none ∧ 0 < m.type ∧ m.size ≤ msgMax then
        if (s.queues id).used = false then some s
        else if (s.queues id).Room m.size then some (s.publish id m)
        else if nowait then some s
        else some (s.setCall t (some ⟨id, .send m, .preparing⟩))
      else none
  | .recv t id msgsz typ noerror nowait =>
      if t < s.tasks ∧ s.calls t = none then
        if (s.queues id).used = false then some s
        else some (s.scan t id msgsz typ noerror nowait)
      else none
  | .noWait t =>
      match s.calls t with
      | some c => if c.phase = .preparing then some (s.setCall t none) else none
      | none => none
  | .link t linked =>
      match s.calls t with
      | some c => if c.phase = .preparing then some (s.linkSection t c linked) else none
      | none => none
  | .signal t =>
      match s.calls t with
      | some c =>
          if c.phase = .parked none then
            some (s.setCall t (some { c with phase := .parked (some .interrupt) }))
          else none
      | none => none
  | .resume t =>
      match s.calls t with
      | some c =>
          match c.phase with
          | .parked (some reason) => some (s.resumeSection t c reason)
          | _ => none
      | none => none
  | .append t =>
      match s.calls t with
      | some c =>
          match c.op, c.phase with
          | .send m, .granted => some ((s.publish c.msqid m).setCall t none)
          | _, _ => none
      | none => none

end MsgSys

end A20OS.Ipc
