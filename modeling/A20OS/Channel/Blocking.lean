import A20OS.Channel.Fifo
import A20OS.Lib.Ledger
import A20OS.Proc.Park

/-!
Blocking sends, receives and calls (`a20_channel.c`, `core/sync.c`, `proc/park.c`).

An endpoint has one wait queue, newest entry first, of receivers and of senders waiting for
room. A step is one critical section. A waker takes an entry off the queue and wakes its task
later, so a collected wake is in flight (`Sys.wakes`) until it is flushed; that the waker may
go on before only adds runs. `sys_a20_channel_call` sends without waking the receiver and owes
it that wake (`Stage.owed`).
-/

namespace A20OS.Channel.Blocking

open Lib Proc

/-! ### Tasks -/

/-- An endpoint: the number of its channel and its side. -/
abbrev EpId := Nat × Bool

def peer (e : EpId) : EpId := (e.1, !e.2)

/-- `A20_CH_WAIT_RECV` and `A20_CH_WAIT_SEND`. -/
inductive Key where
  | recv | send
deriving DecidableEq, Repr

/-- `wait_queue_entry_t`. -/
structure Waiter where
  task : Nat
  seq : Nat
  key : Key
deriving DecidableEq

/-- A waiter collected off the wait queue of an endpoint, to be woken. -/
structure Wake where
  ep : EpId
  waiter : Waiter

structure SendOp where
  ep : EpId
  msg : Message
  flags : BitVec 32
  /-- The send stage of a call: it defers the wake. -/
  call : Bool

/-- A receive; its flags were checked when it began, and `immediate` is the only one
there is. A call receives by `a20_channel_recv_begin_donate`, whose variable `donate` is
kept here. `woken` records that this round was started by an event. -/
structure RecvOp where
  ep : EpId
  immediate : Bool
  call : Bool
  donate : Bool
  woken : Bool

def RecvOp.flags (op : RecvOp) : BitVec 32 := if op.immediate then nonblock else 0

/-- The wake deferred by the send stage is still to be delivered. -/
def RecvOp.owes (op : RecvOp) : Bool := op.call && op.donate

/-- Where a task is in its operation. -/
inductive Stage where
  | returned (r : Except Status (Option Message))
  | sendTry (op : SendOp)
  | sendPrepare (op : SendOp)
  | sendLink (op : SendOp)
  | sendCommit (op : SendOp)
  | sendAsleep (op : SendOp)
  | recvTry (op : RecvOp)
  | recvPrepare (op : RecvOp)
  | recvLink (op : RecvOp)
  /-- A call looks for a receiver to hand its CPU to. -/
  | recvPeek (op : RecvOp)
  /-- It found none and delivers the deferred wake. -/
  | recvWakePeer (op : RecvOp)
  | recvCommit (op : RecvOp)
  | donateCommit (op : RecvOp) (target : Nat)
  /-- Parked, about to switch to the receiver. -/
  | donateSwitch (op : RecvOp) (target : Nat)
  | recvAsleep (op : RecvOp)
  /-- A message is at the head and the endpoint lock is held. -/
  | recvBegun (op : RecvOp)

namespace Stage

/-- The wait queue the task has an entry in, unless a waker took it off. -/
def linked : Stage → Option (EpId × Key)
  | .sendCommit op | .sendAsleep op => some (peer op.ep, .send)
  | .recvPeek op | .recvWakePeer op | .recvCommit op | .recvAsleep op => some (op.ep, .recv)
  | .donateCommit op _ | .donateSwitch op _ => some (op.ep, .recv)
  | .returned _ | .sendTry _ | .sendPrepare _ | .sendLink _ => none
  | .recvTry _ | .recvPrepare _ | .recvLink _ | .recvBegun _ => none

/-- The endpoint the task owes a deferred wake. -/
def owed : Stage → Option EpId
  | .recvTry op | .recvPrepare op | .recvLink op | .recvPeek op =>
      if op.owes then some (peer op.ep) else none
  | .recvWakePeer op | .donateCommit op _ | .donateSwitch op _ => some (peer op.ep)
  | .returned _ | .sendTry _ | .sendPrepare _ | .sendLink _ | .sendCommit _ => none
  | .sendAsleep _ | .recvCommit _ | .recvAsleep _ | .recvBegun _ => none

end Stage

structure Task where
  park : Park
  stage : Stage

/-- The endpoint whose messages the task was woken for and has not looked at since. -/
def Task.earned (th : Task) : Option EpId :=
  match th.stage with
  | .recvTry op | .recvBegun op => if op.woken then some op.ep else none
  | stage =>
      match stage.linked with
      | some (e, .recv) =>
          if th.park.state = .woken ∧ th.park.wakeReason = .event then some e else none
      | _ => none

/-! ### The shared state -/

structure Sys where
  chans : Nat → Pair
  waiters : EpId → List Waiter
  wakes : List Wake
  tasks : List Task

/-- What a step does not decide itself: the address of a new message, whether a wait can
be prepared and what is pending then, whether the target of a donation is off the CPU on
this one, and how the second half of a receive goes. -/
structure Env where
  node : Nat := 0
  token : Bool := true
  pending : Option WakeReason := none
  eligible : Bool := true
  abort : Option Status := none
  dataLen : Nat := maxData
  handleCount : Nat := Handle.maxChannelHandles

namespace Sys

def chan (s : Sys) (e : EpId) : Pair := s.chans e.1

def setChan (s : Sys) (e : EpId) (c : Pair) : Sys :=
  { s with chans := Function.update s.chans e.1 c }

def setTask (s : Sys) (i : Nat) (th : Task) : Sys := { s with tasks := s.tasks.set i th }

def setWaiters (s : Sys) (e : EpId) (ws : List Waiter) : Sys :=
  { s with waiters := Function.update s.waiters e ws }

/-- The messages queued at the endpoint. -/
def queue (s : Sys) (e : EpId) : List Message := (s.chan e).queued e.2

/-- `wait_queue_collect_one`: the newest entry with the key. -/
def collectOne (s : Sys) (e : EpId) (key : Key) : Sys :=
  match (s.waiters e).find? fun w => w.key = key with
  | none => s
  | some w => { s.setWaiters e ((s.waiters e).erase w) with wakes := s.wakes ++ [⟨e, w⟩] }

/-- `wait_queue_collect_all` for every key. -/
def collectAll (s : Sys) (e : EpId) : Sys :=
  { s.setWaiters e [] with wakes := s.wakes ++ (s.waiters e).map fun w => ⟨e, w⟩ }

/-- Put task `i`, which is `th` now, into another stage. -/
def goto (s : Sys) (i : Nat) (th : Task) (stage : Stage) : Sys := s.setTask i { th with stage }

/-- Push the entry of task `i` and enter `stage`. -/
def link (s : Sys) (i : Nat) (th : Task) (e : EpId) (key : Key) (stage : Stage) : Sys :=
  (s.setWaiters e (⟨i, th.park.waitSeq, key⟩ :: s.waiters e)).setTask i { th with stage }

/-- Back from a wait: `wait_queue_unlink` and `proc_park_finish`. -/
def unlink (s : Sys) (i : Nat) (th : Task) (e : EpId) (stage : Stage) : Sys :=
  (s.setWaiters e ((s.waiters e).filter fun w => w.task ≠ i)).setTask i ⟨th.park.finish, stage⟩

section Next

variable (s : Sys) (i : Nat) (th : Task) (env : Env)

/-! ### Sending -/

/-- One attempt of `ch_try_enqueue`; a call does not wake the receiver. -/
def sendTry (op : SendOp) : Option Sys :=
  match (s.chan op.ep).tryEnqueue op.ep.2 env.node op.msg op.flags with
  | some (c, .ok) =>
      if op.call then
        some ((s.setChan op.ep c).goto i th
          (.recvTry ⟨op.ep, op.flags &&& nonblock ≠ 0, true, true, false⟩))
      else
        some (((s.setChan op.ep c).collectOne (peer op.ep) .recv).goto i th (.returned (.ok none)))
  | some (_, .failed st) => some (s.goto i th (.returned (.error st)))
  | some (_, .sleeps) => some (s.goto i th (.sendPrepare op))
  | _ => none

/-- `proc_park_prepare`; a task that cannot wait gives up. -/
def prepareWait (stage : Stage) : Sys :=
  match if env.token then th.park.prepare .interruptible env.pending else none with
  | some park => s.setTask i ⟨park, stage⟩
  | none => s.goto i th (.returned (.error .wouldBlock))

/-- What the wait was for came up before the task was linked. -/
def skipWait (stage : Stage) : Sys := s.setTask i ⟨th.park.cancel.finish, stage⟩

def sendLink (op : SendOp) : Option Sys :=
  if (s.chan op.ep).held !op.ep.2 then none
  else if ¬((s.chan op.ep).ep !op.ep.2).peerClosed ∧ ((s.chan op.ep).ep !op.ep.2).full then
    some (s.link i th (peer op.ep) .send (.sendCommit op))
  else some (s.skipWait i th (.sendTry op))

/-- `proc_park_commit`. -/
def commitWait (stage : Stage) : Sys := s.setTask i ⟨th.park.commit, stage⟩

/-- A task that was woken goes on, unless a signal ended its wait. -/
def resume (e : EpId) (stage : Stage) : Option Sys :=
  if th.park.state = .woken then
    some (s.unlink i th e
      (if th.park.wakeReason.isTaskInterrupt then .returned (.error .interrupted) else stage))
  else none

/-! ### Receiving -/

/-- One round of the loop of `a20_channel_recv_begin` or of its donating variant. -/
def recvTry (op : RecvOp) : Option Sys :=
  match (s.chan op.ep).act (.recvBegin op.ep.2 op.flags) with
  | some (c, .begun _ _) => some ((s.setChan op.ep c).goto i th (.recvBegun op))
  | some (c, .failed .typeMismatch) =>
      some (((s.setChan op.ep c).collectOne op.ep .send).goto i th
        (.returned (.error .typeMismatch)))
  | some (_, .failed st) => some (s.goto i th (.returned (.error st)))
  | some (_, .sleeps) => some (s.goto i th (.recvPrepare { op with woken := false }))
  | _ => none

def recvLink (op : RecvOp) : Option Sys :=
  if (s.chan op.ep).held op.ep.2 then none
  else if ((s.chan op.ep).ep op.ep.2).msgCount = 0 ∧ ¬((s.chan op.ep).ep op.ep.2).peerClosed then
    some (s.link i th op.ep .recv (if op.call then .recvPeek op else .recvCommit op))
  else some (s.skipWait i th (.recvTry op))

/-- The peer is to be told of messages: it is not marked closed. -/
def peerOpen (e : EpId) : Bool := !((s.chan e).ep !e.2).peerClosed

/-- The receiver of the newest entry on the peer's wait queue. -/
def peekReceiver (op : RecvOp) : Option Nat :=
  if op.donate ∧ s.peerOpen op.ep then
    ((s.waiters (peer op.ep)).find? fun w => w.key = .recv).map Waiter.task
  else none

def recvPeek (op : RecvOp) : Sys :=
  match s.peekReceiver op with
  | some target => s.goto i th (.donateCommit { op with donate := false } target)
  | none => s.goto i th (.recvWakePeer { op with donate := false })

def recvWakePeer (op : RecvOp) : Sys :=
  (if s.peerOpen op.ep then s.collectOne (peer op.ep) .recv else s).goto i th (.recvCommit op)

/-- The test of `proc_park_commit_donate` on the target. -/
def canDonate (target : Nat) : Bool :=
  target ≠ i ∧ (s.tasks[target]?).any (fun t => t.park.state = .parked) ∧ env.eligible

def donateCommit (op : RecvOp) (target : Nat) : Sys :=
  if th.park.state = .preparing ∧ s.canDonate i env target then
    s.commitWait i th (.donateSwitch op target)
  else s.commitWait i th (.recvAsleep op)

/-- Test again under the target's lock, wake it and switch to it. -/
def donateSwitch (op : RecvOp) (target : Nat) : Sys :=
  let asleep := s.goto i th (.recvAsleep op)
  match s.tasks[target]? with
  | some t =>
      if s.canDonate i env target then asleep.setTask target { t with park := t.park.donated }
      else asleep
  | none => asleep

/-- The second half of a receive, with the endpoint lock held. -/
def recvBegun (op : RecvOp) : Option Sys :=
  match env.abort with
  | some st =>
      ((s.chan op.ep).act (.recvAbort op.ep.2)).map fun (c, _) =>
        (s.setChan op.ep c).goto i th (.returned (.error st))
  | none =>
      match (s.chan op.ep).act (.recvFinish op.ep.2 env.dataLen env.handleCount) with
      | some (c, .got m) =>
          some (((s.setChan op.ep c).collectOne op.ep .send).goto i th (.returned (.ok (some m))))
      | some (c, .failed st) => some ((s.setChan op.ep c).goto i th (.returned (.error st)))
      | _ => none

/-- One critical section of task `i`. -/
def next : Option Sys :=
  match th.stage with
  | .returned _ => none
  | .sendTry op => s.sendTry i th env op
  | .sendPrepare op => some (s.prepareWait i th env (.sendLink op))
  | .sendLink op => s.sendLink i th op
  | .sendCommit op => some (s.commitWait i th (.sendAsleep op))
  | .sendAsleep op => s.resume i th (peer op.ep) (.sendTry op)
  | .recvTry op => s.recvTry i th op
  | .recvPrepare op => some (s.prepareWait i th env (.recvLink op))
  | .recvLink op => s.recvLink i th op
  | .recvPeek op => some (s.recvPeek i th op)
  | .recvWakePeer op => some (s.recvWakePeer i th op)
  | .recvCommit op => some (s.commitWait i th (.recvAsleep op))
  | .donateCommit op target => some (s.donateCommit i th env op target)
  | .donateSwitch op target => some (s.donateSwitch i th env op target)
  | .recvAsleep op =>
      s.resume i th op.ep (.recvTry { op with woken := th.park.wakeReason = .event })
  | .recvBegun op => s.recvBegun i th env op

end Next

/-! ### The system -/

end Sys

inductive Op where
  | send (e : EpId) (m : Message) (flags : BitVec 32)
  | recv (e : EpId) (flags : BitVec 32)
  | call (e : EpId) (m : Message) (flags : BitVec 32)

/-- The first stage of an operation. -/
def Op.entry (s : Sys) : Op → Stage
  | .send e m flags => sendEntry s ⟨e, m, flags, false⟩
  | .recv e flags =>
      if flags &&& ~~~nonblock ≠ 0 then .returned (.error .invalidArgument)
      else .recvTry ⟨e, flags &&& nonblock ≠ 0, false, false, false⟩
  | .call e m flags => sendEntry s ⟨e, m, flags, true⟩
where
  /-- The checks of a send that do not look at the queue. -/
  sendEntry (s : Sys) (op : SendOp) : Stage :=
    match sendDenied ((s.chan op.ep).ep op.ep.2).chanType op.msg op.flags with
    | some st => .returned (.error st)
    | none => .sendTry op

inductive Label where
  | start (i : Nat) (op : Op)
  | next (i : Nat) (env : Env)
  /-- `proc_try_wake` for the `j`-th wake in flight. -/
  | flush (j : Nat)
  /-- A signal for task `i`. -/
  | interrupt (i : Nat) (reason : WakeReason)
  /-- `a20_channel_ep_peer_shutdown`. -/
  | shutdown (e : EpId)

namespace Sys

def start (s : Sys) (i : Nat) (op : Op) : Option Sys :=
  s.tasks[i]?.bind fun th =>
    match th.stage with
    | .returned _ => some (s.goto i th (op.entry s))
    | _ => none

def flush (s : Sys) (j : Nat) : Option Sys :=
  s.wakes[j]?.bind fun wake =>
    s.tasks[wake.waiter.task]?.map fun th =>
      { s.setTask wake.waiter.task
        { th with park := (th.park.tryWake wake.waiter.seq .event).1 } with
        wakes := s.wakes.eraseIdx j }

def interrupt (s : Sys) (i : Nat) (reason : WakeReason) : Option Sys :=
  if reason.isTaskInterrupt then
    s.tasks[i]?.map fun th =>
      s.setTask i { th with park := (th.park.tryWake th.park.waitSeq reason).1 }
  else none

def shutdown (s : Sys) (e : EpId) : Option Sys :=
  ((s.chan e).act (.peerShutdown e.2)).map fun (c, _) => (s.setChan e c).collectAll (peer e)

def step (s : Sys) : Label → Option Sys
  | .start i op => s.start i op
  | .next i env => s.tasks[i]?.bind fun th => s.next i th env
  | .flush j => s.flush j
  | .interrupt i reason => s.interrupt i reason
  | .shutdown e => s.shutdown e

/-- Fresh channels and tasks outside of any operation. -/
def init (msgCap : Nat → Nat) (type : Nat → Option ChannelType) (tasks : Nat) : Sys where
  chans n := .create (msgCap n) (type n)
  waiters _ := []
  wakes := []
  tasks := List.replicate tasks ⟨{}, .returned (.ok none)⟩

end Sys

/-- The task sleeps and no wake reached it. -/
def Task.asleep (th : Task) : Bool :=
  match th.stage with
  | .sendAsleep _ | .recvAsleep _ => th.park.state = .parked
  | _ => false

def Task.idle (th : Task) : Bool :=
  match th.stage with
  | .returned _ => true
  | _ => false

/-- The endpoint the task receives on, if it sleeps there. -/
def Task.asleepOn (th : Task) : Option EpId :=
  match th.stage with
  | .recvAsleep op => if th.park.state = .parked then some op.ep else none
  | _ => none

namespace Sys

/-- Every operation has returned or sleeps, and no wake is in flight. -/
def Quiet (s : Sys) : Prop := s.wakes = [] ∧ ∀ th ∈ s.tasks, th.idle = true ∨ th.asleep = true

/-- A task sleeps in a receive on an endpoint that has a message. -/
def LostWakeup (s : Sys) : Prop := ∃ th ∈ s.tasks, ∃ e, th.asleepOn = some e ∧ s.queue e ≠ []

instance (s : Sys) : Decidable s.Quiet := by unfold Quiet; infer_instance

instance (s : Sys) : Decidable s.LostWakeup :=
  decidable_of_iff (∃ th ∈ s.tasks, th.asleepOn.any (fun e => !(s.queue e).isEmpty) = true) (by
    simp only [LostWakeup, Option.any_eq_true, Bool.not_eq_true', List.isEmpty_eq_false_iff])

end Sys

end A20OS.Channel.Blocking
