import A20OS.Channel.Fifo
import A20OS.Handle.Derive
import A20OS.Handle.Lifetime

/-!
Handles in transit: the channel syscalls (`sys_native_ipc.c`) over the handle tables, the
channel and the reference counts of the objects.

A syscall is a thread that goes through `Phase`s, each one critical section, with the
references it owns in between (`Phase.held`). A send looks every handle up, which takes a
reference, and takes a second one for the message. A receive reserves slots, dequeues the
message and commits its references one by one. Every error exit gives back what it owns.

`tables` has one handle table per process. An endpoint whose count falls to zero is torn down:
its queue moves to `limbo`, where dropped messages wait to be released. A sleeping sender holds
its reference to the peer; that of an attempt is taken and dropped in one step.
-/

namespace A20OS.Channel

open Lib Handle

/-! ### Arguments and phases -/

/-- The fields of `a20_msg_send_args_t`; each handle comes with its transfer rights,
if the caller gave any. -/
structure SendArgs where
  channel : Nat
  data : List Byte
  handles : List (Nat × Option Rights)
  flags : BitVec 32

/-- The receive buffers; a null buffer has length 0. -/
structure RecvArgs where
  dataBufLen : Nat
  handleBufCount : Nat
  flags : BitVec 32

inductive Op where
  | send (a : SendArgs)
  | recv (channel : Nat) (a : RecvArgs)
  | call (a : SendArgs) (replyBufLen replyHandleBufCount : Nat)
  | close (h : Nat)

/-- How an attempt to sleep ends. -/
inductive Sleep where
  /-- `proc_park_prepare` failed. -/
  | refused
  /-- What the sleeper waits for came up before it slept, or it was woken. -/
  | retry
  | parked
  | interrupted
deriving DecidableEq

/-- What a step does not decide itself: the tick, whether allocations and user copies
succeed, the address of a new message, and how a sleep ends. -/
structure Env where
  now : Nat := 0
  mem : Nat → Bool := fun _ => true
  alloc : Bool := true
  node : Nat := 0
  sleep : Sleep := .retry
  copyIn : Bool := true
  copyOut : Bool := true

/-- Where a thread is in its syscall on endpoint `e`. `reply` is the receive stage of a
call that is still to come. -/
inductive Phase where
  | returned (r : Except Status Nat)
  /-- The lookup loop: the handles still to look up and the descriptions so far. -/
  | gather (e : Bool) (a : SendArgs) (reply : Option RecvArgs)
      (todo : List (Nat × Option Rights)) (infos : List HandleInfo)
  /-- In the enqueue loop of `a20_channel_send_dwc`, with an allocated message. -/
  | sending (e : Bool) (m : Message) (flags : BitVec 32) (reply : Option RecvArgs)
  /-- Asleep on the peer's wait queue. -/
  | blocked (e : Bool) (m : Message) (flags : BitVec 32) (reply : Option RecvArgs)
  /-- `out_handles`: the references of the lookups are to be dropped. -/
  | sent (e : Bool) (infos : List HandleInfo) (r : Except Status (Option RecvArgs))
  | recvEnter (e : Bool) (a : RecvArgs)
  /-- In the loop of `a20_channel_recv_begin`. -/
  | receiving (e : Bool) (a : RecvArgs)
  /-- A message that the endpoint does not accept is being freed. -/
  | discarding (e : Bool) (infos : List HandleInfo)
  /-- A message of these sizes is at the head and the endpoint lock is held. -/
  | begun (e : Bool) (a : RecvArgs) (dataLen handleCount : Nat)
  | reserved (e : Bool) (dataLen : Nat) (slots : List Nat)
  /-- The commit loop: slots and handles still to install, and the handles installed. -/
  | installing (e : Bool) (todo : List (Nat × HandleInfo)) (installed : List Nat) (dataLen : Nat)
  /-- Rolling back: installed handles to remove, then reserved slots to give back. -/
  | undoing (e : Bool) (installed slots : List Nat) (status : Status)
  /-- `out_ep`. -/
  | leaving (e : Bool) (r : Except Status Nat)

/-- The channel's endpoints as objects, and the owners of the extension programs. -/
structure Config where
  addr : Bool → Nat
  owner : Nat → Nat
  nonzero : ∀ e, addr e ≠ 0
  distinct : addr false ≠ addr true

namespace Config

def epRef (c : Config) (e : Bool) : ObjRef := ⟨c.addr e, .channelEndpoint⟩

/-- The endpoint an object is, if it is one of this channel. -/
def endOf (c : Config) (object : Nat) : Option Bool :=
  if object = c.addr false then some false
  else if object = c.addr true then some true
  else none

end Config

/-- The references a thread owns. A message under way carries its own, beside those of
the lookups; `a20_channel_send_dwc` and `a20_channel_recv_begin` take a second one to
the endpoint, and a sleeping sender one to the peer. -/
def Phase.held (c : Config) : Phase → List ObjRef
  | .returned _ => []
  | .gather e _ _ _ infos => [c.epRef e] ++ refsOf infos
  | .sending e m _ _ => [c.epRef e] ++ [c.epRef e] ++ refsOf m.handles ++ refsOf m.handles
  | .blocked e m _ _ =>
      [c.epRef !e] ++ [c.epRef e] ++ [c.epRef e] ++ refsOf m.handles ++ refsOf m.handles
  | .sent e infos _ => [c.epRef e] ++ refsOf infos
  | .recvEnter e _ => [c.epRef e]
  | .receiving e _ => [c.epRef e] ++ [c.epRef e]
  | .discarding e infos => [c.epRef e] ++ [c.epRef e] ++ refsOf infos
  | .begun e _ _ _ => [c.epRef e] ++ [c.epRef e]
  | .reserved e _ _ => [c.epRef e] ++ [c.epRef e]
  | .installing e todo _ _ => [c.epRef e] ++ refsOf (todo.map Prod.snd)
  | .undoing e _ _ _ => [c.epRef e]
  | .leaving e _ => [c.epRef e]

/-- The thread is not in a syscall. -/
def Phase.idle : Phase → Bool
  | .returned _ => true
  | _ => false

/-- What the threads share apart from the handle tables. -/
structure Kernel where
  refs : Refs
  chan : Pair

namespace Kernel

def ref (g : Kernel) (ks : List ObjRef) : Kernel := { g with refs := refAll g.refs ks }

/-- References dropped by a thread of process `pid`. -/
def release (g : Kernel) (c : Config) (pid : Nat) (ks : List ObjRef) : Kernel :=
  { g with refs := releaseAll c.owner pid g.refs ks }

/-- The references owned by the messages in the queues. -/
def queuedRefs (g : Kernel) : List ObjRef :=
  refsOf ((g.chan.queued false ++ g.chan.queued true).flatMap Message.handles)

end Kernel

/-- The state one step of a thread works on, and the phase it leads to. -/
abbrev Outcome := Kernel × Table × Phase

section Steps

variable (c : Config) (pid : Nat) (g : Kernel) (t : Table) (env : Env)

/-! ### Entering a syscall -/

/-- Look the channel handle up and compare the labels. -/
def enter (channel : Nat) (required : Rights) (labelDenied : Nat → Nat → Bool)
    (next : Bool → Phase) : Option Outcome :=
  match t.handleLookup env.now channel .channelEndpoint required with
  | (t, .error st) => some (g, t, .returned (.error st))
  | (t, .ok ep) =>
      (c.endOf ep.object).map fun e =>
        (g.ref [c.epRef e], t,
          if labelDenied t.securityLabel ep.securityLabel then .leaving e (.error .access)
          else next e)

/-- The checks of a send's arguments before the lookups. -/
def sendEntry (a : SendArgs) (reply : Option RecvArgs) (e : Bool) : Phase :=
  if maxData < a.data.length then .leaving e (.error .invalidArgument)
  else if a.data ≠ [] ∧ ¬env.alloc then .leaving e (.error .noMemory)
  else if a.data ≠ [] ∧ ¬env.copyIn then .leaving e (.error .fault)
  else if maxChannelHandles < a.handles.length then .leaving e (.error .invalidArgument)
  else if a.handles ≠ [] ∧ ¬env.copyIn then .leaving e (.error .fault)
  else .gather e a reply a.handles []

/-- `a20_handle_remove` with the release of the object's reference. -/
def removeHandle (h : Nat) : Kernel × Table × Except Status Unit :=
  match t.handleRemove h with
  | (t, .ok o) => (g.release c pid [o], t, .ok ())
  | (t, .error st) => (g, t, .error st)

def start : Op → Option Outcome
  | .send a =>
      enter c g t env a.channel Rights.write (fun own label => label < own) (sendEntry env a none)
  | .recv channel a =>
      enter c g t env channel Rights.read (fun own label => own < label) fun e => .recvEnter e a
  | .call a replyBufLen replyHandleBufCount =>
      if a.flags &&& ~~~nonblock ≠ 0 then some (g, t, .returned (.error .invalidArgument))
      else
        enter c g t env a.channel (Rights.read ||| Rights.write) (fun own label => own ≠ label)
          (sendEntry env a (some ⟨replyBufLen, replyHandleBufCount, a.flags⟩))
  | .close h =>
      let removed := removeHandle c pid g t h
      some (removed.1, removed.2.1, .returned (removed.2.2.map fun _ => 0))

/-! ### Sending -/

/-- The next handle of the lookup loop. -/
def gatherOne (e : Bool) (a : SendArgs) (reply : Option RecvArgs) (h : Nat)
    (userRights : Option Rights) (rest : List (Nat × Option Rights)) (infos : List HandleInfo) :
    Outcome :=
  match t.handleLookup env.now h .invalid Rights.transfer with
  | (t, .error st) => (g, t, .sent e infos (.error st))
  | (t, .ok he) =>
      let info := handleInfo he userRights
      (g.ref [info.ref], t,
        if info.transferRights = 0 then .sent e (infos ++ [info]) (.error .access)
        else .gather e a reply rest (infos ++ [info]))

/-- The entry of `a20_channel_send_dwc`: the checks, and the message with a reference
of its own to every handle. -/
def makeMessage (e : Bool) (a : SendArgs) (reply : Option RecvArgs) (infos : List HandleInfo) :
    Outcome :=
  let m : Message := ⟨a.data, infos⟩
  match sendDenied (g.chan.ep e).chanType m a.flags with
  | some st => (g, t, .sent e infos (.error st))
  | none =>
      if env.alloc then
        (g.ref ([c.epRef e] ++ refsOf infos), t, .sending e m a.flags reply)
      else
        ((g.ref (refsOf infos)).release c pid (refsOf infos), t, .sent e infos (.error .noMemory))

/-- A send that fails frees its message and drops its endpoint reference. -/
def sendFailed (e : Bool) (m : Message) (st : Status) : Outcome :=
  (g.release c pid ([c.epRef e] ++ refsOf m.handles), t, .sent e m.handles (.error st))

/-- One round of the enqueue loop. A peer without references cannot be reached. -/
def trySend (e : Bool) (m : Message) (flags : BitVec 32) (reply : Option RecvArgs) :
    Option Outcome :=
  if g.refs (c.epRef !e) ≤ 0 then some (sendFailed c pid g t e m .canceled)
  else
    match g.chan.tryEnqueue e env.node m flags with
    | some (chan, .ok) =>
        some ({ g with chan }.release c pid [c.epRef e], t, .sent e m.handles (.ok reply))
    | some (_, .failed st) => some (sendFailed c pid g t e m st)
    | some (_, .sleeps) =>
        match env.sleep with
        | .refused => some (sendFailed c pid g t e m .wouldBlock)
        | .parked => some (g.ref [c.epRef !e], t, .blocked e m flags reply)
        | .retry | .interrupted => some (g, t, .sending e m flags reply)
    | _ => none

/-- A sleeping sender wakes up. -/
def sendWoken (e : Bool) (m : Message) (flags : BitVec 32) (reply : Option RecvArgs) : Outcome :=
  match env.sleep with
  | .interrupted => sendFailed c pid (g.release c pid [c.epRef !e]) t e m .interrupted
  | .refused | .retry | .parked => (g.release c pid [c.epRef !e], t, .sending e m flags reply)

/-- `out_handles` and what follows it. -/
def sendDone (e : Bool) (infos : List HandleInfo) (r : Except Status (Option RecvArgs)) : Outcome :=
  (g.release c pid (refsOf infos), t,
    match r with
    | .error st => .leaving e (.error st)
    | .ok none => .leaving e (.ok 0)
    | .ok (some reply) => .recvEnter e reply)

/-! ### Receiving -/

def recvStart (e : Bool) (a : RecvArgs) : Outcome :=
  if a.flags &&& ~~~nonblock ≠ 0 then (g, t, .leaving e (.error .invalidArgument))
  else (g.ref [c.epRef e], t, .receiving e a)

/-- Leave with the reference of `a20_channel_recv_begin` dropped. -/
def recvFailed (e : Bool) (st : Status) : Outcome :=
  (g.release c pid [c.epRef e], t, .leaving e (.error st))

/-- One round of the loop of `a20_channel_recv_begin`. A sleeping receiver owns nothing
more than an awake one. -/
def tryReceive (e : Bool) (a : RecvArgs) : Option Outcome :=
  match g.chan.act (.recvBegin e a.flags) with
  | some (chan, .begun dataLen handleCount) =>
      some ({ g with chan }, t, .begun e a dataLen handleCount)
  | some (chan, .failed .typeMismatch) =>
      ((g.chan.ep e).headNode g.chan.heap).map fun (_, node) =>
        ({ g with chan }, t, .discarding e node.value.handles)
  | some (_, .failed st) => some (recvFailed c pid g t e st)
  | some (_, .sleeps) =>
      match env.sleep with
      | .refused => some (recvFailed c pid g t e .wouldBlock)
      | .interrupted => some (recvFailed c pid g t e .interrupted)
      | .retry | .parked => some (g, t, .receiving e a)
  | _ => none

/-- `a20_channel_recv_abort`. -/
def recvAborted (e : Bool) (st : Status) : Option Outcome :=
  (g.chan.act (.recvAbort e)).map fun (chan, _) => recvFailed c pid { g with chan } t e st

/-- With the lock held: check the buffers and reserve a slot for every handle. -/
def reserveSlots (e : Bool) (a : RecvArgs) (dataLen handleCount : Nat) : Option Outcome :=
  if a.dataBufLen < dataLen ∨ a.handleBufCount < handleCount then
    recvAborted c pid g t e .noSpace
  else
    match t.handleReserveMany env.mem handleCount with
    | (t, .error st) => recvAborted c pid g t e st
    | (t, .ok slots) => some (g, t, .reserved e dataLen slots)

/-- With the slots reserved: allocate the data buffer and dequeue the message. -/
def finishReceive (e : Bool) (dataLen : Nat) (slots : List Nat) : Option Outcome :=
  if 0 < dataLen ∧ ¬env.alloc then
    recvAborted c pid g (t.handleAbortReserved slots) e .noMemory
  else
    match g.chan.act (.recvFinish e dataLen slots.length) with
    | some (chan, .got m) =>
        some ({ g with chan }.release c pid [c.epRef e], t,
          .installing e (slots.zip m.handles) [] m.data.length)
    | some (chan, .failed st) =>
        some (recvFailed c pid { g with chan } (t.handleAbortReserved slots) e st)
    | _ => none

/-- The next handle of the commit loop. -/
def installOne (e : Bool) (h : Nat) (info : HandleInfo) (rest : List (Nat × HandleInfo))
    (installed : List Nat) (dataLen : Nat) : Outcome :=
  match t.handleCommitReservedTemporal h info.object info.type info.transferRights
      info.toLimits with
  | (t, .ok _) => (g, t, .installing e rest (installed ++ [h]) dataLen)
  | (t, .error st) =>
      (g.release c pid ([info.ref] ++ refsOf (rest.map Prod.snd)), t,
        .undoing e installed (h :: rest.map Prod.fst) st)

/-- One critical section of the thread. -/
def Phase.next : Phase → Option Outcome
  | .returned _ => none
  | .gather e a reply [] infos => some (makeMessage c pid g t env e a reply infos)
  | .gather e a reply ((h, userRights) :: rest) infos =>
      some (gatherOne g t env e a reply h userRights rest infos)
  | .sending e m flags reply => trySend c pid g t env e m flags reply
  | .blocked e m flags reply => some (sendWoken c pid g t env e m flags reply)
  | .sent e infos r => some (sendDone c pid g t e infos r)
  | .recvEnter e a => some (recvStart c g t e a)
  | .receiving e a => tryReceive c pid g t env e a
  | .discarding e infos =>
      some (g.release c pid ([c.epRef e] ++ refsOf infos), t, .leaving e (.error .typeMismatch))
  | .begun e a dataLen handleCount => reserveSlots c pid g t env e a dataLen handleCount
  | .reserved e dataLen slots => finishReceive c pid g t env e dataLen slots
  | .installing e [] installed dataLen =>
      some (g, t, if env.copyOut then .leaving e (.ok dataLen) else .undoing e installed [] .fault)
  | .installing e ((h, info) :: rest) installed dataLen =>
      some (installOne c pid g t e h info rest installed dataLen)
  | .undoing e [] slots st => some (g, t.handleAbortReserved slots, .leaving e (.error st))
  | .undoing e (h :: installed) slots st =>
      let removed := removeHandle c pid g t h
      some (removed.1, removed.2.1, .undoing e installed slots st)
  | .leaving e r => some (g.release c pid [c.epRef e], t, .returned r)

end Steps

/-! ### The system -/

structure Thread where
  pid : Nat
  phase : Phase

structure Sys where
  kernel : Kernel
  tables : List Table
  limbo : List ObjRef
  threads : List Thread

/-- Steps of the system: a thread starts a syscall or goes on with it; an endpoint
without references is torn down; a reference in limbo is released by some process. -/
inductive Label where
  | start (i : Nat) (op : Op) (env : Env)
  | next (i : Nat) (env : Env)
  | teardown (e : Bool)
  | drain (pid : Nat)

namespace Sys

/-- Let thread `i` work on the kernel and on the table of its process. -/
def run (s : Sys) (i : Nat) (f : Nat → Kernel → Table → Phase → Option Outcome) : Option Sys :=
  s.threads[i]?.bind fun th =>
    s.tables[th.pid]?.bind fun t =>
      (f th.pid s.kernel t th.phase).map fun (g, t, phase) =>
        { s with
          kernel := g
          tables := s.tables.set th.pid t
          threads := s.threads.set i { th with phase } }

def step (c : Config) (s : Sys) : Label → Option Sys
  | .start i op env =>
      s.run i fun pid g t phase =>
        match phase with
        | .returned _ => Channel.start c pid g t env op
        | _ => none
  | .next i env => s.run i fun pid g t phase => phase.next c pid g t env
  | .teardown e =>
      if s.kernel.refs (c.epRef e) = 0 then
        (s.kernel.chan.act (.release e)).map fun (chan, _) =>
          { s with
            kernel := { s.kernel with chan }
            limbo := s.limbo ++ refsOf ((s.kernel.chan.queued e).flatMap Message.handles) }
      else none
  | .drain pid =>
      match s.limbo with
      | [] => none
      | k :: limbo => some { s with kernel := s.kernel.release c pid [k], limbo }

/-- The installed handles that own a reference to the object. -/
def installed (s : Sys) (k : ObjRef) : Nat := total (Table.refs · k) s.tables

/-- The queued messages that own a reference to the object. -/
def queued (s : Sys) (k : ObjRef) : Nat := s.kernel.queuedRefs.count k

/-- The references to the object that operations in progress own. -/
def inFlight (c : Config) (s : Sys) (k : ObjRef) : Nat :=
  total (fun th => (th.phase.held c).count k) s.threads + s.limbo.count k

/-- All owners of references to the object. -/
def owners (c : Config) (s : Sys) (k : ObjRef) : Nat :=
  s.installed k + s.queued k + s.inFlight c k

/-- No operation is in progress. -/
def Quiet (s : Sys) : Prop := s.limbo = [] ∧ ∀ th ∈ s.threads, th.phase.idle = true

instance (s : Sys) : Decidable s.Quiet := by unfold Quiet; infer_instance

/-- A fresh channel among processes with the given tables. `elsewhere` counts the
references that neither handles nor channels own. -/
def init (tables : List Table) (elsewhere : ObjRef → Nat) (msgCap : Nat)
    (type : Option ChannelType) (pids : List Nat) : Sys where
  kernel := ⟨fun k => elsewhere k + total (Table.refs · k) tables, .create msgCap type⟩
  tables := tables
  limbo := []
  threads := pids.map fun pid => ⟨pid, .returned (.ok 0)⟩

end Sys

end A20OS.Channel
