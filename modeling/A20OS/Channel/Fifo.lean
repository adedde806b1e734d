import A20OS.Channel.Endpoint
import A20OS.Lib.Machine

/-!
Channels as first-in-first-out queues.

A channel is its two endpoints, which share the message heap. `recvBegin` returns with the
endpoint lock held when a message is there, and the caller finishes or aborts. A step is one
critical section of `a20_channel.c`; a sleeping operation tries again in a later step.

The system keeps the messages accepted into each queue and those handed to its receivers. A
message whose handle types the endpoint does not accept is discarded by the receive that
meets it, so what is handed out is the accepted sequence without these.
-/

namespace A20OS.Channel

open Lib Handle List Option

/-! ### The system -/

/-- A channel; the endpoints are `false` and `true`. `held e` is the lock of endpoint
`e` kept between the two phases of a receive. -/
structure Pair where
  heap : Heap Message
  ep : Bool → Endpoint
  live : Bool → Bool
  held : Bool → Bool
  accepted : Bool → List Message
  delivered : Bool → List Message

namespace Pair

/-- `a20_channel_create`. -/
def create (msgCap : Nat) (type : Option ChannelType) : Pair where
  heap := fun _ => none
  ep := fun _ => .create msgCap type
  live := fun _ => true
  held := fun _ => false
  accepted := fun _ => []
  delivered := fun _ => []

/-- The messages linked into the queue of endpoint `e`. -/
def contents (s : Pair) (e : Bool) : List Message :=
  s.heap.values (s.ep e).msgCount (s.ep e).links.head

/-- The messages queued at endpoint `e`; an endpoint that is gone has none. -/
def queued (s : Pair) (e : Bool) : List Message := if s.live e then s.contents e else []

end Pair

inductive Action where
  /-- One attempt to send from endpoint `e`; the message is allocated at `p`, if at all. -/
  | send (e : Bool) (p : Nat) (m : Message) (flags : BitVec 32) (mem : Bool)
  | recvBegin (e : Bool) (flags : BitVec 32)
  /-- The second phase, with the sizes of the caller's buffers. -/
  | recvFinish (e : Bool) (dataLen handleCount : Nat)
  | recvAbort (e : Bool)
  /-- The last reference to the endpoint goes. -/
  | release (e : Bool)
  | peerShutdown (e : Bool)

/-- The phases of a receive on endpoint `e`. -/
def Action.receivesOn (e : Bool) : Action → Bool
  | .recvBegin e' _ | .recvFinish e' _ _ | .recvAbort e' => e' = e
  | .send .. | .release _ | .peerShutdown _ => false

inductive Result where
  | ok
  | sleeps
  | failed (status : Status)
  /-- The first phase found a message of these sizes. -/
  | begun (dataLen handleCount : Nat)
  | got (m : Message)
deriving DecidableEq

namespace Pair

/-- The channel after message `m` was linked into the queue of `e`. -/
def accept (s : Pair) (e : Bool) (p : Nat) (m : Message) : Pair :=
  { s with
    heap := ((s.ep e).enqueue s.heap p m).1
    ep := Function.update s.ep e ((s.ep e).enqueue s.heap p m).2
    accepted := Function.update s.accepted e (s.accepted e ++ [m]) }

/-- The enqueue of a message that passed the checks of a send. -/
def tryEnqueue (s : Pair) (e : Bool) (p : Nat) (m : Message) (flags : BitVec 32) :
    Option (Pair × Result) :=
  if s.live !e then
    if s.held !e then none
    else if (s.ep !e).peerClosed then some (s, .failed .canceled)
    else if (s.ep !e).full then
      some (s, if flags &&& nonblock ≠ 0 then .failed .wouldBlock else .sleeps)
    else if (s.heap p).isSome then none
    else
      some (s.accept (!e) p m, .ok)
  else some (s, .failed .canceled)

/-- Take the head message, with node `node` at `p`, out of the queue of `e`. -/
def takeHead (s : Pair) (e : Bool) (p : Nat) (node : Node Message) : Pair :=
  { s with
    heap := s.heap.free p
    ep := Function.update s.ep e ((s.ep e).dequeue node) }

def setHeld (s : Pair) (e held : Bool) : Pair :=
  { s with held := Function.update s.held e held }

def deliver (s : Pair) (e : Bool) (m : Message) : Pair :=
  { s with delivered := Function.update s.delivered e (s.delivered e ++ [m]) }

/-- One round of `a20_channel_recv_begin`. -/
def recvBegin (s : Pair) (e : Bool) (flags : BitVec 32) : Option (Pair × Result) :=
  if flags &&& ~~~nonblock ≠ 0 then some (s, .failed .invalidArgument)
  else if 0 < (s.ep e).msgCount then
    ((s.ep e).headNode s.heap).map fun (p, node) =>
      if (s.ep e).admits node.value then
        (s.setHeld e true, .begun node.value.data.length node.value.handles.length)
      else (s.takeHead e p node, .failed .typeMismatch)
  else if (s.ep e).peerClosed then some (s, .failed .canceled)
  else if flags &&& nonblock ≠ 0 then some (s, .failed .wouldBlock)
  else some (s, .sleeps)

def recvFinish (s : Pair) (e : Bool) (dataLen handleCount : Nat) : Pair × Result :=
  match (s.ep e).headNode s.heap with
  | none => (s.setHeld e false, .failed .wouldBlock)
  | some (p, node) =>
      if 0 < node.value.data.length ∧ dataLen < node.value.data.length then
        (s.setHeld e false, .failed .noSpace)
      else if 0 < node.value.handles.length ∧ handleCount < node.value.handles.length then
        (s.setHeld e false, .failed .noSpace)
      else if (s.ep e).admits node.value then
        (((s.takeHead e p node).deliver e node.value).setHeld e false, .got node.value)
      else (s.setHeld e false, .failed .typeMismatch)

/-- Mark that the peer of endpoint `e` is gone. -/
def closePeer (s : Pair) (e : Bool) : Pair :=
  { s with ep := Function.update s.ep e { s.ep e with peerClosed := true } }

/-- `a20_channel_ep_release` for the last reference: the peer is told and the queue is
freed. -/
def release (s : Pair) (e : Bool) : Pair :=
  let s := s.closePeer (!e)
  { s with
    heap := s.heap.freeAll (s.ep e).msgCount (s.ep e).links.head
    live := Function.update s.live e false }

/-- One critical section. A receive in progress holds a reference to its endpoint, so
the last reference goes only when there is none. -/
def act (s : Pair) : Action → Option (Pair × Result)
  | .send e p m flags mem =>
      if s.live e then
        match sendDenied (s.ep e).chanType m flags with
        | some status => some (s, .failed status)
        | none => if mem then s.tryEnqueue e p m flags else some (s, .failed .noMemory)
      else none
  | .recvBegin e flags => if s.live e ∧ ¬s.held e then s.recvBegin e flags else none
  | .recvFinish e dataLen handleCount =>
      if s.live e ∧ s.held e then some (s.recvFinish e dataLen handleCount) else none
  | .recvAbort e => if s.live e ∧ s.held e then some (s.setHeld e false, .ok) else none
  | .release e =>
      if s.live e ∧ ¬s.held e ∧ ¬s.held (!e) then some (s.release e, .ok) else none
  | .peerShutdown e =>
      if s.live e ∧ ¬s.held e ∧ ¬s.held (!e) then some (s.closePeer (!e), .ok) else none

def step (s : Pair) (a : Action) : Option Pair := (s.act a).map Prod.fst

/-! ### What a step does -/

/-- The changes a critical section can make to the channel. -/
inductive Effect (s : Pair) : Pair → Prop
  | none : Effect s s
  | lock (e held : Bool) : Effect s (s.setHeld e held)
  | enqueue {e : Bool} {p : Nat} (m : Message) (live : s.live e = true) (fresh : s.heap p = none) :
      Effect s (s.accept e p m)
  | discard {e : Bool} {p : Nat} {node : Node Message} (live : s.live e = true)
      (head : (s.ep e).headNode s.heap = some (p, node))
      (refused : (s.ep e).admits node.value = false) : Effect s (s.takeHead e p node)
  | deliver {e : Bool} {p : Nat} {node : Node Message} (live : s.live e = true)
      (head : (s.ep e).headNode s.heap = some (p, node))
      (admitted : (s.ep e).admits node.value = true) :
      Effect s (((s.takeHead e p node).deliver e node.value).setHeld e false)
  | close (e : Bool) : Effect s (s.closePeer e)
  | release (e : Bool) (live : s.live e = true) : Effect s (s.release e)

/-- The outcomes of one attempt to enqueue `m` from endpoint `e`. -/
inductive EnqueueOutcome (s : Pair) (e : Bool) (p : Nat) (m : Message) : Pair → Result → Prop
  | refused (status : Status) : EnqueueOutcome s e p m s (.failed status)
  | sleeps : EnqueueOutcome s e p m s .sleeps
  | accepted (live : s.live (!e) = true) (fresh : s.heap p = none) :
      EnqueueOutcome s e p m (s.accept (!e) p m) .ok

variable {s s' : Pair} {p : Nat} {e : Bool} {r : Result} {flags : BitVec 32} {node : Node Message}

theorem tryEnqueue_outcome {m : Message} (h : s.tryEnqueue e p m flags = some (s', r)) :
    EnqueueOutcome s e p m s' r := by
  obtain ⟨live, h⟩ | ⟨-, ⟨⟩⟩ := ite_eq_iff.mp h
  swap
  · exact .refused _
  obtain ⟨-, ⟨⟩⟩ | ⟨-, h⟩ := ite_eq_iff.mp h
  obtain ⟨-, ⟨⟩⟩ | ⟨-, h⟩ := ite_eq_iff.mp h
  · exact .refused _
  obtain ⟨-, ⟨⟩⟩ | ⟨-, h⟩ := ite_eq_iff.mp h
  · split
    · exact .refused _
    · exact .sleeps
  obtain ⟨-, ⟨⟩⟩ | ⟨used, ⟨⟩⟩ := ite_eq_iff.mp h
  exact .accepted live (by simpa using used)

/-- The outcomes of the first phase of a receive. -/
inductive BeginOutcome (s : Pair) (e : Bool) (flags : BitVec 32) : Pair → Result → Prop
  | refused (status : Status) (other : status ≠ .typeMismatch) (open_ : status ≠ .canceled)
      (empty : flags &&& ~~~nonblock = 0 → (s.ep e).msgCount = 0) :
      BeginOutcome s e flags s (.failed status)
  | closed (empty : (s.ep e).msgCount = 0) (closed : (s.ep e).peerClosed = true) :
      BeginOutcome s e flags s (.failed .canceled)
  | sleeps (empty : (s.ep e).msgCount = 0) : BeginOutcome s e flags s .sleeps
  | begun {p : Nat} {node : Node Message} (head : (s.ep e).headNode s.heap = some (p, node))
      (admitted : (s.ep e).admits node.value = true) :
      BeginOutcome s e flags (s.setHeld e true)
        (.begun node.value.data.length node.value.handles.length)
  | discarded {p : Nat} {node : Node Message} (head : (s.ep e).headNode s.heap = some (p, node))
      (refused : (s.ep e).admits node.value = false) :
      BeginOutcome s e flags (s.takeHead e p node) (.failed .typeMismatch)

theorem recvBegin_outcome (h : s.recvBegin e flags = some (s', r)) :
    BeginOutcome s e flags s' r := by
  obtain ⟨invalid, ⟨⟩⟩ | ⟨-, h⟩ := ite_eq_iff.mp h
  · exact .refused _ (by decide) (by decide) fun valid => absurd valid invalid
  obtain ⟨-, h⟩ | ⟨queued, h⟩ := ite_eq_iff.mp h
  · obtain ⟨⟨p, node⟩, head, h⟩ := map_eq_some_iff.mp h
    obtain ⟨admitted, ⟨⟩⟩ | ⟨refused, ⟨⟩⟩ := ite_eq_iff.mp h
    · exact .begun head admitted
    · exact .discarded head (Bool.eq_false_iff.mpr refused)
  have empty := Nat.eq_zero_of_not_pos queued
  obtain ⟨closed, ⟨⟩⟩ | ⟨-, h⟩ := ite_eq_iff.mp h
  · exact .closed empty closed
  obtain ⟨-, ⟨⟩⟩ | ⟨-, ⟨⟩⟩ := ite_eq_iff.mp h
  · exact .refused _ (by decide) (by decide) fun _ => empty
  · exact .sleeps empty

/-- The second phase hands the head message out or leaves the queue alone. -/
inductive FinishOutcome (s : Pair) (e : Bool) (handleCount : Nat) : Pair → Result → Prop
  | failed (status : Status) : FinishOutcome s e handleCount (s.setHeld e false) (.failed status)
  | got {p : Nat} {node : Node Message} (head : (s.ep e).headNode s.heap = some (p, node))
      (admitted : (s.ep e).admits node.value = true)
      (room : node.value.handles.length ≤ handleCount) :
      FinishOutcome s e handleCount
        (((s.takeHead e p node).deliver e node.value).setHeld e false) (.got node.value)

theorem recvFinish_outcome (s : Pair) (e : Bool) (dataLen handleCount : Nat) :
    FinishOutcome s e handleCount (s.recvFinish e dataLen handleCount).1
      (s.recvFinish e dataLen handleCount).2 := by
  unfold recvFinish
  cases head : (s.ep e).headNode s.heap with
  | none => exact .failed _
  | some found =>
    obtain ⟨p, node⟩ := found
    simp only
    by_cases data : 0 < node.value.data.length ∧ dataLen < node.value.data.length
    · rw [if_pos data]
      exact .failed _
    rw [if_neg data]
    by_cases handles : 0 < node.value.handles.length ∧ handleCount < node.value.handles.length
    · rw [if_pos handles]
      exact .failed _
    rw [if_neg handles]
    by_cases admitted : (s.ep e).admits node.value = true
    · rw [if_pos admitted]
      refine .got head admitted ?_
      rcases Nat.eq_zero_or_pos node.value.handles.length with none | some
      · rw [none]
        exact Nat.zero_le _
      · exact not_lt.mp fun short => handles ⟨some, short⟩
    · rw [if_neg admitted]
      exact .failed _

theorem act_effect {a : Action} (h : s.act a = some (s', r)) : Effect s s' := by
  cases a with
  | send e p m flags mem =>
    obtain ⟨-, h⟩ | ⟨-, ⟨⟩⟩ := ite_eq_iff.mp h
    cases denied : sendDenied (s.ep e).chanType m flags with
    | some status => rw [denied] at h; cases h; exact .none
    | none =>
      rw [denied] at h
      cases mem with
      | false => cases h; exact .none
      | true =>
        cases tryEnqueue_outcome h with
        | refused => exact .none
        | sleeps => exact .none
        | accepted peer fresh => exact .enqueue m peer fresh
  | recvBegin e flags =>
    obtain ⟨guard, h⟩ | ⟨-, ⟨⟩⟩ := ite_eq_iff.mp h
    cases recvBegin_outcome h with
    | refused => exact .none
    | closed => exact .none
    | sleeps => exact .none
    | begun => exact .lock e true
    | discarded head refused => exact .discard guard.1 head refused
  | recvFinish e dataLen handleCount =>
    obtain ⟨guard, h⟩ := ite_none_right_eq_some.mp h
    have outcome := recvFinish_outcome s e dataLen handleCount
    rw [some.inj h] at outcome
    cases outcome with
    | failed => exact .lock e false
    | got head admitted room => exact .deliver guard.1 head admitted
  | recvAbort e =>
    obtain ⟨-, ⟨⟩⟩ | ⟨-, ⟨⟩⟩ := ite_eq_iff.mp h
    exact .lock e false
  | release e =>
    obtain ⟨guard, ⟨⟩⟩ | ⟨-, ⟨⟩⟩ := ite_eq_iff.mp h
    exact .release e guard.1
  | peerShutdown e =>
    obtain ⟨-, ⟨⟩⟩ | ⟨-, ⟨⟩⟩ := ite_eq_iff.mp h
    exact .close !e

/-! ### The queues and their histories -/

/-- The messages in the cells of a queue. -/
abbrev messages (cells : List (Nat × Message)) : List Message := cells.map Prod.snd

/-- What holds of one endpoint. `cells` are its queued messages with their addresses.
What was delivered, followed by what can still be delivered of the queue, is what can
be delivered of the accepted messages; once the endpoint is gone it is a beginning. -/
structure Side (heap : Heap Message) (live : Bool) (ep : Endpoint)
    (accepted delivered : List Message) (cells : List (Nat × Message)) : Prop where
  holds : live = true → ep.Holds heap cells
  gone : live = false → cells = []
  history : live = true →
    delivered ++ (messages cells).filter ep.admits = accepted.filter ep.admits
  prior : delivered <+: accepted.filter ep.admits

namespace Side

variable {heap heap' : Heap Message} {live : Bool} {ep : Endpoint}
  {accepted delivered : List Message} {cells : List (Nat × Message)}

/-- A live endpoint, whose history determines what was delivered so far. -/
theorem of_live (holds : ep.Holds heap cells)
    (history : delivered ++ (messages cells).filter ep.admits = accepted.filter ep.admits) :
    Side heap true ep accepted delivered cells :=
  ⟨fun _ => holds, fun dead => (nomatch dead), fun _ => history, ⟨_, history⟩⟩

section
variable (side : Side heap live ep accepted delivered cells)
include side

theorem frame (same : ∀ p ∈ addresses cells, heap' p = heap p) :
    Side heap' live ep accepted delivered cells :=
  { side with holds := fun h => (side.holds h).frame same }

theorem allocated : ∀ p ∈ addresses cells, heap p ≠ none := by
  cases live with
  | true => exact (side.holds rfl).queue.allocated
  | false =>
    rw [side.gone rfl]
    exact nofun

end

theorem enqueue (side : Side heap true ep accepted delivered cells) (fresh : heap p = none)
    (m : Message) :
    Side (ep.enqueue heap p m).1 true (ep.enqueue heap p m).2 (accepted ++ [m]) delivered
      (cells ++ [(p, m)]) := by
  refine of_live ((side.holds rfl).enqueue fresh m) ?_
  change delivered ++ (messages (cells ++ [(p, m)])).filter ep.admits =
    (accepted ++ [m]).filter ep.admits
  rw [messages, map_append, filter_append, filter_append, ← append_assoc, side.history rfl]
  rfl

/-- Taking the head message off the queue; it is handed out if it is admitted. -/
theorem takeHead (side : Side heap true ep accepted delivered cells)
    (head : ep.headNode heap = some (p, node)) :
    ∃ rest, cells = (p, node.value) :: rest ∧
      Side (heap.free p) true (ep.dequeue node) accepted
        (delivered ++ [node.value].filter ep.admits) rest := by
  have holds := side.holds rfl
  have history := side.history rfl
  cases cells with
  | nil =>
    rw [holds.headNode_eq_none] at head
    cases head
  | cons cell rest =>
    obtain ⟨q, m⟩ := cell
    obtain ⟨next, head', taken⟩ := holds.headNode
    rw [head'] at head
    cases head
    refine ⟨rest, rfl, of_live taken ?_⟩
    change delivered ++ _ ++ (messages rest).filter ep.admits = accepted.filter ep.admits
    rw [append_assoc, ← filter_append, ← history]
    rfl

section
variable (side : Side heap live ep accepted delivered cells)
include side

theorem close : Side heap live { ep with peerClosed := true } accepted delivered cells := by
  refine { side with holds := ?_ }
  intro h
  exact ⟨(side.holds h).queue, (side.holds h).count, (side.holds h).bytes⟩

theorem release : Side heap' false ep accepted delivered [] :=
  ⟨fun h => (nomatch h), fun _ => rfl, fun h => (nomatch h), side.prior⟩

end

end Side

/-- Endpoint `e` of the channel, with the cells of its queue. -/
def At (s : Pair) (e : Bool) (cells : List (Nat × Message)) : Prop :=
  Side s.heap (s.live e) (s.ep e) (s.accepted e) (s.delivered e) cells

/-- The two queues share no node. -/
structure Inv (s : Pair) (cells : Bool → List (Nat × Message)) : Prop where
  side : ∀ e, At s e (cells e)
  apart : ∀ e, ∀ p ∈ addresses (cells e), p ∉ addresses (cells !e)

theorem create_inv (msgCap : Nat) (type : Option ChannelType) :
    Inv (create msgCap type) fun _ => [] :=
  ⟨fun _ => .of_live (Endpoint.create_holds _ _ _) rfl, nofun⟩

/-- The invariant, from the endpoint a step is about and its peer. -/
theorem inv_of_sides (here there : List (Nat × Message)) (near : At s e here)
    (far : At s (!e) there) (apart : ∀ p ∈ addresses here, p ∉ addresses there) :
    ∃ cells, Inv s cells ∧ cells e = here ∧ cells (!e) = there := by
  refine ⟨fun e' => if e' = e then here else there, ⟨?_, ?_⟩, if_pos rfl,
    if_neg (Bool.not_ne_self e)⟩
  · intro e'
    cases e <;> cases e' <;> first | exact near | exact far
  · intro e' p
    have apart' : p ∈ addresses there → p ∉ addresses here := fun hp hp' => apart p hp' hp
    cases e <;> cases e' <;> first | exact apart p | exact apart'

open Function

section Steps

variable {cells : Bool → List (Nat × Message)}

theorem At.contents {cells : List (Nat × Message)} (side : At s e cells) (live : s.live e = true) :
    s.contents e = messages cells := by
  have holds := Side.holds side live
  unfold Pair.contents
  rw [holds.count]
  exact holds.queue.chain.values

section
variable (inv : Inv s cells)
include inv

theorem Inv.enqueue (m : Message) (live : s.live e = true) (fresh : s.heap p = none) :
    ∃ cells', Inv (s.accept e p m) cells' ∧ cells' e = cells e ++ [(p, m)] ∧
      cells' (!e) = cells !e := by
  have other : (!e) ≠ e := Bool.not_ne_self e
  have near := inv.side e
  have far := inv.side !e
  unfold At at near far
  rw [live] at near
  refine inv_of_sides (e := e) (cells e ++ [(p, m)]) (cells !e) ?_ ?_ ?_
  · simp only [At, accept, update_self, live]
    exact near.enqueue fresh m
  · simp only [At, accept, update_of_ne other]
    -- The peer's queue has neither the new node nor the redirected last one.
    refine far.frame fun q hq => append_alloc_of_ne m ?_ ?_
    · rintro rfl
      exact far.allocated q hq fresh
    · intro last
      rw [(near.holds rfl).queue.tail] at last
      exact inv.apart e q (mem_of_getLast? last) hq
  · intro q hq hq'
    rw [addresses, map_append, mem_append] at hq
    rcases hq with old | new
    · exact inv.apart e q old hq'
    · rw [map_singleton, mem_singleton] at new
      exact far.allocated q hq' (new ▸ fresh)

/-- Taking the head message off the queue, with the history of what is handed out. -/
theorem Inv.takeHead (live : s.live e = true) (head : (s.ep e).headNode s.heap = some (p, node))
    (delivered : Bool → List Message)
    (handed : delivered e = s.delivered e ++ [node.value].filter (s.ep e).admits)
    (others : delivered (!e) = s.delivered (!e)) :
    ∃ cells', Inv { s.takeHead e p node with delivered } cells' ∧
      cells e = (p, node.value) :: cells' e ∧ cells' (!e) = cells !e := by
  have other : (!e) ≠ e := Bool.not_ne_self e
  have near := inv.side e
  have far := inv.side !e
  unfold At at near far
  rw [live] at near
  have apart := inv.apart e
  obtain ⟨rest, queued, taken⟩ := near.takeHead head
  rw [queued] at apart
  suffices ∃ cells', Inv { s.takeHead e p node with delivered } cells' ∧ cells' e = rest ∧
      cells' (!e) = cells !e by
    obtain ⟨cells', inv', here, there⟩ := this
    exact ⟨cells', inv', here ▸ queued, there⟩
  refine inv_of_sides (e := e) rest (cells !e) ?_ ?_ ?_
  · simp only [At, Pair.takeHead, update_self, live, handed]
    exact taken
  · simp only [At, Pair.takeHead, update_of_ne other, others]
    refine far.frame fun q hq => update_of_ne ?_ _ _
    rintro rfl
    exact apart q (.head _) hq
  · exact fun q hq => apart q (.tail _ hq)

theorem Inv.closePeer (e : Bool) : Inv (s.closePeer e) cells := by
  refine ⟨fun e' => ?_, inv.apart⟩
  by_cases same : e' = e
  · subst same
    simp only [At, Pair.closePeer, update_self]
    exact (inv.side e').close
  · simp only [At, Pair.closePeer, update_of_ne same]
    exact inv.side e'

theorem Inv.release (live : s.live e = true) :
    ∃ cells', Inv (s.release e) cells' ∧ cells' e = [] ∧ cells' (!e) = cells !e := by
  have other : (!e) ≠ e := Bool.not_ne_self e
  have closed := inv.closePeer !e
  have near := closed.side e
  have far := closed.side !e
  have queue := (Side.holds near live).queue
  refine inv_of_sides (e := e) [] (cells !e) ?_ ?_ nofun
  · simp only [At, Pair.release, update_self]
    exact Side.release near
  · simp only [At, Pair.release, update_of_ne other]
    refine Side.frame far fun q hq => ?_
    exact freeAll_of_notMem _ queue.chain (fun hq' => inv.apart e q hq' hq) queue.distinct

theorem Inv.effect (effect : Effect s s') : ∃ cells', Inv s' cells' := by
  cases effect with
  | none => exact ⟨cells, inv⟩
  | lock e held => exact ⟨cells, fun e' => inv.side e', inv.apart⟩
  | enqueue m live fresh =>
    obtain ⟨cells', inv', -⟩ := inv.enqueue m live fresh
    exact ⟨cells', inv'⟩
  | @discard e p node live head refused =>
    obtain ⟨cells', inv', -⟩ := inv.takeHead live head s.delivered (by
      rw [filter_cons_of_neg (by rw [refused]; decide), filter_nil,
        append_nil]) rfl
    exact ⟨cells', inv'⟩
  | @deliver e p node live head admitted =>
    have handed : update s.delivered e (s.delivered e ++ [node.value]) e =
        s.delivered e ++ [node.value].filter (s.ep e).admits := by
      rw [update_self, filter_cons_of_pos admitted, filter_nil]
    obtain ⟨cells', inv', -⟩ := inv.takeHead live head _ handed
      (update_of_ne (Bool.not_ne_self e) _ _)
    exact ⟨cells', fun e' => inv'.side e', inv'.apart⟩
  | close e => exact ⟨cells, inv.closePeer e⟩
  | release e live =>
    obtain ⟨cells', inv', -⟩ := inv.release live
    exact ⟨cells', inv'⟩

/-- A discarded or delivered message was the first of the queue. -/
theorem Inv.contents_takeHead (live : s.live e = true)
    (head : (s.ep e).headNode s.heap = some (p, node)) :
    s.contents e = node.value :: (s.takeHead e p node).contents e := by
  have near := inv.side e
  rw [near.contents live]
  unfold At at near
  rw [live] at near
  obtain ⟨rest, queued, taken⟩ := near.takeHead head
  have holds := taken.holds rfl
  unfold Pair.contents Pair.takeHead
  simp only [update_self]
  rw [holds.count, holds.queue.chain.values, queued]
  rfl

theorem Inv.queued (e : Bool) : s.queued e = messages (cells e) := by
  unfold Pair.queued
  cases live : s.live e with
  | true => exact (inv.side e).contents live
  | false => rw [Side.gone (inv.side e) live]; rfl

end

end Steps

/-- Some cells satisfy the invariant. -/
def Sound (s : Pair) : Prop := ∃ cells, Inv s cells

/-! ### What a step does to the queues -/

theorem create_sound (msgCap : Nat) (type : Option ChannelType) : Sound (create msgCap type) :=
  ⟨_, create_inv msgCap type⟩

section
variable (sound : Sound s)
include sound

theorem Sound.effect (effect : Effect s s') : Sound s' := by
  obtain ⟨cells, inv⟩ := sound
  exact inv.effect effect

theorem Sound.queued_accept (m : Message) (live : s.live e = true) (fresh : s.heap p = none) :
    (s.accept e p m).queued e = s.queued e ++ [m] ∧
      (s.accept e p m).queued (!e) = s.queued !e := by
  obtain ⟨cells, inv⟩ := sound
  obtain ⟨cells', inv', here, there⟩ := inv.enqueue m live fresh
  rw [inv'.queued, inv'.queued, inv.queued, inv.queued, here, there]
  exact ⟨map_append, rfl⟩

/-- Discarding or handing out: the message taken was the first of the queue. -/
theorem Sound.queued_takeHead (live : s.live e = true)
    (head : (s.ep e).headNode s.heap = some (p, node)) :
    s.queued e = node.value :: (s.takeHead e p node).queued e ∧
      (s.takeHead e p node).queued (!e) = s.queued !e := by
  obtain ⟨cells, inv⟩ := sound
  -- The queues do not depend on what is recorded as handed out.
  obtain ⟨cells', inv', here, there⟩ := inv.takeHead live head
    (update s.delivered e (s.delivered e ++ [node.value].filter (s.ep e).admits))
    (update_self _ _ _) (update_of_ne (Bool.not_ne_self e) _ _)
  have near := inv'.queued e
  have far := inv'.queued !e
  rw [inv.queued, inv.queued, here]
  exact ⟨congrArg _ near.symm, there ▸ far⟩

theorem Sound.queued_release (live : s.live e = true) :
    (s.release e).queued e = [] ∧ (s.release e).queued (!e) = s.queued !e := by
  obtain ⟨cells, inv⟩ := sound
  obtain ⟨cells', inv', here, there⟩ := inv.release live
  rw [inv'.queued, inv'.queued, inv.queued, here, there]
  exact ⟨rfl, rfl⟩

omit sound in
theorem queued_closePeer (s : Pair) (e b : Bool) : (s.closePeer e).queued b = s.queued b := by
  unfold queued contents closePeer
  by_cases same : b = e
  · subst same
    simp only [update_self]
  · simp only [update_of_ne same]

theorem Sound.queued_eq_nil (live : s.live e = true)
    (empty : (s.ep e).msgCount = 0) : s.queued e = [] := by
  obtain ⟨cells, inv⟩ := sound
  have none : cells e = [] := by
    rw [← length_eq_zero_iff, ← (Side.holds (inv.side e) live).count, empty]
  rw [inv.queued, none]
  rfl

end

theorem run_sound {msgCap : Nat} {type : Option ChannelType}
    (run : RunsTo step always (create msgCap type) s) : Sound s := by
  refine run.invariant ?_ (create_sound msgCap type)
  intro t t' a sound _ taken
  obtain ⟨⟨t'', r⟩, acted, rfl⟩ := map_eq_some_iff.mp taken
  exact sound.effect (act_effect acted)

variable {cells : Bool → List (Nat × Message)}

/-- A receive that hands no message out leaves the queue alone, or discards a first
message that the endpoint does not accept. -/
theorem Inv.receive (inv : Inv s cells) {a : Action} (receives : a.receivesOn e = true)
    (acted : s.act a = some (s', r)) (nothing : ∀ m, r ≠ .got m) :
    s'.contents e = s.contents e ∨
      r = .failed .typeMismatch ∧
        ∃ m, (s.ep e).admits m = false ∧ s.contents e = m :: s'.contents e := by
  cases a with
  | send | release | peerShutdown => cases receives
  | recvAbort e' =>
    simp only [act] at acted
    split at acted
    · cases acted
      exact .inl rfl
    · cases acted
  | recvFinish e' dataLen handleCount =>
    simp only [act] at acted
    split at acted
    · rw [some_inj] at acted
      have outcome := recvFinish_outcome s e' dataLen handleCount
      rw [acted] at outcome
      cases outcome with
      | failed => exact .inl rfl
      | got head admitted => exact absurd rfl (nothing _)
    · cases acted
  | recvBegin e' flags =>
    have same : e' = e := by simpa [Action.receivesOn] using receives
    subst same
    obtain ⟨guard, acted⟩ | ⟨-, ⟨⟩⟩ := ite_eq_iff.mp acted
    cases recvBegin_outcome acted with
    | refused => exact .inl rfl
    | closed => exact .inl rfl
    | sleeps => exact .inl rfl
    | begun => exact .inl rfl
    | discarded head refused =>
      exact .inr ⟨rfl, _, refused, inv.contents_takeHead guard.1 head⟩

/-- A receive reports that the peer is closed only when the queue is empty. -/
theorem Inv.closed (inv : Inv s cells)
    (acted : s.act (.recvBegin e flags) = some (s', .failed .canceled)) :
    s.delivered e = (s.accepted e).filter (s.ep e).admits := by
  obtain ⟨guard, acted⟩ | ⟨-, ⟨⟩⟩ := ite_eq_iff.mp acted
  have side := inv.side e
  have holds := Side.holds side guard.1
  have history := Side.history side guard.1
  cases recvBegin_outcome acted with
  | refused _ _ open_ => exact absurd rfl open_
  | closed empty =>
    rw [holds.count, length_eq_zero_iff] at empty
    rw [empty] at history
    simpa using history

end Pair

/-- Channels are first-in-first-out up to refused messages: at every point of every run,
what was handed to the receivers of an endpoint is a beginning of the accepted messages
without those it refuses. A receive that hands nothing out leaves the queue alone, but
for discarding a refused first message. Once the closed peer is reported, everything
accepted has been handed out or refused. -/
theorem channel_fifo {msgCap : Nat} {type : Option ChannelType} {s : Pair}
    (run : RunsTo Pair.step always (Pair.create msgCap type) s) (e : Bool) :
    s.delivered e <+: (s.accepted e).filter (s.ep e).admits ∧
    (∀ a s' r, a.receivesOn e = true → s.act a = some (s', r) → (∀ m, r ≠ .got m) →
      s'.contents e = s.contents e ∨
        r = .failed .typeMismatch ∧
          ∃ m, (s.ep e).admits m = false ∧ s.contents e = m :: s'.contents e) ∧
    (∀ flags s', s.act (.recvBegin e flags) = some (s', .failed .canceled) →
      s.delivered e = (s.accepted e).filter (s.ep e).admits) := by
  obtain ⟨cells, inv⟩ := Pair.run_sound run
  refine ⟨(inv.side e).prior, ?_, ?_⟩
  · exact fun a s' r receives acted nothing => inv.receive receives acted nothing
  · exact fun flags s' acted => inv.closed acted

/-- A file handle as a message carries it. -/
def fileInfo : HandleInfo :=
  { object := 7, type := .file, transferRights := Rights.read }

/-- Two messages are sent to endpoint `true`, and the first is received. -/
def twoSendsOneReceive : List Action :=
  [.send false 100 ⟨[1], [fileInfo]⟩ 0 true, .send false 101 ⟨[2, 3], []⟩ 0 true,
    .recvBegin true 0, .recvFinish true 8 8]

def received (s : Pair) : List Message × List Message := (s.accepted true, s.delivered true)

theorem channel_fifo_untyped :
    ∃ s, received s = ([⟨[1], [fileInfo]⟩, ⟨[2, 3], []⟩], [⟨[1], [fileInfo]⟩]) ∧
      s.delivered true <+: (s.accepted true).filter (s.ep true).admits := by
  obtain ⟨s, executed, got⟩ : ∃ s, exec Pair.step (.create 0 none) twoSendsOneReceive = some s ∧
      received s = ([⟨[1], [fileInfo]⟩, ⟨[2, 3], []⟩], [⟨[1], [fileInfo]⟩]) :=
    ⟨_, rfl, by decide⟩
  exact ⟨s, got, (channel_fifo (exec_runsTo executed) true).1⟩

/-- Files may be sent but not received. -/
def sendOnlyFiles : ChannelType :=
  { sendHandleTypes := 1 <<< 3, recvHandleTypes := 0, maxDataSize := 0, maxHandles := 0 }

/-- The receiver refuses the first message and is handed the second one. -/
theorem receive_skips_refused :
    ∃ s, RunsTo Pair.step always (.create 0 (some sendOnlyFiles)) s ∧
      received s = ([⟨[1], [fileInfo]⟩, ⟨[2, 3], []⟩], [⟨[2, 3], []⟩]) ∧
      ¬s.delivered true <+: s.accepted true :=
  runsTo_of_exec [.send false 100 ⟨[1], [fileInfo]⟩ 0 true, .send false 101 ⟨[2, 3], []⟩ 0 true,
    .recvBegin true 0, .recvBegin true 0, .recvFinish true 8 8] (by decide +kernel)

end A20OS.Channel
