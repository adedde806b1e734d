import A20OS.Handle.Table
import A20OS.Lib.Bytes
import A20OS.Lib.LinkedQueue

/-!
Channel endpoints (`kernel/ipc/a20_channel.c`): messages, typed channels and inbound queues.

Messages are linked by their `next` pointers, with a count and the number of queued bytes
beside. `Endpoint.Holds` says that a queue holds given messages and its counters agree; the
operations on the links are operations on that list.
-/

namespace A20OS.Channel

open Lib Handle

/-! ### Messages and channel types -/

/-- `a20_ch_message_t`: the data and, behind it, the handle descriptions. -/
structure Message where
  data : List Byte
  handles : List HandleInfo
deriving DecidableEq

/-- `a20_channel_type_t`. A limit of 0 is no limit. -/
structure ChannelType where
  sendHandleTypes : BitVec 32
  recvHandleTypes : BitVec 32
  maxDataSize : Nat
  maxHandles : Nat
deriving DecidableEq

/-- `A20_CH_MAX_DATA`. -/
def maxData : Nat := 65536

/-- `A20_CH_DEFAULT_CAP`. -/
def defaultCap : Nat := 64

/-- `A20_MSG_NONBLOCK`. -/
def nonblock : BitVec 32 := 1 <<< 0

/-- Every handle has a type of the mask; an untyped channel has no mask. -/
def typesAllowed (mask : Option (BitVec 32)) (handles : List HandleInfo) : Bool :=
  match mask with
  | none => true
  | some mask => handles.all fun h => h.type.inMask mask

/-- `ch_check_send_types` succeeds. -/
def checkSendTypes (ct : Option ChannelType) (handles : List HandleInfo) : Bool :=
  typesAllowed (ct.map ChannelType.sendHandleTypes) handles

/-- `ch_check_recv_types` succeeds. -/
def checkRecvTypes (ct : Option ChannelType) (handles : List HandleInfo) : Bool :=
  typesAllowed (ct.map ChannelType.recvHandleTypes) handles

/-- The checks of a send that do not look at the queue, in their order. -/
def sendDenied (ct : Option ChannelType) (m : Message) (flags : BitVec 32) : Option Status :=
  if maxData < m.data.length then some .invalidArgument
  else if maxChannelHandles < m.handles.length then some .invalidArgument
  else if flags &&& ~~~nonblock ≠ 0 then some .invalidArgument
  else
    match ct with
    | none => none
    | some t =>
        if t.maxDataSize ≠ 0 ∧ t.maxDataSize < m.data.length then some .invalidArgument
        else if t.maxHandles ≠ 0 ∧ t.maxHandles < m.handles.length then some .invalidArgument
        else if checkSendTypes ct m.handles then none
        else some .typeMismatch

/-! ### Endpoints -/

/-- `a20_channel_ep_t`, its queue and what its operations check. -/
structure Endpoint where
  links : Links
  msgCount : Nat
  msgCap : Nat
  totalData : BitVec 32
  peerClosed : Bool
  chanType : Option ChannelType
deriving DecidableEq

namespace Endpoint

/-- An endpoint of `a20_channel_create`. -/
def create (msgCap : Nat) (type : Option ChannelType) : Endpoint where
  links := ⟨none, none⟩
  msgCount := 0
  msgCap := if msgCap = 0 then defaultCap else msgCap
  totalData := 0
  peerClosed := false
  chanType := type

/-- The message may be received here. -/
def admits (ep : Endpoint) (m : Message) : Bool := checkRecvTypes ep.chanType m.handles

def full (ep : Endpoint) : Bool := ep.msgCap ≤ ep.msgCount

/-- The linking of `ch_try_enqueue`, for the message allocated at `p`. -/
def enqueue (ep : Endpoint) (heap : Heap Message) (p : Nat) (m : Message) :
    Heap Message × Endpoint :=
  let linked := (heap.alloc p m).append ep.links p
  (linked.1,
    { ep with
      links := linked.2, msgCount := ep.msgCount + 1
      totalData := ep.totalData + BitVec.ofNat 32 m.data.length })

/-- The unlinking of the head message, whose node is `node`. -/
def dequeue (ep : Endpoint) (node : Node Message) : Endpoint :=
  { ep with
    links := ep.links.behind node.next, msgCount := ep.msgCount - 1
    totalData := ep.totalData - BitVec.ofNat 32 node.value.data.length }

/-- The node `msg_head` points to. -/
def headNode (ep : Endpoint) (heap : Heap Message) : Option (Nat × Node Message) :=
  ep.links.head.bind fun p => (heap p).map fun node => (p, node)

/-! ### The queue as a list -/

/-- The queue holds the messages of the cells, and the counters agree. -/
structure Holds (ep : Endpoint) (heap : Heap Message) (cells : List (Nat × Message)) : Prop where
  queue : Represents heap ep.links cells
  count : ep.msgCount = cells.length
  bytes : ep.totalData = BitVec.ofNat 32 (cells.map fun cell => cell.2.data.length).sum

variable {ep : Endpoint} {heap : Heap Message} {cells : List (Nat × Message)}

theorem create_holds (msgCap : Nat) (type : Option ChannelType) (heap : Heap Message) :
    (create msgCap type).Holds heap [] :=
  ⟨represents_nil heap, rfl, rfl⟩

theorem Holds.frame {heap' : Heap Message} (h : ep.Holds heap cells)
    (same : ∀ p ∈ addresses cells, heap' p = heap p) : ep.Holds heap' cells :=
  ⟨h.queue.frame same, h.count, h.bytes⟩

theorem Holds.enqueue (h : ep.Holds heap cells) {p : Nat} (fresh : heap p = none) (m : Message) :
    (ep.enqueue heap p m).2.Holds (ep.enqueue heap p m).1 (cells ++ [(p, m)]) := by
  refine ⟨h.queue.enqueue fresh m, ?_, ?_⟩
  · change ep.msgCount + 1 = _
    rw [List.length_append, h.count]
    rfl
  · change ep.totalData + _ = _
    rw [h.bytes, List.map_append, List.sum_append, List.map_singleton, List.sum_singleton,
      BitVec.ofNat_add]

theorem Holds.headNode {p : Nat} {m : Message} (h : ep.Holds heap ((p, m) :: cells)) :
    ∃ next, ep.headNode heap = some (p, ⟨m, next⟩) ∧
      (ep.dequeue ⟨m, next⟩).Holds (heap.free p) cells := by
  obtain ⟨head, next, here, rest⟩ := h.queue.dequeue
  refine ⟨next, ?_, rest, ?_, ?_⟩
  · unfold Endpoint.headNode
    rw [head, Option.bind_some, here]
    rfl
  · change ep.msgCount - 1 = _
    rw [h.count]
    rfl
  · change ep.totalData - _ = _
    rw [h.bytes, List.map_cons, List.sum_cons, BitVec.ofNat_add, BitVec.add_comm,
      BitVec.add_sub_cancel]

theorem Holds.headNode_eq_none (h : ep.Holds heap []) : ep.headNode heap = none := by
  unfold Endpoint.headNode
  rw [h.queue.head_eq_none.mpr rfl]
  rfl

end Endpoint

end A20OS.Channel
