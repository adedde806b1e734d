import A20OS.Cluster.Frame
import A20OS.Lib.Machine
import A20OS.Lib.Ring

/-!
One exported endpoint (`kernel/cluster/export.c`, the worker from `kernel/cluster/remote_ep.c`).

A CALL leaves a pairing, its caller and transaction id, in a ring of eight, and then its payload
is sent into the server's queue: two critical sections. A CLOSE empties the ring. The worker
takes the server's replies, pairs each with the oldest entry of the ring and sends it off; it
skips a reply without data before it looks at the ring.

The channel is a pair of queues here. Requests carry the CALL they come from and replies the
request they answer; no step depends on that, which the code does not have.
-/

namespace A20OS.Cluster

open Lib

/-- `a20_node_id_t`. -/
abbrev NodeId := Vector Byte 16

/-- The loop body of `a20_clx_fnv1a32`. -/
def fnv1aByte (h : BitVec 32) (b : Byte) : BitVec 32 := (h ^^^ b.setWidth 32) * 16777619

/-- `a20_clx_node_hash`. -/
def nodeHash (id : NodeId) : BitVec 32 := id.toList.foldl fnv1aByte 2166136261

-- the anchors the source gives: all bytes zero, all bytes set
example : nodeHash (.replicate 16 0) = 0x69691905 ∧ nodeHash (.replicate 16 255) = 0x360779f5 := by
  decide +kernel

/-! ### Frames sent by the core -/

def ttlDefault : BitVec 8 := 8

def errNotFound : BitVec 32 := 24
def errRemoteClosed : BitVec 32 := 28

/-- `clx_build_frame`. -/
def buildFrame (cap : Nat) (type : BitVec 8) (srcHash dstHash dstSlot txid : BitVec 32)
    (payload : Option (List Byte)) (payloadLen : BitVec 16) : Except EncodeError (List Byte) :=
  frameEncode cap 65536
    { ver := wireVer, type, flags := 0, frag := 0, txid, srcHash, dstHash, dstSlot, seq := 0,
      payloadLen, ttl := ttlDefault, csumKind := csumCcitt }
    payload

/-! ### The export -/

def exportLocalOnly : BitVec 32 := 2
def exportPending : Nat := 8
def dedupWindow : Nat := 64

/-- What is kept of a CALL until its reply comes. -/
structure PendingReq where
  src : NodeId
  txid : BitVec 32
  serveHash : BitVec 32
deriving DecidableEq

/-- `a20_clx_export_t`; `peer` is the number of the endpoint the core holds. -/
structure Export where
  inUse : Bool
  slot : BitVec 32
  flags : BitVec 32
  peer : Option Nat
  lastCaller : Option NodeId
  pending : Ring exportPending PendingReq

namespace Export

def pushPending (ex : Export) (src : NodeId) (txid serveHash : BitVec 32) : Option Export :=
  (ex.pending.push ⟨src, txid, serveHash⟩).map fun pending => { ex with pending }

def popPending (ex : Export) : Option (PendingReq × Export) :=
  ex.pending.pop.map fun (req, pending) => (req, { ex with pending })

def noteCaller (ex : Export) (src : NodeId) : Export := { ex with lastCaller := some src }

def revoke (ex : Export) : Export :=
  if ex.inUse then { ex with peer := none, inUse := false } else ex

end Export

/-- The window of the calls seen last, over all exports. -/
structure Dedup where
  ents : Vector (BitVec 32 × BitVec 32) dedupWindow
  idx : Fin dedupWindow

/-- `a20_clx_export_dedup_seen`. -/
def Dedup.seen (d : Dedup) (srcHash txid : BitVec 32) : Bool × Dedup :=
  if (srcHash, txid) ∈ d.ents then (true, d)
  else (false, ⟨d.ents.set d.idx (srcHash, txid),
    ⟨(d.idx + 1) % dedupWindow, Nat.mod_lt _ (by decide)⟩⟩)

/-! ### Messages and threads -/

/-- A CALL frame whose payload goes to the server. -/
structure Request where
  src : NodeId
  hdr : Header
  payload : List Byte
deriving DecidableEq

/-- The pairing a CALL leaves. -/
def Request.entry (r : Request) : PendingReq := ⟨r.src, r.hdr.txid, r.hdr.dstHash⟩

/-- A message the server wrote. -/
structure Reply where
  data : List Byte
  handles : Nat
  answers : Request

/-- A frame handed to the transport. -/
structure Sent where
  dst : NodeId
  frame : List Byte
  answers : Option Request

/-- The receive thread: between two frames, or about to send a request to the server. -/
inductive RxThread where
  | idle
  | inject (req : Request)

/-- `clx_export_tx_main`: at the top of the loop, in the receive, with a reply in hand
before and after the ring was read, and after the loop. -/
inductive Worker where
  | check
  | recv
  | pair (reply : Reply)
  | build (entry : PendingReq) (reply : Reply)
  | exited

structure ExportSys where
  ex : Export
  dedup : Dedup
  dedupDrops : BitVec 64
  rx : RxThread
  worker : Worker
  /-- The endpoint the worker is bound to. -/
  myPeer : Nat
  /-- The server has its endpoint. -/
  serverOpen : Bool
  /-- Capacity of either queue. -/
  cap : Nat
  requests : List Request
  /-- Requests the server took and has not answered. -/
  taken : List Request
  replies : List Reply
  sent : List Sent

namespace ExportSys

variable (s : ExportSys)

/-- `a20_clx_send_error`. -/
def sendError (dst : NodeId) (txid serveHash errno : BitVec 32) : ExportSys :=
  match buildFrame (hdrLen + 8 + crcLen) typeError serveHash (nodeHash dst) 0 txid
      (some (leBytes 4 errno.toNat ++ leBytes 4 txid.toNat)) 8 with
  | .ok frame => { s with sent := s.sent ++ [⟨dst, frame, none⟩] }
  | .error _ => s

/-- `a20_clx_export_by_slot`. -/
def bySlot (slot : BitVec 32) : Option Export :=
  if s.ex.inUse ∧ s.ex.slot = slot then some s.ex else none

/-- `a20_clx_export_rx` up to the point where a request is sent to the server. -/
def exportRx (src : NodeId) (h : Header) (payload : List Byte) : ExportSys :=
  if h.type = typeClose then
    match s.bySlot h.dstSlot with
    | some ex => { s with ex := { ex with pending := ex.pending.clear } }
    | none => s
  else if h.type ≠ typeCall then s
  else
    match s.bySlot h.dstSlot with
    | none => s.sendError src h.txid h.dstHash errNotFound
    | some ex =>
        if ex.flags &&& exportLocalOnly ≠ 0 then s.sendError src h.txid h.dstHash errNotFound
        else
          match s.dedup.seen h.srcHash h.txid with
          | (true, _) => { s with dedupDrops := s.dedupDrops + 1 }
          | (false, dedup) =>
              match ex.pushPending src h.txid h.dstHash with
              | none => { s with dedup }
              | some ex =>
                  if ex.peer.isSome then
                    { s with dedup, ex := ex.noteCaller src, rx := .inject ⟨src, h, payload⟩ }
                  else
                    { s with dedup, ex := (ex.noteCaller src).revoke }.sendError src h.txid
                      h.dstHash
                      errRemoteClosed

/-- The rest of `a20_clx_export_rx`: the send succeeded, or the export is revoked. -/
def inject (ok : Bool) : Option ExportSys :=
  match s.rx with
  | .idle => none
  | .inject req =>
      if ok then
        if s.serverOpen ∧ s.requests.length < s.cap then
          some { s with rx := .idle, requests := s.requests ++ [req] }
        else none
      else
        some ({ s with rx := .idle, ex := s.ex.revoke }.sendError req.src req.hdr.txid
          req.hdr.dstHash errRemoteClosed)

/-! ### The server -/

def serverRecv : Option ExportSys :=
  match s.requests with
  | req :: rest =>
      if s.serverOpen then some { s with requests := rest, taken := s.taken ++ [req] } else none
  | [] => none

/-- The server answers the oldest request it has. -/
def serverReply (data : List Byte) (handles : Nat) : Option ExportSys :=
  match s.taken with
  | req :: rest =>
      if s.serverOpen ∧ s.replies.length < s.cap then
        some { s with taken := rest, replies := s.replies ++ [⟨data, handles, req⟩] }
      else none
  | [] => none

/-- The server never answers the oldest request it has. -/
def serverSkip : Option ExportSys :=
  match s.taken with
  | _ :: rest => if s.serverOpen then some { s with taken := rest } else none
  | [] => none

/-! ### The worker -/

/-- After the loop: the reference of the export is dropped if it is still this one. -/
def workerExit : ExportSys :=
  { s with
    worker := .exited
    ex := if s.ex.peer = some s.myPeer then { s.ex with peer := none } else s.ex }

/-- `clx_worker_next_msg`. It has no room for handles, so a reply with handles ends the
worker; `fail` is any other error of the receive, and `mem` says whether a buffer can be
had. -/
def workerRecv (fail mem : Bool) : Option ExportSys :=
  if fail then some s.workerExit
  else
    match s.replies with
    | [] => if s.serverOpen then none else some s.workerExit
    | reply :: rest =>
        if 0 < reply.handles then some s.workerExit
        else if reply.data = [] then some { s with replies := rest, worker := .check }
        else if mem then some { s with replies := rest, worker := .pair reply }
        else some { s with worker := .check }

/-- The reply is paired with the oldest pending request, if there is one. -/
def workerPair (reply : Reply) : ExportSys :=
  if s.ex.inUse ∧ s.ex.peer ≠ some s.myPeer then s.workerExit
  else
    match s.ex.popPending with
    | none => { s with worker := .check }
    | some (entry, ex) => { s with ex, worker := .build entry reply }

/-- The CALL_REPLY for a paired reply; a length of 65536 is cut to 0. -/
def workerBuild (entry : PendingReq) (reply : Reply) (mem : Bool) : ExportSys :=
  if mem then
    match buildFrame (hdrLen + reply.data.length + crcLen) typeCallReply entry.serveHash
        (nodeHash entry.src) 0 entry.txid (some reply.data) (.ofNat 16 reply.data.length) with
    | .ok frame =>
        { s with sent := s.sent ++ [⟨entry.src, frame, some reply.answers⟩], worker := .check }
    | .error _ => { s with worker := .check }
  else { s with worker := .check }

def workerStep (fail mem : Bool) : Option ExportSys :=
  match s.worker with
  | .check =>
      if s.ex.inUse ∧ s.ex.peer = some s.myPeer then some { s with worker := .recv }
      else some s.workerExit
  | .recv => s.workerRecv fail mem
  | .pair reply => some (s.workerPair reply)
  | .build entry reply => some (s.workerBuild entry reply mem)
  | .exited => none

end ExportSys

/-! ### Runs -/

inductive ExportLabel where
  /-- A frame from `src` reaches the receive thread. -/
  | frame (src : NodeId) (h : Header) (payload : List Byte)
  | inject (ok : Bool)
  | serverRecv
  | serverReply (data : List Byte) (handles : Nat)
  | serverSkip
  /-- The server closes its endpoint. -/
  | serverClose
  | worker (fail mem : Bool)
  /-- `a20_clx_export_revoke` from outside. -/
  | revoke

namespace ExportSys

def step (s : ExportSys) : ExportLabel → Option ExportSys
  | .frame src h payload =>
      match s.rx with
      | .idle => some (s.exportRx src h payload)
      | .inject _ => none
  | .inject ok => s.inject ok
  | .serverRecv => s.serverRecv
  | .serverReply data handles => s.serverReply data handles
  | .serverSkip => s.serverSkip
  | .serverClose => some { s with serverOpen := false }
  | .worker fail mem => s.workerStep fail mem
  | .revoke => some { s with ex := s.ex.revoke }

/-- A fresh export, with whatever the window of seen calls holds. -/
def init (slot flags : BitVec 32) (peer cap : Nat) (dedup : Dedup) : ExportSys where
  ex := {
    inUse := true
    slot
    flags
    peer := some peer
    lastCaller := none
    pending := {
      slots := fun _ => ⟨.replicate 16 0, 0, 0⟩
      head := 0
      count := 0
      head_lt := by decide
      count_le := Nat.zero_le _ } }
  dedup
  dedupDrops := 0
  rx := .idle
  worker := .check
  myPeer := peer
  serverOpen := true
  cap
  requests := []
  taken := []
  replies := []
  sent := []

end ExportSys

end A20OS.Cluster
