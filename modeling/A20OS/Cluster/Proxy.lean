import A20OS.Cluster.Export
import A20OS.Errno
import Mathlib.Data.List.FinRange

/-!
The table of remote endpoint proxies (`kernel/cluster/remote_ep.c`).

A connect builds a channel pair, fills a slot and starts a worker, which takes messages from
the proxy half, enters each in the list of calls in flight and sends it. Frames, the deadline
scan and a node that goes down complete calls or take the proxy down. What runs under
`g_clx_lock` in one piece is one step; between two a thread may hold its slot: the worker before
it registers a call, whoever is about to shut a victim down (`doomed`), and the creator.

Connections are numbered. `ep` is the connection whose proxy half a slot points to, `dropped`
counts how often the pair's reference to it was given up, and `fault` is an access through a
null or dangling pointer.
-/

namespace A20OS.Cluster

open Lib

/-! ### Data -/

/-- What the profile and the platform fix. -/
structure Config where
  /-- `CLX_LIMIT_REMOTE_EPS` -/
  remoteEps : Nat
  /-- `CLX_LIMIT_INFLIGHT` -/
  inflight : Nat
  self : NodeId
  /-- `MS_TO_TICKS(CLX_CALL_DEADLINE_MS)` -/
  callTicks : BitVec 64

/-- `struct a20_clx_inflight`; an entry with deadline zero is free. -/
structure Inflight where
  txid : BitVec 32
  deadline : BitVec 64
deriving DecidableEq

/-- What the pointer to the calls in flight points to. -/
inductive InflightPtr where
  | null
  | array (entries : List Inflight)
  | freed
deriving DecidableEq

/-- `a20_clx_proxy_t`. -/
structure Proxy where
  inUse : Bool := false
  ep : Option Nat := none
  peerNode : NodeId := .replicate 16 0
  dstSlot : BitVec 32 := 0
  inflight : InflightPtr := .null
  inflightCap : Nat := 0
  inflightCount : BitVec 32 := 0
  deadline : BitVec 64 := 0

/-- Where the thread of a connection is: the creator starting the worker or undoing the
creation, then the worker at the top of its loop, in the receive, after a receive that
failed, before its own shutdown, with a message, with a frame to register, after the loop. -/
inductive ProxyPc where
  | spawning
  | freeing
  | check
  | recv
  | failed
  | closing
  | received (msg : List Byte)
  | register (msg : List Byte)
  | exiting
deriving DecidableEq

structure ProxyThread (cfg : Config) where
  slot : Fin cfg.remoteEps
  pc : ProxyPc
deriving DecidableEq

structure ProxySys (cfg : Config) where
  proxies : Fin cfg.remoteEps → Proxy := fun _ => {}
  proxyCount : BitVec 32 := 0
  txidNext : BitVec 32 := 1
  threads : Nat → Option (ProxyThread cfg) := fun _ => none
  nextConn : Nat := 0
  doomed : List (Fin cfg.remoteEps) := []
  dropped : Nat → Nat := fun _ => 0
  fault : Bool := false

/-! ### Calls in flight -/

/-- Take the first free entry. -/
def fillFree (txid : BitVec 32) (deadline : BitVec 64) : List Inflight → Option (List Inflight)
  | [] => none
  | e :: es =>
      if e.deadline ≠ 0 then (fillFree txid deadline es).map (e :: ·)
      else some (⟨txid, deadline⟩ :: es)

/-- Free the first entry of the call. -/
def completeCall (txid : BitVec 32) : List Inflight → Option (List Inflight)
  | [] => none
  | e :: es =>
      if e.deadline ≠ 0 ∧ e.txid = txid then some ({ e with deadline := 0 } :: es)
      else (completeCall txid es).map (e :: ·)

/-- `clx_proxy_deadline_recalc`: the earliest deadline, zero if nothing is in flight. -/
def earliestDeadline (entries : List Inflight) : BitVec 64 :=
  entries.foldl (fun earliest e =>
    if e.deadline ≠ 0 ∧ (earliest = 0 ∨ e.deadline < earliest) then e.deadline else earliest) 0

namespace Proxy

/-- The entries a loop up to `inflight_cap` reads; `none` if it has no array to read. -/
def entries (p : Proxy) : Option (List Inflight) :=
  match p.inflight with
  | .array es => some es
  | _ => if p.inflightCap = 0 then some [] else none

/-- `a20_clx_proxy_inflight_add`; `none` if there is no array to write to. -/
def inflightAdd (p : Proxy) (txid : BitVec 32) (deadline : BitVec 64) :
    Option (Proxy × Except Status Unit) :=
  if p.inflightCap ≤ p.inflightCount.toNat then some (p, .error .noSpace)
  else
    p.entries.map fun es =>
      match fillFree txid deadline es with
      | none => (p, .error .noSpace)
      | some es' =>
          ({ p with
              inflight := .array es'
              inflightCount := p.inflightCount + 1
              deadline := if p.deadline = 0 ∨ deadline < p.deadline then deadline
                else p.deadline }, .ok ())

/-- What a CALL_REPLY does to the calls in flight. -/
def complete (p : Proxy) (txid : BitVec 32) : Proxy :=
  match p.inflight with
  | .array es =>
      match completeCall txid es with
      | some es' =>
          { p with
            inflight := .array es'
            inflightCount := p.inflightCount - 1
            deadline := earliestDeadline es' }
      | none => { p with deadline := earliestDeadline es }
  | _ => { p with deadline := earliestDeadline [] }

end Proxy

namespace ProxySys

variable {cfg : Config} (s : ProxySys cfg)

def setProxy (i : Fin cfg.remoteEps) (p : Proxy) : ProxySys cfg :=
  { s with proxies := Function.update s.proxies i p }

def setThread (c : Nat) (t : Option (ProxyThread cfg)) : ProxySys cfg :=
  { s with threads := Function.update s.threads c t }

/-- Release the reference that came with the pair. -/
def drop (c : Nat) : ProxySys cfg :=
  { s with dropped := Function.update s.dropped c (s.dropped c + 1) }

/-! ### Lookups -/

/-- The loops over the table: the first slot that qualifies. -/
def findProxy (sel : Proxy → Bool) : Option (Fin cfg.remoteEps) :=
  (List.finRange cfg.remoteEps).find? fun i => sel (s.proxies i)

/-- `a20_clx_proxy_by_txid` from a slot on; `none` if a loop has no array to read. -/
def byTxidIn (srcHash txid : BitVec 32) :
    List (Fin cfg.remoteEps) → Option (Option (Fin cfg.remoteEps))
  | [] => some none
  | i :: is =>
      if ¬(s.proxies i).inUse ∨ nodeHash (s.proxies i).peerNode ≠ srcHash then
        byTxidIn srcHash txid is
      else
        match (s.proxies i).entries with
        | none => none
        | some es =>
            if es.any fun e => e.deadline ≠ 0 ∧ e.txid = txid then some (some i)
            else byTxidIn srcHash txid is

def byTxid (srcHash txid : BitVec 32) : Option (Option (Fin cfg.remoteEps)) :=
  s.byTxidIn srcHash txid (List.finRange cfg.remoteEps)

def byNodeSlot (srcHash slot : BitVec 32) : Option (Fin cfg.remoteEps) :=
  s.findProxy fun p => p.inUse ∧ nodeHash p.peerNode = srcHash ∧ p.dstSlot = slot

/-! ### Shutdown and those who call it -/

/-- The critical section of `a20_clx_proxy_shutdown`. What follows it, the CLOSE frame and
the shutdown of both halves, only makes the receive of the worker fail. -/
def shutdown (i : Fin cfg.remoteEps) : ProxySys cfg :=
  if (s.proxies i).inUse then
    { s.setProxy i { s.proxies i with inUse := false, inflight := .null } with
      proxyCount := s.proxyCount - 1
      fault := s.fault || (s.proxies i).inflight = .freed }
  else s

/-- `a20_clx_proxy_rx` up to the delivery of a reply or the call of the shutdown. -/
def proxyRx (src : NodeId) (h : Header) : ProxySys cfg :=
  if h.dstHash ≠ nodeHash cfg.self then s
  else
    match s.byTxid (nodeHash src) h.txid with
    | none => { s with fault := true }
    | some called =>
        let closed := if h.type = typeClose then s.byNodeSlot (nodeHash src) h.dstSlot else none
        match called.or closed with
        | none => s
        | some i =>
            if h.type = typeCallReply then s.setProxy i ((s.proxies i).complete h.txid)
            else { s with doomed := i :: s.doomed }

def doom (found : Option (Fin cfg.remoteEps)) : ProxySys cfg :=
  match found with
  | none => s
  | some i => { s with doomed := i :: s.doomed }

/-- One round of the loop of `a20_clx_node_down`. -/
def nodeDown (node : NodeId) : ProxySys cfg :=
  s.doom (s.findProxy fun p => p.inUse ∧ nodeHash p.peerNode = nodeHash node)

/-- One round of the loop of `a20_clx_deadline_scan`. -/
def deadlineScan (now : BitVec 64) : ProxySys cfg :=
  s.doom (s.findProxy fun p => p.inUse ∧ p.deadline ≠ 0 ∧ p.deadline ≤ now)

/-! ### Creation -/

def freeProxy : Option (Fin cfg.remoteEps) := s.findProxy fun p => !p.inUse

/-- `a20_clx_proxy_create` up to the start of the worker. `pair` says whether the channel
could be made, `mem` whether the array could be allocated; when it could not, the slot is
left as it was filled. -/
def create (node : NodeId) (slot reliable : BitVec 32) (pair mem : Bool) :
    ProxySys cfg × Except Status Nat :=
  if reliable &&& 1 ≠ 0 then (s, .error .clusterUnsupported)
  else if ¬pair then (s, .error .noMemory)
  else
    let c := s.nextConn
    let s := { s with nextConn := c + 1 }
    match s.freeProxy with
    | none => (s.drop c, .error .noSpace)
    | some i =>
        let p : Proxy :=
          { inUse := true, ep := some c, peerNode := node, dstSlot := slot
            inflightCap := cfg.inflight }
        if mem then
          ({ (s.setProxy i
              { p with inflight := .array (.replicate cfg.inflight ⟨0, 0⟩) }).setThread c
              (some ⟨i, .spawning⟩) with proxyCount := s.proxyCount + 1 }, .ok c)
        else ((s.setProxy i p).drop c, .error .noMemory)

/-! ### The thread of a connection -/

/-- What `clx_worker_next_msg` brings: an error, nothing this time, or a message. -/
inductive Received where
  | failed
  | again
  | message (msg : List Byte)

/-- What a thread finds: the outcome of a receive, the MTU of the route (zero without one),
whether there is memory (or room for a thread), the time. -/
structure Input where
  recv : Received := .again
  mtu : Nat := 0
  mem : Bool := true
  now : BitVec 64 := 0

def goto (c : Nat) (t : ProxyThread cfg) (pc : ProxyPc) : ProxySys cfg :=
  s.setThread c (some { t with pc })

/-- The creator gives the slot back; the array is freed after the lock is released. -/
def unwind (c : Nat) (t : ProxyThread cfg) : ProxySys cfg :=
  { (s.setProxy t.slot { s.proxies t.slot with ep := none, inUse := false }).goto c t .freeing with
    proxyCount := s.proxyCount - 1 }

/-- `kfree(p->inflight)` of the creator, which reads the slot again, and the release. -/
def freeArray (c : Nat) (t : ProxyThread cfg) : ProxySys cfg :=
  let p := s.proxies t.slot
  let s' := (s.setThread c none).drop c
  match p.inflight with
  | .null => s'
  | .array _ => s'.setProxy t.slot { p with inflight := .freed }
  | .freed => { s' with fault := true }

/-- The frame for a message is built and its call entered. -/
def register (c : Nat) (t : ProxyThread cfg) (msg : List Byte) (now : BitVec 64) : ProxySys cfg :=
  let p := s.proxies t.slot
  let txid := s.txidNext
  let s := { s.goto c t .check with txidNext := txid + 1 }
  match buildFrame (hdrLen + msg.length + crcLen) typeCall (nodeHash cfg.self)
      (nodeHash p.peerNode) p.dstSlot txid (some msg) (.ofNat 16 msg.length) with
  | .error _ => s
  | .ok _ =>
      match p.inflightAdd txid (now + cfg.callTicks) with
      | none => { s with fault := true }
      | some (p', _) => s.setProxy t.slot p'

/-- The end of the worker: whatever the slot points to now is released. -/
def workerExit (c : Nat) (t : ProxyThread cfg) : ProxySys cfg :=
  match (s.proxies t.slot).ep with
  | none => s.setThread c none
  | some e =>
      ((s.setProxy t.slot { s.proxies t.slot with ep := none }).drop e).setThread c none

def threadStep (c : Nat) (t : ProxyThread cfg) (input : Input) : ProxySys cfg :=
  match t.pc with
  | .spawning => if input.mem then s.goto c t .check else s.unwind c t
  | .freeing => s.freeArray c t
  | .check =>
      if (s.proxies t.slot).inUse ∧ (s.proxies t.slot).ep.isSome then s.goto c t .recv
      else s.goto c t .exiting
  | .recv =>
      match input.recv with
      | .failed => s.goto c t .failed
      | .again => s.goto c t .check
      | .message msg => s.goto c t (.received msg)
  | .failed => if (s.proxies t.slot).inUse then s.goto c t .closing else s.goto c t .exiting
  | .closing => (s.shutdown t.slot).goto c t .exiting
  | .received msg =>
      if frameMaxPayload (if input.mtu = 0 then 65536 else input.mtu) < msg.length then
        s.goto c t .check
      else if input.mem then s.goto c t (.register msg)
      else s.goto c t .check
  | .register msg => s.register c t msg input.now
  | .exiting => s.workerExit c t

/-! ### Steps -/

inductive Label (cfg : Config) where
  /-- A CALL_REPLY, ERROR or CLOSE frame reaches the receive thread. -/
  | frame (src : NodeId) (h : Header)
  | nodeDown (node : NodeId)
  | deadlineScan (now : BitVec 64)
  /-- Somebody who looked the slot up calls the shutdown. -/
  | shutdown (i : Fin cfg.remoteEps)
  | create (node : NodeId) (slot reliable : BitVec 32) (pair mem : Bool)
  | thread (c : Nat) (input : Input)

/-- One step; nothing happens after an invalid access. -/
def step (s : ProxySys cfg) (l : Label cfg) : Option (ProxySys cfg) :=
  if s.fault then none
  else
    match l with
    | .frame src h => some (s.proxyRx src h)
    | .nodeDown node => some (s.nodeDown node)
    | .deadlineScan now => some (s.deadlineScan now)
    | .shutdown i =>
        if i ∈ s.doomed then some ({ s with doomed := s.doomed.erase i }.shutdown i) else none
    | .create node slot reliable pair mem => some (s.create node slot reliable pair mem).1
    | .thread c input => (s.threads c).map fun t => s.threadStep c t input

end ProxySys

end A20OS.Cluster
