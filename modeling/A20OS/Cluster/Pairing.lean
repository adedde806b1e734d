import A20OS.Cluster.Export

/-!
Replies of an export go to the CALL they answer.

The worker takes the oldest pairing of the ring for each reply. The invariant is that the
pairings, as long as there are any, start with those of the outstanding requests in order
(`Aligned`). Three steps break it: a CALL is accepted while replies are to come whose pairings
a CLOSE dropped; a reply without data leaves its pairing; the server never answers a request.
`ExportSys.allowed` admits each only where it does no harm.
-/

namespace A20OS.Cluster

open Lib List Option

/-! ### Outstanding requests -/

def Worker.held : Worker → List Request
  | .pair reply => [reply.answers]
  | .check | .recv | .build .. | .exited => []

def RxThread.held : RxThread → List Request
  | .inject req => [req]
  | .idle => []

/-- The requests whose replies were not paired yet, the oldest first. -/
def ExportSys.outstanding (s : ExportSys) : List Request :=
  s.worker.held ++ (s.replies.map Reply.answers ++ (s.taken ++ (s.requests ++ s.rx.held)))

/-- There are no pairings, or they start with those of the waiting requests. -/
def Aligned (pending : List PendingReq) (waiting : List Request) : Prop :=
  pending = [] ∨ waiting.map Request.entry <+: pending

namespace Aligned

variable {pending : List PendingReq} {waiting : List Request} {entry : PendingReq} {r : Request}

section
variable (aligned : Aligned pending waiting)
include aligned

section
variable (same : waiting.length = pending.length)
include same

/-- With as many pairings as waiting requests each request has its own. -/
theorem eq_of_length : waiting.map Request.entry = pending := by
  rcases aligned with rfl | inOrder
  · rw [length_eq_zero_iff.mp same]
    rfl
  · exact inOrder.eq_of_length (by rw [length_map, same])

theorem push (r : Request) : Aligned (pending ++ [r.entry]) (waiting ++ [r]) := by
  right
  rw [map_append, aligned.eq_of_length same]
  exact prefix_rfl

/-- A pairing for a request that will not wait. -/
theorem push_unserved : Aligned (pending ++ [entry]) waiting := by
  right
  rw [aligned.eq_of_length same]
  exact prefix_append _ _

end

end

theorem withdraw (aligned : Aligned pending (waiting ++ [r])) : Aligned pending waiting := by
  refine aligned.imp_right fun inOrder => ?_
  rw [map_append] at inOrder
  exact (prefix_append _ _).trans inOrder

theorem pop (aligned : Aligned (entry :: pending) (r :: waiting)) :
    entry = r.entry ∧ Aligned pending waiting := by
  rcases aligned with none | inOrder
  · cases none
  · rw [map_cons, cons_prefix_cons] at inOrder
    exact ⟨inOrder.1.symm, .inr inOrder.2⟩

end Aligned

/-! ### Frames -/

/-- A CALL_REPLY answers the CALL it is addressed to. -/
def Sent.Matches (f : Sent) : Prop :=
  (Header.read f.frame).type = typeCallReply →
    ∃ r, f.answers = some r ∧ f.dst = r.src ∧ (Header.read f.frame).txid = r.hdr.txid ∧
      (Header.read f.frame).dstHash = nodeHash r.src

variable {h : Header}

theorem read_frameEncode {cap mtu : Nat} {payload : Option (List Byte)} {frame : List Byte}
    (ok : frameEncode cap mtu h payload = .ok frame) : Header.read frame = h := by
  have written : frame = frameBytes h (payload.getD []) := by
    unfold frameEncode at ok
    repeat' split at ok
    all_goals cases ok
    rfl
  obtain ⟨tail, bytes, -⟩ := frameBytes_eq h (payload.getD [])
  rw [written, bytes]
  exact (read_frameBody h _ tail).2

/-! ### The invariant -/

structure Paired (s : ExportSys) : Prop where
  aligned : s.worker = .exited ∨ Aligned s.ex.pending.toList s.outstanding
  building : ∀ entry reply, s.worker = .build entry reply → entry = reply.answers.entry
  sent : ∀ f ∈ s.sent, f.Matches

section Steps

variable {s s' : ExportSys}

section
variable (inv : Paired s)
include inv

/-- A step that moves requests along and touches neither ring nor worker. -/
theorem Paired.stay {t : ExportSys} (worker : t.worker = s.worker)
    (pending : t.ex.pending = s.ex.pending) (out : t.outstanding = s.outstanding)
    (sent : t.sent = s.sent) : Paired t := by
  refine ⟨?_, ?_, ?_⟩
  · rw [worker, pending, out]
    exact inv.aligned
  · rw [worker]
    exact inv.building
  · rw [sent]
    exact inv.sent

theorem Paired.emit {f : Sent} (hit : f.Matches) : Paired { s with sent := s.sent ++ [f] } :=
  ⟨inv.aligned, inv.building,
    forall_mem_append.mpr ⟨inv.sent, forall_mem_singleton.mpr hit⟩⟩

theorem Paired.sendError (dst : NodeId) (txid serveHash errno : BitVec 32) :
    Paired (s.sendError dst txid serveHash errno) := by
  unfold ExportSys.sendError
  split
  · next frame ok =>
    refine inv.emit fun reply => ?_
    rw [read_frameEncode ok] at reply
    have other : typeError ≠ typeCallReply := by decide
    exact absurd reply other
  · exact inv

omit inv in
theorem pending_revoke (ex : Export) : ex.revoke.pending = ex.pending := by
  unfold Export.revoke
  split <;> rfl

theorem Paired.revoke : Paired { s with ex := s.ex.revoke } :=
  inv.stay rfl (pending_revoke s.ex) rfl rfl

end

theorem bySlot_eq_some {slot : BitVec 32} {ex : Export} (found : s.bySlot slot = some ex) :
    ex = s.ex := by
  unfold ExportSys.bySlot at found
  split at found
  · exact (some_inj.mp found).symm
  · cases found

end Steps

namespace ExportSys

/-- The CALL gets a pairing. -/
def accepts (s : ExportSys) (h : Header) : Bool :=
  h.type = typeCall ∧ (s.bySlot h.dstSlot).isSome ∧ s.ex.flags &&& exportLocalOnly = 0 ∧
    (s.dedup.seen h.srcHash h.txid).1 = false ∧ s.ex.pending.count < exportPending

/-- The worker takes a reply without data from the queue. -/
def skipsReply (s : ExportSys) (fail : Bool) : Bool :=
  match s.worker, fail, s.replies with
  | .recv, false, reply :: _ => reply.handles = 0 ∧ reply.data = []
  | _, _, _ => false

/-- A CALL is accepted only when every outstanding request has its pairing; a reply is
skipped, or a request left unanswered, only when there are no pairings. -/
def allowed (s : ExportSys) : ExportLabel → Bool
  | .frame _ h _ => s.accepts h = false ∨ s.outstanding.length = s.ex.pending.count
  | .worker fail _ => s.skipsReply fail = false ∨ s.ex.pending.count = 0
  | .serverSkip => s.ex.pending.count = 0
  | .inject _ | .serverRecv | .serverReply .. | .serverClose | .revoke => true

end ExportSys

section Runs

variable {s s' : ExportSys}

theorem accepts_iff : s.accepts h = true ↔
    h.type = typeCall ∧ (s.bySlot h.dstSlot).isSome = true ∧ s.ex.flags &&& exportLocalOnly = 0 ∧
      (s.dedup.seen h.srcHash h.txid).1 = false ∧ s.ex.pending.count < exportPending :=
  decide_eq_true_iff

/-- A full ring takes no pairing; otherwise it goes to the end. -/
theorem pushPending_eq_some {ex ex' : Export} {src : NodeId} {txid serveHash : BitVec 32}
    (pushed : ex.pushPending src txid serveHash = some ex') :
    ex.pending.count < exportPending ∧ ex'.peer = ex.peer ∧
      ex'.pending.toList = ex.pending.toList ++ [⟨src, txid, serveHash⟩] := by
  obtain ⟨ring, grown, rfl⟩ := map_eq_some_iff.mp pushed
  refine ⟨?_, rfl, Ring.toList_push grown⟩
  by_contra full
  rw [Ring.push, dif_neg full] at grown
  cases grown

/-- The receive thread is between two frames, so a request it accepts comes last. -/
theorem outstanding_of_idle (idle : s.rx = .idle) :
    s.outstanding = s.worker.held ++ (s.replies.map Reply.answers ++ (s.taken ++ s.requests)) := by
  rw [ExportSys.outstanding, idle, RxThread.held, append_nil]

section
variable (inv : Paired s)
include inv

theorem Paired.exportRx {src : NodeId} {payload : List Byte} (idle : s.rx = .idle)
    (allowed : s.accepts h = false ∨ s.outstanding.length = s.ex.pending.count) :
    Paired (s.exportRx src h payload) := by
  unfold ExportSys.exportRx
  by_cases close : h.type = typeClose
  · rw [if_pos close]
    cases found : s.bySlot h.dstSlot with
    | none => exact inv
    | some ex =>
      obtain rfl := bySlot_eq_some found
      exact ⟨.inr (.inl (Ring.toList_clear _)), inv.building, inv.sent⟩
  rw [if_neg close]
  by_cases call : h.type = typeCall
  swap
  · rw [if_pos call]
    exact inv
  rw [if_neg (not_not.mpr call)]
  cases found : s.bySlot h.dstSlot with
  | none => exact inv.sendError ..
  | some ex =>
  obtain rfl := bySlot_eq_some found
  dsimp only
  by_cases pinned : s.ex.flags &&& exportLocalOnly = 0
  swap
  · rw [if_pos pinned]
    exact inv.sendError ..
  rw [if_neg (not_not.mpr pinned)]
  rcases window : s.dedup.seen h.srcHash h.txid with ⟨_ | _, dedup⟩
  swap
  · exact inv.stay rfl rfl rfl rfl
  cases pushed : s.ex.pushPending src h.txid h.dstHash with
  | none => exact inv.stay rfl rfl rfl rfl
  | some ex =>
  obtain ⟨room, peer, grown⟩ := pushPending_eq_some pushed
  have accepted : s.accepts h = true :=
    accepts_iff.mpr ⟨call, by rw [found]; rfl, pinned, by rw [window], room⟩
  have same : s.outstanding.length = s.ex.pending.toList.length := by
    rw [Ring.length_toList]
    exact allowed.resolve_left fun no => Bool.false_ne_true (no.symm.trans accepted)
  dsimp only
  by_cases held : ex.peer.isSome = true
  · rw [if_pos held]
    refine ⟨inv.aligned.imp_right fun aligned => ?_, inv.building, inv.sent⟩
    have grows := aligned.push same ⟨src, h, payload⟩
    rw [outstanding_of_idle idle] at grows
    simpa only [Export.noteCaller, grown, ExportSys.outstanding, RxThread.held,
      append_assoc, Request.entry] using grows
  · rw [if_neg held]
    refine Paired.sendError ?_ ..
    refine ⟨inv.aligned.imp_right fun aligned => ?_, inv.building, inv.sent⟩
    rw [pending_revoke, Export.noteCaller, grown]
    exact aligned.push_unserved same

theorem Paired.inject {ok : Bool} (went : s.inject ok = some s') : Paired s' := by
  unfold ExportSys.inject at went
  cases thread : s.rx with
  | idle =>
    rw [thread] at went
    cases went
  | inject req =>
    rw [thread] at went
    dsimp only at went
    cases ok with
    | true =>
      rw [if_pos rfl] at went
      split at went
      · cases went
        refine inv.stay rfl rfl ?_ rfl
        simp only [ExportSys.outstanding, thread, RxThread.held, append_nil]
      · cases went
    | false =>
      cases went
      refine Paired.sendError ?_ ..
      refine ⟨inv.aligned.imp_right fun aligned => ?_, inv.building, inv.sent⟩
      have whole :
          s.outstanding = { s with rx := .idle, ex := s.ex.revoke }.outstanding ++ [req] := by
        simp only [ExportSys.outstanding, thread, RxThread.held, append_assoc, append_nil]
      rw [whole] at aligned
      simpa only [pending_revoke] using aligned.withdraw

theorem Paired.serverRecv (went : s.serverRecv = some s') : Paired s' := by
  unfold ExportSys.serverRecv at went
  split at went
  · next req rest queued =>
    split at went
    · cases went
      refine inv.stay rfl rfl ?_ rfl
      simp only [ExportSys.outstanding, queued, append_assoc, cons_append, nil_append]
    · cases went
  · cases went

theorem Paired.serverReply {data : List Byte} {handles : Nat}
    (went : s.serverReply data handles = some s') : Paired s' := by
  unfold ExportSys.serverReply at went
  split at went
  · next req rest has =>
    split at went
    · cases went
      refine inv.stay rfl rfl ?_ rfl
      simp only [ExportSys.outstanding, has, map_append, map_cons, map_nil,
        append_assoc, cons_append, nil_append]
    · cases went
  · cases went

theorem Paired.serverSkip (went : s.serverSkip = some s')
    (allowed : s.ex.pending.count = 0) : Paired s' := by
  unfold ExportSys.serverSkip at went
  split at went
  · split at went
    · cases went
      exact ⟨.inr (.inl (Ring.toList_eq_nil allowed)), inv.building, inv.sent⟩
    · cases went
  · cases went

/-! ### The worker -/

theorem Paired.workerExit : Paired s.workerExit :=
  ⟨.inl rfl, nofun, inv.sent⟩

theorem Paired.awake {stage : Worker} (here : s.worker = stage)
    (awake : stage ≠ .exited) : Aligned s.ex.pending.toList s.outstanding :=
  inv.aligned.resolve_left fun exited => awake (here.symm.trans exited)

/-- The worker goes on, and the requests it has in hand or in the queue are the same. -/
theorem Paired.turn {stage next : Worker} {queue : List Reply} (here : s.worker = stage)
    (awake : stage ≠ .exited) (unbuilt : ∀ entry reply, next ≠ .build entry reply)
    (same : next.held ++ queue.map Reply.answers = stage.held ++ s.replies.map Reply.answers) :
    Paired { s with worker := next, replies := queue } := by
  refine ⟨.inr ?_, fun entry reply built => absurd built (unbuilt entry reply), inv.sent⟩
  have aligned := inv.awake here awake
  rw [ExportSys.outstanding, here, ← append_assoc, ← same] at aligned
  rw [ExportSys.outstanding, ← append_assoc]
  exact aligned

variable {mem : Bool}

theorem Paired.workerRecv (receives : s.worker = .recv) {fail : Bool}
    (went : s.workerRecv fail mem = some s')
    (allowed : s.skipsReply fail = false ∨ s.ex.pending.count = 0) : Paired s' := by
  unfold ExportSys.workerRecv at went
  cases fail with
  | true =>
    cases went
    exact inv.workerExit
  | false =>
    rw [if_neg Bool.false_ne_true] at went
    split at went
    · split at went
      · cases went
      · cases went
        exact inv.workerExit
    · next reply rest queued =>
      obtain ⟨-, ⟨⟩⟩ | ⟨handles, went⟩ := ite_eq_iff.mp went
      · exact inv.workerExit
      obtain ⟨empty, ⟨⟩⟩ | ⟨-, went⟩ := ite_eq_iff.mp went
      · have skips : s.skipsReply false = true := by
          simp only [ExportSys.skipsReply, receives, queued, empty, Nat.eq_zero_of_not_pos handles]
          rfl
        have cleared : s.ex.pending.count = 0 := allowed.resolve_left fun no =>
          Bool.false_ne_true (no.symm.trans skips)
        exact ⟨.inr (.inl (Ring.toList_eq_nil cleared)), nofun, inv.sent⟩
      cases mem with
      | true =>
        cases went
        refine inv.turn receives nofun nofun ?_
        rw [queued]
        rfl
      | false =>
        cases went
        exact inv.turn receives nofun nofun rfl

/-- The oldest pairing belongs to the reply in hand. -/
theorem Paired.workerPair {reply : Reply} (in_hand : s.worker = .pair reply) :
    Paired (s.workerPair reply) := by
  have aligned : Aligned s.ex.pending.toList
      (reply.answers :: { s with worker := .check }.outstanding) := by
    have whole := inv.awake in_hand nofun
    rw [ExportSys.outstanding, in_hand] at whole
    exact whole
  unfold ExportSys.workerPair
  split
  · exact inv.workerExit
  cases popped : s.ex.popPending with
  | none =>
    have empty : s.ex.pending.toList = [] :=
      Ring.pop_eq_none (map_eq_none_iff.mp popped)
    exact ⟨.inr (.inl empty), nofun, inv.sent⟩
  | some taken =>
    obtain ⟨⟨entry, ring⟩, first, rfl⟩ := map_eq_some_iff.mp popped
    rw [Ring.toList_pop first] at aligned
    obtain ⟨mine, rest⟩ := aligned.pop
    refine ⟨.inr rest, ?_, inv.sent⟩
    rintro entry' reply' built
    cases built
    exact mine

theorem Paired.workerBuild {entry : PendingReq} {reply : Reply}
    (in_hand : s.worker = .build entry reply) : Paired (s.workerBuild entry reply mem) := by
  have top : Paired { s with worker := .check } :=
    inv.turn in_hand nofun nofun rfl
  unfold ExportSys.workerBuild
  split
  · split
    · next frame ok =>
      refine top.emit fun _ => ⟨reply.answers, rfl, ?_⟩
      rw [read_frameEncode ok, inv.building entry reply in_hand]
      exact ⟨rfl, rfl, rfl⟩
    · exact top
  · exact top

theorem Paired.workerStep {fail : Bool} (went : s.workerStep fail mem = some s')
    (allowed : s.skipsReply fail = false ∨ s.ex.pending.count = 0) : Paired s' := by
  unfold ExportSys.workerStep at went
  cases stage : s.worker <;> rw [stage] at went
  case check =>
    dsimp only at went
    split at went
    · cases went
      exact inv.turn stage nofun nofun rfl
    · cases went
      exact inv.workerExit
  case recv =>
    exact inv.workerRecv stage went allowed
  case pair reply =>
    cases went
    exact inv.workerPair stage
  case build entry reply =>
    cases went
    exact inv.workerBuild stage
  case exited =>
    cases went

/-! ### Runs -/

theorem Paired.step {l : ExportLabel} (allowed : s.allowed l = true)
    (taken : s.step l = some s') : Paired s' := by
  cases l with
  | frame src h payload =>
    simp only [ExportSys.step] at taken
    split at taken
    · next idle =>
      cases taken
      exact inv.exportRx idle (of_decide_eq_true allowed)
    · cases taken
  | inject ok => exact inv.inject taken
  | serverRecv => exact inv.serverRecv taken
  | serverReply data handles => exact inv.serverReply taken
  | serverSkip => exact inv.serverSkip taken (of_decide_eq_true allowed)
  | serverClose =>
    cases taken
    exact inv.stay rfl rfl rfl rfl
  | worker fail mem => exact inv.workerStep taken (of_decide_eq_true allowed)
  | revoke =>
    cases taken
    exact inv.revoke

end

theorem init_paired (slot flags : BitVec 32) (peer cap : Nat) (dedup : Dedup) :
    Paired (.init slot flags peer cap dedup) :=
  ⟨.inr (.inl rfl), nofun, nofun⟩

/-- Every CALL_REPLY the export sends goes to the node of the CALL it answers and
carries its transaction id. -/
theorem reply_pairing {slot flags : BitVec 32} {peer cap : Nat} {dedup : Dedup}
    (run : RunsTo ExportSys.step (fun s l => s.allowed l = true)
      (.init slot flags peer cap dedup) s) :
    ∀ f ∈ s.sent, (Header.read f.frame).type = typeCallReply →
      ∃ r, f.answers = some r ∧ f.dst = r.src ∧ (Header.read f.frame).txid = r.hdr.txid ∧
        (Header.read f.frame).dstHash = nodeHash r.src :=
  (run.invariant (fun inv allowed taken => inv.step allowed taken)
    (init_paired slot flags peer cap dedup)).sent

end Runs

/-! ### Samples -/

def callerA : NodeId := .replicate 16 1
def callerB : NodeId := .replicate 16 2

/-- A frame without payload for slot 1. -/
def sampleHeader (type : BitVec 8) (src : NodeId) (txid : BitVec 32) : Header where
  ver := wireVer
  type
  flags := 0
  frag := 0
  txid
  srcHash := nodeHash src
  dstHash := 0
  dstSlot := 1
  seq := 0
  payloadLen := 0
  ttl := ttlDefault
  csumKind := csumCcitt

def sampleExport : ExportSys := .init 1 0 0 64 ⟨.replicate 64 (0, 0), ⟨0, by decide⟩⟩

def sampleCall (src : NodeId) (txid : BitVec 32) : List ExportLabel :=
  [.frame src (sampleHeader typeCall src txid) [], .inject true]

/-- The server answers a request, and the worker takes the reply and sends it off. -/
def sampleAnswer : List ExportLabel :=
  [.serverRecv, .serverReply [42] 0, .worker false true, .worker false true, .worker false true,
    .worker false true]

theorem reply_pairing_answered : ∃ s f, RunsTo ExportSys.step (fun s l => s.allowed l = true)
    sampleExport s ∧ f ∈ s.sent ∧ (Header.read f.frame).type = typeCallReply ∧
      ∃ r, f.answers = some r ∧ f.dst = r.src ∧ (Header.read f.frame).txid = r.hdr.txid ∧
        (Header.read f.frame).dstHash = nodeHash r.src := by
  obtain ⟨s, run, f, member, reply⟩ : ∃ s, RunsTo ExportSys.step (fun s l => s.allowed l = true)
      sampleExport s ∧ ∃ f ∈ s.sent, (Header.read f.frame).type = typeCallReply :=
    runsTo_of_execWhile (sampleCall callerA 1 ++ sampleCall callerB 2 ++ sampleAnswer ++
      sampleAnswer)
      (by decide +kernel)
  exact ⟨s, f, run, member, reply, reply_pairing run f member reply⟩

/-- A CLOSE of one caller drops the pairing of another one, whose reply then goes to the
next caller. -/
theorem close_misroutes_reply : ∃ s f, RunsTo ExportSys.step always sampleExport s ∧
    f ∈ s.sent ∧ (Header.read f.frame).type = typeCallReply ∧
      ∃ r, f.answers = some r ∧ r.src = callerA ∧ f.dst = callerB ∧
        (Header.read f.frame).txid ≠ r.hdr.txid := by
  obtain ⟨s, run, f, member, type, answers, dst, txid⟩ : ∃ s,
    RunsTo ExportSys.step always sampleExport
      s ∧ ∃ f ∈ s.sent, (Header.read f.frame).type = typeCallReply ∧
        f.answers = some ⟨callerA, sampleHeader typeCall callerA 1, []⟩ ∧ f.dst = callerB ∧
          (Header.read f.frame).txid = 2 :=
    runsTo_of_exec (sampleCall callerA 1 ++
      [.frame callerB (sampleHeader typeClose callerB 0) []] ++
      sampleCall callerB 2 ++ sampleAnswer) (by decide +kernel)
  refine ⟨s, f, run, member, type, _, answers, rfl, dst, ?_⟩
  rw [txid]
  exact (by decide : (2 : BitVec 32) ≠ 1)

end A20OS.Cluster
