import A20OS.Cluster.Proxy

/-!
How long a slot of the proxy table belongs to a connection.

The creation takes a slot that is not in use, though the worker of its last connection may
not be gone and would go on with the slot of the next. The worker does not look at `in_use`
again before it enters a call, when there may be no array. A creation that gets no memory for
the array leaves a slot in use whose endpoint it has released.

Where none of this happens (`careful`), the endpoint of a slot is set as long as the one
thread of that connection has not given the slot up. All else follows from that.
-/

namespace A20OS.Cluster.ProxySys

open Lib Function

variable {cfg : Config} {s s' : ProxySys cfg} {c : Nat} {p : Proxy} {t : ProxyThread cfg}
  {i : Fin cfg.remoteEps}

/-! ### The condition -/

/-- The slot has no endpoint, and no creator has its array still to free. -/
def vacant (s : ProxySys cfg) (i : Fin cfg.remoteEps) : Bool :=
  (s.proxies i).ep.isNone && (List.range s.nextConn).all fun c => s.threads c ≠ some ⟨i, .freeing⟩

/-- A creation that takes a slot takes a vacant one and gets its array; a call is only
entered while the proxy is in use. -/
def careful (s : ProxySys cfg) : Label cfg → Bool
  | .create _ _ reliable pair mem =>
      reliable &&& 1 ≠ 0 || !pair || s.freeProxy.all fun i => mem && s.vacant i
  | .thread c _ =>
      match s.threads c with
      | some ⟨i, .register _⟩ => (s.proxies i).inUse
      | _ => true
  | _ => true

/-! ### The invariant -/

structure Inv (s : ProxySys cfg) : Prop where
  fault : s.fault = false
  fresh : ∀ c, s.nextConn ≤ c → s.threads c = none ∧ s.dropped c = 0
  /-- The slot a thread works on points to the endpoint of its connection. -/
  held : ∀ c t, s.threads c = some t → t.pc ≠ .freeing → (s.proxies t.slot).ep = some c
  owned : ∀ i c, (s.proxies i).ep = some c → ∃ t, s.threads c = some t ∧ t.slot = i
  live : ∀ i, (s.proxies i).inUse = true →
    (∃ c, (s.proxies i).ep = some c) ∧ ∃ es, (s.proxies i).inflight = .array es
  exiting : ∀ c t, s.threads c = some t → t.pc = .exiting → (s.proxies t.slot).inUse = false
  freeing : ∀ c t, s.threads c = some t → t.pc = .freeing → (s.proxies t.slot).ep = none
  sound : ∀ c t, s.threads c = some t → (s.proxies t.slot).inflight ≠ .freed
  alone : ∀ c t c' t', s.threads c = some t → s.threads c' = some t' → t.slot = t'.slot → c = c'
  drops : ∀ c, c < s.nextConn → s.dropped c = if (s.threads c).isSome then 0 else 1

theorem inv_initial : Inv ({} : ProxySys cfg) where
  fault := rfl
  fresh _ _ := ⟨rfl, rfl⟩
  held _ _ := nofun
  owned _ _ := nofun
  live _ := nofun
  exiting _ _ := nofun
  freeing _ _ := nofun
  sound _ _ := nofun
  alone _ _ _ _ := nofun
  drops _ := nofun

theorem Inv.known (inv : Inv s) (at' : s.threads c = some t) : c < s.nextConn := by
  by_contra later
  have none := (inv.fresh c (not_lt.mp later)).1
  rw [none] at at'
  cases at'

theorem Inv.vacant_iff (inv : Inv s) (i : Fin cfg.remoteEps) :
    s.vacant i = true ↔ ∀ c t, s.threads c = some t → t.slot ≠ i := by
  unfold vacant
  rw [Bool.and_eq_true, Option.isNone_iff_eq_none, List.all_eq_true]
  constructor
  · rintro ⟨gone, idle⟩ c t at' rfl
    by_cases undoing : t.pc = .freeing
    · have not := of_decide_eq_true (idle c (List.mem_range.mpr (inv.known at')))
      rw [at', ← undoing] at not
      exact not rfl
    · rw [inv.held c t at' undoing] at gone
      cases gone
  · intro idle
    constructor
    · cases points : (s.proxies i).ep with
      | none => rfl
      | some c =>
        obtain ⟨t, at', here⟩ := inv.owned i c points
        exact absurd here (idle c t at')
    · intro c _
      exact decide_eq_true fun at' => idle c _ at' rfl

/-! ### What the steps do -/

/-- Nothing the invariant is about has changed: an array may have other entries. -/
structure Alike (s s' : ProxySys cfg) : Prop where
  fault : s'.fault = s.fault
  threads : s'.threads = s.threads
  nextConn : s'.nextConn = s.nextConn
  dropped : s'.dropped = s.dropped
  inUse : ∀ i, (s'.proxies i).inUse = (s.proxies i).inUse
  ep : ∀ i, (s'.proxies i).ep = (s.proxies i).ep
  inflight : ∀ i, (s'.proxies i).inflight = (s.proxies i).inflight ∨
    (∃ es, (s.proxies i).inflight = .array es) ∧ ∃ es, (s'.proxies i).inflight = .array es

theorem Inv.alike (inv : Inv s) (alike : Alike s s') : Inv s' := by
  obtain ⟨fault, threads, nextConn, dropped, inUse, ep, inflight⟩ := alike
  constructor
  · exact fault.trans inv.fault
  · rw [threads, nextConn, dropped]
    exact inv.fresh
  · intro c t
    rw [threads, ep]
    exact inv.held c t
  · intro i c
    rw [threads, ep]
    exact inv.owned i c
  · intro i used
    rw [inUse] at used
    rw [ep]
    obtain ⟨owner, es, array⟩ := inv.live i used
    refine ⟨owner, ?_⟩
    rcases inflight i with same | ⟨-, array'⟩
    · exact ⟨es, same.trans array⟩
    · exact array'
  · intro c t
    rw [threads, inUse]
    exact inv.exiting c t
  · intro c t
    rw [threads, ep]
    exact inv.freeing c t
  · intro c t at'
    rw [threads] at at'
    rcases inflight t.slot with same | ⟨-, es, array⟩
    · rw [same]
      exact inv.sound c t at'
    · rw [array]
      exact nofun
  · rw [threads]
    exact inv.alone
  · rw [threads, nextConn, dropped]
    exact inv.drops

theorem Inv.shutdown (inv : Inv s) (i : Fin cfg.remoteEps) :
    Inv (s.shutdown i) ∧ ((s.shutdown i).proxies i).inUse = false ∧
      (s.shutdown i).threads = s.threads := by
  unfold ProxySys.shutdown
  by_cases used : (s.proxies i).inUse = true
  · rw [if_pos used]
    cases inv
    refine ⟨?_, by simp [setProxy], rfl⟩
    unfold setProxy
    constructor <;> simp only [update_apply] <;> grind
  · rw [if_neg used]
    exact ⟨inv, by simpa using used, rfl⟩

section
variable (inv : Inv s) (at' : s.threads c = some t)
include inv at'

/-- A thread that works on its slot goes on; it only leaves its loop when the proxy is down. -/
theorem Inv.goto (mine : t.pc ≠ .freeing) {pc : ProxyPc} (stays : pc ≠ .freeing)
    (leaves : pc = .exiting → (s.proxies t.slot).inUse = false) : Inv (s.goto c t pc) := by
  cases inv
  unfold ProxySys.goto setThread
  constructor <;> simp only [update_apply] <;> grind

theorem Inv.stays (mine : t.pc ≠ .freeing) {pc : ProxyPc} (inside : pc ≠ .freeing ∧ pc ≠ .exiting) :
    Inv (s.goto c t pc) :=
  inv.goto at' mine inside.1 fun leaves => absurd leaves inside.2

/-- The worker ends: the endpoint its slot points to is its own. -/
theorem Inv.workerExit (leaves : t.pc = .exiting) : Inv (s.workerExit c t) := by
  have mine := inv.held c t at' (by simp [leaves])
  unfold ProxySys.workerExit
  simp only [mine]
  cases inv
  unfold drop setThread setProxy
  constructor <;> simp only [update_apply] <;> grind

theorem Inv.unwind (mine : t.pc ≠ .freeing) : Inv (s.unwind c t) := by
  cases inv
  unfold ProxySys.unwind ProxySys.goto setThread setProxy
  constructor <;> simp only [update_apply] <;> grind

theorem Inv.freeArray (undoing : t.pc = .freeing) : Inv (s.freeArray c t) := by
  have intact := inv.sound c t at'
  cases inv
  unfold ProxySys.freeArray drop setThread setProxy
  cases array : (s.proxies t.slot).inflight with
  | null | array =>
    simp only [array]
    constructor <;> simp only [update_apply] <;> grind
  | freed => exact absurd array intact

end

theorem vacant_of_careful {node : NodeId} {slot reliable : BitVec 32} {pair mem : Bool}
    (careful : s.careful (.create node slot reliable pair mem) = true)
    (accepted : reliable &&& 1 = 0) (made : pair = true) (free : s.freeProxy = some i) :
    mem = true ∧ s.vacant i = true := by
  change (decide (reliable &&& 1 ≠ 0) || !pair || s.freeProxy.all _) = true at careful
  rw [decide_eq_false (not_not_intro accepted), made, free] at careful
  simpa using careful

theorem Inv.create (inv : Inv s) {node : NodeId} {slot reliable : BitVec 32} {pair mem : Bool}
    (careful : s.careful (.create node slot reliable pair mem) = true) :
    Inv (s.create node slot reliable pair mem).1 := by
  unfold ProxySys.create
  by_cases refused : reliable &&& 1 ≠ 0
  · rw [if_pos refused]
    exact inv
  rw [if_neg refused]
  by_cases made : pair = true
  · rw [if_neg (not_not_intro made)]
    have accepted : reliable &&& 1 = 0 := not_not.mp refused
    cases free : s.freeProxy with
    | none =>
      have free' : ProxySys.freeProxy { s with nextConn := s.nextConn + 1 } = none := free
      simp only [free']
      cases inv
      unfold drop
      constructor <;> simp only [update_apply] <;> grind
    | some i =>
      have free' : ProxySys.freeProxy { s with nextConn := s.nextConn + 1 } = some i := free
      obtain ⟨got, vacant⟩ := vacant_of_careful careful accepted made free
      have idle := (inv.vacant_iff i).mp vacant
      simp only [free', got, if_true]
      obtain ⟨fault, fresh, held, owned, live, exiting, freeing, sound, alone, drops⟩ := inv
      unfold setThread setProxy
      constructor
      case owned =>
        intro j c
        simp only [update_apply]
        by_cases here : j = i
        · rw [if_pos here, here]
          rintro ⟨⟩
          exact ⟨_, if_pos rfl, rfl⟩
        rw [if_neg here]
        intro points
        obtain ⟨t, at', slot⟩ := owned j c points
        have old : c ≠ s.nextConn := by
          rintro rfl
          rw [(fresh s.nextConn le_rfl).1] at at'
          cases at'
        exact ⟨t, by rw [if_neg old]; exact at', slot⟩
      all_goals simp only [update_apply]; grind
  · rw [if_pos made]
    exact inv

/-! ### Steps that leave slots and threads alone -/

theorem alike_doom (found : Option (Fin cfg.remoteEps)) : Alike s (s.doom found) := by
  cases found with
  | none | some => exact ⟨rfl, rfl, rfl, rfl, fun _ => rfl, fun _ => rfl, fun _ => .inl rfl⟩

/-- Writing back a proxy that differs in the entries of its array. -/
theorem alike_setProxy (i : Fin cfg.remoteEps) (inUse : p.inUse = (s.proxies i).inUse)
    (ep : p.ep = (s.proxies i).ep)
    (inflight : p.inflight = (s.proxies i).inflight ∨
      (∃ es, (s.proxies i).inflight = .array es) ∧ ∃ es, p.inflight = .array es) :
    Alike s (s.setProxy i p) := by
  refine ⟨rfl, rfl, rfl, rfl, fun j => ?_, fun j => ?_, fun j => ?_⟩
  all_goals
    by_cases here : j = i
    · subst here
      simpa [setProxy]
    · simp [setProxy, here]

theorem alike_complete (i : Fin cfg.remoteEps) (txid : BitVec 32) :
    Alike s (s.setProxy i ((s.proxies i).complete txid)) := by
  unfold Proxy.complete
  cases array : (s.proxies i).inflight with
  | array es =>
    dsimp only
    cases completeCall txid es with
    | none => exact alike_setProxy i rfl rfl (.inl array.symm)
    | some es' => exact alike_setProxy i rfl rfl (.inr ⟨⟨es, array⟩, es', rfl⟩)
  | null | freed => exact alike_setProxy i rfl rfl (.inl array.symm)

/-- A proxy in use has an array, so the search for a call reads no other memory. -/
theorem Inv.byTxidIn (inv : Inv s) (srcHash txid : BitVec 32) (is : List (Fin cfg.remoteEps)) :
    ∃ found, s.byTxidIn srcHash txid is = some found := by
  induction is with
  | nil => exact ⟨none, rfl⟩
  | cons i is ih =>
    unfold ProxySys.byTxidIn
    by_cases skip : ¬(s.proxies i).inUse = true ∨ nodeHash (s.proxies i).peerNode ≠ srcHash
    · rw [if_pos skip]
      exact ih
    rw [if_neg skip]
    rw [not_or, not_not] at skip
    obtain ⟨-, es, array⟩ := inv.live i skip.1
    have entries : (s.proxies i).entries = some es := by simp [Proxy.entries, array]
    rw [entries]
    dsimp only
    split
    · exact ⟨some i, rfl⟩
    · exact ih

theorem Inv.proxyRx (inv : Inv s) (src : NodeId) (h : Header) : Inv (s.proxyRx src h) := by
  unfold ProxySys.proxyRx
  split
  · exact inv
  obtain ⟨called, found⟩ := inv.byTxidIn (nodeHash src) h.txid (List.finRange cfg.remoteEps)
  rw [byTxid, found]
  dsimp only
  split
  · exact inv
  · next i _ =>
    split
    · exact inv.alike (alike_complete i h.txid)
    · exact inv.alike (alike_doom (some i))

theorem alike_inflightAdd {txid : BitVec 32} {deadline : BitVec 64} {r : Except Status Unit}
    (array : ∃ es, (s.proxies i).inflight = .array es)
    (added : (s.proxies i).inflightAdd txid deadline = some (p, r)) : Alike s (s.setProxy i p) := by
  obtain ⟨es, array⟩ := array
  have entries : (s.proxies i).entries = some es := by simp [Proxy.entries, array]
  unfold Proxy.inflightAdd at added
  split at added
  · cases added
    exact alike_setProxy i rfl rfl (.inl rfl)
  rw [entries, Option.map_some] at added
  split at added
  · cases added
    exact alike_setProxy i rfl rfl (.inl rfl)
  · next es' _ =>
    cases added
    exact alike_setProxy i rfl rfl (.inr ⟨⟨es, array⟩, es', rfl⟩)

/-- An allocated array can be written. -/
theorem inflightAdd_isSome (array : ∃ es, p.inflight = .array es) (txid : BitVec 32)
    (deadline : BitVec 64) : ∃ added, p.inflightAdd txid deadline = some added := by
  obtain ⟨es, array⟩ := array
  have entries : p.entries = some es := by simp [Proxy.entries, array]
  unfold Proxy.inflightAdd
  split
  · exact ⟨_, rfl⟩
  · rw [entries]
    exact ⟨_, rfl⟩

theorem Inv.register (inv : Inv s) (at' : s.threads c = some t)
    (mine : t.pc ≠ .freeing) (used : (s.proxies t.slot).inUse = true) (msg : List Byte)
    (now : BitVec 64) : Inv (s.register c t msg now) := by
  have array := (inv.live t.slot used).2
  have back : Inv (s.goto c t .check) := inv.stays at' mine (by simp)
  have next : Inv { s.goto c t .check with txidNext := s.txidNext + 1 } :=
    back.alike ⟨rfl, rfl, rfl, rfl, fun _ => rfl, fun _ => rfl, fun _ => .inl rfl⟩
  unfold ProxySys.register
  dsimp only
  split
  · exact next
  · obtain ⟨⟨p, r⟩, added⟩ := inflightAdd_isSome array s.txidNext (now + cfg.callTicks)
    rw [added]
    exact next.alike (alike_inflightAdd array added)

theorem Inv.threadStep (inv : Inv s) {input : Input} (at' : s.threads c = some t)
    (careful : s.careful (.thread c input) = true) : Inv (s.threadStep c t input) := by
  unfold ProxySys.threadStep
  cases pc : t.pc with
  | spawning =>
    dsimp only
    split
    · exact inv.stays at' (by simp [pc]) (by simp)
    · exact inv.unwind at' (by simp [pc])
  | freeing => exact inv.freeArray at' pc
  | check =>
    have mine := inv.held c t at' (by simp [pc])
    dsimp only
    split
    · exact inv.stays at' (by simp [pc]) (by simp)
    · next down =>
      refine inv.goto at' (by simp [pc]) (by simp) fun _ => ?_
      simpa [mine] using down
  | recv =>
    dsimp only
    split
    all_goals exact inv.stays at' (by simp [pc]) (by simp)
  | failed =>
    dsimp only
    split
    · exact inv.stays at' (by simp [pc]) (by simp)
    · next down => exact inv.goto at' (by simp [pc]) (by simp) fun _ => by simpa using down
  | closing =>
    obtain ⟨inv', down, threads⟩ := inv.shutdown t.slot
    exact inv'.goto (threads ▸ at') (by simp [pc]) (by simp) fun _ => down
  | received msg =>
    dsimp only
    split_ifs
    all_goals exact inv.stays at' (by simp [pc]) (by simp)
  | register msg =>
    obtain ⟨i, pc'⟩ := t
    subst pc
    have used : (s.proxies i).inUse = true := by simpa [ProxySys.careful, at'] using careful
    exact inv.register at' (by simp) used msg input.now
  | exiting => exact inv.workerExit at' pc

theorem step_inv {l : Label cfg} (inv : Inv s) (careful : s.careful l = true)
    (taken : s.step l = some s') : Inv s' := by
  unfold step at taken
  rw [if_neg (by simp [inv.fault])] at taken
  cases l with
  | frame src h =>
    cases taken
    exact inv.proxyRx src h
  | nodeDown | deadlineScan =>
    cases taken
    exact inv.alike (alike_doom _)
  | shutdown i =>
    dsimp only at taken
    split at taken
    · cases taken
      have inv' : Inv { s with doomed := s.doomed.erase i } :=
        inv.alike ⟨rfl, rfl, rfl, rfl, fun _ => rfl, fun _ => rfl, fun _ => .inl rfl⟩
      exact (inv'.shutdown i).1
    · cases taken
  | create node slot reliable pair mem =>
    cases taken
    exact inv.create careful
  | thread c input =>
    obtain ⟨t, at', rfl⟩ := Option.map_eq_some_iff.mp taken
    exact inv.threadStep at' careful

/-! ### Runs -/

/-- In every run of careful steps no invalid pointer is used, and in every state of it: a
thread works on a slot as long as the slot points to the endpoint of its connection; a
slot that is not in use can be given to a new connection without a thread of the last one
on it exactly if it is vacant; a worker about to enter a call finds a live proxy with an
array exactly if the proxy is still in use; and the endpoint of a connection has been
released once if the thread of the connection is gone, and not yet otherwise. -/
theorem run_proxies (run : RunsTo step (fun s l => s.careful l = true) ({} : ProxySys cfg) s) :
    s.fault = false ∧
    (∀ c t, s.threads c = some t → t.pc ≠ .freeing → (s.proxies t.slot).ep = some c) ∧
    (∀ i, s.freeProxy = some i →
      ((∀ c t, s.threads c = some t → t.slot ≠ i) ↔ s.vacant i = true)) ∧
    (∀ c t msg, s.threads c = some t → t.pc = .register msg →
      ((s.proxies t.slot).inUse = true ∧ (∃ es, (s.proxies t.slot).inflight = .array es) ↔
        (s.proxies t.slot).inUse = true)) ∧
    ∀ c, c < s.nextConn → s.dropped c = if (s.threads c).isSome then 0 else 1 := by
  have inv : Inv s := run.invariant step_inv inv_initial
  refine ⟨inv.fault, inv.held, fun i _ => (inv.vacant_iff i).symm, fun c t msg _ _ => ?_, inv.drops⟩
  exact ⟨And.left, fun used => ⟨used, (inv.live t.slot used).2⟩⟩

/-- Two slots, one call in flight each. -/
def twoSlots : Config := ⟨2, 1, .replicate 16 1, 30000⟩

def firstProxy : Fin twoSlots.remoteEps := ⟨0, by decide⟩

/-- Connect, call, get the reply; the node goes down, the worker exits, and the next connect
takes the slot again. -/
def reconnect : List (Label twoSlots) :=
  [.create (.replicate 16 2) 5 0 true true, .thread 0 {}, .thread 0 {},
    .thread 0 { recv := .message [7] }, .thread 0 {}, .thread 0 {},
    .frame (.replicate 16 2) ⟨0, typeCallReply, 0, 0, 1, 0, nodeHash (.replicate 16 1), 0, 0, 0, 8,
      1⟩,
    .nodeDown (.replicate 16 2), .shutdown firstProxy, .thread 0 {}, .thread 0 {},
    .create (.replicate 16 3) 6 0 true true]

theorem run_proxies_reconnect :
    ∃ s : ProxySys twoSlots, RunsTo step (fun s l => s.careful l = true) {} s ∧
      s.dropped 0 = 1 ∧ s.dropped 1 = 0 ∧ (s.proxies firstProxy).ep = some 1 := by
  obtain ⟨s, run, conns, gone, here⟩ : ∃ s : ProxySys twoSlots,
      RunsTo step (fun s l => s.careful l = true) {} s ∧ s.nextConn = 2 ∧ s.threads 0 = none ∧
        s.threads 1 = some ⟨firstProxy, .spawning⟩ :=
    runsTo_of_execWhile reconnect (by decide +kernel)
  obtain ⟨-, held, -, -, drops⟩ := run_proxies run
  refine ⟨s, run, ?_, ?_, held 1 _ here (by decide)⟩
  · rw [drops 0 (by omega), gone]
    rfl
  · rw [drops 1 (by omega), here]
    rfl

/-- A worker of the first connection is in the receive. -/
def receives : List (Label twoSlots) :=
  [.create (.replicate 16 2) 5 0 true true, .thread 0 {}, .thread 0 {}]

/-- The remote end of the first connection is closed. -/
def closeFirst : Label twoSlots :=
  .frame (.replicate 16 2) ⟨0, typeClose, 0, 0, 0, 0, nodeHash (.replicate 16 1), 5, 0, 0, 8, 1⟩

/-- A worker that has taken a message when the proxy is shut down enters the call where
there is no array. A worker in the receive when the proxy is shut down finds its slot
filled by the next connection; it takes that one down and releases its endpoint, and its
own endpoint is never released. -/
theorem slot_taken_over :
    (∃ s : ProxySys twoSlots, RunsTo step always {} s ∧ s.fault = true) ∧
    (∃ s : ProxySys twoSlots, RunsTo step always {} s ∧ s.threads 0 = some ⟨firstProxy, .recv⟩ ∧
      (s.proxies firstProxy).ep = some 1) ∧
    ∃ s : ProxySys twoSlots, RunsTo step always {} s ∧ s.nextConn = 2 ∧ s.threads 0 = none ∧
      s.threads 1 = none ∧ s.dropped 0 = 0 := by
  refine ⟨?_, ?_, ?_⟩
  · exact runsTo_of_exec (receives ++ [.thread 0 { recv := .message [7] }, .thread 0 {},
      closeFirst, .shutdown firstProxy, .thread 0 {}]) (by decide +kernel)
  · exact runsTo_of_exec (receives ++ [closeFirst, .shutdown firstProxy,
      .create (.replicate 16 3) 6 0 true true]) (by decide +kernel)
  · exact runsTo_of_exec (receives ++ [closeFirst, .shutdown firstProxy,
      .create (.replicate 16 3) 6 0 true true, .thread 1 {}, .thread 1 {},
      .thread 0 { recv := .failed }, .thread 0 {}, .thread 0 {}, .thread 0 {},
      .thread 1 { recv := .failed }, .thread 1 {}, .thread 1 {}]) (by decide +kernel)

end A20OS.Cluster.ProxySys
