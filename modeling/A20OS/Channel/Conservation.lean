import A20OS.Channel.Transfer

/-!
Conservation of the references that travel with handles.

Every step takes and drops references in exchange for the owners it makes and removes:
handle entries, queued messages and what a thread holds (`Moves`). The counts stay equal to
the owners as long as no handle to an extension program is sent: taking a reference to one
counts nothing, so the drop at the end of the send takes the sender's own away.
-/

namespace A20OS.Channel

open Lib Handle List Option

variable {e : Bool} {reply : Option RecvArgs} {o : Outcome} {flags : BitVec 32}
  {infos : List HandleInfo} {m : Message} {dataLen h : Nat} {chan : Pair} {a : RecvArgs}

/-! ### One thread -/

/-- A handle to an extension program is only in the table of the program's owner. -/
def Home (c : Config) (pid : Nat) (t : Table) : Prop :=
  ∀ k : ObjRef, k.object ≠ 0 → k.type = .extProg → c.owner k.object ≠ pid → t.refs k = 0

/-- What a thread of process `pid` can rely on. -/
structure Fit (c : Config) (pid : Nat) (g : Kernel) (t : Table) (ph : Phase) : Prop where
  table : t.WF
  home : Home c pid t
  chan : g.chan.Sound
  queue : ∀ k ∈ g.queuedRefs, Plain k
  held : ∀ k ∈ ph.held c, Plain k

/-- A step that takes and drops the given references moves the owners by the same. -/
structure Moves (c : Config) (pid : Nat) (g : Kernel) (t : Table) (ph : Phase) (o : Outcome)
    (taken dropped : List ObjRef) : Prop where
  refs : o.1.refs = releaseAll c.owner pid (refAll g.refs taken) dropped
  plain : ∀ k ∈ taken, Plain k
  own : ∀ k ∈ dropped, Releasable c.owner pid k
  owners : ∀ k : ObjRef, k.object ≠ 0 →
    o.2.1.refs k + (o.1.queuedRefs.count k + (o.2.2.held c).count k) + dropped.count k =
      t.refs k + (g.queuedRefs.count k + (ph.held c).count k) + taken.count k

/-- The step keeps the books. -/
def Keeps (c : Config) (pid : Nat) (g : Kernel) (t : Table) (ph : Phase) (o : Outcome) : Prop :=
  Fit c pid o.1 o.2.1 o.2.2 ∧ ∃ taken dropped, Moves c pid g t ph o taken dropped

section Steps

variable {c : Config} {pid : Nat} {g g' : Kernel} {t t' : Table} {ph ph' : Phase} {env : Env}
  {r : Except Status Nat}

theorem epRef_plain (c : Config) (e : Bool) : Plain (c.epRef e) :=
  ⟨c.nonzero e, by intro h; cases h⟩

/-- A step that installs and removes no handle. What the queues and the thread own and
drop afterwards they owned before or took, so all of it is plain. -/
theorem Fit.keeps (fit : Fit c pid g t ph) (taken dropped : List ObjRef)
    (wf : t'.WF) (same : ∀ k : ObjRef, k.object ≠ 0 → t'.refs k = t.refs k)
    (sound : g'.chan.Sound) (refs : g'.refs = releaseAll c.owner pid (refAll g.refs taken) dropped)
    (plain : ∀ k ∈ taken, Plain k)
    (moved : (g'.queuedRefs ++ ph'.held c ++ dropped).Perm (g.queuedRefs ++ ph.held c ++ taken)) :
    Keeps c pid g t ph (g', t', ph') := by
  have before : ∀ k ∈ g.queuedRefs ++ ph.held c ++ taken, Plain k :=
    forall_mem_append.mpr ⟨forall_mem_append.mpr ⟨fit.queue, fit.held⟩, plain⟩
  have after : ∀ k ∈ g'.queuedRefs ++ ph'.held c ++ dropped, Plain k :=
    fun k hk => before k (moved.mem_iff.mp hk)
  refine ⟨⟨wf, ?_, sound, ?_, ?_⟩, taken, dropped, refs, plain, ?_, ?_⟩
  · intro k real ext away
    rw [same k real]
    exact fit.home k real ext away
  · exact fun k hk => after k (mem_append_left _ (mem_append_left _ hk))
  · exact fun k hk => after k (mem_append_left _ (mem_append_right _ hk))
  · exact fun k hk => (after k (mem_append_right _ hk)).releasable c.owner pid
  · intro k real
    have counts := moved.count_eq k
    rw [count_append, count_append, count_append, count_append] at counts
    rw [same k real, Nat.add_assoc, counts, ← Nat.add_assoc]

/-- A step that changes neither handles nor queues. -/
theorem Fit.keeps_local (fit : Fit c pid g t ph) (taken dropped : List ObjRef)
    (refs : g'.refs = releaseAll c.owner pid (refAll g.refs taken) dropped)
    (chan : g'.chan = g.chan) (plain : ∀ k ∈ taken, Plain k)
    (moved : (ph'.held c ++ dropped).Perm (ph.held c ++ taken)) :
    Keeps c pid g t ph (g', t, ph') := by
  have queues : g'.queuedRefs = g.queuedRefs := by
    unfold Kernel.queuedRefs
    rw [chan]
  refine fit.keeps taken dropped fit.table (fun _ _ => rfl) (chan ▸ fit.chan) refs plain ?_
  rw [queues, append_assoc, append_assoc]
  exact moved.append_left _

theorem Fit.stays (fit : Fit c pid g t ph) (held : ph'.held c = ph.held c) :
    Keeps c pid g t ph (g, t, ph') :=
  fit.keeps_local [] [] rfl rfl nofun (.of_eq (by rw [held]))

/-- The thread drops some of what it holds. -/
theorem Fit.drops (fit : Fit c pid g t ph) (dropped : List ObjRef)
    (moved : (ph'.held c ++ dropped).Perm (ph.held c)) :
    Keeps c pid g t ph (g.release c pid dropped, t, ph') :=
  fit.keeps_local [] dropped rfl rfl nofun (by rwa [append_nil])

/-! ### Entering and sending -/

theorem enter_keeps {channel : Nat} {required : Rights} {labelDenied : Nat → Nat → Bool}
    {next : Bool → Phase} (fit : Fit c pid g t (.returned r))
    (fresh : ∀ e, (next e).held c = [c.epRef e])
    (entered : enter c g t env channel required labelDenied next = some o) :
    Keeps c pid g t (.returned r) o := by
  unfold enter at entered
  split at entered
  · next t₁ st found =>
    cases entered
    rw [Table.handleLookup_error found]
    exact fit.stays rfl
  · next t₁ ep found =>
    have hit := Table.handleLookup_ok fit.table found
    obtain ⟨e, -, rfl⟩ := map_eq_some_iff.mp entered
    refine fit.keeps [c.epRef e] [] hit.wf (fun k _ => hit.refs k) fit.chan rfl
      (forall_mem_singleton.mpr (epRef_plain c e)) ?_
    have held : (if labelDenied t₁.securityLabel ep.securityLabel then
        Phase.leaving e (.error .access) else next e).held c = [c.epRef e] := by
      split
      · rfl
      · exact fresh e
    rw [held]
    exact .of_eq (by simp [Phase.held, Kernel.queuedRefs, Kernel.ref])

theorem sendEntry_held (c : Config) (env : Env) (a : SendArgs) (reply : Option RecvArgs)
    (e : Bool) : (sendEntry env a reply e).held c = [c.epRef e] := by
  unfold sendEntry
  split_ifs <;> rfl

theorem handleInfo_ref (he : Entry) (userRights : Option Rights) :
    (handleInfo he userRights).ref = ⟨he.object, he.type⟩ := rfl

/-- The lookup of a handle to be sent takes a reference, unless it is to an extension
program. -/
theorem gatherOne_keeps {a : SendArgs}
    {userRights : Option Rights} {rest : List (Nat × Option Rights)}
    (fit : Fit c pid g t (.gather e a reply ((h, userRights) :: rest) infos))
    (sendable : ∀ he, (t.handleLookup env.now h .invalid Rights.transfer).2 = .ok he →
      he.type ≠ .extProg) :
    Keeps c pid g t (.gather e a reply ((h, userRights) :: rest) infos)
      (gatherOne g t env e a reply h userRights rest infos) := by
  unfold gatherOne
  split
  · next t₁ st found =>
    rw [Table.handleLookup_error found]
    exact fit.stays rfl
  · next t₁ he found =>
    have hit := Table.handleLookup_ok fit.table found
    have plain : Plain (handleInfo he userRights).ref := by
      refine ⟨?_, sendable he (by rw [found])⟩
      rw [handleInfo_ref, hit.copied.object]
      exact hit.live
    refine fit.keeps [(handleInfo he userRights).ref] [] hit.wf (fun k _ => hit.refs k)
      fit.chan rfl (forall_mem_singleton.mpr plain) (.of_eq ?_)
    split <;> simp [Phase.held, Kernel.queuedRefs, Kernel.ref, refsOf]

theorem refsOf_plain
    (held : ∀ k ∈ [c.epRef e] ++ refsOf infos, Plain k) : ∀ k ∈ refsOf infos, Plain k :=
  fun k hk => held k (mem_append_right _ hk)

theorem makeMessage_keeps {a : SendArgs} (fit : Fit c pid g t (.gather e a reply [] infos)) :
    Keeps c pid g t (.gather e a reply [] infos) (makeMessage c pid g t env e a reply infos) := by
  unfold makeMessage
  dsimp only
  cases denied : sendDenied (g.chan.ep e).chanType ⟨a.data, infos⟩ a.flags with
  | some st => exact fit.stays rfl
  | none =>
    by_cases alloc : env.alloc = true
    · rw [if_pos alloc]
      refine fit.keeps_local ([c.epRef e] ++ refsOf infos) [] rfl rfl fit.held ?_
      rw [append_nil]
      exact perm_middle.symm
    · rw [if_neg alloc]
      exact fit.keeps_local (refsOf infos) (refsOf infos) rfl rfl (refsOf_plain fit.held) (.refl _)

section
variable (fit : Fit c pid g t (.sending e m flags reply))
include fit

/-- A failing send gives the message's references and the second endpoint reference
back. -/
theorem sendFailed_keeps (st : Status) :
    Keeps c pid g t (.sending e m flags reply) (sendFailed c pid g t e m st) :=
  fit.drops ([c.epRef e] ++ refsOf m.handles) perm_middle

omit fit in
theorem count_queuedRefs (g : Kernel) (e : Bool) (k : ObjRef) :
    g.queuedRefs.count k =
      (refsOf ((g.chan.queued e).flatMap Message.handles)).count k +
        (refsOf ((g.chan.queued !e).flatMap Message.handles)).count k := by
  unfold Kernel.queuedRefs refsOf
  rw [flatMap_append, map_append, count_append]
  cases e with
  | false => rfl
  | true => exact Nat.add_comm _ _

/-- An accepted message takes its references into the queue. -/
theorem accept_keeps {p : Nat} (live : g.chan.live (!e) = true) (fresh : g.chan.heap p = none) :
    Keeps c pid g t (.sending e m flags reply)
      ({ g with chan := g.chan.accept (!e) p m }.release c pid [c.epRef e], t,
        .sent e m.handles (.ok reply)) := by
  obtain ⟨near, far⟩ := fit.chan.queued_accept m live fresh
  refine fit.keeps [] [c.epRef e] fit.table (fun _ _ => rfl)
    (fit.chan.effect (.enqueue m live fresh)) rfl nofun ?_
  refine perm_iff_count.mpr fun k => ?_
  simp only [count_append, count_queuedRefs _ (!e), Kernel.release, near, far,
    flatMap_append, flatMap_singleton, refsOf, map_append, Phase.held,
    count_nil]
  omega

theorem trySend_keeps (tried : trySend c pid g t env e m flags reply = some o) :
    Keeps c pid g t (.sending e m flags reply) o := by
  obtain ⟨-, ⟨⟩⟩ | ⟨-, tried⟩ := ite_eq_iff.mp tried
  · exact sendFailed_keeps fit _
  rcases attempt : g.chan.tryEnqueue e env.node m flags with _ | ⟨chan, r⟩
  all_goals rw [attempt] at tried
  · cases tried
  cases Pair.tryEnqueue_outcome attempt with
  | refused st =>
    cases tried
    exact sendFailed_keeps fit st
  | accepted live fresh =>
    cases tried
    exact accept_keeps fit live fresh
  | sleeps =>
    cases slept : env.sleep
    all_goals
      simp only [slept, some_inj] at tried
      subst tried
    case refused => exact sendFailed_keeps fit _
    case parked =>
      refine fit.keeps_local [c.epRef !e] [] rfl rfl
        (forall_mem_singleton.mpr (epRef_plain c _)) ?_
      rw [append_nil]
      exact (perm_append_singleton ..).symm
    all_goals exact fit.stays rfl

end

theorem sendWoken_keeps (fit : Fit c pid g t (.blocked e m flags reply)) :
    Keeps c pid g t (.blocked e m flags reply) (sendWoken c pid g t env e m flags reply) := by
  have awake : Keeps c pid g t (.blocked e m flags reply)
      (g.release c pid [c.epRef !e], t, .sending e m flags reply) :=
    fit.drops [c.epRef !e] perm_append_comm
  unfold sendWoken
  cases env.sleep with
  | interrupted =>
    refine fit.drops ([c.epRef !e] ++ ([c.epRef e] ++ refsOf m.handles)) ?_
    exact perm_middle.trans (perm_middle.cons _)
  | refused | retry | parked => exact awake

theorem sendDone_keeps
    {r : Except Status (Option RecvArgs)} (fit : Fit c pid g t (.sent e infos r)) :
    Keeps c pid g t (.sent e infos r) (sendDone c pid g t e infos r) := by
  refine fit.drops (refsOf infos) (.of_eq ?_)
  rcases r with st | _ | reply <;> simp [Phase.held]

/-! ### Receiving -/

theorem recvStart_keeps (fit : Fit c pid g t (.recvEnter e a)) :
    Keeps c pid g t (.recvEnter e a) (recvStart c g t e a) := by
  unfold recvStart
  by_cases invalid : a.flags &&& ~~~nonblock ≠ 0
  · rw [if_pos invalid]
    exact fit.stays rfl
  · rw [if_neg invalid]
    exact fit.keeps_local [c.epRef e] [] rfl rfl
      (forall_mem_singleton.mpr (epRef_plain c e)) (.refl _)

/-- Leaving a receive that owns nothing but its two endpoint references; the queues are
as before, the table may have lost reserved slots. -/
theorem recvFailed_keeps (fit : Fit c pid g t ph) (held : ph.held c = [c.epRef e] ++ [c.epRef e])
    (wf : t'.WF) (same : ∀ k : ObjRef, k.object ≠ 0 → t'.refs k = t.refs k) (sound : chan.Sound)
    (queues : ∀ e, chan.queued e = g.chan.queued e) (st : Status) :
    Keeps c pid g t ph (recvFailed c pid { g with chan } t' e st) := by
  refine fit.keeps [] [c.epRef e] wf same sound rfl nofun (.of_eq ?_)
  rw [held]
  simp [Phase.held, Kernel.release, Kernel.queuedRefs, queues]

/-- A message taken off the queue of `e` hands its references to the thread. -/
theorem takeHead_keeps {p : Nat} {node : Node Message}
    (dropped : List ObjRef) (fit : Fit c pid g t ph) (live : g.chan.live e = true)
    (head : (g.chan.ep e).headNode g.chan.heap = some (p, node)) (sound : chan.Sound)
    (queues : ∀ e', chan.queued e' = (g.chan.takeHead e p node).queued e')
    (moved : (ph'.held c ++ dropped).Perm (refsOf node.value.handles ++ ph.held c)) :
    Keeps c pid g t ph ({ g with chan }.release c pid dropped, t, ph') := by
  obtain ⟨near, far⟩ := fit.chan.queued_takeHead live head
  refine fit.keeps [] dropped fit.table (fun _ _ => rfl) sound rfl nofun ?_
  refine perm_iff_count.mpr fun k => ?_
  have counts := moved.count_eq k
  simp only [count_append, count_queuedRefs _ e, near, Kernel.release, queues, far,
    flatMap_cons, refsOf, map_append, count_nil] at counts ⊢
  omega

theorem tryReceive_keeps (fit : Fit c pid g t (.receiving e a))
    (tried : tryReceive c pid g t env e a = some o) : Keeps c pid g t (.receiving e a) o := by
  have failed (st : Status) :
      Keeps c pid g t (.receiving e a) (recvFailed c pid g t e st) :=
    recvFailed_keeps fit rfl fit.table (fun _ _ => rfl) fit.chan (fun _ => rfl) st
  unfold tryReceive at tried
  rcases begun : g.chan.act (.recvBegin e a.flags) with _ | ⟨chan, r⟩
  all_goals rw [begun] at tried
  · cases tried
  have effect := Pair.act_effect begun
  obtain ⟨guard, begun⟩ | ⟨-, ⟨⟩⟩ := ite_eq_iff.mp begun
  cases Pair.recvBegin_outcome begun with
  | refused st other =>
    cases st <;> first
      | exact absurd rfl other
      | (cases tried; exact failed _)
  | closed =>
    cases tried
    exact failed _
  | begun =>
    cases tried
    exact fit.keeps [] [] fit.table (fun _ _ => rfl) (fit.chan.effect effect) rfl
      nofun (.refl _)
  | discarded head refused =>
    rw [head] at tried
    cases tried
    refine takeHead_keeps [] fit guard.1 head (fit.chan.effect effect)
      (fun _ => rfl) ?_
    rw [append_nil]
    exact perm_append_comm
  | sleeps =>
    cases slept : env.sleep
    all_goals
      simp only [slept, some_inj] at tried
      subst tried
    case refused => exact failed _
    case interrupted => exact failed _
    all_goals exact fit.stays rfl

/-- Aborting a receive changes no queue. -/
theorem recvAborted_keeps {st : Status} (fit : Fit c pid g t ph)
    (held : ph.held c = [c.epRef e] ++ [c.epRef e]) (wf : t'.WF)
    (same : ∀ k : ObjRef, k.object ≠ 0 → t'.refs k = t.refs k)
    (aborted : recvAborted c pid g t' e st = some o) : Keeps c pid g t ph o := by
  obtain ⟨⟨chan, r⟩, acted, rfl⟩ := map_eq_some_iff.mp aborted
  have effect := Pair.act_effect acted
  obtain ⟨-, ⟨⟩⟩ | ⟨-, ⟨⟩⟩ := ite_eq_iff.mp acted
  exact recvFailed_keeps fit held wf same (fit.chan.effect effect) (fun _ => rfl) st

theorem reserveSlots_keeps {handleCount : Nat}
    (fit : Fit c pid g t (.begun e a dataLen handleCount))
    (done : reserveSlots c pid g t env e a dataLen handleCount = some o) :
    Keeps c pid g t (.begun e a dataLen handleCount) o := by
  obtain ⟨-, done⟩ | ⟨-, done⟩ := ite_eq_iff.mp done
  · exact recvAborted_keeps fit rfl fit.table (fun _ _ => rfl) done
  split at done
  · next t₁ st reserved =>
    obtain ⟨wf, same⟩ := Table.handleReserveMany_error fit.table reserved
    exact recvAborted_keeps fit rfl wf same done
  · next t₁ slots reserved =>
    obtain ⟨slotsReserved, -⟩ := Table.handleReserveMany_ok fit.table reserved
    cases done
    exact fit.keeps [] [] slotsReserved.wf slotsReserved.refs fit.chan rfl
      nofun (.refl _)

/-- The message taken off the queue hands its references to the thread. -/
theorem finishReceive_keeps {slots : List Nat} (fit : Fit c pid g t (.reserved e dataLen slots))
    (done : finishReceive c pid g t env e dataLen slots = some o) :
    Keeps c pid g t (.reserved e dataLen slots) o := by
  have aborted := Table.handleAbortReserved_aborted slots fit.table
  obtain ⟨-, done⟩ | ⟨-, done⟩ := ite_eq_iff.mp done
  · exact recvAborted_keeps fit rfl aborted.wf aborted.refs done
  rcases acted : g.chan.act (.recvFinish e dataLen slots.length) with _ | ⟨chan, r⟩
  all_goals rw [acted] at done
  · cases done
  have effect := Pair.act_effect acted
  obtain ⟨guard, acted⟩ := ite_none_right_eq_some.mp acted
  rw [some_inj] at acted
  have outcome := Pair.recvFinish_outcome g.chan e dataLen slots.length
  rw [acted] at outcome
  cases outcome with
  | failed st =>
    cases done
    exact recvFailed_keeps fit rfl aborted.wf aborted.refs (fit.chan.effect effect)
      (fun _ => rfl) st
  | got head admitted room =>
    cases done
    refine takeHead_keeps _ fit guard.1 head (fit.chan.effect effect) (fun _ => rfl) ?_
    refine perm_iff_count.mpr fun k => ?_
    simp only [Phase.held, map_snd_zip room, count_append]
    omega

/-- A committed slot takes over the reference of the handle in transit. -/
theorem installOne_keeps {info : HandleInfo} {rest : List (Nat × HandleInfo)} {installed : List Nat}
    (fit : Fit c pid g t (.installing e ((h, info) :: rest) installed dataLen)) :
    Keeps c pid g t (.installing e ((h, info) :: rest) installed dataLen)
      (installOne c pid g t e h info rest installed dataLen) := by
  have plain : Plain info.ref := fit.held info.ref (by simp [Phase.held, refsOf])
  unfold installOne
  split
  swap
  · next t₁ st committed =>
    rw [Table.handleCommitReservedTemporal_error committed]
    exact fit.drops ([info.ref] ++ refsOf (rest.map Prod.snd))
      (.of_eq (by simp [Phase.held, refsOf]))
  · next t₁ u committed =>
    have live : info.object ≠ 0 := plain.object
    have entry := Table.handleCommitReservedTemporal_ok fit.table live committed
    have names (k : ObjRef) : (if (Entry.opened info.object info.type info.transferRights
        info.toLimits).names k then 1 else 0) = [info.ref].count k := Table.ite_names _ k
    refine ⟨⟨entry.wf, ?_, fit.chan, fit.queue, ?_⟩, [], [], rfl, nofun,
      nofun, ?_⟩
    · intro k real ext away
      have other : info.ref ≠ k := by
        rintro rfl
        exact plain.type ext
      rw [entry.refs k real, fit.home k real ext away, names,
        count_eq_zero_of_not_mem (by simpa using other.symm)]
    · intro k hk
      refine fit.held k ?_
      simp only [Phase.held, refsOf, map_cons, mem_append, mem_cons] at hk ⊢
      exact hk.imp_right .inr
    · intro k real
      have one : t₁.refs k = t.refs k + [info.ref].count k := by
        rw [entry.refs k real, names]
      have held : (Phase.installing e ((h, info) :: rest) installed dataLen).held c =
          [c.epRef e] ++ ([info.ref] ++ refsOf (rest.map Prod.snd)) := rfl
      rw [held]
      simp only [one, Phase.held, count_append, count_nil]
      omega

/-- Removing a handle drops the reference it owned. -/
theorem removeHandle_keeps (fit : Fit c pid g t ph) (same : ph'.held c = ph.held c) :
    Keeps c pid g t ph
      ((removeHandle c pid g t h).1, (removeHandle c pid g t h).2.1, ph') := by
  have held : ∀ k ∈ ph'.held c, Plain k := same ▸ fit.held
  unfold removeHandle
  split
  swap
  · next t₁ st removed =>
    rw [Table.handleRemove_error removed]
    exact fit.stays same
  · next t₁ obj removed =>
    have gone := Table.handleRemove_ok fit.table removed
    have own : Releasable c.owner pid obj := by
      intro ext
      by_contra away
      have none := fit.home obj gone.live ext away
      rw [gone.refs obj gone.live, if_pos rfl] at none
      cases none
    refine ⟨⟨gone.wf, ?_, fit.chan, fit.queue, held⟩, [], [obj], rfl,
      nofun, ?_, ?_⟩
    · intro k real ext away
      have none := fit.home k real ext away
      rw [gone.refs k real] at none
      exact Nat.eq_zero_of_add_eq_zero_right none
    · exact forall_mem_singleton.mpr own
    · intro k real
      have := gone.refs k real
      simp only [same, count_nil, count_singleton, beq_iff_eq]
      change t₁.refs k + (g.queuedRefs.count k + _) + _ = _
      omega

/-! ### Every step of a thread -/

/-- The next step of the thread does not look an extension program up for transfer. -/
def Phase.sendable (t : Table) (env : Env) : Phase → Bool
  | .gather _ _ _ ((h, _) :: _) _ =>
      match (t.handleLookup env.now h .invalid Rights.transfer).2 with
      | .ok he => he.type ≠ .extProg
      | .error _ => true
  | _ => true

theorem start_keeps {op : Op} (fit : Fit c pid g t (.returned r))
    (started : start c pid g t env op = some o) : Keeps c pid g t (.returned r) o := by
  cases op with
  | send a =>
    simp only [start] at started
    exact enter_keeps fit (sendEntry_held c env a none) started
  | recv channel a =>
    simp only [start] at started
    exact enter_keeps fit (fun _ => rfl) started
  | call a replyBufLen replyHandleBufCount =>
    obtain ⟨-, ⟨⟩⟩ | ⟨-, started⟩ := ite_eq_iff.mp started
    · exact fit.stays rfl
    · exact enter_keeps fit (sendEntry_held c env a _) started
  | close h =>
    cases started
    exact removeHandle_keeps fit rfl

theorem next_keeps (fit : Fit c pid g t ph) (sendable : ph.sendable t env = true)
    (went : ph.next c pid g t env = some o) : Keeps c pid g t ph o := by
  cases ph with
  | returned r => cases went
  | gather e a reply todo infos =>
    cases todo with
    | nil => cases went; exact makeMessage_keeps fit
    | cons first rest =>
      cases went
      refine gatherOne_keeps fit fun he found => ?_
      simpa only [Phase.sendable, found, decide_eq_true_eq] using sendable
  | sending e m flags reply => exact trySend_keeps fit went
  | blocked e m flags reply => cases went; exact sendWoken_keeps fit
  | sent e infos r => cases went; exact sendDone_keeps fit
  | recvEnter e a => cases went; exact recvStart_keeps fit
  | receiving e a => exact tryReceive_keeps fit went
  | discarding e infos =>
    cases went
    exact fit.drops ([c.epRef e] ++ refsOf infos) (.of_eq (by simp [Phase.held]))
  | begun e a dataLen handleCount => exact reserveSlots_keeps fit went
  | reserved e dataLen slots => exact finishReceive_keeps fit went
  | installing e todo installed dataLen =>
    cases todo with
    | nil =>
      cases went
      refine fit.stays ?_
      split <;> rfl
    | cons first rest => cases went; exact installOne_keeps fit
  | undoing e installed slots st =>
    cases installed with
    | nil =>
      cases went
      have aborted := Table.handleAbortReserved_aborted slots fit.table
      exact fit.keeps [] [] aborted.wf aborted.refs fit.chan rfl nofun (.refl _)
    | cons h installed => cases went; exact removeHandle_keeps fit rfl
  | leaving e r =>
    cases went
    exact fit.drops [c.epRef e] (.refl _)

end Steps

/-! ### The system -/

namespace Sys

/-- The counts are the owners: handles, queued messages, operations in progress and
the references that exist outside of handles and channels. -/
def Balanced (c : Config) (elsewhere : ObjRef → Nat) (s : Sys) : Prop :=
  ∀ k : ObjRef, k.object ≠ 0 → hasCount k.type →
    s.kernel.refs k = elsewhere k + s.owners c k

structure Inv (c : Config) (elsewhere : ObjRef → Nat) (s : Sys) : Prop where
  tables : ∀ p t, s.tables[p]? = some t → t.WF ∧ Home c p t
  chan : s.kernel.chan.Sound
  queue : ∀ k ∈ s.kernel.queuedRefs, Plain k
  limbo : ∀ k ∈ s.limbo, Plain k
  held : ∀ th ∈ s.threads, ∀ k ∈ th.phase.held c, Plain k
  balanced : s.Balanced c elsewhere

variable {c : Config} {elsewhere : ObjRef → Nat} {s s' : Sys}

/-- A thread's step keeps the invariant of the system. -/
theorem Inv.run (inv : Inv c elsewhere s) {i : Nat}
    {f : Nat → Kernel → Table → Phase → Option Outcome}
    (keeps : ∀ {th t o}, s.threads[i]? = some th → s.tables[th.pid]? = some t →
      Fit c th.pid s.kernel t th.phase → f th.pid s.kernel t th.phase = some o →
        Keeps c th.pid s.kernel t th.phase o)
    (ran : s.run i f = some s') : Inv c elsewhere s' := by
  obtain ⟨th, thread, ran⟩ := bind_eq_some_iff.mp ran
  obtain ⟨t, table, ran⟩ := bind_eq_some_iff.mp ran
  obtain ⟨⟨g, t', ph⟩, done, rfl⟩ := map_eq_some_iff.mp ran
  obtain ⟨wf, home⟩ := inv.tables th.pid t table
  have fit : Fit c th.pid s.kernel t th.phase :=
    ⟨wf, home, inv.chan, inv.queue, inv.held th (mem_of_getElem? thread)⟩
  obtain ⟨fit', taken, dropped, moves⟩ := keeps thread table fit done
  refine ⟨?_, fit'.chan, fit'.queue, inv.limbo, ?_, ?_⟩
  · intro p t₁ at_p
    by_cases here : th.pid = p
    · subst here
      rw [List.getElem?_set_self (List.getElem?_eq_some_iff.mp table).1] at at_p
      cases at_p
      exact ⟨fit'.table, fit'.home⟩
    · rw [List.getElem?_set_ne here] at at_p
      exact inv.tables p t₁ at_p
  · intro th' member
    rcases mem_or_eq_of_mem_set member with old | rfl
    · exact inv.held th' old
    · exact fit'.held
  · intro k real count
    have tables := total_set (f := (Table.refs · k)) table t'
    have threads := total_set (f := fun th => (th.phase.held c).count k) thread
      { th with phase := ph }
    have owners := moves.owners k real
    simp only at tables threads owners
    rw [moves.refs]
    refine released_balance real count moves.plain moves.own (inv.balanced k real count) ?_
    simp only [Sys.owners, installed, queued, inFlight]
    omega

theorem Inv.teardown (inv : Inv c elsewhere s) {r : Result}
    (released : s.kernel.chan.act (.release e) = some (chan, r)) :
    Inv c elsewhere { s with
      kernel := { s.kernel with chan }
      limbo := s.limbo ++ refsOf ((s.kernel.chan.queued e).flatMap Message.handles) } := by
  have effect := Pair.act_effect released
  obtain ⟨guard, released⟩ | ⟨-, ⟨⟩⟩ := ite_eq_iff.mp released
  cases released
  obtain ⟨near, far⟩ := inv.chan.queued_release guard.1
  -- The messages of the endpoint move from its queue to limbo.
  have moved (k : ObjRef) : s.kernel.queuedRefs.count k =
      (refsOf ((s.kernel.chan.queued e).flatMap Message.handles)).count k +
        (Kernel.mk s.kernel.refs (s.kernel.chan.release e)).queuedRefs.count k := by
    rw [count_queuedRefs s.kernel e, count_queuedRefs _ e]
    simp only [near, far]
    simp [refsOf]
  refine ⟨inv.tables, inv.chan.effect effect, ?_, ?_, inv.held, ?_⟩
  · refine fun k hk => inv.queue k ?_
    rw [← count_pos_iff, moved]
    exact Nat.add_pos_right _ (count_pos_iff.mpr hk)
  · refine forall_mem_append.mpr ⟨inv.limbo, fun k hk => inv.queue k ?_⟩
    rw [← count_pos_iff, moved]
    exact Nat.add_pos_left (count_pos_iff.mpr hk) _
  · intro k real count
    have before := inv.balanced k real count
    have := moved k
    simp only [Sys.owners, installed, queued, inFlight, count_append] at before ⊢
    omega

theorem Inv.drain (inv : Inv c elsewhere s) {k : ObjRef} {limbo : List ObjRef}
    (first : s.limbo = k :: limbo) (pid : Nat) :
    Inv c elsewhere { s with kernel := s.kernel.release c pid [k], limbo } := by
  have plain := inv.limbo
  rw [first] at plain
  refine { inv with limbo := fun j hj => plain j (.tail _ hj), balanced := ?_ }
  intro j real count
  change releaseAll c.owner pid (refAll s.kernel.refs []) [k] j = _
  refine released_balance real count nofun
    (forall_mem_singleton.mpr ((plain k (.head _)).releasable _ _))
    (inv.balanced j real count) ?_
  simp only [Sys.owners, installed, queued, inFlight, first, count_first k j limbo, count_nil]
  change _ + s.kernel.queuedRefs.count j + _ + _ = _
  omega

/-- No step looks a handle to an extension program up for transfer. -/
def sendable (s : Sys) : Label → Bool
  | .next i env =>
      match s.threads[i]? with
      | none => true
      | some th =>
          match s.tables[th.pid]? with
          | none => true
          | some t => th.phase.sendable t env
  | .start .. | .teardown _ | .drain _ => true

theorem Inv.step (inv : Inv c elsewhere s) {l : Label} (ok : s.sendable l = true)
    (taken : s.step c l = some s') : Inv c elsewhere s' := by
  cases l with
  | start i op env =>
    simp only [Sys.step] at taken
    refine inv.run ?_ taken
    intro th t o _ _ fit started
    cases phase : th.phase with
    | returned r =>
      rw [phase] at fit started
      exact start_keeps fit started
    | _ => rw [phase] at started; cases started
  | next i env =>
    simp only [Sys.step] at taken
    refine inv.run ?_ taken
    intro th t o thread table fit went
    simp only [sendable, thread, table] at ok
    exact next_keeps fit ok went
  | teardown e =>
    obtain ⟨-, taken⟩ | ⟨-, ⟨⟩⟩ := ite_eq_iff.mp taken
    obtain ⟨⟨chan, r⟩, released, rfl⟩ := map_eq_some_iff.mp taken
    exact inv.teardown released
  | drain pid =>
    simp only [Sys.step] at taken
    cases first : s.limbo with
    | nil => rw [first] at taken; cases taken
    | cons k limbo =>
      rw [first] at taken
      cases taken
      exact inv.drain first pid

theorem init_inv {tables : List Table} (fit : ∀ p t, tables[p]? = some t → t.WF ∧ Home c p t)
    (elsewhere : ObjRef → Nat) (msgCap : Nat) (type : Option ChannelType) (pids : List Nat) :
    Inv c elsewhere (init tables elsewhere msgCap type pids) := by
  refine ⟨fit, Pair.create_sound msgCap type, nofun, nofun,
    ?_, ?_⟩
  · intro th member
    obtain ⟨pid, -, rfl⟩ := mem_map.mp member
    exact nofun
  · intro k _ _
    have idle : (init tables elsewhere msgCap type pids).inFlight c k = 0 := by
      refine Nat.add_eq_zero_iff.mpr ⟨total_eq_zero ?_, rfl⟩
      intro th member
      obtain ⟨pid, -, rfl⟩ := mem_map.mp member
      rfl
    rw [Sys.owners, idle]
    rfl

theorem inFlight_of_quiet (quiet : s.Quiet) (k : ObjRef) : s.inFlight c k = 0 := by
  refine Nat.add_eq_zero_iff.mpr ⟨total_eq_zero ?_, by rw [quiet.1]; rfl⟩
  intro th member
  have idle := quiet.2 th member
  cases phase : th.phase with
  | returned r => rfl
  | _ => rw [phase] at idle; cases idle

/-- Conservation of references: along every run in which no extension program is looked
up for transfer, the count of every object is its number of owners, and between
operations these are the installed handles and the queued messages. -/
theorem references_conserved {tables : List Table}
    (fit : ∀ p t, tables[p]? = some t → t.WF ∧ Home c p t) {msgCap : Nat}
    {type : Option ChannelType} {pids : List Nat}
    (run : RunsTo (step c) (fun s l => s.sendable l = true)
      (init tables elsewhere msgCap type pids) s) :
    s.Balanced c elsewhere ∧
      (s.Quiet → ∀ k : ObjRef, k.object ≠ 0 → hasCount k.type →
        s.kernel.refs k = elsewhere k + (s.installed k + s.queued k)) := by
  have inv : Inv c elsewhere s :=
    run.invariant (fun inv ok taken => inv.step ok taken) (init_inv fit elsewhere msgCap type pids)
  refine ⟨inv.balanced, fun quiet k real count => ?_⟩
  rw [inv.balanced k real count, Sys.owners, inFlight_of_quiet quiet, Nat.add_zero]
  rfl

end Sys

/-! ### Sending a file and sending an extension program -/

theorem create_home (c : Config) (pid : Nat) : Home c pid Table.create := by
  intro k real _ _
  refine countP_eq_zero.mpr fun e he => ?_
  rw [eq_of_mem_replicate he, Table.not_names_of_object_eq_zero real rfl]
  exact Bool.false_ne_true

theorem install_fit {c : Config} {pid : Nat} {t : Table} (fit : t.WF ∧ Home c pid t) {object : Nat}
    (real : object ≠ 0) {type : ObjType} (countable : type ≠ .extProg) (rights : Rights) :
    (t.handleInstall (fun _ => true) object type rights).1.WF ∧
      Home c pid (t.handleInstall (fun _ => true) object type rights).1 := by
  refine Table.of_result (P := fun t' => t'.WF ∧ Home c pid t') (fun failed => ?_) fun done => ?_
  · have grown := Table.handleInstallTemporal_error fit.1 failed
    refine ⟨grown.wf, fun k hk ext away => ?_⟩
    rw [grown.refs k hk]
    exact fit.2 k hk ext away
  · have installed := Table.handleInstallTemporal_ok fit.1 real done
    refine ⟨installed.wf, fun k hk ext away => ?_⟩
    have other : (Entry.opened object type rights {}).names k = false := by
      refine Bool.eq_false_iff.mpr fun names => countable ?_
      exact (congrArg ObjRef.type (Table.names_iff.mp names)).trans ext
    rw [installed.refs k hk, other]
    exact fit.2 k hk ext away

/-- The endpoints are objects 16 and 32; process 0 owns every extension program. -/
def sampleConfig : Config where
  addr e := if e then 32 else 16
  owner _ := 0
  nonzero := by decide
  distinct := by decide

/-- Handles 0 and 1 to the endpoints and handle 2 to object 1 of the given type. -/
def holding (type : ObjType) : Table :=
  let endpoint := Rights.read ||| Rights.write ||| Rights.transfer
  let t := (Table.create.handleInstall (fun _ => true) 16 .channelEndpoint endpoint).1
  let t := (t.handleInstall (fun _ => true) 32 .channelEndpoint endpoint).1
  (t.handleInstall (fun _ => true) 1 type (Rights.read ||| Rights.transfer)).1

theorem holding_fit {type : ObjType} (countable : type ≠ .extProg) (c : Config) (pid : Nat) :
    (holding type).WF ∧ Home c pid (holding type) := by
  have first := install_fit ⟨Table.create_wf, create_home c pid⟩ (by decide : 16 ≠ 0)
    (by decide : ObjType.channelEndpoint ≠ .extProg)
    (Rights.read ||| Rights.write ||| Rights.transfer)
  have second := install_fit first (by decide : 32 ≠ 0)
    (by decide : ObjType.channelEndpoint ≠ .extProg)
    (Rights.read ||| Rights.write ||| Rights.transfer)
  exact install_fit second (by decide : 1 ≠ 0) countable (Rights.read ||| Rights.transfer)

/-- Thread 0 sends handle 2 over the first endpoint. -/
def sendThird : List Label :=
  .start 0 (.send ⟨0, [], [(2, none)], 0⟩) {} :: List.replicate 5 (.next 0 {})

/-- Thread 0 receives a message with one handle on the second endpoint. -/
def receiveOne : List Label :=
  .start 0 (.recv 1 ⟨0, 1, 0⟩) {} :: List.replicate 7 (.next 0 {})

def sample (type : ObjType) : Sys := .init [holding type] (fun _ => 0) 0 none [0]

/-- Whether the system is quiet; the count of object 1, its handles and its messages. -/
def books (type : ObjType) (s : Sys) : Bool × Int × Nat × Nat :=
  (s.Quiet, s.kernel.refs ⟨1, type⟩, s.installed ⟨1, type⟩, s.queued ⟨1, type⟩)

/-- A file that is sent and received has two handles and two references. -/
theorem references_conserved_file :
    ∃ s, execWhile (Sys.step sampleConfig) (fun s l => s.sendable l = true) (sample .file)
        (sendThird ++ receiveOne) = some s ∧
      books .file s = (true, 2, 2, 0) ∧
      s.kernel.refs ⟨1, .file⟩ = 0 + (s.installed ⟨1, .file⟩ + s.queued ⟨1, .file⟩) := by
  obtain ⟨s, executed, seen⟩ : ∃ s, execWhile (Sys.step sampleConfig)
      (fun s l => s.sendable l = true) (sample .file) (sendThird ++ receiveOne) = some s ∧
        books .file s = (true, 2, 2, 0) := eq_some_of_any (by decide +kernel)
  have fit : ∀ p t, [holding .file][p]? = some t → t.WF ∧ Home sampleConfig p t := by
    intro p t at_p
    rw [mem_singleton.mp (mem_of_getElem? at_p)]
    exact holding_fit (by decide) sampleConfig p
  have quiet : s.Quiet := of_decide_eq_true (congrArg Prod.fst seen)
  exact ⟨s, executed, seen, (Sys.references_conserved fit (execWhile_runsTo executed)).2 quiet
    ⟨1, .file⟩ (by decide) (by decide)⟩

/-- An extension program that was sent is named by a handle and by a queued message, but
its only reference is gone. -/
theorem ext_prog_send_loses_reference :
    books .extProg (sample .extProg) = (true, 1, 1, 0) ∧
      ∃ s, RunsTo (Sys.step sampleConfig) always (sample .extProg) s ∧
        books .extProg s = (true, 0, 1, 1) := by
  refine ⟨?_, runsTo_of_exec sendThird ?_⟩
  all_goals decide +kernel

end A20OS.Channel
