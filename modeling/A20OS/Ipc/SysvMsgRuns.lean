import A20OS.Ipc.SysvMsg
import Mathlib.Data.List.Pairwise

/-!
Message queues over whole runs.

Every section writes one queue and wakes some tasks (`commit`), and moves its own call
(`setCall`); each invariant has one lemma for either write.

The limit and the queue's life are checked before a sender that slept gives its wait back, with
the lock dropped, and not again before it appends (`granted`): nobody else may append to the queue
or remove it then (`Undisturbed`). A send wakes one receiver, whatever it waits for, and a
receiver links itself after the section that scanned the queue: no message it wants may arrive in
between, and the wake may not go to somebody else (`Noticed`).
-/

namespace A20OS.Ipc

open Lib Function List Option

variable {m : Msg} {q : MsgQueue} {msgs : List Msg}

/-! ### Wakes -/

section Wakes

variable {calls : Nat → Option MsgCall} {ts : List Nat} {t : Nat} {c : MsgCall}

theorem calls_of_wakeAll (after : wakeAll calls ts t = some c)
    (unwoken : ∀ r, c.phase ≠ .parked (some r)) : calls t = some c := by
  unfold wakeAll at after
  split at after
  · obtain ⟨d, before, rfl⟩ := map_eq_some_iff.mp after
    by_cases asleep : d.phase = .parked none
    · rw [MsgCall.wake, if_pos asleep] at unwoken
      exact absurd rfl (unwoken .event)
    · rw [MsgCall.wake, if_neg asleep]
      exact before
  · exact after

theorem not_mem_of_wakeAll (after : wakeAll calls ts t = some c)
    (asleep : c.phase = .parked none) : t ∉ ts := by
  intro member
  have before := calls_of_wakeAll after (by simp [asleep])
  rw [wakeAll, if_pos member, before, map_some, MsgCall.wake, if_pos asleep] at after
  rw [← some.inj after] at asleep
  cases asleep

theorem calls_ne_none_of_wakeAll (after : wakeAll calls ts t ≠ none) : calls t ≠ none := by
  intro before
  unfold wakeAll at after
  split at after <;> simp [before] at after

end Wakes

/-! ### The counters -/

/-- The counters of a queue agree with its messages. -/
structure MsgQueue.Accounted (q : MsgQueue) : Prop where
  bytes : q.cbytes = (q.msgs.map Msg.size).sum
  number : q.qnum = q.msgs.length

/-- Two queues that differ in their wait queues only. -/
structure MsgQueue.Alike (q q' : MsgQueue) : Prop where
  used : q'.used = q.used
  cbytes : q'.cbytes = q.cbytes
  qnum : q'.qnum = q.qnum
  qbytes : q'.qbytes = q.qbytes
  msgs : q'.msgs = q.msgs

theorem MsgQueue.Accounted.append (h : q.Accounted) (m : Msg) : (q.append m).Accounted := by
  constructor
  · simp [MsgQueue.append, h.bytes]
  · simp [MsgQueue.append, h.number]

/-- Erasing the first message that passes a test takes its size and one message away. -/
theorem eraseP_account {p : Msg → Bool} (found : msgs.find? p = some m) :
    ((msgs.eraseP p).map Msg.size).sum + m.size = (msgs.map Msg.size).sum ∧
      (msgs.eraseP p).length + 1 = msgs.length := by
  obtain ⟨takes, before, after, rfl, skipped⟩ := find?_eq_some_iff_append.mp found
  rw [eraseP_append_right _ (by simpa using skipped), eraseP_cons_of_pos takes]
  simp only [map_append, map_cons, sum_append, sum_cons, length_append, length_cons]
  omega

theorem MsgQueue.Accounted.take (h : q.Accounted) {typ : Int}
    (found : msgSelect q.msgs typ = some m) : (q.take typ m).Accounted := by
  obtain ⟨bytes, number⟩ := eraseP_account found
  constructor
  · simp only [MsgQueue.take, h.bytes]
    omega
  · simp only [MsgQueue.take, h.number]
    omega

theorem MsgQueue.Accounted.alike {q' : MsgQueue} (h : q.Accounted) (same : q.Alike q') :
    q'.Accounted :=
  ⟨by rw [same.cbytes, same.msgs, h.bytes], by rw [same.qnum, same.msgs, h.number]⟩

/-! ### Sections -/

namespace MsgSys

theorem commit_calls_nil (s : MsgSys) (id : Nat) (appends : List Append) :
    (s.commit id q [] appends).calls = s.calls := by
  funext t
  simp [commit, wakeAll]

theorem alike_unlink (s : MsgSys) (id t : Nat) :
    (s.queues id).Alike { s.queues id with
      recvWq := (s.queues id).recvWq.filter (· ≠ t),
      sendWq := (s.queues id).sendWq.filter (· ≠ t) } :=
  ⟨rfl, rfl, rfl, rfl, rfl⟩

/-- What a property of the system has to satisfy to be kept by every section that meets the
condition `ok`: it is kept by the writes the sections are made of. -/
structure Kept (P : MsgSys → Prop) (ok : MsgSys → MsgLabel → Prop) : Prop where
  /-- A write that touches wait queues only. -/
  alike : ∀ {s id q}, P s → (s.queues id).Alike q → P (s.commit id q [] [])
  /-- A call ends, or is woken. -/
  ends : ∀ {s t}, P s → P (s.setCall t none)
  woken : ∀ {s t c r}, P s → s.calls t = some c →
    P (s.setCall t (some { c with phase := .parked (some r) }))
  /-- A queue is made in an unused slot, or removed. -/
  fresh : ∀ {s key id}, P s → (s.queues id).used = false → P (s.commit id (.fresh key) [] [])
  rmid : ∀ {s id}, P s → ok s (.rmid id) →
    P (s.commit id .zero ((s.queues id).recvWq ++ (s.queues id).sendWq) [])
  /-- A receive takes a message, or has found none and prepares a wait. -/
  take : ∀ {s id typ m}, P s → msgSelect (s.queues id).msgs typ = some m →
    P (s.commit id { (s.queues id).take typ m with sendWq := [] } (s.queues id).sendWq [])
  misses : ∀ {s t id msgsz typ noerror}, P s → (s.calls t = none → t < s.tasks) →
    msgSelect (s.queues id).msgs typ = none →
    P (s.setCall t (some ⟨id, .recv msgsz typ noerror, .preparing⟩))
  /-- A sender prepares a wait, or finds room after it has prepared one. -/
  waits : ∀ {s t id m}, P s → (s.calls t = none → t < s.tasks) →
    P (s.setCall t (some ⟨id, .send m, .preparing⟩))
  grant : ∀ {s t c m}, P s → s.calls t = some c → c.op = .send m →
    (s.queues c.msqid).used = true → (s.queues c.msqid).Room m.size →
    P (s.setCall t (some { c with phase := .granted }))
  /-- A call goes to sleep, which it does from the preparation of its wait. -/
  sleeps : ∀ {s t c}, P s → s.calls t = some c → c.phase = .preparing →
    P (s.setCall t (some { c with phase := .parked none }))
  /-- A message is appended by a send in its first section, or by one that was granted room. -/
  send : ∀ {s t id m nowait}, P s → ok s (.send t id m nowait) → (s.queues id).used = true →
    (s.queues id).Room m.size → P (s.publish id m)
  append : ∀ {s t c m}, P s → ok s (.append t) → s.calls t = some c → c.op = .send m →
    c.phase = .granted → P ((s.publish c.msqid m).setCall t none)

section Steps

variable {P : MsgSys → Prop} {ok : MsgSys → MsgLabel → Prop} {s s' : MsgSys} {t : Nat}

theorem Kept.unlink (kept : Kept P ok) (h : P s) (id : Nat) : P (s.unlink id t) :=
  kept.alike h (alike_unlink s id t)

theorem Kept.scan (kept : Kept P ok) (h : P s) (known : s.calls t = none → t < s.tasks)
    (id msgsz : Nat) (typ : Int) (noerror nowait : Bool) :
    P (s.scan t id msgsz typ noerror nowait) := by
  unfold MsgSys.scan
  dsimp only
  split
  · next m found =>
    split
    · exact kept.ends h
    · exact kept.ends (kept.take h found)
  · next missing =>
    split
    · exact kept.ends h
    · exact kept.misses h known missing

variable {c : MsgCall}

/-- Asleep after a link, or as good as woken without one. -/
theorem Kept.asleep (kept : Kept P ok) (h : P s) (found : s.calls t = some c)
    (preparing : c.phase = .preparing) (linked : Bool) :
    P (s.setCall t (some (MsgSys.asleep c linked))) := by
  cases linked with
  | true => exact kept.sleeps h found preparing
  | false => exact kept.woken h found

theorem Kept.link (kept : Kept P ok) (h : P s) (found : s.calls t = some c)
    (preparing : c.phase = .preparing) (linked : Bool) : P (s.linkSection t c linked) := by
  have still : ∀ q, (s.commit c.msqid q [] []).calls t = some c := fun q => by
    rw [commit_calls_nil, found]
  unfold linkSection
  dsimp only
  split
  · next m op =>
    split
    · next room => exact kept.grant h found op room.1 room.2
    · refine kept.asleep (kept.alike h ?_) (still _) preparing linked
      exact ⟨rfl, rfl, rfl, rfl, rfl⟩
  · split
    · exact kept.ends h
    · refine kept.asleep (kept.alike h ?_) (still _) preparing linked
      exact ⟨rfl, rfl, rfl, rfl, rfl⟩

theorem Kept.resume (kept : Kept P ok) (h : P s) (found : s.calls t = some c) (reason : MsgWake) :
    P (s.resumeSection t c reason) := by
  have unlinked : P (s.unlink c.msqid t) := kept.unlink h c.msqid
  have known : (s.unlink c.msqid t).calls t = none → t < s.tasks := by
    intro absent
    rw [MsgSys.unlink, commit_calls_nil, found] at absent
    cases absent
  cases reason with
  | interrupt => exact kept.ends unlinked
  | event =>
    rw [resumeSection]
    split
    · next m op =>
      split
      · rw [op]
        exact kept.waits unlinked known
      · exact kept.ends unlinked
    · exact kept.scan unlinked known _ _ _ _ _

theorem sysvMsgGet_unused {queues : Nat → MsgQueue} {key : Int} {creat excl : Bool} {id : Nat}
    (made : sysvMsgGet queues key creat excl = .ok (id, true)) : (queues id).used = false := by
  unfold sysvMsgGet at made
  split at made
  · split at made <;> cases made
  split at made
  · cases made
  · split at made
    · next i free =>
      cases made
      simpa using find?_some free
    · cases made

/-- **Sections keep what their writes keep.** -/
theorem Kept.step (kept : Kept P ok) {l : MsgLabel} (h : P s) (meets : ok s l)
    (taken : s.step l = some s') : P s' := by
  cases l
  case get key creat excl =>
    rw [MsgSys.step] at taken
    split at taken
    · next id made =>
      cases taken
      exact kept.fresh h (sysvMsgGet_unused made)
    · cases taken
      exact h
  case rmid id =>
    obtain ⟨-, ⟨⟩⟩ := ite_none_right_eq_some.mp taken
    exact kept.rmid h meets
  case send t id m nowait =>
    obtain ⟨⟨task, -⟩, taken⟩ := ite_none_right_eq_some.mp taken
    split at taken
    · cases taken
      exact h
    · next used =>
      split at taken
      · next room =>
        cases taken
        exact kept.send h meets (by simpa using used) room
      · split at taken
        · cases taken
          exact h
        · cases taken
          exact kept.waits h fun _ => task
  case recv t id msgsz typ noerror nowait =>
    obtain ⟨⟨task, -⟩, taken⟩ := ite_none_right_eq_some.mp taken
    split at taken
    · cases taken
      exact h
    · cases taken
      exact kept.scan h (fun _ => task) id msgsz typ noerror nowait
  -- the other steps are those of a call that is under way
  all_goals
    rw [MsgSys.step] at taken
    split at taken
    case h_2 => cases taken
    rename_i c found
  · obtain ⟨-, ⟨⟩⟩ := ite_none_right_eq_some.mp taken
    exact kept.ends h
  · obtain ⟨preparing, ⟨⟩⟩ := ite_none_right_eq_some.mp taken
    exact kept.link h found preparing _
  · obtain ⟨-, ⟨⟩⟩ := ite_none_right_eq_some.mp taken
    exact kept.woken h found
  all_goals
    split at taken
    case h_2 => cases taken
  · next reason _ =>
    cases taken
    exact kept.resume h found reason
  · next m op phase =>
    cases taken
    exact kept.append h meets found op phase

end Steps

/-! ### The counters in every run -/

def Accounted (s : MsgSys) : Prop := ∀ id, (s.queues id).Accounted

theorem Accounted.commit {s : MsgSys} (h : s.Accounted) {id : Nat} (accounted : q.Accounted)
    (woken : List Nat) (appends : List Append) : (s.commit id q woken appends).Accounted :=
  (forall_update_iff s.queues fun _ q => q.Accounted).mpr ⟨accounted, fun i _ => h i⟩

theorem Accounted.publish {s : MsgSys} (h : s.Accounted) (id : Nat) (m : Msg) :
    (s.publish id m).Accounted := by
  apply h.commit
  exact ((h id).append m).alike ⟨rfl, rfl, rfl, rfl, rfl⟩

theorem kept_accounted : Kept Accounted always where
  alike h same := h.commit ((h _).alike same) _ _
  ends h := h
  woken h _ := h
  fresh h _ := h.commit ⟨rfl, rfl⟩ _ _
  rmid h _ := h.commit ⟨rfl, rfl⟩ _ _
  take h found := by
    apply h.commit
    exact ((h _).take found).alike ⟨rfl, rfl, rfl, rfl, rfl⟩
  misses h _ _ := h
  waits h _ := h
  grant h _ _ _ _ := h
  sleeps h _ _ := h
  send h _ _ _ := h.publish _ _
  append h _ _ _ _ := h.publish _ _

/-! ### Appends -/

/-- Task `t` is a sender that was granted room in queue `id` and has not appended yet. -/
def GrantedOn (s : MsgSys) (id t : Nat) : Prop :=
  ∃ c ∈ s.calls t, c.msqid = id ∧ c.phase = .granted ∧ c.op.isSend = true

instance (s : MsgSys) (id t : Nat) : Decidable (s.GrantedOn id t) := by
  unfold GrantedOn
  infer_instance

/-- The condition on the steps of a run: while a sender is granted room in a queue, nobody else
appends to the queue or removes it. -/
def Undisturbed (s : MsgSys) : MsgLabel → Prop
  | .rmid id => ∀ t < s.tasks, ¬ s.GrantedOn id t
  | .send _ id m _ => (s.queues id).used = true → (s.queues id).Room m.size →
      ∀ t < s.tasks, ¬ s.GrantedOn id t
  | .append t => ∀ c ∈ s.calls t, ∀ u < s.tasks, u ≠ t → ¬ s.GrantedOn c.msqid u
  | _ => True

instance (s : MsgSys) (l : MsgLabel) : Decidable (s.Undisturbed l) := by
  cases l <;> unfold Undisturbed <;> infer_instance

/-- Senders that were granted room have it, and every append so far went to a live queue and
kept it within its limit. -/
structure Served (s : MsgSys) : Prop where
  known : ∀ t, s.calls t ≠ none → t < s.tasks
  granted : ∀ t c m, s.calls t = some c → c.op = .send m → c.phase = .granted →
    (s.queues c.msqid).used = true ∧ (s.queues c.msqid).Room m.size
  appends : ∀ a ∈ s.log, a.live = true ∧ a.cbytes ≤ a.qbytes

variable {appends : List Append} {woken : List Nat}

section Served

variable {s : MsgSys} {t id : Nat}

/-- A write to a queue that leaves room where there was some, if a granted sender counts on it. -/
theorem Served.commit (h : s.Served)
    (serves : ∀ t, s.GrantedOn id t → q.used = (s.queues id).used ∧
      q.cbytes ≤ (s.queues id).cbytes ∧ q.qbytes = (s.queues id).qbytes)
    (fine : ∀ a ∈ appends, a.live = true ∧ a.cbytes ≤ a.qbytes) :
    (s.commit id q woken appends).Served where
  known t here := h.known t (calls_ne_none_of_wakeAll here)
  granted t c m after op granted := by
    have before : s.calls t = some c := calls_of_wakeAll after (by simp [granted])
    obtain ⟨used, room⟩ := h.granted t c m before op granted
    by_cases same : c.msqid = id
    · obtain ⟨keepsUsed, fewer, keepsLimit⟩ := serves t ⟨c, before, same, granted, by rw [op]; rfl⟩
      simp only [MsgSys.commit, same, update_self, MsgQueue.Room] at used room ⊢
      exact ⟨keepsUsed.trans used, by omega⟩
    · simp only [MsgSys.commit, update_of_ne same]
      exact ⟨used, room⟩
  appends := forall_mem_append.mpr ⟨h.appends, fine⟩

theorem Served.alike (h : s.Served) (same : (s.queues id).Alike q) : (s.commit id q [] []).Served :=
  h.commit (fun _ _ => ⟨same.used, Nat.le_of_eq same.cbytes, same.qbytes⟩) (by simp)

variable {c : Option MsgCall}

/-- What holds of a call and of those of the other tasks. -/
theorem forall_setCall {P : Nat → Option MsgCall → Prop} (own : P t c)
    (others : ∀ u, P u (s.calls u)) (u : Nat) : P u ((s.setCall t c).calls u) :=
  (forall_update_iff s.calls P).mpr ⟨own, fun u _ => others u⟩ u

/-- Only tasks that exist have calls. -/
theorem known_setCall (old : ∀ u, s.calls u ≠ none → u < s.tasks)
    (known : s.calls t = none → c ≠ none → t < s.tasks) :
    ∀ u, (s.setCall t c).calls u ≠ none → u < s.tasks := by
  refine forall_setCall (P := fun u d => d ≠ none → u < s.tasks) (fun here => ?_) old
  by_cases absent : s.calls t = none
  · exact known absent here
  · exact old t absent

/-- A call moves to a phase in which it has room if it is granted. -/
theorem Served.setCall (h : s.Served) (known : s.calls t = none → c ≠ none → t < s.tasks)
    (own : ∀ d ∈ c, ∀ m, d.op = .send m → d.phase = .granted →
      (s.queues d.msqid).used = true ∧ (s.queues d.msqid).Room m.size) :
    (s.setCall t c).Served where
  known := known_setCall h.known known
  granted u d m := forall_setCall (P := fun _ c => c = some d → d.op = .send m → _)
    (fun after => own d after m) (fun u => h.granted u d m) u
  appends := h.appends

theorem Served.ends (h : s.Served) : (s.setCall t none).Served :=
  h.setCall (fun _ absent => absurd rfl absent) (by simp)

/-- An append where nobody else was granted room. -/
theorem Served.publish (h : s.Served) (alone : ∀ t, ¬ s.GrantedOn id t)
    (used : (s.queues id).used = true) (room : (s.queues id).Room m.size) :
    (s.publish id m).Served := by
  apply h.commit
  · exact fun t granted => absurd granted (alone t)
  · exact forall_mem_singleton.mpr ⟨used, room⟩

theorem Served.alone (h : s.Served) (nobody : ∀ t < s.tasks, ¬ s.GrantedOn id t) (t : Nat) :
    ¬ s.GrantedOn id t := by
  intro here
  have task : t < s.tasks := by
    obtain ⟨c, found, -⟩ := here
    apply h.known
    rw [mem_def.mp found]
    simp
  exact nobody t task here

/-- A sender's call may just as well end before its append. -/
theorem publish_ends : (s.publish id m).setCall t none = (s.setCall t none).publish id m := by
  unfold MsgSys.publish MsgSys.setCall MsgSys.commit
  congr 1
  funext u
  by_cases same : u = t
  · subst same
    simp [wakeAll]
  · simp only [wakeAll, update_of_ne same]

end Served

theorem kept_served : Kept Served Undisturbed where
  alike h same := h.alike same
  ends h := h.ends
  woken h found := h.setCall (fun absent => by simp [absent] at found) (by simp)
  fresh {s key id} h unused := by
    apply h.commit
    · -- a sender is granted room in queues in use only
      rintro t ⟨c, found, rfl, granted, sender⟩
      cases op : c.op with
      | send m =>
        rw [(h.granted t c m found op granted).1] at unused
        cases unused
      | recv msgsz typ noerror =>
        rw [op] at sender
        cases sender
    · simp
  rmid h quiet := by
    apply h.commit
    · exact fun t granted => absurd granted (h.alone quiet t)
    · simp
  take h _ := by
    apply h.commit
    · exact fun _ _ => ⟨rfl, Nat.sub_le _ _, rfl⟩
    · simp
  misses h known _ := h.setCall (fun absent _ => known absent) (by simp)
  waits h known := h.setCall (fun absent _ => known absent) (by simp)
  grant {s t c m} h found op used room := by
    refine h.setCall (fun absent => by simp [absent] at found) ?_
    rintro d ⟨rfl⟩ m' op' -
    cases op.symm.trans op'
    exact ⟨used, room⟩
  sleeps h found _ := h.setCall (fun absent => by simp [absent] at found) (by simp)
  send h quiet used room := h.publish (h.alone (quiet used room)) used room
  append {s t c m} h quiet found op granted := by
    obtain ⟨used, room⟩ := h.granted t c m found op granted
    rw [publish_ends]
    refine h.ends.publish (h.ends.alone ?_) used room
    rintro u task ⟨d, other, rest⟩
    by_cases same : u = t
    · subst same
      simp [MsgSys.setCall] at other
    · simp only [MsgSys.setCall, update_of_ne same] at other
      exact quiet c found u task same ⟨d, other, rest⟩

/-- **Message queue accounting.** In every run the counters of every queue agree with its
messages. In every run in which nobody appends to a queue or removes it while a sender is between
finding room there and appending, every append goes to a live queue and stays within its limit. -/
theorem msg_accounting (tasks : Nat) :
    (∀ s, RunsTo step always (init tasks) s → ∀ id,
      (s.queues id).cbytes = ((s.queues id).msgs.map Msg.size).sum ∧
        (s.queues id).qnum = (s.queues id).msgs.length) ∧
    ∀ s, RunsTo step Undisturbed (init tasks) s →
      ∀ a ∈ s.log, a.live = true ∧ a.cbytes ≤ a.qbytes := by
  constructor
  · intro s run id
    have start : (init tasks).Accounted := fun _ => ⟨rfl, rfl⟩
    have accounted := run.invariant kept_accounted.step start
    exact ⟨(accounted id).bytes, (accounted id).number⟩
  · intro s run
    have start : (init tasks).Served := ⟨by simp [init], by simp [init], by simp [init]⟩
    have served := run.invariant kept_served.step start
    exact served.appends

/-- A sender sleeps for want of room, finds it after a receive and appends. -/
def oneByOne : List MsgLabel :=
  [.get 7 true false, .send 0 0 ⟨1, 8192⟩ false, .send 0 0 ⟨1, 8192⟩ false,
   .send 1 0 ⟨1, 8192⟩ false, .link 1 true, .recv 0 0 8192 0 false false, .resume 1, .link 1 true,
   .append 1]

theorem msg_accounting_oneByOne :
    ∃ s, RunsTo step Undisturbed (init 2) s ∧ s.log.length = 3 ∧
      ∀ a ∈ s.log, a.live = true ∧ a.cbytes ≤ a.qbytes := by
  obtain ⟨s, run, known⟩ : ∃ s, RunsTo step Undisturbed (init 2) s ∧ s.log.length = 3 :=
    runsTo_of_execWhile oneByOne (by decide +kernel)
  exact ⟨s, run, known, (msg_accounting 2).2 s run⟩

/-- Two senders find the same room; and a sender that found room appends to a removed queue. -/
theorem msg_accounting_disturbed :
    (∃ s, RunsTo step always (init 3) s ∧ ∃ a ∈ s.log, a.qbytes < a.cbytes) ∧
      ∃ s, RunsTo step always (init 3) s ∧ ∃ a ∈ s.log, a.live = false := by
  constructor
  · exact runsTo_of_exec
      [.get 7 true false, .send 0 0 ⟨1, 8192⟩ false, .send 0 0 ⟨1, 8192⟩ false,
       .send 1 0 ⟨1, 8192⟩ false, .send 2 0 ⟨1, 8192⟩ false, .link 1 true, .link 2 true,
       .recv 0 0 8192 0 false false, .resume 1, .resume 2, .link 1 true, .link 2 true, .append 1,
       .append 2] (by decide +kernel)
  · exact runsTo_of_exec
      [.get 7 true false, .send 0 0 ⟨1, 8192⟩ false, .send 0 0 ⟨1, 8192⟩ false,
       .send 1 0 ⟨1, 8192⟩ false, .link 1 true, .recv 0 0 8192 0 false false, .resume 1,
       .link 1 true, .rmid 0, .append 1] (by decide +kernel)

/-! ### Sleeping receivers -/

/-- The call is a receive that takes the message. -/
def wants (c : MsgCall) (m : Msg) : Bool :=
  match c.op with
  | .recv _ typ _ => msgMatches typ m
  | .send _ => false

/-- The message a section is about to append, and the queue. -/
def appended (s : MsgSys) : MsgLabel → Option (Nat × Msg)
  | .send _ id m _ => if (s.queues id).used ∧ (s.queues id).Room m.size then some (id, m) else none
  | .append t =>
      match s.calls t with
      | some ⟨id, .send m, _⟩ => some (id, m)
      | _ => none
  | _ => none

/-- Task `t` wants the message and does not learn of it: it is between its scan and its link, or
asleep and not the one that an append to the queue wakes. -/
def Missed (s : MsgSys) (id : Nat) (m : Msg) (t : Nat) : Prop :=
  ∃ c ∈ s.calls t, c.msqid = id ∧ wants c m = true ∧
    (c.phase = .preparing ∨ c.phase = .parked none ∧ (s.queues id).recvWq.head? ≠ some t)

instance (s : MsgSys) (id : Nat) (m : Msg) (t : Nat) : Decidable (s.Missed id m t) := by
  unfold Missed
  infer_instance

/-- The condition on the steps of a run: no task misses a message it wants. -/
def Noticed (s : MsgSys) (l : MsgLabel) : Prop :=
  ∀ x ∈ s.appended l, ∀ t < s.tasks, ¬ s.Missed x.1 x.2 t

instance (s : MsgSys) (l : MsgLabel) : Decidable (s.Noticed l) := by
  unfold Noticed
  infer_instance

/-- No call that prepares a wait or sleeps wants a message that is in its queue. -/
structure Heard (s : MsgSys) : Prop where
  known : ∀ t, s.calls t ≠ none → t < s.tasks
  nothing : ∀ t c, s.calls t = some c → c.phase = .preparing ∨ c.phase = .parked none →
    ∀ m ∈ (s.queues c.msqid).msgs, wants c m = false

section Heard

variable {s : MsgSys} {t id : Nat}

/-- A write whose messages were in the queue before, or are wanted by no one left asleep. -/
theorem Heard.commit (h : s.Heard)
    (old : ∀ m ∈ q.msgs, m ∈ (s.queues id).msgs ∨
      ∀ t c, s.calls t = some c → c.msqid = id →
        c.phase = .preparing ∨ c.phase = .parked none ∧ t ∉ woken → wants c m = false) :
    (s.commit id q woken appends).Heard where
  known t here := h.known t (calls_ne_none_of_wakeAll here)
  nothing t c after phase m member := by
    have before : s.calls t = some c := by
      apply calls_of_wakeAll after
      intro r
      rcases phase with phase | phase <;> simp [phase]
    by_cases same : c.msqid = id
    · simp only [MsgSys.commit, same, update_self] at member
      rcases old m member with there | nobody
      · exact h.nothing t c before phase m (by rwa [same])
      · exact nobody t c before same (phase.imp_right fun asleep =>
          ⟨asleep, not_mem_of_wakeAll after asleep⟩)
    · simp only [MsgSys.commit, update_of_ne same] at member
      exact h.nothing t c before phase m member

theorem Heard.setCall (h : s.Heard) {c : Option MsgCall}
    (known : s.calls t = none → c ≠ none → t < s.tasks)
    (own : ∀ d ∈ c, d.phase = .preparing ∨ d.phase = .parked none →
      ∀ m ∈ (s.queues d.msqid).msgs, wants d m = false) : (s.setCall t c).Heard where
  known := known_setCall h.known known
  nothing u d := forall_setCall (P := fun _ c => c = some d → _) (own d) (fun u => h.nothing u d) u

theorem Heard.publish (h : s.Heard) (noticed : ∀ t < s.tasks, ¬ s.Missed id m t) :
    (s.publish id m).Heard := by
  apply h.commit
  refine forall_mem_append.mpr ⟨fun _ => .inl, forall_mem_singleton.mpr (.inr ?_)⟩
  intro t c found here phase
  by_contra wanted
  refine noticed t (h.known t (by simp [found])) ⟨c, found, here, by simpa using wanted, ?_⟩
  exact phase.imp_right fun asleep => ⟨asleep.1, by simpa using asleep.2⟩

end Heard

theorem kept_heard : Kept Heard Noticed where
  alike h same := h.commit fun m member => .inl (by rwa [← same.msgs])
  ends h := h.setCall (fun _ absent => absurd rfl absent) (by simp)
  woken h found := h.setCall (fun absent => by simp [absent] at found) (by simp)
  fresh h _ := h.commit fun m member => by cases member
  rmid h _ := h.commit fun m member => by cases member
  take h _ := h.commit fun m member => .inl (mem_of_mem_eraseP member)
  misses {s t id msgsz typ noerror} h known missing := by
    apply h.setCall fun absent _ => known absent
    rintro d ⟨rfl⟩ - m member
    simpa [wants] using find?_eq_none.mp missing m member
  waits h known := h.setCall (fun absent _ => known absent) (by simp [wants])
  grant h found _ _ _ := h.setCall (fun absent => by simp [absent] at found) (by simp)
  sleeps {s t c} h found preparing := by
    refine h.setCall (fun absent => by simp [absent] at found) ?_
    rintro d ⟨rfl⟩ - m member
    exact h.nothing t c found (.inl preparing) m member
  send {s t id m nowait} h noticed used room := by
    apply h.publish
    apply noticed (id, m)
    simp [appended, used, room]
  append {s t c m} h noticed found op granted := by
    have shape : s.calls t = some ⟨c.msqid, .send m, c.phase⟩ := by rw [found, ← op]
    have published : (s.publish c.msqid m).Heard := by
      apply h.publish
      apply noticed (c.msqid, m)
      simp only [appended, shape, mem_def]
    exact published.setCall (fun _ absent => absurd rfl absent) (by simp)

/-- The message is one that a receive with the type argument asks for. -/
def selects (typ : Int) (m : Msg) : Bool :=
  if typ = 0 then true else if 0 < typ then m.type == typ else decide (m.type ≤ -typ)

/-- The code's test is that one but for the least `int64_t`. -/
theorem msgMatches_eq {typ : Int} (above : -2 ^ 63 < typ) (m : Msg) :
    msgMatches typ m = selects typ m := by
  unfold msgMatches selects
  split
  · rfl
  split
  · rfl
  · rw [Int.bmod_eq_of_le (by omega) (by omega)]

/-- The oldest message of the smallest type up to `t`. -/
def OldestSmallest (msgs : List Msg) (t : Int) (m : Msg) : Prop :=
  m.type ≤ t ∧ (∀ x ∈ msgs, x.type ≤ t → m.type ≤ x.type) ∧
    ∃ before after, msgs = before ++ m :: after ∧ ∀ x ∈ before, x.type ≠ m.type

theorem msgSelect_negative {t : Int} (positive : 0 < t) (below : t < 2 ^ 63) :
    msgSelect msgs (-t) = some m ↔ m.type ≤ t ∧
      ∃ before after, msgs = before ++ m :: after ∧ ∀ x ∈ before, t < x.type := by
  have test : ∀ x, msgMatches (-t) x = decide (x.type ≤ t) := by
    intro x
    rw [msgMatches_eq (by omega), selects, if_neg (by omega), if_neg (by omega), Int.neg_neg]
  rw [msgSelect, find?_eq_some_iff_append]
  simp [test]

/-- A receive with type argument `-t`, on a queue that has something for it, finds the oldest
message of the smallest type exactly if the oldest that it can take is one. -/
theorem msgSelect_smallest_iff {t : Int} (positive : 0 < t) (int64 : t ≤ 2 ^ 63)
    (types : ∀ x ∈ msgs, 0 < x.type) :
    ((∃ x ∈ msgs, x.type ≤ t) → ∃ m, msgSelect msgs (-t) = some m ∧ OldestSmallest msgs t m) ↔
    (∀ x ∈ msgs, t < x.type) ∨ t < 2 ^ 63 ∧
      ∀ before m after, msgs = before ++ m :: after → (∀ x ∈ before, t < x.type) → m.type ≤ t →
        ∀ x ∈ after, x.type ≤ t → m.type ≤ x.type := by
  constructor
  · intro finds
    by_cases none : ∀ x ∈ msgs, t < x.type
    · exact .inl none
    obtain ⟨x, member, small⟩ : ∃ x ∈ msgs, x.type ≤ t := by simpa using none
    obtain ⟨m, found, -, smallest, -⟩ := finds ⟨x, member, small⟩
    have below : t < 2 ^ 63 := by
      by_contra least
      obtain rfl : t = 2 ^ 63 := by omega
      have taken : msgMatches (-2 ^ 63) m = true := find?_some found
      have := types m (mem_of_find?_eq_some found)
      have : m.type ≤ -2 ^ 63 := by simpa [msgMatches] using taken
      omega
    refine .inr ⟨below, ?_⟩
    rintro before m' after rfl skipped takes x later
    cases ((msgSelect_negative positive below).mpr ⟨takes, before, after, rfl, skipped⟩).symm.trans
      found
    exact smallest x (by simp [later])
  · rintro (none | ⟨below, first⟩) ⟨x, member, small⟩
    · exact absurd small (Int.not_le.mpr (none x member))
    obtain ⟨m, found⟩ : ∃ m, msgSelect msgs (-t) = some m := by
      refine Option.isSome_iff_exists.mp (find?_isSome.mpr ⟨x, member, ?_⟩)
      rw [msgMatches_eq (by omega), selects, if_neg (by omega), if_neg (by omega)]
      simpa using small
    obtain ⟨takes, before, after, split, skipped⟩ := (msgSelect_negative positive below).mp found
    refine ⟨m, found, takes, fun y here inRange => ?_, before, after, split, fun y early => ?_⟩
    · rw [split] at here
      rcases mem_append.mp here with early | late
      · exact absurd inRange (Int.not_le.mpr (skipped y early))
      · rcases mem_cons.mp late with rfl | later
        · exact Int.le_refl _
        · exact first before m after split skipped takes y later inRange
    · have := skipped y early
      omega

/-- **Receivers and their messages.** In every run in which no task misses an append of a message
it wants, no receiver sleeps unwoken while its queue holds a message its type argument selects,
unless that is the least `int64_t`. A receive with type argument `-t` finds the oldest message of
the smallest type up to `t` exactly if the oldest message up to `t` has no smaller one behind it
and `t` can be negated. -/
theorem msg_receivers (tasks : Nat) :
    (∀ s, RunsTo step Noticed (init tasks) s →
      ∀ t id msgsz typ noerror, -2 ^ 63 < typ →
        s.calls t = some ⟨id, .recv msgsz typ noerror, .parked none⟩ →
        ∀ m ∈ (s.queues id).msgs, selects typ m = false) ∧
    ∀ (msgs : List Msg) (t : Int), 0 < t → t ≤ 2 ^ 63 → (∀ x ∈ msgs, 0 < x.type) →
      (((∃ x ∈ msgs, x.type ≤ t) → ∃ m, msgSelect msgs (-t) = some m ∧ OldestSmallest msgs t m) ↔
      (∀ x ∈ msgs, t < x.type) ∨ t < 2 ^ 63 ∧
        ∀ before m after, msgs = before ++ m :: after → (∀ x ∈ before, t < x.type) → m.type ≤ t →
          ∀ x ∈ after, x.type ≤ t → m.type ≤ x.type) := by
  constructor
  · intro s run t id msgsz typ noerror above found m member
    have start : (init tasks).Heard := ⟨by simp [init], by simp [init]⟩
    have heard := run.invariant kept_heard.step start
    rw [← msgMatches_eq above]
    exact heard.nothing t _ found (.inr rfl) m member
  · exact fun msgs t positive int64 types => msgSelect_smallest_iff positive int64 types

/-- A receiver of type 1 sleeps, takes the message it is woken for, and sleeps again. -/
def served : List MsgLabel :=
  [.get 7 true false, .recv 1 0 100 1 false false, .link 1 true, .send 0 0 ⟨1, 4⟩ false,
   .resume 1, .recv 1 0 100 1 false false, .link 1 true]

theorem msg_receivers_served :
    ∃ s, RunsTo step Noticed (init 2) s ∧
      s.calls 1 = some ⟨0, .recv 100 1 false, .parked none⟩ ∧
      ∀ m ∈ (s.queues 0).msgs, selects 1 m = false := by
  obtain ⟨s, run, asleep⟩ : ∃ s, RunsTo step Noticed (init 2) s ∧
      s.calls 1 = some ⟨0, .recv 100 1 false, .parked none⟩ :=
    runsTo_of_execWhile served (by decide +kernel)
  exact ⟨s, run, asleep, (msg_receivers 2).1 s run 1 0 100 1 false (by decide) asleep⟩

/-- Receivers of types 1 and 2 sleep, the message of type 1 wakes the second, which sleeps again;
and a receive of type -3 takes a message of type 3 before one of type 2. -/
theorem msg_receivers_passed_over :
    (∃ s, RunsTo step always (init 3) s ∧
      s.calls 1 = some ⟨0, .recv 100 1 false, .parked none⟩ ∧
      s.calls 2 = some ⟨0, .recv 100 2 false, .parked none⟩ ∧ s.calls 0 = none ∧
      ∃ m ∈ (s.queues 0).msgs, selects 1 m = true) ∧
    msgSelect [⟨3, 4⟩, ⟨2, 4⟩] (-3) = some ⟨3, 4⟩ := by
  refine ⟨runsTo_of_exec [.get 7 true false, .recv 1 0 100 1 false false, .link 1 true,
    .recv 2 0 100 2 false false, .link 2 true, .send 0 0 ⟨1, 4⟩ false, .resume 2, .link 2 true] ?_,
      ?_⟩
  all_goals decide +kernel

end MsgSys

end A20OS.Ipc
