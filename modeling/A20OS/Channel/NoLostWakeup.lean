import A20OS.Channel.Blocking

/-!
When channels lose no wakeup.

While a receiver waits on an endpoint, every message queued there is covered by a credit: a
wake in flight to a receiver, a receiver that such a wake reached and that has not looked
since, or a call that still owes its deferred wake. When every operation has returned or
sleeps there are no credits, so no receiver sleeps in front of a message.

The code gives some credits up for nothing: a call that does not wait or cannot donate its CPU
forgets its wake, a wake may reach nobody, and a woken receiver may leave the message.
`Sys.allowed` says that this happens only where no receiver waits or no message is queued.
-/

namespace A20OS.Channel.Blocking

open Lib Proc Function List Option Park

variable {op : RecvOp} {stage : Stage} {c : Pair} {stage' : Stage} {j : Nat}

/-! ### Credits -/

/-- The credits a task holds for endpoint `e`. -/
def credit (e : EpId) (th : Task) : Nat :=
  (if th.stage.owed = some e then 1 else 0) + if th.earned = some e then 1 else 0

namespace Sys

/-- A receiver has an entry on the wait queue and was not woken. -/
def waiting (s : Sys) (e : EpId) : Bool :=
  (s.waiters e).any fun w => w.key = .recv ∧ (s.tasks[w.task]?).any fun th => th.park.waits w.seq

def credits (s : Sys) (e : EpId) : Nat :=
  total (credit e) s.tasks + s.wakes.countP fun wake => wake.ep = e ∧ wake.waiter.key = .recv

/-- A credit for the endpoint may be given up. -/
def slack (s : Sys) (e : EpId) : Bool := (s.queue e).isEmpty || !s.waiting e

end Sys

/-- The entries and the wakes in flight of task `i` belong to its current wait, and it
can be found through one of them. -/
structure TaskOk (s : Sys) (i : Nat) (th : Task) : Prop where
  entries : ∀ e, ∀ w ∈ s.waiters e, w.task = i →
    th.stage.linked = some (e, w.key) ∧ w.seq = th.park.waitSeq
  flying : ∀ wake ∈ s.wakes, wake.waiter.task = i →
    wake.waiter.seq ≤ th.park.waitSeq ∧
      (th.park.waits wake.waiter.seq = true → th.stage.linked = some (wake.ep, wake.waiter.key))
  found : ∀ e key, th.stage.linked = some (e, key) → th.park.unwoken = true →
    ⟨i, th.park.waitSeq, key⟩ ∈ s.waiters e ∨
      ∃ wake ∈ s.wakes, wake.waiter = ⟨i, th.park.waitSeq, key⟩
  started : th.park.unwoken = true → 0 < th.park.waitSeq

/-- The invariant, up to messages that are not covered yet. -/
structure Inv (s : Sys) (debt : EpId → Nat) : Prop where
  sound : ∀ n, (s.chans n).Sound
  live : ∀ n b, (s.chans n).live b = true
  closed : ∀ e : EpId, ((s.chan e).ep e.2).peerClosed = true → s.waiters e = []
  tasks : ∀ i th, s.tasks[i]? = some th → TaskOk s i th
  covered : ∀ e, s.waiting e = true → (s.queue e).length ≤ s.credits e + debt e

section Moves

variable {s : Sys} {debt debt' : EpId → Nat} {i : Nat} {th th' : Task} {e : EpId}

theorem waiting_iff : s.waiting e = true ↔
    ∃ w ∈ s.waiters e, w.key = .recv ∧
      ∃ th, s.tasks[w.task]? = some th ∧ th.park.waits w.seq = true := by
  simp [Sys.waiting, Option.any_eq_true]

theorem slack_iff : s.slack e = true ↔ (s.waiting e = true → s.queue e = []) := by
  cases waiting : s.waiting e <;> simp [Sys.slack, waiting]

theorem credits_setTask (here : s.tasks[i]? = some th) (th' : Task) (e : EpId) :
    (s.setTask i th').credits e + credit e th = s.credits e + credit e th' := by
  have moved := total_set (f := credit e) here th'
  unfold Sys.credits
  change total (credit e) (s.tasks.set i th') + s.wakes.countP _ + _ = _
  omega

/-- No receiver waits that did not wait before, if the task's current wait did not begin
only now. -/
theorem waiting_setTask (here : s.tasks[i]? = some th) (ok : TaskOk s i th)
    (waits : th'.park.waits th.park.waitSeq = true → th.park.waits th.park.waitSeq = true)
    (now : (s.setTask i th').waiting e = true) : s.waiting e = true := by
  obtain ⟨w, hw, key, t, member, waitsNow⟩ := waiting_iff.mp now
  refine waiting_iff.mpr ⟨w, hw, key, ?_⟩
  rcases getElem?_set_cases member with ⟨mine, rfl⟩ | ⟨-, old⟩
  · have seq := (ok.entries e w hw mine).2
    rw [seq] at waitsNow ⊢
    exact ⟨th, mine ▸ here, waits waitsNow⟩
  · exact ⟨t, old, waitsNow⟩

theorem waiters_setWaiters (s : Sys) (e : EpId) (ws : List Waiter) (e' : EpId) :
    (s.setWaiters e ws).waiters e' = if e' = e then ws else s.waiters e' :=
  update_apply _ _ _ _

section
variable (inv : Inv s debt)
include inv

section
variable (here : s.tasks[i]? = some th)
include here

/-- Task `i` changes and with it its own entries in the wait queues. -/
theorem Inv.turn {waiters : EpId → List Waiter}
    (own : TaskOk { s.setTask i th' with waiters } i th')
    (others : ∀ e w, w.task ≠ i → (w ∈ waiters e ↔ w ∈ s.waiters e))
    (closed : ∀ e : EpId, ((s.chan e).ep e.2).peerClosed = true → waiters e = [])
    (waits : ∀ e w, w ∈ waiters e → w.task = i → w.key = .recv → th'.park.waits w.seq = true →
      s.waiting e = true ∨ s.queue e = [])
    (paid : ∀ e, s.slack e = true ∨ credit e th + debt e ≤ credit e th' + debt' e) :
    Inv { s.setTask i th' with waiters } debt' := by
  refine ⟨inv.sound, inv.live, closed, ?_, ?_⟩
  · intro j t member
    rcases getElem?_set_cases member with ⟨rfl, rfl⟩ | ⟨other, old⟩
    · exact own
    · have ok := inv.tasks j t old
      refine ⟨fun e w hw mine => ?_, ok.flying, fun e key entry unwoken => ?_, ok.started⟩
      · exact ok.entries e w ((others e w fun same => other (mine.symm.trans same)).mp hw) mine
      · exact (ok.found e key entry unwoken).imp_left (others e _ other).mpr
  · intro e now
    have moved := credits_setTask here th' e
    change (s.queue e).length ≤ (s.setTask i th').credits e + debt' e
    obtain ⟨w, hw, recv, t, member, waitsNow⟩ := waiting_iff.mp now
    have before : s.waiting e = true ∨ s.queue e = [] := by
      rcases getElem?_set_cases member with ⟨mine, rfl⟩ | ⟨other, old⟩
      · exact waits e w hw mine recv waitsNow
      · exact .inl (waiting_iff.mpr ⟨w, (others e w other).mp hw, recv, t, old, waitsNow⟩)
    rcases before with before | empty
    · have covered := inv.covered e before
      rcases paid e with slack | paid
      · rw [slack_iff.mp slack before]
        exact Nat.zero_le _
      · omega
    · rw [empty]
      exact Nat.zero_le _

/-- A task goes on in a stage with the same entry, in the same wait or, without an entry,
in a new one. -/
theorem Inv.stay (linked : th'.stage.linked = th.stage.linked)
    (park : Park.Continues th.park th'.park ∨
      th.stage.linked = none ∧ Park.Opens th.park th'.park)
    (paid : ∀ e, s.slack e = true ∨ credit e th + debt e ≤ credit e th' + debt' e) :
    Inv (s.setTask i th') debt' := by
  have ok := inv.tasks i th here
  -- No older wait comes back to life.
  have waits : ∀ seq, seq ≤ th.park.waitSeq → th'.park.waits seq = true →
      th.park.waits seq = true := by
    intro seq old waits
    rcases park with same | ⟨-, opens⟩
    · exact same.waits waits
    · have current := (waits_iff.mp waits).1
      unfold Park.Opens at opens
      omega
  refine inv.turn here ⟨?_, ?_, ?_, ?_⟩ (fun _ _ _ => .rfl) inv.closed ?_ paid
  · intro e w hw mine
    obtain ⟨entry, seq⟩ := ok.entries e w hw mine
    rcases park with same | ⟨none, -⟩
    · exact ⟨linked.trans entry, seq.trans same.waitSeq.symm⟩
    · rw [none] at entry
      cases entry
  · intro wake hwake mine
    obtain ⟨old, entry⟩ := ok.flying wake hwake mine
    refine ⟨?_, fun now => linked.trans (entry (waits _ old now))⟩
    rcases park with same | ⟨-, opens⟩
    · exact same.waitSeq ▸ old
    · unfold Park.Opens at opens
      omega
  · intro e key entry unwoken
    rw [linked] at entry
    rcases park with same | ⟨none, -⟩
    · rw [same.waitSeq]
      exact ok.found e key entry (same.unwoken unwoken)
    · rw [none] at entry
      cases entry
  · intro unwoken
    rcases park with same | ⟨-, opens⟩
    · rw [same.waitSeq]
      exact ok.started (same.unwoken unwoken)
    · unfold Park.Opens at opens
      omega
  · intro e w hw mine recv now
    have seq := (ok.entries e w hw mine).2
    exact .inl (waiting_iff.mpr ⟨w, hw, recv, th, mine ▸ here, waits _ seq.le now⟩)

/-- A task enters the wait queue of an open endpoint; a receiver does so only while there
is no message. -/
theorem Inv.link {key : Key} (free : th.stage.linked = none) (linked : stage.linked = some (e, key))
    (isOpen : ((s.chan e).ep e.2).peerClosed = false) (empty : key = .recv → s.queue e = [])
    (paid : ∀ e, credit e th + debt e ≤ credit e ⟨th.park, stage⟩ + debt' e) :
    Inv (s.link i th e key stage) debt' := by
  have ok := inv.tasks i th here
  have queues (e' : EpId) : (s.link i th e key stage).waiters e' =
      if e' = e then ⟨i, th.park.waitSeq, key⟩ :: s.waiters e else s.waiters e' :=
    waiters_setWaiters s e _ e'
  have mem {e' : EpId} {w : Waiter} : w ∈ (s.link i th e key stage).waiters e' ↔
      e' = e ∧ w = ⟨i, th.park.waitSeq, key⟩ ∨ w ∈ s.waiters e' := by
    rw [queues]
    by_cases same : e' = e <;> simp [same]
  refine inv.turn here ⟨?_, ?_, ?_, ok.started⟩ ?_ ?_ ?_ fun e => .inr (paid e)
  · intro e' w hw mine
    rcases mem.mp hw with ⟨rfl, rfl⟩ | old
    · exact ⟨linked, rfl⟩
    · have entry := (ok.entries e' w old mine).1
      rw [free] at entry
      cases entry
  · intro wake hwake mine
    obtain ⟨old, entry⟩ := ok.flying wake hwake mine
    refine ⟨old, fun now => ?_⟩
    have := entry now
    rw [free] at this
    cases this
  · intro e' key' entry _
    rw [linked] at entry
    cases entry
    exact .inl (mem.mpr (.inl ⟨rfl, rfl⟩))
  · intro e' w other
    refine mem.trans (or_iff_right ?_)
    rintro ⟨-, rfl⟩
    exact other rfl
  · intro e' closed
    have other : e' ≠ e := by
      rintro rfl
      exact Bool.false_ne_true (isOpen.symm.trans closed)
    exact (queues e').trans ((if_neg other).trans (inv.closed e' closed))
  · intro e' w hw mine recv now
    rcases mem.mp hw with ⟨rfl, rfl⟩ | old
    · exact .inr (empty recv)
    · exact .inl (waiting_iff.mpr ⟨w, old, recv, th, mine ▸ here, now⟩)

/-- A woken task leaves the wait queue. -/
theorem Inv.unlink (key : Key) (linked : th.stage.linked = some (e, key))
    (woken : th.park.state = .woken)
    (free : stage.linked = none)
    (paid : ∀ e, credit e th + debt e ≤ credit e ⟨th.park.finish, stage⟩ + debt' e) :
    Inv (s.unlink i th e stage) debt' := by
  have ok := inv.tasks i th here
  have past : th.park.finish.unwoken = false := by
    unfold finish
    rw [if_pos woken]
    rfl
  have queues (e' : EpId) : (s.unlink i th e stage).waiters e' =
      if e' = e then (s.waiters e).filter fun w => w.task ≠ i else s.waiters e' :=
    waiters_setWaiters s e _ e'
  have mem {e' : EpId} {w : Waiter} : w ∈ (s.unlink i th e stage).waiters e' ↔
      w ∈ s.waiters e' ∧ w.task ≠ i := by
    rw [queues]
    by_cases same : e' = e
    · subst same
      rw [if_pos rfl, mem_filter, decide_eq_true_eq]
    rw [if_neg same]
    refine ⟨fun hw => ⟨hw, fun mine => same ?_⟩, And.left⟩
    have entry := (ok.entries e' w hw mine).1
    rw [linked] at entry
    cases entry
    rfl
  refine inv.turn here ⟨?_, ?_, ?_, ?_⟩ ?_ ?_ ?_ fun e => .inr (paid e)
  · intro e' w hw mine
    exact absurd mine (mem.mp hw).2
  · intro wake hwake mine
    have old := (ok.flying wake hwake mine).1
    refine ⟨(finish_continues th.park).waitSeq ▸ old, fun now => ?_⟩
    rw [waits_iff] at now
    exact absurd (past.symm.trans now.2) Bool.false_ne_true
  · intro e' key' entry
    rw [free] at entry
    cases entry
  · intro unwoken
    exact absurd (past.symm.trans unwoken) Bool.false_ne_true
  · exact fun e' w other => mem.trans (and_iff_left other)
  · intro e' closed
    have empty := inv.closed e' closed
    exact eq_nil_iff_forall_not_mem.mpr fun w hw => by
      simpa [empty] using mem.mp hw
  · exact fun e' w hw mine => absurd mine (mem.mp hw).2

end

/-- Entries move from the wait queue of `e` into wakes in flight. -/
theorem Inv.takeOff (rest taken : List Waiter)
    (split : ∀ w, w ∈ s.waiters e ↔ w ∈ rest ∨ w ∈ taken)
    (paid : ∀ e', debt e' ≤
      debt' e' + if e' = e then taken.countP fun w => w.key = .recv else 0) :
    Inv { s.setWaiters e rest with wakes := s.wakes ++ taken.map fun w => ⟨e, w⟩ } debt' := by
  have queues (e' : EpId) := waiters_setWaiters s e rest e'
  have sub {e' : EpId} {w : Waiter} (hw : w ∈ (s.setWaiters e rest).waiters e') :
      w ∈ s.waiters e' := by
    rw [queues] at hw
    by_cases same : e' = e
    · subst same
      rw [if_pos rfl] at hw
      exact (split w).mpr (.inl hw)
    · rwa [if_neg same] at hw
  refine ⟨inv.sound, inv.live, ?_, ?_, ?_⟩
  · intro e' closed
    have empty := inv.closed e' closed
    exact eq_nil_iff_forall_not_mem.mpr fun w hw => by simpa [empty] using sub hw
  · intro j t member
    have ok := inv.tasks j t member
    refine ⟨fun e' w hw => ok.entries e' w (sub hw), ?_, ?_, ok.started⟩
    · intro wake hwake mine
      rcases mem_append.mp hwake with old | new
      · exact ok.flying wake old mine
      · obtain ⟨w, hw, rfl⟩ := mem_map.mp new
        obtain ⟨entry, seq⟩ := ok.entries e w ((split w).mpr (.inr hw)) mine
        exact ⟨seq.le, fun _ => entry⟩
    · intro e' key entry unwoken
      rw [queues]
      rcases ok.found e' key entry unwoken with listed | ⟨wake, hwake, same⟩
      · by_cases here : e' = e
        · subst here
          rw [if_pos rfl]
          refine ((split _).mp listed).imp_right fun moved => ?_
          exact ⟨⟨e', _⟩, mem_append_right _ (mem_map.mpr ⟨_, moved, rfl⟩), rfl⟩
        · rw [if_neg here]
          exact .inl listed
      · exact .inr ⟨wake, mem_append_left _ hwake, same⟩
  · intro e' now
    have before : s.waiting e' = true := by
      obtain ⟨w, hw, waits⟩ := waiting_iff.mp now
      exact waiting_iff.mpr ⟨w, sub hw, waits⟩
    have covered := inv.covered e' before
    have bound := paid e'
    have counted : (taken.map fun w => (⟨e, w⟩ : Wake)).countP
        (fun wake => wake.ep = e' ∧ wake.waiter.key = .recv) =
        if e' = e then taken.countP fun w => w.key = .recv else 0 := by
      rw [countP_map]
      by_cases same : e' = e
      · subst same
        rw [if_pos rfl]
        exact countP_congr fun w _ => by simp
      · rw [if_neg same]
        exact countP_eq_zero.mpr fun w _ => by simp [Ne.symm same]
    unfold Sys.credits at covered ⊢
    rw [countP_append, counted]
    change (s.queue e').length ≤ total (credit e') s.tasks + _ + _
    omega

omit inv in
theorem mem_iff_erase {ws : List Waiter} {w : Waiter} (member : w ∈ ws) (w' : Waiter) :
    w' ∈ ws ↔ w' ∈ ws.erase w ∨ w' ∈ [w] := by
  by_cases same : w' = w
  · subst same
    simp [member]
  · simp [same]

/-- A wake for a receiver pays for one message, unless no receiver is there to wait. -/
theorem Inv.collectOne_recv (e : EpId) (paid : ∀ e', debt e' ≤ debt' e' + if e' = e then 1 else 0) :
    Inv (s.collectOne e .recv) debt' := by
  unfold Sys.collectOne
  cases first : (s.waiters e).find? fun w => w.key = .recv with
  | none =>
    refine { inv with covered := fun e' now => ?_ }
    have covered := inv.covered e' now
    have bound := paid e'
    have other : e' ≠ e := by
      rintro rfl
      obtain ⟨w, hw, recv, -⟩ := waiting_iff.mp now
      exact find?_eq_none.mp first w hw (decide_eq_true recv)
    rw [if_neg other] at bound
    exact le_trans covered (Nat.add_le_add_left bound _)
  | some w =>
    have recv : w.key = .recv := by simpa using find?_some first
    refine inv.takeOff _ [w] (mem_iff_erase (mem_of_find?_eq_some first)) ?_
    simpa [recv] using paid

theorem Inv.collectOne_send (e : EpId) : Inv (s.collectOne e .send) debt := by
  unfold Sys.collectOne
  cases first : (s.waiters e).find? fun w => w.key = .send with
  | none => exact inv
  | some w =>
    exact inv.takeOff _ [w] (mem_iff_erase (mem_of_find?_eq_some first))
      fun _ => Nat.le_add_right _ _

theorem Inv.collectAll (e : EpId) : Inv (s.collectAll e) debt :=
  inv.takeOff [] (s.waiters e) (fun w => by simp) fun _ => Nat.le_add_right _ _

omit inv in
theorem countP_eraseIdx {α : Type} (p : α → Bool) {l : List α} {a : α} (at_j : l[j]? = some a) :
    (l.eraseIdx j).countP p + (if p a then 1 else 0) = l.countP p := by
  obtain ⟨below, rfl⟩ := List.getElem?_eq_some_iff.mp at_j
  rw [← (getElem_cons_eraseIdx_perm below).countP_eq, countP_cons]

/-- A wake in flight that no task waits for is dropped. -/
theorem Inv.drop {wake : Wake} (at_j : s.wakes[j]? = some wake)
    (gone : ∀ th, s.tasks[wake.waiter.task]? = some th → th.park.waits wake.waiter.seq = false)
    (paid : ∀ e, s.slack e = true ∨
      debt e + (if wake.ep = e ∧ wake.waiter.key = .recv then 1 else 0) ≤ debt' e) :
    Inv { s with wakes := s.wakes.eraseIdx j } debt' := by
  refine ⟨inv.sound, inv.live, inv.closed, ?_, ?_⟩
  · intro i th member
    have ok := inv.tasks i th member
    refine ⟨ok.entries, fun w hw => ok.flying w (mem_of_mem_eraseIdx hw), ?_, ok.started⟩
    intro e key entry unwoken
    rcases ok.found e key entry unwoken with listed | ⟨w, hw, same⟩
    · exact .inl listed
    right
    refine ⟨w, ?_, same⟩
    obtain ⟨k, at_k⟩ := mem_iff_getElem?.mp hw
    refine mem_eraseIdx_iff_getElem?.mpr ⟨k, ?_, at_k⟩
    -- The wake that the task is found through is not the one dropped.
    rintro rfl
    rw [at_k] at at_j
    cases at_j
    rw [same] at gone
    have := gone th member
    rw [waits, unwoken] at this
    simp at this
  · intro e now
    have covered := inv.covered e now
    have counted := countP_eraseIdx
      (fun wake : Wake => decide (wake.ep = e ∧ wake.waiter.key = .recv)) at_j
    simp only [decide_eq_true_eq] at counted
    change (s.queue e).length ≤ _
    rcases paid e with slack | paid
    · rw [slack_iff.mp slack now]
      exact Nat.zero_le _
    · unfold Sys.credits at covered ⊢
      simp only
      omega

/-- The channel of `e` changes; no queue grows by more than is paid for. -/
theorem Inv.setChan (sound : c.Sound) (live : c.live = (s.chan e).live)
    (closed : ∀ b, (c.ep b).peerClosed = true → s.waiters (e.1, b) = [])
    (paid : ∀ b, (c.queued b).length + debt (e.1, b) ≤
      ((s.chan e).queued b).length + debt' (e.1, b))
    (others : ∀ e', e'.1 ≠ e.1 → debt e' ≤ debt' e') : Inv (s.setChan e c) debt' := by
  have here : (s.setChan e c).chans e.1 = c := update_self _ _ _
  have there {n : Nat} (other : n ≠ e.1) : (s.setChan e c).chans n = s.chans n :=
    update_of_ne other _ _
  refine ⟨?_, ?_, ?_, ?_, ?_⟩
  · exact (forall_update_iff s.chans fun _ c => c.Sound).mpr
      ⟨sound, fun n _ => inv.sound n⟩
  · exact (forall_update_iff s.chans fun _ c => ∀ b, c.live b = true).mpr
      ⟨live ▸ inv.live e.1, fun n _ => inv.live n⟩
  · intro e' isClosed
    unfold Sys.chan at isClosed
    by_cases same : e'.1 = e.1
    · rw [same, here] at isClosed
      have := closed e'.2 isClosed
      rwa [← same] at this
    · rw [there same] at isClosed
      exact inv.closed e' isClosed
  · intro i th member
    have ok := inv.tasks i th member
    exact { ok with }
  · intro e' now
    have covered := inv.covered e' now
    change _ ≤ s.credits e' + _
    unfold Sys.queue Sys.chan at covered ⊢
    by_cases same : e'.1 = e.1
    · have bound := paid e'.2
      unfold Sys.chan at bound
      rw [← same] at bound
      rw [same, here]
      rw [same] at covered bound
      have whole : (e.1, e'.2) = e' := by rw [← same]
      rw [whole] at bound
      omega
    · rw [there same]
      have := others e' same
      omega

end

end Moves

/-! ### Waking a task -/

section Waking

variable {s : Sys} {i : Nat} {th : Task} {e : EpId}

theorem earned_of_linked (park : Park) (linked : stage.linked = some (e, .recv)) :
    Task.earned ⟨park, stage⟩ =
      if park.state = .woken ∧ park.wakeReason = .event then some e else none := by
  cases stage <;> first | (cases linked; rfl) | cases linked

/-- Outside of a receiver's wait the park state earns nothing. -/
theorem earned_of_not_linked (linked : ∀ e, stage.linked ≠ some (e, .recv))
    (park park' : Park) : Task.earned ⟨park', stage⟩ = Task.earned ⟨park, stage⟩ := by
  cases stage <;> first | rfl | exact absurd rfl (linked _)

section
variable (unwoken : th.park.state ≠ .woken)
include unwoken

theorem earned_unwoken (linked : th.stage.linked = some (e, .recv)) : th.earned = none :=
  (earned_of_linked th.park linked).trans (if_neg fun h => unwoken h.1)

theorem credit_wake (park : Park) (e : EpId) : credit e th ≤ credit e ⟨park, th.stage⟩ := by
  refine Nat.add_le_add_left ?_ _
  by_cases linked : ∃ e', th.stage.linked = some (e', .recv)
  · obtain ⟨e', linked⟩ := linked
    rw [earned_unwoken unwoken linked]
    exact Nat.zero_le _
  · push Not at linked
    rw [earned_of_not_linked linked th.park park]

theorem credit_donated (linked : th.stage.linked = some (e, .recv)) :
    credit e th + 1 = credit e ⟨th.park.donated, th.stage⟩ := by
  have earned : Task.earned ⟨th.park.donated, th.stage⟩ = some e :=
    (earned_of_linked th.park.donated linked).trans (if_pos ⟨rfl, rfl⟩)
  unfold credit
  rw [earned_unwoken unwoken linked, earned, if_pos rfl]
  rfl

end

theorem state_ne_woken {p : Park} (unwoken : p.unwoken = true) : p.state ≠ .woken := by
  rcases unwoken_iff.mp unwoken with preparing | parked
  · rw [preparing]
    exact nofun
  · rw [parked]
    exact nofun

theorem setTask_self (here : s.tasks[i]? = some th) : s.setTask i th = s := by
  have same : s.tasks.set i th = s.tasks := by
    obtain ⟨inside, rfl⟩ := List.getElem?_eq_some_iff.mp here
    exact set_getElem_self inside
  unfold Sys.setTask
  rw [same]

/-- The wake reaches a task that waits for it. -/
def reaches (s : Sys) (wake : Wake) : Bool :=
  (s.tasks[wake.waiter.task]?).any fun th => th.park.waits wake.waiter.seq

section
variable (inv : Inv s fun _ => 0)
include inv

/-- A wake that reaches its receiver becomes the receiver's credit. -/
theorem Inv.deliver {wake : Wake} (at_j : s.wakes[j]? = some wake)
    (here : s.tasks[wake.waiter.task]? = some th) (waits : th.park.waits wake.waiter.seq = true) :
    Inv { s.setTask wake.waiter.task ⟨th.park.donated, th.stage⟩ with
      wakes := s.wakes.eraseIdx j } fun _ => 0 := by
  have ok := inv.tasks _ th here
  have unwoken := state_ne_woken (waits_iff.mp waits).2
  have linked := (ok.flying wake (mem_of_getElem? at_j) rfl).2 waits
  have less := credit_wake unwoken th.park.donated
  have woke : Inv (s.setTask wake.waiter.task ⟨th.park.donated, th.stage⟩) fun _ => 0 :=
    inv.stay here rfl (.inl donated_continues) fun e => .inr (less e)
  have dropped : Inv { s.setTask wake.waiter.task ⟨th.park.donated, th.stage⟩ with
      wakes := s.wakes.eraseIdx j }
      fun e => if wake.ep = e ∧ wake.waiter.key = .recv then 1 else 0 := by
    refine woke.drop at_j ?_ fun e => .inr (Eq.le (Nat.zero_add _))
    intro t member
    rcases getElem?_set_cases member with ⟨-, rfl⟩ | ⟨other, -⟩
    · exact donated_waits
    · exact absurd rfl other
  refine { dropped with covered := fun e now => ?_ }
  have before : s.waiting e = true := by
    refine waiting_setTask here ok (fun h => ?_) now
    rw [donated_waits] at h
    cases h
  have gain : credit e th + (if wake.ep = e ∧ wake.waiter.key = .recv then 1 else 0) ≤
      credit e ⟨th.park.donated, th.stage⟩ := by
    by_cases mine : wake.ep = e ∧ wake.waiter.key = .recv
    · rw [if_pos mine]
      rw [mine.1, mine.2] at linked
      exact Eq.le (credit_donated unwoken linked)
    · rw [if_neg mine]
      exact less e
  have covered := inv.covered e before
  have moved := total_set (f := credit e) here ⟨th.park.donated, th.stage⟩
  have counted := countP_eraseIdx
    (fun wake : Wake => decide (wake.ep = e ∧ wake.waiter.key = .recv)) at_j
  simp only [decide_eq_true_eq] at counted
  simp only [Sys.credits, Sys.setTask] at covered ⊢
  change (s.queue e).length ≤ _
  omega

theorem Inv.flush {s' : Sys} (flushed : s.flush j = some s')
    (allowed : ∀ wake, s.wakes[j]? = some wake →
      wake.waiter.key = .send ∨ reaches s wake = true ∨ s.slack wake.ep = true) :
    Inv s' fun _ => 0 := by
  obtain ⟨wake, at_j, flushed⟩ := bind_eq_some_iff.mp flushed
  obtain ⟨th, here, rfl⟩ := map_eq_some_iff.mp flushed
  by_cases waits : th.park.waits wake.waiter.seq = true
  · obtain ⟨current, unwoken⟩ := waits_iff.mp waits
    rw [tryWake_event waits (current ▸ (inv.tasks _ th here).started unwoken)]
    exact inv.deliver at_j here waits
  rcases tryWake_cases th.park wake.waiter.seq .event with missed | ⟨hit, -⟩
  · have same : ({ th with park := (th.park.tryWake wake.waiter.seq .event).1 } : Task) = th := by
      rw [missed]
    rw [same, setTask_self here]
    refine inv.drop at_j ?_ fun e => ?_
    · intro t member
      rw [here] at member
      cases member
      exact Bool.eq_false_iff.mpr waits
    · by_cases mine : wake.ep = e ∧ wake.waiter.key = .recv
      · left
        rcases allowed wake at_j with send | reached | slack
        · rw [mine.2] at send
          cases send
        · rw [reaches, here] at reached
          exact absurd reached waits
        · exact mine.1 ▸ slack
      · right
        rw [if_neg mine]
  · exact absurd hit waits

theorem Inv.interrupt {s' : Sys} {reason : WakeReason}
    (interrupted : s.interrupt i reason = some s') : Inv s' fun _ => 0 := by
  obtain ⟨-, interrupted⟩ | ⟨-, ⟨⟩⟩ := ite_eq_iff.mp interrupted
  obtain ⟨th, here, rfl⟩ := map_eq_some_iff.mp interrupted
  refine inv.stay here rfl (.inl (tryWake_continues _ _ _)) fun e => .inr ?_
  rcases tryWake_cases th.park th.park.waitSeq reason with missed | ⟨waits, -⟩
  · rw [missed]
  · exact credit_wake (state_ne_woken (waits_iff.mp waits).2) _ e

end

end Waking

/-! ### The stages -/

section Stages

variable {s s' : Sys} {i : Nat} {park : Park} {env : Env} {e' : EpId}

theorem credit_eq_zero {th : Task} (owed : th.stage.owed = none) (earned : th.earned = none)
    (e : EpId) : credit e th = 0 := by
  unfold credit
  rw [owed, earned]
  rfl

theorem one_le_one {P Q : Prop} [Decidable P] [Decidable Q] (only : P → Q) :
    (if P then 1 else 0) ≤ if Q then 1 else 0 := by
  by_cases here : P
  · rw [if_pos here, if_pos (only here)]
  · rw [if_neg here]
    exact Nat.zero_le _

section
variable (park op) (e : EpId)

theorem credit_recvTry :
    credit e ⟨park, .recvTry op⟩ =
      (if op.owes = true ∧ peer op.ep = e then 1 else 0) +
        if op.woken = true ∧ op.ep = e then 1 else 0 := by
  cases owes : op.owes <;> cases woken : op.woken <;>
    simp [credit, Stage.owed, Task.earned, owes, woken]

theorem credit_recvBegun :
    credit e ⟨park, .recvBegun op⟩ = if op.woken = true ∧ op.ep = e then 1 else 0 := by
  cases woken : op.woken <;> simp [credit, Stage.owed, Task.earned, woken]

theorem credit_recvPrepare :
    credit e ⟨park, .recvPrepare op⟩ = if op.owes = true ∧ peer op.ep = e then 1 else 0 := by
  cases owes : op.owes <;> simp [credit, Stage.owed, Task.earned, Stage.linked, owes]

theorem credit_recvLink :
    credit e ⟨park, .recvLink op⟩ = if op.owes = true ∧ peer op.ep = e then 1 else 0 := by
  cases owes : op.owes <;> simp [credit, Stage.owed, Task.earned, Stage.linked, owes]

theorem owed_recvPeek : (Stage.recvPeek op).owed = some e ↔ op.owes = true ∧ peer op.ep = e := by
  cases owes : op.owes <;> simp [Stage.owed, owes]

end

/-- What a receiver has earned by being woken in its wait on `e'`. -/
def wakeCredit (park : Park) (e' e : EpId) : Nat :=
  if (park.state = .woken ∧ park.wakeReason = .event) ∧ e' = e then 1 else 0

theorem credit_linked (park : Park) (linked : stage.linked = some (e', .recv)) (e : EpId) :
    credit e ⟨park, stage⟩ =
      (if stage.owed = some e then 1 else 0) + wakeCredit park e' e := by
  unfold credit wakeCredit
  rw [earned_of_linked park linked]
  by_cases woken : park.state = .woken ∧ park.wakeReason = .event <;> simp [woken]

variable {debt : EpId → Nat}

/-- A stage change outside of any wait. -/
theorem Inv.goto {debt' : EpId → Nat} (inv : Inv s debt) (here : s.tasks[i]? = some ⟨park, stage⟩)
    (linked : stage'.linked = stage.linked)
    (paid : ∀ e, s.slack e = true ∨
      credit e ⟨park, stage⟩ + debt e ≤ credit e ⟨park, stage'⟩ + debt' e) :
    Inv (s.goto i ⟨park, stage⟩ stage') debt' :=
  inv.stay here linked (.inl (.refl park)) paid

theorem Inv.start {op : Op} (inv : Inv s fun _ => 0) (started : s.start i op = some s') :
    Inv s' fun _ => 0 := by
  obtain ⟨⟨park, stage⟩, here, started⟩ := bind_eq_some_iff.mp started
  cases stage with
  | returned r =>
    cases started
    refine inv.goto here ?_ fun e => .inr (Nat.le_add_left _ _)
    cases op with
    | send e m flags => simp only [Op.entry, Op.entry.sendEntry]; split <;> rfl
    | recv e flags => simp only [Op.entry]; split <;> rfl
    | call e m flags => simp only [Op.entry, Op.entry.sendEntry]; split <;> rfl
  | _ => cases started

theorem tasks_collectOne (e : EpId) (key : Key) : (s.collectOne e key).tasks = s.tasks := by
  unfold Sys.collectOne
  split <;> rfl

variable {e : EpId} {p : Nat}

section
variable (inv : Inv s fun _ => 0)
include inv

/-- Accepting a message leaves one message to be paid for. -/
theorem Inv.accept (m : Message) (fresh : (s.chan e).heap p = none) :
    Inv (s.setChan e ((s.chan e).accept (!e.2) p m)) fun e' => if e' = peer e then 1 else 0 := by
  have sound := inv.sound e.1
  have live := inv.live e.1 (!e.2)
  obtain ⟨near, far⟩ := sound.queued_accept m live fresh
  rw [Bool.not_not] at far
  refine inv.setChan (sound.effect (.enqueue m live fresh)) rfl ?_ ?_ ?_
  · intro b closed
    refine inv.closed (e.1, b) ?_
    by_cases same : b = !e.2
    · subst same
      simp only [Pair.accept, update_self] at closed
      exact closed
    · simp only [Pair.accept, update_of_ne same] at closed
      exact closed
  · intro b
    by_cases same : b = !e.2
    · subst same
      have paid : (if (e.1, !e.2) = peer e then 1 else 0) = 1 := if_pos rfl
      rw [paid]
      change ((Pair.accept (s.chans e.1) _ p m).queued _).length + 0 ≤ _
      rw [near, length_append]
      exact le_rfl
    · obtain rfl : b = e.2 := Bool.ne_not.mp same
      change ((Pair.accept (s.chans e.1) _ p m).queued _).length + 0 ≤ _
      rw [far]
      exact Nat.le_add_right _ _
  · exact fun _ _ => Nat.zero_le _

theorem Inv.sendTry {op : SendOp} (here : s.tasks[i]? = some ⟨park, .sendTry op⟩)
    (tried : s.sendTry i ⟨park, .sendTry op⟩ env op = some s') : Inv s' fun _ => 0 := by
  unfold Sys.sendTry at tried
  rcases attempt : (s.chan op.ep).tryEnqueue op.ep.2 env.node op.msg op.flags with _ | ⟨c, r⟩
  all_goals rw [attempt] at tried
  · cases tried
  cases Pair.tryEnqueue_outcome attempt with
  | refused | sleeps =>
    cases tried
    exact inv.goto here rfl fun e => .inr le_rfl
  | accepted live fresh =>
    have accepted := inv.accept op.msg fresh
    simp only at tried
    by_cases call : op.call = true
    · -- A call owes the wake from here on.
      rw [if_pos call] at tried
      cases tried
      refine accepted.goto here rfl fun e => .inr ?_
      rw [credit_recvTry, credit_eq_zero rfl rfl, Nat.zero_add]
      exact Nat.le_add_right_of_le (one_le_one fun mine => ⟨rfl, mine.symm⟩)
    · rw [if_neg call] at tried
      cases tried
      have woken : Inv _ (fun _ => 0) := accepted.collectOne_recv (peer op.ep) fun e' => by
        rw [Nat.zero_add]
      refine woken.goto ?_ rfl fun e => .inr le_rfl
      rw [tasks_collectOne]
      exact here

/-! ### Waiting and resuming -/

theorem Inv.prepareWait
    (here : s.tasks[i]? = some ⟨park, stage⟩) (free : stage.linked = none)
    (free' : stage'.linked = none)
    (kept : ∀ park' e, credit e ⟨park, stage⟩ ≤ credit e ⟨park', stage'⟩)
    (allowed : ∀ e, (if env.token then park.prepare .interruptible env.pending else none) = none →
      s.slack e = true ∨ credit e ⟨park, stage⟩ = 0) :
    Inv (s.prepareWait i ⟨park, stage⟩ env stage') fun _ => 0 := by
  unfold Sys.prepareWait
  cases prepared : (if env.token then park.prepare .interruptible env.pending else none) with
  | some park' =>
    have opens : Park.Opens park park' := by
      obtain ⟨-, prepared⟩ | ⟨-, ⟨⟩⟩ := ite_eq_iff.mp prepared
      exact prepare_opens prepared
    exact inv.stay here (free'.trans free.symm) (.inr ⟨free, opens⟩) fun e => .inr (kept park' e)
  | none =>
    refine inv.goto here free.symm fun e => (allowed e prepared).imp_right fun zero => ?_
    rw [zero]
    exact Nat.zero_le _

theorem Inv.skipWait (here : s.tasks[i]? = some ⟨park, stage⟩) (same : stage'.linked = stage.linked)
    (kept : ∀ park' e, credit e ⟨park, stage⟩ ≤ credit e ⟨park', stage'⟩) :
    Inv (s.skipWait i ⟨park, stage⟩ stage') fun _ => 0 :=
  inv.stay here same (.inl ((cancel_continues park).trans (finish_continues _)))
    fun e => .inr (kept _ e)

omit inv in
theorem wakeCredit_commit (e' : EpId) : wakeCredit park.commit e' e = wakeCredit park e' e := by
  unfold wakeCredit commit
  by_cases preparing : park.state = .preparing
  · simp [preparing]
  · rw [if_neg preparing]

/-- Committing to the wait; what is owed may be given up where there is slack. -/
theorem Inv.commitRecv (here : s.tasks[i]? = some ⟨park, stage⟩)
    (linked : stage.linked = some (e', .recv)) (linked' : stage'.linked = some (e', .recv))
    (owed : ∀ e, s.slack e = true ∨ (stage.owed = some e → stage'.owed = some e)) :
    Inv (s.commitWait i ⟨park, stage⟩ stage') fun _ => 0 := by
  refine inv.stay here (linked'.trans linked.symm) (.inl (commit_continues park)) fun e => ?_
  refine (owed e).imp_right fun kept => ?_
  rw [credit_linked park linked, credit_linked _ linked', wakeCredit_commit]
  exact Nat.add_le_add_right (one_le_one kept) _

theorem Inv.resumeRecv
    (here : s.tasks[i]? = some ⟨park, .recvAsleep op⟩)
    (resumed : s.resume i ⟨park, .recvAsleep op⟩ op.ep
      (.recvTry { op with woken := park.wakeReason = .event }) = some s') :
    Inv s' fun _ => 0 := by
  obtain ⟨woken, resumed⟩ | ⟨-, ⟨⟩⟩ := ite_eq_iff.mp resumed
  cases resumed
  change park.state = .woken at woken
  refine inv.unlink here .recv rfl woken ?_ fun e => ?_
  · split <;> rfl
  · rw [credit_linked park rfl]
    simp only [Stage.owed, wakeCredit, woken]
    by_cases event : park.wakeReason = .event
    · simp only [event, WakeReason.isTaskInterrupt]
      rw [if_neg Bool.false_ne_true, credit_recvTry]
      simp
    · simp [event]

theorem Inv.resumeSend {op : SendOp} (here : s.tasks[i]? = some ⟨park, .sendAsleep op⟩)
    (resumed : s.resume i ⟨park, .sendAsleep op⟩ (peer op.ep) (.sendTry op) = some s') :
    Inv s' fun _ => 0 := by
  obtain ⟨woken, ⟨⟩⟩ | ⟨-, ⟨⟩⟩ := ite_eq_iff.mp resumed
  refine inv.unlink here .send rfl woken ?_ fun e => Nat.zero_le _
  split <;> rfl

theorem Inv.sendLink {op : SendOp} (here : s.tasks[i]? = some ⟨park, .sendLink op⟩)
    (went : s.sendLink i ⟨park, .sendLink op⟩ op = some s') : Inv s' fun _ => 0 := by
  obtain ⟨-, ⟨⟩⟩ | ⟨-, went⟩ := ite_eq_iff.mp went
  obtain ⟨wait, ⟨⟩⟩ | ⟨-, ⟨⟩⟩ := ite_eq_iff.mp went
  · exact inv.link here rfl rfl (Bool.eq_false_iff.mpr wait.1) nofun fun e => Nat.zero_le _
  · exact inv.skipWait here rfl fun _ _ => Nat.zero_le _

/-- A receiver goes to wait only while there is no message. -/
theorem Inv.recvLink (here : s.tasks[i]? = some ⟨park, .recvLink op⟩)
    (went : s.recvLink i ⟨park, .recvLink op⟩ op = some s') : Inv s' fun _ => 0 := by
  obtain ⟨-, ⟨⟩⟩ | ⟨-, went⟩ := ite_eq_iff.mp went
  obtain ⟨wait, ⟨⟩⟩ | ⟨-, ⟨⟩⟩ := ite_eq_iff.mp went
  · have empty : s.queue op.ep = [] :=
      (inv.sound op.ep.1).queued_eq_nil (inv.live op.ep.1 op.ep.2) wait.1
    have isOpen := Bool.eq_false_iff.mpr wait.2
    cases call : op.call with
    | true =>
      refine inv.link here rfl rfl isOpen (fun _ => empty) fun e => ?_
      rw [credit_recvLink, if_pos rfl, credit_linked park rfl]
      exact Nat.add_le_add_right (Nat.le_add_right_of_le (one_le_one (owed_recvPeek op e).mpr)) _
    | false =>
      refine inv.link here rfl rfl isOpen (fun _ => empty) fun e => ?_
      rw [credit_recvLink, RecvOp.owes, call]
      exact Nat.zero_le _
  · refine inv.skipWait here rfl fun park' e => ?_
    exact Nat.le_add_right _ _

end

/-! ### Receiving -/

theorem slack_of_empty (empty : s.queue e = []) : s.slack e = true :=
  slack_iff.mpr fun _ => empty

theorem goto_collectOne (th : Task) (key : Key) :
    (s.collectOne e key).goto i th stage = (s.goto i th stage).collectOne e key := by
  have same : (s.goto i th stage).waiters e = s.waiters e := rfl
  unfold Sys.collectOne
  rw [same]
  split <;> rfl

/-- The channel of `e` changes, but neither its queues nor its ends. -/
theorem Inv.keepChan (inv : Inv s debt) (sound : c.Sound) (live : c.live = (s.chan e).live)
    (ends : ∀ b, (c.ep b).peerClosed = true → ((s.chan e).ep b).peerClosed = true)
    (queues : ∀ b, c.queued b = (s.chan e).queued b) : Inv (s.setChan e c) debt := by
  refine inv.setChan sound live (fun b closed => inv.closed (e.1, b) (ends b closed)) ?_
    fun _ _ => le_rfl
  intro b
  rw [queues]

variable {node : Lib.Node Message}

/-- The first message leaves the queue of `e` and with it one message to be paid for. -/
theorem Inv.takeHead (inv : Inv s fun e' => if e' = e then 1 else 0)
    (head : ((s.chan e).ep e.2).headNode (s.chan e).heap = some (p, node)) (sound : c.Sound)
    (live : c.live = (s.chan e).live)
    (ends : ∀ b, (c.ep b).peerClosed = true → ((s.chan e).ep b).peerClosed = true)
    (queues : ∀ b, c.queued b = ((s.chan e).takeHead e.2 p node).queued b) :
    Inv (s.setChan e c) fun _ => 0 := by
  obtain ⟨near, far⟩ := (inv.sound e.1).queued_takeHead (inv.live e.1 e.2) head
  refine inv.setChan sound live (fun b closed => inv.closed (e.1, b) (ends b closed)) ?_ ?_
  · intro b
    rw [queues]
    by_cases mine : b = e.2
    · subst mine
      have first : ((s.chan e).queued e.2).length =
          (((s.chan e).takeHead e.2 p node).queued e.2).length + 1 := congrArg length near
      rw [first, if_pos rfl]
    obtain rfl : b = !e.2 := Bool.eq_not_iff.mpr mine
    rw [if_neg fun same => Bool.not_ne_self e.2 (congrArg Prod.snd same)]
    exact Eq.le (congrArg length far)
  · intro e' other
    rw [if_neg fun same => other (congrArg Prod.fst same)]

theorem takeHead_ends {b : Bool} {b' : Bool}
    (closed : ((c.takeHead b p node).ep b').peerClosed = true) : (c.ep b').peerClosed = true := by
  by_cases same : b' = b
  · subst same
    simp only [Pair.takeHead, update_self] at closed
    exact closed
  · simp only [Pair.takeHead, update_of_ne same] at closed
    exact closed

theorem flags_valid (op : RecvOp) : op.flags &&& ~~~nonblock = 0 := by
  unfold RecvOp.flags
  cases op.immediate <;> decide

/-- One credit may be forgotten where there is slack. -/
theorem slack_or_le {P : Prop} [Decidable P] {n m : Nat} (free : P → s.slack e = true)
    (rest : n ≤ m) : s.slack e = true ∨ (if P then 1 else 0) + n ≤ m := by
  by_cases here : P
  · exact .inl (free here)
  · rw [if_neg here, Nat.zero_add]
    exact .inr rest

/-- What may be forgotten is due where there is slack. -/
theorem slack_of_due {due : Bool} (free : due = false ∨ s.slack e' = true)
    (here : due = true ∧ e' = e) : s.slack e = true := by
  rcases free with none | slack
  · exact absurd (none.symm.trans here.1) Bool.false_ne_true
  · exact here.2 ▸ slack

section
variable (inv : Inv s fun _ => 0)
include inv

section
variable (here : s.tasks[i]? = some ⟨park, .recvTry op⟩)
include here

/-- Returning from a round that found the queue empty. -/
theorem Inv.recvLeave (r : Except Status (Option Message))
    (empty : s.queue op.ep = []) (free : op.owes = false ∨ s.slack (peer op.ep) = true) :
    Inv (s.goto i ⟨park, .recvTry op⟩ (.returned r)) fun _ => 0 := by
  refine inv.goto here rfl fun e => ?_
  rw [credit_recvTry]
  by_cases owes : op.owes = true ∧ peer op.ep = e
  · exact .inl (slack_of_due free owes)
  · rw [if_neg owes, Nat.zero_add]
    exact slack_or_le (fun woken => woken.2 ▸ slack_of_empty empty) (Nat.zero_le _)

/-- Returning from a round that is to discard the first message: its credit is not needed any
more. -/
theorem Inv.recvRefuse (r : Except Status (Option Message))
    (free : op.owes = false ∨ s.slack (peer op.ep) = true) :
    Inv (s.goto i ⟨park, .recvTry op⟩ (.returned r)) fun e => if e = op.ep then 1 else 0 := by
  refine inv.goto here rfl fun e => ?_
  rw [credit_recvTry, credit_eq_zero rfl rfl, Nat.zero_add]
  exact slack_or_le (slack_of_due free) (one_le_one fun woken => woken.2.symm)

/-- A round of a receive: a call that finds something to return forgets the wake it owes. -/
theorem Inv.recvTry
    (went : s.recvTry i ⟨park, .recvTry op⟩ op = some s')
    (allowed : op.owes = false ∨
      ((s.chan op.ep).act (.recvBegin op.ep.2 op.flags)).map Prod.snd = some .sleeps ∨
        s.slack (peer op.ep) = true) : Inv s' fun _ => 0 := by
  unfold Sys.recvTry at went
  rcases acted : (s.chan op.ep).act (.recvBegin op.ep.2 op.flags) with _ | ⟨c, r⟩
  all_goals rw [acted] at went allowed
  · cases went
  have effect := Pair.act_effect acted
  have queueEmpty (none : ((s.chan op.ep).ep op.ep.2).msgCount = 0) : s.queue op.ep = [] :=
    (inv.sound op.ep.1).queued_eq_nil (inv.live op.ep.1 op.ep.2) none
  have free (awake : r ≠ .sleeps) : op.owes = false ∨ s.slack (peer op.ep) = true := by
    rcases allowed with none | sleeps | slack
    · exact .inl none
    · exact absurd (some_inj.mp sleeps) awake
    · exact .inr slack
  obtain ⟨-, begun⟩ := ite_none_right_eq_some.mp acted
  cases Pair.recvBegin_outcome begun with
  | refused st other open_ empty =>
    have none := queueEmpty (empty (flags_valid op))
    cases st <;> first
      | exact absurd rfl other
      | (cases went; exact inv.recvLeave here _ none (free nofun))
  | closed empty =>
    cases went
    exact inv.recvLeave here _ (queueEmpty empty) (free nofun)
  | sleeps empty =>
    cases went
    refine inv.goto here rfl fun e => ?_
    rw [credit_recvTry, credit_recvPrepare, Nat.add_comm (ite _ _ _)]
    exact slack_or_le (fun woken => woken.2 ▸ slack_of_empty (queueEmpty empty)) le_rfl
  | begun head admitted =>
    cases went
    have moved : Inv (s.goto i ⟨park, .recvTry op⟩ (.recvBegun op)) fun _ => 0 := by
      refine inv.goto here rfl fun e => ?_
      rw [credit_recvTry, credit_recvBegun]
      exact slack_or_le (slack_of_due (free nofun)) le_rfl
    exact moved.keepChan ((inv.sound op.ep.1).effect effect) rfl (fun _ h => h) fun _ => rfl
  | discarded head refused =>
    cases went
    rw [goto_collectOne]
    refine Inv.collectOne_send ?_ op.ep
    have moved := inv.recvRefuse here (.error .typeMismatch) (free nofun)
    exact moved.takeHead head ((inv.sound op.ep.1).effect effect) rfl
      (fun _ h => takeHead_ends h) fun _ => rfl

end

/-- What a call owes it still owes while it looks for a receiver. -/
theorem Inv.recvPeek (here : s.tasks[i]? = some ⟨park, .recvPeek op⟩) :
    Inv (s.recvPeek i ⟨park, .recvPeek op⟩ op) fun _ => 0 := by
  have kept {stage : Stage} (linked : stage.linked = some (op.ep, .recv))
      (owed : stage.owed = some (peer op.ep)) (e : EpId) :
      credit e ⟨park, .recvPeek op⟩ ≤ credit e ⟨park, stage⟩ := by
    rw [credit_linked park rfl, credit_linked park linked, owed]
    refine Nat.add_le_add_right (one_le_one fun owes => ?_) _
    exact congrArg some ((owed_recvPeek op e).mp owes).2
  unfold Sys.recvPeek
  cases s.peekReceiver op with
  | some | none => exact inv.goto here rfl fun e => .inr (kept rfl rfl e)

theorem Inv.recvWakePeer (here : s.tasks[i]? = some ⟨park, .recvWakePeer op⟩) :
    Inv (s.recvWakePeer i ⟨park, .recvWakePeer op⟩ op) fun _ => 0 := by
  have credits (e : EpId) : credit e ⟨park, .recvWakePeer op⟩ =
      (if e = peer op.ep then 1 else 0) + credit e ⟨park, .recvCommit op⟩ := by
    rw [credit_linked park rfl, credit_linked park rfl]
    simp [Stage.owed, eq_comm]
  unfold Sys.recvWakePeer
  by_cases isOpen : s.peerOpen op.ep = true
  · rw [if_pos isOpen, goto_collectOne]
    have moved : Inv (s.goto i ⟨park, .recvWakePeer op⟩ (.recvCommit op))
        fun e => if e = peer op.ep then 1 else 0 := by
      refine inv.goto here rfl fun e => .inr ?_
      rw [credits, Nat.add_zero, Nat.add_comm]
    exact moved.collectOne_recv (peer op.ep) fun e' => Eq.le (Nat.zero_add _).symm
  · rw [if_neg isOpen]
    refine inv.goto here rfl fun e => ?_
    rw [credits]
    refine slack_or_le (fun mine => ?_) le_rfl
    -- Nobody waits at an endpoint that was told of its peer's end.
    have closed : ((s.chan (peer op.ep)).ep (peer op.ep).2).peerClosed = true := by
      rw [Sys.peerOpen, Bool.not_eq_true, Bool.not_eq_false'] at isOpen
      exact isOpen
    refine slack_iff.mpr fun waiting => ?_
    obtain ⟨w, hw, -⟩ := waiting_iff.mp waiting
    rw [mine, inv.closed _ closed] at hw
    cases hw

theorem Inv.donateCommit {target : Nat}
    (here : s.tasks[i]? = some ⟨park, .donateCommit op target⟩)
    (allowed : (park.state = .preparing ∧ s.canDonate i env target = true) ∨
      s.slack (peer op.ep) = true) :
    Inv (s.donateCommit i ⟨park, .donateCommit op target⟩ env op target) fun _ => 0 := by
  unfold Sys.donateCommit
  by_cases donates : park.state = .preparing ∧ s.canDonate i env target = true
  · rw [if_pos donates]
    exact inv.commitRecv here rfl rfl fun e => .inr id
  rw [if_neg donates]
  have slack := allowed.resolve_left donates
  refine inv.commitRecv here rfl rfl fun e => ?_
  by_cases mine : peer op.ep = e
  · exact .inl (mine ▸ slack)
  · exact .inr fun owed => absurd (some_inj.mp owed) mine

/-- The switch pays what the call owes if it wakes a receiver of the endpoint. -/
theorem Inv.donateSwitch {target : Nat}
    (here : s.tasks[i]? = some ⟨park, .donateSwitch op target⟩)
    (allowed : (s.canDonate i env target = true ∧ ∃ t, s.tasks[target]? = some t ∧
      t.stage.linked = some (peer op.ep, .recv)) ∨ s.slack (peer op.ep) = true) :
    Inv (s.donateSwitch i ⟨park, .donateSwitch op target⟩ env op target) fun _ => 0 := by
  have credits (e : EpId) : credit e ⟨park, .donateSwitch op target⟩ =
      credit e ⟨park, .recvAsleep op⟩ + if peer op.ep = e then 1 else 0 := by
    rw [credit_linked park rfl, credit_linked park rfl]
    simp [Stage.owed, Nat.add_comm]
  have forgive (slack : s.slack (peer op.ep) = true) :
      Inv (s.goto i ⟨park, .donateSwitch op target⟩ (.recvAsleep op)) fun _ => 0 := by
    refine inv.goto here rfl fun e => ?_
    rw [credits, Nat.add_comm (credit _ _)]
    exact slack_or_le (fun mine => mine ▸ slack) le_rfl
  unfold Sys.donateSwitch
  cases found : s.tasks[target]? with
  | none =>
    refine forgive (allowed.resolve_left ?_)
    rintro ⟨-, t, member, -⟩
    rw [found] at member
    cases member
  | some t =>
    dsimp only
    by_cases donates : s.canDonate i env target = true
    · rw [if_pos donates]
      have parts := donates
      simp only [Sys.canDonate, found, any_some, decide_eq_true_eq] at parts
      obtain ⟨other, parked, -⟩ := parts
      have awake : t.park.state ≠ .woken := by
        rw [parked]
        exact nofun
      have member : (s.goto i ⟨park, .donateSwitch op target⟩ (.recvAsleep op)).tasks[target]? =
          some t := by
        rw [← found]
        exact List.getElem?_set_ne other.symm
      rcases allowed with ⟨-, t', same, linked⟩ | slack
      · rw [found] at same
        cases same
        have moved : Inv (s.goto i ⟨park, .donateSwitch op target⟩ (.recvAsleep op))
            fun e => if peer op.ep = e then 1 else 0 :=
          inv.goto here rfl fun e => .inr (Eq.le (credits e))
        refine moved.stay member rfl (.inl donated_continues) fun e => .inr ?_
        by_cases mine : peer op.ep = e
        · subst mine
          rw [if_pos rfl]
          exact Eq.le (credit_donated awake linked)
        · rw [if_neg mine]
          exact credit_wake awake _ e
      · exact (forgive slack).stay member rfl (.inl donated_continues)
          fun e => .inr (credit_wake awake _ e)
    · rw [if_neg donates]
      exact forgive (allowed.resolve_left fun h => donates h.1)

end

/-- The second half of the receive takes a message. -/
def takesMessage (s : Sys) (env : Env) (op : RecvOp) : Bool :=
  match env.abort, (s.chan op.ep).act (.recvFinish op.ep.2 env.dataLen env.handleCount) with
  | none, some (_, .got _) => true
  | _, _ => false

section
variable (inv : Inv s fun _ => 0)
include inv

section
variable (here : s.tasks[i]? = some ⟨park, .recvBegun op⟩)
include here

/-- Returning with the message left where it is. -/
theorem Inv.recvKeep
    (free : op.woken = false ∨ s.slack op.ep = true) (r : Except Status (Option Message))
    (effect : Pair.Effect (s.chan op.ep) ((s.chan op.ep).setHeld op.ep.2 false)) :
    Inv ((s.setChan op.ep ((s.chan op.ep).setHeld op.ep.2 false)).goto i
      ⟨park, .recvBegun op⟩ (.returned r)) fun _ => 0 := by
  have moved : Inv (s.goto i ⟨park, .recvBegun op⟩ (.returned r)) fun _ => 0 := by
    refine inv.goto here rfl fun e => ?_
    rw [credit_recvBegun]
    exact slack_or_le (slack_of_due free) (Nat.zero_le _)
  exact moved.keepChan ((inv.sound op.ep.1).effect effect) rfl (fun _ h => h) fun _ => rfl

/-- Returning with the first message, whose credit is not needed any more. -/
theorem Inv.recvTook (r : Except Status (Option Message)) :
    Inv (s.goto i ⟨park, .recvBegun op⟩ (.returned r)) fun e => if e = op.ep then 1 else 0 := by
  refine inv.goto here rfl fun e => .inr ?_
  rw [credit_recvBegun, credit_eq_zero rfl rfl, Nat.zero_add]
  exact one_le_one fun woken => woken.2.symm

theorem Inv.recvBegun (went : s.recvBegun i ⟨park, .recvBegun op⟩ env op = some s')
    (allowed : op.woken = false ∨ takesMessage s env op = true ∨ s.slack op.ep = true) :
    Inv s' fun _ => 0 := by
  have free (left : takesMessage s env op = false) : op.woken = false ∨ s.slack op.ep = true := by
    rcases allowed with none | takes | slack
    · exact .inl none
    · exact absurd (left.symm.trans takes) Bool.false_ne_true
    · exact .inr slack
  unfold Sys.recvBegun at went
  cases gives : env.abort with
  | some st =>
    rw [gives] at went
    obtain ⟨⟨c, r⟩, acted, rfl⟩ := map_eq_some_iff.mp went
    have effect := Pair.act_effect acted
    have left : takesMessage s env op = false := by
      unfold takesMessage
      rw [gives]
    obtain ⟨-, ⟨⟩⟩ := ite_none_right_eq_some.mp acted
    exact inv.recvKeep here (free left) _ effect
  | none =>
    rw [gives] at went
    rcases acted : (s.chan op.ep).act (.recvFinish op.ep.2 env.dataLen env.handleCount) with
      _ | ⟨c, r⟩
    all_goals rw [acted] at went
    · cases went
    have effect := Pair.act_effect acted
    obtain ⟨-, finished⟩ := ite_none_right_eq_some.mp acted
    rw [some_inj] at finished
    have outcome := Pair.recvFinish_outcome (s.chan op.ep) op.ep.2 env.dataLen
      env.handleCount
    rw [finished] at outcome
    cases outcome with
    | failed st =>
      cases went
      refine inv.recvKeep here (free ?_) _ effect
      unfold takesMessage
      rw [gives, acted]
    | @got p node head admitted room =>
      cases went
      rw [goto_collectOne]
      refine Inv.collectOne_send ?_ op.ep
      exact (inv.recvTook here _).takeHead head ((inv.sound op.ep.1).effect effect) rfl
        (fun _ h => takeHead_ends (p := p) h) fun _ => rfl

end

/-- Everybody who waits at the peer of an endpoint that shuts down is woken. -/
theorem Inv.shutdown (down : s.shutdown e = some s') : Inv s' fun _ => 0 := by
  obtain ⟨⟨c, r⟩, acted, rfl⟩ := map_eq_some_iff.mp down
  have effect := Pair.act_effect acted
  obtain ⟨-, ⟨⟩⟩ := ite_none_right_eq_some.mp acted
  have woken := inv.collectAll (peer e)
  refine woken.setChan (e := e) ((inv.sound e.1).effect effect) rfl ?_
    (fun b => Eq.le (congrArg length (Pair.queued_closePeer _ _ b)))
    fun _ _ => le_rfl
  intro b closed
  change update s.waiters (peer e) [] (e.1, b) = []
  by_cases mine : b = !e.2
  · subst mine
    exact update_self _ _ _
  · rw [update_of_ne fun same => mine (congrArg Prod.snd same)]
    refine inv.closed (e.1, b) ?_
    simp only [Pair.closePeer, update_of_ne mine] at closed
    exact closed

end

end Stages

/-! ### Runs -/

namespace Sys

/-- A step of task `i` that gives up a credit does so where no receiver waits or no
message is queued. -/
def nextAllowed (s : Sys) (i : Nat) (th : Task) (env : Env) : Bool :=
  match th.stage with
  | .recvTry op =>
      op.owes = false ∨
        ((s.chan op.ep).act (.recvBegin op.ep.2 op.flags)).map Prod.snd = some .sleeps ∨
          s.slack (peer op.ep)
  | .recvPrepare op =>
      op.owes = false ∨
        (if env.token then th.park.prepare .interruptible env.pending else none).isSome ∨
          s.slack (peer op.ep)
  | .donateCommit op target =>
      (th.park.state = .preparing ∧ s.canDonate i env target) ∨ s.slack (peer op.ep)
  | .donateSwitch op target =>
      (s.canDonate i env target ∧
        (s.tasks[target]?).any fun t => t.stage.linked = some (peer op.ep, .recv)) ∨
          s.slack (peer op.ep)
  | .recvBegun op => op.woken = false ∨ takesMessage s env op ∨ s.slack op.ep
  | _ => true

/-- A step gives a wake up only where no receiver waits or no message is queued: a call
the wake it deferred, a wake in flight that no longer reaches a receiver, or a woken
receiver that takes no message. -/
def allowed (s : Sys) : Label → Bool
  | .next i env =>
      match s.tasks[i]? with
      | none => true
      | some th => s.nextAllowed i th env
  | .flush j =>
      match s.wakes[j]? with
      | none => true
      | some wake => wake.waiter.key = .send ∨ reaches s wake ∨ s.slack wake.ep
  | .start .. | .interrupt .. | .shutdown _ => true

end Sys

section Runs

variable {s s' : Sys} {i : Nat} {env : Env}

theorem Inv.next {th : Task} (inv : Inv s fun _ => 0) (here : s.tasks[i]? = some th)
    (allowed : s.nextAllowed i th env = true) (went : s.next i th env = some s') :
    Inv s' fun _ => 0 := by
  obtain ⟨park, stage⟩ := th
  cases stage with
  | returned r => cases went
  | sendTry op => exact inv.sendTry here went
  | sendPrepare op =>
    cases went
    exact inv.prepareWait here rfl rfl (fun _ _ => Nat.zero_le _)
      fun e _ => .inr (credit_eq_zero rfl rfl e)
  | sendLink op => exact inv.sendLink here went
  | sendCommit op =>
    cases went
    exact inv.stay here rfl (.inl (commit_continues park)) fun e => .inr (Nat.zero_le _)
  | sendAsleep op => exact inv.resumeSend here went
  | recvTry op =>
    simp only [Sys.nextAllowed, decide_eq_true_eq] at allowed
    exact inv.recvTry here went allowed
  | recvPrepare op =>
    cases went
    simp only [Sys.nextAllowed, decide_eq_true_eq] at allowed
    refine inv.prepareWait here rfl rfl ?_ fun e unprepared => ?_
    · intro park' e
      rw [credit_recvPrepare, credit_recvLink]
    · rw [credit_recvPrepare]
      by_cases owes : op.owes = true ∧ peer op.ep = e
      · refine .inl (slack_of_due (allowed.imp_right fun kept => kept.resolve_left ?_) owes)
        rw [unprepared]
        exact nofun
      · exact .inr (if_neg owes)
  | recvLink op => exact inv.recvLink here went
  | recvPeek op => cases went; exact inv.recvPeek here
  | recvWakePeer op => cases went; exact inv.recvWakePeer here
  | recvCommit op =>
    cases went
    exact inv.commitRecv here rfl rfl fun e => .inr id
  | donateCommit op target =>
    cases went
    simp only [Sys.nextAllowed, decide_eq_true_eq] at allowed
    exact inv.donateCommit here allowed
  | donateSwitch op target =>
    cases went
    simp only [Sys.nextAllowed, decide_eq_true_eq, Option.any_eq_true] at allowed
    exact inv.donateSwitch here allowed
  | recvAsleep op => exact inv.resumeRecv here went
  | recvBegun op =>
    simp only [Sys.nextAllowed, decide_eq_true_eq] at allowed
    exact inv.recvBegun here went allowed

theorem Inv.step {l : Label} (inv : Inv s fun _ => 0) (allowed : s.allowed l = true)
    (taken : s.step l = some s') : Inv s' fun _ => 0 := by
  cases l with
  | start i op => exact inv.start taken
  | next i env =>
    obtain ⟨th, here, went⟩ := bind_eq_some_iff.mp taken
    simp only [Sys.allowed, here] at allowed
    exact inv.next here allowed went
  | flush j =>
    refine inv.flush taken fun wake at_j => ?_
    simp only [Sys.allowed, at_j, decide_eq_true_eq] at allowed
    exact allowed
  | interrupt i reason => exact inv.interrupt taken
  | shutdown e => exact inv.shutdown taken

theorem init_inv (msgCap : Nat → Nat) (type : Nat → Option ChannelType) (tasks : Nat) :
    Inv (Sys.init msgCap type tasks) fun _ => 0 := by
  refine ⟨fun n => Pair.create_sound _ _, fun _ _ => rfl, fun _ _ => rfl, ?_, ?_⟩
  · intro i th member
    have fresh := eq_of_mem_replicate (mem_of_getElem? member)
    subst fresh
    exact ⟨nofun, nofun, nofun, nofun⟩
  · intro e waiting
    cases waiting

theorem credits_of_quiet (quiet : s.Quiet) (e : EpId) : s.credits e = 0 := by
  unfold Sys.credits
  rw [quiet.1, countP_nil]
  refine total_eq_zero fun th member => ?_
  obtain ⟨park, stage⟩ := th
  rcases quiet.2 _ member with idle | asleep
  · cases stage with
    | returned r => rfl
    | _ => cases idle
  cases stage with
  | sendAsleep op => rfl
  | recvAsleep op =>
    have parked : park.state = .parked := of_decide_eq_true asleep
    refine credit_eq_zero rfl (earned_unwoken (e := op.ep) ?_ rfl) e
    rw [parked]
    exact nofun
  | _ => cases asleep

/-- No wakeup is lost: in a run that gives wakes up only where no receiver waits or no
message is queued, no receiver sleeps in front of a message once every operation has
returned or sleeps. -/
theorem no_lost_wakeup {msgCap : Nat → Nat} {type : Nat → Option ChannelType} {tasks : Nat}
    (run : RunsTo Sys.step (fun s l => s.allowed l = true) (Sys.init msgCap type tasks) s)
    (quiet : s.Quiet) : ¬s.LostWakeup := by
  have inv : Inv s fun _ => 0 :=
    RunsTo.invariant (P := fun s => Inv s fun _ => 0)
      (fun inv allowed taken => inv.step allowed taken) run (init_inv msgCap type tasks)
  rintro ⟨⟨park, stage⟩, member, e, asleep, message⟩
  obtain ⟨i, here⟩ := mem_iff_getElem?.mp member
  cases stage with
  | recvAsleep op =>
    by_cases parked : park.state = .parked
    · simp only [Task.asleepOn, if_pos parked, some_inj] at asleep
      subst asleep
      have unwoken : park.unwoken = true := unwoken_iff.mpr (.inr parked)
      have waiting : s.waiting op.ep = true := by
        rcases (inv.tasks i _ here).found op.ep .recv rfl unwoken with listed | ⟨wake, flying, -⟩
        · exact waiting_iff.mpr
            ⟨_, listed, rfl, _, here, waits_iff.mpr ⟨rfl, unwoken⟩⟩
        · rw [quiet.1] at flying
          cases flying
      have covered := inv.covered op.ep waiting
      rw [credits_of_quiet quiet] at covered
      exact message (length_eq_zero_iff.mp (Nat.le_zero.mp covered))
    · simp only [Task.asleepOn, if_neg parked] at asleep
      cases asleep
  | _ => cases asleep

end Runs

/-! ### Samples -/

/-- Two tasks and channels of capacity four. -/
def sample : Sys := .init (fun _ => 4) (fun _ => none) 2

/-- Task 0 receives on an empty endpoint and parks. -/
def parks : List Label :=
  [.start 0 (.recv (0, true) 0), .next 0 {}, .next 0 {}, .next 0 {}, .next 0 {}]

/-- Task 1 sends, and task 0 is woken and takes the message. -/
def sends : List Label :=
  [.start 1 (.send (0, false) ⟨[7], []⟩ 0), .next 1 ⟨1, true, none, true, none, 64, 0⟩, .flush 0,
    .next 0 {}, .next 0 {}, .next 0 {}]

/-- Task 1 calls and does not want to wait for the reply. -/
def calls : List Label :=
  [.start 1 (.call (0, false) ⟨[7], []⟩ nonblock), .next 1 ⟨1, true, none, true, none, 64, 0⟩,
    .next 1 {}]

theorem no_lost_wakeup_send : ∃ s, RunsTo Sys.step (fun s l => s.allowed l = true) sample s ∧
    s.Quiet ∧ ¬s.LostWakeup := by
  obtain ⟨s, run, quiet⟩ :
      ∃ s, RunsTo Sys.step (fun s l => s.allowed l = true) sample s ∧ s.Quiet :=
    runsTo_of_execWhile (parks ++ sends) (by decide +kernel)
  exact ⟨s, run, quiet, no_lost_wakeup run quiet⟩

/-- The call returns without the wake it deferred: the receiver sleeps in front of the
message for good. -/
theorem nonblocking_call_loses_wakeup : ∃ s, RunsTo Sys.step always sample s ∧
    s.Quiet ∧ s.LostWakeup :=
  runsTo_of_exec (parks ++ calls) (by decide +kernel)

end A20OS.Channel.Blocking
