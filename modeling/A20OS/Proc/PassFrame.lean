import A20OS.Proc.CgCpu

/-!
What a scheduling pass leaves alone.

Each operation says which tasks it may change (`Spares`), and keeps the places in the queues, that
a queued task does not run, and that the idle tasks run and are never queued (`Sound`). The pick
and the choice of the next task change queued tasks and the current one only (`Picks`, `Targets`).
-/

namespace A20OS.Proc

namespace Sched

variable {p : SchedParams} {s s' s'' : Sched} {cpu here t : Nat} {K : Nat → Prop}

/-! ### Which tasks a change spares -/

/-- The tasks in `K` keep everything but their links, and all keep their `pid` and their
group. -/
structure Spares (K : Nat → Prop) (s s' : Sched) : Prop where
  ident : ∀ u, (s'.tasks u).pid = (s.tasks u).pid ∧ (s'.tasks u).cgroup = (s.tasks u).cgroup
  spared : ∀ u, K u → Linkwise (s'.tasks u) (s.tasks u)

theorem Spares.refl (s : Sched) : Spares K s s := ⟨fun _ => ⟨rfl, rfl⟩, fun _ _ => .refl _⟩

theorem Spares.trans (first : Spares K s s') (second : Spares K s' s'') : Spares K s s'' := by
  refine ⟨fun u => ?_, fun u kept => (second.spared u kept).trans (first.spared u kept)⟩
  rw [(second.ident u).1, (second.ident u).2]
  exact first.ident u

theorem Spares.mono {K' : Nat → Prop} (spares : Spares K s s') (sub : ∀ u, K' u → K u) :
    Spares K' s s' := ⟨spares.ident, fun u kept => spares.spared u (sub u kept)⟩

/-- One task changes. -/
theorem Spares.one (self : (s'.tasks t).pid = (s.tasks t).pid ∧
      (s'.tasks t).cgroup = (s.tasks t).cgroup)
    (others : ∀ u, u ≠ t → Linkwise (s'.tasks u) (s.tasks u)) : Spares (· ≠ t) s s' := by
  refine ⟨fun u => ?_, others⟩
  by_cases same : u = t
  · exact same ▸ self
  · obtain ⟨next, prev, last⟩ := others u same
    rw [last]
    exact ⟨rfl, rfl⟩

variable {f : SchedTask → SchedTask}

/-- A queued task does not run, and an idle task runs and is never queued. -/
def TaskOk (p : SchedParams) (t : Nat) (task : SchedTask) : Prop :=
  (task.onRq = true → task.onCpu = false) ∧
    ∀ cpu < p.nrCpus, t = p.idle cpu → task.state = .running ∧ task.onRq = false

structure Sound (p : SchedParams) (s : Sched) : Prop where
  inv : Inv p s
  tasks : ∀ t, TaskOk p t (s.tasks t)

theorem Sound.awake (sound : Sound p s) (ready : (s.tasks t).state = .ready) :
    ∀ cpu < p.nrCpus, t ≠ p.idle cpu := by
  intro cpu inside idle
  rw [((sound.tasks t).2 cpu inside idle).1] at ready
  cases ready

/-- The scheduler is sound, and only the task `t` has changed. -/
abbrev Alters (p : SchedParams) (t : Nat) (s s' : Sched) : Prop := Sound p s' ∧ Spares (· ≠ t) s s'

theorem Alters.trans (first : Alters p t s s') (second : Alters p t s' s'') : Alters p t s s'' :=
  ⟨second.1, first.2.trans second.2⟩

section
variable (sound : Sound p s)
include sound

theorem Sound.one (inv : Inv p s')
    (others : ∀ u, u ≠ t → Linkwise (s'.tasks u) (s.tasks u))
    (self : TaskOk p t (s'.tasks t) ∧ (s'.tasks t).pid = (s.tasks t).pid ∧
      (s'.tasks t).cgroup = (s.tasks t).cgroup) : Alters p t s s' := by
  refine ⟨⟨inv, fun u => ?_⟩, .one self.2 others⟩
  by_cases same : u = t
  · exact same ▸ self.1
  · obtain ⟨next, prev, last⟩ := others u same
    rw [last]
    exact sound.tasks u

theorem Sound.modify (inv : Inv p (s.modify t f))
    (self : TaskOk p t (f (s.tasks t)) ∧ (f (s.tasks t)).pid = (s.tasks t).pid ∧
      (f (s.tasks t)).cgroup = (s.tasks t).cgroup) : Alters p t s (s.modify t f) := by
  refine sound.one inv (fun u other => ?_) (by rw [modify_self]; exact self)
  rw [modify_of_ne s other]
  exact .refl _

/-- Fields of a task are written that say nothing about where it is. -/
theorem Sound.touch (place : SamePlace (f (s.tasks t)) (s.tasks t))
    (links : (f (s.tasks t)).rqPrev = (s.tasks t).rqPrev ∧
      (f (s.tasks t)).rqNext = (s.tasks t).rqNext)
    (kept : (f (s.tasks t)).onCpu = (s.tasks t).onCpu ∧ (f (s.tasks t)).state = (s.tasks t).state ∧
      (f (s.tasks t)).pid = (s.tasks t).pid ∧ (f (s.tasks t)).cgroup = (s.tasks t).cgroup) :
    Alters p t s (s.modify t f) := by
  obtain ⟨cpu, state, ident⟩ := kept
  refine sound.modify (sound.inv.modify place fun _ => links) ⟨?_, ident⟩
  unfold TaskOk
  rw [place.1, cpu, state]
  exact sound.tasks t

/-! ### Queue operations -/

omit sound in
theorem procRunqEnqueue_held (held : (s.tasks t).onRq = true ∨ (s.tasks t).dispatching = true) :
    (s.procRunqEnqueue p here t).1 = s := by
  unfold Sched.procRunqEnqueue
  dsimp only
  split
  · rfl
  · rw [if_pos (held.imp_right .inl)]

theorem Sound.procRunqEnqueue (inside : here < p.nrCpus) (t : Nat) :
    Alters p t s (s.procRunqEnqueue p here t).1 := by
  rcases s.procRunqEnqueue_cases p here t with same | ⟨ready, -, left, queued⟩
  · rw [same]
    exact ⟨sound, .refl s⟩
  obtain ⟨next, prev, fair, last⟩ := (s.modify t fun task =>
    { task with refs := task.refs + 1 }).putOn_self p (s.runqOf p here t) t (s.tasks t).level
  refine sound.one (sound.inv.procRunqEnqueue inside t)
    (fun u other => s.procRunqEnqueue_of_ne p here other) ?_
  rw [queued, moreRunning_tasks, last, modify_self]
  exact ⟨⟨fun _ => left, fun cpu inside idle => absurd idle (sound.awake ready cpu inside)⟩, rfl,
    rfl⟩

theorem Sound.procPut (t : Nat) : Alters p t s (s.procPut t) :=
  sound.touch ⟨rfl, rfl, rfl, rfl, rfl⟩ ⟨rfl, rfl⟩ ⟨rfl, rfl, rfl, rfl⟩

theorem Sound.procRunqRemove (here t : Nat) : Alters p t s (s.procRunqRemove p here t) := by
  by_cases on : (s.tasks t).onRq = true
  · obtain ⟨next, prev, last⟩ := s.retire_self p (s.runqOf p here t) t (s.tasks t).schedLevel
    have now : (s.procRunqRemove p here t).tasks t =
        { s.tasks t with
          rqNext := next, rqPrev := prev, onRq := false, refs := (s.tasks t).refs - 1 } := by
      unfold Sched.procRunqRemove
      rw [if_pos on]
      change (Sched.modify _ t _).tasks t = _
      rw [modify_self]
      change { (s.retire p (s.runqOf p here t) t (s.tasks t).schedLevel).tasks t with
        refs := ((s.retire p (s.runqOf p here t) t (s.tasks t).schedLevel).tasks t).refs - 1 } = _
      rw [last]
    refine sound.one (sound.inv.procRunqRemove here t)
      (fun u other => s.procRunqRemove_tasks p here other) ?_
    rw [now]
    exact ⟨⟨(nomatch ·), fun cpu inside idle => ⟨((sound.tasks t).2 cpu inside idle).1, rfl⟩⟩,
      rfl, rfl⟩
  · unfold Sched.procRunqRemove
    rw [if_neg on]
    exact ⟨sound, .refl s⟩

theorem Sound.schedRunqUnpick (t : Nat) : Alters p t s (s.schedRunqUnpick p t) := by
  have inv := sound.inv.schedRunqUnpick t
  unfold Sched.schedRunqUnpick at inv ⊢
  dsimp only at inv ⊢
  split
  · exact ⟨sound, .refl s⟩
  · next cpu owner =>
    rw [owner] at inv
    dsimp only at inv
    split
    · exact ⟨sound, .refl s⟩
    · next checked =>
      rw [if_neg checked] at inv
      simp only [not_or, Bool.not_eq_true, not_not, Nat.not_le] at checked
      obtain ⟨-, -, left, -, ready⟩ := checked
      generalize (if (s.tasks t).policy.rt = true then (0 : Int)
        else schedLevelClamp (s.tasks t).schedLevel) = level at inv ⊢
      obtain ⟨next, prev, fair, last⟩ := (s.modify t fun task =>
        { task with dispatching := false, ownerCpu := none }).putOn_self p cpu t level
      refine sound.one inv (fun u other => ?_) ?_
      · obtain ⟨next, prev, last⟩ := (s.modify t fun task =>
          { task with dispatching := false, ownerCpu := none }).putOn_of_ne p cpu level other
        rw [modify_of_ne s other] at last
        exact ⟨next, prev, last⟩
      · rw [moreRunning_tasks, last, modify_self]
        exact ⟨⟨fun _ => left, fun cpu inside idle => absurd idle (sound.awake ready cpu inside)⟩,
          rfl, rfl⟩

/-! ### The pick of a pass -/

theorem Sound.relinked (inv : Inv p s')
    (tasks : ∀ u, Linkwise (s'.tasks u) (s.tasks u)) : Sound p s' := by
  refine ⟨inv, fun u => ?_⟩
  obtain ⟨next, prev, last⟩ := tasks u
  rw [last]
  exact sound.tasks u

end

theorem Spares.relinked (tasks : ∀ u, Linkwise (s'.tasks u) (s.tasks u)) : Spares K s s' := by
  refine ⟨fun u => ?_, fun u _ => tasks u⟩
  obtain ⟨next, prev, last⟩ := tasks u
  rw [last]
  exact ⟨rfl, rfl⟩

section
variable (p s cpu t) (level : Int)

theorem dequeue_current : (s.dequeue p cpu t level).current = s.current := by
  unfold Sched.dequeue
  split <;> rfl

theorem takeOff_current : (s.takeOff p cpu t level).current = s.current :=
  s.dequeue_current p cpu t level

end

/-- What a pick does: it leaves alone the tasks that are in no queue. -/
structure Picks (p : SchedParams) (s s' : Sched) (picked : Option Nat) : Prop where
  sound : Sound p s'
  spares : Spares (fun u => (s.tasks u).onRq = false) s s'
  current : s'.current = s.current
  picked : ∀ t, picked = some t → (s.tasks t).onRq = true ∧ (s'.tasks t).onRq = false ∧
    (s'.tasks t).dispatching = true

section
variable (sound : Sound p s)
include sound

theorem Sound.takeOff (on : (s.tasks t).onRq = true) (own : (s.tasks t).cpuId = cpu) {level : Int}
    (same : schedLevelClamp level = 0 ↔ schedLevelClamp (s.tasks t).schedLevel = 0) :
    Alters p t s (s.takeOff p cpu t level) ∧ ((s.takeOff p cpu t level).tasks t).onRq = false := by
  obtain ⟨inv, off⟩ := sound.inv.takeOff on own same
  obtain ⟨next, prev, last⟩ := s.dequeue_tasks p cpu t level t
  have self : (s.takeOff p cpu t level).tasks t =
      { s.tasks t with rqNext := none, rqPrev := none, onRq := false } := by
    change ((s.dequeue p cpu t level).modify t fun task =>
      { task with rqNext := none, rqPrev := none, onRq := false }).tasks t = _
    rw [modify_self, last]
  refine ⟨sound.one inv (fun u other => ?_) ?_, off⟩
  · change Linkwise (((s.dequeue p cpu t level).modify t fun task =>
      { task with rqNext := none, rqPrev := none, onRq := false }).tasks u) _
    rw [modify_of_ne _ other]
    exact s.dequeue_tasks p cpu t level u
  · rw [self]
    exact ⟨⟨(nomatch ·), fun c inside idle => ⟨((sound.tasks t).2 c inside idle).1, rfl⟩⟩, rfl, rfl⟩

theorem Sound.dispatch (cpu t : Nat) : Alters p t s (s.dispatch cpu t) :=
  sound.touch ⟨rfl, rfl, rfl, rfl, rfl⟩ ⟨rfl, rfl⟩ ⟨rfl, rfl, rfl, rfl⟩

omit sound in
/-- A pick that goes on after a first part in which a queued task was taken off. -/
theorem Picks.after {picked : Option Nat} {s₁ : Sched} (rest : Picks p s₁ s' picked)
    (first : Spares (· ≠ t) s s₁) (current : s₁.current = s.current)
    (on : (s.tasks t).onRq = true) (off : (s₁.tasks t).onRq = false) : Picks p s s' picked := by
  have still : ∀ u, u ≠ t → (s₁.tasks u).onRq = (s.tasks u).onRq := by
    intro u other
    obtain ⟨next, prev, last⟩ := first.spared u other
    rw [last]
  have apart : ∀ u, (s.tasks u).onRq = false → u ≠ t := by
    rintro u idle rfl
    rw [on] at idle
    cases idle
  refine ⟨rest.sound, ?_, rest.current.trans current, fun u chosen => ?_⟩
  · exact (first.mono apart).trans (rest.spares.mono fun u idle =>
      (still u (apart u idle)).trans idle)
  · obtain ⟨was, now⟩ := rest.picked u chosen
    refine ⟨?_, now⟩
    by_cases same : u = t
    · exact same ▸ on
    · exact (still u same).symm.trans was

omit sound in
theorem Sound.pickLoop (fuel : Nat) : ∀ {s s' : Sched} {picked : Option Nat}, Sound p s →
    pickLoop p cpu fuel s = some (s', picked) → Picks p s s' picked := by
  induction fuel with
  | zero =>
    intro s s' picked sound found
    cases found
  | succ fuel ih =>
    intro s s' picked sound found
    obtain ⟨s₁, same, inv₁, chosen⟩ := sound.inv.candidate cpu
    have sound₁ := sound.relinked inv₁ same.tasks
    rw [Sched.pickLoop] at found
    -- the scan itself changes nothing but links
    suffices rest : Picks p s₁ s' picked by
      have onRq : ∀ u, (s₁.tasks u).onRq = (s.tasks u).onRq := by
        intro u
        obtain ⟨next, prev, last⟩ := same.tasks u
        rw [last]
      refine ⟨rest.sound, (Spares.relinked same.tasks).trans (rest.spares.mono fun u idle =>
        (onRq u).trans idle), rest.current.trans same.current, fun u chosen => ?_⟩
      rw [← onRq u]
      exact rest.picked u chosen
    rcases chosen with chosen | ⟨t, level, chosen, on, own, levels⟩
    · rw [chosen] at found
      cases found
      refine ⟨sound₁, .refl _, rfl, ?_⟩
      rintro u ⟨⟩
    rw [chosen] at found
    obtain ⟨taken, off⟩ := sound₁.takeOff on own levels
    dsimp only at found
    have current := s₁.takeOff_current p cpu t level
    split at found
    · cases found
      obtain ⟨sound₃, spares₃⟩ := taken.trans (taken.1.dispatch cpu t)
      have out : (((s₁.takeOff p cpu t level).dispatch cpu t).tasks t).onRq = false ∧
          (((s₁.takeOff p cpu t level).dispatch cpu t).tasks t).dispatching = true := by
        rw [Sched.dispatch, modify_self]
        exact ⟨off, rfl⟩
      refine ⟨sound₃, spares₃.mono ?_, current, ?_⟩
      · rintro u idle rfl
        rw [on] at idle
        cases idle
      · rintro u ⟨⟩
        exact ⟨on, out⟩
    · obtain ⟨sound₃, spares₃⟩ := taken.trans (taken.1.procPut t)
      have out : (((s₁.takeOff p cpu t level).procPut t).tasks t).onRq = false := by
        rw [Sched.procPut, modify_self]
        exact off
      exact (ih sound₃ found).after spares₃ current on out

theorem Sound.steal (local_ : Nat) (locked : List Nat) :
    Picks p s (s.steal p local_ locked).1 (s.steal p local_ locked).2 := by
  unfold Sched.steal
  cases found : (List.range p.nrCpus).findSome? (s.stealable p local_ locked) with
  | none => exact ⟨sound, .refl s, rfl, nofun⟩
  | some pair =>
    obtain ⟨remote, t⟩ := pair
    obtain ⟨on, own, levels⟩ := sound.inv.stealable found
    obtain ⟨taken, off⟩ := sound.takeOff on own levels
    have moved : Alters p t _ ((s.takeOff p remote t eevdfLevel).modify t fun task =>
        { task with cpuId := local_ }) :=
      taken.1.modify (taken.1.inv.modifyOff off off) ⟨taken.1.tasks t, rfl, rfl⟩
    obtain ⟨sound₁, spares⟩ := (taken.trans moved).trans (moved.1.dispatch local_ t)
    refine ⟨sound₁, spares.mono ?_, s.takeOff_current p remote t eevdfLevel, ?_⟩
    · rintro u idle rfl
      rw [on] at idle
      cases idle
    · rintro u ⟨⟩
      refine ⟨on, ?_⟩
      unfold Sched.dispatch
      rw [modify_self, modify_self]
      exact ⟨off, rfl⟩

theorem Sound.procRunqPickLocal (cpu : Nat) (locked : List Nat) :
    ∃ s' picked, s.procRunqPickLocal p cpu locked = some (s', picked) ∧ Picks p s s' picked := by
  obtain ⟨s₁, picked, loop, -⟩ :=
    Inv.pickLoop ((s.runqs cpu).nrRunning + 1) sound.inv (Nat.lt_succ_self _)
  have picks := Sound.pickLoop _ sound loop
  unfold Sched.procRunqPickLocal
  rw [loop, Option.map_some]
  cases picked with
  | some t => exact ⟨s₁, some t, rfl, picks⟩
  | none =>
    have stolen := picks.sound.steal cpu locked
    refine ⟨_, _, rfl, stolen.sound, ?_, stolen.current.trans picks.current, fun t chosen => ?_⟩
    · refine picks.spares.trans (stolen.spares.mono fun u idle => ?_)
      obtain ⟨next, prev, last⟩ := picks.spares.spared u idle
      rw [last]
      exact idle
    · obtain ⟨was, now⟩ := stolen.picked t chosen
      refine ⟨?_, now⟩
      by_contra idle
      obtain ⟨next, prev, last⟩ := picks.spares.spared t (Bool.eq_false_iff.mpr idle)
      rw [last] at was
      exact idle was

omit sound in
theorem schedRunqUnpick_current (p : SchedParams) (s : Sched) (t : Nat) :
    (s.schedRunqUnpick p t).current = s.current := by
  unfold Sched.schedRunqUnpick
  dsimp only
  split
  · rfl
  · split
    · rfl
    · exact putOn_current ..

theorem Sound.setRunning (c : Nat) :
    Alters p c s (s.modify c fun task => { task with state := .running }) := by
  refine sound.modify (sound.inv.modify ⟨rfl, rfl, rfl, rfl, rfl⟩ fun _ => ⟨rfl, rfl⟩)
    ⟨⟨(sound.tasks c).1, fun cpu inside idle => ⟨rfl, ?_⟩⟩, rfl, rfl⟩
  exact ((sound.tasks c).2 cpu inside idle).2

end

/-- What the choice of the next task does: it leaves alone the tasks that are in no queue and
not current. -/
structure Targets (p : SchedParams) (cpu : Nat) (s s' : Sched) (next : Option Nat) : Prop where
  sound : Sound p s'
  spares : Spares (fun u => (s.tasks u).onRq = false ∧ s.current cpu ≠ some u) s s'
  current : s'.current = s.current
  next : ∀ n, next = some n → n = p.idle cpu ∨
    (s.tasks n).onRq = true ∧ (s'.tasks n).onRq = false ∧ (s'.tasks n).dispatching = true

section
variable (sound : Sound p s)
include sound

theorem Sound.schedPick (cpu : Nat) (locked : List Nat) :
    ∃ s' next, s.schedPick p cpu locked = some (s', next) ∧ Targets p cpu s s' next := by
  obtain ⟨s₁, picked, found, picks⟩ := sound.procRunqPickLocal cpu locked
  have spares := picks.spares.mono
    (fun u (aside : (s.tasks u).onRq = false ∧ s.current cpu ≠ some u) => aside.1)
  unfold Sched.schedPick
  rw [found, Option.map_some]
  cases picked with
  | none => exact ⟨s₁, none, rfl, picks.sound, spares, picks.current, nofun⟩
  | some next =>
    obtain ⟨was, chosen⟩ := picks.picked next rfl
    obtain ⟨back, spares₂⟩ := picks.sound.schedRunqUnpick next
    have aside : Spares (fun u => (s.tasks u).onRq = false ∧ s.current cpu ≠ some u) s
        (s₁.schedRunqUnpick p next) := by
      refine spares.trans (spares₂.mono ?_)
      rintro u ⟨idle, -⟩ rfl
      rw [was] at idle
      cases idle
    have current := (s₁.schedRunqUnpick_current p next).trans picks.current
    dsimp only
    split
    · exact ⟨_, none, rfl, back, aside, current, nofun⟩
    have goes : Targets p cpu s s₁ (some next) := by
      refine ⟨picks.sound, spares, picks.current, ?_⟩
      rintro n ⟨⟩
      exact .inr ⟨was, chosen⟩
    split
    · exact ⟨s₁, some next, rfl, goes⟩
    · next c isCurrent =>
      split
      · obtain ⟨kept, spares₃⟩ := back.setRunning c
        refine ⟨_, none, rfl, kept, aside.trans (spares₃.mono ?_), current,
          nofun⟩
        rintro u ⟨-, other⟩ rfl
        rw [picks.current] at isCurrent
        exact other isCurrent
      · exact ⟨s₁, some next, rfl, goes⟩

theorem Sound.keep (cpu c : Nat) :
    Alters p c s (s.keep p cpu c) ∧ (s.keep p cpu c).current = s.current := by
  unfold Sched.keep
  split
  · have out := sound.procRunqRemove cpu c
    exact ⟨out.trans (out.1.setRunning c), procRunqRemove_current ..⟩
  · exact ⟨sound.setRunning c, rfl⟩

theorem Sound.schedTarget (cpu : Nat) (locked : List Nat) :
    ∃ s' next, s.schedTarget p cpu locked = some (s', next) ∧ Targets p cpu s s' next := by
  obtain ⟨s₁, picked, found, goes⟩ := sound.schedPick cpu locked
  unfold Sched.schedTarget
  rw [found, Option.map_some]
  cases picked with
  | some next => exact ⟨s₁, some next, rfl, goes⟩
  | none =>
    have idle : Targets p cpu s s₁ (some (p.idle cpu)) := by
      refine ⟨goes.sound, goes.spares, goes.current, ?_⟩
      rintro n ⟨⟩
      exact .inl rfl
    dsimp only
    split
    · exact ⟨s₁, _, rfl, idle⟩
    · next c isCurrent =>
      split
      · obtain ⟨⟨kept, spares⟩, current⟩ := goes.sound.keep cpu c
        refine ⟨_, none, rfl, kept, goes.spares.trans (spares.mono ?_),
          current.trans goes.current, nofun⟩
        rintro u ⟨-, other⟩ rfl
        rw [goes.current] at isCurrent
        exact other isCurrent
      · split
        · exact ⟨s₁, none, rfl, goes⟩
        · exact ⟨s₁, _, rfl, idle⟩

/-! ### The switch -/

theorem Sound.eevdfCharge (cpu t dt : Nat) : Alters p t s (s.eevdfCharge p cpu t dt) := by
  have charged : Alters p t s (s.modify t fun task =>
      { task with fair := task.fair.accountRun p.eevdf dt }) :=
    sound.touch ⟨rfl, rfl, rfl, rfl, rfl⟩ ⟨rfl, rfl⟩ ⟨rfl, rfl, rfl, rfl⟩
  obtain ⟨⟨inv, tasks⟩, ident, spared⟩ := charged
  refine ⟨⟨inv.outside rfl fun c => ?_, tasks⟩, ident, spared⟩
  unfold Sched.eevdfCharge modifyRunq
  by_cases here : c = cpu
  · subst here
    simp
  · simp [here]

theorem Sound.publish (off : (s.tasks t).onRq = false) (cpu : Nat) :
    Alters p t s (s.publish cpu t) := by
  have named : Sound p { s with current := Function.update s.current cpu (some t) } :=
    ⟨sound.inv.outside rfl fun c => ⟨rfl, rfl, rfl, rfl, rfl, rfl, rfl⟩, sound.tasks⟩
  have altered : Alters p t _ (s.publish cpu t) :=
    named.modify (named.inv.modifyOff off rfl) ⟨⟨(nomatch ·), fun _ _ _ => ⟨rfl, rfl⟩⟩, rfl, rfl⟩
  exact ⟨altered.1, altered.2.ident, altered.2.spared⟩

theorem Sound.republish (off : (s.tasks t).onRq = false) (cpu : Nat) :
    Alters p t s (s.republish cpu t) :=
  sound.modify (sound.inv.modifyOff off rfl) ⟨⟨(nomatch ·), fun _ _ _ => ⟨rfl, rfl⟩⟩, rfl, rfl⟩

theorem Sound.procSwitchComplete (inside : cpu < p.nrCpus) (t : Nat) :
    Alters p t s (s.procSwitchComplete p cpu t) := by
  have released : Alters p t s
      (s.modify t fun task => { task with onCpu := false, ownerCpu := none }) :=
    sound.modify (sound.inv.modify ⟨rfl, rfl, rfl, rfl, rfl⟩ fun _ => ⟨rfl, rfl⟩)
      ⟨⟨fun _ => rfl, (sound.tasks t).2⟩, rfl, rfl⟩
  unfold Sched.procSwitchComplete
  dsimp only
  split
  · have queued := released.trans (released.1.procRunqEnqueue inside t)
    exact queued.trans (queued.1.procPut t)
  · exact released.trans (released.1.procPut t)

/-- A switch leaves alone all but the two tasks. -/
theorem Sound.switchTo (inside : cpu < p.nrCpus)
    (off : (s.tasks t).onRq = false) : Sound p (s.switchTo p cpu t) ∧
      Spares (fun u => u ≠ t ∧ s.current cpu ≠ some u) s (s.switchTo p cpu t) := by
  obtain ⟨published, spares⟩ := sound.publish off cpu
  unfold Sched.switchTo
  split
  · exact ⟨published, spares.mono fun u aside => aside.1⟩
  · next prev isCurrent =>
    split
    · obtain ⟨again, spares⟩ := sound.republish off cpu
      exact ⟨again, spares.mono fun u aside => aside.1⟩
    · obtain ⟨done, spares₁⟩ := published.procSwitchComplete inside prev
      refine ⟨done, (spares.mono fun u aside => aside.1).trans (spares₁.mono ?_)⟩
      rintro u ⟨-, other⟩ rfl
      exact other isCurrent

end

end Sched

end A20OS.Proc
