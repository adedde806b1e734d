import A20OS.Proc.RunqLists
import A20OS.Proc.SchedSet

/-!
Where the queued tasks are.

`Sched.Inv` says that the place of every task is the one its fields name. `proc_sched_set` is the
one operation that may break it: it writes the new priority before the task is taken out, so that a
real-time task leaves the list of its new priority, and it writes the level of a queued task that
is not ready. Runs are safe in which it does neither (`Keeps`).
-/

namespace A20OS.Proc.Sched

open Lib List Option

variable {here : Nat} {f : SchedTask → SchedTask}

/-- The places that the fields of the tasks name. -/
def places (p : SchedParams) (s : Sched) : Nat → Option Place := fun u => (s.tasks u).place p

/-- Every task is linked where its fields say, and a queued real-time task is at level 0. -/
structure Inv (p : SchedParams) (s : Sched) : Prop where
  linked : ∃ rt, Linked p s (s.places p) rt
  counted : Counted s (s.places p)
  rtLevel : ∀ t, (s.tasks t).onRq = true → (s.tasks t).policy.rt = true →
    schedLevelClamp (s.tasks t).schedLevel = 0
  cpus : ∀ t, (s.tasks t).onRq = true → (s.tasks t).cpuId < p.nrCpus

variable {p : SchedParams} {s s' : Sched} {w : Nat → Option Place} {rt : Nat → Nat → List Nat}
  {cpu t : Nat} {level : Int} {u : Nat} {a b task : SchedTask}

theorem place_of_onRq (on : task.onRq = true) :
    task.place p =
      some (placeAt p task.cpuId (schedLevelClamp task.schedLevel) task.priority) := by
  rw [SchedTask.place, if_pos on, placeAt]

theorem place_of_off (off : task.onRq = false) : task.place p = none := by
  rw [SchedTask.place, off]
  rfl

theorem placeAt_cpu (p : SchedParams) (cpu : Nat) (level priority : Int) :
    (placeAt p cpu level priority).cpu = cpu := by
  unfold placeAt
  split <;> rfl

theorem placeAt_congr {level' : Int} (same : level = 0 ↔ level' = 0) {priority : Int} :
    placeAt p cpu level priority = placeAt p cpu level' priority := by
  simp only [placeAt, same]

theorem places_eq_rt {slot : Nat} (at_ : s.places p t = some (.rt cpu slot)) :
    (s.tasks t).onRq = true ∧ (s.tasks t).cpuId = cpu ∧
      schedLevelClamp (s.tasks t).schedLevel = 0 ∧ p.rtPrioSlot (s.tasks t).priority = slot := by
  unfold places SchedTask.place at at_
  split at at_
  · next on =>
    split at at_
    · next zero =>
      cases at_
      exact ⟨on, rfl, zero, rfl⟩
    · cases at_
  · cases at_

theorem places_eq_fair (at_ : s.places p t = some (.fair cpu)) :
    (s.tasks t).onRq = true ∧ (s.tasks t).cpuId = cpu ∧
      schedLevelClamp (s.tasks t).schedLevel ≠ 0 := by
  unfold places SchedTask.place at at_
  split at at_
  · next on =>
    split at at_
    · cases at_
    · next more =>
      cases at_
      exact ⟨on, rfl, more⟩
  · cases at_

/-! ### What an operation leaves of the tasks -/

section
variable (p s cpu t level)

theorem dequeue_tasks (u : Nat) :
    ∃ next prev, (s.dequeue p cpu t level).tasks u =
      { s.tasks u with rqNext := next, rqPrev := prev } := by
  unfold Sched.dequeue
  split <;> exact ⟨_, _, rfl⟩

theorem retire_self :
    ∃ next prev, (s.retire p cpu t level).tasks t =
      { s.tasks t with rqNext := next, rqPrev := prev, onRq := false } := by
  obtain ⟨next, prev, same⟩ := s.dequeue_tasks p cpu t level t
  refine ⟨next, prev, ?_⟩
  rw [retire, modify_self, same]

theorem link_self :
    ∃ next prev fair, (s.link p cpu t level).tasks t =
      { s.tasks t with rqNext := next, rqPrev := prev, fair } := by
  unfold Sched.link
  split
  · exact ⟨_, _, _, rfl⟩
  · exact ⟨_, _, _, Function.update_self ..⟩

theorem putOn_self :
    ∃ next prev fair, (s.putOn p cpu t level).tasks t =
      { s.tasks t with
        cpuId := cpu, schedLevel := level, rqNext := next, rqPrev := prev, fair,
        onRq := true } := by
  obtain ⟨next, prev, fair, same⟩ := (s.modify t fun task =>
    { task with cpuId := cpu, schedLevel := level }).link_self p cpu t level
  refine ⟨next, prev, fair, ?_⟩
  rw [putOn, modify_self, same, modify_self]

theorem retire_nrRunning (c : Nat) :
    ((s.retire p cpu t level).runqs c).nrRunning = (s.runqs c).nrRunning := by
  change ((s.dequeue p cpu t level).runqs c).nrRunning = _
  unfold Sched.dequeue
  split <;> exact update_count s (by rfl) c

theorem putOn_nrRunning (c : Nat) :
    ((s.putOn p cpu t level).runqs c).nrRunning = (s.runqs c).nrRunning := by
  change (((s.modify t _).link p cpu t level).runqs c).nrRunning = _
  unfold Sched.link
  split <;> exact update_count (s.modify t _) (by rfl) c

theorem countMove_tasks (src dst : Nat) : (s.countMove src dst).tasks = s.tasks := by
  unfold countMove
  split <;> rfl

theorem moreRunning_tasks : (s.moreRunning cpu).tasks = s.tasks := rfl

theorem moreRunning_nrRunning (c : Nat) :
    ((s.moreRunning cpu).runqs c).nrRunning =
      if c = cpu then (s.runqs c).nrRunning + 1 else (s.runqs c).nrRunning := by
  by_cases here : c = cpu
  · subst here
    simp [moreRunning, modifyRunq]
  · simp [moreRunning, modifyRunq, here]

theorem lessRunning_nrRunning (c : Nat) :
    ((s.lessRunning cpu).runqs c).nrRunning =
      if c = cpu then (s.runqs c).nrRunning - 1 else (s.runqs c).nrRunning := by
  by_cases here : c = cpu
  · subst here
    simp [lessRunning, modifyRunq]
  · simp [lessRunning, modifyRunq, here]

/-- The counters of a move, as if the task was first taken away and then added. -/
theorem countMove_nrRunning {src : Nat} (pos : 0 < (s.runqs src).nrRunning)
    (dst c : Nat) : ((s.countMove src dst).runqs c).nrRunning =
      (((s.lessRunning src).moreRunning dst).runqs c).nrRunning := by
  unfold countMove
  split
  · next same =>
    subst same
    rw [moreRunning_nrRunning, lessRunning_nrRunning]
    split
    · next here =>
      subst here
      omega
    · rfl
  · rfl

variable {t} (other : u ≠ t)
include other

theorem retire_of_ne : ∃ next prev, (s.retire p cpu t level).tasks u =
    { s.tasks u with rqNext := next, rqPrev := prev } := by
  rw [retire, modify_of_ne _ other]
  exact s.dequeue_tasks p cpu t level u

theorem link_of_ne : ∃ next prev, (s.link p cpu t level).tasks u =
    { s.tasks u with rqNext := next, rqPrev := prev } := by
  unfold Sched.link
  split
  · exact ⟨_, _, rfl⟩
  · exact ⟨_, _, Function.update_of_ne other ..⟩

theorem putOn_of_ne : ∃ next prev, (s.putOn p cpu t level).tasks u =
    { s.tasks u with rqNext := next, rqPrev := prev } := by
  obtain ⟨next, prev, same⟩ := (s.modify t fun task =>
    { task with cpuId := cpu, schedLevel := level }).link_of_ne p cpu level other
  refine ⟨next, prev, ?_⟩
  rw [putOn, modify_of_ne _ other, same, modify_of_ne _ other]

end

/-! ### Moves -/

/-- The fields that name a place, and the policy, are those of another task record. -/
def SamePlace (a b : SchedTask) : Prop :=
  a.onRq = b.onRq ∧ a.cpuId = b.cpuId ∧ a.schedLevel = b.schedLevel ∧ a.policy = b.policy ∧
    a.priority = b.priority

theorem SamePlace.place (same : SamePlace a b) : a.place p = b.place p := by
  obtain ⟨on, cpu, level, -, priority⟩ := same
  rw [SchedTask.place, SchedTask.place, on, cpu, level, priority]

theorem SamePlace.trans {c : SchedTask} (first : SamePlace a b) (second : SamePlace b c) :
    SamePlace a c := by
  obtain ⟨on, cpu, level, policy, priority⟩ := first
  unfold SamePlace
  rw [on, cpu, level, policy, priority]
  exact second

theorem SamePlace.links (h : ∃ next prev,
    a = { b with rqNext := next, rqPrev := prev }) : SamePlace a b := by
  obtain ⟨next, prev, rfl⟩ := h
  exact ⟨rfl, rfl, rfl, rfl, rfl⟩

/-- A task that is queued has a processor, and is at level 0 if it is a real-time task. -/
def Fits (p : SchedParams) (task : SchedTask) : Prop := task.onRq = true →
  (task.policy.rt = true → schedLevelClamp task.schedLevel = 0) ∧ task.cpuId < p.nrCpus

theorem SamePlace.fits (same : SamePlace a b) (fits : Fits p b) : Fits p a := by
  obtain ⟨on, cpu, level, policy, -⟩ := same
  rwa [Fits, on, cpu, level, policy]

/-- One task changes its place. -/
theorem places_eq_update {place : Option Place}
    (others : ∀ u, u ≠ t → SamePlace (s'.tasks u) (s.tasks u))
    (there : (s'.tasks t).place p = place) : s'.places p = Function.update (s.places p) t place :=
  Function.eq_update_iff.mpr ⟨there, fun u other => (others u other).place⟩

theorem Inv.of_fits (linked : ∃ rt, Linked p s (s.places p) rt) (counted : Counted s (s.places p))
    (fits : ∀ u, Fits p (s.tasks u)) : Inv p s :=
  ⟨linked, counted, fun u on => (fits u on).1, fun u on => (fits u on).2⟩

section
variable (inv : Inv p s)
include inv

theorem Inv.fits (u : Nat) : Fits p (s.tasks u) := fun on => ⟨inv.rtLevel u on, inv.cpus u on⟩

/-- The fields of one task, and links and queues, change. -/
theorem Inv.update (t : Nat) (place : Option Place)
    (linked : ∃ rt, Linked p s' (Function.update (s.places p) t place) rt)
    (counted : Counted s' (Function.update (s.places p) t place))
    (others : ∀ u, u ≠ t → SamePlace (s'.tasks u) (s.tasks u))
    (there : (s'.tasks t).place p = place) (fits : Fits p (s'.tasks t)) : Inv p s' := by
  have now := places_eq_update others there
  refine .of_fits (now ▸ linked) (now ▸ counted) fun u => ?_
  by_cases same : u = t
  · exact same ▸ fits
  · exact (others u same).fits (inv.fits u)

/-- A task is written, and its place stays what it was. -/
theorem Inv.write
    (place : (f (s.tasks t)).place p = (s.tasks t).place p)
    (links : (s.tasks t).onRq = true → (f (s.tasks t)).rqPrev = (s.tasks t).rqPrev ∧
      (f (s.tasks t)).rqNext = (s.tasks t).rqNext)
    (fits : Fits p (f (s.tasks t))) : Inv p (s.modify t f) := by
  obtain ⟨rt, linked⟩ := inv.linked
  have idem : Function.update (s.places p) t ((s.tasks t).place p) = s.places p :=
    Function.update_eq_self ..
  refine inv.update t ((s.tasks t).place p) ⟨rt, ?_⟩ ?_ (fun u other => ?_) ?_ ?_
  · rw [idem]
    refine linked.modify fun queued => links ?_
    by_contra off
    exact queued (place_of_off (Bool.eq_false_iff.mpr off))
  · rw [idem]
    exact inv.counted
  · rw [modify_of_ne s other]
    exact ⟨rfl, rfl, rfl, rfl, rfl⟩
  · rw [modify_self, place]
  · rw [modify_self]
    exact fits

/-- Fields of a task that name no place change. -/
theorem Inv.modify
    (same : SamePlace (f (s.tasks t)) (s.tasks t))
    (links : (s.tasks t).onRq = true → (f (s.tasks t)).rqPrev = (s.tasks t).rqPrev ∧
      (f (s.tasks t)).rqNext = (s.tasks t).rqNext) : Inv p (s.modify t f) :=
  inv.write same.place links (same.fits (inv.fits t))

theorem Inv.modifyOff (off : (s.tasks t).onRq = false)
    (stays : (f (s.tasks t)).onRq = false) : Inv p (s.modify t f) := by
  refine inv.write ((place_of_off stays).trans (place_of_off off).symm) ?_ ?_
  · rw [off]
    exact nofun
  · rw [Fits, stays]
    exact nofun

/-- A task is put in. -/
theorem Inv.enter (off : (s.tasks t).onRq = false) (inside : cpu < p.nrCpus)
    (clamped : schedLevelClamp level = level) (rtLevel : (s.tasks t).policy.rt = true → level = 0) :
    Inv p ((s.putOn p cpu t level).moreRunning cpu) := by
  obtain ⟨rt, linked⟩ := inv.linked
  have free : s.places p t = none := place_of_off off
  obtain ⟨rt', linked⟩ := linked.putOn free cpu level
  obtain ⟨next, prev, fair, self⟩ := s.putOn_self p cpu t level
  have self : ((s.putOn p cpu t level).moreRunning cpu).tasks t = _ := self
  refine inv.update t _ ⟨rt', linked.moreRunning cpu⟩ ?_ (fun u other => ?_) ?_ ?_
  · refine inv.counted.more free (placeAt_cpu ..) fun c => ?_
    rw [moreRunning_nrRunning, putOn_nrRunning]
  · exact .links (s.putOn_of_ne p cpu level other)
  · rw [self, place_of_onRq rfl, clamped]
  · rw [self]
    exact fun _ => ⟨fun isRt => clamped.trans (rtLevel isRt), inside⟩

/-- A task is taken out at its place. -/
theorem Inv.leave (on : (s.tasks t).onRq = true) (own : (s.tasks t).cpuId = cpu)
    (same : schedLevelClamp level = 0 ↔ schedLevelClamp (s.tasks t).schedLevel = 0) :
    Inv p ((s.retire p cpu t level).lessRunning cpu) := by
  obtain ⟨rt, linked⟩ := inv.linked
  have place : s.places p t =
      some (placeAt p cpu (schedLevelClamp level) (s.tasks t).priority) := by
    rw [placeAt_congr same, ← own]
    exact place_of_onRq on
  obtain ⟨rt', linked⟩ := linked.retire place
  obtain ⟨next, prev, self⟩ := s.retire_self p cpu t level
  have off : (((s.retire p cpu t level).lessRunning cpu).tasks t).onRq = false := by
    change ((s.retire p cpu t level).tasks t).onRq = false
    rw [self]
  refine inv.update t none ⟨rt', linked.lessRunning cpu⟩ ?_ (fun u other => ?_)
    (place_of_off off) ?_
  · refine inv.counted.less place (placeAt_cpu ..) fun c => ?_
    rw [lessRunning_nrRunning, retire_nrRunning]
  · exact .links (s.retire_of_ne p cpu level other)
  · rw [Fits, off]
    exact nofun

theorem Inv.nrRunning_pos (on : (s.tasks t).onRq = true) :
    0 < (s.runqs (s.tasks t).cpuId).nrRunning := by
  have member : t ∈ queuedOn (s.places p) (s.tasks t).cpuId :=
    ⟨_, place_of_onRq on, placeAt_cpu ..⟩
  have some_ := Set.encard_pos.mpr ⟨t, member⟩
  rw [inv.counted] at some_
  exact_mod_cast some_

/-! ### Enqueue, remove and unpick -/

omit inv in
theorem clamp_level (task : SchedTask) : schedLevelClamp task.level = task.level := by
  unfold SchedTask.level
  split <;> rfl

omit inv in
theorem clamp_clamp (level : Int) :
    schedLevelClamp (schedLevelClamp level) = schedLevelClamp level := by
  unfold schedLevelClamp
  split
  · rfl
  · split <;> rfl

theorem Inv.procPut (t : Nat) : Inv p (s.procPut t) :=
  inv.modify ⟨rfl, rfl, rfl, rfl, rfl⟩ fun _ => ⟨rfl, rfl⟩

omit inv in
/-- A task that is ready, in no queue and on no processor is queued, or nothing happens. -/
theorem procRunqEnqueue_cases (p : SchedParams) (s : Sched) (here t : Nat) :
    (s.procRunqEnqueue p here t).1 = s ∨
    (s.tasks t).state = .ready ∧ (s.tasks t).onRq = false ∧ (s.tasks t).onCpu = false ∧
      (s.procRunqEnqueue p here t).1 =
        ((s.modify t fun task => { task with refs := task.refs + 1 }).putOn p (s.runqOf p here t) t
          (s.tasks t).level).moreRunning (s.runqOf p here t) := by
  unfold Sched.procRunqEnqueue
  dsimp only
  split
  · exact .inl rfl
  · next awake =>
    split
    · exact .inl rfl
    · next idle =>
      split
      · exact .inl rfl
      simp only [not_or, ne_eq, not_not, Bool.not_eq_true] at awake idle
      exact .inr ⟨awake.2, idle.1, idle.2.2, rfl⟩

theorem Inv.procRunqEnqueue (inside : here < p.nrCpus) (t : Nat) :
    Inv p (s.procRunqEnqueue p here t).1 := by
  rcases s.procRunqEnqueue_cases p here t with same | ⟨-, off, -, queued⟩
  · rw [same]
    exact inv
  have counted : Inv p (s.modify t fun task => { task with refs := task.refs + 1 }) :=
    inv.modify ⟨rfl, rfl, rfl, rfl, rfl⟩ fun _ => ⟨rfl, rfl⟩
  rw [queued]
  refine counted.enter (by rw [modify_self]; exact off) ?_ (clamp_level _) ?_
  · unfold runqOf
    split
    · assumption
    · exact inside
  · rw [modify_self]
    exact fun isRt => if_pos isRt

theorem Inv.procRunqRemove (here t : Nat) : Inv p (s.procRunqRemove p here t) := by
  unfold Sched.procRunqRemove
  split
  · next on =>
    have own : s.runqOf p here t = (s.tasks t).cpuId := if_pos (inv.cpus t on)
    exact (inv.leave on own.symm Iff.rfl).procPut t
  · exact inv

theorem Inv.schedRunqUnpick (t : Nat) : Inv p (s.schedRunqUnpick p t) := by
  unfold Sched.schedRunqUnpick
  dsimp only
  split
  · exact inv
  · next cpu owner =>
    split
    · exact inv
    · next checked =>
      simp only [not_or, Bool.not_eq_true, not_not, Nat.not_le] at checked
      obtain ⟨-, off, -, inside, -⟩ := checked
      have released : Inv p (s.modify t fun task =>
          { task with dispatching := false, ownerCpu := none }) := inv.modifyOff off off
      refine released.enter (by rw [modify_self]; exact off) inside ?_ ?_
      · split
        · rfl
        · exact clamp_clamp _
      · rw [modify_self]
        exact fun isRt => if_pos isRt

/-! ### The pick -/

omit inv in
theorem takeOff_eq :
    s.takeOff p cpu t level =
      ((s.retire p cpu t level).lessRunning cpu).modify t fun task =>
        { task with rqNext := none, rqPrev := none } := by
  simp [takeOff, retire, Sched.modify, lessRunning, modifyRunq]

theorem Inv.takeOff (on : (s.tasks t).onRq = true) (own : (s.tasks t).cpuId = cpu)
    (same : schedLevelClamp level = 0 ↔ schedLevelClamp (s.tasks t).schedLevel = 0) :
    Inv p (s.takeOff p cpu t level) ∧ ((s.takeOff p cpu t level).tasks t).onRq = false := by
  obtain ⟨next, prev, self⟩ := s.retire_self p cpu t level
  have off : ((s.retire p cpu t level).tasks t).onRq = false := by rw [self]
  rw [takeOff_eq, modify_self]
  exact ⟨(inv.leave on own same).modifyOff off off, off⟩

theorem Inv.dispatch (off : (s.tasks t).onRq = false) (cpu : Nat) :
    Inv p (s.dispatch cpu t) := inv.modifyOff off off

/-- The links change, and the tasks stay at their places. -/
theorem Inv.relinked (linked : Linked p s' (s.places p) rt)
    (fields : ∀ u, SamePlace (s'.tasks u) (s.tasks u))
    (counts : ∀ c, (s'.runqs c).nrRunning = (s.runqs c).nrRunning) : Inv p s' := by
  have now : s'.places p = s.places p := funext fun u => (fields u).place
  refine .of_fits ⟨rt, now ▸ linked⟩ (fun c => ?_) fun u => (fields u).fits (inv.fits u)
  rw [now, counts]
  exact inv.counted c

/-- The candidate of the pick is queued on the processor, at the level given with it. -/
theorem Inv.candidate (cpu : Nat) : ∃ s', Relinked s s' ∧ Inv p s' ∧
    (s.candidate p cpu = (s', none) ∨ ∃ t level, s.candidate p cpu = (s', some (t, level)) ∧
      (s'.tasks t).onRq = true ∧ (s'.tasks t).cpuId = cpu ∧
      (schedLevelClamp level = 0 ↔ schedLevelClamp (s'.tasks t).schedLevel = 0)) := by
  obtain ⟨rt, linked⟩ := inv.linked
  have own : ∀ u l, u ∈ rt cpu l → p.rtPrioSlot (s.tasks u).priority = l :=
    fun u l inside => (places_eq_rt ((linked.rtMembers u cpu l).mp inside)).2.2.2
  unfold Sched.candidate
  rcases linked.rtPickBest own with
    ⟨picked, -⟩ | ⟨l, x, xs, s', y, -, -, picked, head, same, linked'⟩
  · rw [picked]
    dsimp only
    refine ⟨s, .refl s, inv, ?_⟩
    split
    · exact .inl rfl
    cases found : ((s.runqs cpu).fair.pickEligible s.fairTasks).or (s.runqs cpu).fair.first with
    | none => exact .inl rfl
    | some t =>
      have member : t ∈ (s.runqs cpu).fair.root.inorder := by
        rcases or_eq_some_iff.mp found with eligible | ⟨-, first⟩
        · exact EevdfRunq.mem_pickEligible eligible
        · exact (linked.fairSound cpu).first t first
      obtain ⟨on, own, more⟩ := places_eq_fair ((linked.fairMembers t cpu).mp member)
      exact .inr ⟨t, eevdfLevel, rfl, on, own, iff_of_false (by decide) more⟩
  · have inv' := inv.relinked linked' (fun u => .links (same.tasks u)) same.counts
    have member : y ∈ setList rt cpu l (s.rotated x xs) cpu l := by
      rw [setList_self]
      exact mem_of_mem_head? head
    obtain ⟨on, own, zero, -⟩ := places_eq_rt ((linked'.rtMembers y cpu l).mp member)
    obtain ⟨same_on, same_cpu, same_level, -⟩ := SamePlace.links (same.tasks y)
    rw [picked]
    refine ⟨s', same, inv', .inr ⟨y, 0, rfl, same_on.trans on, same_cpu.trans own, ?_⟩⟩
    rw [same_level]
    exact iff_of_true rfl zero

omit inv in
/-- With fuel for every queued task the loop of the pick ends. -/
theorem Inv.pickLoop (fuel : Nat) : ∀ {s : Sched}, Inv p s → (s.runqs cpu).nrRunning < fuel →
    ∃ s' picked, pickLoop p cpu fuel s = some (s', picked) ∧ Inv p s' := by
  induction fuel with
  | zero => exact nofun
  | succ fuel ih =>
    intro s inv enough
    obtain ⟨s₁, same, inv₁, chosen⟩ := inv.candidate cpu
    rw [Sched.pickLoop]
    rcases chosen with chosen | ⟨t, level, chosen, on, own, levels⟩
    · rw [chosen]
      exact ⟨s₁, none, rfl, inv₁⟩
    obtain ⟨inv₂, off⟩ := inv₁.takeOff on own levels
    rw [chosen]
    dsimp only
    split
    · exact ⟨_, some t, rfl, inv₂.dispatch off cpu⟩
    refine ih (inv₂.procPut t) ?_
    have pos := inv₁.nrRunning_pos on
    have count : (((s₁.takeOff p cpu t level).procPut t).runqs cpu).nrRunning =
        (s₁.runqs cpu).nrRunning - 1 := by
      change (((s₁.retire p cpu t level).lessRunning cpu).runqs cpu).nrRunning = _
      rw [lessRunning_nrRunning, if_pos rfl, retire_nrRunning]
    rw [own] at pos
    have := same.counts cpu
    omega

/-- The task that is stolen is queued on the other processor. -/
theorem Inv.stealable {local_ remote : Nat} {locked : List Nat}
    (found : (List.range p.nrCpus).findSome? (s.stealable p local_ locked) = some (remote, t)) :
    (s.tasks t).onRq = true ∧ (s.tasks t).cpuId = remote ∧
      (schedLevelClamp eevdfLevel = 0 ↔ schedLevelClamp (s.tasks t).schedLevel = 0) := by
  obtain ⟨cpu, -, chosen⟩ := exists_of_findSome?_eq_some found
  unfold Sched.stealable at chosen
  dsimp only at chosen
  split at chosen
  · cases chosen
  obtain ⟨u, last, chosen⟩ := bind_eq_some_iff.mp chosen
  split at chosen
  · cases chosen
    obtain ⟨rt, linked⟩ := inv.linked
    have member := (linked.fairSound remote).last t last
    obtain ⟨on, own, more⟩ := places_eq_fair ((linked.fairMembers t remote).mp member)
    exact ⟨on, own, iff_of_false (by decide) more⟩
  · cases chosen

theorem Inv.steal (local_ : Nat) (locked : List Nat) : Inv p (s.steal p local_ locked).1 := by
  unfold Sched.steal
  cases found : (range p.nrCpus).findSome? (s.stealable p local_ locked) with
  | none => exact inv
  | some pair =>
    obtain ⟨remote, t⟩ := pair
    obtain ⟨on, own, levels⟩ := inv.stealable found
    obtain ⟨inv, off⟩ := inv.takeOff on own levels
    have moved : Inv p ((s.takeOff p remote t eevdfLevel).modify t fun task =>
        { task with cpuId := local_ }) := inv.modifyOff off off
    exact moved.dispatch (by rw [modify_self]; exact off) local_

/-- The pick returns, and keeps the tasks at their places. -/
theorem Inv.procRunqPickLocal (cpu : Nat) (locked : List Nat) :
    ∃ s' picked, s.procRunqPickLocal p cpu locked = some (s', picked) ∧ Inv p s' := by
  obtain ⟨s', picked, loop, inv'⟩ :=
    Inv.pickLoop ((s.runqs cpu).nrRunning + 1) inv (Nat.lt_succ_self _)
  unfold Sched.procRunqPickLocal
  rw [loop, map_some]
  cases picked with
  | none => exact ⟨_, _, rfl, inv'.steal cpu locked⟩
  | some t => exact ⟨s', some t, rfl, inv'⟩

end

/-! ### Changing a task -/

/-- What `proc_sched_set` writes names no processor, and leaves the links alone. -/
theorem configured_kept (p : SchedParams) (task : SchedTask) (policy : SchedPolicy)
    (priority : Int) (config : ProcSchedConfig) :
    let new := task.configured p policy priority config
    new.onRq = task.onRq ∧ new.cpuId = task.cpuId ∧ new.state = task.state ∧
      new.rqPrev = task.rqPrev ∧ new.rqNext = task.rqNext := by
  obtain ⟨unknown, policyField, priorityField, affinity, nice, reset⟩ := config
  cases policyField <;> cases nice <;> cases affinity <;> cases policy <;>
    exact ⟨rfl, rfl, rfl, rfl, rfl⟩

/-- The level and the policy that it writes. -/
theorem configured_level (p : SchedParams) (task : SchedTask) (policy : SchedPolicy)
    (priority : Int) (config : ProcSchedConfig) :
    let new := task.configured p policy priority config
    (config.policy = none → new.policy = task.policy ∧ new.schedLevel = task.schedLevel) ∧
      (config.policy ≠ none → new.policy = policy ∧ (policy.rt = true → new.schedLevel = 0)) := by
  obtain ⟨unknown, policyField, priorityField, affinity, nice, reset⟩ := config
  unfold SchedTask.configured
  cases policyField <;> cases nice <;> cases affinity <;> cases policy <;>
    simp [SchedTask.writePolicy, SchedTask.writeNice, SchedPolicy.rt]

theorem foldl_lighter_lt (s : Sched) (mask : BitVec 32) {n : Nat} {cpus : List Nat}
    (below : ∀ c ∈ cpus, c < n) {best : Option (Nat × Nat)} (start : ∀ b ∈ best, b.1 < n) :
    ∀ b ∈ cpus.foldl (s.lighter mask) best, b.1 < n := by
  induction cpus generalizing best with
  | nil => exact start
  | cons cpu cpus ih =>
    refine ih (fun c inside => below c (.tail _ inside)) fun b chosen => ?_
    unfold lighter at chosen
    split at chosen
    · cases chosen
      exact below cpu (.head _)
    · exact start b chosen

theorem procSchedSelectCpu_lt (inside : here < p.nrCpus) (s : Sched) (t : Nat) :
    s.procSchedSelectCpu p here t < p.nrCpus := by
  unfold procSchedSelectCpu
  dsimp only
  split
  · exact inside
  split
  · exact inside
  have below : ∀ c ∈ range (min p.nrCpus 32), c < p.nrCpus := by
    intro c member
    have := mem_range.mp member
    omega
  have start : ∀ b ∈ (none : Option (Nat × Nat)), b.1 < p.nrCpus := fun b => (nomatch ·)
  have found := s.foldl_lighter_lt (s.schedTaskCpuMask p t) below start
  cases least : (range (min p.nrCpus 32)).foldl (s.lighter (s.schedTaskCpuMask p t)) none with
  | none => exact inside
  | some b => exact found b least

theorem Linked.countMove (linked : Linked p s w rt) (src dst : Nat) :
    Linked p (s.countMove src dst) w rt := by
  unfold Sched.countMove
  split
  · exact linked
  · exact (linked.lessRunning src).moreRunning dst

theorem targetCpu_lt (inside : here < p.nrCpus) (own : (s.tasks t).cpuId < p.nrCpus) :
    s.targetCpu p here t < p.nrCpus := by
  unfold targetCpu
  dsimp only
  split
  · exact own
  · exact procSchedSelectCpu_lt inside s t

/-- The task is written in a way that keeps the list it is in, and at its level when it is not
to be moved. -/
def KeepsPlace (p : SchedParams) (task new : SchedTask) : Prop :=
  (schedLevelClamp task.schedLevel = 0 →
    p.rtPrioSlot new.priority = p.rtPrioSlot task.priority) ∧
  (task.state ≠ .ready →
    (schedLevelClamp new.schedLevel = 0 ↔ schedLevelClamp task.schedLevel = 0))

instance (p : SchedParams) (task new : SchedTask) : Decidable (KeepsPlace p task new) :=
  inferInstanceAs (Decidable (_ ∧ _))

/-- The place of a queued task that was written and not moved. -/
theorem place_eq_of_keeps {new : SchedTask} (on : task.onRq = true) (sameOn : new.onRq = task.onRq)
    (sameCpu : new.cpuId = task.cpuId)
    (slot : schedLevelClamp task.schedLevel = 0 →
      p.rtPrioSlot new.priority = p.rtPrioSlot task.priority)
    (level : schedLevelClamp new.schedLevel = 0 ↔ schedLevelClamp task.schedLevel = 0) :
    new.place p = task.place p := by
  rw [place_of_onRq on, place_of_onRq (sameOn.trans on), sameCpu, placeAt_congr level]
  unfold placeAt
  split
  · next zero => rw [slot zero]
  · rfl

/-- A task that was taken out comes back, and the counters have been moved. -/
theorem Inv.comeBack (inv : Inv p s) {old : Place} {dst : Nat}
    (was : s.places p t = some old)
    (linked : Linked p s' (Function.update (s.places p) t none) rt)
    (others : ∀ u, u ≠ t → SamePlace (s'.tasks u) (s.tasks u))
    (numbers : ∀ c, (s'.runqs c).nrRunning =
      (((s.lessRunning old.cpu).moreRunning dst).runqs c).nrRunning)
    (inside : dst < p.nrCpus) (clamped : schedLevelClamp level = level)
    (rtLevel : (s'.tasks t).policy.rt = true → level = 0) : Inv p (s'.putOn p dst t level) := by
  obtain ⟨rt', linked⟩ := linked.putOn (Function.update_self ..) dst level
  rw [Function.update_idem] at linked
  obtain ⟨next, prev, fair, self⟩ := s'.putOn_self p dst t level
  have less : Counted (s.lessRunning old.cpu) (Function.update (s.places p) t none) :=
    inv.counted.less was rfl (lessRunning_nrRunning s _)
  have more : Counted (s'.putOn p dst t level)
    (Function.update (Function.update (s.places p) t none)
      t (some (placeAt p dst level (s'.tasks t).priority))) := by
    refine less.more (Function.update_self ..) (placeAt_cpu ..) fun c => ?_
    rw [putOn_nrRunning, numbers, moreRunning_nrRunning]
  rw [Function.update_idem] at more
  refine inv.update t _ ⟨rt', linked⟩ more (fun u other => ?_) ?_ ?_
  · exact (SamePlace.links (s'.putOn_of_ne p dst level other)).trans (others u other)
  · rw [self, place_of_onRq rfl, clamped]
  · rw [self]
    exact fun _ => ⟨fun isRt => clamped.trans (rtLevel isRt), inside⟩

/-- A queued task that was written, so that its list stays the same, is moved. -/
theorem Inv.requeue (inv : Inv p s) {dst : Nat}
    (on : (s.tasks t).onRq = true) (ready : (s.tasks t).state = .ready)
    (kept : (f (s.tasks t)).onRq = (s.tasks t).onRq ∧ (f (s.tasks t)).cpuId = (s.tasks t).cpuId ∧
      (f (s.tasks t)).state = (s.tasks t).state ∧
      (f (s.tasks t)).rqPrev = (s.tasks t).rqPrev ∧ (f (s.tasks t)).rqNext = (s.tasks t).rqNext)
    (slot : schedLevelClamp (s.tasks t).schedLevel = 0 →
      p.rtPrioSlot (f (s.tasks t)).priority = p.rtPrioSlot (s.tasks t).priority)
    (inside : dst < p.nrCpus) :
    Inv p ((s.modify t f).schedRunqRequeue p t dst (s.tasks t).schedLevel) := by
  obtain ⟨keptOn, keptCpu, keptState, links⟩ := kept
  obtain ⟨rt, linked⟩ := inv.linked
  have written : Linked p (s.modify t f) (s.places p) rt := linked.modify fun _ => links
  have place : s.places p t = some (placeAt p (s.tasks t).cpuId
      (schedLevelClamp (s.tasks t).schedLevel) ((s.modify t f).tasks t).priority) := by
    rw [modify_self, places, place_of_onRq on]
    unfold placeAt
    split
    · next zero => rw [slot zero]
    · rfl
  have own : ((s.modify t f).tasks t).cpuId = (s.tasks t).cpuId := by rw [modify_self, keptCpu]
  have guard : ¬ (¬ ((s.modify t f).tasks t).onRq = true ∨ ((s.modify t f).tasks t).state ≠ .ready ∨
      p.nrCpus ≤ ((s.modify t f).tasks t).cpuId ∨ p.nrCpus ≤ dst) := by
    have := inv.cpus t on
    rw [modify_self, keptOn, keptState, keptCpu]
    simp only [on, ready, not_true, ne_eq, false_or, not_or, Nat.not_le]
    exact ⟨this, inside⟩
  unfold Sched.schedRunqRequeue
  rw [if_neg guard, own]
  -- out of the old list, which the new priority finds, and in at the new place
  obtain ⟨rt₁, out⟩ := written.retire place
  obtain ⟨next, prev, gone⟩ := (s.modify t f).retire_self p (s.tasks t).cpuId t
    (s.tasks t).schedLevel
  refine inv.comeBack place (out.countMove _ _) (fun u other => ?_) (fun c => ?_) inside
    (clamp_level _) ?_
  · rw [countMove_tasks]
    have same := SamePlace.links ((s.modify t f).retire_of_ne p (s.tasks t).cpuId
      (s.tasks t).schedLevel other)
    rw [modify_of_ne s other] at same
    exact same
  · rw [placeAt_cpu, countMove_nrRunning _ (by rw [retire_nrRunning]; exact inv.nrRunning_pos on)]
    simp only [moreRunning_nrRunning, lessRunning_nrRunning, retire_nrRunning]
    rfl
  · rw [countMove_tasks, gone]
    exact fun isRt => if_pos isRt

theorem Inv.procSchedSet (inv : Inv p s) (inside : here < p.nrCpus)
    {config : ProcSchedConfig} {policy : SchedPolicy} {priority : Int}
    (checked : s.schedSetCheck t config = some (policy, priority))
    (keeps : (s.tasks t).onRq = true →
      KeepsPlace p (s.tasks t) ((s.tasks t).configured p policy priority config)) :
    Inv p (s.procSchedSet p here t config).1 := by
  have kept := configured_kept p (s.tasks t) policy priority config
  obtain ⟨without, with_⟩ := configured_level p (s.tasks t) policy priority config
  have ⟨keptOn, keptCpu, keptState, links⟩ := kept
  let new := (s.tasks t).configured p policy priority config
  unfold Sched.procSchedSet
  rw [checked]
  dsimp only
  -- a real-time policy comes with level 0
  have rtLevel : (s.tasks t).onRq = true → new.policy.rt = true →
      schedLevelClamp new.schedLevel = 0 := by
    intro on isRt
    by_cases none_ : config.policy = none
    · obtain ⟨samePolicy, sameLevel⟩ := without none_
      rw [samePolicy] at isRt
      rw [sameLevel]
      exact inv.rtLevel t on isRt
    · obtain ⟨newPolicy, newLevel⟩ := with_ none_
      rw [newPolicy] at isRt
      rw [newLevel isRt]
      rfl
  by_cases on : (s.tasks t).onRq = true
  · obtain ⟨slot, level⟩ := keeps on
    have stay : (schedLevelClamp new.schedLevel = 0 ↔ schedLevelClamp (s.tasks t).schedLevel = 0) →
        Inv p (s.modify t fun task => task.configured p policy priority config) := by
      intro level
      refine inv.write (place_eq_of_keeps on keptOn keptCpu slot level) (fun _ => links) fun _ => ?_
      rw [keptCpu]
      exact ⟨rtLevel on, inv.cpus t on⟩
    by_cases ready : (s.tasks t).state = .ready
    · rw [if_pos ⟨on, ready⟩]
      split
      · refine inv.requeue on ready kept slot (targetCpu_lt inside ?_)
        rw [modify_self, keptCpu]
        exact inv.cpus t on
      · next same =>
        refine stay ?_
        have none_ : config.policy = none := by
          by_contra some_
          exact same (.inl (.inl (isSome_iff_ne_none.mpr some_)))
        rw [(without none_).2]
    · rw [if_neg fun h => ready h.2, if_neg fun h => h.2.2 on]
      exact stay (level ready)
  · have off : (s.tasks t).onRq = false := Bool.eq_false_iff.mpr on
    have written : Inv p (s.modify t fun task => task.configured p policy priority config) :=
      inv.modifyOff off (keptOn.trans off)
    rw [if_neg fun h => on h.1]
    split
    · dsimp only
      refine written.modifyOff ?_ ?_ <;> rw [modify_self, keptOn, off]
    · exact written

/-! ### Runs -/

/-- What others write into a task at any time, whether it is queued or not. -/
structure Outside where
  state : TaskState
  kstack : Bool
  cgroup : Option Nat
  cpusAllowed : BitVec 32
  cgThrottled : Bool
  cgCpuStart : Nat
  destroyStarted : Bool
  piBoostWeight : Nat
  refs : Nat

inductive SchedLabel where
  /-- The calls, on a processor `here`. -/
  | enqueue (here t : Nat)
  | remove (here t : Nat)
  | pick (cpu : Nat) (locked : List Nat)
  | unpick (t : Nat)
  | set (here t : Nat) (config : ProcSchedConfig)
  /-- Something else is written into a task. -/
  | touch (t : Nat) (change : Outside)
  /-- A task that is not queued is written: it is created, runs, is switched out or charged. -/
  | write (t : Nat) (task : SchedTask)
  | charge (cpu vtime : Nat)
  | machine (current : Nat → Option Nat) (online : BitVec 32) (effectiveCpus : Nat → BitVec 32)

def touched (task : SchedTask) (o : Outside) : SchedTask :=
  { task with
    state := o.state
    kstack := o.kstack
    cgroup := o.cgroup
    cpusAllowed := o.cpusAllowed
    cgThrottled := o.cgThrottled
    cgCpuStart := o.cgCpuStart
    destroyStarted := o.destroyStarted
    fair := { task.fair with piBoostWeight := o.piBoostWeight }
    refs := o.refs }

def step (p : SchedParams) (s : Sched) : SchedLabel → Option Sched
  | .enqueue here t => if here < p.nrCpus then some (s.procRunqEnqueue p here t).1 else none
  | .remove here t => if here < p.nrCpus then some (s.procRunqRemove p here t) else none
  | .pick cpu locked =>
      if cpu < p.nrCpus then (s.procRunqPickLocal p cpu locked).map Prod.fst else none
  | .unpick t => some (s.schedRunqUnpick p t)
  | .set here t config => if here < p.nrCpus then some (s.procSchedSet p here t config).1 else none
  | .touch t change => some (s.modify t fun task => touched task change)
  | .write t task =>
      if (s.tasks t).onRq ∨ task.onRq then none else some (s.modify t fun _ => task)
  | .charge cpu vtime =>
      some (s.modifyRunq cpu fun rq => { rq with fair := { rq.fair with vtime } })
  | .machine current online effectiveCpus => some { s with current, online, effectiveCpus }

/-- No task is queued. -/
structure Boot (s : Sched) : Prop where
  off : ∀ t, (s.tasks t).onRq = false
  empty : s.runqs = fun _ => {}

/-- A call that changes how a queued task is scheduled leaves it in its list, and at its level
if it is not ready. -/
def Keeps (p : SchedParams) (s : Sched) : SchedLabel → Prop
  | .set _ t config =>
      match s.schedSetCheck t config with
      | none => True
      | some (policy, priority) => (s.tasks t).onRq = true →
          KeepsPlace p (s.tasks t) ((s.tasks t).configured p policy priority config)
  | _ => True

instance (p : SchedParams) (s : Sched) (label : SchedLabel) : Decidable (s.Keeps p label) := by
  unfold Keeps
  split
  · split <;> infer_instance
  · infer_instance

theorem Boot.inv (boot : Boot s) : Inv p s := by
  have none_ : s.places p = fun _ => none := funext fun u => place_of_off (boot.off u)
  refine .of_fits ⟨fun _ _ => [], ?_⟩ (fun c => ?_) fun t on => ?_
  · rw [none_]
    refine ⟨fun c l => ?_, fun c l => ?_, fun c l some_ => absurd rfl some_, fun t c l => ?_,
      fun c => ?_, fun t c => ?_⟩
    · rw [boot.empty]
      exact dqueue_nil _ _
    · simp [boot.empty]
    · simp
    · rw [boot.empty]
      exact ⟨nodup_nil, fun t => (nomatch ·), fun t => (nomatch ·)⟩
    · simp [boot.empty, EevdfTree.inorder]
  · rw [none_, boot.empty]
    simp [queuedOn]
  · rw [boot.off] at on
    cases on

/-- What is in no task and in no queue does not matter. -/
theorem Inv.outside (inv : Inv p s) (tasks : s'.tasks = s.tasks)
    (queues : ∀ c, (s'.runqs c).nrRunning = (s.runqs c).nrRunning ∧
      (s'.runqs c).head = (s.runqs c).head ∧ (s'.runqs c).tail = (s.runqs c).tail ∧
      (s'.runqs c).bitmap = (s.runqs c).bitmap ∧
      (s'.runqs c).fair.root = (s.runqs c).fair.root ∧
      (s'.runqs c).fair.first = (s.runqs c).fair.first ∧
      (s'.runqs c).fair.last = (s.runqs c).fair.last) : Inv p s' := by
  obtain ⟨rt, linked⟩ := inv.linked
  refine inv.relinked (linked.frame (fun u _ => ?_) fun c => (queues c).2) (fun u => ?_)
    fun c => (queues c).1
  · rw [tasks]
    exact ⟨rfl, rfl⟩
  · rw [tasks]
    exact ⟨rfl, rfl, rfl, rfl, rfl⟩

theorem Inv.step (inv : Inv p s) {label : SchedLabel} (keeps : s.Keeps p label)
    (taken : s.step p label = some s') : Inv p s' := by
  cases label with
  | enqueue here t =>
    obtain ⟨inside, ⟨⟩⟩ := ite_none_right_eq_some.mp taken
    exact inv.procRunqEnqueue inside t
  | remove here t =>
    obtain ⟨-, ⟨⟩⟩ := ite_none_right_eq_some.mp taken
    exact inv.procRunqRemove here t
  | pick cpu locked =>
    obtain ⟨-, found⟩ := ite_none_right_eq_some.mp taken
    obtain ⟨s₁, picked, returned, inv₁⟩ := inv.procRunqPickLocal cpu locked
    rw [returned] at found
    cases found
    exact inv₁
  | unpick t =>
    cases taken
    exact inv.schedRunqUnpick t
  | set here t config =>
    obtain ⟨inside, ⟨⟩⟩ := ite_none_right_eq_some.mp taken
    cases checked : s.schedSetCheck t config with
    | none =>
      unfold Sched.procSchedSet
      rw [checked]
      exact inv
    | some pair =>
      obtain ⟨policy, priority⟩ := pair
      rw [Keeps, checked] at keeps
      exact inv.procSchedSet inside checked keeps
  | touch t change =>
    cases taken
    exact inv.modify ⟨rfl, rfl, rfl, rfl, rfl⟩ fun _ => ⟨rfl, rfl⟩
  | write t task =>
    rw [Sched.step] at taken
    split at taken
    · cases taken
    · next off =>
      rw [not_or, Bool.not_eq_true, Bool.not_eq_true] at off
      cases taken
      exact inv.modifyOff off.1 off.2
  | charge cpu vtime =>
    cases taken
    refine inv.outside rfl fun c => ?_
    by_cases here : c = cpu
    · subst here
      simp [modifyRunq]
    · simp [modifyRunq, here]
  | machine current online effectiveCpus =>
    cases taken
    exact inv.outside rfl fun c => ⟨rfl, rfl, rfl, rfl, rfl, rfl, rfl⟩

/-- **Where the queued tasks are.** In every run in which each `proc_sched_set` keeps the place
of the task it finds, a task is queued exactly in the list or the tree that its fields name: that
of its processor, and at level 0 of its priority. The lists are well formed, their bits tell
whether they are empty, the trees hold no task twice, and the counters are the numbers of the
queued tasks. A real-time task that is queued is in the list of its priority. -/
theorem run_membership (boot : Boot s) (run : RunsTo (step p) (Keeps p) s s') :
    ∃ rt : Nat → Nat → List Nat,
      (∀ cpu slot, DQueue (fun u => (s'.tasks u).rqPrev) (fun u => (s'.tasks u).rqNext)
        ((s'.runqs cpu).head slot) ((s'.runqs cpu).tail slot) (rt cpu slot)) ∧
      (∀ cpu slot, (s'.runqs cpu).bitmap slot = true ↔ rt cpu slot ≠ []) ∧
      (∀ cpu, (s'.runqs cpu).fair.root.inorder.Nodup) ∧
      (∀ t cpu slot, t ∈ rt cpu slot ↔ (s'.tasks t).place p = some (.rt cpu slot)) ∧
      (∀ t cpu, t ∈ (s'.runqs cpu).fair.root.inorder ↔
        (s'.tasks t).place p = some (.fair cpu)) ∧
      (∀ t, (s'.tasks t).onRq = true → (s'.tasks t).policy.rt = true →
        t ∈ rt (s'.tasks t).cpuId (p.rtPrioSlot (s'.tasks t).priority)) ∧
      (∀ t, (s'.tasks t).onRq = true → (s'.tasks t).cpuId < p.nrCpus) ∧
      ∀ cpu, {t | (s'.tasks t).onRq = true ∧ (s'.tasks t).cpuId = cpu}.encard =
        (s'.runqs cpu).nrRunning := by
  have inv : Inv p s' := run.invariant (fun inv keeps taken => Inv.step inv keeps taken) boot.inv
  obtain ⟨rt, linked⟩ := inv.linked
  refine ⟨rt, linked.queues, linked.bits, fun cpu => (linked.fairSound cpu).nodup,
    linked.rtMembers, linked.fairMembers, fun t on isRt => ?_, inv.cpus, fun cpu => ?_⟩
  · rw [linked.rtMembers, places, place_of_onRq on, placeAt, if_pos (inv.rtLevel t on isRt)]
  · rw [← inv.counted cpu]
    congr 1
    ext t
    constructor
    · rintro ⟨on, own⟩
      exact ⟨_, place_of_onRq on, (placeAt_cpu ..).trans own⟩
    · rintro ⟨place, at_, own⟩
      cases place with
      | rt c slot =>
        obtain ⟨on, same, -⟩ := places_eq_rt at_
        exact ⟨on, same.trans own⟩
      | fair c =>
        obtain ⟨on, same, -⟩ := places_eq_fair at_
        exact ⟨on, same.trans own⟩

/-- Two processors with idle tasks 0 and 1. -/
def twoCpus : SchedParams := ⟨2, 100, by decide, ⟨100, 100⟩, id⟩

/-- Two real-time tasks of priority 10 and normal ones, none queued. -/
def twoRealTime : Sched :=
  { tasks := fun t =>
      if t = 5 then { policy := .fifo, priority := 10 }
      else if t = 6 then { policy := .rr, priority := 10 } else {} }

theorem boot_twoRealTime : Boot twoRealTime where
  off t := by
    unfold twoRealTime
    dsimp only
    split
    · rfl
    · split <;> rfl
  empty := rfl

/-- Three tasks are queued, the nice value of one is changed, and the first is picked. -/
theorem run_membership_picked : ∃ s,
    execWhile (step twoCpus) (Keeps twoCpus) twoRealTime
      [.enqueue 0 5, .enqueue 0 6, .enqueue 0 7, .set 0 7 { nice := some 3 }, .pick 0 []] = some s ∧
      (s.tasks 5).dispatching = true ∧ (s.runqs 0).nrRunning = 2 ∧
      {t | (s.tasks t).onRq = true ∧ (s.tasks t).cpuId = 0}.encard = 2 := by
  obtain ⟨s, reached, picked, count⟩ : ∃ s,
      execWhile (step twoCpus) (Keeps twoCpus) twoRealTime
        [.enqueue 0 5, .enqueue 0 6, .enqueue 0 7, .set 0 7 { nice := some 3 }, .pick 0 []] =
          some s ∧ (s.tasks 5).dispatching = true ∧ (s.runqs 0).nrRunning = 2 :=
    ⟨_, rfl, by decide +kernel, by decide +kernel⟩
  obtain ⟨rt, -, -, -, -, -, -, -, counts⟩ :=
    run_membership boot_twoRealTime (execWhile_runsTo reached)
  refine ⟨s, reached, picked, count, ?_⟩
  rw [counts, count]
  rfl

/-- Without the condition a task comes to be in two lists: the only task of priority 10 is given
priority 20 while it is queued. -/
theorem run_membership_two_lists : ∃ s,
    exec (step twoCpus) twoRealTime [.enqueue 0 5, .set 0 5 { priority := some 20 }] = some s ∧
      (s.tasks 5).onRq = true ∧ (s.tasks 5).priority = 20 ∧ (s.runqs 0).nrRunning = 1 ∧
      (s.runqs 0).head 10 = some 5 ∧ (s.runqs 0).bitmap 10 = true ∧
      (s.runqs 0).head 20 = some 5 ∧ (s.runqs 0).bitmap 20 = true :=
  ⟨_, rfl, by decide +kernel, by decide +kernel, by decide +kernel, by decide +kernel,
    by decide +kernel, by decide +kernel, by decide +kernel⟩

end A20OS.Proc.Sched
