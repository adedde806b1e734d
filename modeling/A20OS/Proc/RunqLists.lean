import A20OS.Proc.EevdfPick
import A20OS.Proc.Runq
import Mathlib.Data.Set.Card

/-!
What the run queues hold.

`Linked s w rt` says that each task is linked at the place `w` gives it and nowhere else: the
real-time lists are `rt`, with their bits set, and the trees hold the other queued tasks.
`Counted s w` says that the counters agree. Taking a task out and putting one in are stated for any
places; whether these are the ones the fields name matters only to an operation that reads a
list's number from a priority.
-/

namespace A20OS.Proc

open Lib EevdfTree Function List Option

variable {level : Int} {xs : List Nat} {c l : Nat}

/-- Where a task is queued. -/
inductive Place where
  | rt (cpu slot : Nat)
  | fair (cpu : Nat)
deriving DecidableEq

def Place.cpu : Place → Nat
  | rt cpu _ => cpu
  | fair cpu => cpu

/-- The place that the fields of a task name. -/
def SchedTask.place (p : SchedParams) (task : SchedTask) : Option Place :=
  if task.onRq then
    some (if schedLevelClamp task.schedLevel = 0
      then .rt task.cpuId (p.rtPrioSlot task.priority) else .fair task.cpuId)
  else none

theorem SchedParams.rtPrioSlot_lt (p : SchedParams) (prio : Int) :
    p.rtPrioSlot prio < p.rtPriLevels := by
  have := p.levels_pos
  unfold rtPrioSlot
  split
  · omega
  · split <;> omega

/-! ### The fair queue -/

namespace EevdfTree

theorem mem_leftmost : ∀ {tree : EevdfTree} {t : Nat}, tree.leftmost = some t → t ∈ tree.inorder
  | node nil n r, t, found => by
      cases found
      exact .head _
  | node (node a y b) n r, t, found => mem_inorder_node.mpr (.inl (mem_leftmost found))

theorem mem_rightmost : ∀ {tree : EevdfTree} {t : Nat}, tree.rightmost = some t → t ∈ tree.inorder
  | node l n nil, t, found => by
      cases found
      exact mem_inorder_node.mpr (.inr (.inl rfl))
  | node l n (node a y b), t, found => mem_inorder_node.mpr (.inr (.inr (mem_rightmost found)))

theorem mem_pick {ts : EevdfTasks} {vtime : Nat} : ∀ {tree : EevdfTree} {t : Nat},
    tree.pick ts vtime = some t → t ∈ tree.inorder
  | node l n r, t, found => by
      rw [mem_inorder_node]
      rw [pick] at found
      split at found
      · exact .inl (mem_pick found)
      split at found
      · cases found
        exact .inr (.inl rfl)
      · split at found
        · exact .inr (.inr (mem_pick found))
        · cases found

end EevdfTree

namespace EevdfRunq

/-- The tree has no task twice, and the first and the last task are in it. -/
structure Sound (rq : EevdfRunq) : Prop where
  nodup : rq.root.inorder.Nodup
  first : ∀ t, rq.first = some t → t ∈ rq.root.inorder
  last : ∀ t, rq.last = some t → t ∈ rq.root.inorder

variable {rq rq' : EevdfRunq} {ts : EevdfTasks} {t : Nat}

theorem mem_pickEligible (picked : rq.pickEligible ts = some t) : t ∈ rq.root.inorder := by
  unfold pickEligible at picked
  split at picked
  · exact mem_pick picked
  · cases picked

theorem Sound.insert (sound : rq.Sound) (fresh : t ∉ rq.root.inorder) (cfg : EevdfConfig)
    (ts : EevdfTasks) (heapPrio : Nat) :
    (rq.insert cfg ts t heapPrio).1.Sound ∧
      ∀ u, u ∈ (rq.insert cfg ts t heapPrio).1.root.inorder ↔ u = t ∨ u ∈ rq.root.inorder := by
  have perm : (rq.insert cfg ts t heapPrio).1.root.inorder.Perm (t :: rq.root.inorder) :=
    perm_place ..
  have members : ∀ u, u ∈ (rq.insert cfg ts t heapPrio).1.root.inorder ↔
      u = t ∨ u ∈ rq.root.inorder := fun u => by rw [perm.mem_iff, mem_cons]
  refine ⟨⟨?_, fun u first => ?_, fun u last => ?_⟩, members⟩
  · exact perm.nodup_iff.mpr (nodup_cons.mpr ⟨fresh, sound.nodup⟩)
  · rw [members]
    rw [EevdfRunq.insert] at first
    split at first
    · exact .inl (some.inj first).symm
    · exact .inr (sound.first u first)
  · rw [members]
    rw [EevdfRunq.insert] at last
    dsimp only at last
    split at last
    · exact .inl (some.inj last).symm
    · exact .inr (sound.last u last)

theorem Sound.remove (sound : rq.Sound) (member : t ∈ rq.root.inorder) (ts : EevdfTasks) :
    ∃ rq', rq.remove ts t = some rq' ∧ rq'.Sound ∧
      ∀ u, u ∈ rq'.root.inorder ↔ u ≠ t ∧ u ∈ rq.root.inorder := by
  obtain ⟨found, at_⟩ := isSome_iff_exists.mp (find_isSome [] member)
  obtain ⟨rest, cut⟩ : ∃ rest, rq.cut ts t = some rest := ⟨_, by rw [cut, at_, map_some]⟩
  obtain ⟨before, behind, old, new⟩ := inorder_cut cut
  have nodup := sound.nodup
  rw [old] at nodup
  obtain ⟨absent, nodup⟩ := nodup_cons.mp (perm_middle.nodup_iff.mp nodup)
  have members : ∀ u, u ∈ (rest.1.plug rest.2).inorder ↔ u ≠ t ∧ u ∈ rq.root.inorder := by
    intro u
    rw [new, old, perm_middle.mem_iff, mem_cons]
    constructor
    · intro inside
      exact ⟨fun same => absent (same ▸ inside), .inr inside⟩
    · rintro ⟨other, inside⟩
      exact inside.resolve_left other
  refine ⟨_, by rw [EevdfRunq.remove, cut, map_some], ⟨?_, fun u first => ?_,
    fun u last => ?_⟩, members⟩
  · rw [new]
    exact nodup
  · split at first
    · exact mem_leftmost first
    · next other =>
      exact (members u).mpr ⟨fun same => other (same ▸ first), sound.first u first⟩
  · dsimp only at last
    split at last
    · exact mem_rightmost last
    · next other =>
      exact (members u).mpr ⟨fun same => other (same ▸ last), sound.last u last⟩

end EevdfRunq

namespace Sched

/-! ### Linked tasks -/

/-- Each task is linked at the place given for it and nowhere else. -/
structure Linked (p : SchedParams) (s : Sched) (w : Nat → Option Place)
    (rt : Nat → Nat → List Nat) : Prop where
  queues : ∀ cpu slot, DQueue (fun u => (s.tasks u).rqPrev) (fun u => (s.tasks u).rqNext)
    ((s.runqs cpu).head slot) ((s.runqs cpu).tail slot) (rt cpu slot)
  bits : ∀ cpu slot, (s.runqs cpu).bitmap slot = true ↔ rt cpu slot ≠ []
  slots : ∀ cpu slot, rt cpu slot ≠ [] → slot < p.rtPriLevels
  rtMembers : ∀ t cpu slot, t ∈ rt cpu slot ↔ w t = some (.rt cpu slot)
  fairSound : ∀ cpu, (s.runqs cpu).fair.Sound
  fairMembers : ∀ t cpu, t ∈ (s.runqs cpu).fair.root.inorder ↔ w t = some (.fair cpu)

/-- The tasks queued on a processor. -/
def queuedOn (w : Nat → Option Place) (cpu : Nat) : Set Nat :=
  {t | ∃ place, w t = some place ∧ place.cpu = cpu}

/-- The counters are the numbers of the tasks queued. -/
def Counted (s : Sched) (w : Nat → Option Place) : Prop :=
  ∀ cpu, (queuedOn w cpu).encard = (s.runqs cpu).nrRunning

/-- The lists with one of them replaced. -/
def setList (rt : Nat → Nat → List Nat) (cpu slot : Nat) (xs : List Nat) : Nat → Nat → List Nat :=
  fun c l => if c = cpu ∧ l = slot then xs else rt c l

variable {p : SchedParams} {s s' : Sched} {w : Nat → Option Place} {rt : Nat → Nat → List Nat}
  {cpu slot t : Nat}

theorem setList_self : setList rt cpu slot xs cpu slot = xs := if_pos ⟨rfl, rfl⟩

theorem setList_of_ne
    (other : ¬ (c = cpu ∧ l = slot)) : setList rt cpu slot xs c l = rt c l := if_neg other

theorem setList_setList (ys : List Nat) :
    setList (setList rt cpu slot xs) cpu slot ys = setList rt cpu slot ys := by
  funext c l
  by_cases this : c = cpu ∧ l = slot <;> simp [setList, this]

theorem setList_eq_self : setList rt cpu slot (rt cpu slot) = rt := by
  funext c l
  by_cases this : c = cpu ∧ l = slot
  · simp [setList, this]
  · simp [setList, this]

section
variable (linked : Linked p s w rt)
include linked

/-- Only the links of queued tasks and the queues matter. -/
theorem Linked.frame
    (links : ∀ u, w u ≠ none → (s'.tasks u).rqPrev = (s.tasks u).rqPrev ∧
      (s'.tasks u).rqNext = (s.tasks u).rqNext)
    (queues : ∀ cpu, (s'.runqs cpu).head = (s.runqs cpu).head ∧
      (s'.runqs cpu).tail = (s.runqs cpu).tail ∧ (s'.runqs cpu).bitmap = (s.runqs cpu).bitmap ∧
      (s'.runqs cpu).fair.root = (s.runqs cpu).fair.root ∧
      (s'.runqs cpu).fair.first = (s.runqs cpu).fair.first ∧
      (s'.runqs cpu).fair.last = (s.runqs cpu).fair.last) : Linked p s' w rt where
  queues c l := by
    rw [(queues c).1, (queues c).2.1]
    refine (linked.queues c l).frame fun u inside => links u ?_
    rw [(linked.rtMembers u c l).mp inside]
    exact some_ne_none _
  bits c l := by
    rw [(queues c).2.2.1]
    exact linked.bits c l
  slots := linked.slots
  rtMembers := linked.rtMembers
  fairSound c := by
    obtain ⟨-, -, -, root, first, last⟩ := queues c
    constructor
    · rw [root]
      exact (linked.fairSound c).nodup
    · rw [root, first]
      exact (linked.fairSound c).first
    · rw [root, last]
      exact (linked.fairSound c).last
  fairMembers u c := by
    rw [(queues c).2.2.2.1]
    exact linked.fairMembers u c

theorem Linked.head_eq_none : (s.runqs cpu).head slot = none ↔ rt cpu slot = [] := by
  rw [(linked.queues cpu slot).list.first, head?_eq_none_iff]

theorem Linked.eq_of_mem (here : t ∈ rt cpu slot) (there : t ∈ rt c l) : c = cpu ∧ l = slot := by
  have same := ((linked.rtMembers t cpu slot).mp here).symm.trans
    ((linked.rtMembers t c l).mp there)
  cases same
  exact ⟨rfl, rfl⟩

end

variable {place : Option Place}

/-- A task that enters or leaves one place changes nothing about the others. -/
theorem update_elsewhere {here : Place} (was : w t = none ∨ w t = some here)
    (is : place = none ∨ place = some here) (u : Nat) (there : Place) (other : there ≠ here) :
    update w t place u = some there ↔ w u = some there := by
  by_cases same : u = t
  · subst same
    rcases was with was | was <;> rcases is with is | is <;> simp [was, is, Ne.symm other]
  · rw [update_of_ne same]

section
variable (linked : Linked p s w rt)
include linked

/-- A task is linked in or taken out at a list: what has to be shown of that list. -/
theorem Linked.change (was : w t = none ∨ w t = some (.rt cpu slot))
    (is : place = none ∨ place = some (.rt cpu slot)) {head tail : Option Nat} {bit : Bool}
    (runqs : s'.runqs = update s.runqs cpu
      { s.runqs cpu with
        head := update (s.runqs cpu).head slot head
        tail := update (s.runqs cpu).tail slot tail
        bitmap := update (s.runqs cpu).bitmap slot bit })
    (queue : DQueue (fun u => (s'.tasks u).rqPrev) (fun u => (s'.tasks u).rqNext) head tail xs)
    (marked : bit = true ↔ xs ≠ []) (range : slot < p.rtPriLevels)
    (members : ∀ u, u ∈ xs ↔ update w t place u = some (.rt cpu slot))
    (links : ∀ u, u ≠ t → u ∉ rt cpu slot → (s'.tasks u).rqPrev = (s.tasks u).rqPrev ∧
      (s'.tasks u).rqNext = (s.tasks u).rqNext) :
    Linked p s' (update w t place) (setList rt cpu slot xs) := by
  have elsewhere := @update_elsewhere w t _ _ was is
  have fair : ∀ c, (s'.runqs c).fair = (s.runqs c).fair := by
    intro c
    by_cases there : c = cpu <;> simp [runqs, there]
  have others : ∀ c l, ¬ (c = cpu ∧ l = slot) → (s'.runqs c).head l = (s.runqs c).head l ∧
      (s'.runqs c).tail l = (s.runqs c).tail l ∧
      (s'.runqs c).bitmap l = (s.runqs c).bitmap l := by
    intro c l other
    by_cases there : c = cpu
    · have apart : l ≠ slot := fun same => other ⟨there, same⟩
      simp [runqs, there, apart]
    · simp [runqs, there]
  refine ⟨fun c l => ?_, fun c l => ?_, fun c l some_ => ?_, fun u c l => ?_, fun c => ?_,
    fun u c => ?_⟩
  · by_cases this : c = cpu ∧ l = slot
    · obtain ⟨rfl, rfl⟩ := this
      simpa [setList_self, runqs] using queue
    obtain ⟨head, tail, -⟩ := others c l this
    rw [setList_of_ne this, head, tail]
    refine (linked.queues c l).frame fun u inside => links u ?_ fun there => ?_
    · rintro rfl
      rw [linked.rtMembers] at inside
      rcases was with was | was
      · simp [was] at inside
      · rw [was] at inside
        cases inside
        exact this ⟨rfl, rfl⟩
    · exact this (linked.eq_of_mem there inside)
  · by_cases this : c = cpu ∧ l = slot
    · obtain ⟨rfl, rfl⟩ := this
      simpa [setList_self, runqs] using marked
    · rw [setList_of_ne this, (others c l this).2.2]
      exact linked.bits c l
  · by_cases this : c = cpu ∧ l = slot
    · rw [this.2]
      exact range
    · rw [setList_of_ne this] at some_
      exact linked.slots c l some_
  · by_cases this : c = cpu ∧ l = slot
    · obtain ⟨rfl, rfl⟩ := this
      rw [setList_self]
      exact members u
    · rw [setList_of_ne this, linked.rtMembers, elsewhere]
      simp only [ne_eq, Place.rt.injEq]
      exact this
  · rw [fair c]
    exact linked.fairSound c
  · rw [fair c, linked.fairMembers, elsewhere]
    simp

omit linked in
/-- A queue is replaced by one with the same counter. -/
theorem update_count (s : Sched) {rq : Runq} (same : rq.nrRunning = (s.runqs cpu).nrRunning)
    (c : Nat) : (update s.runqs cpu rq c).nrRunning = (s.runqs c).nrRunning := by
  by_cases there : c = cpu
  · rw [there, update_self, same]
  · rw [update_of_ne there]

/-- Unlinking a task, in whose list its priority finds it. -/
theorem Linked.rtUnlink (place : w t = some (.rt cpu slot))
    (own : p.rtPrioSlot (s.tasks t).priority = slot) :
    Linked p (s.rtUnlink p cpu t) (update w t none)
      (setList rt cpu slot ((rt cpu slot).erase t)) := by
  have member := (linked.rtMembers t cpu slot).mpr place
  have here := linked.queues cpu slot
  obtain ⟨xs, ys, split⟩ := append_of_mem member
  have nodup := here.list.nodup
  rw [split] at nodup here
  obtain ⟨absent, -⟩ := nodup_cons.mp (perm_middle.nodup_iff.mp nodup)
  have erased : (rt cpu slot).erase t = xs ++ ys := by
    rw [split, erase_append_right _ fun inside => absent (mem_append_left _ inside),
      erase_cons_head]
  have queue : DQueue (fun u => ((s.rtUnlink p cpu t).tasks u).rqPrev)
      (fun u => ((s.rtUnlink p cpu t).tasks u).rqNext) _ _ (xs ++ ys) :=
    here.remove (fun y inside => if_neg fun (same : y = t) => absent (same ▸ inside))
      (fun y inside => if_neg fun (same : y = t) => absent (same ▸ inside))
  subst own
  rw [erased]
  refine linked.change (.inr place) (.inl rfl) rfl queue ?_
    (linked.slots cpu _ (ne_nil_of_mem member)) (fun u => ?_) fun u other away => ?_
  · rw [queue.list.first, (linked.bits cpu _).mpr (ne_nil_of_mem member)]
    cases xs ++ ys <;> simp
  · by_cases same : u = t
    · subst same
      simp [absent]
    · rw [update_of_ne same, ← linked.rtMembers, split]
      simp [same]
  · -- the neighbours are in the list
    obtain ⟨before, behind⟩ := here.list.neighbours
    rw [split] at away
    constructor
    · refine (if_neg other).trans (if_neg fun next => away ?_)
      exact mem_append_right _
        (.tail _ (mem_of_mem_head? (behind.symm.trans next)))
    · refine (if_neg other).trans (if_neg fun prev => away ?_)
      exact mem_append_left _ (mem_of_getLast? (before.symm.trans prev))

/-- Linking a task in behind the others of its priority. -/
theorem Linked.rtEnqueue (free : w t = none) (own : p.rtPrioSlot (s.tasks t).priority = slot) :
    Linked p (s.rtEnqueue p cpu t) (update w t (some (.rt cpu slot)))
      (setList rt cpu slot (rt cpu slot ++ [t])) := by
  have absent : t ∉ rt cpu slot := by
    rw [linked.rtMembers, free]
    simp
  have here := linked.queues cpu slot
  have notLast : (s.runqs cpu).tail slot ≠ some t := by
    rw [here.last]
    exact fun last => absent (mem_of_getLast? last)
  have apart : ∀ y ∈ rt cpu slot, y ≠ t := fun y inside => ne_of_mem_of_not_mem inside absent
  subst own
  have next : ∀ u, ((s.rtEnqueue p cpu t).tasks u).rqNext =
      if (s.runqs cpu).tail (p.rtPrioSlot (s.tasks t).priority) = some u then some t
      else if u = t then none else (s.tasks u).rqNext := fun _ => rfl
  refine linked.change (.inl free) (.inr rfl) rfl
    (here.append absent (if_pos rfl) ?_ (fun y inside => if_neg (apart y inside))
      fun y inside => ?_)
    (by simp) (p.rtPrioSlot_lt _) (fun u => ?_) fun u other away => ⟨if_neg other, ?_⟩
  · rw [next, if_neg notLast, if_pos rfl]
  · rw [next, if_neg (apart y inside)]
  · by_cases same : u = t
    · subst same
      simp
    · rw [update_of_ne same, ← linked.rtMembers]
      simp [same]
  · rw [next, here.last, if_neg fun last => away (mem_of_getLast? last), if_neg other]

/-- A task enters or leaves a tree. -/
theorem Linked.changeFair (was : w t = none ∨ w t = some (.fair cpu))
    (is : place = none ∨ place = some (.fair cpu)) {rq : EevdfRunq}
    (runqs : s'.runqs = update s.runqs cpu { s.runqs cpu with fair := rq })
    (sound : rq.Sound)
    (members : ∀ u, u ∈ rq.root.inorder ↔ update w t place u = some (.fair cpu))
    (links : ∀ u, (s'.tasks u).rqPrev = (s.tasks u).rqPrev ∧
      (s'.tasks u).rqNext = (s.tasks u).rqNext) :
    Linked p s' (update w t place) rt := by
  have elsewhere := @update_elsewhere w t _ _ was is
  have lists : ∀ c, (s'.runqs c).head = (s.runqs c).head ∧ (s'.runqs c).tail = (s.runqs c).tail ∧
      (s'.runqs c).bitmap = (s.runqs c).bitmap := by
    intro c
    by_cases there : c = cpu
    · simp [runqs, there]
    · simp [runqs, there]
  refine ⟨fun c l => ?_, fun c l => ?_, linked.slots, fun u c l => ?_, fun c => ?_,
    fun u c => ?_⟩
  · rw [(lists c).1, (lists c).2.1]
    exact (linked.queues c l).frame fun u _ => links u
  · rw [(lists c).2.2]
    exact linked.bits c l
  · rw [linked.rtMembers, elsewhere]
    simp
  · by_cases here : c = cpu
    · simpa [runqs, here] using sound
    · simpa [runqs, here] using linked.fairSound c
  · by_cases here : c = cpu
    · simpa [runqs, here] using members u
    · rw [runqs, update_of_ne here, linked.fairMembers, elsewhere]
      simpa using here

theorem Linked.eevdfInsert (free : w t = none) (cpu : Nat) :
    Linked p (s.eevdfInsert p cpu t) (update w t (some (.fair cpu))) rt := by
  have absent : t ∉ (s.runqs cpu).fair.root.inorder := by
    rw [linked.fairMembers, free]
    simp
  obtain ⟨sound, members⟩ := (linked.fairSound cpu).insert absent p.eevdf s.fairTasks
    (eevdfHeapPrio s.rngSeq)
  refine linked.changeFair (.inl free) (.inr rfl) rfl sound (fun u => ?_) fun u => ?_
  · rw [members, linked.fairMembers]
    by_cases same : u = t <;> simp [same]
  · by_cases same : u = t
    · subst same
      simp [Sched.eevdfInsert]
    · simp [Sched.eevdfInsert, same]

theorem Linked.eevdfRemove (place : w t = some (.fair cpu)) :
    Linked p (s.eevdfRemove cpu t) (update w t none) rt := by
  have member := (linked.fairMembers t cpu).mpr place
  obtain ⟨rq, removed, sound, members⟩ := (linked.fairSound cpu).remove member s.fairTasks
  simp only [Sched.eevdfRemove, removed, getD_some]
  refine linked.changeFair (.inr place) (.inl rfl) rfl { sound with }
    (fun u => ?_) fun u => ⟨rfl, rfl⟩
  rw [members, linked.fairMembers]
  by_cases same : u = t <;> simp [same]

end

/-! ### Both levels -/

/-- The place at a level. -/
def placeAt (p : SchedParams) (cpu : Nat) (level : Int) (priority : Int) : Place :=
  if level = 0 then .rt cpu (p.rtPrioSlot priority) else .fair cpu

/-- A task is taken out at its place. -/
theorem Linked.dequeue (linked : Linked p s w rt)
    (place : w t = some (placeAt p cpu (schedLevelClamp level) (s.tasks t).priority)) :
    ∃ rt', Linked p (s.dequeue p cpu t level) (update w t none) rt' := by
  unfold Sched.dequeue
  unfold placeAt at place
  by_cases zero : schedLevelClamp level = 0
  · rw [if_pos zero] at place ⊢
    exact ⟨_, linked.rtUnlink place rfl⟩
  · rw [if_neg zero] at place ⊢
    exact ⟨rt, linked.eevdfRemove place⟩

@[simp] theorem modify_self (s : Sched) (t : Nat) (f : SchedTask → SchedTask) :
    (s.modify t f).tasks t = f (s.tasks t) := update_self ..

theorem modify_of_ne (s : Sched) {u : Nat} (other : u ≠ t) (f : SchedTask → SchedTask) :
    (s.modify t f).tasks u = s.tasks u := update_of_ne other ..

section
variable (linked : Linked p s w rt)
include linked

/-- Of a queued task only the links matter, of another one nothing. -/
theorem Linked.modify {f : SchedTask → SchedTask}
    (links : w t ≠ none → (f (s.tasks t)).rqPrev = (s.tasks t).rqPrev ∧
      (f (s.tasks t)).rqNext = (s.tasks t).rqNext) : Linked p (s.modify t f) w rt := by
  refine linked.frame (fun u queued => ?_) fun c => ⟨rfl, rfl, rfl, rfl, rfl, rfl⟩
  by_cases same : u = t
  · subst same
    rw [modify_self]
    exact links queued
  · rw [modify_of_ne s same]
    exact ⟨rfl, rfl⟩

theorem Linked.retire
    (place : w t = some (placeAt p cpu (schedLevelClamp level) (s.tasks t).priority)) :
    ∃ rt', Linked p (s.retire p cpu t level) (update w t none) rt' := by
  obtain ⟨rt', linked⟩ := linked.dequeue place
  exact ⟨rt', linked.modify fun _ => ⟨rfl, rfl⟩⟩

/-- A task is put in at level 0, behind the others of its priority. -/
theorem Linked.putOnRt (free : w t = none) (own : p.rtPrioSlot (s.tasks t).priority = slot) :
    Linked p (s.putOn p cpu t 0) (update w t (some (.rt cpu slot)))
      (setList rt cpu slot (rt cpu slot ++ [t])) := by
  have moved : Linked p (s.modify t fun task => { task with cpuId := cpu, schedLevel := 0 })
      w rt := linked.modify fun _ => ⟨rfl, rfl⟩
  exact (moved.rtEnqueue free (by rw [modify_self]; exact own)).modify fun _ => ⟨rfl, rfl⟩

/-- A task is put into the tree. -/
theorem Linked.putOnFair (free : w t = none) (cpu : Nat) (more : level ≠ 0) :
    Linked p (s.putOn p cpu t level) (update w t (some (.fair cpu))) rt := by
  have moved : Linked p (s.modify t fun task => { task with cpuId := cpu, schedLevel := level })
      w rt := linked.modify fun _ => ⟨rfl, rfl⟩
  unfold Sched.putOn Sched.link
  rw [if_neg more]
  exact (moved.eevdfInsert free cpu).modify fun _ => ⟨rfl, rfl⟩

/-- A task is put in at a free place. -/
theorem Linked.putOn (free : w t = none) (cpu : Nat) (level : Int) :
    ∃ rt', Linked p (s.putOn p cpu t level)
      (update w t (some (placeAt p cpu level (s.tasks t).priority))) rt' := by
  unfold placeAt
  by_cases zero : level = 0
  · rw [if_pos zero, zero]
    exact ⟨_, linked.putOnRt free rfl⟩
  · rw [if_neg zero]
    exact ⟨rt, linked.putOnFair free cpu zero⟩

theorem Linked.modifyRunq {f : Runq → Runq}
    (same : ∀ rq, (f rq).head = rq.head ∧ (f rq).tail = rq.tail ∧ (f rq).bitmap = rq.bitmap ∧
      (f rq).fair = rq.fair) : Linked p (s.modifyRunq cpu f) w rt := by
  refine linked.frame (fun u _ => ⟨rfl, rfl⟩) fun c => ?_
  by_cases here : c = cpu
  · subst here
    obtain ⟨head, tail, bitmap, fair⟩ := same (s.runqs c)
    simp [Sched.modifyRunq, head, tail, bitmap, fair]
  · simp [Sched.modifyRunq, here]

theorem Linked.moreRunning (cpu : Nat) :
    Linked p (s.moreRunning cpu) w rt := linked.modifyRunq fun _ => ⟨rfl, rfl, rfl, rfl⟩

theorem Linked.lessRunning (cpu : Nat) :
    Linked p (s.lessRunning cpu) w rt := linked.modifyRunq fun _ => ⟨rfl, rfl, rfl, rfl⟩

end

/-! ### The counters -/

theorem queuedOn_none : queuedOn (update w t none) cpu = queuedOn w cpu \ {t} := by
  ext u
  by_cases same : u = t <;> simp [queuedOn, same]

theorem queuedOn_some (w : Nat → Option Place) (t : Nat) (place : Place) (cpu : Nat)
    (free : w t = none) :
    queuedOn (update w t (some place)) cpu =
      if place.cpu = cpu then insert t (queuedOn w cpu) else queuedOn w cpu := by
  ext u
  by_cases there : place.cpu = cpu
  · by_cases same : u = t <;> simp [queuedOn, same, there]
  · by_cases same : u = t
    · subst same
      simp [queuedOn, there, free]
    · simp [queuedOn, same, there]

/-- One task less at its processor. -/
theorem Counted.less (counted : Counted s w) {place : Place} (was : w t = some place)
    (here : place.cpu = cpu) (less : ∀ c, (s'.runqs c).nrRunning =
      if c = cpu then (s.runqs c).nrRunning - 1 else (s.runqs c).nrRunning) :
    Counted s' (update w t none) := by
  intro c
  rw [queuedOn_none]
  by_cases same : c = cpu
  · subst same
    have member : t ∈ queuedOn w c := ⟨place, was, here⟩
    have finite : (queuedOn w c \ {t}).Finite :=
      (Set.finite_of_encard_eq_coe (counted c)).subset Set.sdiff_subset
    have count := counted c
    rw [← Set.encard_sdiff_singleton_add_one member, ← finite.cast_ncard_eq] at count
    rw [less, if_pos rfl, ← finite.cast_ncard_eq]
    norm_cast at count ⊢
    omega
  · rw [less, if_neg same, ← counted c]
    congr 1
    refine Set.sdiff_singleton_eq_self ?_
    rintro ⟨place', was', there⟩
    rw [was] at was'
    cases was'
    exact same (there.symm.trans here)

/-- One task more at its processor. -/
theorem Counted.more (counted : Counted s w) {place : Place} (free : w t = none)
    (here : place.cpu = cpu) (more : ∀ c, (s'.runqs c).nrRunning =
      if c = cpu then (s.runqs c).nrRunning + 1 else (s.runqs c).nrRunning) :
    Counted s' (update w t (some place)) := by
  intro c
  rw [queuedOn_some w t place c free, more]
  by_cases same : c = cpu
  · subst same
    have absent : t ∉ queuedOn w c := by
      rintro ⟨place', was, -⟩
      rw [free] at was
      cases was
    rw [if_pos here, if_pos rfl, Set.encard_insert_of_notMem absent, counted c]
    rfl
  · rw [if_neg fun there => same (there.symm.trans here), if_neg same]
    exact counted c

/-! ### The candidates of the pick -/

theorem rtScan_spec {rq : Runq} (sound : ∀ l, rq.bitmap l = true → rq.head l ≠ none) (n : Nat) :
    (rtScan rq n = (rq, none) ∧ ∀ l < n, rq.bitmap l = false) ∨
    ∃ l x, l < n ∧ rq.bitmap l = true ∧ rq.head l = some x ∧ rtScan rq n = (rq, some (l, x)) ∧
      ∀ m, l < m → m < n → rq.bitmap m = false := by
  induction n with
  | zero => exact .inl ⟨rfl, nofun⟩
  | succ n ih =>
    rw [rtScan]
    by_cases set : rq.bitmap n = true
    · obtain ⟨x, head⟩ := ne_none_iff_exists'.mp (sound n set)
      rw [if_pos set, head]
      exact .inr ⟨n, x, Nat.lt_succ_self n, set, head, rfl, by omega⟩
    rw [if_neg set]
    have clear : rq.bitmap n = false := Bool.eq_false_iff.mpr set
    rcases ih with ⟨scanned, empty⟩ | ⟨l, x, below, bit, head, scanned, above⟩
    · refine .inl ⟨scanned, fun l below => ?_⟩
      rcases Nat.lt_succ_iff_lt_or_eq.mp below with below | rfl
      · exact empty l below
      · exact clear
    · refine .inr ⟨l, x, Nat.lt_succ_of_lt below, bit, head, scanned, fun m more less => ?_⟩
      rcases Nat.lt_succ_iff_lt_or_eq.mp less with less | rfl
      · exact above m more less
      · exact clear

/-- The first task of a list goes to its end. -/
theorem Linked.rotate (linked : Linked p s w rt) {x : Nat}
    (list : rt cpu slot = x :: xs) (own : p.rtPrioSlot (s.tasks x).priority = slot) :
    Linked p ((s.rtUnlink p cpu x).rtEnqueue p cpu x) w (setList rt cpu slot (xs ++ [x])) := by
  have place := (linked.rtMembers x cpu slot).mp (list ▸ .head _)
  have out := linked.rtUnlink place own
  have back : Linked p ((s.rtUnlink p cpu x).rtEnqueue p cpu x)
      (update (update w x none) x (some (.rt cpu slot))) _ :=
    out.rtEnqueue (update_self ..) own
  rw [setList_self, list, erase_cons_head, update_idem, ← place,
    update_eq_self, setList_setList] at back
  exact back

/-- The real-time list that the pick takes, when its first task is `x`. -/
def rotated (s : Sched) (x : Nat) (xs : List Nat) : List Nat :=
  if (s.tasks x).policy = .rr ∧ xs ≠ [] then xs ++ [x] else x :: xs

/-- The fields of the tasks other than their links, and the counters, are as they were. -/
structure Relinked (s s' : Sched) : Prop where
  tasks : ∀ u, ∃ next prev, s'.tasks u = { s.tasks u with rqNext := next, rqPrev := prev }
  counts : ∀ c, (s'.runqs c).nrRunning = (s.runqs c).nrRunning
  current : s'.current = s.current

theorem Relinked.refl (s : Sched) : Relinked s s := ⟨fun _ => ⟨_, _, rfl⟩, fun _ => rfl, rfl⟩

/-- Which list the scan of the bitmap finds. -/
theorem Linked.rtScan (linked : Linked p s w rt) (cpu : Nat) :
    (rtScan (s.runqs cpu) (32 * ((p.rtPriLevels + 31) / 32)) = (s.runqs cpu, none) ∧
      ∀ l, rt cpu l = []) ∨
    ∃ l x xs, rt cpu l = x :: xs ∧ (∀ m, l < m → rt cpu m = []) ∧
      rtScan (s.runqs cpu) (32 * ((p.rtPriLevels + 31) / 32)) =
        (s.runqs cpu, some (l, x)) := by
  have sound : ∀ l, (s.runqs cpu).bitmap l = true → (s.runqs cpu).head l ≠ none := by
    intro l bit none_
    exact (linked.bits cpu l).mp bit (linked.head_eq_none.mp none_)
  -- the words have a bit for every list
  have empty : ∀ l, (l < 32 * ((p.rtPriLevels + 31) / 32) → (s.runqs cpu).bitmap l = false) →
      rt cpu l = [] := by
    intro l clear
    by_contra some_
    have := linked.slots cpu l some_
    rw [(linked.bits cpu l).mpr some_] at clear
    exact absurd (clear (by omega)) (by decide)
  rcases rtScan_spec sound (32 * ((p.rtPriLevels + 31) / 32)) with
    ⟨scanned, clear⟩ | ⟨l, x, -, bit, head, scanned, above⟩
  · exact .inl ⟨scanned, fun l => empty l (clear l)⟩
  · have first := head.symm.trans (linked.queues cpu l).list.first
    obtain ⟨xs, list⟩ : ∃ xs, rt cpu l = x :: xs := head?_eq_some_iff.mp first.symm
    exact .inr ⟨l, x, xs, list, fun m more => empty m (above m more), scanned⟩

/-- The first real-time task, in the highest list that has one; a round-robin task with
others behind it goes to the end before. -/
theorem Linked.rtPickBest (linked : Linked p s w rt)
    (own : ∀ u l, u ∈ rt cpu l → p.rtPrioSlot (s.tasks u).priority = l) :
    (s.rtPickBest p cpu = (s, none) ∧ ∀ l, rt cpu l = []) ∨
    ∃ l x xs s' y, rt cpu l = x :: xs ∧ (∀ m, l < m → rt cpu m = []) ∧
      s.rtPickBest p cpu = (s', some y) ∧ (s.rotated x xs).head? = some y ∧ Relinked s s' ∧
      Linked p s' w (setList rt cpu l (s.rotated x xs)) := by
  have same : { s with runqs := update s.runqs cpu (s.runqs cpu) } = s := by
    rw [update_eq_self]
  unfold Sched.rtPickBest
  rcases linked.rtScan cpu with ⟨scanned, empty⟩ | ⟨l, x, xs, list, highest, scanned⟩
  · left
    simp only [scanned, same, true_and]
    exact empty
  right
  have here : DList (fun u => (s.tasks u).rqPrev) (fun u => (s.tasks u).rqNext) _
      ([] ++ x :: xs) := list ▸ (linked.queues cpu l).list
  have next : (s.tasks x).rqNext = xs.head? := here.neighbours.2
  simp only [scanned, same]
  refine ⟨l, x, xs, ?_⟩
  by_cases turn : (s.tasks x).policy = .rr ∧ xs ≠ []
  · have back := linked.rotate list (own x l (list ▸ .head _))
    obtain ⟨y, ys, more⟩ := exists_cons_of_ne_nil turn.2
    rw [if_pos ⟨turn.1, by rw [next, more]; exact some_ne_none y⟩, rotated, if_pos turn]
    refine ⟨(s.rtUnlink p cpu x).rtEnqueue p cpu x, y, list, highest, ?_, by rw [more]; rfl,
      ⟨fun u => ⟨_, _, rfl⟩, fun c => ?_, rfl⟩, back⟩
    · have now := (back.queues cpu l).list.first
      rw [setList_self, more] at now
      rw [now]
      rfl
    · have out : ((s.rtUnlink p cpu x).runqs c).nrRunning = _ := update_count s (by rfl) c
      exact (update_count (s.rtUnlink p cpu x) (by rfl) c).trans out
  · have stays : ¬ ((s.tasks x).policy = .rr ∧ (s.tasks x).rqNext ≠ none) := by
      rw [next]
      exact fun h => turn ⟨h.1, fun none_ => h.2 (head?_eq_none_iff.mpr none_)⟩
    rw [if_neg stays, rotated, if_neg turn, ← list, setList_eq_self]
    exact ⟨s, x, rfl, highest, rfl, by rw [list]; rfl, .refl s, linked⟩

end Sched

end A20OS.Proc
