import A20OS.Proc.WaitTimer
import Mathlib.Data.List.Count
import Mathlib.Order.Bounds.Basic

/-!
Runs of the wait-timer heap.

Tasks register and cancel timers and the timer interrupt expires them, while references to the
tasks are taken and dropped elsewhere. Beside those of others, a task has a reference for its entry
in the heap and one for each place in which it stands on the list of the expired (`Inv`). Expiring
takes entries from the root until it is not due (`collect_spec`), in batches (`expireLoop_spec`).
-/

namespace A20OS.Proc.TimerHeap

open Lib Lib.BinaryHeap List Function

namespace WaitTimers

/-- The references of a task that the timer heap accounts for. -/
def held (s : WaitTimers) (hand : List Nat) (t : Nat) : Nat :=
  (if 0 ≤ s.index t then 1 else 0) + hand.count t

/-- The heap is in order, and the references of every task are those of others, of its
entry, and of the expired timers in hand, whose tasks have no entry. -/
structure Inv (max : Nat) (others : Nat → Nat) (s : WaitTimers) (hand : List Nat) : Prop where
  ok : HeapOk s
  capacity : s.count ≤ max
  refs : ∀ t, (s.tasks t).refs = others t + s.held hand t
  apart : ∀ t ∈ hand, t ≠ 0 ∧ s.index t = -1
  sound : s.underflow = false

variable {max : Nat} {others : Nat → Nat} {s s' : WaitTimers} {hand hand' : List Nat} {t t' : Nat}

/-- The heap and the positions of the tasks are the same in two states. -/
structure SameHeap (s s' : WaitTimers) : Prop where
  heap : s'.heap = s.heap
  count : s'.count = s.count
  scan : s'.nextWakeScan = s.nextWakeScan
  index : ∀ t, s'.index t = s.index t

theorem SameHeap.refl (s : WaitTimers) : SameHeap s s := ⟨rfl, rfl, rfl, fun _ => rfl⟩

theorem SameHeap.trans {s'' : WaitTimers} (first : SameHeap s s') (second : SameHeap s' s'') :
    SameHeap s s'' :=
  ⟨second.heap.trans first.heap, second.count.trans first.count, second.scan.trans first.scan,
    fun t => (second.index t).trans (first.index t)⟩

theorem SameHeap.has (same : SameHeap s s') (e : WaitTimer) : s'.Has e ↔ s.Has e := by
  unfold Has
  rw [same.heap, same.count]

theorem SameHeap.ok (same : SameHeap s s') (ok : HeapOk s) : HeapOk s' := by
  have key : s'.key = s.key := by
    funext i
    rw [WaitTimers.key, same.heap]
    rfl
  refine ⟨?_, ⟨?_, ?_⟩, ?_, ?_⟩
  · rw [key, same.count]
    exact ok.ordered
  · intro i below
    rw [same.index, same.heap]
    exact ok.indexed.back i (same.count ▸ below)
  · intro t away
    rw [same.index]
    exact ok.indexed.absent t fun e has => away e ((same.has e).mpr has)
  · intro e has
    exact ok.valid ((same.has e).mp has)
  · rw [same.scan, same.count, key]
    exact ok.scan

theorem sameHeap_setTask (s : WaitTimers) (t : Nat) {f : TimerTask → TimerTask}
    (kept : ∀ task, (f task).waitTimerIndex = task.waitTimerIndex) :
    SameHeap s (s.setTask t f) := by
  refine ⟨rfl, rfl, rfl, fun t' => ?_⟩
  unfold index setTask
  by_cases same : t' = t
  · subst same
    simp [kept]
  · simp [same]

theorem refs_setTask (f : TimerTask → TimerTask) :
    ((s.setTask t f).tasks t').refs =
      if t' = t then (f (s.tasks t)).refs else (s.tasks t').refs := by
  unfold setTask
  by_cases same : t' = t
  · subst same
    simp
  · simp [same]

/-- A change of the references that others or the hand account for. -/
theorem Inv.recount {others' : Nat → Nat} (inv : Inv max others s hand)
    (same : SameHeap s s') (listed : ∀ t ∈ hand', t ∈ hand)
    (refs : ∀ t, (s'.tasks t).refs + (others t + hand.count t) =
      (s.tasks t).refs + (others' t + hand'.count t))
    (sound : s'.underflow = s.underflow) : Inv max others' s' hand' := by
  refine ⟨same.ok inv.ok, same.count ▸ inv.capacity, fun t => ?_, fun t member => ?_,
    sound.trans inv.sound⟩
  · have before := inv.refs t
    have := refs t
    unfold held at before ⊢
    rw [same.index]
    omega
  · rw [same.index]
    exact inv.apart t (listed t member)

/-- A change that concerns neither the heap nor the references. -/
theorem Inv.same (inv : Inv max others s hand) (same : SameHeap s s')
    (refs : ∀ t, (s'.tasks t).refs = (s.tasks t).refs) (sound : s'.underflow = s.underflow) :
    Inv max others s' hand :=
  inv.recount same (fun _ => id) (fun t => by rw [refs]) sound

/-! ### References -/

theorem sameHeap_procPut : SameHeap s (s.procPut t) := by
  unfold procPut
  split
  · exact .refl s
  · split
    · exact ⟨rfl, rfl, rfl, fun _ => rfl⟩
    · exact sameHeap_setTask s t fun _ => rfl

theorem procPut_eq (nonzero : t ≠ 0) (some_ : (s.tasks t).refs ≠ 0) :
    s.procPut t = s.setTask t fun task => { task with refs := task.refs - 1 } := by
  rw [procPut, if_neg nonzero, if_neg some_]

theorem Inv.procPut (inv : Inv max others s (t :: hand)) : Inv max others (s.procPut t) hand := by
  have some_ : (s.tasks t).refs ≠ 0 := by
    have counted := inv.refs t
    unfold held at counted
    rw [count_cons_self] at counted
    omega
  rw [procPut_eq (inv.apart t (.head _)).1 some_]
  refine inv.recount (sameHeap_setTask s t fun _ => rfl) (fun _ => .tail _) (fun t' => ?_) rfl
  rw [refs_setTask]
  by_cases here : t' = t
  · subst here
    rw [if_pos rfl, count_cons_self]
    dsimp only
    omega
  · rw [if_neg here, count_cons_of_ne (Ne.symm here)]

/-! ### Taking an entry out -/

/-- The entry at a position passes from the heap into the hand. -/
theorem Inv.removeIndex (inv : Inv max others s hand) {i : Nat} (below : i < s.count) :
    (s.removeIndex i).1 = s.heap i ∧ Removed s (s.removeIndex i).2 (s.heap i) ∧
      Inv max others (s.removeIndex i).2 ((s.heap i).task :: hand) := by
  obtain ⟨entry, removed⟩ := removeIndex_spec inv.ok below
  refine ⟨entry, removed, ?_⟩
  generalize (s.removeIndex i).2 = s' at removed
  have present : s.Has (s.heap i) := ⟨i, below, rfl⟩
  have only : ∀ e, s.Has e → e.task = (s.heap i).task → e = s.heap i := by
    rintro e ⟨j, jbelow, rfl⟩ same
    rw [inv.ok.indexed.eq_of_task jbelow below same]
  have gone : s'.index (s.heap i).task = -1 := by
    refine removed.ok.indexed.absent _ fun e has same => ?_
    obtain ⟨has, other⟩ := (removed.has e).mp has
    exact other (only e has same)
  have kept : ∀ t, t ≠ (s.heap i).task → (0 ≤ s'.index t ↔ 0 ≤ s.index t) := by
    intro t other
    rw [removed.ok.indexed.present_iff, inv.ok.indexed.present_iff]
    constructor
    · rintro ⟨e, has, rfl⟩
      exact ⟨e, ((removed.has e).mp has).1, rfl⟩
    · rintro ⟨e, has, rfl⟩
      exact ⟨e, (removed.has e).mpr ⟨has, fun same => other (by rw [same])⟩, rfl⟩
  have count := removed.count
  have capacity := inv.capacity
  refine ⟨removed.ok, by omega, fun t => ?_, fun t member => ?_,
    removed.framed.underflow.trans inv.sound⟩
  · rw [removed.framed.refs, inv.refs]
    unfold held
    by_cases here : t = (s.heap i).task
    · rw [here, gone, count_cons_self, inv.ok.indexed.back i below]
      simp
      omega
    · rw [count_cons_of_ne (Ne.symm here)]
      simp only [kept t here]
  · rcases mem_cons.mp member with rfl | member
    · exact ⟨(inv.ok.valid present).1, gone⟩
    · refine ⟨(inv.apart t member).1, removed.ok.indexed.absent t fun e has same => ?_⟩
      have absent := (inv.apart t member).2
      have := (inv.ok.indexed.present_iff t).mpr ⟨e, ((removed.has e).mp has).1, same⟩
      omega

theorem Inv.perm (inv : Inv max others s hand) (perm : hand.Perm hand') : Inv max others s hand' :=
  inv.recount (.refl s) (fun _ => perm.mem_iff.mpr) (fun t => by rw [perm.count_eq]) rfl

/-! ### Expiry -/

/-- What one batch takes out of the heap. -/
structure Collected (now : Nat) (s s' : WaitTimers) (expired expired' : List (Nat × Nat)) :
    Prop where
  kept : ∀ e, s'.Has e → s.Has e
  due : ∀ e, s.Has e → s'.Has e ∨ e.deadline ≤ now
  done : expired'.length < 128 → ∀ e, s'.Has e → now < e.deadline
  count : s'.count + expired'.length = s.count + expired.length
  bound : expired.length ≤ 128 → expired'.length ≤ 128

/-- A batch takes out due entries only, and all of them unless it is full. -/
theorem collect_spec (now fuel : Nat) : ∀ {s : WaitTimers} (expired : List (Nat × Nat)),
    s.count ≤ fuel → Inv max others s (expired.map Prod.fst) →
    Inv max others (collect now fuel s expired).1 ((collect now fuel s expired).2.map Prod.fst) ∧
      Collected now s (collect now fuel s expired).1 expired (collect now fuel s expired).2 := by
  induction fuel with
  | zero =>
    intro s expired enough inv
    refine ⟨inv, fun _ has => has, fun _ has => .inl has, fun _ e has => ?_, rfl, id⟩
    obtain ⟨i, below, -⟩ : s.Has e := has
    omega
  | succ fuel ih =>
    intro s expired enough inv
    rw [collect]
    by_cases go : s.count ≠ 0 ∧ (s.heap 0).deadline ≤ now ∧ expired.length < 128
    · rw [if_pos go]
      have root : 0 < s.count := Nat.pos_of_ne_zero go.1
      obtain ⟨entry, removed, inv'⟩ := inv.removeIndex root
      rw [entry, if_pos (inv.ok.valid ⟨0, root, rfl⟩)]
      generalize (s.removeIndex 0).2 = s₁ at removed inv'
      have count := removed.count
      have inv₁ : Inv max others s₁
          ((expired ++ [((s.heap 0).task, (s.heap 0).waitSeq)]).map Prod.fst) := by
        refine inv'.perm ?_
        rw [map_append, map_singleton]
        exact (perm_append_singleton _ _).symm
      obtain ⟨inv₂, collected⟩ := ih _ (by omega) inv₁
      refine ⟨inv₂, fun e has => ((removed.has e).mp (collected.kept e has)).1, fun e has => ?_,
        collected.done, ?_, fun _ => collected.bound ?_⟩
      · by_cases first : e = s.heap 0
        · exact .inr (first ▸ go.2.1)
        · exact collected.due e ((removed.has e).mpr ⟨has, first⟩)
      · rw [collected.count, length_append, length_singleton]
        omega
      · rw [length_append, length_singleton]
        exact go.2.2
    · rw [if_neg go]
      refine ⟨inv, fun _ has => has, fun _ has => .inl has, fun short e has => ?_, rfl, id⟩
      obtain ⟨i, below, rfl⟩ : s.Has e := has
      -- The root is not due, so no entry is.
      have root : now < s.key 0 := by
        refine not_le.mp fun due => go ⟨by omega, due, short⟩
      exact root.trans_le (inv.ok.ordered.root_le below)

/-- Waking the task of an expired timer drops the timer's reference and leaves the heap. -/
theorem wakeExpired_spec (seq : Nat) (inv : Inv max others s (t :: hand)) :
    Inv max others (s.wakeExpired (t, seq)) hand ∧ SameHeap s (s.wakeExpired (t, seq)) := by
  have absent : s.index t = -1 := (inv.apart t (.head _)).2
  -- The entry is gone, so the wake has nothing to cancel.
  have noCancel : s.procWaitTimerCancel t seq = s := by
    refine if_pos (.inr ?_)
    change s.index t < 0
    omega
  unfold wakeExpired
  dsimp only
  rw [noCancel, ite_self]
  generalize (s.tasks t).timeout seq = result
  set s₁ := s.setTask t fun task =>
    { task with park := result.1, wakeTime := if result.2 = true then 0 else task.wakeTime }
    with s₁_eq
  have same₁ : SameHeap s s₁ := sameHeap_setTask s t fun _ => rfl
  have inv₁ : Inv max others s₁ (t :: hand) := by
    refine inv.same same₁ (fun t' => ?_) rfl
    rw [s₁_eq, refs_setTask]
    split
    · next here => rw [here]
    · rfl
  split
  · have same₂ : SameHeap s₁ { s₁ with staleExpirations := s₁.staleExpirations + 1 } :=
      ⟨rfl, rfl, rfl, fun _ => rfl⟩
    exact ⟨(inv₁.same same₂ (fun _ => rfl) rfl).procPut,
      (same₁.trans same₂).trans sameHeap_procPut⟩
  · exact ⟨inv₁.procPut, same₁.trans sameHeap_procPut⟩

theorem foldl_wakeExpired_spec : ∀ {s : WaitTimers} {expired : List (Nat × Nat)},
    Inv max others s (expired.map Prod.fst) →
    Inv max others (expired.foldl wakeExpired s) [] ∧ SameHeap s (expired.foldl wakeExpired s)
  | s, [], inv => ⟨inv, .refl s⟩
  | s, (t, seq) :: expired, inv => by
      obtain ⟨inv₁, same₁⟩ := wakeExpired_spec seq inv
      obtain ⟨inv₂, same₂⟩ := foldl_wakeExpired_spec inv₁
      exact ⟨inv₂, same₁.trans same₂⟩

/-- The batches together take out exactly the due entries. -/
theorem expireLoop_spec (now fuel : Nat) : ∀ {s : WaitTimers}, s.count < fuel →
    Inv max others s [] → Inv max others (expireLoop now fuel s) [] ∧
      ∀ e, (expireLoop now fuel s).Has e ↔ s.Has e ∧ now < e.deadline := by
  induction fuel with
  | zero =>
    intro s enough _
    exact absurd enough (Nat.not_lt_zero _)
  | succ fuel ih =>
    intro s enough inv
    rw [expireLoop]
    obtain ⟨inv₁, collected⟩ := collect_spec now s.count [] le_rfl inv
    generalize collect now s.count s [] = batch at inv₁ collected
    obtain ⟨s₁, expired⟩ := batch
    obtain ⟨inv₂, same⟩ := foldl_wakeExpired_spec inv₁
    generalize expired.foldl wakeExpired s₁ = s₂ at inv₂ same
    have count : s₁.count + expired.length = s.count := collected.count
    by_cases full : expired.length = 128
    · rw [if_pos full]
      obtain ⟨inv₃, has⟩ := ih (by rw [same.count]; change s₁.count < fuel; omega) inv₂
      refine ⟨inv₃, fun e => (has e).trans ?_⟩
      rw [same.has]
      constructor
      · rintro ⟨present, later⟩
        exact ⟨collected.kept e present, later⟩
      · rintro ⟨present, later⟩
        exact ⟨(collected.due e present).resolve_right (not_le.mpr later), later⟩
    · rw [if_neg full]
      refine ⟨inv₂, fun e => (same.has e).trans ?_⟩
      constructor
      · intro present
        have bound : expired.length ≤ 128 := collected.bound (Nat.zero_le _)
        exact ⟨collected.kept e present, collected.done (Nat.lt_of_le_of_ne bound full) e present⟩
      · rintro ⟨present, later⟩
        exact (collected.due e present).resolve_right (not_le.mpr later)

/-! ### Registering and cancelling -/

/-- A task that has an entry holds a reference to drop. -/
theorem procWaitTimerCancel_cases (inv : Inv max others s []) (t waitSeq : Nat) :
    s.procWaitTimerCancel t waitSeq = s ∨
    ∃ e, s.Has e ∧ e.task = t ∧ e.waitSeq = waitSeq ∧
      Inv max others (s.procWaitTimerCancel t waitSeq) [] ∧
      ∀ x, (s.procWaitTimerCancel t waitSeq).Has x ↔ s.Has x ∧ x ≠ e := by
  unfold procWaitTimerCancel
  by_cases none_ : t = 0 ∨ (s.tasks t).waitTimerIndex < 0
  · rw [if_pos none_]
    exact .inl rfl
  rw [if_neg none_]
  generalize (s.tasks t).waitTimerIndex.toNat = i
  by_cases other : i ≥ s.count ∨ (s.heap i).task ≠ t ∨ (s.heap i).waitSeq ≠ waitSeq
  · rw [if_pos other]
    exact .inl rfl
  rw [if_neg other]
  simp only [not_or, not_le, not_not] at other
  obtain ⟨below, rfl, rfl⟩ := other
  obtain ⟨entry, removed, inv'⟩ := inv.removeIndex below
  rw [entry]
  generalize (s.removeIndex i).2 = s₁ at removed inv'
  have same := s₁.sameHeap_setTask (s.heap i).task
    (f := fun task => { task with wakeTime := 0 }) fun _ => rfl
  have inv₁ := inv'.same same (fun t' => by rw [refs_setTask]; split <;> simp_all) rfl
  refine .inr ⟨s.heap i, ⟨i, below, rfl⟩, rfl, rfl, inv₁.procPut, fun x => ?_⟩
  rw [sameHeap_procPut.has, same.has, removed.has]

theorem index_place (deadline waitSeq : Nat) :
    (s.place t deadline waitSeq).index t' = if t' = t then (s.count : Int) else s.index t' := by
  unfold index place setTask
  by_cases same : t' = t
  · subst same
    simp
  · simp [same]

theorem has_place (s : WaitTimers) (t deadline waitSeq : Nat) (x : WaitTimer) :
    (s.place t deadline waitSeq).Has x ↔ s.Has x ∨ x = { deadline, task := t, waitSeq } := by
  have old : ∀ j < s.count, (s.place t deadline waitSeq).heap j = s.heap j := fun j below =>
    update_of_ne below.ne _ _
  have new : (s.place t deadline waitSeq).heap s.count = { deadline, task := t, waitSeq } :=
    update_self _ _ _
  constructor
  · rintro ⟨j, below, rfl⟩
    rcases Nat.lt_succ_iff_lt_or_eq.mp below with less | rfl
    · exact .inl ⟨j, less, (old j less).symm⟩
    · exact .inr new
  · rintro (⟨j, below, rfl⟩ | rfl)
    · exact ⟨j, Nat.lt_succ_of_lt below, old j below⟩
    · exact ⟨s.count, Nat.lt_succ_self _, new⟩

/-- Placing an entry of a task that has none, and sifting it up. -/
theorem HeapOk.place (ok : HeapOk s) (absent : ¬ 0 ≤ s.index t) (deadline waitSeq : Nat) :
    Sifted (s.place t deadline waitSeq) ((s.place t deadline waitSeq).siftUp s.count) := by
  have none_ : ∀ e, s.Has e → e.task ≠ t := fun e has same =>
    absent ((ok.indexed.present_iff t).mpr ⟨e, has, same⟩)
  have old : ∀ j < s.count, (s.place t deadline waitSeq).heap j = s.heap j := fun j below =>
    update_of_ne below.ne _ _
  refine siftUpLoop_spec _ ⟨fun j below => ?_, fun t' away => ?_⟩ ?_ (Nat.lt_succ_self _)
    (Nat.lt_succ_self _)
  · rw [index_place]
    rcases Nat.lt_succ_iff_lt_or_eq.mp below with less | rfl
    · rw [old j less, if_neg (none_ _ ⟨j, less, rfl⟩)]
      exact ok.indexed.back j less
    · have new : (s.place t deadline waitSeq).heap s.count = { deadline, task := t, waitSeq } :=
        update_self _ _ _
      rw [new, if_pos rfl]
  · have other : t' ≠ t := fun same =>
      away _ ((has_place s t deadline waitSeq _).mpr (.inr rfl)) same.symm
    rw [index_place, if_neg other]
    exact ok.indexed.absent t' fun e has =>
      away e ((has_place s t deadline waitSeq e).mpr (.inl has))
  · refine ok.ordered.append fun j below => ?_
    exact congrArg WaitTimer.deadline (old j below)

/-- A registration adds one entry, with a reference, or changes counters only. -/
theorem Inv.register (inv : Inv max others s []) (t deadline waitSeq : Nat) :
    Inv max others (procWaitTimerRegister max s t deadline waitSeq).1 [] := by
  unfold procWaitTimerRegister
  by_cases bad : t = 0 ∨ deadline = 0 ∨ waitSeq = 0
  · rw [if_pos bad]
    exact inv
  rw [if_neg bad]
  by_cases duplicate : (s.tasks t).waitTimerIndex ≥ 0
  · rw [if_pos duplicate]
    exact inv.same ⟨rfl, rfl, rfl, fun _ => rfl⟩ (fun _ => rfl) rfl
  rw [if_neg duplicate]
  by_cases full : s.count ≥ max
  · rw [if_pos full]
    exact inv.same ⟨rfl, rfl, rfl, fun _ => rfl⟩ (fun _ => rfl) rfl
  rw [if_neg full]
  simp only [not_or] at bad
  unfold procGet
  by_cases dead : (s.tasks t).refs = 0
  · rw [if_pos dead]
    exact inv
  rw [if_neg dead]
  dsimp only
  -- The reference for the entry is taken first.
  set s₁ := s.setTask t fun task => { task with refs := task.refs + 1 } with s₁_eq
  have same₁ : SameHeap s s₁ := sameHeap_setTask s t fun _ => rfl
  have none_ : ¬ 0 ≤ s.index t := duplicate
  have absent : ¬ 0 ≤ s₁.index t := by
    rw [same₁.index]
    exact none_
  have ok₁ := same₁.ok inv.ok
  obtain ⟨rearranged, indexed, ordered⟩ := ok₁.place absent deadline waitSeq
  generalize (s₁.place t deadline waitSeq).siftUp s₁.count = s₂ at rearranged indexed ordered
  have count : s₂.count = s.count + 1 := rearranged.count.trans (congrArg (· + 1) same₁.count)
  have has : ∀ x, s₂.Has x ↔ s₁.Has x ∨ x = { deadline, task := t, waitSeq } := fun x =>
    (rearranged.has x).trans (has_place s₁ t deadline waitSeq x)
  refine ⟨⟨ordered, ⟨indexed.back, indexed.absent⟩, ?_, ?_⟩, ?_, ?_, ?_, ?_⟩
  · intro e present
    rcases (has e).mp present with present | rfl
    · exact ok₁.valid present
    · exact ⟨bad.1, bad.2.2⟩
  · have some_ : s₂.publishRoot.count ≠ 0 := by
      change s₂.count ≠ 0
      omega
    rw [if_pos some_]
    rfl
  · change s₂.count ≤ max
    omega
  · intro t'
    have refs : (s₂.tasks t').refs = (s₁.tasks t').refs := by
      rw [rearranged.refs]
      unfold WaitTimers.place
      rw [refs_setTask]
      split
      · next here => rw [here]
      · rfl
    change (s₂.tasks t').refs = others t' + s₂.held [] t'
    have counted := inv.refs t'
    have present : (0 ≤ s₂.index t') ↔ (t' = t ∨ 0 ≤ s.index t') := by
      rw [indexed.present_iff, inv.ok.indexed.present_iff]
      constructor
      · rintro ⟨e, at_, rfl⟩
        rcases (has e).mp at_ with old | rfl
        · exact .inr ⟨e, (same₁.has e).mp old, rfl⟩
        · exact .inl rfl
      · rintro (rfl | ⟨e, old, rfl⟩)
        · exact ⟨_, (has _).mpr (.inr rfl), rfl⟩
        · exact ⟨e, (has e).mpr (.inl ((same₁.has e).mpr old)), rfl⟩
    rw [refs, s₁_eq, refs_setTask]
    unfold held at counted ⊢
    by_cases here : t' = t
    · subst here
      rw [if_pos rfl, if_pos (present.mpr (.inl rfl))]
      rw [if_neg none_] at counted
      change (s.tasks t').refs + 1 = _
      omega
    · rw [if_neg here, counted]
      simp only [present, here, false_or]
  · intro t' member
    cases member
  · exact rearranged.underflow.trans inv.sound

end WaitTimers

/-! ### Runs -/

/-- The heap and the references that others hold. -/
structure TimerSys where
  timers : WaitTimers
  others : Nat → Nat

inductive TimerLabel where
  | register (t deadline waitSeq : Nat)
  | cancel (t waitSeq : Nat)
  | expire (now : Nat)
  /-- A reference is taken elsewhere. -/
  | get (t : Nat)
  /-- A reference that was taken elsewhere is dropped. -/
  | put (t : Nat)
  /-- The wait of a task goes on. -/
  | wait (t : Nat) (state : TaskState) (park : Park)

namespace TimerSys

open WaitTimers

def step (max : Nat) (s : TimerSys) : TimerLabel → Option TimerSys
  | .register t deadline waitSeq =>
      some { s with timers := (procWaitTimerRegister max s.timers t deadline waitSeq).1 }
  | .cancel t waitSeq => some { s with timers := s.timers.procWaitTimerCancel t waitSeq }
  | .expire now => some { s with timers := s.timers.procSchedExpireWaitTimers now }
  | .get t =>
      (s.timers.procGet t).map fun timers =>
        { timers, others := Function.update s.others t (s.others t + 1) }
  | .put t =>
      if t = 0 ∨ s.others t = 0 then none
      else
        some { timers := s.timers.procPut t, others := Function.update s.others t (s.others t - 1) }
  | .wait t state park =>
      some { s with timers := s.timers.setTask t fun task => { task with state, park } }

/-- Tasks with references elsewhere, and an empty heap. -/
def boot (others : Nat → Nat) : TimerSys :=
  { timers := { tasks := fun t => { refs := others t } }, others }

/-- The invariant of the runs: nothing is in hand between two calls. -/
def Good (max : Nat) (s : TimerSys) : Prop := s.timers.Inv max s.others []

theorem good_boot (max : Nat) (others : Nat → Nat) : (boot others).Good max := by
  have none_ : ∀ e, ¬ (boot others).timers.Has e := by
    rintro e ⟨i, below, -⟩
    exact absurd below (Nat.not_lt_zero i)
  exact ⟨⟨nofun, ⟨nofun, fun _ _ => rfl⟩, fun has => absurd has (none_ _), rfl⟩,
    Nat.zero_le _, fun _ => rfl, nofun, rfl⟩

variable {max : Nat} {s s' : TimerSys}

section
variable (good : s.Good max)
include good

theorem Good.expire (now : Nat) :
    (s.timers.procSchedExpireWaitTimers now).Inv max s.others [] ∧
      ∀ e, (s.timers.procSchedExpireWaitTimers now).Has e ↔ s.timers.Has e ∧ now < e.deadline :=
  expireLoop_spec now _ (Nat.lt_succ_self _) good

theorem Good.get {t : Nat} (taken : step max s (.get t) = some s') : s'.Good max := by
  obtain ⟨timers, got, rfl⟩ := Option.map_eq_some_iff.mp taken
  unfold procGet at got
  split at got
  · cases got
  cases got
  dsimp only [Good]
  refine Inv.recount good (sameHeap_setTask _ t fun _ => rfl) (fun _ => id) (fun t' => ?_) rfl
  rw [refs_setTask, update_apply]
  split
  · next here =>
    subst here
    dsimp only
    omega
  · rfl

theorem Good.put {t : Nat} (taken : step max s (.put t) = some s') : s'.Good max := by
  obtain ⟨-, ⟨⟩⟩ | ⟨refused, ⟨⟩⟩ := ite_eq_iff.mp taken
  have some_ := not_or.mp refused
  have counted := good.refs t
  dsimp only [Good]
  rw [procPut_eq some_.1 (by omega)]
  refine Inv.recount good (sameHeap_setTask _ t fun _ => rfl) (fun _ => id) (fun t' => ?_) rfl
  rw [refs_setTask, update_apply]
  split
  · next here =>
    subst here
    dsimp only
    omega
  · rfl

theorem Good.step {label : TimerLabel} (taken : step max s label = some s') : s'.Good max := by
  cases label with
  | register t deadline waitSeq =>
    cases taken
    exact Inv.register good t deadline waitSeq
  | cancel t waitSeq =>
    cases taken
    rcases procWaitTimerCancel_cases good t waitSeq with same | ⟨e, -, -, -, inv, -⟩
    · rw [same]
      exact good
    · exact inv
  | expire now =>
    cases taken
    exact (Good.expire good now).1
  | get t => exact good.get taken
  | put t => exact good.put taken
  | wait t state park =>
    cases taken
    have same := s.timers.sameHeap_setTask t
      (f := fun task => { task with state, park }) fun _ => rfl
    refine Inv.same good same (fun t' => ?_) rfl
    rw [refs_setTask]
    split
    · next here => rw [here]
    · rfl

theorem Good.scan (some_ : s.timers.count ≠ 0) :
    IsLeast {d | ∃ e, s.timers.Has e ∧ e.deadline = d} s.timers.nextWakeScan := by
  rw [good.ok.scan, if_pos some_]
  constructor
  · exact ⟨_, ⟨0, Nat.pos_of_ne_zero some_, rfl⟩, rfl⟩
  · rintro d ⟨e, ⟨i, below, rfl⟩, rfl⟩
    exact good.ok.ordered.root_le below

/-- An expiry drops one reference of each task whose entry is due, and no other. -/
theorem Good.expire_refs (now t : Nat) :
    ((s.timers.procSchedExpireWaitTimers now).tasks t).refs +
      (if ∃ i < s.timers.count, (s.timers.heap i).task = t ∧ (s.timers.heap i).deadline ≤ now
        then 1 else 0) = (s.timers.tasks t).refs := by
  obtain ⟨inv, has⟩ := good.expire now
  have before := good.refs t
  have after := inv.refs t
  have present := good.ok.indexed.present_iff t
  have remains := inv.ok.indexed.present_iff t
  unfold held at before after
  rw [before, after]
  by_cases due : ∃ i < s.timers.count,
      (s.timers.heap i).task = t ∧ (s.timers.heap i).deadline ≤ now
  · -- The only entry of the task is due.
    obtain ⟨i, below, here, expired⟩ := due
    have was : 0 ≤ s.timers.index t := present.mpr ⟨_, ⟨i, below, rfl⟩, here⟩
    have gone : ¬ 0 ≤ (s.timers.procSchedExpireWaitTimers now).index t := by
      intro still
      obtain ⟨e, left, same⟩ := remains.mp still
      obtain ⟨⟨j, jbelow, rfl⟩, later⟩ := (has e).mp left
      obtain rfl := good.ok.indexed.eq_of_task jbelow below (same.trans here.symm)
      omega
    rw [if_pos was, if_neg gone, if_pos ⟨i, below, here, expired⟩]
    rfl
  · have kept : 0 ≤ (s.timers.procSchedExpireWaitTimers now).index t ↔ 0 ≤ s.timers.index t := by
      rw [present, remains]
      constructor
      · rintro ⟨e, left, same⟩
        exact ⟨e, ((has e).mp left).1, same⟩
      · rintro ⟨e, ⟨i, below, rfl⟩, same⟩
        refine ⟨_, (has _).mpr ⟨⟨i, below, rfl⟩, ?_⟩, same⟩
        exact not_le.mp fun expired => due ⟨i, below, same, expired⟩
    rw [if_neg due]
    simp only [kept, Nat.add_zero]

end

/-- **The wait-timer heap.** Whatever registrations, cancellations and expiries follow one
another, the array is a heap, every task knows the position of its entry, `next_wake_scan`
is the earliest deadline, and an expiry takes out exactly the due entries and drops one
reference for each. Beside the references of others, a task has one while it has an entry,
and no reference is dropped that is not there. -/
theorem run_wait_timers (others : Nat → Nat) (run : RunsTo (step max) always (boot others) s) :
    Ordered s.timers.key s.timers.count ∧
    ((∀ i < s.timers.count, s.timers.index (s.timers.heap i).task = i) ∧
      ∀ t, (∀ i < s.timers.count, (s.timers.heap i).task ≠ t) → s.timers.index t = -1) ∧
    ((s.timers.count = 0 → s.timers.nextWakeScan = schedNoDeadline) ∧
      (s.timers.count ≠ 0 →
        IsLeast {d | ∃ e, s.timers.Has e ∧ e.deadline = d} s.timers.nextWakeScan)) ∧
    (∀ now s', step max s (.expire now) = some s' →
      (∀ e, s'.timers.Has e ↔ s.timers.Has e ∧ now < e.deadline) ∧
      ∀ t, (s'.timers.tasks t).refs +
        (if ∃ i < s.timers.count, (s.timers.heap i).task = t ∧ (s.timers.heap i).deadline ≤ now
          then 1 else 0) = (s.timers.tasks t).refs) ∧
    (∀ t, (s.timers.tasks t).refs = s.others t + if 0 ≤ s.timers.index t then 1 else 0) ∧
    s.timers.underflow = false := by
  have good : s.Good max :=
    run.invariant (fun good _ taken => Good.step good taken) (good_boot max others)
  refine ⟨good.ok.ordered, ⟨good.ok.indexed.back, fun t away => ?_⟩, ⟨fun empty => ?_, good.scan⟩,
    fun now s' taken => ?_, good.refs, good.sound⟩
  · refine good.ok.indexed.absent t ?_
    rintro e ⟨i, below, rfl⟩
    exact away i below
  · rw [good.ok.scan, if_neg (not_not.mpr empty)]
  · cases taken
    exact ⟨(good.expire now).2, good.expire_refs now⟩

/-- Two timers are registered, and the earlier one expires. -/
theorem run_wait_timers_two : ∃ s,
    exec (step 64) (boot fun _ => 1) [.register 5 30 1, .register 6 10 1, .expire 20] = some s ∧
      s.timers.count = 1 ∧ (s.timers.tasks 5).refs = 2 ∧ (s.timers.tasks 6).refs = 1 ∧
      IsLeast {d | ∃ e, s.timers.Has e ∧ e.deadline = d} s.timers.nextWakeScan := by
  obtain ⟨s, reached, count, refs⟩ : ∃ s,
      exec (step 64) (boot fun _ => 1) [.register 5 30 1, .register 6 10 1, .expire 20] = some s ∧
      s.timers.count = 1 ∧ (s.timers.tasks 5).refs = 2 ∧ (s.timers.tasks 6).refs = 1 :=
    ⟨_, rfl, by decide, by decide, by decide⟩
  obtain ⟨-, -, ⟨-, least⟩, -⟩ := run_wait_timers _ (exec_runsTo reached)
  exact ⟨s, reached, count, refs.1, refs.2, least (by omega)⟩

end TimerSys

end A20OS.Proc.TimerHeap
