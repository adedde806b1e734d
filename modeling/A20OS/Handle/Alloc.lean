import Mathlib.Data.List.Count
import Mathlib.Data.Nat.Find
import A20OS.Handle.Quota

/-!
Whether a free slot is found.

The search starts at the word of the hint, so it finds a slot only while no earlier word has
one (`Findable`). A targeted install moves the hint past its slot, over whatever is free below:
`a20_handle_reserve_many` still counts these slots, but the search misses them.
-/

namespace A20OS.Handle.Table

open Lib List

variable {mem : Nat → Bool} {slot : Nat} {e : Entry} {t t' : Table}

/-- No slot is free in the words before the one at which the search starts. -/
def Findable (t : Table) : Prop :=
  0 < t.freeBitmap.length ∧ ∀ h, h / 64 < t.freeHint / 64 → testBit t.freeBitmap h = true

section
variable (found : t.Findable)
include found

/-- The search finds the first free slot. -/
theorem Findable.freeSlot (vacant : ∃ h < t.capacity,
      h / 64 < t.freeBitmap.length ∧ testBit t.freeBitmap h = false) :
    ∃ slot, t.freeSlot = some slot ∧ ∀ h < slot, testBit t.freeBitmap h = true := by
  obtain ⟨below, inside, clear⟩ := Nat.find_spec vacant
  have first : ∀ h < Nat.find vacant, testBit t.freeBitmap h = true := by
    intro h earlier
    by_contra unset
    exact Nat.find_min vacant earlier ⟨by omega, by omega, Bool.eq_false_iff.mpr unset⟩
  have ahead : t.freeHint / 64 ≤ Nat.find vacant / 64 := by
    by_contra behind
    rw [found.2 _ (not_le.mp behind)] at clear
    cases clear
  exact ⟨_, firstClear_drop_eq below inside clear _ (Nat.add_sub_cancel' ahead).symm
    fun h earlier _ => first h earlier, first⟩

/-! ### What keeps it -/

/-- A slot is taken, and the hint moves over no other free slot. -/
theorem Findable.occupy (inside : slot / 64 < t.freeBitmap.length)
    {hint : Nat} (passed : ∀ h, h / 64 < hint / 64 → h = slot ∨ testBit t.freeBitmap h = true) :
    (t.occupy slot e hint).Findable := by
  refine ⟨Nat.lt_of_lt_of_eq found.1 length_setBit.symm, fun h ahead => ?_⟩
  change testBit (setBit t.freeBitmap slot) h = true
  rw [testBit_setBit inside, Bool.or_eq_true, decide_eq_true_iff]
  exact passed h ahead

/-- The slot that the search returns is taken; every slot before it is in use. -/
theorem Findable.take (searched : t.freeSlot = some slot) :
    (t.occupy slot e (slot + 1)).Findable := by
  have free := firstClear_drop_some searched
  obtain ⟨first, same, earlier⟩ := found.freeSlot ⟨slot, free⟩
  cases searched.symm.trans same
  refine found.occupy free.2.1 fun h ahead => ?_
  rcases Nat.lt_or_eq_of_le (show h ≤ slot by omega) with before | here
  · exact .inr (earlier h before)
  · exact .inl here

theorem Findable.vacate (slot : Nat) : (t.vacate slot e (t.hintAfterFree slot)).Findable := by
  refine ⟨Nat.lt_of_lt_of_eq found.1 length_clearBit.symm, fun h ahead => ?_⟩
  change h / 64 < t.hintAfterFree slot / 64 at ahead
  have before : slot / 64 ≠ h / 64 ∧ h / 64 < t.freeHint / 64 := by
    unfold hintAfterFree at ahead
    split at ahead <;> omega
  refine Eq.trans ?_ (found.2 h before.2)
  change testBit (t.freeBitmap.set _ _) h = _
  unfold testBit
  rw [getD_eq_getElem?_getD, getElem?_set_ne before.1, getD_eq_getElem?_getD]

omit found in
theorem Grows.testBit (grows : Grows mem t t') :
    t.freeBitmap.length ≤ t'.freeBitmap.length ∧
      ∀ h, testBit t'.freeBitmap h = testBit t.freeBitmap h := by
  refine grows.induct (P := fun g => t.freeBitmap.length ≤ g.freeBitmap.length ∧
    ∀ h, Lib.testBit g.freeBitmap h = Lib.testBit t.freeBitmap h) ⟨le_rfl, fun _ => rfl⟩
    fun same grown => ?_
  obtain ⟨-, ⟨⟩⟩ | ⟨-, grown⟩ := ite_eq_iff.mp grown
  obtain ⟨-, ⟨⟩⟩ | ⟨-, ⟨⟩⟩ := ite_eq_iff.mp grown
  exact ⟨le_trans same.1 (by simp), fun h => (testBit_append_zeros _ h).trans (same.2 h)⟩

theorem Findable.grows (grows : Grows mem t t') : t'.Findable := by
  refine ⟨lt_of_lt_of_le found.1 grows.testBit.1, fun h ahead => ?_⟩
  rw [grows.fields.2.2] at ahead
  rw [grows.testBit.2]
  exact found.2 h ahead

theorem Findable.install {object : Nat} {type : ObjType} {rights : Rights}
    {limits : Limits} : (t.handleInstallTemporal mem object type rights limits).1.Findable := by
  unfold handleInstallTemporal
  cases taken : t.takeSlot mem with
  | mk t' result =>
    obtain ⟨g, grows, ⟨rfl, rfl⟩ | ⟨slot, rfl, -, searched, rfl⟩⟩ := takeSlot_cases taken
    · exact found.grows grows
    · exact (found.grows grows).take searched

omit found in
theorem Findable.reserveLoop (n : Nat) :
    ∀ {t : Table}, t.Findable → (t.reserveLoop n).1.Findable := by
  induction n with
  | zero => exact id
  | succ n ih =>
    intro t found
    rw [Table.reserveLoop]
    cases searched : t.freeSlot with
    | none => exact found
    | some slot => exact ih (found.take searched)

theorem Findable.abortReserved (handles : List Nat) : (t.handleAbortReserved handles).Findable := by
  refine foldlRecOn handles abortOne found fun g before h _ => ?_
  unfold abortOne
  split
  · exact before
  · exact before.vacate h

theorem Findable.sweepOne (now h : Nat) : (sweepOne now t h).1.Findable := by
  unfold Table.sweepOne
  split
  · exact found
  split
  · exact found
  split
  · exact found.vacate h
  · exact found

end

/-- A targeted install that succeeds moves the hint over no free slot but its own. -/
def passesNoFree (t : Table) : Op → Prop
  | .installAt mem slot object type rights limits =>
      (t.handleInstallAtTemporal mem slot object type rights limits).2.toOption = none ∨
        ∀ h < (slot + 1) / 64 * 64, h = slot ∨ testBit t.freeBitmap h = true
  | _ => True

instance (t : Table) : (op : Op) → Decidable (passesNoFree t op)
  | .installAt .. => inferInstanceAs (Decidable (_ ∨ _))
  | .install .. | .installTemporal .. | .lookup .. | .remove .. | .reserveMany .. | .grow ..
  | .abortReserved .. | .commitReserved .. | .setTemporal .. | .setLabel .. | .sweepBatch .. =>
      .isTrue trivial

theorem Findable.after {op : Op} (wf : t.WF) (found : t.Findable) (meets : passesNoFree t op) :
    (t.after op).Findable := by
  cases op with
  | install | installTemporal => exact found.install
  | installAt mem slot object type rights limits =>
    rw [Table.after]
    cases done : t.handleInstallAtTemporal mem slot object type rights limits with
    | mk t' result =>
      obtain ⟨g, grows, ⟨-, rfl⟩ | ⟨rfl, below, -, -, rfl⟩⟩ := handleInstallAtTemporal_cases done
      · exact found.grows grows
      · have later := found.grows grows
        rw [passesNoFree, done] at meets
        refine later.occupy ((grows.grown wf).wf.word_lt below) fun h ahead => ?_
        split at ahead
        · rw [grows.testBit.2]
          exact meets.resolve_left (Option.some_ne_none _) h (by omega)
        · exact .inr (later.2 h ahead)
  | lookup now h expectedType requiredRights =>
    rw [Table.after, handleLookup]
    split <;> exact found
  | remove h =>
    rw [Table.after, handleRemove]
    split
    · exact found.vacate h
    · exact found
  | reserveMany mem n =>
    rw [Table.after]
    cases done : t.handleReserveMany mem n with
    | mk t' result =>
      obtain ⟨g, grows, ⟨rfl, -⟩ | ⟨r, handles, looped, ended⟩⟩ := handleReserveMany_cases done
      · exact found.grows grows
      have loop := (found.grows grows).reserveLoop n
      rw [looped] at loop
      rcases ended with ⟨rfl, -⟩ | ⟨-, rfl, -⟩
      · exact loop.abortReserved handles
      · exact loop
  | abortReserved handles => exact found.abortReserved handles
  | commitReserved h object type rights limits =>
    rw [Table.after, handleCommitReservedTemporal]
    split <;> exact found
  | setTemporal h expiryTick remainingOps temporalFlags =>
    rw [Table.after, handleSetTemporal]
    repeat' split
    all_goals exact found
  | setLabel h label =>
    rw [Table.after, handleSetLabel]
    repeat' split
    all_goals exact found
  | sweepBatch now => exact sweepBatch_induct found fun before _ => before.sweepOne now _
  | grow mem =>
    rw [Table.after]
    cases grown : t.grow mem with
    | error e => exact found
    | ok t' => exact found.grows (.single grown)

/-! ### Allocation -/

theorem WF.count_lt_iff (wf : t.WF) :
    t.count < t.capacity ↔ ∃ h < t.capacity, Used (t.entry h) = false := by
  rw [wf.counted, capacity, countP_lt_length_iff, exists_mem_iff_exists_getElem]
  simp only [getElem_entries, exists_prop]

theorem Findable.vacant (found : t.Findable) (wf : t.WF) (room : t.count < t.capacity) :
    ∃ slot, t.freeSlot = some slot := by
  obtain ⟨h, below, free⟩ := wf.count_lt_iff.mp room
  obtain ⟨slot, searched, -⟩ :=
    found.freeSlot ⟨h, below, wf.word_lt below, (wf.marked h below).trans free⟩
  exact ⟨slot, searched⟩

/-- In every run whose targeted installs move the hint over no free slot, a table below its
quota that has a free slot, or that can grow, gives one out. -/
theorem run_allocates (run : RunsTo step passesNoFree Table.create t)
    (quota : t.count < t.maxHandles) (mem : Nat → Bool)
    (room : (∃ h < t.capacity, Used (t.entry h) = false) ∨
      t.capacity < maxCap ∧ mem (min (t.capacity * growthFactor) maxCap) = true) :
    (∀ object type rights, ∃ slot, (t.handleInstall mem object type rights).2 = .ok slot) ∧
      ∃ slot, (t.handleReserveMany mem 1).2 = .ok [slot] := by
  have start : Table.create.Findable := ⟨by decide, fun _ ahead => nomatch ahead⟩
  obtain ⟨wf, found⟩ := run_keeps start Findable.after run
  by_cases vacant : t.count < t.capacity
  · obtain ⟨slot, searched⟩ := found.vacant wf vacant
    have left : ¬t.capacity - t.count < 1 := by omega
    refine ⟨fun object type rights => ⟨slot, ?_⟩, slot, ?_⟩
    · simp only [handleInstall, handleInstallTemporal, takeSlot, allocSlot, if_pos quota, searched]
    · simp only [handleReserveMany, makeRoom, if_neg Nat.one_ne_zero, if_neg left, reserveLoop,
        searched]
      rfl
  · obtain ⟨small, enough⟩ := room.resolve_left (mt wf.count_lt_iff.mpr vacant)
    have some : 0 < t.capacity := by
      have := wf.words
      have := found.1
      omega
    obtain ⟨g, grown, larger⟩ : ∃ g, t.grow mem = .ok g ∧ t.capacity < g.capacity := by
      unfold Table.grow
      simp only [if_neg (Nat.not_le_of_lt small), enough, if_true]
      refine ⟨_, rfl, ?_⟩
      simp only [capacity, growthFactor, length_append, length_replicate] at *
      omega
    have grows : Grows mem t g := .single grown
    have count : g.count = t.count := grows.fields.2.1
    have most : t.count ≤ t.capacity := wf.counted ▸ countP_le_length
    obtain ⟨slot, searched⟩ := (found.grows grows).vacant (grows.grown wf).wf (by omega)
    have none : t.freeSlot = none := Option.eq_none_iff_forall_ne_some.mpr fun j first =>
      vacant (wf.count_lt_iff.mpr ⟨j, freeSlot_some wf first⟩)
    have short : t.capacity - t.count < 1 := by omega
    have left : ¬g.capacity - g.count < 1 := by omega
    refine ⟨fun object type rights => ⟨slot, ?_⟩, slot, ?_⟩
    · simp only [handleInstall, handleInstallTemporal, takeSlot, allocSlot, if_pos quota, none,
        grown,
        searched]
    · simp only [handleReserveMany, makeRoom, if_neg Nat.one_ne_zero, if_pos short, grown,
        if_neg left, reserveLoop, searched]
      rfl

/-- The targeted install with which a parent gives its child a handle. -/
def placeFile (slot : Nat) : Op := .installAt memoryEnough slot ⟨6, by decide⟩ .file Rights.read {}

theorem run_allocates_next :
    ∃ t, RunsTo step passesNoFree Table.create t ∧ t.count = 2 ∧
      ∃ slot, (t.handleReserveMany memoryEnough 1).2 = .ok [slot] := by
  obtain ⟨t, run, count, quota, small⟩ : ∃ t, RunsTo step passesNoFree Table.create t ∧
      t.count = 2 ∧ t.count < t.maxHandles ∧ t.capacity < maxCap :=
    runsTo_of_execWhile [installFile ⟨5, Nat.succ_ne_zero _⟩, placeFile 9] (by decide +kernel)
  exact ⟨t, run, count, (run_allocates run quota memoryEnough (.inr ⟨small, rfl⟩)).2⟩

/-- After a targeted install into the last slot of an empty table nobody gets any of the
other 255: an install does not without memory for a larger table, and a reservation, which
sees that there is room, does not at all. -/
theorem targeted_install_hides_slots :
    ∃ t, RunsTo step always Table.create t ∧ t.count < t.maxHandles ∧
      Used (t.entry 0) = false ∧
      (t.handleInstall (fun _ => false) 5 .file Rights.read).2.toOption = none ∧
      (t.handleReserveMany memoryEnough 1).2.toOption = none :=
  runsTo_of_exec [placeFile 255] (by decide +kernel)

end A20OS.Handle.Table
