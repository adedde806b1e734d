import A20OS.Handle.Runs

/-!
The quota of a handle table.

`max_handles` is a hard limit on the slots in use. The installs check it;
`a20_handle_reserve_many` looks at the capacity only, and grows the table when that is
short. A receive that reserves slots can so take a process past its quota, as often as
it likes: what stays within it are the runs whose reservations do.
-/

namespace A20OS.Handle.Table

open Lib List

variable {n : Nat} {t t' : Table}

/-! ### What the operations do to the count -/

/-- `t'` has the quota of `t`, and at most `n` more slots in use. -/
structure Spends (n : Nat) (t t' : Table) : Prop where
  quota : t'.maxHandles = t.maxHandles
  count : t'.count ≤ t.count + n

theorem Spends.refl (t : Table) : Spends 0 t t := ⟨rfl, Nat.le_refl _⟩

theorem Spends.trans {m : Nat} {t₁ t₂ t₃ : Table} (first : Spends n t₁ t₂)
    (second : Spends m t₂ t₃) : Spends (n + m) t₁ t₃ := by
  refine ⟨second.quota.trans first.quota, ?_⟩
  have := first.count
  have := second.count
  omega

theorem Spends.within (spends : Spends 0 t t') (within : t.count ≤ t.maxHandles) :
    t'.count ≤ t'.maxHandles := by
  rw [spends.quota]
  exact Nat.le_trans spends.count within

theorem Decayed.within (decayed : Decayed t t') (within : t.count ≤ t.maxHandles) :
    t'.count ≤ t'.maxHandles :=
  Spends.within ⟨decayed.quota, decayed.fewer⟩ within

variable {mem : Nat → Bool} {object slot : Nat} {type : ObjType} {rights : Rights}
  {limits : Limits}

theorem Grows.fields (grows : Grows mem t t') :
    t'.maxHandles = t.maxHandles ∧ t'.count = t.count ∧ t'.freeHint = t.freeHint := by
  refine grows.induct (P := fun g => g.maxHandles = t.maxHandles ∧ g.count = t.count ∧
    g.freeHint = t.freeHint) ⟨rfl, rfl, rfl⟩ fun same grown => ?_
  obtain ⟨-, ⟨⟩⟩ | ⟨-, grown⟩ := ite_eq_iff.mp grown
  obtain ⟨-, ⟨⟩⟩ | ⟨-, ⟨⟩⟩ := ite_eq_iff.mp grown
  exact same

theorem Grows.spends (grows : Grows mem t t') : Spends 0 t t' :=
  ⟨grows.fields.1, Nat.le_of_eq grows.fields.2.1⟩

theorem handleInstallTemporal_within (within : t.count ≤ t.maxHandles) :
    (t.handleInstallTemporal mem object type rights limits).1.count ≤
      (t.handleInstallTemporal mem object type rights limits).1.maxHandles := by
  unfold handleInstallTemporal
  cases taken : t.takeSlot mem with
  | mk t' result =>
    obtain ⟨g, grows, ⟨rfl, rfl⟩ | ⟨slot, rfl, quota, -, rfl⟩⟩ := takeSlot_cases taken
    · exact grows.spends.within within
    · rw [grows.fields.1, grows.fields.2.1]
      exact quota

theorem handleInstallAtTemporal_within (within : t.count ≤ t.maxHandles) :
    (t.handleInstallAtTemporal mem slot object type rights limits).1.count ≤
      (t.handleInstallAtTemporal mem slot object type rights limits).1.maxHandles := by
  cases done : t.handleInstallAtTemporal mem slot object type rights limits with
  | mk t' result =>
    obtain ⟨g, grows, ⟨-, rfl⟩ | ⟨-, -, -, quota, rfl⟩⟩ := handleInstallAtTemporal_cases done
    · exact grows.spends.within within
    · exact quota

/-! ### Reservations -/

theorem reserveLoop_count (n : Nat) : ∀ t : Table,
    (t.reserveLoop n).1.maxHandles = t.maxHandles ∧
      (t.reserveLoop n).1.count = t.count + (t.reserveLoop n).2.length := by
  induction n with
  | zero => exact fun t => ⟨rfl, rfl⟩
  | succ n ih =>
    intro t
    rw [reserveLoop]
    cases t.freeSlot with
    | none => exact ⟨rfl, rfl⟩
    | some slot =>
      obtain ⟨quota, count⟩ := ih (t.reserveOne slot)
      refine ⟨quota, ?_⟩
      change ((t.reserveOne slot).reserveLoop n).1.count = _ + (_ + 1)
      rw [count]
      change t.count + 1 + _ = _
      omega

theorem abortOne_spends (t : Table) (h : Nat) : Spends 0 t (t.abortOne h) := by
  unfold abortOne
  split
  · exact .refl t
  · exact ⟨rfl, Nat.sub_le _ _⟩

theorem handleAbortReserved_spends (handles : List Nat) :
    ∀ t : Table, Spends 0 t (t.handleAbortReserved handles) := by
  induction handles with
  | nil => exact .refl
  | cons h handles ih => exact fun t => (abortOne_spends t h).trans (ih (t.abortOne h))

/-- Giving back slots that are all reserved. -/
theorem handleAbortReserved_count (handles : List Nat) :
    ∀ {t : Table}, t.WF → handles.Nodup → (∀ h ∈ handles, t.Pending h) →
      (t.handleAbortReserved handles).count = t.count - handles.length := by
  induction handles with
  | nil => exact fun _ _ _ => rfl
  | cons h handles ih =>
    intro t wf distinct pending
    have here := pending h (.head _)
    have first := abortOne_aborted wf h
    have vacated : t.abortOne h = t.vacate h { t.entry h with state := .free }
        (t.hintAfterFree h) := by
      unfold abortOne
      rw [if_neg (pending_iff.mpr here)]
    have rest : ∀ j ∈ handles, (t.abortOne h).Pending j := by
      intro j member
      have other : j ≠ h := fun same => (nodup_cons.mp distinct).1 (same ▸ member)
      have old := pending j (.tail _ member)
      have entry := first.others j (by simp [other])
      refine ⟨?_, entry ▸ old.closing, entry ▸ old.object⟩
      rw [vacated]
      exact Nat.lt_of_lt_of_eq old.below capacity_put.symm
    change ((t.abortOne h).handleAbortReserved handles).count = _
    rw [ih first.wf (nodup_cons.mp distinct).2 rest, vacated, length_cons]
    change t.count - 1 - _ = _
    omega

/-- A reservation takes exactly the slots it was asked for, quota or not. -/
theorem handleReserveMany_count {handles : List Nat}
    (reserved : t.handleReserveMany mem n = (t', .ok handles)) :
    t'.maxHandles = t.maxHandles ∧ t'.count = t.count + n := by
  obtain ⟨g, grows, ⟨-, ⟨⟩⟩ | ⟨r, hs, looped, ⟨-, ⟨⟩⟩ | ⟨length, rfl, ⟨⟩⟩⟩⟩ :=
    handleReserveMany_cases reserved
  obtain ⟨roomQuota, roomCount, -⟩ := grows.fields
  have counted := reserveLoop_count n g
  rw [looped] at counted
  exact ⟨counted.1.trans roomQuota, by rw [counted.2, roomCount, length]⟩

theorem handleReserveMany_failed {e : Status} (wf : t.WF)
    (failed : t.handleReserveMany mem n = (t', .error e)) : Spends 0 t t' := by
  obtain ⟨g, grows, ⟨rfl, -⟩ | ⟨r, hs, looped, ⟨rfl, -⟩ | ⟨-, -, ⟨⟩⟩⟩⟩ :=
    handleReserveMany_cases failed
  · exact grows.spends
  · have reserved := reserveLoop_reserved n (grows.grown wf).wf looped
    have counted := reserveLoop_count n g
    rw [looped] at counted
    refine ⟨(handleAbortReserved_spends hs r).quota.trans (counted.1.trans grows.fields.1), ?_⟩
    rw [handleAbortReserved_count _ reserved.wf reserved.distinct reserved.pending, counted.2,
      grows.fields.2.1]
    dsimp only
    omega

/-! ### Runs within the quota -/

/-- A reservation that succeeds leaves the table within its quota. -/
def withinQuota (t : Table) : Op → Prop
  | .reserveMany mem n =>
      (t.handleReserveMany mem n).2.toOption = none ∨ t.count + n ≤ t.maxHandles
  | _ => True

instance (t : Table) (op : Op) : Decidable (withinQuota t op) := by
  cases op <;> unfold withinQuota <;> infer_instance

theorem after_within {op : Op} (wf : t.WF) (within : t.count ≤ t.maxHandles)
    (meets : withinQuota t op) : (t.after op).count ≤ (t.after op).maxHandles := by
  cases op with
  | install | installTemporal => exact handleInstallTemporal_within within
  | installAt => exact handleInstallAtTemporal_within within
  | lookup now h expectedType requiredRights =>
    rw [after, handleLookup]
    split <;> exact within
  | remove h =>
    rw [after, handleRemove]
    split
    · exact Nat.le_trans (Nat.sub_le _ _) within
    · exact within
  | reserveMany mem n =>
    refine of_result (P := fun t' => t'.count ≤ t'.maxHandles)
      (fun failed => (handleReserveMany_failed wf failed).within within) fun reserved => ?_
    obtain ⟨quota, count⟩ := handleReserveMany_count reserved
    rw [withinQuota, reserved] at meets
    rcases meets with failed | room
    · cases failed
    · rw [count, quota]
      exact room
  | abortReserved handles => exact (handleAbortReserved_spends handles t).within within
  | commitReserved h object type rights limits =>
    rw [after, handleCommitReservedTemporal]
    split
    · exact within
    · exact within
  | setTemporal => exact (handleSetTemporal_decayed wf).within within
  | setLabel => exact (handleSetLabel_decayed wf).within within
  | sweepBatch => exact (sweepBatch_decayed wf).within within
  | grow mem =>
    rw [after]
    cases grown : t.grow mem with
    | error e => exact within
    | ok t' => exact (Grows.spends (.single grown)).within within

/-- In every run whose reservations stay within the quota or fail, the number of slots
in use stays within it; a reservation that succeeds stays within the quota exactly when
the slots it asks for are left under it. -/
theorem run_quota {t : Table} (run : RunsTo step withinQuota Table.create t) :
    t.entries.countP Used ≤ t.maxHandles ∧
      ∀ {mem : Nat → Bool} {n : Nat} {t' : Table} {handles : List Nat},
        t.handleReserveMany mem n = (t', .ok handles) →
        (t'.entries.countP Used ≤ t'.maxHandles ↔ t.count + n ≤ t.maxHandles) := by
  have start : Table.create.count ≤ Table.create.maxHandles := Nat.zero_le _
  obtain ⟨wf, within⟩ := run_keeps start after_within run
  refine ⟨wf.counted ▸ within, ?_⟩
  intro mem n t' handles reserved
  obtain ⟨quota, count⟩ := handleReserveMany_count reserved
  rw [← (handleReserveMany_ok wf reserved).1.wf.counted, quota, count]

theorem run_quota_receive :
    ∃ t, RunsTo step withinQuota Table.create t ∧ t.count = 9 ∧
      t.entries.countP Used ≤ t.maxHandles := by
  obtain ⟨t, run, count⟩ : ∃ t, RunsTo step withinQuota Table.create t ∧ t.count = 9 :=
    runsTo_of_execWhile [installFile ⟨5, Nat.succ_ne_zero _⟩, .reserveMany memoryEnough 8]
      (by decide +kernel)
  exact ⟨t, run, count, (run_quota run).1⟩

/-! ### A receiver past its quota -/

/-- The slots in use are the first ones. -/
structure Packed (t : Table) : Prop where
  wf : t.WF
  hint : t.freeHint = t.count
  used : ∀ h, Used (t.entry h) = decide (h < t.count)

theorem create_packed : Table.create.Packed := by
  refine ⟨create_wf, rfl, fun h => ?_⟩
  unfold entry create
  rw [getD_eq_getElem?_getD, getElem?_replicate]
  split <;> rfl

theorem Packed.freeSlot (packed : t.Packed) (room : t.count < t.capacity) :
    t.freeSlot = some t.count := by
  have bit {h : Nat} (below : h < t.capacity) : testBit t.freeBitmap h = decide (h < t.count) := by
    rw [packed.wf.marked h below, packed.used]
  unfold Table.freeSlot
  rw [packed.hint]
  refine firstClear_drop_eq room (packed.wf.word_lt room) ?_ 0 rfl ?_
  · rw [bit room]
    exact decide_eq_false (Nat.lt_irrefl _)
  · intro j earlier _
    rw [bit (Nat.lt_trans earlier room)]
    exact decide_eq_true earlier

theorem Packed.reserveOne (packed : t.Packed) (room : t.count < t.capacity) :
    (t.reserveOne t.count).Packed := by
  have vacant : Used (t.entry t.count) = false := by
    rw [packed.used]
    exact decide_eq_false (Nat.lt_irrefl _)
  have reserved := reserveOne_installed packed.wf room vacant
  refine ⟨reserved.wf, rfl, fun h => ?_⟩
  change _ = decide (h < t.count + 1)
  rw [reserved.entry]
  by_cases here : h = t.count
  · rw [if_pos here, here]
    simp [Used]
  · rw [if_neg here, packed.used]
    simp only [decide_eq_decide]
    omega

theorem Packed.reserveLoop (n : Nat) : ∀ {t : Table}, t.Packed → t.count + n ≤ t.capacity →
    (t.reserveLoop n).1.Packed ∧ (t.reserveLoop n).1.capacity = t.capacity ∧
      (t.reserveLoop n).2.length = n := by
  induction n with
  | zero => exact fun packed _ => ⟨packed, rfl, rfl⟩
  | succ n ih =>
    intro t packed room
    have below : t.count < t.capacity := by omega
    have same : (t.reserveOne t.count).capacity = t.capacity := capacity_put
    have more : (t.reserveOne t.count).count + n ≤ (t.reserveOne t.count).capacity := by
      rw [same]
      change t.count + 1 + n ≤ t.capacity
      omega
    obtain ⟨rest, capacity, length⟩ := ih (packed.reserveOne below) more
    rw [Table.reserveLoop, packed.freeSlot below]
    exact ⟨rest, capacity.trans same, congrArg (· + 1) length⟩

/-- One growth makes room for any reservation of a receive. -/
theorem Packed.makeRoom (packed : t.Packed) (large : initialCap ≤ t.capacity)
    (small : n ≤ initialCap) (below : t.count + n ≤ maxCap) :
    (t.makeRoom memoryEnough n).Packed ∧ initialCap ≤ (t.makeRoom memoryEnough n).capacity ∧
      t.count + n ≤ (t.makeRoom memoryEnough n).capacity := by
  have grows := makeRoom_grows memoryEnough t n
  have grown := grows.grown packed.wf
  obtain ⟨-, count, hint⟩ := grows.fields
  have fits : t.count ≤ t.capacity := by
    rw [packed.wf.counted]
    exact countP_le_length
  refine ⟨⟨grown.wf, ?_, fun h => by rw [grown.entry, packed.used, count]⟩,
    Nat.le_trans large grown.room, ?_⟩
  · rw [count, hint, packed.hint]
  · unfold Table.makeRoom Table.grow
    by_cases short : t.capacity - t.count < n
    · rw [if_pos short]
      by_cases full : maxCap ≤ t.capacity
      · rw [if_pos full]
        exact Nat.le_trans below full
      · rw [if_neg full]
        change t.count + n ≤ (t.entries ++ replicate _ Entry.zero).length
        rw [length_append, length_replicate]
        unfold growthFactor initialCap maxCap capacity at *
        omega
    · rw [if_neg short]
      omega

theorem Packed.reserve (packed : t.Packed) (large : initialCap ≤ t.capacity)
    (some : n ≠ 0) (small : n ≤ initialCap) (below : t.count + n ≤ maxCap) :
    (t.handleReserveMany memoryEnough n).1.Packed ∧
      initialCap ≤ (t.handleReserveMany memoryEnough n).1.capacity ∧
      (t.handleReserveMany memoryEnough n).1.count = t.count + n ∧
      (t.handleReserveMany memoryEnough n).1.maxHandles = t.maxHandles := by
  obtain ⟨roomPacked, roomLarge, roomBelow⟩ := packed.makeRoom large small below
  obtain ⟨roomQuota, roomCount, -⟩ := (makeRoom_grows memoryEnough t n).fields
  obtain ⟨quota, count⟩ := reserveLoop_count n (t.makeRoom memoryEnough n)
  obtain ⟨loopPacked, capacity, length⟩ :=
    roomPacked.reserveLoop n (by rw [roomCount]; exact roomBelow)
  have enough : ¬(t.makeRoom memoryEnough n).capacity - (t.makeRoom memoryEnough n).count < n := by
    omega
  unfold handleReserveMany
  rw [if_neg some]
  dsimp only
  rw [if_neg enough, if_neg (by rw [length]; exact Nat.lt_irrefl n)]
  exact ⟨loopPacked, by rw [capacity]; exact roomLarge, by rw [count, length, roomCount],
    quota.trans roomQuota⟩

/-- Receiving the largest messages, over and over. -/
theorem receives (k : Nat) (bounded : k ≤ 513) :
    ∃ t, RunsTo step always Table.create t ∧ t.Packed ∧ initialCap ≤ t.capacity ∧
      t.count = k * maxChannelHandles ∧ t.maxHandles = defaultQuota := by
  induction k with
  | zero =>
    refine ⟨Table.create, .refl, create_packed, ?_, rfl, rfl⟩
    exact Nat.le_of_eq length_replicate.symm
  | succ k ih =>
    obtain ⟨t, run, packed, large, count, quota⟩ := ih (by omega)
    have next := packed.reserve large (n := maxChannelHandles) (by decide) (by decide)
      (by rw [count]; unfold maxChannelHandles maxCap; omega)
    obtain ⟨packed', large', count', quota'⟩ := next
    refine ⟨t.after (.reserveMany memoryEnough maxChannelHandles), .tail run trivial rfl, packed',
      large', ?_, quota'.trans quota⟩
    refine count'.trans ?_
    rw [count, Nat.succ_mul]

/-- A receiver that never closes a handle goes past its quota: 513 messages with eight
handles each fill 4104 slots where 4096 are allowed. -/
theorem reservations_exceed_quota :
    ∃ t, RunsTo step always Table.create t ∧ t.maxHandles < t.entries.countP Used := by
  obtain ⟨t, run, packed, -, count, quota⟩ := receives 513 (Nat.le_refl _)
  refine ⟨t, run, ?_⟩
  rw [← packed.wf.counted, count, quota]
  decide

end A20OS.Handle.Table
