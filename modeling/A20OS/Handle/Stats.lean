import A20OS.Handle.Runs
import A20OS.Lib.Ledger

/-!
The statistic of open handles (`g_a20_objstats.handles`) over all tables.

An install adds one, a removal takes one off, and the end of a table takes one off for each
entry that is still open. Two other ways in which a handle comes and goes are not counted: the
commit of a reserved slot, by which a handle arrives in a message, and the sweeper, which
closes a handle that has run out.
-/

namespace A20OS.Handle

open Lib List

namespace Table

variable {t t' : Table} {k : ObjRef}

/-- How many slots are open, by the test of `a20_ht_destroy`. -/
def openSlots (t : Table) : Nat := t.entries.countP fun e => e.object ≠ 0 ∧ e.state ≠ .free

/-- The objects of the open slots. -/
def held (t : Table) : List ObjRef :=
  (t.entries.map fun e => ⟨e.object, e.type⟩).filter (·.object ≠ 0)

theorem WF.openSlots_eq (wf : t.WF) : t.openSlots = t.held.length := by
  rw [held, ← countP_eq_length_filter, List.countP_map]
  refine countP_congr fun e member => ?_
  obtain ⟨h, below, rfl⟩ := getElem_of_mem member
  rw [getElem_entries below, Function.comp, decide_eq_true_eq, decide_eq_true_eq]
  refine and_iff_left_of_imp fun owned free => owned (wf.object_eq_zero ?_)
  simp [Used, free]

theorem count_held (real : k.object ≠ 0) : t.held.count k = t.refs k := by
  rw [held, List.count_filter (by simpa using real), List.count, List.countP_map]
  refine countP_congr fun e _ => ?_
  rw [Function.comp, beq_iff_eq, names_iff]

/-- The open slots grow with the references that the entries own. -/
theorem openSlots_add (taken : List ObjRef) (wf : t.WF) (wf' : t'.WF)
    (real : ∀ k ∈ taken, k.object ≠ 0)
    (refs : ∀ k : ObjRef, k.object ≠ 0 → t'.refs k = t.refs k + taken.count k) :
    t'.openSlots = t.openSlots + taken.length := by
  have perm : t'.held.Perm (t.held ++ taken) := by
    refine perm_iff_count.mpr fun k => ?_
    rw [count_append]
    by_cases none : k.object = 0
    · have absent : ∀ t : Table, t.held.count k = 0 := fun t =>
        count_eq_zero_of_not_mem (by simp [held, none])
      rw [absent, absent, count_eq_zero_of_not_mem fun member => real k member none]
    · rw [count_held none, count_held none, refs k none]
  rw [wf.openSlots_eq, wf'.openSlots_eq, perm.length_eq, length_append]

/-! ### What the operations count -/

/-- What an operation adds to the statistic: an install that succeeds one, a removal minus
one. -/
def objstat (t : Table) : Op → Int
  | .remove h =>
      match (t.handleRemove h).2 with
      | .ok _ => -1
      | .error _ => 0
  | .commitReserved .. => 0
  | op => (t.handleFor op).toList.length

/-- The operation opens or closes no handle that it does not count. -/
def counts (t : Table) : Op → Bool
  | .sweepBatch now => (t.sweepBatch now).2.isEmpty
  | .commitReserved h object type rights limits =>
      (t.handleCommitReservedTemporal h object type rights limits).2.toOption.isNone
  | _ => true

theorem install_openSlots {object : Object} {type : ObjType} {rights : Rights} {limits : Limits}
    {done : Table × Except Status Nat} (wf : t.WF)
    (error : ∀ {t' : Table} {e : Status}, done = (t', .error e) → Grown t t')
    (ok : ∀ {t' : Table} {slot : Nat}, done = (t', .ok slot) →
      Installed t t' slot (.opened object type rights limits)) :
    (done.1.openSlots : Int) =
      t.openSlots + (done.2.toOption.map (·, (⟨object, type⟩ : ObjRef))).toList.length := by
  refine congrArg Nat.cast ?_
  obtain ⟨t', e | slot⟩ := done
  · exact openSlots_add [] wf (error rfl).wf nofun (error rfl).refs
  · refine openSlots_add [⟨object, type⟩] wf (ok rfl).wf
      (forall_mem_singleton.mpr object.2) fun k real => ?_
    rw [(ok rfl).refs k real, ite_names]
    rfl

theorem sweepOne_refs {now h : Nat} (below : h < t.capacity)
    (kept : (sweepOne now t h).2 = none) : (sweepOne now t h).1.refs k = t.refs k := by
  unfold sweepOne at kept ⊢
  split
  · rfl
  split
  · rfl
  split
  · simp_all
  · exact refs_put_of_names below rfl

theorem sweepBatch_refs (wf : t.WF) (now : Nat) :
    (t.sweepBatch now).2 = [] → (t.sweepBatch now).1.refs k = t.refs k := by
  refine (foldlRecOn (motive := fun acc => Decayed t acc.1 ∧
    (acc.2 = [] → acc.1.refs k = t.refs k)) (b := (t, [])) (range t.capacity)
    (sweepStep now) ⟨.refl wf, fun _ => rfl⟩ fun acc before h member => ?_).2
  obtain ⟨decayed, same⟩ := before
  have below : h < acc.1.capacity := decayed.room ▸ mem_range.mp member
  unfold sweepStep
  split
  · refine ⟨decayed.trans (sweepOne_decayed decayed.wf below), fun kept => ?_⟩
    obtain ⟨before, now⟩ := append_eq_nil_iff.mp kept
    exact (sweepOne_refs below (Option.toList_eq_nil_iff.mp now)).trans (same before)
  · exact ⟨decayed, same⟩

theorem after_openSlots (wf : t.WF) {op : Op} (counted : t.counts op = true) :
    ((t.after op).openSlots : Int) = t.openSlots + t.objstat op := by
  have same (refs : ∀ k : ObjRef, k.object ≠ 0 → (t.after op).refs k = t.refs k) :
      ((t.after op).openSlots : Int) = t.openSlots + 0 :=
    congrArg Nat.cast (openSlots_add [] wf (after_kept wf op).wf nofun refs)
  cases op with
  | install _ object _ _ | installTemporal _ object _ _ _ =>
    exact install_openSlots wf (handleInstallTemporal_error wf)
      (handleInstallTemporal_ok wf object.2)
  | installAt mem slot object type rights limits =>
    exact install_openSlots wf (handleInstallAtTemporal_error wf)
      fun installed => (handleInstallAtTemporal_ok wf object.2 installed).2
  | lookup now h expectedType requiredRights =>
    refine same fun k _ => of_result (P := fun t' => t'.refs k = t.refs k) (fun failed => ?_)
      fun found => (handleLookup_ok wf found).refs k
    rw [handleLookup_error failed]
  | remove h =>
    rw [after, objstat]
    rcases removed : t.handleRemove h with ⟨t', e | o⟩
    · rw [handleRemove_error removed]
      rfl
    have gone := handleRemove_ok wf removed
    have fewer : t.openSlots = t'.openSlots + 1 := by
      refine openSlots_add [o] gone.wf wf (forall_mem_singleton.mpr gone.live)
        fun k real => ?_
      simp only [gone.refs k real, count_singleton, beq_iff_eq]
    change (t'.openSlots : Int) = t.openSlots + -1
    omega
  | reserveMany mem n =>
    exact same fun k real => of_result (P := fun t' => t'.refs k = t.refs k)
      (fun failed => (handleReserveMany_error wf failed).2 k real)
      fun reserved => (handleReserveMany_ok wf reserved).1.refs k real
  | abortReserved handles => exact same (handleAbortReserved_aborted handles wf).refs
  | commitReserved h object type rights limits =>
    refine same fun k _ => of_result (P := fun t' => t'.refs k = t.refs k) (fun failed => ?_)
      fun committed => ?_
    · rw [handleCommitReservedTemporal_error failed]
    · rw [counts, committed] at counted
      cases counted
  | setTemporal h expiryTick remainingOps temporalFlags =>
    refine same fun k _ => ?_
    rcases handleSetTemporal_cases t h expiryTick remainingOps temporalFlags with
      same | ⟨below, -, -, written⟩
    · rw [after, same]
    · rw [after, written]
      exact refs_put_of_names below rfl
  | setLabel h label =>
    refine same fun k _ => ?_
    rcases handleSetLabel_cases t h label with same | ⟨below, -, -, written⟩
    · rw [after, same]
    · rw [after, written]
      exact refs_put_of_names below rfl
  | sweepBatch now => exact same fun k _ => sweepBatch_refs wf now (List.isEmpty_iff.mp counted)
  | grow mem =>
    refine same fun k real => ?_
    rw [after]
    cases grown : t.grow mem with
    | error e => rfl
    | ok t' => exact (grow_ok wf grown).refs k real

end Table

/-! ### The registry of tables -/

/-- `g_a20_ht_registry` and the statistic. -/
structure Registry where
  tables : List Table := []
  handles : BitVec 64 := 0

namespace Registry

inductive Label where
  | create
  | op (i : Nat) (op : Table.Op)
  | destroy (i : Nat)

def step (s : Registry) : Label → Option Registry
  | .create => some { s with tables := .create :: s.tables }
  | .op i op => (s.tables[i]?).map fun t =>
      ⟨s.tables.set i (t.after op), s.handles + .ofInt 64 (t.objstat op)⟩
  | .destroy i => (s.tables[i]?).map fun t =>
      ⟨s.tables.eraseIdx i, s.handles + .ofInt 64 (-t.openSlots)⟩

/-- No commit opens a handle and no sweep closes one. -/
def counts (s : Registry) : Label → Bool
  | .op i op => (s.tables[i]?).all (·.counts op)
  | _ => true

/-- The statistic is the number of open slots. -/
structure Inv (s : Registry) : Prop where
  wf : ∀ t ∈ s.tables, t.WF
  counted : s.handles = .ofInt 64 (total Table.openSlots s.tables)

variable {s s' : Registry}

theorem Inv.step {l : Label} (inv : s.Inv) (counted : s.counts l = true)
    (taken : s.step l = some s') : s'.Inv := by
  cases l with
  | create =>
    cases taken
    refine ⟨forall_mem_cons.mpr ⟨Table.create_wf, inv.wf⟩, ?_⟩
    rw [total_cons, show Table.create.openSlots = 0 by decide +kernel, Nat.zero_add]
    exact inv.counted
  | op i op =>
    obtain ⟨t, at_i, rfl⟩ := Option.map_eq_some_iff.mp taken
    have wf := inv.wf t (mem_of_getElem? at_i)
    rw [counts, at_i] at counted
    have law := Table.after_openSlots wf counted
    have moved := total_set (f := Table.openSlots) at_i (t.after op)
    refine ⟨fun t' member => ?_, ?_⟩
    · rcases mem_or_eq_of_mem_set member with old | rfl
      · exact inv.wf t' old
      · exact (Table.after_kept wf op).wf
    · rw [inv.counted, ← BitVec.ofInt_add]
      refine congrArg (BitVec.ofInt 64) ?_
      dsimp only
      omega
  | destroy i =>
    obtain ⟨t, at_i, rfl⟩ := Option.map_eq_some_iff.mp taken
    refine ⟨fun t' member => inv.wf t' (mem_of_mem_eraseIdx member), ?_⟩
    have moved := total_eraseIdx Table.openSlots at_i
    rw [inv.counted, ← BitVec.ofInt_add]
    refine congrArg (BitVec.ofInt 64) ?_
    dsimp only
    omega

/-- In every run in which no commit opens a handle and no sweep closes one, the statistic is
the number of open slots over all tables. -/
theorem run_handles (run : RunsTo step (fun s l => s.counts l = true) {} s) :
    s.handles = .ofNat 64 (total Table.openSlots s.tables) := by
  have inv : s.Inv := run.invariant Inv.step ⟨nofun, rfl⟩
  rw [inv.counted, BitVec.ofInt_natCast]

theorem run_handles_one : ∃ s, RunsTo step (fun s l => s.counts l = true) {} s ∧
    total Table.openSlots s.tables = 1 ∧
      s.handles = .ofNat 64 (total Table.openSlots s.tables) := by
  obtain ⟨s, run, slots⟩ : ∃ s, RunsTo step (fun s l => s.counts l = true) {} s ∧
      total Table.openSlots s.tables = 1 :=
    runsTo_of_execWhile [.create, .op 0 (Table.installFile ⟨5, Nat.succ_ne_zero _⟩)]
      (by decide +kernel)
  exact ⟨s, run, slots, run_handles run⟩

/-- A handle arrives in a reserved slot and is closed again: no slot is open, and the
statistic has wrapped around. -/
theorem committed_handle_uncounted : ∃ s, RunsTo step always {} s ∧
    total Table.openSlots s.tables = 0 ∧ s.handles = .allOnes 64 :=
  runsTo_of_exec [.create, .op 0 (.reserveMany Table.memoryEnough 1),
    .op 0 (.commitReserved 0 ⟨5, Nat.succ_ne_zero _⟩ .file Rights.read {}), .op 0 (.remove 0)]
    (by decide +kernel)

end Registry

end A20OS.Handle
