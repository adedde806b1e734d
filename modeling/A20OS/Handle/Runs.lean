import A20OS.Handle.Temporal
import A20OS.Lib.Machine

/-!
Runs of a handle table.

Whatever the sequence of operations, the bitmap, the count and the entries agree (`Table.WF`),
and an open handle keeps its object until its slot is freed (`Kept`). A handle value is the
index of its slot, without a generation: once a slot is freed its value may come back for
another object.
-/

namespace A20OS.Handle.Table

open Lib List

variable {h : Nat} {t t' : Table} {mem : Nat → Bool} {type : ObjType} {rights : Rights}
  {limits : Limits} {handles : List Nat}

/-- An object to install. Every caller passes one it holds a reference to. -/
abbrev Object := { object : Nat // object ≠ 0 }

/-- The operations on a table. `mem` says which allocations succeed and `now` is the
tick at which the operation runs. -/
inductive Op where
  | install (mem : Nat → Bool) (object : Object) (type : ObjType) (rights : Rights)
  | installTemporal (mem : Nat → Bool) (object : Object) (type : ObjType) (rights : Rights)
      (limits : Limits)
  | installAt (mem : Nat → Bool) (slot : Nat) (object : Object) (type : ObjType)
      (rights : Rights) (limits : Limits)
  | lookup (now h : Nat) (expectedType : ObjType) (requiredRights : Rights)
  | remove (h : Nat)
  | reserveMany (mem : Nat → Bool) (n : Nat)
  | abortReserved (handles : List Nat)
  | commitReserved (h : Nat) (object : Object) (type : ObjType) (rights : Rights)
      (limits : Limits)
  | setTemporal (h expiryTick remainingOps : Nat) (temporalFlags : TemporalFlags)
  | setLabel (h label : Nat)
  | sweepBatch (now : Nat)
  | grow (mem : Nat → Bool)

/-- The table after an operation, also where the operation fails. -/
def after (t : Table) : Op → Table
  | .install mem object type rights => (t.handleInstall mem object type rights).1
  | .installTemporal mem object type rights limits =>
      (t.handleInstallTemporal mem object type rights limits).1
  | .installAt mem slot object type rights limits =>
      (t.handleInstallAtTemporal mem slot object type rights limits).1
  | .lookup now h expectedType requiredRights =>
      (t.handleLookup now h expectedType requiredRights).1
  | .remove h => (t.handleRemove h).1
  | .reserveMany mem n => (t.handleReserveMany mem n).1
  | .abortReserved handles => t.handleAbortReserved handles
  | .commitReserved h object type rights limits =>
      (t.handleCommitReservedTemporal h object type rights limits).1
  | .setTemporal h expiryTick remainingOps temporalFlags =>
      (t.handleSetTemporal h expiryTick remainingOps temporalFlags).1
  | .setLabel h label => (t.handleSetLabel h label).1
  | .sweepBatch now => (t.sweepBatch now).1
  | .grow mem =>
      match t.grow mem with
      | .ok t => t
      | .error _ => t

def step (t : Table) (op : Op) : Option Table := some (t.after op)

/-- The handle that an operation makes for an object, and the object. -/
def handleFor (t : Table) : Op → Option (Nat × ObjRef)
  | .install mem object type rights =>
      (t.handleInstall mem object type rights).2.toOption.map (·, ⟨object, type⟩)
  | .installTemporal mem object type rights limits =>
      (t.handleInstallTemporal mem object type rights limits).2.toOption.map (·, ⟨object, type⟩)
  | .installAt mem slot object type rights limits =>
      (t.handleInstallAtTemporal mem slot object type rights limits).2.toOption.map
        (·, ⟨object, type⟩)
  | .commitReserved h object type rights limits =>
      (t.handleCommitReservedTemporal h object type rights limits).2.toOption.map
        fun _ => (h, ⟨object, type⟩)
  | _ => none

/-! ### What every operation keeps -/

/-- `t'` is well formed, and an open handle of `t` still has its object or is free. -/
structure Kept (t t' : Table) : Prop where
  wf : t'.WF
  opened : ∀ h, (t.entry h).IsOpen → (t.entry h).SameObject (t'.entry h) ∨ Used (t'.entry h) = false

theorem Kept.of_entry (wf : t'.WF)
    (entry : ∀ h, (t.entry h).IsOpen → t'.entry h = t.entry h) : Kept t t' :=
  ⟨wf, fun h isOpen => .inl (entry h isOpen ▸ isOpen.refl)⟩

theorem Kept.refl (wf : t.WF) : Kept t t := .of_entry wf fun _ _ => rfl

theorem Decayed.kept (decayed : Decayed t t') : Kept t t' :=
  ⟨decayed.wf, decayed.opened⟩

theorem Grown.kept (grown : Grown t t') : Kept t t' :=
  .of_entry grown.wf fun h _ => grown.entry h

theorem Installed.kept {slot : Nat} {e : Entry} (installed : Installed t t' slot e) :
    Kept t t' := by
  refine .of_entry installed.wf fun h isOpen => ?_
  have other : h ≠ slot := by
    rintro rfl
    exact not_isOpen_of_unused installed.fresh isOpen
  rw [installed.entry, if_neg other]

theorem handleLookup_kept (wf : t.WF) {now : Nat} :
    Kept t (t.handleLookup now h type rights).1 := by
  unfold handleLookup
  cases passed : t.lookupDenied now h type rights with
  | some e => exact .refl wf
  | none =>
    have inside := (lookupDenied_none passed).1
    refine ⟨wf.put inside (used_charged _) (owns_charged (wf.owns h)), fun j isOpen => .inl ?_⟩
    rw [entry_put inside]
    by_cases here : j = h
    · rw [if_pos here, ← here]
      have state : (t.entry j).charged.IsOpen := by
        unfold Entry.IsOpen
        rw [(charged_kept _).1]
        exact isOpen
      obtain ⟨-, object, type⟩ := charged_kept (t.entry j)
      exact ⟨state, object, type⟩
    · rw [if_neg here]
      exact isOpen.refl

theorem handleRemove_kept (wf : t.WF) : Kept t (t.handleRemove h).1 := by
  refine of_result (fun failed => ?_) fun removed => ?_
  · rw [handleRemove_error failed]
    exact .refl wf
  refine ⟨(handleRemove_ok wf removed).wf, fun j isOpen => ?_⟩
  by_cases here : j = h
  · right
    obtain ⟨live, ⟨⟩⟩ | ⟨-, ⟨⟩⟩ := ite_eq_iff.mp removed
    rw [entry_vacate, entry_put live.1, if_pos here]
    rfl
  · left
    rw [(handleRemove_ok wf removed).others j here]
    exact isOpen.refl

theorem Reserved.kept (reserved : Reserved t t' handles) : Kept t t' := by
  refine .of_entry reserved.wf fun h isOpen => reserved.others h fun member => ?_
  exact not_isOpen_of_unused (reserved.fresh h member) isOpen

theorem not_isOpen_of_closing {e : Entry} (closing : e.state = .closing) : ¬e.IsOpen := by
  intro isOpen
  unfold Entry.IsOpen at isOpen
  rw [closing] at isOpen
  rcases isOpen with active | expired
  · cases active
  · cases expired

theorem abortOne_entry {j : Nat} (isOpen : (t.entry j).IsOpen) (h : Nat) :
    (t.abortOne h).entry j = t.entry j := by
  unfold abortOne
  by_cases skip : t.capacity ≤ h ∨ (t.entry h).state ≠ .closing ∨ (t.entry h).object ≠ 0
  · rw [if_pos skip]
  rw [if_neg skip]
  obtain ⟨below, closing, -⟩ := pending_iff.mp skip
  have other : j ≠ h := by
    rintro rfl
    exact not_isOpen_of_closing closing isOpen
  rw [entry_vacate, entry_put below, if_neg other]

theorem handleAbortReserved_entry (handles : List Nat) {j : Nat} (isOpen : (t.entry j).IsOpen) :
    (t.handleAbortReserved handles).entry j = t.entry j := by
  refine foldlRecOn (motive := fun g => g.entry j = t.entry j) handles abortOne rfl ?_
  intro g same h _
  exact (abortOne_entry (same ▸ isOpen) h).trans same

variable {ok : Table → Op → Prop} {op : Op}

section
variable (wf : t.WF)
include wf

theorem handleAbortReserved_kept : Kept t (t.handleAbortReserved handles) :=
  .of_entry (handleAbortReserved_aborted handles wf).wf fun _ isOpen =>
    handleAbortReserved_entry handles isOpen

theorem handleReserveMany_kept {n : Nat} : Kept t (t.handleReserveMany mem n).1 := by
  cases done : t.handleReserveMany mem n with
  | mk t' result =>
    obtain ⟨g, grows, ⟨rfl, -⟩ | ⟨r, handles, looped, ended⟩⟩ := handleReserveMany_cases done
    · exact (grows.grown wf).kept
    have grown := grows.grown wf
    have reserved := grown.reserved_trans (reserveLoop_reserved n grown.wf looped)
    rcases ended with ⟨rfl, -⟩ | ⟨-, rfl, -⟩
    · refine .of_entry (handleAbortReserved_aborted _ reserved.wf).wf fun h isOpen => ?_
      have same : r.entry h = t.entry h := reserved.others h fun member =>
        not_isOpen_of_unused (reserved.fresh h member) isOpen
      exact (handleAbortReserved_entry _ (same ▸ isOpen)).trans same
    · exact reserved.kept

variable {object : Object}

theorem handleCommitReservedTemporal_kept :
    Kept t (t.handleCommitReservedTemporal h object type rights limits).1 := by
  refine of_result (fun failed => ?_) fun committed => ?_
  · rw [handleCommitReservedTemporal_error failed]
    exact .refl wf
  have filled := handleCommitReservedTemporal_ok wf object.2 committed
  refine .of_entry filled.wf fun j isOpen => ?_
  have other : j ≠ h := by
    rintro rfl
    obtain ⟨-, ⟨⟩⟩ | ⟨guard, -⟩ := ite_eq_iff.mp committed
    exact not_isOpen_of_closing (pending_iff.mp guard).closing isOpen
  rw [filled.entry, if_neg other]

theorem handleInstallTemporal_kept :
    Kept t (t.handleInstallTemporal mem object type rights limits).1 :=
  of_result (fun failed => (handleInstallTemporal_error wf failed).kept)
    fun installed => (handleInstallTemporal_ok wf object.2 installed).kept

theorem handleInstallAtTemporal_kept {slot : Nat} :
    Kept t (t.handleInstallAtTemporal mem slot object type rights limits).1 :=
  of_result (fun failed => (handleInstallAtTemporal_error wf failed).kept)
    fun installed => (handleInstallAtTemporal_ok wf object.2 installed).2.kept

theorem after_kept (op : Op) : Kept t (t.after op) := by
  cases op with
  | install | installTemporal => exact handleInstallTemporal_kept wf
  | installAt => exact handleInstallAtTemporal_kept wf
  | lookup => exact handleLookup_kept wf
  | remove => exact handleRemove_kept wf
  | reserveMany => exact handleReserveMany_kept wf
  | abortReserved => exact handleAbortReserved_kept wf
  | commitReserved => exact handleCommitReservedTemporal_kept wf
  | setTemporal => exact (handleSetTemporal_decayed wf).kept
  | setLabel => exact (handleSetLabel_decayed wf).kept
  | sweepBatch => exact (sweepBatch_decayed wf).kept
  | grow mem =>
    rw [after]
    cases grown : t.grow mem with
    | error e => exact .refl wf
    | ok t' => exact (grow_ok wf grown).kept

theorem step_kept (taken : t.step op = some t') : Kept t t' := by
  cases taken
  exact after_kept wf op

theorem run_wf (run : RunsTo step ok t t') : t'.WF :=
  run.invariant (fun wf _ taken => (step_kept wf taken).wf) wf

end

/-- What a table starts with and every operation that meets the condition keeps. -/
theorem run_keeps {P : Table → Prop} (start : P Table.create)
    (keeps : ∀ {t op}, t.WF → P t → ok t op → P (t.after op))
    (run : RunsTo step ok Table.create t) :
    t.WF ∧ P t :=
  RunsTo.invariant (P := fun s => s.WF ∧ P s)
    (fun inv meets taken => by
      cases taken
      exact ⟨(after_kept inv.1 _).wf, keeps inv.1 inv.2 meets⟩)
    run ⟨create_wf, start⟩

/-! ### The object of a handle -/

/-- The slot is in use whenever a step starts. -/
def StaysUsed (h : Nat) (t : Table) (_ : Op) : Prop := Used (t.entry h) = true

section
variable (wf : t.WF)
include wf

/-- While its slot stays in use, a handle keeps its object. -/
theorem run_sameObject (isOpen : (t.entry h).IsOpen) (run : RunsTo step (StaysUsed h) t t') :
    t'.WF ∧ ((t.entry h).SameObject (t'.entry h) ∨ Used (t'.entry h) = false) := by
  refine RunsTo.invariant (P := fun s => s.WF ∧ ((t.entry h).SameObject (s.entry h) ∨
    Used (s.entry h) = false)) ?_ run ⟨wf, .inl isOpen.refl⟩
  rintro s s' op ⟨swf, same | unused⟩ used taken
  · have kept := step_kept swf taken
    refine ⟨kept.wf, ?_⟩
    rcases kept.opened h same.isOpen with next | freed
    · exact .inl (same.trans next)
    · exact .inr freed
  · rw [StaysUsed, unused] at used
    cases used

omit wf in
theorem opened_openOn {object : Nat} :
    Entry.OpenOn (.opened object type rights limits) ⟨object, type⟩ := ⟨.inl rfl, rfl, rfl⟩

variable {o : ObjRef}

theorem handleInstallTemporal_openOn {object : Object}
    (made : (t.handleInstallTemporal mem object type rights limits).2.toOption.map
      (·, (⟨object, type⟩ : ObjRef)) = some (h, o)) :
    Entry.OpenOn ((t.handleInstallTemporal mem object type rights limits).1.entry h) o := by
  obtain ⟨slot, installed, ⟨⟩⟩ := ok_of_made made
  rw [(handleInstallTemporal_ok wf object.2 installed).entry, if_pos rfl]
  exact opened_openOn

theorem handleFor_openOn (made : t.handleFor op = some (h, o)) :
    Entry.OpenOn ((t.after op).entry h) o := by
  cases op with
  | install | installTemporal => exact handleInstallTemporal_openOn wf made
  | installAt mem slot object type rights limits =>
    obtain ⟨slot, installed, ⟨⟩⟩ := ok_of_made made
    rw [after, (handleInstallAtTemporal_ok wf object.2 installed).2.entry, if_pos rfl]
    exact opened_openOn
  | commitReserved j object type rights limits =>
    obtain ⟨u, committed, ⟨⟩⟩ := ok_of_made made
    rw [after, (handleCommitReservedTemporal_ok wf object.2 committed).entry, if_pos rfl]
    exact opened_openOn
  | _ => cases made

/-- A handle made for an object resolves to it while its slot stays in use. -/
theorem handleFor_resolves {t'' : Table} (made : t.handleFor op = some (h, o))
    (run : RunsTo step (StaysUsed h) (t.after op) t') {now : Nat} {expectedType : ObjType}
    {requiredRights : Rights} {out : Entry}
    (found : t'.handleLookup now h expectedType requiredRights = (t'', .ok out)) :
    out.object = o.object ∧ out.type = o.type := by
  obtain ⟨isOpen, object, type⟩ := handleFor_openOn wf made
  obtain ⟨wf', kept⟩ := run_sameObject (after_kept wf op).wf isOpen run
  have result := handleLookup_ok wf' found
  rcases kept with same | unused
  · exact ⟨(result.copied.object.trans same.object).trans object,
      (result.copied.type.trans same.type).trans type⟩
  · exact absurd (wf'.object_eq_zero unused) result.live

/-! ### The representation invariant, spelled out -/

theorem WF.count_eq_setBits : t.count = setBits t.freeBitmap t.capacity := by
  have slots : t.entries = (range t.capacity).map t.entry := by
    refine ext_getElem (by simp) fun h below _ => ?_
    rw [getElem_entries below, getElem_map, getElem_range]
  rw [wf.counted, setBits]
  nth_rewrite 1 [slots]
  rw [countP_map]
  refine countP_congr fun h member => ?_
  rw [wf.marked h (mem_range.mp member)]
  rfl

end

/-- In every run of a table that starts out empty: the bit of a slot is set exactly when
the slot is not free, the count is the number of set bits and within the capacity, open
entries have an object and free or reserved ones have none, and a handle resolves to the
object it was made for as long as its slot has stayed in use. -/
theorem run_representation {t : Table} (run : RunsTo step always Table.create t) :
    (∀ h < t.capacity, testBit t.freeBitmap h = true ↔ (t.entry h).state ≠ .free) ∧
      t.count = setBits t.freeBitmap t.capacity ∧ t.count ≤ t.capacity ∧
      (∀ h, (t.entry h).state = .active ∨ (t.entry h).state = .expired → (t.entry h).object ≠ 0) ∧
      (∀ h, (t.entry h).state = .free ∨ (t.entry h).state = .closing → (t.entry h).object = 0) ∧
      ∀ {op : Op} {h : Nat} {o : ObjRef}, t.handleFor op = some (h, o) →
        ∀ {t' t'' : Table}, RunsTo step (StaysUsed h) (t.after op) t' →
        ∀ {now : Nat} {expectedType : ObjType} {requiredRights : Rights} {out : Entry},
          t'.handleLookup now h expectedType requiredRights = (t'', .ok out) →
          out.object = o.object ∧ out.type = o.type := by
  have wf : t.WF := run_wf create_wf run
  refine ⟨?_, wf.count_eq_setBits, ?_, fun h => (wf.owns h).mpr, ?_, ?_⟩
  · intro h below
    rw [wf.marked h below, Used, decide_eq_true_iff]
  · rw [wf.count_eq_setBits]
    exact setBits_le _
  · rintro h (free | closing)
    · exact wf.object_eq_zero (by simp [Used, free])
    · by_contra owned
      exact not_isOpen_of_closing closing ((wf.owns h).mp owned)
  · intro op h o made t' t'' later now expectedType requiredRights out found
    exact handleFor_resolves wf made later found

/-- Every allocation succeeds. -/
def memoryEnough (_ : Nat) : Bool := true

/-- The plain install of an object with the right to read it. -/
def installFile (object : Object) : Op := .install memoryEnough object .file Rights.read

theorem run_representation_three :
    ∃ t, RunsTo step always Table.create t ∧ t.count = 3 ∧
      t.count = setBits t.freeBitmap t.capacity ∧
      (∀ h, (t.entry h).state = .free ∨ (t.entry h).state = .closing → (t.entry h).object = 0) ∧
      ∀ h o, t.handleFor (installFile ⟨7, by decide⟩) = some (h, o) →
        ∀ now t'' out, (t.after (installFile ⟨7, by decide⟩)).handleLookup now h .file 0 =
          (t'', .ok out) → out.object = o.object := by
  obtain ⟨t, run, count⟩ : ∃ t, RunsTo step always Table.create t ∧ t.count = 3 :=
    runsTo_of_exec [installFile ⟨5, Nat.succ_ne_zero _⟩, .reserveMany memoryEnough 2]
      (by decide +kernel)
  obtain ⟨-, bits, -, -, vacant, resolves⟩ := run_representation run
  exact ⟨t, run, count, bits, vacant, fun h o made now t'' out found =>
    (resolves made .refl found).1⟩

/-- A handle value is only a slot number: the value that was returned for object 5 comes
back for object 6 once it was closed, and resolves to that. -/
theorem handle_value_reused :
    ∃ t, RunsTo step always Table.create t ∧
      Table.create.handleFor (installFile ⟨5, by decide⟩) = some (0, ⟨5, .file⟩) ∧
      ∃ t' out, t.handleLookup 0 0 .file Rights.read = (t', .ok out) ∧ out.object = 6 := by
  obtain ⟨t, run, resolved⟩ : ∃ t, RunsTo step always Table.create t ∧
      (t.handleLookup 0 0 .file Rights.read).2.toOption.map Entry.object = some 6 :=
    runsTo_of_exec [installFile ⟨5, Nat.succ_ne_zero _⟩, .remove 0,
      installFile ⟨6, Nat.succ_ne_zero _⟩]
      (by decide +kernel)
  obtain ⟨out, found, object⟩ := ok_of_made resolved
  exact ⟨t, run, by decide +kernel, _, out, found, object⟩

end A20OS.Handle.Table
