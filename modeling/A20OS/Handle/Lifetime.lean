import A20OS.Handle.Ops
import A20OS.Lib.Ledger

/-!
The lifetime of the objects behind handles (`kernel/ipc/a20_object.c`).

Handle entries, queued messages and running operations own references. Tasks, threads and debug
handles are plain integers without a count. Dropping a handle to an extension program releases
the program, but taking a reference to it counts nothing.

References that are taken and dropped where owners come and go keep the counts equal to the
owners (`released_balance`).
-/

namespace A20OS.Handle

open Lib

/-- The reference counts of the kernel objects. -/
abbrev Refs := Ledger ObjRef

/-- The types whose references `a20_object_ref` counts. -/
def refCounted : ObjType → Bool
  | .file | .directory | .pipeEndpoint | .device | .socket => true
  | .channelEndpoint | .eventQueue | .memory | .timer | .ns | .pager | .monitor | .vmar => true
  | .invalid | .task | .thread | .debug | .extProg => false

/-- The types with a count at all. -/
def hasCount (type : ObjType) : Bool := refCounted type || type = .extProg

/-- `a20_object_ref`. -/
def objectRef (refs : Refs) (k : ObjRef) : Refs :=
  if k.object ≠ 0 ∧ refCounted k.type then refs.credit k else refs

/-- `kep_prog_release`, called by process `pid`. -/
def kepProgRelease (owner : Nat → Nat) (pid : Nat) (refs : Refs) (k : ObjRef) : Refs :=
  if owner k.object = pid ∧ 0 < refs k then refs.debit k else refs

/-- `a20_object_release`. -/
def objectRelease (owner : Nat → Nat) (pid : Nat) (refs : Refs) (k : ObjRef) : Refs :=
  if k.object = 0 then refs
  else if k.type = .extProg then kepProgRelease owner pid refs k
  else if refCounted k.type then refs.debit k
  else refs

def refAll (refs : Refs) (ks : List ObjRef) : Refs := ks.foldl objectRef refs

def releaseAll (owner : Nat → Nat) (pid : Nat) (refs : Refs) (ks : List ObjRef) : Refs :=
  ks.foldl (objectRelease owner pid) refs

/-- A reference whose taking and dropping are each other's inverse. -/
structure Plain (k : ObjRef) : Prop where
  object : k.object ≠ 0
  type : k.type ≠ .extProg

/-- `pid` can drop the reference. -/
def Releasable (owner : Nat → Nat) (pid : Nat) (k : ObjRef) : Prop :=
  k.type = .extProg → owner k.object = pid

theorem Plain.releasable {k : ObjRef} (plain : Plain k) (owner : Nat → Nat) (pid : Nat) :
    Releasable owner pid k :=
  fun ext => absurd ext plain.type

section Counts

variable {owner : Nat → Nat} {pid : Nat} {k : ObjRef}

theorem objectRef_apply (refs : Refs) {j : ObjRef} (plain : Plain j) (count : hasCount k.type) :
    objectRef refs j k = refs k + ([j].count k : Int) := by
  unfold objectRef
  by_cases counted : j.object ≠ 0 ∧ refCounted j.type = true
  · rw [if_pos counted, Ledger.credit_apply]
  rw [if_neg counted]
  -- An uncounted type is not the type of `k`, which has a count.
  have other : k ≠ j := by
    rintro rfl
    have uncounted : refCounted k.type = false :=
      Bool.eq_false_iff.mpr fun h => counted ⟨plain.object, h⟩
    rw [hasCount, uncounted, Bool.false_or, decide_eq_true_eq] at count
    exact plain.type count
  rw [List.count_eq_zero_of_not_mem (by simpa using other)]
  exact (Int.add_zero _).symm

theorem count_first (j k : ObjRef) (ks : List ObjRef) :
    (j :: ks).count k = [j].count k + ks.count k := by
  rw [← List.singleton_append, List.count_append]

theorem refAll_apply (ks : List ObjRef) (count : hasCount k.type) :
    ∀ refs : Refs, (∀ j ∈ ks, Plain j) → refAll refs ks k = refs k + (ks.count k : Int) := by
  induction ks with
  | nil => exact fun refs _ => (Int.add_zero _).symm
  | cons j ks ih =>
    intro refs plain
    change refAll (objectRef refs j) ks k = _
    rw [ih _ fun i hi => plain i (.tail _ hi), objectRef_apply refs (plain j (.head _)) count,
      count_first j k ks, Int.natCast_add, Int.add_assoc]

theorem objectRelease_apply (refs : Refs) {j : ObjRef} (real : k.object ≠ 0)
    (count : hasCount k.type) (own : Releasable owner pid j) (enough : j = k → 0 < refs k) :
    objectRelease owner pid refs j k = refs k - ([j].count k : Int) := by
  by_cases same : j = k
  · subst same
    unfold objectRelease
    rw [if_neg real]
    by_cases ext : j.type = .extProg
    · rw [if_pos ext, kepProgRelease, if_pos ⟨own ext, enough rfl⟩, Ledger.debit_apply]
    · rw [if_neg ext]
      rw [hasCount, decide_eq_false ext, Bool.or_false] at count
      rw [if_pos count, Ledger.debit_apply]
  · have untouched : refs.debit j k = refs k := Function.update_of_ne (Ne.symm same) _ _
    rw [List.count_eq_zero_of_not_mem (by simpa using Ne.symm same)]
    unfold objectRelease kepProgRelease
    split_ifs
    · exact (Int.sub_zero _).symm
    · rw [untouched]; exact (Int.sub_zero _).symm
    · exact (Int.sub_zero _).symm
    · rw [untouched]; exact (Int.sub_zero _).symm
    · exact (Int.sub_zero _).symm

theorem releaseAll_apply (ks : List ObjRef) (real : k.object ≠ 0) (count : hasCount k.type) :
    ∀ refs : Refs, (∀ j ∈ ks, Releasable owner pid j) → (ks.count k : Int) ≤ refs k →
      releaseAll owner pid refs ks k = refs k - (ks.count k : Int) := by
  induction ks with
  | nil => exact fun refs _ _ => (Int.sub_zero _).symm
  | cons j ks ih =>
    intro refs own enough
    rw [count_first j k ks, Int.natCast_add] at enough ⊢
    have first : objectRelease owner pid refs j k = refs k - ([j].count k : Int) := by
      refine objectRelease_apply refs real count (own j (.head _)) ?_
      rintro rfl
      rw [List.count_singleton_self] at enough
      omega
    change releaseAll owner pid (objectRelease owner pid refs j) ks k = _
    rw [ih _ (fun i hi => own i (.tail _ hi)) (by rw [first]; omega), first]
    omega

/-- If the owners of an object change by the references taken and dropped, its count
stays equal to the owners. -/
theorem released_balance {refs : Refs} {taken dropped : List ObjRef} {elsewhere owned owned' : Nat}
    (real : k.object ≠ 0) (count : hasCount k.type) (plain : ∀ j ∈ taken, Plain j)
    (own : ∀ j ∈ dropped, Releasable owner pid j) (balanced : refs k = elsewhere + owned)
    (moved : owned' + dropped.count k = owned + taken.count k) :
    releaseAll owner pid (refAll refs taken) dropped k = elsewhere + owned' := by
  have credited := refAll_apply taken count refs plain
  rw [releaseAll_apply dropped real count _ own (by omega), credited, balanced]
  omega

end Counts

/-- The object a handle in transit names. -/
def HandleInfo.ref (info : HandleInfo) : ObjRef := ⟨info.object, info.type⟩

/-- The references that go with a list of handles in transit. -/
def refsOf (infos : List HandleInfo) : List ObjRef := infos.map HandleInfo.ref

end A20OS.Handle
