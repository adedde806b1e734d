import A20OS.Kep.Registry
import A20OS.Lib.Loop

/-!
How long a program slot stays in use.

All that matters of a slot is its program and how often it is attached (`view`). The references
of a program are its attachments and one more while its owner holds it.

Two functions do not keep to this. `kep_prog_release` called again takes a reference that
belongs to an attachment, and the slot is given up while it is attached. `kep_release_process`
and `kep_sweep_fds` do not drop the owner's reference, so the slots of a process that exits stay
in use unless it released its programs before.
-/

namespace A20OS.Kep.Registry

open Lib List

variable {pid : Int} {r : Registry} {slot : Slot} {progId : Int} {v : Prog × Nat}
  {f g : Prog × Nat → Prog × Nat} {r' : Registry}

/-! ### Views -/

/-- The program in a slot, and how often it is attached. -/
def view (r : Registry) (slot : Slot) : Prog × Nat := (r.progs slot, r.attachments slot)

/-- The references of a program cover its attachments, and an unused slot is not attached. -/
def Covered (v : Prog × Nat) : Prop := (v.2 : Int) ≤ v.1.refs ∧ (v.1.used = false → v.2 = 0)

theorem attachmentsIn_all : r.attachmentsIn (fun _ => true) slot = r.attachments slot := by
  unfold attachmentsIn attachments
  rw [filter_true]

theorem count_filter_ne (l : List Slot) (j : Slot) :
    (l.filter fun i => i ≠ slot).count j = if j = slot then 0 else l.count j := by
  by_cases same : j = slot
  · rw [if_pos same, count_eq_zero]
    simp [same]
  · rw [if_neg same]
    exact count_filter (by simpa using same)

/-- What a detach leaves of the attachments of a program. -/
theorem sum_unlink (sel : Point → Bool) (slot j : Slot) (points : List Point) :
    ((points.map fun pt => if sel pt then
        { pt with attached := pt.attached.filter fun i => i ≠ slot } else pt).map
          fun pt => pt.attached.count j).sum +
      (if j = slot then ((points.filter sel).map fun pt => pt.attached.count slot).sum else 0) =
      (points.map fun pt => pt.attached.count j).sum := by
  induction points with
  | nil => simp
  | cons pt points ih =>
    by_cases selected : sel pt = true
    · rw [filter_cons_of_pos selected]
      simp only [map_cons, sum_cons, if_pos selected, count_filter_ne]
      by_cases same : j = slot
      · subst same
        simp only [if_true] at ih ⊢
        omega
      · simp only [if_neg same] at ih ⊢
        omega
    · rw [filter_cons_of_neg selected]
      simp only [map_cons, sum_cons, if_neg selected]
      omega

theorem attachmentsIn_le (r : Registry) (sel : Point → Bool) (slot : Slot) :
    r.attachmentsIn sel slot ≤ r.attachments slot := by
  have sum := sum_unlink sel slot slot r.points
  rw [if_pos rfl] at sum
  unfold attachmentsIn attachments
  omega

theorem sum_pushAttached {pointId : Nat} {points : List Point} {pt : Point}
    (found : points.find? (fun pt => pt.id = pointId) = some pt) (j : Slot) :
    ((pushAttached slot pointId points).map fun pt => pt.attached.count j).sum =
      (points.map fun pt => pt.attached.count j).sum + if j = slot then 1 else 0 := by
  induction points with
  | nil => cases found
  | cons first points ih =>
    rw [pushAttached]
    by_cases here : first.id = pointId
    · rw [if_pos here]
      simp only [map_cons, sum_cons, count_cons]
      by_cases same : slot = j
      · simp only [same, beq_self_eq_true, if_true]
        omega
      · simp only [if_neg (Ne.symm same), beq_eq_false_iff_ne.mpr same]
        simp
    · rw [if_neg here]
      rw [find?_cons_of_neg (by simpa using here)] at found
      simp only [map_cons, sum_cons]
      rw [ih found]
      omega

/-! ### What each function does to the views -/

/-- `r'` differs from `r` in the view of one slot at most, of which it makes `f`. -/
def Changes (r r' : Registry) (slot : Slot) (f : Prog × Nat → Prog × Nat) : Prop :=
  ∀ j, r'.view j = if j = slot then f (r.view j) else r.view j

/-- What becomes of the view of the slot may be said in another way. -/
theorem Changes.to (changes : Changes r r' slot f) (same : f (r.view slot) = g (r.view slot)) :
    Changes r r' slot g := by
  intro j
  rw [changes j]
  split
  · next here => rw [here, same]
  · rfl

theorem Changes.unchanged (same : r.view slot = f (r.view slot)) : Changes r r slot f :=
  Changes.to (f := id) (fun _ => (ite_self _).symm) same

theorem Changes.trans {r'' : Registry} (first : Changes r r' slot f)
    (second : Changes r' r'' slot g) : Changes r r'' slot (fun v => g (f v)) := by
  intro j
  rw [second j, first j]
  split
  · rfl
  · rfl

theorem Changes.covered (changes : Changes r r' slot f) (old : ∀ j, Covered (r.view j))
    (new : Covered (f (r.view slot))) : ∀ j, Covered (r'.view j) := by
  intro j
  rw [changes j]
  split
  · next here => rw [here]; exact new
  · exact old j

section
variable (pid r slot)

theorem changes_setProg (p : Prog) : Changes r (r.setProg slot p) slot (fun v => (p, v.2)) := by
  intro j
  unfold view setProg
  by_cases same : j = slot
  · rw [if_pos same, same]
    simp [attachments]
  · simp [attachments, same]

theorem changes_unlink (sel : Point → Bool) : Changes r (r.unlink sel slot) slot fun v =>
      ({ v.1 with refs := v.1.refs - r.attachmentsIn sel slot },
        v.2 - r.attachmentsIn sel slot) := by
  intro j
  have sum := sum_unlink sel slot j r.points
  have attached : (r.unlink sel slot).attachments j =
      r.attachments j - if j = slot then r.attachmentsIn sel slot else 0 := by
    exact Nat.eq_sub_of_add_eq sum
  unfold view
  rw [attached]
  by_cases same : j = slot
  · rw [if_pos same, if_pos same, same]
    simp [unlink, setProg]
  · simp [unlink, setProg, same]

/-- All attachments go, each with its reference. -/
def detached (v : Prog × Nat) : Prog × Nat := ({ v.1 with refs := v.1.refs - v.2 }, 0)

/-- The slot is given up if no reference is left. -/
def retired (v : Prog × Nat) : Prog × Nat :=
  ({ v.1 with used := v.1.used && 0 < v.1.refs }, v.2)

theorem changes_unlink_all : Changes r (r.unlink (fun _ => true) slot) slot detached := by
  refine (changes_unlink r slot _).to ?_
  rw [attachmentsIn_all]
  unfold detached view
  rw [Nat.sub_self]

theorem changes_retire : Changes r (r.retire slot) slot retired := by
  unfold retire
  by_cases gone : (r.progs slot).refs ≤ 0
  · rw [if_pos gone]
    have none : ¬0 < (r.progs slot).refs := not_lt.mpr gone
    exact (changes_setProg r slot _).to (by simp [retired, view, none])
  · rw [if_neg gone]
    have some : 0 < (r.progs slot).refs := not_le.mp gone
    exact Changes.unchanged (by simp [retired, view, some])

/-- Whether an exit of the process reaches the program. -/
abbrev Exits (pid : Int) (p : Prog) : Prop := p.used = true ∧ p.ownerPid = pid

/-- Whether a sweep reaches the program: the descriptor it is tied to is closed. -/
abbrev Swept (pid : Int) (fdOpen : Int → Bool) (p : Prog) : Prop :=
  (p.used = true ∧ p.ownerPid = pid ∧ 0 ≤ p.ownerFd) ∧ ¬fdOpen p.ownerFd = true

/-- What a slot of an exiting process becomes. -/
def afterExit (pid : Int) (v : Prog × Nat) : Prog × Nat :=
  if Exits pid v.1 then retired (detached v) else v

def afterSweep (pid : Int) (fdOpen : Int → Bool) (v : Prog × Nat) : Prog × Nat :=
  if Swept pid fdOpen v.1 then
    retired ({ (detached v).1 with ownerFd := -1 }, 0)
  else v

theorem changes_releaseSlot : Changes r (releaseSlot pid r slot) slot (afterExit pid) := by
  unfold releaseSlot
  by_cases skip : ¬(r.progs slot).used = true ∨ (r.progs slot).ownerPid ≠ pid
  · rw [if_pos skip]
    apply Changes.unchanged
    have kept : ¬Exits pid (r.view slot).1 := fun reached =>
      skip.elim (fun unused => unused reached.1) (fun other => other reached.2)
    exact (if_neg kept).symm
  rw [if_neg skip]
  rw [not_or, not_not, not_not] at skip
  have reached : Exits pid (r.view slot).1 := skip
  exact ((changes_unlink_all r slot).trans (changes_retire _ slot)).to (if_pos reached).symm

theorem changes_sweepSlot (fdOpen : Int → Bool) :
    Changes r (sweepSlot pid fdOpen r slot) slot (afterSweep pid fdOpen) := by
  unfold sweepSlot
  by_cases skip : ¬(r.progs slot).used = true ∨ (r.progs slot).ownerPid ≠ pid ∨
      (r.progs slot).ownerFd < 0
  · rw [if_pos skip]
    apply Changes.unchanged
    have kept : ¬Swept pid fdOpen (r.view slot).1 := by
      rintro ⟨⟨used, owner, filed⟩, -⟩
      rcases skip with unused | other | unfiled
      · exact unused used
      · exact other owner
      · exact not_lt.mpr filed unfiled
    exact (if_neg kept).symm
  · rw [if_neg skip]
    rw [not_or, not_or, not_not, not_not, not_lt] at skip
    by_cases opened : fdOpen (r.progs slot).ownerFd = true
    · rw [if_pos opened]
      exact Changes.unchanged (if_neg fun reached => reached.2 opened).symm
    rw [if_neg opened]
    have reached : Swept pid fdOpen (r.view slot).1 := ⟨skip, opened⟩
    have changes := ((changes_unlink_all r slot).trans (changes_setProg _ slot
      { (r.unlink (fun _ => true) slot).progs slot with ownerFd := -1 })).trans
        (changes_retire _ slot)
    have whole := changes_unlink_all r slot slot
    rw [if_pos rfl] at whole
    refine changes.to ?_
    change retired (_, 0) = _
    rw [afterSweep, if_pos reached, ← whole]
    rfl

end

theorem foldl_view {pass : Registry → Slot → Registry} (changes : ∀ r i, Changes r (pass r i) i f)
    (r : Registry) (slot : Slot) :
    ((List.finRange kepMaxProgs).foldl pass r).view slot = f (r.view slot) := by
  have each := foldl_pointwise view pass (fun _ => f)
    (fun r i => by rw [changes r i i, if_pos rfl])
    (fun r i j other => by rw [changes r i j, if_neg other])
    (nodup_finRange kepMaxProgs) r slot
  rw [each, if_pos (mem_finRange slot)]

/-- The exit of a process changes every program of its own, and no other. -/
theorem releaseProcess_view (positive : 0 < pid) (r : Registry) (slot : Slot) :
    (r.releaseProcess pid).view slot = afterExit pid (r.view slot) := by
  unfold releaseProcess
  rw [if_neg (not_le.mpr positive), foldl_view (changes_releaseSlot pid)]

theorem sweepFds_view (fdOpen : Int → Bool) :
    (r.sweepFds pid fdOpen).view slot = afterSweep pid fdOpen (r.view slot) :=
  foldl_view (fun r slot => changes_sweepSlot pid r slot fdOpen) r slot

/-! ### The invariant -/

section
variable (covered : Covered v)
include covered

theorem Covered.retired : Covered (retired v) := by
  obtain ⟨refs, unused⟩ := covered
  refine ⟨refs, fun gone => ?_⟩
  rcases Bool.and_eq_false_iff.mp gone with not | none
  · exact unused not
  · have none : ¬0 < v.1.refs := of_decide_eq_false none
    change v.2 = 0
    omega

theorem Covered.detached : Covered (detached v) := by
  have := covered.1
  refine ⟨?_, fun _ => rfl⟩
  unfold Registry.detached
  dsimp only
  omega

theorem Covered.afterExit (pid : Int) : Covered (afterExit pid v) := by
  unfold Registry.afterExit
  split
  · exact covered.detached.retired
  · exact covered

theorem Covered.afterSweep (pid : Int)
    (fdOpen : Int → Bool) : Covered (afterSweep pid fdOpen v) := by
  unfold Registry.afterSweep
  split
  · apply Covered.retired
    exact covered.detached
  · exact covered

end

/-- Every slot is covered. -/
def Inv (r : Registry) : Prop := ∀ slot, Covered (r.view slot)

/-- Whether the owner of the program the release is for still holds its reference. -/
def ownerHolds (r : Registry) : Label → Bool
  | .release pid progId =>
      match r.progOwned pid progId with
      | none => true
      | some slot => (r.attachments slot : Int) < (r.progs slot).refs
  | _ => true

theorem inv_initial : Inv {} := fun _ => ⟨Int.le_refl _, fun _ => rfl⟩

theorem registerPoint_inv (inv : Inv r) (id nwords : Nat) : Inv (r.registerPoint id nwords).1 := by
  unfold registerPoint
  split
  · exact inv
  split
  · exact inv
  split
  · intro slot
    have fresh : Registry.view { r with points := r.points ++ [{ id, nwords }] } slot =
        r.view slot := by
      simp [view, attachments]
    rw [fresh]
    exact inv slot
  · exact inv

theorem progLoad_inv (inv : Inv r) (pid : Int) (copied : Bool)
    (insns : List Insn) : Inv (r.progLoad pid copied insns).1 := by
  unfold progLoad
  split
  · exact inv
  split
  · exact inv
  split
  · exact inv
  next maxCtxOff verified =>
  split
  · exact inv
  · next slot free =>
    -- the slot is unused, hence not attached, and its one reference is the owner's
    have unused : (r.progs slot).used = false := by simpa using find?_some free
    have alone : r.attachments slot = 0 := (inv slot).2 unused
    have covered := (changes_setProg r slot
      { used := true, id := r.nextId, ownerPid := pid, ownerFd := -1, insns
        maxCtxOff, refs := 1 }).covered inv ⟨by simp [view, alone], nofun⟩
    exact covered

theorem progById_used (found : r.progById progId = some slot) : (r.progs slot).used = true := by
  unfold progById at found
  split at found
  · cases found
  · have := find?_some found
    simp only [Bool.decide_and, Bool.and_eq_true, decide_eq_true_eq] at this
    exact this.1

theorem progOwned_used (found : r.progOwned pid progId = some slot) : (r.progs slot).used = true :=
  progById_used (Option.filter_eq_some_iff.mp found).1

theorem progAttach_inv (inv : Inv r) (pid progId : Int) (pointId : Nat)
    (mem : Bool) : Inv (r.progAttach pid progId pointId mem).1 := by
  unfold progAttach
  split
  · exact inv
  next slot owned =>
  split
  · exact inv
  next pt found =>
  split
  · exact inv
  split
  · exact inv
  have used := progOwned_used owned
  have changes : Changes r
      { r.setProg slot { r.progs slot with refs := (r.progs slot).refs + 1 } with
        points := pushAttached slot pointId r.points } slot
      (fun v => ({ v.1 with refs := v.1.refs + 1 }, v.2 + 1)) := by
    intro j
    have sum : _ = _ + if j = slot then 1 else 0 := sum_pushAttached found j
    unfold view attachments
    rw [sum]
    by_cases same : j = slot
    · rw [if_pos same, if_pos same, same]
      simp [setProg]
    · simp [setProg, same]
  have := (inv slot).1
  refine changes.covered inv ⟨?_, fun unused => ?_⟩
  · dsimp only
    omega
  · exact absurd (used.symm.trans unused) (by decide)

theorem progDetach_inv (inv : Inv r) (pid progId : Int) (pointId : Nat) :
    Inv (r.progDetach pid progId pointId).1 := by
  unfold progDetach
  split
  · exact inv
  · next slot owned =>
    have used := progOwned_used owned
    have some := attachmentsIn_le r (fun pt => pointId = 0 ∨ pt.id = pointId) slot
    have refs : (r.attachments slot : Int) ≤ (r.progs slot).refs := (inv slot).1
    refine (changes_unlink r slot _).covered inv ⟨?_, fun unused => ?_⟩
    · dsimp only [view]
      omega
    · exact absurd (used.symm.trans unused) (by decide)

theorem progSetFd_inv (inv : Inv r) (pid progId fd : Int) : Inv (r.progSetFd pid progId fd).1 := by
  unfold progSetFd
  split
  · exact inv
  · next slot found =>
    split
    · exact inv
    · exact (changes_setProg r slot _).covered inv (inv slot)

theorem progRelease_inv (inv : Inv r)
    (holds : r.ownerHolds (.release pid progId) = true) : Inv (r.progRelease pid progId).1 := by
  unfold progRelease
  split
  · exact inv
  · next slot found =>
    split
    · exact inv
    · next owner =>
      have owned : r.progOwned pid progId = some slot :=
        Option.filter_eq_some_iff.mpr ⟨found, by simpa using owner⟩
      simp only [ownerHolds, owned] at holds
      have more : (r.attachments slot : Int) < (r.progs slot).refs := of_decide_eq_true holds
      have positive : 0 < (r.progs slot).refs := by omega
      dsimp only
      rw [if_pos positive]
      refine (changes_setProg r slot _).covered inv ⟨?_, fun unused => ?_⟩
      · dsimp only [view]
        omega
      · -- the last reference went: there was no attachment left to hold one
        dsimp only [view] at unused ⊢
        rw [progById_used found, Bool.true_and] at unused
        have last : (r.progs slot).refs - 1 = 0 := by simpa using unused
        omega

theorem step_inv {l : Label} (inv : Inv r) (holds : r.ownerHolds l = true)
    (taken : r.step l = some r') : Inv r' := by
  cases l <;> obtain rfl := Option.some.inj taken
  case registerPoint id nwords =>
    exact registerPoint_inv inv id nwords
  case load pid copied insns =>
    exact progLoad_inv inv pid copied insns
  case attach pid progId pointId mem =>
    exact progAttach_inv inv pid progId pointId mem
  case detach pid progId pointId =>
    exact progDetach_inv inv pid progId pointId
  case setFd pid progId fd =>
    exact progSetFd_inv inv pid progId fd
  case sweep pid fdOpen =>
    intro slot
    rw [sweepFds_view]
    exact (inv slot).afterSweep pid fdOpen
  case release pid progId =>
    exact progRelease_inv inv holds
  case exit pid =>
    intro slot
    by_cases positive : 0 < pid
    · rw [releaseProcess_view positive]
      exact (inv slot).afterExit pid
    · unfold releaseProcess
      rw [if_pos (not_lt.mp positive)]
      exact inv slot

/-! ### Runs -/

theorem attachments_eq_zero : r.attachments slot = 0 ↔ ∀ pt ∈ r.points, slot ∉ pt.attached := by
  unfold attachments
  rw [List.sum_eq_zero_iff_forall_eq_nat]
  simp [count_eq_zero]

theorem Inv.attached_used (inv : Inv r) {pt : Point}
    (point : pt ∈ r.points) (attached : slot ∈ pt.attached) : (r.progs slot).used = true := by
  by_contra unused
  have none : r.attachments slot = 0 := (inv slot).2 (Bool.not_eq_true _ ▸ unused)
  exact attachments_eq_zero.mp none pt point attached

/-- The slots that stay in use over the exit of their owner are those with a reference
that no attachment holds. -/
theorem releaseProcess_used (positive : 0 < pid) (r : Registry) (slot : Slot) :
    Exits pid ((r.releaseProcess pid).progs slot) ↔
      Exits pid (r.progs slot) ∧ (r.attachments slot : Int) < (r.progs slot).refs := by
  have seen : (r.releaseProcess pid).progs slot = (afterExit pid (r.view slot)).1 :=
    congrArg Prod.fst (releaseProcess_view positive r slot)
  rw [seen]
  unfold afterExit
  by_cases reached : Exits pid (r.view slot).1
  · have left : 0 < (r.progs slot).refs - r.attachments slot ↔
        (r.attachments slot : Int) < (r.progs slot).refs := by omega
    rw [if_pos reached, ← left]
    constructor
    · rintro ⟨used, owner⟩
      exact ⟨reached, of_decide_eq_true (Bool.and_eq_true_iff.mp used).2⟩
    · rintro ⟨⟨used, owner⟩, more⟩
      exact ⟨Bool.and_eq_true_iff.mpr ⟨used, decide_eq_true more⟩, owner⟩
  · rw [if_neg reached]
    exact ⟨fun after => absurd after reached, fun before => absurd before.1 reached⟩

/-- After the exit of a process none of its programs is attached. -/
theorem releaseProcess_detached (inv : Inv r) (positive : 0 < pid)
    (owner : ((r.releaseProcess pid).progs slot).ownerPid = pid) :
    (r.releaseProcess pid).attachments slot = 0 := by
  have whole := releaseProcess_view positive r slot
  by_cases reached : Exits pid (r.view slot).1
  · rw [afterExit, if_pos reached] at whole
    exact congrArg Prod.snd whole
  -- a slot the exit skips although it names the process is not in use
  rw [afterExit, if_neg reached] at whole
  obtain ⟨prog, attached⟩ := Prod.mk.inj whole
  rw [attached]
  rw [prog] at owner
  apply (inv slot).2
  have unused : ¬(r.progs slot).used = true := fun used => reached ⟨used, owner⟩
  exact Bool.not_eq_true _ ▸ unused

/-- In every run in which a program is only released while its owner holds a reference to
it, no point's list has a slot that a load could take, and an exit leaves no program of the
process attached; it frees the slots of the process exactly if the process had
given up its references before. -/
theorem run_lifetime {r : Registry}
    (run : RunsTo step (fun r l => r.ownerHolds l = true) {} r) :
    (∀ slot, ∀ pt ∈ r.points, slot ∈ pt.attached →
      (r.progs slot).used = true ∧ r.freeSlot ≠ some slot) ∧
    ∀ pid, 0 < pid →
      (∀ slot, ((r.releaseProcess pid).progs slot).ownerPid = pid →
        ∀ pt ∈ (r.releaseProcess pid).points, slot ∉ pt.attached) ∧
      ((∀ slot, ¬Exits pid ((r.releaseProcess pid).progs slot)) ↔
        ∀ slot, Exits pid (r.progs slot) → (r.progs slot).refs ≤ r.attachments slot) := by
  have inv : Inv r := run.invariant step_inv inv_initial
  refine ⟨fun slot pt point attached => ?_, fun pid positive => ⟨fun slot owner => ?_, ?_⟩⟩
  · have used := inv.attached_used point attached
    refine ⟨used, fun free => ?_⟩
    have unused : (r.progs slot).used = false := by simpa using find?_some free
    exact absurd (used.symm.trans unused) (by decide)
  · exact attachments_eq_zero.mp (releaseProcess_detached inv positive owner)
  · simp only [releaseProcess_used positive, not_and, not_lt]

/-- A program that returns the first word of its context. -/
def firstWord : List Insn := [⟨0x79, 0, 1, 0, 0⟩, ⟨0x95, 0, 0, 0, 0⟩]

def firstSlot : Slot := ⟨0, by decide⟩

/-- Load, attach and release a program, then exit: the attachment kept the slot in use up to
the exit, which frees it. -/
theorem run_lifetime_released :
    ∃ r : Registry, RunsTo step (fun r l => r.ownerHolds l = true) {} r ∧
      (r.progs firstSlot).used = true ∧ r.attachments firstSlot = 1 ∧ r.freeSlot ≠ some firstSlot ∧
      ¬Exits 7 ((r.releaseProcess 7).progs firstSlot) := by
  obtain ⟨r, run, used, attached, points, released⟩ : ∃ r : Registry,
      RunsTo step (fun r l => r.ownerHolds l = true) {} r ∧ (r.progs firstSlot).used = true ∧
        r.attachments firstSlot = 1 ∧ r.points.map (·.attached) = [[firstSlot]] ∧
        ∀ i, (r.progs i).refs ≤ r.attachments i :=
    runsTo_of_execWhile
      [.load 7 true firstWord, .registerPoint 3 4, .attach 7 1 3 true, .release 7 1]
      (by decide +kernel)
  obtain ⟨lists, exits⟩ := run_lifetime run
  obtain ⟨pt, point, list⟩ : ∃ pt ∈ r.points, pt.attached = [firstSlot] :=
    mem_map.mp (points ▸ mem_singleton_self _)
  refine ⟨r, run, used, attached, (lists firstSlot pt point (by simp [list])).2, ?_⟩
  exact ((exits 7 (by decide)).2.mpr fun slot _ => released slot) firstSlot

/-- Two releases of an attached program free its slot while it is attached, and a process
that exits with a program it never released leaves the slot in use. -/
theorem released_twice_or_never :
    (∃ r, RunsTo step always {} r ∧ (r.progs firstSlot).used = false ∧ r.attachments firstSlot = 1 ∧
      r.freeSlot = some firstSlot) ∧
    ∃ r, RunsTo step always {} r ∧ Exits 7 ((r.releaseProcess 7).progs firstSlot) := by
  constructor
  · exact runsTo_of_exec [.load 7 true firstWord, .registerPoint 3 4, .attach 7 1 3 true,
      .release 7 1, .release 7 1] (by decide +kernel)
  · exact runsTo_of_exec [.load 7 true firstWord] (by decide +kernel)

end A20OS.Kep.Registry
