import A20OS.Lib.DList
import A20OS.Mm.Vma

/-!
The mapping list, and what is mapped where.

`Linked` says that a list of records is what the links lead to, `Ordered` that the ranges follow
one another, and `Assigns` what the mapping at an address assigns to it: protection, object and
place in it. Each edit of the links is a replacement in the list, which keeps the order if the new
mappings reach no further than the old ones (`Ordered.replace`).
-/

namespace A20OS.Mm

open Lib Function List

/-- A mapping list: the records and what is in them. -/
abbrev Maps := List (Nat × MmSeg)

variable {m : MmStruct} {maps before after : Maps} {v t newv x a b start : Nat} {s s' : MmSeg}

/-! ### Links -/

namespace MmStruct

variable {p q : Option Nat} {y : Nat}

@[simp] theorem setPrev_prev : (m.setPrev p q).prev y = if p = some y then q else m.prev y := by
  cases p with
  | none => rfl
  | some v => simp [setPrev, update_apply, eq_comm]

@[simp] theorem setPrev_next : (m.setPrev p q).next = m.next := by cases p <;> rfl
@[simp] theorem setPrev_mmap : (m.setPrev p q).mmap = m.mmap := by cases p <;> rfl
@[simp] theorem setPrev_seg : (m.setPrev p q).seg = m.seg := by cases p <;> rfl
@[simp] theorem setPrev_state : (m.setPrev p q).segIndexState = m.segIndexState := by
  cases p <;> rfl

@[simp] theorem setNext_next : (m.setNext p q).next y = if p = some y then q else m.next y := by
  cases p with
  | none => rfl
  | some v => simp [setNext, update_apply, eq_comm]

@[simp] theorem setNext_prev : (m.setNext p q).prev = m.prev := by cases p <;> rfl
@[simp] theorem setNext_seg : (m.setNext p q).seg = m.seg := by cases p <;> rfl
@[simp] theorem setNext_state : (m.setNext p q).segIndexState = m.segIndexState := by
  cases p <;> rfl

@[simp] theorem setNext_mmap : (m.setNext p q).mmap = if p = none then q else m.mmap := by
  cases p <;> rfl

@[simp] theorem link_seg : (m.link newv p q).seg = m.seg := by simp [link]
@[simp] theorem link_state : (m.link newv p q).segIndexState = m.segIndexState := by simp [link]

theorem link_prev : (m.link newv p q).prev y =
    if q = some y then some newv else if y = newv then p else m.prev y := by
  simp [link, update_apply]

theorem link_next : (m.link newv p q).next y =
    if p = some y then some newv else if y = newv then q else m.next y := by
  simp [link, update_apply]

theorem link_mmap : (m.link newv p q).mmap = if p = none then some newv else m.mmap := by
  simp [link]

@[simp] theorem unlink_seg : (m.unlink v).seg = m.seg := by simp [unlink]
@[simp] theorem unlink_state : (m.unlink v).segIndexState = m.segIndexState := by simp [unlink]

@[simp] theorem absorb_seg :
    (m.absorb a b).seg = update m.seg a ((m.seg a).upTo (m.seg b).stop) := by
  simp [absorb]

@[simp] theorem absorb_state : (m.absorb a b).segIndexState = m.segIndexState := by simp [absorb]

@[simp] theorem cut_state {clipStart clipEnd : Nat} :
    (m.cut v t clipStart clipEnd).segIndexState = m.segIndexState := by simp [cut]

/-- The list is linked, and the records have these contents. -/
structure Linked (m : MmStruct) (maps : Maps) : Prop where
  links : DList m.prev m.next m.mmap (maps.map Prod.fst)
  segs : ∀ e ∈ maps, m.seg e.1 = e.2

namespace Linked

section
variable (h : m.Linked (before ++ (v, s) :: after))
include h

theorem ne_of_mem {e : Nat × MmSeg} (member : e ∈ before ++ after) : e.1 ≠ v := by
  have nodup := h.links.nodup
  simp only [map_append, map_cons, nodup_append, nodup_cons, mem_map]
    at nodup
  obtain ⟨-, ⟨apart, -⟩, across⟩ := nodup
  rcases mem_append.mp member with first | second
  · exact across e.1 ⟨e, first, rfl⟩ v (.head _)
  · rintro rfl
    exact apart ⟨e, second, rfl⟩

theorem here : m.seg v = s := h.segs (v, s) (by simp)

theorem neighbours :
    m.prev v = (before.map Prod.fst).getLast? ∧ m.next v = (after.map Prod.fst).head? := by
  have links := h.links
  rw [map_append, map_cons] at links
  exact links.neighbours

theorem next : m.Linked ((before ++ [(v, s)]) ++ after) := by
  simpa using h

theorem set (s' : MmSeg) : (m.setSeg v s').Linked (before ++ (v, s') :: after) := by
  refine ⟨by simpa using h.links, ?_⟩
  have others : ∀ e ∈ before ++ after, (m.setSeg v s').seg e.1 = e.2 := by
    intro e member
    rw [setSeg_seg, update_of_ne (h.ne_of_mem member)]
    exact h.segs e (((sublist_cons_self _ _).append_left _).subset member)
  obtain ⟨first, last⟩ := forall_mem_append.mp others
  exact forall_mem_append.mpr ⟨first, forall_mem_cons.mpr ⟨by simp, last⟩⟩

end

theorem set_outside (h : m.Linked maps) (new : newv ∉ maps.map Prod.fst) (s : MmSeg) :
    (m.setSeg newv s).Linked maps := by
  refine ⟨h.links, ?_⟩
  intro e member
  have ne : e.1 ≠ newv := by
    rintro rfl
    exact new (mem_map_of_mem member)
  rw [setSeg_seg, update_of_ne ne, h.segs e member]

/-- A record is linked in. -/
theorem link (h : m.Linked (before ++ after)) (new : newv ∉ (before ++ after).map Prod.fst)
    (filled : m.seg newv = s) :
    (m.link newv (before.map Prod.fst).getLast? (after.map Prod.fst).head?).Linked
      (before ++ (newv, s) :: after) := by
  have links := h.links
  rw [map_append] at links new
  have notLast : (before.map Prod.fst).getLast? ≠ some newv := fun last =>
    new (mem_append_left _ (mem_of_getLast? last))
  have notHead : (after.map Prod.fst).head? ≠ some newv := fun first =>
    new (mem_append_right _ (mem_of_mem_head? first))
  constructor
  · rw [map_append, map_cons, link_mmap]
    apply links.insert new
    · rw [link_prev, if_neg notHead, if_pos rfl]
    · rw [link_next, if_neg notLast, if_pos rfl]
    · intro y member
      have ne : y ≠ newv := fun same => new (same ▸ member)
      rw [link_prev, if_neg ne]
    · intro y member
      have ne : y ≠ newv := fun same => new (same ▸ member)
      rw [link_next, if_neg ne]
  · rw [link_seg]
    obtain ⟨first, last⟩ := forall_mem_append.mp h.segs
    exact forall_mem_append.mpr ⟨first, forall_mem_cons.mpr ⟨filled, last⟩⟩

theorem unlink (h : m.Linked (before ++ (v, s) :: after)) :
    (m.unlink v).Linked (before ++ after) := by
  have links := h.links
  rw [map_append, map_cons] at links
  constructor
  · have head : (m.unlink v).mmap = if m.prev v = none then m.next v else m.mmap := by
      simp [MmStruct.unlink]
    rw [map_append, head]
    apply links.remove
    all_goals
      intro y _
      simp [MmStruct.unlink]
  · intro e member
    rw [unlink_seg]
    exact h.segs e (((sublist_cons_self _ _).append_left _).subset member)

/-- A record grows over the next one. -/
theorem absorb (h : m.Linked (before ++ (a, s) :: (b, s') :: after)) :
    (m.absorb a b).Linked (before ++ (a, s.upTo s'.stop) :: after) := by
  have second := h.next
  have back : m.prev b = some a := by simpa using second.neighbours.1
  have links := second.links
  rw [map_append, map_cons] at links
  have grown := h.set (s.upTo s'.stop)
  constructor
  · have gone : DList (m.absorb a b).prev (m.absorb a b).next
        (if m.prev b = none then m.next b else m.mmap)
        ((before ++ [(a, s)]).map Prod.fst ++ after.map Prod.fst) := by
      apply links.remove
      all_goals
        intro y _
        simp [MmStruct.absorb, back]
    rw [back, if_neg (Option.some_ne_none a)] at gone
    simpa [MmStruct.absorb] using gone
  · intro e member
    rw [absorb_seg, h.here, second.here]
    exact grown.segs e ((((sublist_cons_self _ _).cons_cons _).append_left _).subset member)

/-- What is mapped behind a cut goes to a new record. -/
theorem cut (h : m.Linked (before ++ (v, s) :: after))
    (new : t ∉ (before ++ (v, s) :: after).map Prod.fst) (clipStart clipEnd : Nat) :
    (m.cut v t clipStart clipEnd).Linked
      (before ++ (v, s.upTo clipStart) :: (t, s.fromOn clipEnd) :: after) := by
  have ne : t ≠ v := by
    rintro rfl
    exact new (by simp)
  have filled := (h.set_outside new (s.fromOn clipEnd)).set (s.upTo clipStart)
  rw [append_cons] at filled
  have new' : t ∉ ((before ++ [(v, s.upTo clipStart)]) ++ after).map Prod.fst := by simpa using new
  have written : ((m.setSeg t (s.fromOn clipEnd)).setSeg v (s.upTo clipStart)).seg t =
      s.fromOn clipEnd := by simp [ne]
  have linked := filled.link new' written
  unfold MmStruct.cut
  rw [h.here, h.neighbours.2]
  simpa using linked

end Linked

end MmStruct

/-! ### Order -/

/-- The mappings are not empty and follow one another. -/
structure Ordered (maps : Maps) : Prop where
  ranges : Ranges (·.2.start) (·.2.stop) maps
  bounded : ∀ e ∈ maps, e.2.stop < 2 ^ 64

namespace Ordered

theorem few (h : Ordered maps) : maps.length < MmStruct.fuel := by
  have bound := h.ranges.length_le (Nat.zero_le (2 ^ 64 - 1)) (fun _ _ => Nat.zero_le _)
    (fun e member => Nat.le_sub_one_of_lt (h.bounded e member))
  unfold MmStruct.fuel
  omega

/-- Some of the mappings are replaced by others that reach no further. -/
theorem replace {ds es : Maps} (h : Ordered (before ++ ds ++ after))
    (new : Ranges (·.2.start) (·.2.stop) es) (low : ∀ e ∈ es, ∃ d ∈ ds, d.2.start ≤ e.2.start)
    (high : ∀ e ∈ es, ∃ d ∈ ds, e.2.stop ≤ d.2.stop) : Ordered (before ++ es ++ after) := by
  refine ⟨h.ranges.replace new low high, ?_⟩
  have bounded := h.bounded
  rw [forall_mem_append, forall_mem_append] at bounded ⊢
  refine ⟨⟨bounded.1.1, fun e here => ?_⟩, bounded.2⟩
  obtain ⟨d, inside, le⟩ := high e here
  exact Nat.lt_of_le_of_lt le (bounded.1.2 d inside)

theorem nonempty (h : Ordered (before ++ (v, s) :: after)) : s.start < s.stop :=
  h.ranges.nonempty (v, s) (by simp)

end Ordered

/-! ### Meaning -/

/-- What is behind an address: the file, VMO or shared memory segment with the offset in it, or
anonymous memory. A page fault looks at the file first. -/
inductive Backing where
  | anon
  | file (file offset : Nat)
  | vmo (vmo offset : Nat)
  | sysvShm (shmid : Int) (offset : Nat)
deriving DecidableEq

namespace MmSeg

/-- The place in the object at an address. -/
def offsetAt (s : MmSeg) (x : Nat) : Nat := (s.backingOffset + (x - s.start)) % 2 ^ 64

def backing (s : MmSeg) (x : Nat) : Backing :=
  if s.vmFlags &&& vmFile ≠ 0 then .file s.file (s.offsetAt x)
  else if s.vmFlags &&& vmVmo ≠ 0 then .vmo s.vmo (s.offsetAt x)
  else if s.vmFlags &&& vmSysvShm ≠ 0 then .sysvShm s.sysvShmid (s.offsetAt x)
  else .anon

/-- What the mapping assigns to an address: its flags, and what is behind it. -/
def assign (s : MmSeg) (x : Nat) : (Nat × Nat) × Backing :=
  ((s.vmFlags, s.pteFlags), s.backing x)

end MmSeg

/-- Some mapping has the address, and assigns this to it. -/
def Assigns (maps : Maps) (x : Nat) (w : (Nat × Nat) × Backing) : Prop :=
  ∃ e ∈ maps, (e.2.start ≤ x ∧ x < e.2.stop) ∧ e.2.assign x = w

section Meaning

variable {w : (Nat × Nat) × Backing} {xs ys : Maps}

@[simp] theorem not_assigns_nil : ¬ Assigns [] x w := by simp [Assigns]

theorem assigns_append : Assigns (xs ++ ys) x w ↔ Assigns xs x w ∨ Assigns ys x w := by
  simp only [Assigns, mem_append, or_and_right, exists_or]

theorem assigns_cons : Assigns ((v, s) :: ys) x w ↔
    ((s.start ≤ x ∧ x < s.stop) ∧ s.assign x = w) ∨ Assigns ys x w := by
  simp only [Assigns, mem_cons, or_and_right, exists_or, exists_eq_left]

theorem assigns_singleton : Assigns [(v, s)] x w ↔
    (s.start ≤ x ∧ x < s.stop) ∧ s.assign x = w := by
  simp [assigns_cons]

theorem assigns_cons_iff (e : Nat × MmSeg) (ys : Maps) :
    Assigns (e :: ys) x w ↔ Assigns [e] x w ∨ Assigns ys x w := by
  rw [← assigns_append, singleton_append]

end Meaning

namespace MmSeg

theorem assign_upTo (stop : Nat) : (s.upTo stop).assign x = s.assign x := rfl

theorem offsetAt_fromOn (le : s.start ≤ start) (inside : start ≤ x) :
    (s.fromOn start).offsetAt x = s.offsetAt x := by
  unfold offsetAt fromOn
  dsimp only
  rw [Nat.mod_add_mod]
  congr 1
  omega

theorem assign_fromOn (le : s.start ≤ start) (inside : start ≤ x) :
    (s.fromOn start).assign x = s.assign x := by
  have same := offsetAt_fromOn le inside
  unfold assign backing
  rw [same]
  rfl

end MmSeg

variable {w : (Nat × Nat) × Backing}

theorem assigns_upTo {stop : Nat} (le : stop ≤ s.stop) :
    Assigns [(t, s.upTo stop)] x w ↔ Assigns [(v, s)] x w ∧ x < stop := by
  rw [assigns_singleton, assigns_singleton, MmSeg.assign_upTo, and_right_comm (c := x < stop)]
  refine and_congr_left fun _ => ?_
  simp only [MmSeg.upTo]
  omega

theorem assigns_fromOn (le : s.start ≤ start) :
    Assigns [(t, s.fromOn start)] x w ↔ Assigns [(v, s)] x w ∧ start ≤ x := by
  rw [assigns_singleton, assigns_singleton]
  by_cases inside : start ≤ x
  · rw [MmSeg.assign_fromOn le inside]
    simp [MmSeg.fromOn, inside, Nat.le_trans le inside]
  · simp [MmSeg.fromOn, inside]

/-- What it takes to merge two mappings. -/
theorem vmaCanMerge_spec (can : vmaCanMerge s s' = true) : s.stop = s'.start ∧
    s.vmFlags = s'.vmFlags ∧ s.pteFlags = s'.pteFlags ∧ s.vmFlags &&& vmSysvShm = 0 ∧
    (s.vmFlags &&& vmFile ≠ 0 → s.file = s'.file ∧ s.continues s') ∧
    (s.vmFlags &&& vmFile = 0 → s.vmFlags &&& vmVmo ≠ 0 → s.vmo = s'.vmo ∧ s.continues s') := by
  unfold vmaCanMerge at can
  split at can
  · cases can
  split at can
  · cases can
  split at can
  · cases can
  rename_i adjacent unattached flags
  obtain ⟨sameFlags, samePte⟩ := not_or.mp flags
  rw [not_not] at adjacent unattached sameFlags samePte
  rw [← sameFlags, Nat.or_self] at can unattached
  refine ⟨adjacent, sameFlags, samePte, unattached, ?_, ?_⟩
  · intro isFile
    rw [if_pos isFile] at can
    split at can
    · cases can
    · rename_i same
      exact ⟨not_not.mp same, of_decide_eq_true can⟩
  · intro noFile isVmo
    rw [if_neg (not_not.mpr noFile), if_pos isVmo, if_neg (by simpa using isVmo)] at can
    split at can
    · cases can
    · rename_i same
      exact ⟨not_not.mp same, of_decide_eq_true can⟩

theorem MmSeg.continues.offsetAt (h : s.continues s') (adjacent : s.stop = s'.start)
    (nonempty : s.start ≤ s.stop) (inside : s'.start ≤ x) : s.offsetAt x = s'.offsetAt x := by
  unfold MmSeg.offsetAt
  rw [← h, Nat.mod_add_mod]
  congr 1
  omega

/-- A mapping that can be merged with the one before assigns what that one would. -/
theorem assign_eq_of_canMerge (can : vmaCanMerge s s' = true) (nonempty : s.start ≤ s.stop)
    (inside : s'.start ≤ x) : s.assign x = s'.assign x := by
  obtain ⟨adjacent, flags, pte, unattached, file, vmo⟩ := vmaCanMerge_spec can
  unfold MmSeg.assign MmSeg.backing
  rw [← flags, ← pte]
  by_cases isFile : s.vmFlags &&& vmFile ≠ 0
  · obtain ⟨same, goesOn⟩ := file isFile
    rw [if_pos isFile, if_pos isFile, same, goesOn.offsetAt adjacent nonempty inside]
  rw [if_neg isFile, if_neg isFile]
  by_cases isVmo : s.vmFlags &&& vmVmo ≠ 0
  · obtain ⟨same, goesOn⟩ := vmo (not_not.mp isFile) isVmo
    rw [if_pos isVmo, if_pos isVmo, same, goesOn.offsetAt adjacent nonempty inside]
  · have none : ¬ s.vmFlags &&& vmSysvShm ≠ 0 := not_not.mpr unattached
    rw [if_neg isVmo, if_neg isVmo, if_neg none, if_neg none]

end A20OS.Mm
