import A20OS.Errno
import A20OS.Lib.Machine
import A20OS.Lib.Ranges
import Mathlib.Tactic.Simps.Basic

/-!
The mappings of an address space (`kernel/mm/vma.c`, `mm_munmap_locked` of `kernel/mm/munmap.c`).

The mapping records are linked in the order of their addresses, and an index of up to 1024 records
is rebuilt when it is dirty at a lookup. Inserting, cutting, merging and unmapping change the list
and make the index dirty.

A record is its address. Left out are reference counts, page-table annotations and pages: whether
the pages of a mapping can be released, and new records, are given by the caller. A loop answers
`none` when its fuel does not suffice, and `mm_seg_find` when it panics.
-/

namespace A20OS.Mm

open Lib

/-! ### Records -/

abbrev vmFile : Nat := 2 ^ 13
abbrev vmVmo : Nat := 2 ^ 14
abbrev vmSysvShm : Nat := 2 ^ 16
abbrev vmSealed : Nat := 2 ^ 18

/-- `mm_seg_t`; `stop` is its `end`. -/
structure MmSeg where
  start : Nat
  stop : Nat
  backingOffset : Nat := 0
  vmFlags : Nat := 0
  pteFlags : Nat := 0
  sysvShmid : Int := -1
  file : Nat := 0
  vmo : Nat := 0
deriving DecidableEq

/-- The offset of the first mapping goes on in the second one. -/
def MmSeg.continues (a b : MmSeg) : Prop :=
  (a.backingOffset + (a.stop - a.start)) % 2 ^ 64 = b.backingOffset

instance (a b : MmSeg) : Decidable (a.continues b) := inferInstanceAs (Decidable (_ = _))

/-- The mapping ends somewhere else. -/
def MmSeg.upTo (s : MmSeg) (stop : Nat) : MmSeg := { s with stop }

/-- The part of the mapping from an address on. -/
def MmSeg.fromOn (s : MmSeg) (start : Nat) : MmSeg :=
  { s with start, backingOffset := (s.backingOffset + (start - s.start)) % 2 ^ 64 }

/-- `vma_can_merge`, for two records. -/
def vmaCanMerge (a b : MmSeg) : Bool :=
  if a.stop ≠ b.start then false
  else if (a.vmFlags ||| b.vmFlags) &&& vmSysvShm ≠ 0 then false
  else if a.vmFlags ≠ b.vmFlags ∨ a.pteFlags ≠ b.pteFlags then false
  else if (a.vmFlags ||| b.vmFlags) &&& vmFile ≠ 0 then
    if a.file ≠ b.file then false else a.continues b
  else if (a.vmFlags ||| b.vmFlags) &&& vmVmo ≠ 0 then
    if a.vmFlags &&& vmVmo = 0 ∨ b.vmFlags &&& vmVmo = 0 then false
    else if a.vmo ≠ b.vmo then false
    else a.continues b
  else true

/-- `seg_index_state`: 0, 1 and 2. -/
inductive SegIndexState where
  | dirty | valid | overflow
deriving DecidableEq, Repr

/-- The mapping part of `mm_struct_t`. Of `seg_index` the first `seg_index_count` entries. -/
structure MmStruct where
  seg : Nat → MmSeg := fun _ => ⟨0, 0, 0, 0, 0, -1, 0, 0⟩
  prev : Nat → Option Nat := fun _ => none
  next : Nat → Option Nat := fun _ => none
  mmap : Option Nat := none
  segIndex : List Nat := []
  segIndexState : SegIndexState := .dirty

namespace MmStruct

variable (m : MmStruct)

/-- More records than there are addresses. -/
def fuel : Nat := 2 ^ 64

/-! ### The index and the lookup -/

/-- `mm_seg_index_invalidate` -/
def segIndexInvalidate : MmStruct := { m with segIndexState := .dirty }

/-- `mm_seg_index_clear` -/
def segIndexClear : MmStruct := { m with segIndex := [], segIndexState := .dirty }

/-- `MM_SEG_INDEX_CAPACITY` -/
abbrev segIndexCapacity : Nat := 1024

/-- The loop of `mm_seg_index_rebuild`, with the room that is left; `none` if it does not
suffice. -/
def collect (m : MmStruct) : Nat → Option Nat → Option (List Nat)
  | _, none => some []
  | 0, some _ => none
  | room + 1, some v => (m.collect room (m.next v)).map (v :: ·)

/-- `mm_seg_index_rebuild` -/
def segIndexRebuild : MmStruct :=
  match m.collect segIndexCapacity m.mmap with
  | some index => { m with segIndex := index, segIndexState := .valid }
  | none => { m with segIndex := [], segIndexState := .overflow }

/-- The search of `mm_seg_find` in the index. -/
def search (addr : Nat) : Option Nat :=
  let count := m.segIndex.length
  let lo := bisect (fun mid => (m.seg (m.segIndex.getD mid 0)).start ≤ addr) count 0 count
  if 0 < lo then
    let v := m.segIndex.getD (lo - 1) 0
    if addr < (m.seg v).stop then some v else none
  else none

/-- The walk of `mm_seg_find` along the list, with the steps that are left before it panics. -/
def walk (m : MmStruct) (addr : Nat) : Nat → Option Nat → Option (Option Nat)
  | _, none => some none
  | 0, some _ => none
  | left + 1, some v =>
      if addr < (m.seg v).stop ∧ (m.seg v).start ≤ addr then some (some v)
      else if addr < (m.seg v).start then some none
      else m.walk addr left (m.next v)

/-- `mm_seg_find` -/
def mmSegFind (addr : Nat) : Option (MmStruct × Option Nat) :=
  let m := if m.segIndexState = .dirty then m.segIndexRebuild else m
  if m.segIndexState = .valid then some (m, m.search addr)
  else (m.walk addr 100000 m.mmap).map fun found => (m, found)

/-! ### Links -/

@[simps -fullyApplied]
def setSeg (v : Nat) (s : MmSeg) : MmStruct :=
  { m with seg := Function.update m.seg v s }

/-- `if (p) p->prev = q` -/
def setPrev (p q : Option Nat) : MmStruct :=
  match p with
  | some v => { m with prev := Function.update m.prev v q }
  | none => m

/-- What leads to the record behind `p` is set: `p->next`, or `mm->mmap`. -/
def setNext (p q : Option Nat) : MmStruct :=
  match p with
  | some v => { m with next := Function.update m.next v q }
  | none => { m with mmap := q }

/-- Link a record between two. -/
def link (newv : Nat) (prev next : Option Nat) : MmStruct :=
  let m := { m with
    next := Function.update m.next newv next
    prev := Function.update m.prev newv prev }
  (m.setPrev next (some newv)).setNext prev (some newv)

/-- Take a record out of the list. -/
def unlink (v : Nat) : MmStruct :=
  (m.setNext (m.prev v) (m.next v)).setPrev (m.next v) (m.prev v)

/-- The first record grows over the second one, which leaves the list. -/
def absorb (a b : Nat) : MmStruct :=
  ((m.setSeg a ((m.seg a).upTo (m.seg b).stop)).setNext (some a) (m.next b)).setPrev (m.next b)
    (some a)

/-- What is mapped from `clipStart` to `clipEnd` goes: the record keeps what is before, and the
new record `tail` gets what is behind. -/
def cut (v tail clipStart clipEnd : Nat) : MmStruct :=
  ((m.setSeg tail ((m.seg v).fromOn clipEnd)).setSeg v
    ((m.seg v).upTo clipStart)).link tail (some v)
    (m.next v)

/-! ### Insertion and merging -/

/-- The loop of `mm_insert_vma`: between which records the new one goes. -/
def place (m : MmStruct) (start : Nat) :
    Nat → Option Nat → Option Nat → Option (Option Nat × Option Nat)
  | 0, _, _ => none
  | _ + 1, prev, none => some (prev, none)
  | fuel + 1, prev, some v =>
      if (m.seg v).start < start then m.place start fuel (some v) (m.next v)
      else some (prev, some v)

/-- Merge with the next record. -/
def mergeNext (v : Nat) : MmStruct :=
  match m.next v with
  | some n => if vmaCanMerge (m.seg v) (m.seg n) then m.absorb v n else m
  | none => m

/-- Merge with the record before; with the record that is there afterwards. -/
def mergePrev (v : Nat) : MmStruct × Nat :=
  match m.prev v with
  | some p => if vmaCanMerge (m.seg p) (m.seg v) then (m.absorb p v, p) else (m, v)
  | none => (m, v)

/-- `mm_insert_vma` -/
def mmInsertVma (newv : Nat) : Option MmStruct :=
  let m := m.segIndexInvalidate
  (m.place (m.seg newv).start fuel none m.mmap).map fun (prev, next) =>
    (((m.link newv prev next).mergeNext newv).mergePrev newv).1

/-- `vma_try_merge` -/
def vmaTryMerge (vma : Nat) : MmStruct × Nat :=
  let (m, v) := m.segIndexInvalidate.mergePrev vma
  (m.mergeNext v, v)

/-! ### Splitting -/

/-- `mm_split_vma_at`; `tail` is what `mm_seg_new` returns. -/
def mmSplitVmaAt (addr : Nat) (tail : Option Nat) : Option (MmStruct × Except Errno Unit) :=
  (m.mmSegFind addr).map fun (m, found) =>
    match found with
    | none => (m, .ok ())
    | some v =>
        if addr ≤ (m.seg v).start ∨ (m.seg v).stop ≤ addr then (m, .ok ())
        else match tail with
          | none => (m, .error .ENOMEM)
          | some tail => (m.segIndexInvalidate.cut v tail addr addr, .ok ())

/-- `vma_split` -/
def vmaSplit (vma split : Nat) (tail : Option Nat) : MmStruct × Option Nat :=
  if split ≤ (m.seg vma).start ∨ (m.seg vma).stop ≤ split then (m, some vma)
  else match tail with
    | none => (m, none)
    | some tail => (m.segIndexInvalidate.cut vma tail split split, some tail)

/-! ### Unmapping -/

/-- The first loop of `mm_munmap_locked`: nothing that is attached or sealed is touched. -/
def munmapCheck (m : MmStruct) (addr stop : Nat) : Nat → Option Nat → Option (Except Errno Unit)
  | 0, _ => none
  | _ + 1, none => some (.ok ())
  | fuel + 1, some v =>
      if stop ≤ (m.seg v).start then some (.ok ())
      else if (m.seg v).stop ≤ addr then m.munmapCheck addr stop fuel (m.next v)
      else if (m.seg v).vmFlags &&& vmSysvShm ≠ 0 ∧
          ((m.seg v).start < addr ∨ stop < (m.seg v).stop) then some (.error .EINVAL)
      else if (m.seg v).vmFlags &&& vmSealed ≠ 0 then some (.error .EPERM)
      else m.munmapCheck addr stop fuel (m.next v)

/-- The part of `[addr, stop)` in one mapping is unmapped. -/
def munmapOne (addr stop : Nat) (release : Nat → Except Errno Unit)
    (tail : Option Nat) (v : Nat) : MmStruct × Except Errno Unit :=
  let seg := m.seg v
  let clipStart := if seg.start < addr then addr else seg.start
  let clipEnd := if stop < seg.stop then stop else seg.stop
  match release v with
  | .error err => (m, .error err)
  | .ok () =>
      if addr ≤ seg.start ∧ seg.stop ≤ stop then (m.unlink v, .ok ())
      else if addr ≤ seg.start then (m.setSeg v (seg.fromOn clipEnd), .ok ())
      else if seg.stop ≤ stop then (m.setSeg v (seg.upTo clipStart), .ok ())
      else match tail with
        | none => (m, .error .ENOMEM)
        | some tail => (m.cut v tail clipStart clipEnd, .ok ())

/-- The second loop of `mm_munmap_locked`. -/
def munmapLoop (addr stop : Nat) (release : Nat → Except Errno Unit) (tail : Option Nat) :
    Nat → MmStruct → Option Nat → Option (MmStruct × Except Errno Unit)
  | 0, _, _ => none
  | _ + 1, m, none => some (m, .ok ())
  | fuel + 1, m, some v =>
      let next := m.next v
      if stop ≤ (m.seg v).start ∨ (m.seg v).stop ≤ addr then
        munmapLoop addr stop release tail fuel m next
      else match m.munmapOne addr stop release tail v with
        | (m, .error err) => some (m, .error err)
        | (m, .ok ()) => munmapLoop addr stop release tail fuel m next

/-- `mm_munmap_locked`, for a limit `USER_VA_LIMIT` of the addresses. -/
def mmMunmapLocked (limit addr len : Nat) (release : Nat → Except Errno Unit)
    (tail : Option Nat) : Option (MmStruct × Except Errno Unit) :=
  if addr % 4096 ≠ 0 then some (m, .error .EINVAL)
  else
    let len := (len + 4095) % 2 ^ 64 / 4096 * 4096
    if len = 0 then some (m, .ok ())
    else
      let stop := (addr + len) % 2 ^ 64
      if stop < addr ∨ limit < stop then some (m, .error .EINVAL)
      else
        let m := m.segIndexInvalidate
        (m.munmapCheck addr stop fuel m.mmap).bind fun checked =>
          match checked with
          | .error err => some (m, .error err)
          | .ok () =>
              (munmapLoop addr stop release tail fuel m m.mmap).map fun (m, result) =>
                match result with
                | .error err => (m, .error err)
                | .ok () => (m.segIndexClear, .ok ())

/-! ### Runs -/

/-- The records that the links lead to. -/
def nodes (m : MmStruct) : Nat → Option Nat → List Nat
  | 0, _ => []
  | _ + 1, none => []
  | fuel + 1, some v => v :: m.nodes fuel (m.next v)

/-- The records in the list. -/
def listed : List Nat := m.nodes fuel m.mmap

inductive VmaLabel where
  /-- A record that the caller has filled in is inserted. -/
  | insert (newv : Nat) (seg : MmSeg)
  | splitAt (addr : Nat) (tail : Option Nat)
  | split (vma split : Nat) (tail : Option Nat)
  | tryMerge (vma : Nat)
  | munmap (addr len : Nat) (release : Nat → Except Errno Unit) (tail : Option Nat)
  | find (addr : Nat)

/-- The range overlaps no mapping. -/
def Vacant (seg : MmSeg) : Prop :=
  ∀ v ∈ m.listed, (m.seg v).stop ≤ seg.start ∨ seg.stop ≤ (m.seg v).start

instance (seg : MmSeg) : Decidable (m.Vacant seg) :=
  inferInstanceAs (Decidable (∀ _ ∈ _, _))

/-- A new record is not in the list. -/
def Fresh (tail : Option Nat) : Prop := ∀ t ∈ tail, t ∉ m.listed

instance (tail : Option Nat) : Decidable (m.Fresh tail) :=
  inferInstanceAs (Decidable (∀ _ ∈ _, _))

def step (limit : Nat) (m : MmStruct) : VmaLabel → Option MmStruct
  | .insert newv seg =>
      if newv ∉ m.listed ∧ seg.start < seg.stop ∧ seg.stop < 2 ^ 64 ∧ m.Vacant seg then
        (m.setSeg newv seg).mmInsertVma newv
      else none
  | .splitAt addr tail =>
      if m.Fresh tail then (m.mmSplitVmaAt addr tail).map Prod.fst else none
  | .split vma split tail =>
      if vma ∈ m.listed ∧ m.Fresh tail then some (m.vmaSplit vma split tail).1 else none
  | .tryMerge vma => if vma ∈ m.listed then some (m.vmaTryMerge vma).1 else none
  | .munmap addr len release tail =>
      if m.Fresh tail then (m.mmMunmapLocked limit addr len release tail).map Prod.fst else none
  | .find addr => (m.mmSegFind addr).map Prod.fst

end MmStruct

end A20OS.Mm
