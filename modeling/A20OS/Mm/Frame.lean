import A20OS.Lib.Buddy

/-!
The frame allocator (`kernel/mm/frame.c`): a buddy system over the frames of all RAM ranges, with
a reference count for each frame and a small reserve of single frames for each CPU.

Frames are numbered through all ranges. The free blocks of an order are doubly linked through the
metadata of their first frames, whose bits in the freemap are set; the other metadata of a free
block is stale. A function that can panic returns the panic. Numbers are unbounded, except where
the code narrows to the 32 bits of a `pfn_t` or counts references in 16 bits.
-/

namespace A20OS.Mm

open Lib Function

/-! ### Data -/

abbrev Pfn := Nat

def maxOrder : Nat := 11
def maxRanges : Nat := 4
def pageSize : Nat := 4096
/-- `PFA_CPU_BATCH_PAGES`. -/
def batchPages : Nat := 32

/-- `FRAME_F_FREE`, `FRAME_F_ALLOC` and `FRAME_F_KDATA`, the flags this module sets. -/
inductive FrameFlag where
  | free | alloc | kdata
deriving DecidableEq, Repr

/-- `frame_meta_t`. -/
structure FrameMeta where
  prev : Option Pfn
  next : Option Pfn
  refcount : Nat
  order : Nat
  flags : FrameFlag
deriving DecidableEq

/-- What `memset` leaves; the links lead to frame 0. -/
def FrameMeta.zero : FrameMeta := ⟨some 0, some 0, 0, 0, .free⟩

/-- `pfa_range_t`; `limit` is its end. -/
structure PfaRange where
  base : Nat
  limit : Nat
  startPfn : Nat
  endPfn : Nat
deriving DecidableEq

/-- `free_list_t`. -/
structure FreeList where
  head : Option Pfn := none
  count : Nat := 0
deriving DecidableEq

/-- `pfa_t` and the freemap; `metaOf` is `meta_of`. -/
structure Pfa where
  metaOf : Pfn → FrameMeta
  totalFrames : Nat
  freeFrames : Nat
  ranges : List PfaRange
  freeLists : Nat → FreeList
  freemap : Pfn → Bool

/-- The calls of `panic`. -/
inductive Panic where
  | invalidRangeCount
  | invalidRange
  | metadataDoesNotFit
  | duplicatePush
  | freedOnFreeList
  | unlistedNode
  | prevBackLink
  | nextBackLink
  | corruptedPrev
  | corruptedNext
  | doubleAllocation
  | dirtySplit
  | prematureFree
  | getUnreferenced
deriving DecidableEq, Repr

/-- `CONFIG_NR_CPUS` and `CONFIG_DEBUG_MM_TRACE`. -/
structure PfaConfig where
  nrCpus : Nat
  trace : Bool
  pos : 0 < nrCpus

namespace Pfa

variable (cfg : PfaConfig) (s : Pfa)

/-- `pfa_range_for_pfn`. -/
def rangeForPfn (pfn : Pfn) : Option PfaRange :=
  s.ranges.find? fun range => range.startPfn ≤ pfn ∧ pfn < range.endPfn

def pfnValid (pfn : Pfn) : Bool := (s.rangeForPfn pfn).isSome

def modify (pfn : Pfn) (f : FrameMeta → FrameMeta) : Pfa :=
  { s with metaOf := update s.metaOf pfn (f (s.metaOf pfn)) }

/-- The five assignments that make a frame the first one of a free block. -/
def setFree (pfn : Pfn) (order : Nat) : Pfa := s.modify pfn fun _ => ⟨none, none, 0, order, .free⟩

/-! ### Free lists -/

/-- `m->next` gets a link back. -/
def linkBack (next : Option Pfn) (pfn : Pfn) : Pfa :=
  match next with
  | some next => s.modify next fun m => { m with prev := some pfn }
  | none => s

/-- `fl_push`. -/
def flPush (pfn : Pfn) (order : Nat) : Except Panic Pfa :=
  if (s.metaOf pfn).prev ≠ none ∨ (s.metaOf pfn).next ≠ none then .error .duplicatePush
  else if s.freemap pfn then .error .freedOnFreeList
  else
    let list := s.freeLists order
    let s := s.modify pfn fun m => { m with prev := none, next := list.head }
    let s := s.linkBack list.head pfn
    .ok { s with
      freeLists := update s.freeLists order ⟨some pfn, list.count + 1⟩
      freemap := update s.freemap pfn true }

/-- A frame in the middle of a list of this order. -/
def listed (pfn : Pfn) (order : Nat) : Bool :=
  s.pfnValid pfn && (s.metaOf pfn).order == order && (s.metaOf pfn).flags == .free

/-- The membership traps of `fl_remove`. -/
def trap (pfn : Pfn) (order : Nat) : Option Panic :=
  let m := s.metaOf pfn
  if m.prev = none ∧ (s.freeLists order).head ≠ some pfn then some .unlistedNode
  else if m.prev.any fun prev => s.listed prev order && (s.metaOf prev).next != some pfn then
    some .prevBackLink
  else if m.next.any fun next => s.listed next order && (s.metaOf next).prev != some pfn then
    some .nextBackLink
  else none

/-- The predecessor, or the head of the list, is linked on to `next`. -/
def relinkPrev (prev next : Option Pfn) (order : Nat) : Except Panic Pfa :=
  match prev with
  | some prev =>
      if s.listed prev order then .ok (s.modify prev fun m => { m with next })
      else .error .corruptedPrev
  | none =>
      .ok { s with
        freeLists :=
          update s.freeLists order { s.freeLists order with head := next } }

/-- The successor is linked back to `prev`. -/
def relinkNext (prev next : Option Pfn) (order : Nat) : Except Panic Pfa :=
  match next with
  | some next =>
      if s.listed next order then .ok (s.modify next fun m => { m with prev })
      else .error .corruptedNext
  | none => .ok s

/-- `fl_remove`. -/
def flRemove (pfn : Pfn) (order : Nat) : Except Panic Pfa := do
  let m := s.metaOf pfn
  let s := { s with freemap := update s.freemap pfn false }
  match if cfg.trace then s.trap pfn order else none with
  | some panic => .error panic
  | none =>
      let s ← s.relinkPrev m.prev m.next order
      let s ← s.relinkNext m.prev m.next order
      let s := s.modify pfn fun m => { m with prev := none, next := none }
      let list := s.freeLists order
      .ok { s with
        freeLists := update s.freeLists order { list with count := list.count - 1 } }

/-- A frame is referenced or listed. -/
def inUse (pfn : Pfn) : Bool := decide (0 < (s.metaOf pfn).refcount) || s.freemap pfn

/-- `fl_push_clean`. -/
def flPushClean (s : Pfa) (pfn : Pfn) : Nat → Except Panic Pfa
  | 0 =>
      if s.inUse pfn ∨ (s.metaOf pfn).flags = .alloc then .ok s
      else (s.setFree pfn 0).flPush pfn 0
  | order + 1 =>
      if (List.range' pfn (2 ^ (order + 1))).any s.inUse then do
        let s ← flPushClean s pfn order
        flPushClean s (pfn + 2 ^ order) order
      else (s.setFree pfn (order + 1)).flPush pfn (order + 1)

/-! ### Allocation -/

/-- The loop of `pfa_alloc_from_buddy` that splits a block of order `order + n`; `n` orders
are left to go down. -/
def splitDown (s : Pfa) (blk : Pfn) (order : Nat) : Nat → Except Panic Pfa
  | 0 => .ok s
  | n + 1 => do
      let o := order + n
      let buddy := blk ^^^ 2 ^ o
      if (List.range' buddy (2 ^ o)).any fun i =>
          decide ((s.metaOf i).flags = .alloc) || decide (0 < (s.metaOf i).refcount) then
        .error .dirtySplit
      else
        let s ← (s.setFree buddy o).flPush buddy o
        splitDown s blk order n

/-- The loop body that marks the further frames of an allocated block. -/
def markAlloc (i : Pfn) : Pfa :=
  if 0 < (s.metaOf i).refcount then s else s.modify i fun _ => ⟨none, none, 0, 0, .alloc⟩

/-- The metadata of an allocated block. -/
def setAlloc (blk : Pfn) (order : Nat) : Pfa :=
  (List.range' (blk + 1) (2 ^ order - 1)).foldl markAlloc
    (s.modify blk fun _ => ⟨none, none, 1, order, .alloc⟩)

/-- The first nonempty list of the order or a higher one, with its head. -/
def findBlock (order : Nat) : Option Block :=
  (List.range' order (maxOrder + 1 - order)).findSome? fun o =>
    (s.freeLists o).head.map fun blk => ⟨blk, o⟩

/-- `pfa_alloc_from_buddy`. -/
def allocFromBuddy (order : Nat) : Except Panic (Option Pfn × Pfa) :=
  match s.findBlock order with
  | none => .ok (none, s)
  | some ⟨blk, o⟩ => do
      let s ← s.flRemove cfg blk o
      if (s.metaOf blk).flags ≠ .free ∨ (s.metaOf blk).order ≠ o ∨ blk % 2 ^ o ≠ 0 then
        .error .doubleAllocation
      else
        let s ← s.splitDown blk order (o - order)
        let s := s.setAlloc blk order
        .ok (some blk, { s with freeFrames := (s.freeFrames + 2 ^ 32 - 2 ^ order) % 2 ^ 32 })

/-- The loop that fills the reserve of a CPU; `n` places are left. -/
def refill (s : Pfa) (pages : List Pfn) : Nat → Except Panic (List Pfn × Pfa)
  | 0 => .ok (pages, s)
  | n + 1 => do
      match ← s.allocFromBuddy cfg 0 with
      | (none, s) => .ok (pages, s)
      | (some extra, s) => refill s (extra :: pages) n

/-- `pfa_alloc_flags` without reclaim, on a CPU with the given reserve, the page taken next
first. -/
def allocFlags (order : Int) (batch : List Pfn) : Except Panic (Option Pfn × List Pfn × Pfa) :=
  if order < 0 ∨ order > maxOrder then .ok (none, batch, s)
  else if order = 0 then
    match batch with
    | page :: batch => .ok (some page, batch, s)
    | [] => do
        match ← s.allocFromBuddy cfg 0 with
        | (none, s) => .ok (none, [], s)
        | (some page, s) => do
            let (batch, s) ← s.refill cfg [] (batchPages - 1)
            .ok (some page, batch, s)
  else do
    let (result, s) ← s.allocFromBuddy cfg order.toNat
    .ok (result, batch, s)

/-! ### Release -/

/-- A further frame of the buddy is in use. -/
def buddyDirty (buddy : Pfn) (order : Nat) : Bool :=
  ((List.range' (buddy + 1) (2 ^ order - 1)).takeWhile (· < s.totalFrames)).any s.inUse

/-- The tests that decide whether a block is joined with its buddy. -/
def canMerge (range : PfaRange) (buddy : Pfn) (order : Nat) : Bool :=
  buddy < s.totalFrames && range.startPfn ≤ buddy && buddy < range.endPfn &&
    (s.metaOf buddy).flags == .free && (s.metaOf buddy).order == order && s.freemap buddy &&
    !s.buddyDirty buddy order

/-- The loop of `pfa_free` and `frame_put_locked` that joins a block with its buddies; `n`
orders are left to go up. -/
def merge (s : Pfa) (range : PfaRange) (pfn : Pfn) (order : Nat) :
    Nat → Except Panic (Block × Pfa)
  | 0 => .ok (⟨pfn, order⟩, s)
  | n + 1 =>
      let buddy := pfn ^^^ 2 ^ order
      if s.canMerge range buddy order then do
        let s ← s.flRemove cfg buddy order
        merge s range (min pfn buddy) (order + 1) n
      else .ok (⟨pfn, order⟩, s)

/-- The loop body that clears the further frames of a released block. -/
def clearFrame (i : Pfn) : Pfa :=
  if 0 < (s.metaOf i).refcount then s
  else if (s.metaOf i).flags = .free then s
  else s.setFree i 0

/-- The metadata of a released block. -/
def clearBlock (pfn : Pfn) (order : Nat) : Pfa :=
  ((List.range' (pfn + 1) (2 ^ order - 1)).takeWhile (· < s.totalFrames)).foldl clearFrame
    (s.setFree pfn order)

/-- The end of `pfa_free` and of `frame_put_locked`: a block without references goes back to
the free lists. -/
def release (pfn : Pfn) (order : Nat) : Except Panic Pfa :=
  let s := { s with freeFrames := (s.freeFrames + 2 ^ order) % 2 ^ 32 }
  match s.rangeForPfn pfn with
  | none => .ok s
  | some range => do
      let (⟨pfn, order⟩, s) ← s.merge cfg range pfn order (maxOrder - order)
      (s.clearBlock pfn order).flPushClean pfn order

/-- `pfa_free`. -/
def free (pfn : Pfn) (order : Nat) : Except Panic Pfa :=
  let m := s.metaOf pfn
  if s.totalFrames ≤ pfn then .ok s
  else if m.flags = .alloc ∧ 1 < m.refcount then .error .prematureFree
  else if m.flags = .free then .ok s
  else
    let actualOrder := if maxOrder < m.order then order else m.order
    (s.modify pfn fun m => { m with refcount := 0 }).release cfg pfn actualOrder

/-! ### References -/

/-- `frame_get`. -/
def get (pfn : Pfn) : Except Panic Pfa :=
  if s.pfnValid pfn = false then .ok s
  else if (s.metaOf pfn).refcount = 0 then .error .getUnreferenced
  else .ok (s.modify pfn fun m => { m with refcount := (m.refcount + 1) % 2 ^ 16 })

/-- `frame_put_locked`. -/
def putLocked (pfn : Pfn) : Except Panic Pfa :=
  let m := s.metaOf pfn
  if m.refcount = 0 then .ok s
  else
    let s := s.modify pfn fun m => { m with refcount := m.refcount - 1 }
    if m.refcount - 1 ≠ 0 then .ok s
    else if maxOrder < m.order then .ok s
    else s.release cfg pfn m.order

/-- `frame_put`. -/
def put (pfn : Pfn) : Except Panic Pfa :=
  if s.pfnValid pfn = false then .ok s else s.putLocked cfg pfn

/-! ### Initialisation -/

/-- What `arch_ram_range` returns. -/
structure RamRange where
  base : Nat
  limit : Nat
deriving DecidableEq

/-- `ROUND_UP`. -/
def roundUp (a b : Nat) : Nat := (a + b - 1) / b * b

def RamRange.valid (r : RamRange) : Bool :=
  r.base < r.limit && r.base % pageSize == 0 && r.limit % pageSize == 0

/-- The frames are numbered; a number has 32 bits. -/
def numberFrames (total : Nat) : List RamRange → List PfaRange × Nat
  | [] => ([], total)
  | r :: rs =>
      let endPfn := (total + (r.limit - r.base) / pageSize) % 2 ^ 32
      let (ranges, total') := numberFrames endPfn rs
      (⟨r.base, r.limit, total, endPfn⟩ :: ranges, total')

/-- The frames of the kernel. -/
def reserve (start used : Nat) : Pfa :=
  (List.range' start used).foldl
    (fun s i => s.modify i fun _ => ⟨none, none, 1, 0, .kdata⟩) s

/-- A block of the initial free memory. -/
def pushInitial (pfn : Pfn) (order : Nat) : Except Panic Pfa := do
  let s ← (s.setFree pfn order).flPush pfn order
  .ok { s with freeFrames := (s.freeFrames + 2 ^ order) % 2 ^ 32 }

/-- `n` blocks of an order, one behind the other. -/
def pushRun (s : Pfa) (start order : Nat) : Nat → Except Panic Pfa
  | 0 => .ok s
  | n + 1 => do
      let s ← s.pushInitial start order
      pushRun s (start + 2 ^ order) order n

/-- The loop over the orders from the given one down; the inner loop takes a block as long as
one fits. -/
def pushRest (s : Pfa) (start remain : Nat) : Nat → Except Panic Pfa
  | 0 => s.pushRun start 0 remain
  | order + 1 => do
      let n := remain / 2 ^ (order + 1)
      let s ← s.pushRun start (order + 1) n
      pushRest s (start + n * 2 ^ (order + 1)) (remain - n * 2 ^ (order + 1)) order

/-- The number of frames of a range that hold the kernel and the metadata. -/
def usedFrames (metaPa usedEnd : Nat) (range : PfaRange) : Nat :=
  let frames := (range.endPfn + 2 ^ 32 - range.startPfn) % 2 ^ 32
  if range.base ≤ metaPa ∧ metaPa < range.limit then
    min ((usedEnd + 2 ^ 64 - range.base) % 2 ^ 64 / pageSize % 2 ^ 32) frames
  else 0

/-- The body of the loop of `pfa_init` over the ranges. -/
def initRange (metaPa usedEnd : Nat) (range : PfaRange) : Except Panic Pfa := do
  let first := (range.startPfn + usedFrames metaPa usedEnd range) % 2 ^ 32
  let s := s.reserve range.startPfn (usedFrames metaPa usedEnd range)
  let start := roundUp first (2 ^ maxOrder) % 2 ^ 32
  let s ← s.pushRun first 0 (min start range.endPfn - first)
  s.pushRest start (range.endPfn - start) maxOrder

/-- `pfa_init`. -/
def init (layout : List RamRange) (kernelEnd : Nat) : Except Panic Pfa :=
  if layout = [] ∨ maxRanges < layout.length then .error .invalidRangeCount
  else if layout.all RamRange.valid = false then .error .invalidRange
  else
    let (ranges, totalFrames) := numberFrames 0 layout
    let size := totalFrames * 16 + (totalFrames + 7) / 8
    let metaPa := roundUp kernelEnd 64 % 2 ^ 64
    match ranges.find? fun r => r.base ≤ metaPa ∧ metaPa < r.limit with
    | none => .error .metadataDoesNotFit
    | some r =>
        if r.limit < (metaPa + size) % 2 ^ 64 then .error .metadataDoesNotFit
        else
          let s : Pfa :=
            { metaOf := fun _ => .zero
              totalFrames
              freeFrames := 0
              ranges
              freeLists := fun _ => {}
              freemap := fun _ => false }
          let usedEnd := roundUp (metaPa + size) pageSize % 2 ^ 64
          ranges.foldlM (fun s range => s.initRange metaPa usedEnd range) s

end Pfa

end A20OS.Mm
