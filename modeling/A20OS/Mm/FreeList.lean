import A20OS.Lib.DList
import A20OS.Mm.Frame

/-!
The free lists of the frame allocator.

The invariant is about the RAM ranges, the allocator, the starts on each free list, the blocks
that are owned, and the number of frames counted as free without being listed, which is not zero
while a block is in hand. `Loose` says that such a block overlaps nothing. Listing it
(`Inv.pushFree`) and taking a listed block (`Inv.flRemove`) never panic, keep the invariant and
change links and bits only (`Relinked`).
-/

namespace A20OS.Mm

open Lib List
open Function (update update_self update_of_ne)

variable {o order : Nat} {p : Pfn}

/-! ### Invariant -/

/-- The free blocks with the given starts. -/
def freeBlocks (free : Nat → List Pfn) : List Block := Block.ofLists (maxOrder + 1) free

namespace Pfa

/-- The ranges are the given ones and do not overlap, and the frames can be numbered. -/
structure Layout (rs : List PfaRange) (s : Pfa) : Prop where
  ranges : s.ranges = rs
  apart : ∀ r ∈ s.ranges, ∀ r' ∈ s.ranges, ∀ i, r.startPfn ≤ i → i < r.endPfn →
    r'.startPfn ≤ i → i < r'.endPfn → r = r'
  total : ∀ r ∈ s.ranges, r.endPfn ≤ s.totalFrames
  small : s.totalFrames ≤ 2 ^ 32 - 2 ^ maxOrder

/-- A block as the buddy system has them: aligned, and in one range. -/
structure Fits (s : Pfa) (b : Block) : Prop where
  order : b.order ≤ maxOrder
  aligned : b.Aligned
  range : ∃ r ∈ s.ranges, r.startPfn ≤ b.start ∧ b.start + b.size ≤ r.endPfn

/-- No frame of the block is in use. -/
def Clean (s : Pfa) (b : Block) : Prop :=
  ∀ i, b.Has i → (s.metaOf i).flags = .free ∧ (s.metaOf i).refcount = 0

structure FreeBlock (s : Pfa) (b : Block) : Prop where
  fits : s.Fits b
  bit : s.freemap b.start = true
  order : (s.metaOf b.start).order = b.order
  clean : s.Clean b

structure OwnedBlock (s : Pfa) (b : Block) : Prop where
  fits : s.Fits b
  flags : (s.metaOf b.start).flags = .alloc
  order : (s.metaOf b.start).order = b.order
  referenced : 0 < (s.metaOf b.start).refcount
  counted : (s.metaOf b.start).refcount < 2 ^ 16
  rest : ∀ i, b.Has i → i ≠ b.start → (s.metaOf i).refcount = 0

structure Inv (rs : List PfaRange) (s : Pfa) (free : Nat → List Pfn) (owned : List Block)
    (hand : Nat) : Prop where
  layout : s.Layout rs
  lists : ∀ o ≤ maxOrder, DList (fun i => (s.metaOf i).prev) (fun i => (s.metaOf i).next)
    (s.freeLists o).head (free o)
  count : ∀ o ≤ maxOrder, (s.freeLists o).count = (free o).length
  freeBlock : ∀ b ∈ freeBlocks free, s.FreeBlock b
  bits : ∀ i, s.freemap i = true → ∃ b ∈ freeBlocks free, b.start = i
  ownedBlock : ∀ b ∈ owned, s.OwnedBlock b
  apart : (freeBlocks free ++ owned).Pairwise Block.Apart
  ledger : s.freeFrames = ((freeBlocks free).map Block.size).sum + hand

/-- The block overlaps neither a free block nor an owned one. -/
def Loose (free : Nat → List Pfn) (owned : List Block) (b : Block) : Prop :=
  ∀ c ∈ freeBlocks free ++ owned, b.Apart c

/-- Only links, list heads and bits differ. -/
structure Relinked (s s' : Pfa) : Prop where
  ranges : s'.ranges = s.ranges
  totalFrames : s'.totalFrames = s.totalFrames
  freeFrames : s'.freeFrames = s.freeFrames
  refcount : ∀ i, (s'.metaOf i).refcount = (s.metaOf i).refcount
  order : ∀ i, (s'.metaOf i).order = (s.metaOf i).order
  flags : ∀ i, (s'.metaOf i).flags = (s.metaOf i).flags

variable {rs : List PfaRange} {s s' t : Pfa} {cfg : PfaConfig} {free : Nat → List Pfn}
  {owned : List Block} {hand : Nat} {b c : Block} {i : Nat}

theorem mem_freeBlocks : b ∈ freeBlocks free ↔ b.order ≤ maxOrder ∧ b.start ∈ free b.order := by
  rw [freeBlocks, Block.mem_ofLists, Nat.lt_succ_iff]

theorem freeBlocks_push (ho : b.order ≤ maxOrder) :
    (freeBlocks (update free b.order (b.start :: free b.order))).Perm
      (b :: freeBlocks free) :=
  Block.ofLists_cons (Nat.lt_succ_of_le ho) b.start

variable {xs ys : List Pfn} {free' : Nat → List Pfn} {o' : Nat}

theorem freeBlocks_remove (ho : b.order ≤ maxOrder) (split : free b.order = xs ++ b.start :: ys) :
    (freeBlocks free).Perm (b :: freeBlocks (update free b.order (xs ++ ys))) :=
  Block.ofLists_remove (Nat.lt_succ_of_le ho) split

theorem Relinked.refl (s : Pfa) : Relinked s s :=
  ⟨rfl, rfl, rfl, fun _ => rfl, fun _ => rfl, fun _ => rfl⟩

theorem Relinked.trans (h : Relinked s t) (h' : Relinked t s') : Relinked s s' where
  ranges := h'.ranges.trans h.ranges
  totalFrames := h'.totalFrames.trans h.totalFrames
  freeFrames := h'.freeFrames.trans h.freeFrames
  refcount i := (h'.refcount i).trans (h.refcount i)
  order i := (h'.order i).trans (h.order i)
  flags i := (h'.flags i).trans (h.flags i)

theorem Layout.congr (layout : s.Layout rs) (ranges : s'.ranges = s.ranges)
    (frames : s'.totalFrames = s.totalFrames) : s'.Layout rs := by
  constructor
  · exact ranges.trans layout.ranges
  · rw [ranges]
    exact layout.apart
  · rw [ranges, frames]
    exact layout.total
  · rw [frames]
    exact layout.small

theorem Relinked.layout (h : Relinked s s') (layout : s.Layout rs) : s'.Layout rs :=
  layout.congr h.ranges h.totalFrames

theorem Fits.of_ranges (fits : s.Fits b) (same : s'.ranges = s.ranges) : s'.Fits b :=
  ⟨fits.order, fits.aligned, same ▸ fits.range⟩

theorem Relinked.clean (h : Relinked s s') (clean : s.Clean b) : s'.Clean b := by
  intro i has
  rw [h.flags, h.refcount]
  exact clean i has

theorem Relinked.ownedBlock (h : Relinked s s') (own : s.OwnedBlock b) : s'.OwnedBlock b where
  fits := own.fits.of_ranges h.ranges
  flags := (h.flags _).trans own.flags
  order := (h.order _).trans own.order
  referenced := by
    rw [h.refcount]
    exact own.referenced
  counted := by
    rw [h.refcount]
    exact own.counted
  rest i has other := (h.refcount i).trans (own.rest i has other)

theorem Relinked.freeBlock (h : Relinked s s') (block : s.FreeBlock b)
    (bit : s'.freemap b.start = true) : s'.FreeBlock b :=
  ⟨block.fits.of_ranges h.ranges, bit, (h.order _).trans block.order, h.clean block.clean⟩

/-- One order gets another list, in the allocator and among the starts. -/
theorem forall_update {P : FreeList → List Pfn → Prop} {lists : Nat → FreeList} {list : FreeList}
    {starts : List Pfn} (here : P list starts)
    (elsewhere : ∀ o ≤ maxOrder, o ≠ o' → P (lists o) (free o)) :
    ∀ o ≤ maxOrder, P (update lists o' list o) (update free o' starts o) := by
  intro o ho
  by_cases same : o = o'
  · subst same
    rw [update_self, update_self]
    exact here
  · rw [update_of_ne same, update_of_ne same]
    exact elsewhere o ho same

theorem sum_size_of_perm (more : (freeBlocks free').Perm (b :: freeBlocks free)) :
    ((freeBlocks free').map Block.size).sum =
      b.size + ((freeBlocks free).map Block.size).sum := by
  rw [(more.map Block.size).sum_eq, map_cons, sum_cons]

/-! ### Numbers of frames -/

theorem Fits.start_lt (fits : s.Fits b) (layout : s.Layout rs) :
    b.start + b.size ≤ s.totalFrames := by
  obtain ⟨r, mem, -, last⟩ := fits.range
  exact last.trans (layout.total r mem)

theorem Inv.fits (inv : Inv rs s free owned hand) (mem : b ∈ freeBlocks free ++ owned) :
    s.Fits b := by
  rcases mem_append.mp mem with mem | mem
  · exact (inv.freeBlock b mem).fits
  · exact (inv.ownedBlock b mem).fits

theorem Inv.sum_le (inv : Inv rs s free owned hand) :
    ((freeBlocks free).map Block.size).sum + (owned.map Block.size).sum ≤ s.totalFrames := by
  have all := Block.sum_size_le inv.apart fun b mem => (inv.fits mem).start_lt inv.layout
  rwa [map_append, sum_append] at all

/-! ### Frames outside -/

/-- Nothing but metadata differs. -/
structure SameLists (s s' : Pfa) : Prop where
  ranges : s'.ranges = s.ranges
  totalFrames : s'.totalFrames = s.totalFrames
  freeFrames : s'.freeFrames = s.freeFrames
  freeLists : s'.freeLists = s.freeLists
  freemap : s'.freemap = s.freemap

theorem sameLists_modify (s : Pfa) (pfn : Pfn) (f : FrameMeta → FrameMeta) :
    SameLists s (s.modify pfn f) :=
  ⟨rfl, rfl, rfl, rfl, rfl⟩

theorem SameLists.trans (h : SameLists s t) (h' : SameLists t s') : SameLists s s' where
  ranges := h'.ranges.trans h.ranges
  totalFrames := h'.totalFrames.trans h.totalFrames
  freeFrames := h'.freeFrames.trans h.freeFrames
  freeLists := h'.freeLists.trans h.freeLists
  freemap := h'.freemap.trans h.freemap

theorem SameLists.layout (h : SameLists s s') (layout : s.Layout rs) : s'.Layout rs :=
  layout.congr h.ranges h.totalFrames

theorem FreeBlock.of_metaOf (block : s.FreeBlock b) (rest : SameLists s s')
    (same : ∀ j, b.Has j → s'.metaOf j = s.metaOf j) : s'.FreeBlock b := by
  refine ⟨block.fits.of_ranges rest.ranges, ?_, ?_, ?_⟩
  · rw [rest.freemap]
    exact block.bit
  · rw [same b.start b.has_start]
    exact block.order
  · intro j has
    rw [same j has]
    exact block.clean j has

theorem OwnedBlock.of_metaOf (own : s.OwnedBlock b) (rest : SameLists s s')
    (same : ∀ j, b.Has j → s'.metaOf j = s.metaOf j) : s'.OwnedBlock b := by
  have start := same b.start b.has_start
  refine ⟨own.fits.of_ranges rest.ranges, ?_, ?_, ?_, ?_, ?_⟩
  · rw [start]
    exact own.flags
  · rw [start]
    exact own.order
  · rw [start]
    exact own.referenced
  · rw [start]
    exact own.counted
  · intro j has other
    rw [same j has]
    exact own.rest j has other

section
variable (inv : Inv rs s free owned hand)
include inv

/-- The metadata of frames in no block does not matter. -/
theorem Inv.of_metaOf (rest : SameLists s s')
    (same : ∀ c ∈ freeBlocks free ++ owned, ∀ j, c.Has j → s'.metaOf j = s.metaOf j) :
    Inv rs s' free owned hand := by
  refine ⟨rest.layout inv.layout, ?_, ?_, ?_, ?_, ?_, inv.apart, ?_⟩
  · intro o ho
    rw [rest.freeLists]
    refine (inv.lists o ho).frame ?_
    intro x hx
    have mem : (⟨x, o⟩ : Block) ∈ freeBlocks free := mem_freeBlocks.mpr ⟨ho, hx⟩
    have here := same _ (mem_append_left _ mem) x (Block.has_start ⟨x, o⟩)
    exact ⟨congrArg FrameMeta.prev here, congrArg FrameMeta.next here⟩
  · rw [rest.freeLists]
    exact inv.count
  · intro b mem
    exact (inv.freeBlock b mem).of_metaOf rest (same b (mem_append_left _ mem))
  · rw [rest.freemap]
    exact inv.bits
  · intro b mem
    exact (inv.ownedBlock b mem).of_metaOf rest (same b (mem_append_right _ mem))
  · rw [rest.freeFrames]
    exact inv.ledger

theorem Inv.modify
    (outside : ∀ c ∈ freeBlocks free ++ owned, ¬c.Has i) (f : FrameMeta → FrameMeta) :
    Inv rs (s.modify i f) free owned hand := by
  refine inv.of_metaOf (sameLists_modify s i f) ?_
  intro c mem j has
  refine update_of_ne ?_ _ _
  rintro rfl
  exact outside c mem has

/-- The number of free frames is set. -/
theorem Inv.setFreeFrames {n hand' : Nat}
    (ledger : n = ((freeBlocks free).map Block.size).sum + hand') :
    Inv rs { s with freeFrames := n } free owned hand' := by
  refine ⟨{ inv.layout with }, inv.lists,
    inv.count, ?_,
    inv.bits, ?_, inv.apart, ledger⟩
  · intro b mem
    have block := inv.freeBlock b mem
    exact { block with fits := block.fits.of_ranges rfl }
  · intro b mem
    have own := inv.ownedBlock b mem
    exact { own with fits := own.fits.of_ranges rfl }

/-! ### Owned blocks -/

theorem Inv.perm {owned' : List Block} (same : owned.Perm owned') : Inv rs s free owned' hand := by
  refine { inv with ownedBlock := ?_, apart := ?_ }
  · exact fun b mem => inv.ownedBlock b (same.mem_iff.mpr mem)
  · exact ((same.append_left _).pairwise_iff Block.Apart.symm).mp inv.apart

end

theorem Inv.drop (inv : Inv rs s free (b :: owned) hand) :
    Inv rs s free owned hand ∧ Loose free owned b := by
  have apart := (perm_middle.pairwise_iff Block.Apart.symm).mp inv.apart
  obtain ⟨loose, apart⟩ := pairwise_cons.mp apart
  refine ⟨{ inv with ownedBlock := ?_, apart := apart }, loose⟩
  exact fun c mem => inv.ownedBlock c (.tail _ mem)

/-- A loose block gets an owner. -/
theorem Inv.add (inv : Inv rs s free owned hand) (loose : Loose free owned b)
    (own : s.OwnedBlock b) : Inv rs s free (b :: owned) hand := by
  refine { inv with ownedBlock := ?_, apart := ?_ }
  · exact forall_mem_cons.mpr ⟨own, inv.ownedBlock⟩
  · refine (perm_middle.pairwise_iff Block.Apart.symm).mpr ?_
    exact pairwise_cons.mpr ⟨loose, inv.apart⟩

variable {f : FrameMeta → FrameMeta} {pfn i : Pfn} {next : Option Pfn}

section
variable (inv : Inv rs s free owned hand)
include inv

/-- The references of an owned block are counted anew. -/
theorem Inv.recount (mem : b ∈ owned) {n : Nat}
    (set : f (s.metaOf b.start) = { s.metaOf b.start with refcount := n }) (pos : 0 < n)
    (small : n < 2 ^ 16) : Inv rs (s.modify b.start f) free owned hand := by
  have own := inv.ownedBlock b mem
  have front := perm_cons_erase mem
  obtain ⟨rest, loose⟩ := (inv.perm front).drop
  have counted := rest.modify (fun c mem => (loose c mem).not_has b.has_start) f
  refine Inv.perm (counted.add loose ?_) front.symm
  have start : (s.modify b.start f).metaOf b.start = { s.metaOf b.start with refcount := n } :=
    (update_self ..).trans set
  refine ⟨own.fits.of_ranges rfl, ?_, ?_, ?_, ?_, ?_⟩
  · rw [start]
    exact own.flags
  · rw [start]
    exact own.order
  · rw [start]
    exact pos
  · rw [start]
    exact small
  · intro i has other
    refine Eq.trans ?_ (own.rest i has other)
    exact congrArg FrameMeta.refcount (update_of_ne other _ _)

theorem Inv.freemap_eq_false (loose : Loose free owned b)
    (has : b.Has i) : s.freemap i = false := by
  rw [Bool.eq_false_iff]
  intro bit
  obtain ⟨c, mem, rfl⟩ := inv.bits i bit
  exact (loose c (mem_append_left _ mem)).not_has has c.has_start

/-! ### Listing a block -/

omit inv in
theorem modify_metaOf :
    (s.modify pfn f).metaOf i = if i = pfn then f (s.metaOf pfn) else s.metaOf i := by
  simp only [modify, Function.update_apply]

omit inv in
/-- An update of the links of a frame. -/
theorem relinked_modify (s : Pfa) (pfn : Pfn)
    (links : ∀ m, ∃ prev next, f m = { m with prev, next }) : Relinked s (s.modify pfn f) := by
  refine ⟨rfl, rfl, rfl, ?_, ?_, ?_⟩
  all_goals
    intro i
    rw [modify_metaOf]
    split
    · next same =>
      obtain ⟨prev, next, only⟩ := links (s.metaOf pfn)
      rw [only, same]
    · rfl

omit inv in
theorem linkBack_metaOf :
    (s.linkBack next pfn).metaOf i =
      if next = some i then { s.metaOf i with prev := some pfn } else s.metaOf i := by
  cases next with
  | none => rfl
  | some next =>
    by_cases same : next = i
    · subst same
      simp [linkBack, modify_metaOf]
    · simp [linkBack, modify_metaOf, same, Ne.symm same]

omit inv in
/-- Nothing but a link changes. -/
theorem linkBack_rest (s : Pfa) (next : Option Pfn) (pfn : Pfn) :
    Relinked s (s.linkBack next pfn) ∧ (s.linkBack next pfn).freeLists = s.freeLists ∧
      (s.linkBack next pfn).freemap = s.freemap := by
  cases next with
  | none => exact ⟨.refl s, rfl, rfl⟩
  | some next => exact ⟨relinked_modify s next fun _ => ⟨_, _, rfl⟩, rfl, rfl⟩

omit inv in
/-- What `fl_push` leaves when it does not panic. -/
theorem flPush_ok (prev : (s.metaOf pfn).prev = none) (next : (s.metaOf pfn).next = none)
    (bit : s.freemap pfn = false) (other : (s.freeLists order).head ≠ some pfn) :
    ∃ s', s.flPush pfn order = .ok s' ∧ Relinked s s' ∧
      s'.freemap = update s.freemap pfn true ∧
      s'.freeLists =
        update s.freeLists order ⟨some pfn, (s.freeLists order).count + 1⟩ ∧
      (s'.metaOf pfn).prev = none ∧ (s'.metaOf pfn).next = (s.freeLists order).head ∧
      ∀ i ≠ pfn, (s'.metaOf i).next = (s.metaOf i).next ∧ (s'.metaOf i).prev =
        if (s.freeLists order).head = some i then some pfn else (s.metaOf i).prev := by
  have links : ¬((s.metaOf pfn).prev ≠ none ∨ (s.metaOf pfn).next ≠ none) := by
    simp [prev, next]
  unfold flPush
  rw [if_neg links, if_neg (by simp [bit])]
  obtain ⟨back, lists, bits⟩ := linkBack_rest
    (s.modify pfn fun m => { m with prev := none, next := (s.freeLists order).head })
    (s.freeLists order).head pfn
  have all := (relinked_modify s pfn fun _ => ⟨_, _, rfl⟩).trans back
  refine ⟨_, rfl, { all with }, ?_, ?_, ?_, ?_, ?_⟩
  · simp only [bits]
    rfl
  · simp only [lists]
    rfl
  · simp [linkBack_metaOf, modify_metaOf, other]
  · simp [linkBack_metaOf, modify_metaOf, other]
  · intro i ne
    simp only [linkBack_metaOf, modify_metaOf, if_neg ne]
    split <;> simp

theorem Inv.order_eq (ho : o ≤ maxOrder) (ho' : o' ≤ maxOrder) (mem : i ∈ free o)
    (mem' : i ∈ free o') : o = o' := by
  have here : (⟨i, o⟩ : Block) ∈ freeBlocks free ++ owned :=
    mem_append_left _ (mem_freeBlocks.mpr ⟨ho, mem⟩)
  have there : (⟨i, o'⟩ : Block) ∈ freeBlocks free ++ owned :=
    mem_append_left _ (mem_freeBlocks.mpr ⟨ho', mem'⟩)
  have same := Block.eq_of_has inv.apart here there (Block.has_start ⟨i, o⟩)
    (Block.has_start ⟨i, o'⟩)
  exact congrArg Block.order same

omit inv in
theorem Loose.notMem (loose : Loose free owned b) (ho : o ≤ maxOrder) : b.start ∉ free o := by
  intro mem
  have other := loose ⟨b.start, o⟩ (mem_append_left _ (mem_freeBlocks.mpr ⟨ho, mem⟩))
  exact other.not_has b.has_start (Block.has_start ⟨b.start, o⟩)

/-- The other lists do not notice that a block is listed. -/
theorem Inv.lists_push (fits : s.Fits b)
    (loose : Loose free owned b)
    (links : ∀ i ≠ b.start, (s'.metaOf i).next = (s.metaOf i).next ∧ (s'.metaOf i).prev =
      if (s.freeLists b.order).head = some i then some b.start else (s.metaOf i).prev)
    (ho : o ≤ maxOrder) (other : o ≠ b.order) :
    DList (fun i => (s'.metaOf i).prev) (fun i => (s'.metaOf i).next) (s.freeLists o).head
      (free o) := by
  refine (inv.lists o ho).frame ?_
  intro x hx
  have ne : x ≠ b.start := by
    rintro rfl
    exact loose.notMem ho hx
  obtain ⟨next, prev⟩ := links x ne
  have notHead : (s.freeLists b.order).head ≠ some x := by
    rw [(inv.lists b.order fits.order).first]
    intro same
    exact other (inv.order_eq ho fits.order hx (mem_of_mem_head? same))
  rw [if_neg notHead] at prev
  exact ⟨prev, next⟩

end

theorem Inv.flPush (inv : Inv rs s free owned (hand + b.size)) (fits : s.Fits b)
    (loose : Loose free owned b) (clean : s.Clean b)
    (start : s.metaOf b.start = ⟨none, none, 0, b.order, .free⟩) :
    ∃ s', s.flPush b.start b.order = .ok s' ∧
      Inv rs s' (update free b.order (b.start :: free b.order)) owned hand ∧
      Relinked s s' := by
  have bit := inv.freemap_eq_false loose b.has_start
  have notHead : (s.freeLists b.order).head ≠ some b.start := by
    rw [(inv.lists b.order fits.order).first]
    intro same
    exact loose.notMem fits.order (mem_of_mem_head? same)
  obtain ⟨s', pushed, relinked, bits, lists, prev, next, links⟩ :=
    flPush_ok (by rw [start]) (by rw [start]) bit notHead
  have more : (freeBlocks _).Perm (b :: freeBlocks free) := freeBlocks_push fits.order
  have ne : ∀ y ∈ free b.order, y ≠ b.start := by
    rintro y hy rfl
    exact loose.notMem fits.order hy
  refine ⟨s', pushed, ⟨relinked.layout inv.layout, ?_, ?_, ?_, ?_, ?_, ?_, ?_⟩, relinked⟩
  · rw [lists]
    refine forall_update (P := fun list starts => DList _ _ list.head starts) ?_ ?_
    · exact (inv.lists b.order fits.order).push (loose.notMem fits.order) prev next
        (fun y hy => (links y (ne y hy)).2) fun y hy => (links y (ne y hy)).1
    · exact fun o ho other => inv.lists_push fits loose links ho other
  · rw [lists]
    refine forall_update (P := fun list starts => list.count = starts.length) ?_ ?_
    · rw [length_cons, inv.count _ fits.order]
    · exact fun o ho _ => inv.count o ho
  · intro c mem
    rcases mem_cons.mp (more.mem_iff.mp mem) with rfl | mem
    · refine ⟨fits.of_ranges relinked.ranges, ?_, ?_, relinked.clean clean⟩
      · rw [bits]
        exact update_self ..
      · rw [relinked.order, start]
    · have block := inv.freeBlock c mem
      refine relinked.freeBlock block ?_
      rw [bits, Function.update_apply, block.bit, ite_self]
  · intro i set
    rw [bits] at set
    by_cases same : i = b.start
    · exact ⟨b, more.mem_iff.mpr (.head _), same.symm⟩
    · rw [update_of_ne same] at set
      obtain ⟨c, mem, here⟩ := inv.bits i set
      exact ⟨c, more.mem_iff.mpr (.tail _ mem), here⟩
  · exact fun c mem => relinked.ownedBlock (inv.ownedBlock c mem)
  · refine ((more.append_right owned).pairwise_iff Block.Apart.symm).mpr ?_
    exact pairwise_cons.mpr ⟨loose, inv.apart⟩
  · rw [relinked.freeFrames, inv.ledger, sum_size_of_perm more]
    omega

/-- A block in hand is listed. -/
theorem Inv.pushFree (inv : Inv rs s free owned (hand + b.size)) (fits : s.Fits b)
    (loose : Loose free owned b)
    (clean : ∀ i, b.Has i → i ≠ b.start →
      (s.metaOf i).flags = .free ∧ (s.metaOf i).refcount = 0) :
    ∃ s', (s.setFree b.start b.order).flPush b.start b.order = .ok s' ∧
      Inv rs s' (update free b.order (b.start :: free b.order)) owned hand ∧
      Relinked (s.setFree b.start b.order) s' := by
  have set : Inv rs (s.setFree b.start b.order) free owned (hand + b.size) :=
    inv.modify (fun c mem => (loose c mem).not_has b.has_start) _
  refine set.flPush (fits.of_ranges rfl) loose ?_ ?_
  · intro i has
    simp only [setFree, modify_metaOf]
    by_cases same : i = b.start
    · rw [if_pos same]
      exact ⟨rfl, rfl⟩
    · rw [if_neg same]
      exact clean i has same
  · simp [setFree, modify_metaOf]

/-! ### Taking a block -/

theorem Relinked.listed (h : Relinked s s') (pfn : Pfn) (order : Nat) :
    s'.listed pfn order = s.listed pfn order := by
  unfold Pfa.listed pfnValid rangeForPfn
  rw [h.ranges, h.order, h.flags]

theorem relinkPrev_ok {prev : Option Pfn}
    (listed : ∀ p ∈ prev, s.listed p order = true) (next : Option Pfn) :
    ∃ s', s.relinkPrev prev next order = .ok s' ∧ Relinked s s' ∧ s'.freemap = s.freemap ∧
      s'.freeLists = update s.freeLists order
        { s.freeLists order with head := if prev = none then next else (s.freeLists order).head } ∧
      ∀ i, (s'.metaOf i).prev = (s.metaOf i).prev ∧
        (s'.metaOf i).next = if prev = some i then next else (s.metaOf i).next := by
  cases prev with
  | none =>
    exact ⟨_, rfl, { Relinked.refl s with }, rfl, rfl, fun i => ⟨rfl, rfl⟩⟩
  | some p =>
    refine ⟨s.modify p fun m => { m with next }, ?_,
      relinked_modify s p fun _ => ⟨_, _, rfl⟩, rfl, ?_, ?_⟩
    · simp only [relinkPrev, listed p rfl, if_true]
    · exact (Function.update_eq_self order s.freeLists).symm
    · intro i
      rw [modify_metaOf]
      by_cases same : i = p
      · simp [same]
      · simp [same, Ne.symm same]

theorem relinkNext_ok (listed : ∀ n ∈ next, s.listed n order = true) (prev : Option Pfn) :
    ∃ s', s.relinkNext prev next order = .ok s' ∧ Relinked s s' ∧ s'.freemap = s.freemap ∧
      s'.freeLists = s.freeLists ∧
      ∀ i, (s'.metaOf i).next = (s.metaOf i).next ∧
        (s'.metaOf i).prev = if next = some i then prev else (s.metaOf i).prev := by
  cases next with
  | none => exact ⟨_, rfl, Relinked.refl s, rfl, rfl, fun i => ⟨rfl, rfl⟩⟩
  | some n =>
    refine ⟨s.modify n fun m => { m with prev }, ?_,
      relinked_modify s n fun _ => ⟨_, _, rfl⟩, rfl, rfl, ?_⟩
    · simp only [relinkNext, listed n rfl, if_true]
    · intro i
      rw [modify_metaOf]
      by_cases same : i = n
      · simp [same]
      · simp [same, Ne.symm same]

/-- What `fl_remove` leaves when it does not panic. -/
theorem flRemove_ok (cfg : PfaConfig) (trap : s.trap pfn order = none)
    (prevListed : ∀ p ∈ (s.metaOf pfn).prev, s.listed p order = true)
    (nextListed : ∀ n ∈ (s.metaOf pfn).next, s.listed n order = true) :
    ∃ s', s.flRemove cfg pfn order = .ok s' ∧ Relinked s s' ∧
      s'.freemap = update s.freemap pfn false ∧
      s'.freeLists = update s.freeLists order
        ⟨if (s.metaOf pfn).prev = none then (s.metaOf pfn).next else (s.freeLists order).head,
          (s.freeLists order).count - 1⟩ ∧
      ∀ i ≠ pfn,
        (s'.metaOf i).prev = (if (s.metaOf pfn).next = some i then (s.metaOf pfn).prev
          else (s.metaOf i).prev) ∧
        (s'.metaOf i).next = if (s.metaOf pfn).prev = some i then (s.metaOf pfn).next
          else (s.metaOf i).next := by
  obtain ⟨s₁, ok₁, relinked₁, bits₁, lists₁, links₁⟩ :=
    relinkPrev_ok (s := { s with freemap := update s.freemap pfn false }) prevListed
      (s.metaOf pfn).next
  obtain ⟨s₂, ok₂, relinked₂, bits₂, lists₂, links₂⟩ := relinkNext_ok (s := s₁)
    (fun n mem => (relinked₁.listed n order).trans (nextListed n mem)) (s.metaOf pfn).prev
  have noTrap : (if cfg.trace = true then
      { s with freemap := update s.freemap pfn false }.trap pfn order else none) =
      none := by
    split
    · exact trap
    · rfl
  have last := relinked_modify s₂ pfn (f := fun m => { m with prev := none, next := none })
    fun _ => ⟨_, _, rfl⟩
  have all := (relinked₁.trans relinked₂).trans last
  have lists : s₂.freeLists order =
      ⟨if (s.metaOf pfn).prev = none then (s.metaOf pfn).next else (s.freeLists order).head,
        (s.freeLists order).count⟩ := by
    rw [lists₂, lists₁, update_self]
  refine ⟨{ s₂.modify pfn (fun m => { m with prev := none, next := none }) with
      freeLists := update s₂.freeLists order
        { s₂.freeLists order with count := (s₂.freeLists order).count - 1 } }, ?_,
    { all with },
    bits₂.trans bits₁, ?_, ?_⟩
  · unfold flRemove
    simp only [noTrap, ok₁, ok₂, bind, Except.bind]
    rfl
  · simp only [lists]
    rw [lists₂, lists₁, Function.update_idem]
  · intro i ne
    simp only [modify_metaOf, if_neg ne]
    obtain ⟨prev₁, next₁⟩ := links₁ i
    obtain ⟨next₂, prev₂⟩ := links₂ i
    rw [prev₂, prev₁, next₂, next₁]
    exact ⟨rfl, rfl⟩

theorem FreeBlock.listed (block : s.FreeBlock b) : s.listed b.start b.order = true := by
  obtain ⟨r, mem, low, high⟩ := block.fits.range
  have := b.size_pos
  have inside : b.start < r.endPfn := by omega
  have valid : s.pfnValid b.start = true := by
    unfold pfnValid rangeForPfn
    rw [find?_isSome]
    exact ⟨r, mem, decide_eq_true ⟨low, inside⟩⟩
  simp [Pfa.listed, valid, block.order, (block.clean b.start b.has_start).1]

section
variable (inv : Inv rs s free owned hand)
include inv

section
variable (ho : o ≤ maxOrder)
include ho

theorem Inv.neighbours (split : free o = xs ++ p :: ys) :
    (s.metaOf p).prev = xs.getLast? ∧ (s.metaOf p).next = ys.head? := by
  have list := inv.lists o ho
  rw [split] at list
  exact list.neighbours

theorem Inv.listed (mem : p ∈ free o) : s.listed p o = true :=
  (inv.freeBlock ⟨p, o⟩ (mem_freeBlocks.mpr ⟨ho, mem⟩)).listed

theorem Inv.trap_eq_none (mem : p ∈ free o) : s.trap p o = none := by
  obtain ⟨xs, ys, split⟩ := append_of_mem mem
  obtain ⟨prev, next⟩ := inv.neighbours ho split
  have head : ¬((s.metaOf p).prev = none ∧ (s.freeLists o).head ≠ some p) := by
    rw [prev, (inv.lists o ho).first, split]
    cases xs with
    | nil => simp
    | cons x xs => simp [getLast?_cons]
  have back : ((s.metaOf p).prev.any fun q =>
      s.listed q o && (s.metaOf q).next != some p) = false := by
    rw [prev]
    rcases eq_nil_or_concat' xs with rfl | ⟨front, q, rfl⟩
    · rfl
    · have split' : free o = front ++ q :: p :: ys := by
        rw [split]
        simp
      simp [(inv.neighbours ho split').2]
  have on : ((s.metaOf p).next.any fun q =>
      s.listed q o && (s.metaOf q).prev != some p) = false := by
    rw [next]
    cases ys with
    | nil => rfl
    | cons q ys =>
      have split' : free o = xs ++ [p] ++ q :: ys := by
        rw [split]
        simp
      simp [(inv.neighbours ho split').1]
  unfold trap
  rw [if_neg head, back, on]
  rfl

/-- The other lists do not notice that a block is taken. -/
theorem Inv.lists_remove (split : free o = xs ++ p :: ys)
    (links : ∀ i ≠ p, (s'.metaOf i).prev =
      (if (s.metaOf p).next = some i then (s.metaOf p).prev else (s.metaOf i).prev) ∧
      (s'.metaOf i).next =
        if (s.metaOf p).prev = some i then (s.metaOf p).next else (s.metaOf i).next)
    (ho' : o' ≤ maxOrder) (other : o' ≠ o) :
    DList (fun i => (s'.metaOf i).prev) (fun i => (s'.metaOf i).next) (s.freeLists o').head
      (free o') := by
  obtain ⟨prev, next⟩ := inv.neighbours ho split
  have elsewhere : ∀ x ∈ free o', x ∉ free o := fun x here there =>
    other (inv.order_eq ho' ho here there)
  refine (inv.lists o' ho').frame ?_
  intro x hx
  have notMem := elsewhere x hx
  rw [split] at notMem
  have ne : x ≠ p := by
    rintro rfl
    exact notMem (by simp)
  obtain ⟨prev', next'⟩ := links x ne
  have notNext : (s.metaOf p).next ≠ some x := by
    rw [next]
    intro same
    exact notMem (mem_append_right _ (.tail _ (mem_of_mem_head? same)))
  have notPrev : (s.metaOf p).prev ≠ some x := by
    rw [prev]
    intro same
    exact notMem (mem_append_left _ (mem_of_getLast? same))
  rw [if_neg notNext] at prev'
  rw [if_neg notPrev] at next'
  exact ⟨prev', next'⟩

end

/-- A block that was taken is loose. -/
theorem Inv.loose_of_perm (less : (freeBlocks free).Perm (b :: freeBlocks free')) :
    Loose free' owned b ∧ (freeBlocks free' ++ owned).Pairwise Block.Apart :=
  pairwise_cons.mp (((less.append_right owned).pairwise_iff Block.Apart.symm).mp inv.apart)

/-- A listed block is taken. -/
theorem Inv.flRemove (cfg : PfaConfig) (mem : b ∈ freeBlocks free) :
    ∃ s' free', s.flRemove cfg b.start b.order = .ok s' ∧
      (freeBlocks free).Perm (b :: freeBlocks free') ∧ Inv rs s' free' owned (hand + b.size) ∧
      Relinked s s' := by
  obtain ⟨ho, hp⟩ := mem_freeBlocks.mp mem
  obtain ⟨xs, ys, split⟩ := append_of_mem hp
  obtain ⟨prev, next⟩ := inv.neighbours ho split
  have less := freeBlocks_remove ho split
  have prevListed : ∀ p ∈ (s.metaOf b.start).prev, s.listed p b.order = true := by
    rw [prev]
    intro p last
    refine inv.listed ho ?_
    rw [split]
    exact mem_append_left _ (mem_of_getLast? last)
  have nextListed : ∀ n ∈ (s.metaOf b.start).next, s.listed n b.order = true := by
    rw [next]
    intro n first
    refine inv.listed ho ?_
    rw [split]
    exact mem_append_right _ (.tail _ (mem_of_mem_head? first))
  obtain ⟨s', removed, relinked, bits, lists, links⟩ :=
    flRemove_ok cfg (inv.trap_eq_none ho hp) prevListed nextListed
  obtain ⟨loose, apart⟩ := inv.loose_of_perm less
  have list := inv.lists b.order ho
  have count := inv.count b.order ho
  rw [split] at list count
  have ne : ∀ y ∈ xs ++ ys, y ≠ b.start := by
    rintro y hy rfl
    exact (nodup_cons.mp (nodup_middle.mp list.nodup)).1 hy
  refine ⟨s', _, removed, less,
    ⟨relinked.layout inv.layout, ?_, ?_, ?_, ?_, ?_, apart, ?_⟩, relinked⟩
  · rw [lists]
    refine forall_update (P := fun list starts => DList _ _ list.head starts) ?_ ?_
    · exact list.remove (fun y hy => (links y (ne y hy)).1) fun y hy => (links y (ne y hy)).2
    · exact fun o ho' other => inv.lists_remove ho split links ho' other
  · rw [lists]
    refine forall_update (P := fun list starts => list.count = starts.length) ?_ ?_
    · simp only [length_append, length_cons] at count ⊢
      omega
    · exact fun o ho' _ => inv.count o ho'
  · intro c mem'
    have block := inv.freeBlock c (less.mem_iff.mpr (.tail _ mem'))
    have other : c.start ≠ b.start := by
      intro same
      have here := b.has_start
      rw [← same] at here
      exact (loose c (mem_append_left _ mem')).not_has here c.has_start
    refine relinked.freeBlock block ?_
    rw [bits, update_of_ne other]
    exact block.bit
  · intro i set
    rw [bits] at set
    by_cases same : i = b.start
    · rw [same, update_self] at set
      cases set
    · rw [update_of_ne same] at set
      obtain ⟨c, mem', here⟩ := inv.bits i set
      rcases mem_cons.mp (less.mem_iff.mp mem') with rfl | mem'
      · exact absurd here.symm same
      · exact ⟨c, mem', here⟩
  · exact fun c mem' => relinked.ownedBlock (inv.ownedBlock c mem')
  · rw [relinked.freeFrames, inv.ledger, sum_size_of_perm less]
    omega

end

end Pfa

end A20OS.Mm
