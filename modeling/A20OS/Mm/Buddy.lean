import A20OS.Lib.Loop
import A20OS.Mm.FreeList
import Mathlib.Data.List.TakeWhile

/-!
Allocation and release in the frame allocator.

Allocation takes a listed block, lists its upper halves until it has the order asked for, and
gives it out (`Inv.allocFromBuddy`). Release joins a block with its buddy as long as the buddy is
listed, and lists what it got (`Inv.release`). The metadata inside a free block is stale, but its
flags are clear and its frames are unreferenced, so no check of the allocator fires.
-/

namespace A20OS.Mm.Pfa

open Lib Function List

variable {rs : List PfaRange} {s s' t : Pfa} {cfg : PfaConfig} {free : Nat → List Pfn}
  {owned : List Block} {hand order n : Nat} {b c : Block} {i : Nat} {g : FrameMeta → FrameMeta}
  {range : PfaRange}

/-! ### Blocks in hand -/

theorem Loose.sub (loose : Loose free owned b) (inside : ∀ i, c.Has i → b.Has i) :
    Loose free owned c := by
  intro d mem
  exact Block.apart_of_not_has fun i has => (loose d mem).not_has (inside i has)

theorem Fits.lower {p o : Nat} (fits : s.Fits ⟨p, o + 1⟩) : s.Fits ⟨p, o⟩ := by
  obtain ⟨r, mem, low, high⟩ := fits.range
  have half : 2 ^ o ∣ 2 ^ (o + 1) := ⟨2, rfl⟩
  refine ⟨Nat.le_of_succ_le fits.order, half.trans fits.aligned, r, mem, low, ?_⟩
  simp only [Block.size] at high ⊢
  omega

theorem Fits.upper {p o : Nat} (fits : s.Fits ⟨p, o + 1⟩) : s.Fits ⟨p + 2 ^ o, o⟩ := by
  obtain ⟨r, mem, low, high⟩ := fits.range
  refine ⟨Nat.le_of_succ_le fits.order, ?_, r, mem, ?_, ?_⟩
  · exact (Nat.dvd_add_right fits.lower.aligned).mpr (Nat.dvd_refl _)
  · exact Nat.le_add_right_of_le low
  · simp only [Block.size] at high ⊢
    omega

/-- The block does not overlap what is listed after another block was. -/
theorem Loose.push (loose : Loose free owned b) (ho : c.order ≤ maxOrder) (apart : b.Apart c) :
    Loose (update free c.order (c.start :: free c.order)) owned b := by
  intro d mem
  have more : (freeBlocks (update free c.order (c.start :: free c.order))).Perm
      (c :: freeBlocks free) := freeBlocks_push ho
  rcases mem_cons.mp ((more.append_right owned).mem_iff.mp mem) with rfl | mem
  · exact apart
  · exact loose d mem

/-- No frame of a clean block stops a split. -/
theorem Clean.not_any (clean : s.Clean b) : ((List.range' b.start (2 ^ b.order)).any fun i =>
      decide ((s.metaOf i).flags = .alloc) || decide (0 < (s.metaOf i).refcount)) = false := by
  rw [any_eq_false]
  intro i mem
  obtain ⟨flags, refcount⟩ := clean i (mem_range'_1.mp mem)
  simp [flags, refcount]

/-! ### Splitting -/

theorem Inv.splitDown {blk : Nat} (inv : Inv rs s free owned (hand + Block.size ⟨blk, order + n⟩))
    (fits : s.Fits ⟨blk, order + n⟩) (loose : Loose free owned ⟨blk, order + n⟩)
    (clean : s.Clean ⟨blk, order + n⟩) :
    ∃ s' free', s.splitDown blk order n = .ok s' ∧
      Inv rs s' free' owned (hand + Block.size ⟨blk, order⟩) ∧ s'.Fits ⟨blk, order⟩ ∧
      Loose free' owned ⟨blk, order⟩ ∧ s'.Clean ⟨blk, order⟩ ∧ s'.freeFrames = s.freeFrames := by
  induction n generalizing s free with
  | zero => exact ⟨s, free, rfl, inv, fits, loose, clean, rfl⟩
  | succ n ih =>
    have buddy : blk ^^^ 2 ^ (order + n) = blk + 2 ^ (order + n) := Block.xor_eq_add fits.aligned
    have sizes : hand + Block.size ⟨blk, order + (n + 1)⟩ = hand +
        Block.size ⟨blk, order + n⟩ + Block.size ⟨blk + 2 ^ (order + n), order + n⟩ := by
      simp only [Block.size]
      ring
    rw [sizes] at inv
    have upperClean : s.Clean ⟨blk + 2 ^ (order + n), order + n⟩ := fun i has =>
      clean i (Block.has_halves.mpr (.inr has))
    have upperLoose : Loose free owned ⟨blk + 2 ^ (order + n), order + n⟩ :=
      loose.sub fun i has => Block.has_halves.mpr (.inr has)
    have apart : Block.Apart ⟨blk, order + n⟩ ⟨blk + 2 ^ (order + n), order + n⟩ :=
      .inl le_rfl
    obtain ⟨t, pushed, inv', relinked⟩ := inv.pushFree fits.upper upperLoose
      fun i has _ => upperClean i has
    have lowerClean : t.Clean ⟨blk, order + n⟩ := by
      refine relinked.clean ?_
      intro i has
      have other : i ≠ blk + 2 ^ (order + n) := by
        rintro rfl
        exact apart.not_has has (Block.has_start _)
      simp only [setFree, modify_metaOf, if_neg other]
      exact clean i (Block.has_halves.mpr (.inl has))
    obtain ⟨s', free', ok, result⟩ := ih inv' (fits.lower.of_ranges relinked.ranges)
      ((loose.sub fun i has => Block.has_halves.mpr (.inl has)).push fits.upper.order apart)
      lowerClean
    refine ⟨s', free', ?_, result.1, result.2.1, result.2.2.1, result.2.2.2.1, ?_⟩
    · have dirty := upperClean.not_any
      unfold Pfa.splitDown
      simp only [buddy, dirty, pushed, bind, Except.bind]
      exact ok
    · rw [result.2.2.2.2, relinked.freeFrames]
      rfl

/-! ### Giving out -/

/-- The first frame of the block gets `m`, and `g` changes its other frames. -/
structure Remarked (s t : Pfa) (b : Block) (m : FrameMeta) (g : FrameMeta → FrameMeta) : Prop where
  lists : SameLists s t
  start : t.metaOf b.start = m
  rest : ∀ i, b.Has i → i ≠ b.start → t.metaOf i = g (s.metaOf i)
  outside : ∀ i, ¬b.Has i → t.metaOf i = s.metaOf i

theorem sameLists_foldl :
    ∀ (is : List Pfn) (s : Pfa), SameLists s (is.foldl (fun s i => s.modify i g) s)
  | [], _ => ⟨rfl, rfl, rfl, rfl, rfl⟩
  | i :: is, s => (sameLists_modify s i g).trans (sameLists_foldl is (s.modify i g))

/-- A pass over the frames of a block after its first one. -/
theorem remarked_foldl (s : Pfa) (b : Block) (m : FrameMeta) (g : FrameMeta → FrameMeta) :
    Remarked s ((List.range' (b.start + 1) (2 ^ b.order - 1)).foldl (fun s i => s.modify i g)
      (s.modify b.start fun _ => m)) b m g := by
  have pass := foldl_pointwise Pfa.metaOf (fun s i => s.modify i g) (fun _ => g)
    (fun _ _ => update_self ..) (fun _ _ _ other => update_of_ne other _ _)
    (nodup_range' (s := b.start + 1) (n := 2 ^ b.order - 1)) (s.modify b.start fun _ => m)
  simp only [modify_metaOf, mem_range'_1] at pass
  refine ⟨(sameLists_modify s b.start _).trans (sameLists_foldl _ _), ?_, ?_, ?_⟩
  · rw [pass, if_neg (by omega), if_pos rfl]
  · intro i has other
    simp only [Block.Has, Block.size] at has
    rw [pass, if_pos (by omega), if_neg other]
  · intro i outside
    have other : i ≠ b.start := fun same => outside (same ▸ b.has_start)
    simp only [Block.Has, Block.size] at outside
    rw [pass, if_neg (by omega), if_neg other]

/-- What a marked frame looks like. -/
def marked (m : FrameMeta) : FrameMeta :=
  if 0 < m.refcount then m else ⟨none, none, 0, 0, .alloc⟩

theorem remarked_setAlloc (s : Pfa) (b : Block) :
    Remarked s (s.setAlloc b.start b.order) b ⟨none, none, 1, b.order, .alloc⟩ marked := by
  have each : markAlloc = fun s i => s.modify i marked := by
    funext s i
    unfold markAlloc
    split
    · next held => simp only [modify, marked, if_pos held, update_eq_self]
    · next free => simp only [modify, marked, if_neg free]
  unfold setAlloc
  rw [each]
  exact remarked_foldl ..

theorem Clean.ownedBlock (clean : s.Clean b) (fits : s.Fits b) :
    (s.setAlloc b.start b.order).OwnedBlock b := by
  have set := remarked_setAlloc s b
  refine ⟨fits.of_ranges set.lists.ranges, ?_, ?_, ?_, ?_, ?_⟩
  · rw [set.start]
  · rw [set.start]
  · rw [set.start]
    exact Nat.one_pos
  · rw [set.start]
    exact Nat.one_lt_two_pow (by decide)
  · intro i has other
    rw [set.rest i has other, marked, if_neg]
    rw [(clean i has).2]
    decide

/-- The metadata inside a block in hand changes. -/
theorem Inv.remarked (inv : Inv rs s free owned hand) (loose : Loose free owned b) {m : FrameMeta}
    (set : Remarked s s' b m g) : Inv rs s' free owned hand :=
  inv.of_metaOf set.lists fun c mem i has => set.outside i ((loose c mem).symm.not_has has)

/-- A block in hand is given out. -/
theorem Inv.giveOut (inv : Inv rs s free owned b.size) (fits : s.Fits b)
    (loose : Loose free owned b) (clean : s.Clean b) :
    Inv rs { s.setAlloc b.start b.order with freeFrames := s.freeFrames - b.size } free (b :: owned)
      0 := by
  have set := inv.remarked loose (remarked_setAlloc s b)
  refine (set.add loose (clean.ownedBlock fits)).setFreeFrames ?_
  rw [inv.ledger]
  omega

/-! ### Allocation -/

/-- The block that is found is the first one on its list. -/
theorem Inv.findBlock (inv : Inv rs s free owned hand) (found : s.findBlock order = some b) :
    b ∈ freeBlocks free ∧ order ≤ b.order := by
  obtain ⟨o, mem, first⟩ := exists_of_findSome?_eq_some found
  obtain ⟨blk, head, rfl⟩ := Option.map_eq_some_iff.mp first
  have bounds := mem_range'_1.mp mem
  have ho : o ≤ maxOrder := by omega
  rw [(inv.lists o ho).first] at head
  exact ⟨mem_freeBlocks.mpr ⟨ho, mem_of_mem_head? head⟩, bounds.1⟩

theorem Inv.freeFrames_lt (inv : Inv rs s free owned 0) : s.freeFrames < 2 ^ 32 := by
  have sum := inv.sum_le
  have small := inv.layout.small
  have := inv.ledger
  have := Nat.two_pow_pos maxOrder
  omega

theorem sub_mod_of_le {f : Nat} (le : n ≤ f) (small : f < 2 ^ 32) :
    (f + 2 ^ 32 - n) % 2 ^ 32 = f - n := by
  rw [Nat.sub_add_comm le, Nat.add_mod_right, Nat.mod_eq_of_lt (by omega)]

/-- Allocation never panics, and what it returns is a block of its own. -/
theorem Inv.allocFromBuddy (inv : Inv rs s free owned 0) (cfg : PfaConfig) (order : Nat) :
    ∃ r s' free', s.allocFromBuddy cfg order = .ok (r, s') ∧
      Inv rs s' free' ((r.map fun p => ⟨p, order⟩).toList ++ owned) 0 := by
  unfold Pfa.allocFromBuddy
  cases found : s.findBlock order with
  | none => exact ⟨none, s, free, rfl, inv⟩
  | some b =>
    obtain ⟨blk, o⟩ := b
    obtain ⟨mem, le⟩ := inv.findBlock found
    obtain ⟨n, rfl⟩ := Nat.exists_eq_add_of_le le
    have block := inv.freeBlock _ mem
    obtain ⟨t, free₁, removed, less, inv₁, relinked⟩ := inv.flRemove cfg mem
    obtain ⟨u, free₂, split, inv₂, fits, loose, clean, frames⟩ := inv₁.splitDown
      (block.fits.of_ranges relinked.ranges) (inv.loose_of_perm less).1
      (relinked.clean block.clean)
    rw [Nat.zero_add] at inv₂
    have good : ¬((t.metaOf blk).flags ≠ .free ∨ (t.metaOf blk).order ≠ order + n ∨
        blk % 2 ^ (order + n) ≠ 0) := by
      have flags : (s.metaOf blk).flags = .free := (block.clean _ (Block.has_start _)).1
      have sameOrder : (s.metaOf blk).order = order + n := block.order
      have aligned : blk % 2 ^ (order + n) = 0 := Nat.mod_eq_zero_of_dvd block.fits.aligned
      simp [relinked.flags, relinked.order, flags, sameOrder, aligned]
    have count : ((u.setAlloc blk order).freeFrames + 2 ^ 32 - 2 ^ order) % 2 ^ 32 =
        u.freeFrames - Block.size ⟨blk, order⟩ := by
      rw [(remarked_setAlloc u ⟨blk, order⟩).lists.freeFrames]
      refine sub_mod_of_le ?_ ?_
      · rw [inv₂.ledger]
        exact Nat.le_add_left _ _
      · rw [frames, relinked.freeFrames]
        exact inv.freeFrames_lt
    refine ⟨some blk, _, free₂, ?_, inv₂.giveOut fits loose clean⟩
    simp only [removed, if_neg good, Nat.add_sub_cancel_left, split, count, bind, Except.bind]

/-- The pages of a reserve, as blocks. -/
def pageBlocks (pages : List Pfn) : List Block := pages.map fun p => ⟨p, 0⟩

theorem Inv.refill (cfg : PfaConfig) (pages : List Pfn) (n : Nat)
    (inv : Inv rs s free (pageBlocks pages ++ owned) 0) :
    ∃ pages' s' free', s.refill cfg pages n = .ok (pages', s') ∧
      Inv rs s' free' (pageBlocks pages' ++ owned) 0 := by
  induction n generalizing s free pages with
  | zero => exact ⟨pages, s, free, rfl, inv⟩
  | succ n ih =>
    obtain ⟨r, t, free₁, ok, inv₁⟩ := inv.allocFromBuddy cfg 0
    cases r with
    | none =>
      refine ⟨pages, t, free₁, ?_, inv₁⟩
      simp only [Pfa.refill, ok, bind, Except.bind]
    | some extra =>
      obtain ⟨pages', s', free', filled, inv'⟩ := ih (extra :: pages) inv₁
      refine ⟨pages', s', free', ?_, inv'⟩
      simp only [Pfa.refill, ok, bind, Except.bind]
      exact filled

/-- `pfa_alloc_flags` never panics; what it returns and what it keeps for the CPU are blocks
of their own. -/
theorem Inv.allocFlags (cfg : PfaConfig) {batch : List Pfn}
    (inv : Inv rs s free (pageBlocks batch ++ owned) 0) (order : Int) :
    ∃ r batch' s' free', s.allocFlags cfg order batch = .ok (r, batch', s') ∧
      Inv rs s' free' ((r.map fun p => ⟨p, order.toNat⟩).toList ++ (pageBlocks batch' ++ owned))
        0 := by
  unfold Pfa.allocFlags
  by_cases out : order < 0 ∨ order > maxOrder
  · rw [if_pos out]
    exact ⟨none, batch, s, free, rfl, inv⟩
  rw [if_neg out]
  by_cases single : order = 0
  · subst single
    rw [if_pos rfl]
    cases batch with
    | cons page batch => exact ⟨some page, batch, s, free, rfl, inv⟩
    | nil =>
      obtain ⟨r, t, free₁, ok, inv₁⟩ := inv.allocFromBuddy cfg 0
      cases r with
      | none =>
        refine ⟨none, [], t, free₁, ?_, inv₁⟩
        simp only [ok, bind, Except.bind]
      | some page =>
        obtain ⟨pages, s', free', filled, inv'⟩ :=
          Inv.refill cfg [] (batchPages - 1) inv₁
        refine ⟨some page, pages, s', free', ?_, inv'.perm ?_⟩
        · simp only [ok, filled, bind, Except.bind]
        · exact perm_middle
  · rw [if_neg single]
    obtain ⟨r, t, free₁, ok, inv₁⟩ := inv.allocFromBuddy cfg order.toNat
    refine ⟨r, batch, t, free₁, ?_, inv₁⟩
    simp only [ok, bind, Except.bind]

/-! ### Joining -/

/-- No frame of the block is referenced. -/
def Unreferenced (s : Pfa) (b : Block) : Prop := ∀ i, b.Has i → (s.metaOf i).refcount = 0

/-- A buddy that can be joined is a listed block of the same range. -/
theorem Inv.canMerge (inv : Inv rs s free owned hand) {buddy : Nat} (mem : range ∈ s.ranges)
    (can : s.canMerge range buddy order = true) :
    ⟨buddy, order⟩ ∈ freeBlocks free ∧ range.startPfn ≤ buddy ∧
      buddy + 2 ^ order ≤ range.endPfn := by
  simp only [Pfa.canMerge, Bool.and_eq_true, decide_eq_true_eq, beq_iff_eq] at can
  obtain ⟨⟨⟨⟨⟨⟨-, low⟩, high⟩, -⟩, sameOrder⟩, bit⟩, -⟩ := can
  obtain ⟨⟨start, order'⟩, listed, rfl⟩ := inv.bits buddy bit
  have block := inv.freeBlock _ listed
  obtain rfl : order' = order := block.order.symm.trans sameOrder
  obtain ⟨r, memR, lowR, highR⟩ := block.fits.range
  have inside : start < r.endPfn := lt_of_lt_of_le (Block.has_start ⟨start, order'⟩).2 highR
  have same : range = r := inv.layout.apart range mem r memR start low high lowR inside
  subst same
  exact ⟨listed, lowR, highR⟩

/-- A block in hand is joined with its listed buddies. -/
theorem Inv.merge (cfg : PfaConfig) {pfn : Nat}
    (inv : Inv rs s free owned (hand + Block.size ⟨pfn, order⟩)) (mem : range ∈ s.ranges)
    (top : order + n = maxOrder) (aligned : 2 ^ order ∣ pfn) (low : range.startPfn ≤ pfn)
    (high : pfn + 2 ^ order ≤ range.endPfn) (loose : Loose free owned ⟨pfn, order⟩)
    (unreferenced : s.Unreferenced ⟨pfn, order⟩) :
    ∃ b s' free', s.merge cfg range pfn order n = .ok (b, s') ∧
      Inv rs s' free' owned (hand + b.size) ∧ s'.Fits b ∧ Loose free' owned b ∧
      s'.Unreferenced b := by
  induction n generalizing s free pfn order with
  | zero =>
    refine ⟨⟨pfn, order⟩, s, free, rfl, inv, ?_, loose, unreferenced⟩
    exact ⟨top.le, aligned, range, mem, low, high⟩
  | succ n ih =>
    simp only [Pfa.merge]
    by_cases can : s.canMerge range (pfn ^^^ 2 ^ order) order = true
    · rw [if_pos can]
      obtain ⟨listed, lowB, highB⟩ := inv.canMerge mem can
      have buddyClean := (inv.freeBlock _ listed).clean
      obtain ⟨t, free₁, removed, less, inv₁, relinked⟩ := inv.flRemove cfg listed
      have buddyLoose := (inv.loose_of_perm less).1
      have halves := fun i => Block.has_joined (i := i) aligned
      have sizes : hand + Block.size ⟨pfn, order⟩ + Block.size ⟨pfn ^^^ 2 ^ order, order⟩ =
          hand + Block.size ⟨min pfn (pfn ^^^ 2 ^ order), order + 1⟩ := by
        simp only [Block.size]
        ring
      rw [sizes] at inv₁
      have joinedHigh : min pfn (pfn ^^^ 2 ^ order) + 2 ^ (order + 1) ≤ range.endPfn := by
        rcases Block.start_xor aligned with ⟨-, buddy⟩ | ⟨-, buddy⟩ <;> omega
      have joinedLoose : Loose free₁ owned ⟨min pfn (pfn ^^^ 2 ^ order), order + 1⟩ := by
        intro c there
        refine Block.apart_of_not_has fun i has => ?_
        rcases (halves i).mp has with here | here
        · refine (loose c ?_).not_has here
          exact (less.append_right owned).mem_iff.mpr (.tail _ there)
        · exact (buddyLoose c there).not_has here
      have joinedUnreferenced :
          t.Unreferenced ⟨min pfn (pfn ^^^ 2 ^ order), order + 1⟩ := by
        intro i has
        rw [relinked.refcount]
        rcases (halves i).mp has with here | here
        · exact unreferenced i here
        · exact (buddyClean i here).2
      obtain ⟨b, s', free', ok, result⟩ := ih inv₁ (relinked.ranges ▸ mem)
        ((Nat.add_right_comm order 1 n).trans (by omega)) (Block.aligned_joined aligned)
        (Nat.le_min.mpr ⟨low, lowB⟩) joinedHigh joinedLoose joinedUnreferenced
      refine ⟨b, s', free', ?_, result⟩
      simp only [removed, bind, Except.bind]
      exact ok
    · rw [if_neg can]
      have ho : order ≤ maxOrder := by omega
      exact ⟨⟨pfn, order⟩, s, free, rfl, inv, ⟨ho, aligned, range, mem, low, high⟩, loose,
        unreferenced⟩

/-! ### Release -/

/-- What a cleared frame looks like. -/
def cleared (m : FrameMeta) : FrameMeta :=
  if 0 < m.refcount then m else if m.flags = .free then m else ⟨none, none, 0, 0, .free⟩

theorem remarked_clearBlock (whole : b.start + b.size ≤ s.totalFrames) :
    Remarked s (s.clearBlock b.start b.order) b ⟨none, none, 0, b.order, .free⟩ cleared := by
  have all : (range' (b.start + 1) (2 ^ b.order - 1)).takeWhile (· < s.totalFrames) =
      range' (b.start + 1) (2 ^ b.order - 1) := by
    rw [takeWhile_eq_self_iff]
    intro j mem
    have bounds := mem_range'_1.mp mem
    simp only [Block.size] at whole
    rw [decide_eq_true_eq]
    omega
  have each : clearFrame = fun s i => s.modify i cleared := by
    funext s i
    unfold clearFrame setFree
    split
    · next held => simp only [modify, cleared, if_pos held, update_eq_self]
    split
    · next clear => simp only [modify, cleared, clear, if_true, ite_self, update_eq_self]
    · next free other => simp only [modify, cleared, if_neg free, if_neg other]
  unfold clearBlock
  rw [all, each]
  exact remarked_foldl ..

/-- A cleared block is clean. -/
theorem Unreferenced.clean (unreferenced : s.Unreferenced b)
    (whole : b.start + b.size ≤ s.totalFrames) : (s.clearBlock b.start b.order).Clean b := by
  intro i has
  have set := remarked_clearBlock whole
  by_cases same : i = b.start
  · rw [same, set.start]
    exact ⟨rfl, rfl⟩
  · have refcount := unreferenced i has
    rw [set.rest i has same, cleared, if_neg (by omega)]
    split
    · next flags => exact ⟨flags, refcount⟩
    · exact ⟨rfl, rfl⟩

/-- `fl_push_clean` lists the whole block. -/
theorem Inv.flPushClean (inv : Inv rs s free owned (hand + b.size)) (fits : s.Fits b)
    (loose : Loose free owned b) (clean : s.Clean b) :
    ∃ s', s.flPushClean b.start b.order = .ok s' ∧
      Inv rs s' (update free b.order (b.start :: free b.order)) owned hand := by
  obtain ⟨s', pushed, inv', -⟩ := inv.pushFree fits loose fun i has _ => clean i has
  have unused : ∀ i, b.Has i → s.inUse i = false := by
    intro i has
    simp [inUse, (clean i has).2, inv.freemap_eq_false loose has]
  refine ⟨s', ?_, inv'⟩
  obtain ⟨start, order⟩ := b
  cases order with
  | zero =>
    have flags := (clean start (Block.has_start _)).1
    have here := unused start (Block.has_start _)
    simp only [Pfa.flPushClean, here, flags]
    exact pushed
  | succ order =>
    have none : (range' start (2 ^ (order + 1))).any s.inUse = false := by
      rw [any_eq_false]
      intro i mem
      rw [unused i (mem_range'_1.mp mem)]
      exact Bool.false_ne_true
    simp only [Pfa.flPushClean, none]
    exact pushed

/-- The range of a block is found. -/
theorem Fits.rangeForPfn (fits : s.Fits b) (layout : s.Layout rs) :
    ∃ r ∈ s.ranges, s.rangeForPfn b.start = some r ∧ r.startPfn ≤ b.start ∧
      b.start + b.size ≤ r.endPfn := by
  obtain ⟨r, mem, low, high⟩ := fits.range
  have inside : b.start < r.endPfn := lt_of_lt_of_le b.has_start.2 high
  have some : (s.rangeForPfn b.start).isSome = true := by
    unfold Pfa.rangeForPfn
    rw [find?_isSome]
    exact ⟨r, mem, decide_eq_true ⟨low, inside⟩⟩
  obtain ⟨r', found⟩ := Option.isSome_iff_exists.mp some
  have mem' := mem_of_find?_eq_some found
  have bounds := find?_some found
  rw [decide_eq_true_eq] at bounds
  obtain ⟨low', inside'⟩ := bounds
  have same : r' = r := layout.apart r' mem' r mem b.start low' inside' low inside
  exact ⟨r', mem', found, low', same ▸ high⟩

/-- A loose block and the free ones fit into the memory. -/
theorem Inv.freeFrames_add_lt (inv : Inv rs s free owned 0) (fits : s.Fits b)
    (loose : Loose free owned b) : s.freeFrames + b.size < 2 ^ 32 := by
  have below : ∀ c ∈ b :: (freeBlocks free ++ owned), c.start + c.size ≤ s.totalFrames :=
    forall_mem_cons.mpr
      ⟨fits.start_lt inv.layout, fun c mem => (inv.fits mem).start_lt inv.layout⟩
  have room := Block.sum_size_le (pairwise_cons.mpr ⟨loose, inv.apart⟩) below
  rw [map_cons, map_append, sum_cons, sum_append] at room
  have small := inv.layout.small
  have := inv.ledger
  have := Nat.two_pow_pos maxOrder
  omega

/-- A block without references goes back to the free lists. -/
theorem Inv.release (inv : Inv rs s free owned 0) (cfg : PfaConfig) (fits : s.Fits b)
    (loose : Loose free owned b) (unreferenced : s.Unreferenced b) :
    ∃ s' free', s.release cfg b.start b.order = .ok s' ∧ Inv rs s' free' owned 0 := by
  have count : (s.freeFrames + 2 ^ b.order) % 2 ^ 32 = s.freeFrames + b.size :=
    Nat.mod_eq_of_lt (inv.freeFrames_add_lt fits loose)
  have counted : Inv rs { s with freeFrames := s.freeFrames + b.size } free owned (0 + b.size) := by
    refine inv.setFreeFrames ?_
    rw [inv.ledger]
    omega
  obtain ⟨r, mem, found, low, high⟩ :=
    (fits.of_ranges rfl : Fits { s with freeFrames := s.freeFrames + b.size } b).rangeForPfn
      counted.layout
  obtain ⟨c, t, free₁, merged, inv₁, fits₁, loose₁, unreferenced₁⟩ := Inv.merge cfg counted mem
    (Nat.add_sub_of_le fits.order) fits.aligned low high loose unreferenced
  have set := remarked_clearBlock (fits₁.start_lt inv₁.layout)
  have clean := unreferenced₁.clean (fits₁.start_lt inv₁.layout)
  obtain ⟨s', pushed, inv'⟩ := (inv₁.remarked loose₁ set).flPushClean
    (fits₁.of_ranges set.lists.ranges) loose₁ clean
  refine ⟨s', _, ?_, inv'⟩
  simp only [Pfa.release, count, found, merged, bind, Except.bind]
  exact pushed

/-! ### Owners -/

/-- An owned block loses its last reference. -/
theorem Inv.release_owned (inv : Inv rs s free (b :: owned) 0) (cfg : PfaConfig)
    {f : FrameMeta → FrameMeta} (zero : (f (s.metaOf b.start)).refcount = 0) :
    ∃ s' free', (s.modify b.start f).release cfg b.start b.order = .ok s' ∧
      Inv rs s' free' owned 0 := by
  have own := inv.ownedBlock b (.head _)
  obtain ⟨rest, loose⟩ := inv.drop
  have modified := rest.modify (fun c mem => (loose c mem).not_has b.has_start) f
  refine modified.release cfg (own.fits.of_ranges rfl) loose ?_
  intro i has
  rw [modify_metaOf]
  split
  · exact zero
  · next other => exact own.rest i has other

/-- `pfa_free` of an owned block with one reference. -/
theorem Inv.pfaFree (inv : Inv rs s free (b :: owned) 0) (cfg : PfaConfig)
    (last : (s.metaOf b.start).refcount = 1) :
    ∃ s' free', s.free cfg b.start b.order = .ok s' ∧ Inv rs s' free' owned 0 := by
  have own := inv.ownedBlock b (.head _)
  have valid : ¬s.totalFrames ≤ b.start := by
    have := own.fits.start_lt inv.layout
    have := b.size_pos
    omega
  have mature : ¬((s.metaOf b.start).flags = .alloc ∧ 1 < (s.metaOf b.start).refcount) := by
    rw [last]
    exact fun early => Nat.lt_irrefl 1 early.2
  have given : (s.metaOf b.start).flags ≠ .free := by
    rw [own.flags]
    decide
  have order : (if maxOrder < (s.metaOf b.start).order then b.order
      else (s.metaOf b.start).order) = b.order := by
    rw [own.order, ite_self]
  simp only [Pfa.free]
  rw [if_neg valid, if_neg mature, if_neg given, order]
  exact inv.release_owned cfg rfl

theorem Fits.pfnValid (fits : s.Fits b) (layout : s.Layout rs) : s.pfnValid b.start ≠ false := by
  obtain ⟨r, -, found, -⟩ := fits.rangeForPfn layout
  rw [Pfa.pfnValid, found]
  nofun

/-- `frame_get` of the first frame of an owned block. -/
theorem Inv.get (inv : Inv rs s free owned 0) (mem : b ∈ owned)
    (few : (s.metaOf b.start).refcount + 1 < 2 ^ 16) :
    ∃ s', s.get b.start = .ok s' ∧ Inv rs s' free owned 0 := by
  have own := inv.ownedBlock b mem
  have referenced : (s.metaOf b.start).refcount ≠ 0 := own.referenced.ne'
  unfold Pfa.get
  rw [if_neg (own.fits.pfnValid inv.layout), if_neg referenced]
  refine ⟨_, rfl, inv.recount mem ?_ (Nat.succ_pos _) few⟩
  rw [Nat.mod_eq_of_lt few]

/-- `frame_put` of the first frame of an owned block: the block stays, or goes back with its
last reference. -/
theorem Inv.put (inv : Inv rs s free (b :: owned) 0) (cfg : PfaConfig) :
    ∃ s' free', s.put cfg b.start = .ok s' ∧
      Inv rs s' free' (if (s.metaOf b.start).refcount = 1 then owned else b :: owned) 0 := by
  have own := inv.ownedBlock b (.head _)
  have referenced := own.referenced
  have counted := own.counted
  have order : ¬maxOrder < (s.metaOf b.start).order := by
    rw [own.order]
    exact not_lt.mpr own.fits.order
  simp only [Pfa.put, putLocked]
  rw [if_neg (own.fits.pfnValid inv.layout), if_neg referenced.ne']
  by_cases last : (s.metaOf b.start).refcount = 1
  · rw [if_neg (by omega), if_neg order, if_pos last, own.order]
    refine inv.release_owned cfg ?_
    rw [last]
  · rw [if_pos (by omega), if_neg last]
    refine ⟨_, free, rfl, inv.recount mem_cons_self rfl ?_ ?_⟩
    · omega
    · omega

theorem Inv.put_rest (inv : Inv rs s free owned 0) (cfg : PfaConfig) (mem : b ∈ owned)
    (has : b.Has i) (other : i ≠ b.start) : s.put cfg i = .ok s := by
  have zero := (inv.ownedBlock b mem).rest i has other
  simp only [Pfa.put, putLocked]
  rw [if_pos zero, ite_self]

end A20OS.Mm.Pfa
