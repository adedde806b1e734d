import A20OS.Mm.Buddy

/-!
The initial state of the frame allocator.

`pfa_init` numbers the frames, marks those that hold the kernel, and lists the rest: single frames
up to the first multiple of the largest block, then blocks of falling order. What is listed lies
below the current frame (`Filling`). A layout with more than `2 ^ 32 - 2 ^ 11` frames wraps the
32-bit numbers; `init_inv` is about the others.
-/

namespace A20OS.Mm.Pfa

open Lib List

variable {rs : List PfaRange} {s s' t : Pfa} {free : Nat → List Pfn} {b : Block}
  {range : PfaRange} {cur : Nat}

/-- What is listed lies below the frame, and from the frame on nothing is in use. -/
structure Filling (rs : List PfaRange) (s : Pfa) (free : Nat → List Pfn) (cur : Nat) : Prop where
  inv : Inv rs s free [] 0
  below : ∀ b ∈ freeBlocks free, b.start + b.size ≤ cur
  fresh : ∀ i, cur ≤ i → (s.metaOf i).flags = .free ∧ (s.metaOf i).refcount = 0

/-! ### Listing -/

theorem flPush_setFreeFrames (s : Pfa) (n pfn order : Nat) :
    { s with freeFrames := n }.flPush pfn order =
      (s.flPush pfn order).map fun s => { s with freeFrames := n } := by
  simp only [flPush]
  repeat' split
  · rfl
  · rfl
  · cases (s.freeLists order).head <;> rfl

/-- The count follows the listing: it may as well go before. -/
theorem pushInitial_eq {pfn order : Nat} (n : Nat) (count : (s.freeFrames + 2 ^ order) % 2 ^ 32 = n)
    (pushed : ({ s with freeFrames := n }.setFree pfn order).flPush pfn order = .ok t) :
    s.pushInitial pfn order = .ok t := by
  have after := flPush_setFreeFrames (s.setFree pfn order) n pfn order
  have same := flPush_setFreeFrames (s.setFree pfn order) s.freeFrames pfn order
  change ({ s with freeFrames := n }.setFree pfn order).flPush pfn order = _ at after
  change (s.setFree pfn order).flPush pfn order = _ at same
  rw [pushed] at after
  unfold Pfa.pushInitial
  cases direct : (s.setFree pfn order).flPush pfn order with
  | error panic =>
    rw [direct] at after
    cases after
  | ok u =>
    rw [direct] at after same
    obtain rfl := Except.ok.inj after
    have kept : u = { u with freeFrames := s.freeFrames } := Except.ok.inj same
    have frames : u.freeFrames = s.freeFrames := by rw [kept]
    simp only [bind, Except.bind, frames, count]

/-- The next block is listed. -/
theorem Filling.pushInitial (filling : Filling rs s free cur) (fits : s.Fits b)
    (behind : cur ≤ b.start) :
    ∃ s' free', s.pushInitial b.start b.order = .ok s' ∧
      Filling rs s' free' (b.start + b.size) := by
  have inv := filling.inv
  have loose : Loose free [] b := by
    intro c mem
    rw [append_nil] at mem
    exact .inr ((filling.below c mem).trans behind)
  have counted : Inv rs { s with freeFrames := s.freeFrames + b.size } free [] (0 + b.size) := by
    refine inv.setFreeFrames ?_
    rw [inv.ledger]
    omega
  obtain ⟨t, pushed, inv', relinked⟩ := counted.pushFree (fits.of_ranges rfl) loose
    fun i has _ => filling.fresh i (behind.trans has.1)
  have count : (s.freeFrames + 2 ^ b.order) % 2 ^ 32 = s.freeFrames + b.size :=
    Nat.mod_eq_of_lt (inv.freeFrames_add_lt fits loose)
  refine ⟨t, _, pushInitial_eq _ count pushed, inv', ?_, ?_⟩
  · intro c mem
    rcases mem_cons.mp ((freeBlocks_push fits.order).mem_iff.mp mem) with rfl | mem
    · exact le_rfl
    · exact (filling.below c mem).trans (Nat.le_add_right_of_le behind)
  · intro i high
    have := b.size_pos
    have other : i ≠ b.start := by omega
    rw [relinked.flags, relinked.refcount]
    simp only [setFree, modify_metaOf, if_neg other]
    exact filling.fresh i (by omega)

/-- A number of blocks of an order are listed, one behind the other. -/
theorem Filling.pushRun {start order n : Nat} (filling : Filling rs s free start)
    (ho : order ≤ maxOrder) (mem : range ∈ rs) (aligned : 2 ^ order ∣ start)
    (low : range.startPfn ≤ start) (high : start + n * 2 ^ order ≤ range.endPfn) :
    ∃ s' free', s.pushRun start order n = .ok s' ∧ Filling rs s' free' (start + n * 2 ^ order) := by
  induction n generalizing s free start with
  | zero => exact ⟨s, free, rfl, by rwa [Nat.zero_mul]⟩
  | succ n ih =>
    have sizes : start + (n + 1) * 2 ^ order = start + 2 ^ order + n * 2 ^ order := by ring
    rw [sizes] at high ⊢
    have fits : s.Fits ⟨start, order⟩ :=
      ⟨ho, aligned, range, filling.inv.layout.ranges ▸ mem, low, Nat.le_of_add_right_le high⟩
    obtain ⟨t, free₁, pushed, filling₁⟩ := filling.pushInitial fits le_rfl
    obtain ⟨s', free', ok, filling'⟩ := ih filling₁
      ((Nat.dvd_add_right aligned).mpr (Nat.dvd_refl _)) (Nat.le_add_right_of_le low) high
    refine ⟨s', free', ?_, filling'⟩
    simp only [Pfa.pushRun, pushed, bind, Except.bind]
    exact ok

/-- The rest of a range is listed in blocks of falling order. -/
theorem Filling.pushRest {start remain order : Nat} (filling : Filling rs s free start)
    (ho : order ≤ maxOrder) (mem : range ∈ rs) (aligned : 2 ^ order ∣ start)
    (low : range.startPfn ≤ start) (high : start + remain ≤ range.endPfn) :
    ∃ s' free', s.pushRest start remain order = .ok s' ∧ Filling rs s' free' (start + remain) := by
  induction order generalizing s free start remain with
  | zero =>
    have all : start + remain * 2 ^ 0 = start + remain := by ring
    rw [← all] at high ⊢
    exact filling.pushRun ho mem aligned low high
  | succ order ih =>
    have whole : remain / 2 ^ (order + 1) * 2 ^ (order + 1) ≤ remain := Nat.div_mul_le_self _ _
    have half : 2 ^ order ∣ 2 ^ (order + 1) := ⟨2, rfl⟩
    obtain ⟨t, free₁, pushed, filling₁⟩ := filling.pushRun ho mem aligned low
      (show start + remain / 2 ^ (order + 1) * 2 ^ (order + 1) ≤ range.endPfn by omega)
    have aligned' : 2 ^ order ∣ start + remain / 2 ^ (order + 1) * 2 ^ (order + 1) :=
      (Nat.dvd_add_right (half.trans aligned)).mpr (half.trans (Nat.dvd_mul_left _ _))
    have all : start + remain / 2 ^ (order + 1) * 2 ^ (order + 1) +
        (remain - remain / 2 ^ (order + 1) * 2 ^ (order + 1)) = start + remain := by omega
    rw [← all] at high ⊢
    obtain ⟨s', free', ok, filling'⟩ := ih filling₁ (Nat.le_of_succ_le ho) aligned'
      (Nat.le_add_right_of_le low) high
    refine ⟨s', free', ?_, filling'⟩
    simp only [Pfa.pushRest, pushed, bind, Except.bind]
    exact ok

theorem pushRest_zero (s : Pfa) (start order : Nat) : s.pushRest start 0 order = .ok s := by
  induction order generalizing start with
  | zero => rfl
  | succ order ih =>
    simp only [pushRest, Nat.zero_div, pushRun, bind, Except.bind, Nat.zero_mul, Nat.add_zero,
      Nat.sub_zero]
    exact ih start

/-! ### One range -/

/-- A frame that is not listed may be put to use. -/
theorem Filling.modify (filling : Filling rs s free cur) (f : FrameMeta → FrameMeta) :
    Filling rs (s.modify cur f) free (cur + 1) := by
  refine ⟨filling.inv.modify ?_ f, ?_, ?_⟩
  · intro c mem has
    rw [append_nil] at mem
    exact absurd has.2 (filling.below c mem).not_gt
  · intro c mem
    exact (filling.below c mem).trans (Nat.le_succ _)
  · intro i high
    rw [modify_metaOf, if_neg (Nat.ne_of_gt high)]
    exact filling.fresh i (Nat.le_of_succ_le high)

theorem Filling.reserve (filling : Filling rs s free cur) (used : Nat) :
    Filling rs (s.reserve cur used) free (cur + used) := by
  induction used generalizing s cur with
  | zero => exact filling
  | succ used ih =>
    have rest := ih (filling.modify fun _ => ⟨none, none, 1, 0, .kdata⟩)
    rw [Nat.add_right_comm] at rest
    exact rest

theorem le_roundUp (a : Nat) {b : Nat} (pos : 0 < b) : a ≤ roundUp a b := by
  have : a + b - 1 < (a + b - 1) / b * b + b := Nat.lt_div_mul_add pos
  unfold roundUp
  omega

theorem roundUp_lt (a : Nat) {b : Nat} (pos : 0 < b) : roundUp a b < a + b := by
  have : roundUp a b ≤ a + b - 1 := Nat.div_mul_le_self _ _
  omega

theorem usedFrames_le (metaPa usedEnd : Nat) (le : range.startPfn ≤ range.endPfn)
    (small : range.endPfn < 2 ^ 32) :
    range.startPfn + usedFrames metaPa usedEnd range ≤ range.endPfn := by
  have frames : (range.endPfn + 2 ^ 32 - range.startPfn) % 2 ^ 32 =
      range.endPfn - range.startPfn := by
    rw [Nat.sub_add_comm le, Nat.add_mod_right]
    exact Nat.mod_eq_of_lt (by omega)
  unfold usedFrames
  simp only [frames]
  split <;> omega

/-- A range is filled to its end. -/
theorem Filling.initRange (filling : Filling rs s free range.startPfn) (mem : range ∈ rs)
    (le : range.startPfn ≤ range.endPfn) (metaPa usedEnd : Nat) :
    ∃ s' free', s.initRange metaPa usedEnd range = .ok s' ∧ Filling rs s' free' range.endPfn := by
  have layout := filling.inv.layout
  have small := (layout.total range (layout.ranges ▸ mem)).trans layout.small
  have largest : 2 ^ maxOrder = 2048 := rfl
  have used := usedFrames_le metaPa usedEnd le (by omega)
  have low : range.startPfn ≤ range.startPfn + usedFrames metaPa usedEnd range :=
    Nat.le_add_right _ _
  have filling₁ := filling.reserve (usedFrames metaPa usedEnd range)
  simp only [Pfa.initRange]
  generalize s.reserve range.startPfn (usedFrames metaPa usedEnd range) = t at *
  generalize range.startPfn + usedFrames metaPa usedEnd range = first at *
  have up := le_roundUp first (Nat.two_pow_pos maxOrder)
  have near := roundUp_lt first (Nat.two_pow_pos maxOrder)
  have aligned : 2 ^ maxOrder ∣ roundUp first (2 ^ maxOrder) := Nat.dvd_mul_left _ _
  rw [Nat.mod_eq_of_lt (a := first) (by omega),
    Nat.mod_eq_of_lt (a := roundUp first (2 ^ maxOrder)) (by omega)]
  generalize roundUp first (2 ^ maxOrder) = start at *
  -- the single frames go up to the end of the range at most
  have singles : first + (min start range.endPfn - first) * 2 ^ 0 = min start range.endPfn := by
    omega
  obtain ⟨u, free₂, pushed, filling₂⟩ := filling₁.pushRun
    (n := min start range.endPfn - first) (Nat.zero_le _) mem (Nat.one_dvd _) low (by omega)
  rw [singles] at filling₂
  simp only [pushed, bind, Except.bind]
  by_cases beyond : range.endPfn ≤ start
  · rw [Nat.sub_eq_zero_of_le beyond, pushRest_zero]
    rw [Nat.min_eq_right beyond] at filling₂
    exact ⟨u, free₂, rfl, filling₂⟩
  rw [Nat.min_eq_left (by omega)] at filling₂
  have all : start + (range.endPfn - start) = range.endPfn := by omega
  obtain ⟨s', free', ok, filling'⟩ := filling₂.pushRest le_rfl mem aligned (by omega)
    all.le
  rw [all] at filling'
  exact ⟨s', free', ok, filling'⟩

/-! ### All ranges -/

/-- The frames of a layout. -/
def frames (layout : List RamRange) : Nat :=
  (layout.map fun r => (r.limit - r.base) / pageSize).sum

/-- The ranges take up the numbers from the first one to the second, one behind the other. -/
inductive Chained : Nat → List PfaRange → Nat → Prop where
  | nil (cur : Nat) : Chained cur [] cur
  | cons (range : PfaRange) {ranges : List PfaRange} {total : Nat}
      (le : range.startPfn ≤ range.endPfn) (rest : Chained range.endPfn ranges total) :
      Chained range.startPfn (range :: ranges) total

variable {ranges : List PfaRange} {total : Nat}

section
variable (chained : Chained cur ranges total)
include chained

theorem Chained.le : cur ≤ total := by
  induction chained with
  | nil => exact le_rfl
  | cons _ le _ ih => exact le.trans ih

theorem Chained.bounds : ∀ r ∈ ranges, cur ≤ r.startPfn ∧ r.endPfn ≤ total := by
  induction chained with
  | nil => simp
  | cons _ le rest ih =>
    exact forall_mem_cons.mpr
      ⟨⟨le_rfl, rest.le⟩, fun r mem => (ih r mem).imp_left le.trans⟩

theorem Chained.apart :
    ∀ r ∈ ranges, ∀ r' ∈ ranges, ∀ i, r.startPfn ≤ i → i < r.endPfn →
      r'.startPfn ≤ i → i < r'.endPfn → r = r' := by
  induction chained with
  | nil => simp
  | cons _ le rest ih =>
    intro r mem r' mem' i low high low' high'
    rcases mem_cons.mp mem with first | later
    · rcases mem_cons.mp mem' with first' | later'
      · exact first.trans first'.symm
      · subst first
        exact absurd (high.trans_le (rest.bounds r' later').1) low'.not_gt
    · rcases mem_cons.mp mem' with first' | later'
      · subst first'
        exact absurd (high'.trans_le (rest.bounds r later).1) low.not_gt
      · exact ih r later r' later' i low high low' high'

end

/-- The frames of a layout that is not too large are numbered consecutively. -/
theorem numberFrames_chained (layout : List RamRange) (small : cur + frames layout < 2 ^ 32) :
    Chained cur (numberFrames cur layout).1 (numberFrames cur layout).2 ∧
      (numberFrames cur layout).2 = cur + frames layout := by
  induction layout generalizing cur with
  | nil => exact ⟨.nil cur, rfl⟩
  | cons r rs ih =>
    have split : frames (r :: rs) = (r.limit - r.base) / pageSize + frames rs := by
      simp [frames]
    rw [split, ← Nat.add_assoc] at small
    have fits : (cur + (r.limit - r.base) / pageSize) % 2 ^ 32 =
        cur + (r.limit - r.base) / pageSize := Nat.mod_eq_of_lt (by omega)
    obtain ⟨chained, total⟩ := ih small
    simp only [numberFrames, fits]
    exact ⟨.cons ⟨r.base, r.limit, cur, _⟩ (Nat.le_add_right _ _) chained,
      by rw [total, split, Nat.add_assoc]⟩

/-- The loop over the ranges. -/
theorem Filling.initRanges (filling : Filling rs s free cur) (metaPa usedEnd : Nat)
    (chained : Chained cur ranges total) (sub : ranges ⊆ rs) :
    ∃ s' free', ranges.foldlM (fun s range => s.initRange metaPa usedEnd range) s = .ok s' ∧
      Filling rs s' free' total := by
  induction chained generalizing s free with
  | nil => exact ⟨s, free, rfl, filling⟩
  | cons _ le rest ih =>
    obtain ⟨head, tail⟩ := cons_subset.mp sub
    obtain ⟨t, free₁, ok₁, filling₁⟩ := filling.initRange head le metaPa usedEnd
    obtain ⟨s', free', ok, filling'⟩ := ih filling₁ tail
    refine ⟨s', free', ?_, filling'⟩
    simp only [foldlM_cons, ok₁, bind, Except.bind]
    exact ok

theorem filling_empty (chained : Chained 0 ranges total) (small : total ≤ 2 ^ 32 - 2 ^ maxOrder) :
    Filling ranges
      { metaOf := fun _ => .zero, totalFrames := total, freeFrames := 0, ranges,
        freeLists := fun _ => {}, freemap := fun _ => false } (fun _ => []) 0 := by
  have none_free : freeBlocks (fun _ => []) = [] := by simp [freeBlocks, Block.ofLists]
  refine ⟨⟨⟨rfl, chained.apart, fun r mem => (chained.bounds r mem).2, small⟩, ?_, ?_, ?_, ?_,
    ?_, ?_, ?_⟩, ?_, ?_⟩
  · exact fun o _ => dlist_nil _ _
  · exact fun o _ => rfl
  · simp [none_free]
  · intro i set
    cases set
  · simp
  · simp [none_free]
  · simp [none_free]
  · simp [none_free]
  · exact fun i _ => ⟨rfl, rfl⟩

/-- `pfa_init` panics for its own checks only; what it leaves meets the invariant. -/
theorem init_inv {layout : List RamRange} (kernelEnd : Nat)
    (small : frames layout ≤ 2 ^ 32 - 2 ^ maxOrder) :
    init layout kernelEnd = .error .invalidRangeCount ∨
      init layout kernelEnd = .error .invalidRange ∨
      init layout kernelEnd = .error .metadataDoesNotFit ∨
      ∃ s free, init layout kernelEnd = .ok s ∧ Inv (numberFrames 0 layout).1 s free [] 0 := by
  have largest : 2 ^ maxOrder = 2048 := rfl
  have numbered : 0 + frames layout < 2 ^ 32 := by omega
  obtain ⟨chained, total⟩ := numberFrames_chained layout numbered
  rw [Nat.zero_add] at total
  have empty := filling_empty chained (total ▸ small)
  simp only [init]
  split
  · exact .inl rfl
  split
  · exact .inr (.inl rfl)
  split
  · exact .inr (.inr (.inl rfl))
  split
  · exact .inr (.inr (.inl rfl))
  obtain ⟨s, free, ok, filling⟩ := empty.initRanges _ _ chained (List.Subset.refl _)
  exact .inr (.inr (.inr ⟨s, free, ok, filling.inv⟩))

end A20OS.Mm.Pfa
