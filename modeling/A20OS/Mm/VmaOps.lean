import A20OS.Mm.VmaList

/-!
What the operations do to the mapping list.

Merging and splitting keep what is assigned to every address, inserting a mapping adds what it
assigns, and unmapping takes away the range. All of them keep the list linked and in order
(`Mapped`), also when unmapping stops half way with an error.
-/

namespace A20OS.Mm

open Lib List

variable {m m' : MmStruct} {maps before after done rest : Maps} {v t newv x a b addr stop : Nat}
  {s s' : MmSeg} {w : (Nat × Nat) × Backing} {tail : Option Nat} {fuel : Nat} {e : Nat × MmSeg}

/-- The same is assigned everywhere. -/
def SameMeaning (maps maps' : Maps) : Prop := ∀ x w, Assigns maps' x w ↔ Assigns maps x w

theorem SameMeaning.refl (maps : Maps) : SameMeaning maps maps := fun _ _ => Iff.rfl

theorem SameMeaning.trans {maps maps' maps'' : Maps} (first : SameMeaning maps maps')
    (second : SameMeaning maps' maps'') : SameMeaning maps maps'' :=
  fun x w => (second x w).trans (first x w)

namespace MmStruct

/-- The mapping list is linked and in order. -/
structure Mapped (m : MmStruct) (maps : Maps) : Prop where
  linked : m.Linked maps
  ordered : Ordered maps

theorem Mapped.invalidate (h : m.Mapped maps) : m.segIndexInvalidate.Mapped maps :=
  ⟨⟨h.linked.links, h.linked.segs⟩, h.ordered⟩

theorem Mapped.clear (h : m.Mapped maps) : m.segIndexClear.Mapped maps :=
  ⟨⟨h.linked.links, h.linked.segs⟩, h.ordered⟩

theorem Mapped.start (h : m.Mapped maps) : m.Linked ([] ++ maps) := h.linked

/-! ### Merging -/

/-- Two mappings that can be merged are merged. -/
theorem Mapped.absorb (h : m.Mapped (before ++ (a, s) :: (b, s') :: after))
    (can : vmaCanMerge s s' = true) :
    (m.absorb a b).Mapped (before ++ (a, s.upTo s'.stop) :: after) ∧
      SameMeaning (before ++ (a, s) :: (b, s') :: after)
        (before ++ (a, s.upTo s'.stop) :: after) := by
  obtain ⟨adjacent, -⟩ := vmaCanMerge_spec can
  have first : s.start < s.stop := h.ordered.nonempty
  have second : s'.start < s'.stop := h.ordered.ranges.nonempty (b, s') (by simp)
  have old : Ordered (before ++ [(a, s), (b, s')] ++ after) := by simpa using h.ordered
  have new : Ordered (before ++ [(a, s.upTo s'.stop)] ++ after) := by
    apply old.replace
    · apply ranges_cons.mpr
      refine ⟨?_, ranges_nil _ _, nofun⟩
      simp only [MmSeg.upTo]
      omega
    · exact forall_mem_singleton.mpr ⟨(a, s), by simp, Nat.le_refl _⟩
    · exact forall_mem_singleton.mpr ⟨(b, s'), by simp, Nat.le_refl _⟩
  refine ⟨⟨h.linked.absorb, by simpa using new⟩, ?_⟩
  intro x w
  simp only [assigns_append, assigns_cons, MmSeg.assign_upTo]
  -- an address behind the seam was assigned the same by the second mapping
  by_cases behind : s'.start ≤ x
  · rw [assign_eq_of_canMerge can (Nat.le_of_lt first) behind]
    simp only [MmSeg.upTo]
    have here : ¬ x < s.stop := by omega
    have there : s.start ≤ x := by omega
    simp [here, there, behind]
  · have here : x < s'.stop ↔ x < s.stop := by omega
    simp [MmSeg.upTo, behind, here]

/-- Merging with the next mapping. -/
theorem Mapped.mergeNext (h : m.Mapped (before ++ (v, s) :: after)) :
    ∃ s' after', (m.mergeNext v).Mapped (before ++ (v, s') :: after') ∧
      SameMeaning (before ++ (v, s) :: after) (before ++ (v, s') :: after') := by
  unfold MmStruct.mergeNext
  obtain ⟨-, next⟩ := h.linked.neighbours
  cases after with
  | nil =>
    rw [next]
    exact ⟨s, [], h, .refl _⟩
  | cons e rest =>
    obtain ⟨n, sn⟩ := e
    have there : m.seg n = sn := h.linked.segs (n, sn) (by simp)
    rw [next, map_cons, head?_cons]
    dsimp only
    rw [h.linked.here, there]
    split
    · rename_i can
      obtain ⟨mapped, same⟩ := h.absorb can
      exact ⟨_, rest, mapped, same⟩
    · exact ⟨s, (n, sn) :: rest, h, .refl _⟩

/-- Merging with the mapping before. -/
theorem Mapped.mergePrev (h : m.Mapped (before ++ (v, s) :: after)) :
    ∃ before' s', (m.mergePrev v).1.Mapped (before' ++ ((m.mergePrev v).2, s') :: after) ∧
      SameMeaning (before ++ (v, s) :: after) (before' ++ ((m.mergePrev v).2, s') :: after) := by
  unfold MmStruct.mergePrev
  obtain ⟨prev, -⟩ := h.linked.neighbours
  rcases eq_nil_or_concat before with rfl | ⟨xs, e, rfl⟩
  · rw [prev]
    exact ⟨[], s, h, .refl _⟩
  obtain ⟨p, sp⟩ := e
  have there : m.seg p = sp := h.linked.segs (p, sp) (by simp)
  have last : m.prev v = some p := by simpa using prev
  rw [last]
  dsimp only
  rw [h.linked.here, there]
  split
  · rename_i can
    have apart : m.Mapped (xs ++ (p, sp) :: (v, s) :: after) := by simpa using h
    obtain ⟨mapped, same⟩ := apart.absorb can
    exact ⟨xs, _, mapped, by simpa using same⟩
  · exact ⟨xs.concat (p, sp), s, h, .refl _⟩

@[simp] theorem mergeNext_state : (m.mergeNext v).segIndexState = m.segIndexState := by
  unfold mergeNext
  split
  · split
    · simp
    · rfl
  · rfl

@[simp] theorem mergePrev_state : (m.mergePrev v).1.segIndexState = m.segIndexState := by
  unfold mergePrev
  split
  · split
    · simp
    · rfl
  · rfl

/-- `vma_try_merge` keeps what is assigned. -/
theorem Mapped.vmaTryMerge (h : m.Mapped maps) (member : v ∈ maps.map Prod.fst) :
    ∃ maps', (m.vmaTryMerge v).1.Mapped maps' ∧ SameMeaning maps maps' ∧
      (m.vmaTryMerge v).1.segIndexState = .dirty := by
  obtain ⟨⟨v, s⟩, inside, rfl⟩ := mem_map.mp member
  obtain ⟨before, after, rfl⟩ := append_of_mem inside
  obtain ⟨before', s', mapped, same⟩ := h.invalidate.mergePrev
  obtain ⟨s'', after', mapped', same'⟩ := mapped.mergeNext
  refine ⟨_, mapped', same.trans same', ?_⟩
  unfold MmStruct.vmaTryMerge
  simp [segIndexInvalidate]

/-! ### Insertion -/

/-- The loop of `mm_insert_vma` finds the place. -/
theorem Linked.place (h : m.Linked (done ++ rest)) (start : Nat)
    (enough : rest.length < fuel) (low : ∀ e ∈ done, e.2.start < start) :
    ∃ before after, done ++ rest = before ++ after ∧
      m.place start fuel (done.map Prod.fst).getLast? (rest.map Prod.fst).head? =
        some ((before.map Prod.fst).getLast?, (after.map Prod.fst).head?) ∧
      (∀ e ∈ before, e.2.start < start) ∧ ∀ e ∈ after.head?, start ≤ e.2.start := by
  induction rest generalizing done fuel with
  | nil =>
    obtain _ | fuel := fuel
    · cases enough
    exact ⟨done, [], rfl, rfl, low, nofun⟩
  | cons e rest ih =>
    obtain ⟨v, s⟩ := e
    obtain _ | fuel := fuel
    · cases enough
    rw [map_cons, head?_cons, MmStruct.place, h.here, h.neighbours.2]
    by_cases below : s.start < start
    · rw [if_pos below]
      have low' : ∀ e ∈ done ++ [(v, s)], e.2.start < start :=
        forall_mem_append.mpr ⟨low, forall_mem_singleton.mpr below⟩
      obtain ⟨before, after, whole, found, lower, upper⟩ :=
        ih h.next (Nat.lt_of_succ_lt_succ enough) low'
      refine ⟨before, after, by simpa using whole, ?_, lower, upper⟩
      simpa using found
    · rw [if_neg below]
      refine ⟨done, (v, s) :: rest, rfl, rfl, low, ?_⟩
      rintro e ⟨⟩
      exact Nat.le_of_not_lt below

end MmStruct

/-- A mapping that overlaps none goes between those below and above. -/
theorem Ordered.insert (h : Ordered (before ++ after)) (nonempty : s.start < s.stop)
    (bound : s.stop < 2 ^ 64)
    (vacant : ∀ e ∈ before ++ after, e.2.stop ≤ s.start ∨ s.stop ≤ e.2.start)
    (below : ∀ e ∈ before, e.2.start < s.start) (above : ∀ e ∈ after.head?, s.start ≤ e.2.start) :
    Ordered (before ++ (newv, s) :: after) := by
  obtain ⟨first, second, across⟩ := ranges_append.mp h.ranges
  have left : ∀ e ∈ before, e.2.stop ≤ s.start := by
    intro e member
    have := below e member
    have := vacant e (mem_append_left _ member)
    omega
  have right : ∀ e ∈ after, s.stop ≤ e.2.start := by
    intro e member
    have beyond : s.start ≤ e.2.start := by
      cases after with
      | nil => cases member
      | cons d ds =>
        have begins := above d rfl
        rcases mem_cons.mp member with rfl | later
        · exact begins
        · obtain ⟨wide, -, apart⟩ := ranges_cons.mp second
          have := apart e later
          omega
    have wide := second.nonempty e member
    have := vacant e (mem_append_right _ member)
    omega
  constructor
  · refine ranges_append.mpr ⟨first, ranges_cons.mpr ⟨nonempty, second, right⟩, ?_⟩
    exact fun e member => forall_mem_cons.mpr ⟨left e member, across e member⟩
  · obtain ⟨low, high⟩ := forall_mem_append.mp h.bounded
    exact forall_mem_append.mpr ⟨low, forall_mem_cons.mpr ⟨bound, high⟩⟩

namespace MmStruct

/-- `mm_insert_vma` adds what the new mapping assigns. -/
theorem Mapped.mmInsertVma (h : m.Mapped maps) (new : newv ∉ maps.map Prod.fst)
    (filled : m.seg newv = s) (nonempty : s.start < s.stop) (bound : s.stop < 2 ^ 64)
    (vacant : ∀ e ∈ maps, e.2.stop ≤ s.start ∨ s.stop ≤ e.2.start) :
    ∃ m' maps', m.mmInsertVma newv = some m' ∧ m'.Mapped maps' ∧ m'.segIndexState = .dirty ∧
      ∀ x w, Assigns maps' x w ↔
        Assigns maps x w ∨ ((s.start ≤ x ∧ x < s.stop) ∧ s.assign x = w) := by
  have clean := h.invalidate
  obtain ⟨before, after, whole, found, below, above⟩ :=
    clean.start.place s.start h.ordered.few nofun
  subst whole
  have linked := clean.linked.link new filled
  have mapped : (m.segIndexInvalidate.link newv (before.map Prod.fst).getLast?
      (after.map Prod.fst).head?).Mapped (before ++ (newv, s) :: after) :=
    ⟨linked, h.ordered.insert nonempty bound vacant below above⟩
  obtain ⟨s₁, after₁, mapped₁, same₁⟩ := mapped.mergeNext
  obtain ⟨before₂, s₂, mapped₂, same₂⟩ := mapped₁.mergePrev
  refine ⟨_, _, ?_, mapped₂, ?_, ?_⟩
  · have here : m.segIndexInvalidate.seg newv = s := filled
    have first : (map Prod.fst (before ++ after)).head? = m.segIndexInvalidate.mmap :=
      clean.linked.links.first.symm
    unfold MmStruct.mmInsertVma
    dsimp only
    rw [here, ← first]
    simp only [map_nil, getLast?_nil] at found
    rw [found]
    rfl
  · simp [segIndexInvalidate]
  · intro x w
    rw [same₂ x w, same₁ x w, assigns_append, assigns_append, assigns_cons, ← or_assoc]
    exact or_right_comm

/-! ### Splitting -/

theorem Mapped.cut (h : m.Mapped (before ++ (v, s) :: after))
    (new : t ∉ (before ++ (v, s) :: after).map Prod.fst) (inside : s.start < x)
    (inside' : x < s.stop) :
    (m.cut v t x x).Mapped (before ++ (v, s.upTo x) :: (t, s.fromOn x) :: after) ∧
      SameMeaning (before ++ (v, s) :: after)
        (before ++ (v, s.upTo x) :: (t, s.fromOn x) :: after) := by
  have old : Ordered (before ++ [(v, s)] ++ after) := by simpa using h.ordered
  have new' : Ordered (before ++ [(v, s.upTo x), (t, s.fromOn x)] ++ after) := by
    apply old.replace
    · refine ranges_cons.mpr ⟨inside, ranges_cons.mpr ⟨inside', ranges_nil _ _, nofun⟩, ?_⟩
      exact forall_mem_singleton.mpr (Nat.le_refl _)
    · exact forall_mem_cons.mpr ⟨⟨(v, s), .head _, Nat.le_refl _⟩,
        forall_mem_singleton.mpr ⟨(v, s), .head _, Nat.le_of_lt inside⟩⟩
    · exact forall_mem_cons.mpr ⟨⟨(v, s), .head _, Nat.le_of_lt inside'⟩,
        forall_mem_singleton.mpr ⟨(v, s), .head _, Nat.le_refl _⟩⟩
  refine ⟨⟨h.linked.cut new x x, by simpa using new'⟩, ?_⟩
  intro y w
  rw [assigns_append, assigns_append]
  refine or_congr_right ?_
  rw [assigns_cons_iff _ (_ :: after), assigns_cons_iff _ after, assigns_cons_iff (v, s) after,
    assigns_upTo (v := v) (Nat.le_of_lt inside'), assigns_fromOn (v := v) (Nat.le_of_lt inside),
    ← or_assoc, ← and_or_left, and_iff_left (Nat.lt_or_ge y x)]

/-- `vma_split` keeps what is assigned. -/
theorem Mapped.vmaSplit (h : m.Mapped maps) (member : v ∈ maps.map Prod.fst)
    (new : ∀ t ∈ tail, t ∉ maps.map Prod.fst) (split : Nat) :
    ∃ maps', (m.vmaSplit v split tail).1.Mapped maps' ∧ SameMeaning maps maps' ∧
      ((m.vmaSplit v split tail).1 = m ∧ maps' = maps ∨
        (m.vmaSplit v split tail).1.segIndexState = .dirty) := by
  obtain ⟨⟨v, s⟩, inside, rfl⟩ := mem_map.mp member
  obtain ⟨before, after, rfl⟩ := append_of_mem inside
  unfold MmStruct.vmaSplit
  rw [h.linked.here]
  split
  · exact ⟨_, h, .refl _, .inl ⟨rfl, rfl⟩⟩
  rename_i strictly
  cases tail with
  | none => exact ⟨_, h, .refl _, .inl ⟨rfl, rfl⟩⟩
  | some t =>
    obtain ⟨mapped, same⟩ := h.invalidate.cut (new t rfl) (x := split) (by omega) (by omega)
    exact ⟨_, mapped, same, .inr (by simp [segIndexInvalidate])⟩

/-! ### Unmapping -/

/-- The first loop of `mm_munmap_locked` comes to an end. -/
theorem Linked.munmapCheck (h : m.Linked (done ++ rest)) (addr stop : Nat)
    (enough : rest.length < fuel) :
    ∃ checked, m.munmapCheck addr stop fuel (rest.map Prod.fst).head? = some checked := by
  induction rest generalizing done fuel with
  | nil =>
    obtain _ | fuel := fuel
    · cases enough
    exact ⟨.ok (), rfl⟩
  | cons e rest ih =>
    obtain ⟨v, s⟩ := e
    obtain _ | fuel := fuel
    · cases enough
    have later := ih h.next (Nat.lt_of_succ_lt_succ enough)
    rw [map_cons, head?_cons, MmStruct.munmapCheck, h.neighbours.2]
    split
    · exact ⟨_, rfl⟩
    split
    · exact later
    split
    · exact ⟨_, rfl⟩
    split
    · exact ⟨_, rfl⟩
    · exact later

end MmStruct

/-- What is left of a mapping when a range is unmapped. -/
def pieces (addr stop tail : Nat) (e : Nat × MmSeg) : Maps :=
  if stop ≤ e.2.start ∨ e.2.stop ≤ addr then [e]
  else if addr ≤ e.2.start ∧ e.2.stop ≤ stop then []
  else if addr ≤ e.2.start then [(e.1, e.2.fromOn stop)]
  else if e.2.stop ≤ stop then [(e.1, e.2.upTo addr)]
  else [(e.1, e.2.upTo addr), (tail, e.2.fromOn stop)]

/-- A piece is inside the mapping, and has its record unless a middle is cut out. -/
theorem pieces_inside {d : Nat × MmSeg} (nonempty : e.2.start < e.2.stop)
    (member : d ∈ pieces addr stop t e) :
    (d.2.start < d.2.stop ∧ e.2.start ≤ d.2.start ∧ d.2.stop ≤ e.2.stop) ∧
      (d.1 = e.1 ∨ e.2.start < addr ∧ stop < e.2.stop) := by
  unfold pieces at member
  split at member
  · rw [mem_singleton.mp member]
    omega
  split at member
  · cases member
  split at member
  · rw [mem_singleton.mp member]
    refine ⟨?_, .inl rfl⟩
    simp only [MmSeg.fromOn]
    omega
  split at member
  · rw [mem_singleton.mp member]
    refine ⟨?_, .inl rfl⟩
    simp only [MmSeg.upTo]
    omega
  rcases mem_cons.mp member with rfl | last
  · simp only [MmSeg.upTo]
    omega
  · rw [mem_singleton.mp last]
    simp only [MmSeg.fromOn]
    omega

theorem ranges_pieces (lt : addr < stop) (nonempty : e.2.start < e.2.stop) :
    Ranges (·.2.start) (·.2.stop) (pieces addr stop t e) := by
  refine ⟨fun d member => (pieces_inside nonempty member).1.1, ?_⟩
  unfold pieces
  split
  · exact pairwise_singleton _ _
  split
  · exact .nil
  split
  · exact pairwise_singleton _ _
  split
  · exact pairwise_singleton _ _
  · apply pairwise_pair.mpr
    exact Nat.le_of_lt lt

theorem assigns_pieces :
    Assigns (pieces addr stop t e) x w ↔ Assigns [e] x w ∧ ¬ (addr ≤ x ∧ x < stop) := by
  obtain ⟨v, s⟩ := e
  have inside : Assigns [(v, s)] x w → s.start ≤ x ∧ x < s.stop :=
    fun assigned => (assigns_singleton.mp assigned).1
  unfold pieces
  dsimp only
  split
  · rw [iff_self_and]
    intro assigned
    have := inside assigned
    omega
  split
  · refine iff_of_false not_assigns_nil ?_
    rintro ⟨assigned, outside⟩
    have := inside assigned
    omega
  split
  · rw [assigns_fromOn (v := v) (by omega)]
    refine and_congr_right fun assigned => ?_
    have := inside assigned
    omega
  split
  · rw [assigns_upTo (v := v) (by omega)]
    refine and_congr_right fun assigned => ?_
    have := inside assigned
    omega
  · rw [assigns_cons_iff, assigns_upTo (v := v) (by omega), assigns_fromOn (v := v) (by omega),
      ← and_or_left]
    exact and_congr_right fun _ => by omega

theorem assigns_flatMap :
    Assigns (maps.flatMap (pieces addr stop t)) x w ↔
      Assigns maps x w ∧ ¬ (addr ≤ x ∧ x < stop) := by
  induction maps with
  | nil => simp
  | cons e rest ih =>
    rw [flatMap_cons, assigns_append, assigns_pieces, ih, assigns_cons_iff e rest, or_and_right]

theorem Ordered.flatMap {first last : Maps} (h : Ordered (first ++ last)) (lt : addr < stop) :
    Ordered (first.flatMap (pieces addr stop t) ++ last) := by
  have nonempty : ∀ e ∈ first, e.2.start < e.2.stop := fun e member =>
    h.ranges.nonempty e (mem_append_left _ member)
  constructor
  · apply h.ranges.flatMap
    · exact fun e member => ranges_pieces lt (nonempty e member)
    · exact fun e member d piece => (pieces_inside (nonempty e member) piece).1.2
  · intro d member
    rcases mem_append.mp member with new | old
    · obtain ⟨e, inside, piece⟩ := mem_flatMap.mp new
      have := h.bounded e (mem_append_left _ inside)
      have := (pieces_inside (nonempty e inside) piece).1.2.2
      omega
    · exact h.bounded d (mem_append_right _ old)

namespace MmStruct

/-- One turn of the second loop of `mm_munmap_locked`: the mapping is replaced by its pieces, or
the loop ends, since pages cannot be released or there is no record for a tail. -/
theorem Linked.munmapLoop_succ (h : m.Linked (done ++ (v, s) :: rest)) (addr stop : Nat)
    (release : Nat → Except Errno Unit)
    (new : ¬ stop ≤ s.start → ∀ t ∈ tail, t ∉ (done ++ (v, s) :: rest).map Prod.fst) :
    ((∃ err, munmapLoop addr stop release tail (fuel + 1) m (some v) = some (m, .error err)) ∧
      ((∀ v, release v = .ok ()) → tail = none)) ∨
    ∃ m₁ : MmStruct, munmapLoop addr stop release tail (fuel + 1) m (some v) =
        munmapLoop addr stop release tail fuel m₁ (rest.map Prod.fst).head? ∧
      m₁.segIndexState = m.segIndexState ∧
      m₁.Linked (done ++ pieces addr stop (tail.getD 0) (v, s) ++ rest) := by
  rw [MmStruct.munmapLoop, h.here, h.neighbours.2]
  unfold pieces
  split
  · exact .inr ⟨m, rfl, rfl, by simpa using h⟩
  unfold munmapOne
  rw [h.here]
  cases released : release v with
  | error err => exact .inl ⟨⟨err, rfl⟩, fun all => nomatch released.symm.trans (all v)⟩
  | ok _ =>
    by_cases whole : addr ≤ s.start ∧ s.stop ≤ stop
    · simp only [if_pos whole]
      exact .inr ⟨_, rfl, unlink_state, by simpa using h.unlink⟩
    by_cases head : addr ≤ s.start
    · have ends : stop < s.stop := by omega
      simp only [if_neg whole, if_pos head, if_pos ends]
      exact .inr ⟨_, rfl, rfl, by simpa using h.set (s.fromOn stop)⟩
    have begins : s.start < addr := by omega
    by_cases last : s.stop ≤ stop
    · simp only [if_neg whole, if_neg head, if_pos last, if_pos begins]
      exact .inr ⟨_, rfl, rfl, by simpa using h.set (s.upTo addr)⟩
    have ends : stop < s.stop := by omega
    simp only [if_neg whole, if_neg head, if_neg last, if_pos begins, if_pos ends]
    cases tail with
    | none => exact .inl ⟨⟨.ENOMEM, rfl⟩, fun _ => rfl⟩
    | some t =>
      have cut := h.cut (new (by omega) t rfl) addr stop
      exact .inr ⟨_, rfl, cut_state, by simpa using cut⟩

/-- The second loop of `mm_munmap_locked`: the mappings up to some place are replaced by their
pieces, up to the end unless there is an error. -/
theorem Linked.munmapLoop (h : m.Linked (done ++ rest)) (addr stop : Nat)
    (ranges : Ranges (·.2.start) (·.2.stop) rest) (release : Nat → Except Errno Unit)
    (new : (∀ t ∈ tail, t ∉ (done ++ rest).map Prod.fst) ∨ ∀ e ∈ rest, stop ≤ e.2.start)
    (enough : rest.length < fuel) :
    ∃ m' result first last, rest = first ++ last ∧
      munmapLoop addr stop release tail fuel m (rest.map Prod.fst).head? = some (m', result) ∧
      m'.segIndexState = m.segIndexState ∧
      m'.Linked (done ++ first.flatMap (pieces addr stop (tail.getD 0)) ++ last) ∧
      (result = .ok () → last = []) ∧
      (result ≠ .ok () → (∀ v, release v = .ok ()) → tail = none) := by
  induction rest generalizing done fuel m with
  | nil =>
    obtain _ | fuel := fuel
    · cases enough
    exact ⟨m, .ok (), [], [], rfl, rfl, rfl, by simpa using h, fun _ => rfl,
      fun err => (err rfl).elim⟩
  | cons e rest ih =>
    obtain ⟨v, s⟩ := e
    obtain _ | fuel := fuel
    · cases enough
    obtain ⟨wide, later, beyond⟩ := ranges_cons.mp ranges
    have fresh : ¬ stop ≤ s.start → ∀ t ∈ tail, t ∉ (done ++ (v, s) :: rest).map Prod.fst :=
      fun low => new.resolve_right fun above => low (above (v, s) (.head _))
    rw [map_cons, head?_cons]
    rcases h.munmapLoop_succ addr stop release fresh with
      ⟨⟨err, fails⟩, why⟩ | ⟨m₁, turn, state, linked⟩
    · exact ⟨m, .error err, [], (v, s) :: rest, rfl, fails, rfl, by simpa using h, nofun,
        fun _ => why⟩
    -- the record for a tail is used for the last mapping that the range touches
    have new' : (∀ t ∈ tail, t ∉ ((done ++ pieces addr stop (tail.getD 0) (v, s)) ++ rest).map
        Prod.fst) ∨ ∀ e ∈ rest, stop ≤ e.2.start := by
      by_cases middle : s.start < addr ∧ stop < s.stop
      · right
        intro e member
        have := beyond e member
        dsimp only at this
        omega
      rcases new with fresh | above
      · left
        intro t given member
        apply fresh t given
        simp only [map_append, mem_append, map_cons, mem_cons] at member ⊢
        rcases member with (old | piece) | last
        · exact .inl old
        · obtain ⟨d, inside, rfl⟩ := mem_map.mp piece
          exact .inr (.inl ((pieces_inside wide inside).2.resolve_right middle))
        · exact .inr (.inr last)
      · exact .inr fun e member => above e (.tail _ member)
    obtain ⟨m', result, first, last, split, ran, kept, final, ends⟩ :=
      ih linked later new' (Nat.lt_of_succ_lt_succ enough)
    refine ⟨m', result, (v, s) :: first, last, by rw [split, cons_append], turn.trans ran,
      kept.trans state, ?_, ends⟩
    simpa [append_assoc] using final

/-- `mm_munmap_locked` returns, and keeps the list in order. If it succeeds, exactly the range is
gone. If it fails, pages cannot be released or there is no record for a tail, or else nothing has
changed and no page was to be released. -/
theorem Mapped.mmMunmapLocked (h : m.Mapped maps) (new : ∀ t ∈ tail, t ∉ maps.map Prod.fst)
    (limit addr len : Nat) (release : Nat → Except Errno Unit) :
    ∃ m' result maps', m.mmMunmapLocked limit addr len release tail = some (m', result) ∧
      m'.Mapped maps' ∧ (m' = m ∧ maps' = maps ∨ m'.segIndexState = .dirty) ∧
      (result = .ok () → ∀ x w, Assigns maps' x w ↔ Assigns maps x w ∧
        ¬ (addr ≤ x ∧ x < addr + (len + 4095) % 2 ^ 64 / 4096 * 4096)) ∧
      (result ≠ .ok () → ((∀ v, release v = .ok ()) → tail = none) ∨ maps' = maps ∧
        ∀ release', m.mmMunmapLocked limit addr len release' tail = some (m', result)) := by
  unfold MmStruct.mmMunmapLocked
  split
  · exact ⟨m, _, maps, rfl, h, .inl ⟨rfl, rfl⟩, nofun, fun _ => .inr ⟨rfl, fun _ => rfl⟩⟩
  obtain ⟨size, rounded, bound⟩ : ∃ size, (len + 4095) % 2 ^ 64 / 4096 * 4096 = size ∧
      size < 2 ^ 64 := ⟨_, rfl, by omega⟩
  rw [rounded]
  dsimp only
  split
  · rename_i zero
    refine ⟨m, _, maps, rfl, h, .inl ⟨rfl, rfl⟩, fun _ x w => ?_, fun err => (err rfl).elim⟩
    have empty : ¬ (addr ≤ x ∧ x < addr + size) := by omega
    simp [empty]
  split
  · exact ⟨m, _, maps, rfl, h, .inl ⟨rfl, rfl⟩, nofun, fun _ => .inr ⟨rfl, fun _ => rfl⟩⟩
  rename_i nonzero inside
  have stops : (addr + size) % 2 ^ 64 = addr + size := by omega
  have lt : addr < addr + size := by omega
  rw [stops]
  have clean := h.invalidate
  rw [clean.linked.links.first]
  obtain ⟨checked, done⟩ := clean.start.munmapCheck addr (addr + size) h.ordered.few
  rw [done, Option.bind_some]
  cases checked with
  | error err => exact ⟨_, _, maps, rfl, clean, .inr rfl, nofun, fun _ => .inr ⟨rfl, fun _ => rfl⟩⟩
  | ok _ =>
    obtain ⟨m', result, first, last, split, ran, state, linked, ends, why⟩ :=
      clean.start.munmapLoop addr (addr + size) h.ordered.ranges release (.inl new) h.ordered.few
    subst split
    have ordered := h.ordered.flatMap (t := tail.getD 0) lt
    have mapped : m'.Mapped (first.flatMap (pieces addr (addr + size) (tail.getD 0)) ++ last) :=
      ⟨by simpa using linked, ordered⟩
    rw [ran]
    cases result with
    | error err => exact ⟨m', _, _, rfl, mapped, .inr state, nofun, fun failed => .inl (why failed)⟩
    | ok _ =>
      refine ⟨m'.segIndexClear, _, _, rfl, mapped.clear, .inr rfl, fun _ x w => ?_,
        fun err => (err rfl).elim⟩
      have none := ends rfl
      subst none
      rw [append_nil, append_nil, assigns_flatMap]

end MmStruct

end A20OS.Mm
