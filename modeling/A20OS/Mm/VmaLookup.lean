import A20OS.Mm.VmaOps

/-!
Looking an address up.

The index is dirty, or it has the records of the list, or there are more than it can have
(`Indexed`). Whatever it is, `mm_seg_find` answers with the mapping at the address, if it answers:
the walk along a list that the index cannot have takes the hundred thousand and first mapping for
a cycle and panics. `Good` holds in every run.
-/

namespace A20OS.Mm

open Lib List

variable {m m' : MmStruct} {maps before after done rest : Maps} {v t newv x addr : Nat}
  {s : MmSeg} {tail found : Option Nat}

/-- The answer is the mapping at the address, or that there is none. -/
def Found (maps : Maps) (addr : Nat) (found : Option Nat) : Prop :=
  ∀ p, found = some p ↔ ∃ s, (p, s) ∈ maps ∧ s.start ≤ addr ∧ addr < s.stop

theorem found_none (outside : ∀ e ∈ maps, ¬ (e.2.start ≤ addr ∧ addr < e.2.stop)) :
    Found maps addr none := by
  intro p
  constructor
  · intro no
    cases no
  · rintro ⟨s, member, covers⟩
    exact absurd covers (outside (p, s) member)

/-- No other mapping has the address. -/
theorem found_some (ranges : Ranges (·.2.start) (·.2.stop) maps) (member : (v, s) ∈ maps)
    (covers : s.start ≤ addr ∧ addr < s.stop) : Found maps addr (some v) := by
  intro p
  constructor
  · rintro ⟨⟩
    exact ⟨s, member, covers⟩
  · rintro ⟨s', member', covers'⟩
    have same : (v, s) = (p, s') := ranges.unique member member' covers covers'
    rw [(Prod.mk.inj same).1]

namespace MmStruct

/-- What the index is. -/
def Indexed (m : MmStruct) (maps : Maps) : Prop :=
  match m.segIndexState with
  | .dirty => True
  | .valid => m.segIndex = maps.map Prod.fst ∧ maps.length ≤ segIndexCapacity
  | .overflow => segIndexCapacity < maps.length

structure Good (m : MmStruct) (maps : Maps) : Prop where
  mapped : m.Mapped maps
  indexed : m.Indexed maps

/-- After a change the index is dirty. -/
theorem Mapped.good (h : m.Mapped maps) (dirty : m.segIndexState = .dirty) : m.Good maps := by
  refine ⟨h, ?_⟩
  unfold Indexed
  rw [dirty]
  trivial

/-! ### The index -/

/-- The loop of `mm_seg_index_rebuild` takes the records of the list, if there is room. -/
theorem Linked.collect (h : m.Linked (done ++ rest)) (room : Nat) :
    m.collect room (rest.map Prod.fst).head? =
      if rest.length ≤ room then some (rest.map Prod.fst) else none := by
  induction rest generalizing done room with
  | nil => cases room <;> simp [MmStruct.collect]
  | cons e rest ih =>
    obtain ⟨v, s⟩ := e
    cases room with
    | zero => simp [MmStruct.collect]
    | succ room =>
      rw [map_cons, head?_cons, MmStruct.collect, h.neighbours.2, ih h.next]
      by_cases fits : rest.length ≤ room <;> simp [fits]

theorem Good.rebuild (h : m.Good maps) :
    m.segIndexRebuild.Good maps ∧ m.segIndexRebuild.segIndexState ≠ .dirty := by
  have linked := h.mapped.linked
  have collected := h.mapped.start.collect segIndexCapacity
  rw [← linked.links.first] at collected
  unfold segIndexRebuild
  rw [collected]
  by_cases fits : maps.length ≤ segIndexCapacity
  · rw [if_pos fits]
    exact ⟨⟨⟨⟨linked.links, linked.segs⟩, h.mapped.ordered⟩, rfl, fits⟩, nofun⟩
  · rw [if_neg fits]
    exact ⟨⟨⟨⟨linked.links, linked.segs⟩, h.mapped.ordered⟩, Nat.lt_of_not_le fits⟩, nofun⟩

/-- The search in an index that has the records of the list. -/
theorem Mapped.search (h : m.Mapped maps) (index : m.segIndex = maps.map Prod.fst) (addr : Nat) :
    Found maps addr (m.search addr) := by
  have count : m.segIndex.length = maps.length := by rw [index, length_map]
  have entry : ∀ i (inside : i < maps.length), m.segIndex.getD i 0 = maps[i].1 := by
    intro i inside
    simp [index, inside]
  have content : ∀ i (inside : i < maps.length), m.seg (m.segIndex.getD i 0) = maps[i].2 := by
    intro i inside
    rw [entry i inside]
    exact h.linked.segs maps[i] (getElem_mem inside)
  have sorted : ∀ i j (lt : i < j) (inside : j < maps.length), maps[i].2.stop ≤ maps[j].2.start :=
    fun i j lt inside => pairwise_iff_getElem.mp h.ordered.ranges.sorted i j (by omega) inside lt
  have down : ∀ i j, i ≤ j → j < maps.length →
      decide ((m.seg (m.segIndex.getD j 0)).start ≤ addr) = true →
      decide ((m.seg (m.segIndex.getD i 0)).start ≤ addr) = true := by
    intro i j le inside holds
    rw [decide_eq_true_eq, content j inside] at holds
    rw [decide_eq_true_eq, content i (by omega)]
    rcases Nat.eq_or_lt_of_le le with rfl | lt
    · exact holds
    · have := sorted i j lt inside
      have := h.ordered.ranges.nonempty maps[i] (getElem_mem (by omega))
      omega
  obtain ⟨lo, result⟩ : ∃ lo, bisect (fun mid => (m.seg (m.segIndex.getD mid 0)).start ≤ addr)
      maps.length 0 maps.length = lo := ⟨_, rfl⟩
  obtain ⟨le, below, above⟩ := bisect_spec _ maps.length down (Nat.zero_le _) (Nat.le_refl _)
    (Nat.sub_le _ _) nofun (fun i lt le => by omega)
  rw [result] at le below above
  have before : ∀ i (inside : i < maps.length), maps[i].2.start ≤ addr → i < lo := by
    intro i inside begins
    by_contra behind
    have fails := of_decide_eq_false (above i inside (Nat.le_of_not_lt behind))
    rw [content i inside] at fails
    exact fails begins
  unfold MmStruct.search
  dsimp only
  rw [count, result]
  split
  · rename_i pos
    have inside : lo - 1 < maps.length := by omega
    have begins := of_decide_eq_true (below (lo - 1) (by omega))
    rw [content _ inside] at begins ⊢
    rw [entry _ inside]
    split
    · rename_i ends
      exact found_some h.ordered.ranges (getElem_mem inside) ⟨begins, ends⟩
    rename_i ended
    apply found_none
    intro e member covers
    obtain ⟨i, inside', rfl⟩ := getElem_of_mem member
    have := before i inside' covers.1
    rcases Nat.lt_or_ge i (lo - 1) with earlier | last
    · have := sorted i (lo - 1) earlier inside
      omega
    · have same : i = lo - 1 := by omega
      subst same
      omega
  · apply found_none
    intro e member covers
    obtain ⟨i, inside', rfl⟩ := getElem_of_mem member
    have := before i inside' covers.1
    omega

/-! ### The walk -/

/-- The walk along the list answers with the mapping at the address, if it answers. It answers
if there are not more mappings than steps. -/
theorem Linked.walk (h : m.Linked (done ++ rest)) (ranges : Ranges (·.2.start) (·.2.stop) rest)
    (left : Nat) :
    (∀ found, m.walk addr left (rest.map Prod.fst).head? = some found → Found rest addr found) ∧
      (rest.length ≤ left → ∃ found, m.walk addr left (rest.map Prod.fst).head? = some found) := by
  induction rest generalizing done left with
  | nil =>
    have answers : m.walk addr left none = some none := by cases left <;> rfl
    refine ⟨?_, fun _ => ⟨none, answers⟩⟩
    intro found answer
    cases answers.symm.trans answer
    exact found_none nofun
  | cons e rest ih =>
    obtain ⟨v, s⟩ := e
    obtain ⟨-, later, beyond⟩ := ranges_cons.mp ranges
    cases left with
    | zero => exact ⟨nofun, nofun⟩
    | succ left =>
      rw [map_cons, head?_cons, MmStruct.walk, h.here, h.neighbours.2]
      split
      · rename_i covers
        refine ⟨?_, fun _ => ⟨_, rfl⟩⟩
        rintro found ⟨⟩
        exact found_some ranges (.head _) ⟨covers.2, covers.1⟩
      rename_i outside
      split
      · rename_i above
        refine ⟨?_, fun _ => ⟨_, rfl⟩⟩
        rintro found ⟨⟩
        apply found_none
        intro e member covers
        rcases mem_cons.mp member with rfl | there
        · dsimp only at covers
          omega
        · have wide := ranges.nonempty (v, s) (.head _)
          have := beyond e there
          dsimp only at wide this
          omega
      · obtain ⟨right, total⟩ := ih h.next later left
        refine ⟨?_, fun few => total (Nat.le_of_succ_le_succ few)⟩
        intro found answer p
        rw [right found answer p]
        constructor
        · rintro ⟨s', member, covers⟩
          exact ⟨s', .tail _ member, covers⟩
        · rintro ⟨s', member, covers⟩
          rcases mem_cons.mp member with here | there
          · cases here
            omega
          · exact ⟨s', there, covers⟩

/-- It panics if there are as many mappings below the address as steps, and one more. -/
theorem Linked.walk_eq_none (h : m.Linked (done ++ rest)) {left : Nat} (many : left < rest.length)
    (below : ∀ e ∈ rest.take left, e.2.start ≤ addr ∧ e.2.stop ≤ addr) :
    m.walk addr left (rest.map Prod.fst).head? = none := by
  induction rest generalizing done left with
  | nil => cases many
  | cons e rest ih =>
    obtain ⟨v, s⟩ := e
    cases left with
    | zero => rfl
    | succ left =>
      obtain ⟨begins, ends⟩ := below (v, s) (by simp)
      dsimp only at begins ends
      rw [map_cons, head?_cons, MmStruct.walk, h.here, h.neighbours.2,
        if_neg (by omega), if_neg (by omega)]
      apply ih h.next (Nat.lt_of_succ_lt_succ many)
      intro e member
      exact below e (by simp [member])

/-! ### The lookup -/

/-- The lookup, once the index is not dirty. -/
def lookup (m : MmStruct) (addr : Nat) : Option (Option Nat) :=
  if m.segIndexState = .valid then some (m.search addr) else m.walk addr 100000 m.mmap

/-- `mm_seg_find` is the lookup after a dirty index was rebuilt. -/
theorem Good.mmSegFind_eq (h : m.Good maps) (addr : Nat) : ∃ m₁ : MmStruct, m₁.Good maps ∧
    m₁.segIndexState ≠ .dirty ∧
    m.mmSegFind addr = (m₁.lookup addr).map fun found => (m₁, found) := by
  have good : (if m.segIndexState = .dirty then m.segIndexRebuild else m).Good maps ∧
      (if m.segIndexState = .dirty then m.segIndexRebuild else m).segIndexState ≠ .dirty := by
    split
    · exact h.rebuild
    · exact ⟨h, ‹_›⟩
  refine ⟨_, good.1, good.2, ?_⟩
  unfold MmStruct.mmSegFind MmStruct.lookup
  dsimp only
  generalize (if m.segIndexState = .dirty then m.segIndexRebuild else m) = m₁
  split
  · rfl
  · rfl

theorem Good.lookup (h : m.Good maps) (clean : m.segIndexState ≠ .dirty) (addr : Nat) :
    (∀ found, m.lookup addr = some found → Found maps addr found) ∧
      (maps.length ≤ 100000 → ∃ found, m.lookup addr = some found) := by
  have indexed := h.indexed
  unfold MmStruct.lookup
  unfold Indexed at indexed
  cases state : m.segIndexState with
  | dirty => exact absurd state clean
  | valid =>
    rw [state] at indexed
    refine ⟨?_, fun _ => ⟨_, rfl⟩⟩
    rintro found ⟨⟩
    exact h.mapped.search indexed.1 addr
  | overflow =>
    rw [if_neg nofun, h.mapped.linked.links.first]
    exact h.mapped.start.walk h.mapped.ordered.ranges _

/-- What `mm_seg_find` answers is right, and it answers if there are not too many mappings. -/
theorem Good.mmSegFind (h : m.Good maps) (addr : Nat) :
    (∀ m' found, m.mmSegFind addr = some (m', found) → m'.Good maps ∧ Found maps addr found) ∧
      (maps.length ≤ 100000 → ∃ m' found, m.mmSegFind addr = some (m', found)) := by
  obtain ⟨m₁, good, clean, same⟩ := h.mmSegFind_eq addr
  obtain ⟨right, total⟩ := good.lookup clean addr
  rw [same]
  constructor
  · intro m' found answer
    obtain ⟨_, looked, ⟨⟩⟩ := Option.map_eq_some_iff.mp answer
    exact ⟨good, right found looked⟩
  · intro few
    obtain ⟨found, looked⟩ := total few
    exact ⟨m₁, found, by rw [looked]; rfl⟩

/-- `mm_split_vma_at` keeps what is assigned. -/
theorem Good.mmSplitVmaAt (h : m.Good maps) (new : ∀ t ∈ tail, t ∉ maps.map Prod.fst) (addr : Nat)
    {result : Except Errno Unit} (done : m.mmSplitVmaAt addr tail = some (m', result)) :
    ∃ maps', m'.Good maps' ∧ SameMeaning maps maps' := by
  obtain ⟨⟨m₁, found⟩, looked, same⟩ := Option.map_eq_some_iff.mp done
  obtain ⟨good, answer⟩ := (h.mmSegFind addr).1 m₁ found looked
  cases found with
  | none =>
    cases same
    exact ⟨maps, good, .refl _⟩
  | some v =>
    obtain ⟨s, member, -⟩ := (answer v).mp rfl
    obtain ⟨before, after, rfl⟩ := append_of_mem member
    dsimp only at same
    rw [good.mapped.linked.here] at same
    split at same
    · cases same
      exact ⟨_, good, .refl _⟩
    rename_i inside
    cases tail with
    | none =>
      cases same
      exact ⟨_, good, .refl _⟩
    | some t =>
      cases same
      obtain ⟨mapped, meaning⟩ :=
        good.mapped.invalidate.cut (new t rfl) (x := addr) (by omega) (by omega)
      exact ⟨_, mapped.good (by simp [segIndexInvalidate]), meaning⟩

/-! ### Runs -/

theorem Linked.nodes (h : m.Linked (done ++ rest)) {fuel : Nat} (enough : rest.length ≤ fuel) :
    m.nodes fuel (rest.map Prod.fst).head? = rest.map Prod.fst := by
  induction rest generalizing done fuel with
  | nil => cases fuel <;> rfl
  | cons e rest ih =>
    obtain ⟨v, s⟩ := e
    cases fuel with
    | zero => cases enough
    | succ fuel =>
      rw [map_cons, head?_cons, MmStruct.nodes, h.neighbours.2,
        ih h.next (Nat.le_of_succ_le_succ enough)]

theorem Mapped.listed (h : m.Mapped maps) : m.listed = maps.map Prod.fst := by
  rw [MmStruct.listed, h.linked.links.first]
  exact h.start.nodes (Nat.le_of_lt h.ordered.few)

/-- The mappings are in order, and the index is right. -/
def Sound (m : MmStruct) : Prop := ∃ maps, m.Good maps

theorem good_empty : Good {} [] :=
  ⟨⟨⟨dlist_nil _ _, nofun⟩, ⟨ranges_nil _ _, nofun⟩⟩, trivial⟩

theorem Mapped.vacant (h : m.Mapped maps) (vacant : m.Vacant s) :
    ∀ e ∈ maps, e.2.stop ≤ s.start ∨ s.stop ≤ e.2.start := by
  intro e member
  rw [← h.linked.segs e member]
  apply vacant
  rw [h.listed]
  exact mem_map_of_mem member

theorem Sound.step {limit : Nat} {label : VmaLabel} (sound : m.Sound)
    (taken : m.step limit label = some m') : m'.Sound := by
  obtain ⟨maps, good⟩ := sound
  have listed := good.mapped.listed
  cases label with
  | insert newv seg =>
    obtain ⟨⟨new, nonempty, bound, vacant⟩, taken⟩ := Option.ite_none_right_eq_some.mp taken
    rw [listed] at new
    have filled : (m.setSeg newv seg).Mapped maps :=
      ⟨good.mapped.linked.set_outside new seg, good.mapped.ordered⟩
    obtain ⟨m₁, maps₁, inserted, mapped, dirty, -⟩ := filled.mmInsertVma new (by simp) nonempty
      bound (good.mapped.vacant vacant)
    cases taken.symm.trans inserted
    exact ⟨maps₁, mapped.good dirty⟩
  | splitAt addr tail =>
    obtain ⟨fresh, taken⟩ := Option.ite_none_right_eq_some.mp taken
    obtain ⟨⟨m₁, result⟩, done, rfl⟩ := Option.map_eq_some_iff.mp taken
    unfold Fresh at fresh
    rw [listed] at fresh
    obtain ⟨maps₁, good₁, -⟩ := good.mmSplitVmaAt fresh addr done
    exact ⟨maps₁, good₁⟩
  | split vma split tail =>
    obtain ⟨⟨member, fresh⟩, ⟨⟩⟩ := Option.ite_none_right_eq_some.mp taken
    unfold Fresh at fresh
    rw [listed] at member fresh
    obtain ⟨maps₁, mapped, -, ⟨same, rfl⟩ | dirty⟩ := good.mapped.vmaSplit member fresh split
    · rw [same]
      exact ⟨_, good⟩
    · exact ⟨maps₁, mapped.good dirty⟩
  | tryMerge vma =>
    obtain ⟨member, ⟨⟩⟩ := Option.ite_none_right_eq_some.mp taken
    rw [listed] at member
    obtain ⟨maps₁, mapped, -, dirty⟩ := good.mapped.vmaTryMerge member
    exact ⟨maps₁, mapped.good dirty⟩
  | munmap addr len release tail =>
    obtain ⟨fresh, taken⟩ := Option.ite_none_right_eq_some.mp taken
    obtain ⟨⟨m₁, result⟩, done, rfl⟩ := Option.map_eq_some_iff.mp taken
    unfold Fresh at fresh
    rw [listed] at fresh
    obtain ⟨m₂, _, maps₁, ran, mapped, state, -⟩ :=
      good.mapped.mmMunmapLocked fresh limit addr len release
    cases done.symm.trans ran
    rcases state with ⟨rfl, rfl⟩ | dirty
    · exact ⟨_, good⟩
    · exact ⟨maps₁, mapped.good dirty⟩
  | find addr =>
    obtain ⟨⟨m₁, found⟩, done, rfl⟩ := Option.map_eq_some_iff.mp taken
    exact ⟨maps, ((good.mmSegFind addr).1 m₁ found done).1⟩

theorem sound_of_run {limit : Nat} (run : RunsTo (step limit) always {} m) : m.Sound :=
  run.invariant (fun sound _ taken => sound.step taken) ⟨[], good_empty⟩

/-- **The mapping list in every run.** The list is linked both ways, its mappings are not empty and
follow one another, and as long as there are no more than 100000 of them, `mm_seg_find` answers
every address with the one mapping that has it, or with `NULL` if none has, whatever the state of
the index. -/
theorem run_lookup {limit : Nat} {m : MmStruct} (run : RunsTo (step limit) always {} m) :
    DList m.prev m.next m.mmap m.listed ∧
      Ranges (fun v => (m.seg v).start) (fun v => (m.seg v).stop) m.listed ∧
      (m.listed.length ≤ 100000 → ∀ addr, ∃ m' found, m.mmSegFind addr = some (m', found) ∧
        ∀ v, found = some v ↔ v ∈ m.listed ∧ (m.seg v).start ≤ addr ∧ addr < (m.seg v).stop) := by
  obtain ⟨maps, good⟩ := sound_of_run run
  have segs := good.mapped.linked.segs
  rw [good.mapped.listed]
  refine ⟨good.mapped.linked.links, ?_, ?_⟩
  · apply Ranges.map
    refine good.mapped.ordered.ranges.congr ?_
    intro e member
    simp [segs e member]
  · intro few addr
    rw [length_map] at few
    obtain ⟨right, total⟩ := good.mmSegFind addr
    obtain ⟨m', found, answer⟩ := total few
    refine ⟨m', found, answer, fun v => ?_⟩
    rw [(right m' found answer).2 v, mem_map]
    constructor
    · rintro ⟨s, member, covers⟩
      rw [segs (v, s) member]
      exact ⟨⟨(v, s), member, rfl⟩, covers⟩
    · rintro ⟨⟨e, member, rfl⟩, covers⟩
      rw [segs e member] at covers
      exact ⟨e.2, member, covers⟩

/-- Unmapping a page in the middle of a mapping leaves two, and the lookup finds the second. -/
theorem run_lookup_cut : ∃ m m',
    exec (step (2 ^ 38)) {} [.insert 1 { start := 0x1000, stop := 0x4000 }, .find 0x2000,
      .munmap 0x2000 0x1000 (fun _ => .ok ()) (some 2)] = some m ∧
    m.mmSegFind 0x3800 = some (m', some 2) := by
  obtain ⟨m, reached, list, start, stop⟩ : ∃ m, exec (step (2 ^ 38)) {}
      [.insert 1 { start := 0x1000, stop := 0x4000 }, .find 0x2000,
        .munmap 0x2000 0x1000 (fun _ => .ok ()) (some 2)] = some m ∧
      m.listed = [1, 2] ∧ (m.seg 2).start = 0x3000 ∧ (m.seg 2).stop = 0x4000 :=
    eq_some_of_any (by decide +kernel)
  obtain ⟨-, -, answers⟩ := run_lookup (exec_runsTo reached)
  rw [list] at answers
  obtain ⟨m', found, answer, right⟩ := answers (by decide) 0x3800
  have second : found = some 2 := (right 2).mpr ⟨by decide, by omega, by omega⟩
  exact ⟨m, m', reached, second ▸ answer⟩

/-! ### Too many mappings -/

/-- A page of memory in every other place. -/
def page (k : Nat) : MmSeg := { start := 8192 * k, stop := 8192 * k + 4096 }

def pages (k n : Nat) : Maps := (List.range' k n).map fun i => (i, page i)

/-- A mapping below all others that does not touch them becomes the first one. -/
theorem Mapped.insert_first (h : m.Mapped maps) (new : newv ∉ maps.map Prod.fst)
    (nonempty : s.start < s.stop) (bound : s.stop < 2 ^ 64)
    (below : ∀ e ∈ maps, s.stop < e.2.start) :
    ∃ m', (m.setSeg newv s).mmInsertVma newv = some m' ∧ m'.Good ((newv, s) :: maps) := by
  let m₁ := (m.setSeg newv s).segIndexInvalidate
  let m₂ := m₁.link newv none m.mmap
  have filled : m₁.Linked ([] ++ maps) := by
    have set := h.linked.set_outside new s
    exact ⟨set.links, set.segs⟩
  have here : m₁.seg newv = s := by simp [m₁, segIndexInvalidate]
  have ordered : Ordered ((newv, s) :: maps) := by
    have whole : Ordered ([] ++ maps) := h.ordered
    refine whole.insert nonempty bound ?_ (by simp) ?_
    · intro e member
      exact .inr (Nat.le_of_lt (below e member))
    · intro e member
      have := below e (mem_of_mem_head? member)
      omega
  have placed : m₁.place s.start fuel none m.mmap = some (none, m.mmap) := by
    obtain ⟨more, enough⟩ : ∃ more, fuel = more + 1 := ⟨2 ^ 64 - 1, rfl⟩
    rw [enough, h.linked.links.first]
    cases maps with
    | nil => rfl
    | cons e rest =>
      have := below e (.head _)
      have stays : m₁.seg e.1 = e.2 := filled.segs e (.head _)
      rw [map_cons, head?_cons, MmStruct.place, stays, if_neg (by omega)]
  have first : (maps.map Prod.fst).head? = m.mmap := h.linked.links.first.symm
  have linked : m₂.Linked ([] ++ (newv, s) :: maps) := by simpa [first] using filled.link new here
  refine ⟨m₂, ?_, ?_⟩
  · have apart : m₂.mergeNext newv = m₂ := by
      unfold MmStruct.mergeNext
      rw [linked.neighbours.2, linked.here]
      cases maps with
      | nil => rfl
      | cons e rest =>
        have gap := below e (.head _)
        have there := linked.segs e (by simp)
        have cannot : vmaCanMerge s e.2 = false := if_pos (by omega)
        rw [map_cons, head?_cons]
        dsimp only
        rw [there, cannot, if_neg Bool.false_ne_true]
    have alone : m₂.mergePrev newv = (m₂, newv) := by
      unfold MmStruct.mergePrev
      rw [linked.neighbours.1]
      rfl
    unfold MmStruct.mmInsertVma
    dsimp only
    rw [here]
    change Option.map _ (m₁.place s.start fuel none m.mmap) = _
    rw [placed, Option.map_some]
    rw [apart, alone]
  · apply Mapped.good
    · exact ⟨linked, ordered⟩
    · simp [m₂, m₁, segIndexInvalidate]

theorem mem_pages {k n : Nat} {e : Nat × MmSeg} (member : e ∈ pages k n) :
    k ≤ e.1 ∧ e.1 < k + n ∧ e.2 = page e.1 := by
  obtain ⟨i, inside, rfl⟩ := mem_map.mp member
  obtain ⟨low, high⟩ := mem_range'_1.mp inside
  exact ⟨low, high, rfl⟩

/-- Pages that do not touch can be mapped one below the other. -/
theorem run_pages (k n : Nat) (bound : k + n < 2 ^ 32) :
    ∃ m, RunsTo (step (2 ^ 38)) always {} m ∧ m.Good (pages (k + 1) n) := by
  induction n generalizing k with
  | zero => exact ⟨{}, .refl, good_empty⟩
  | succ n ih =>
    obtain ⟨m, run, good⟩ := ih (k + 1) (by omega)
    have below : ∀ e ∈ pages (k + 1 + 1) n, (page (k + 1)).stop < e.2.start := by
      intro e member
      obtain ⟨low, -, same⟩ := mem_pages member
      rw [same]
      simp only [page]
      omega
    have new : k + 1 ∉ (pages (k + 1 + 1) n).map Prod.fst := by
      intro member
      obtain ⟨e, inside, same⟩ := mem_map.mp member
      have := (mem_pages inside).1
      omega
    have nonempty : (page (k + 1)).start < (page (k + 1)).stop := by simp [page]
    have high : (page (k + 1)).stop < 2 ^ 64 := by
      simp only [page]
      omega
    obtain ⟨m', inserted, good'⟩ := good.mapped.insert_first new nonempty high below
    refine ⟨m', run.tail (a := .insert (k + 1) (page (k + 1))) trivial ?_, good'⟩
    have vacant : m.Vacant (page (k + 1)) := by
      intro v member
      rw [good.mapped.listed] at member
      obtain ⟨e, inside, rfl⟩ := mem_map.mp member
      rw [good.mapped.linked.segs e inside]
      exact .inr (Nat.le_of_lt (below e inside))
    rw [MmStruct.step, if_pos ⟨good.mapped.listed ▸ new, nonempty, high, vacant⟩]
    exact inserted

/-- With 100001 mappings, the lookup of an address in the last one panics. -/
theorem run_lookup_panics : ∃ m, RunsTo (step (2 ^ 38)) always {} m ∧ 100001 ∈ m.listed ∧
    (m.seg 100001).start ≤ 8192 * 100001 ∧ 8192 * 100001 < (m.seg 100001).stop ∧
    m.mmSegFind (8192 * 100001) = none := by
  obtain ⟨m, run, good⟩ := run_pages 0 100001 (by decide)
  have size : (pages 1 100001).length = 100001 := by simp [pages]
  have last : (100001, page 100001) ∈ pages 1 100001 :=
    mem_map_of_mem (mem_range'_1.mpr (by omega))
  have content : m.seg 100001 = page 100001 := good.mapped.linked.segs _ last
  refine ⟨m, run, ?_, ?_, ?_, ?_⟩
  · rw [good.mapped.listed]
    exact mem_map_of_mem last
  · rw [content]
    simp [page]
  · rw [content]
    simp [page]
  · obtain ⟨m₁, good₁, clean, same⟩ := good.mmSegFind_eq (8192 * 100001)
    have walks : m₁.lookup (8192 * 100001) = m₁.walk (8192 * 100001) 100000 m₁.mmap := by
      have indexed := good₁.indexed
      unfold Indexed at indexed
      apply if_neg
      intro valid
      rw [valid, size] at indexed
      exact absurd indexed.2 (by decide)
    rw [same, walks, good₁.mapped.linked.links.first,
      good₁.mapped.start.walk_eq_none (by rw [size]; decide)]
    · rfl
    · intro e member
      have split : pages 1 (100000 + 1) = pages 1 100000 ++ pages (1 + 100000) 1 := by
        simp only [pages, ← map_append, range'_append_1]
      have length : (pages 1 100000).length = 100000 := by simp [pages]
      rw [split, take_left' length] at member
      obtain ⟨-, high, content⟩ := mem_pages member
      rw [content]
      simp only [page]
      omega

/-! ### Meaning -/

/-- **What is mapped where.** In every state with a linked and ordered list, `mm_insert_vma` of a
mapping that overlaps none adds exactly what that mapping assigns, and merging and splitting leave
what is assigned to every address as it is. -/
theorem vma_meaning (mapped : m.Mapped maps) :
    (∀ newv s, newv ∉ maps.map Prod.fst → s.start < s.stop → s.stop < 2 ^ 64 →
      (∀ e ∈ maps, e.2.stop ≤ s.start ∨ s.stop ≤ e.2.start) →
      ∃ m' maps', (m.setSeg newv s).mmInsertVma newv = some m' ∧ m'.Mapped maps' ∧
        ∀ x w, Assigns maps' x w ↔
          Assigns maps x w ∨ ((s.start ≤ x ∧ x < s.stop) ∧ s.assign x = w)) ∧
    (∀ v ∈ maps.map Prod.fst, ∃ maps', (m.vmaTryMerge v).1.Mapped maps' ∧
      SameMeaning maps maps') ∧
    (∀ v ∈ maps.map Prod.fst, ∀ split tail, (∀ t ∈ tail, t ∉ maps.map Prod.fst) →
      ∃ maps', (m.vmaSplit v split tail).1.Mapped maps' ∧ SameMeaning maps maps') ∧
    (m.Indexed maps → ∀ addr tail, (∀ t ∈ tail, t ∉ maps.map Prod.fst) →
      (∀ m' result, m.mmSplitVmaAt addr tail = some (m', result) →
        ∃ maps', m'.Mapped maps' ∧ SameMeaning maps maps') ∧
      (maps.length ≤ 100000 → ∃ m' result, m.mmSplitVmaAt addr tail = some (m', result))) := by
  refine ⟨?_, ?_, ?_, ?_⟩
  · intro newv s new nonempty bound vacant
    have filled : (m.setSeg newv s).Mapped maps :=
      ⟨mapped.linked.set_outside new s, mapped.ordered⟩
    obtain ⟨m', maps', inserted, mapped', -, meaning⟩ :=
      filled.mmInsertVma new (by simp) nonempty bound vacant
    exact ⟨m', maps', inserted, mapped', meaning⟩
  · intro v member
    obtain ⟨maps', mapped', meaning, -⟩ := mapped.vmaTryMerge member
    exact ⟨maps', mapped', meaning⟩
  · intro v member split tail new
    obtain ⟨maps', mapped', meaning, -⟩ := mapped.vmaSplit member new split
    exact ⟨maps', mapped', meaning⟩
  · intro indexed addr tail new
    have good : m.Good maps := ⟨mapped, indexed⟩
    constructor
    · intro m' result done
      obtain ⟨maps', good', meaning⟩ := good.mmSplitVmaAt new addr done
      exact ⟨maps', good'.mapped, meaning⟩
    · intro few
      obtain ⟨m₁, found, answer⟩ := (good.mmSegFind addr).2 few
      unfold MmStruct.mmSplitVmaAt
      rw [answer]
      exact ⟨_, _, rfl⟩

/-- A page of a file. -/
def filePage (start offset : Nat) : MmSeg :=
  { start, stop := start + 0x1000, vmFlags := vmFile, file := 5, backingOffset := offset }

/-- Two pages of a file that follow one another are merged, and the second one is still the second
page of the file. -/
theorem vma_meaning_file : ∃ m m' maps',
    exec (step (2 ^ 38)) {} [.insert 1 (filePage 0x1000 0x7000)] = some m ∧
    (m.setSeg 2 (filePage 0x2000 0x8000)).mmInsertVma 2 = some m' ∧ m'.listed = [1] ∧
    m'.Mapped maps' ∧ Assigns maps' 0x2800 ((vmFile, 0), .file 5 0x8800) := by
  obtain ⟨m, reached, list, stop, merged⟩ : ∃ m,
      exec (step (2 ^ 38)) {} [.insert 1 (filePage 0x1000 0x7000)] = some m ∧
      m.listed = [1] ∧ (m.seg 1).stop = 0x2000 ∧
      ((m.setSeg 2 (filePage 0x2000 0x8000)).mmInsertVma 2).any
        (fun m' => m'.listed = [1]) = true :=
    eq_some_of_any (by decide +kernel)
  obtain ⟨maps, good⟩ := sound_of_run (exec_runsTo reached)
  rw [good.mapped.listed] at list
  have vacant : ∀ e ∈ maps, e.2.stop ≤ 0x2000 ∨ 0x3000 ≤ e.2.start := by
    intro e member
    have first : e.1 ∈ maps.map Prod.fst := mem_map_of_mem member
    rw [list, mem_singleton] at first
    rw [← good.mapped.linked.segs e member, first]
    exact .inl (Nat.le_of_eq stop)
  obtain ⟨insert, -⟩ := vma_meaning good.mapped
  obtain ⟨m', maps', inserted, mapped, meaning⟩ :=
    insert 2 (filePage 0x2000 0x8000) (by simp [list]) (by decide) (by decide) vacant
  rw [inserted, Option.any_some, decide_eq_true_eq] at merged
  refine ⟨m, m', maps', reached, inserted, merged, mapped, ?_⟩
  exact (meaning 0x2800 _).mpr (.inr ⟨by decide, by decide⟩)

/-! ### Unmapping -/

/-- **Unmapping.** If pages can be released, there is a record for a tail and the length can be
rounded up, `mm_munmap_locked` takes away exactly the range when it succeeds. When it fails, all
mappings are as they were and no page was released: the outcome is the same whatever releasing
would do. -/
theorem munmap_effect (mapped : m.Mapped maps) (new : t ∉ maps.map Prod.fst)
    {release : Nat → Except Errno Unit} (frees : ∀ v, release v = .ok ()) (limit addr len : Nat)
    (fits : len + 4095 < 2 ^ 64) :
    ∃ m' result maps', m.mmMunmapLocked limit addr len release (some t) = some (m', result) ∧
      m'.Mapped maps' ∧
      (result = .ok () → ∀ x w, Assigns maps' x w ↔
        Assigns maps x w ∧ ¬ (addr ≤ x ∧ x < addr + (len + 4095) / 4096 * 4096)) ∧
      (result ≠ .ok () → maps' = maps ∧
        ∀ release', m.mmMunmapLocked limit addr len release' (some t) = some (m', result)) := by
  have fresh : ∀ u ∈ some t, u ∉ maps.map Prod.fst := by
    rintro u ⟨⟩
    exact new
  obtain ⟨m', result, maps', ran, mapped', -, gone, kept⟩ :=
    mapped.mmMunmapLocked fresh limit addr len release
  rw [Nat.mod_eq_of_lt fits] at gone
  refine ⟨m', result, maps', ran, mapped', gone, fun failed => (kept failed).resolve_left ?_⟩
  intro why
  cases why frees

/-- A page is unmapped in the middle of a mapping. -/
theorem munmap_effect_cut : ∃ m m' maps',
    exec (step (2 ^ 38)) {} [.insert 1 { start := 0x1000, stop := 0x4000 }] = some m ∧
    m.mmMunmapLocked (2 ^ 38) 0x2000 0x1000 (fun _ => .ok ()) (some 2) = some (m', .ok ()) ∧
    m'.Mapped maps' ∧ ∀ w, ¬ Assigns maps' 0x2800 w := by
  obtain ⟨m, reached, list, done⟩ : ∃ m,
      exec (step (2 ^ 38)) {} [.insert 1 { start := 0x1000, stop := 0x4000 }] = some m ∧
      m.listed = [1] ∧ (m.mmMunmapLocked (2 ^ 38) 0x2000 0x1000 (fun _ => .ok ()) (some 2)).any
        (fun after => after.2 = .ok ()) = true :=
    eq_some_of_any (by decide +kernel)
  obtain ⟨maps, good⟩ := sound_of_run (exec_runsTo reached)
  have new : 2 ∉ maps.map Prod.fst := by simp [← good.mapped.listed, list]
  obtain ⟨m', result, maps', ran, mapped, gone, -⟩ :=
    munmap_effect good.mapped new (fun _ => rfl) (2 ^ 38) 0x2000 0x1000 (by decide)
  rw [ran, Option.any_some, decide_eq_true_eq] at done
  cases done
  refine ⟨m, m', maps', reached, ran, mapped, fun w assigned => ?_⟩
  exact ((gone rfl 0x2800 w).mp assigned).2 (by decide)

end MmStruct

end A20OS.Mm
