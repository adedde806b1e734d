import Mathlib.Data.List.Basic

/-!
Bitmaps in 64-bit words and the search for a clear bit.

A bitmap is a list of words; bit `slot` is bit `slot % 64` of word `slot / 64`, and
bits past the last word read as clear. `ctz64` counts trailing zeros by halving,
as freestanding code does without a compiler builtin. `firstClear` returns the
lowest clear bit of the first word, from a given one on, that has any.
-/

namespace A20OS.Lib

open List

variable {v : BitVec 64} {bitmap : List (BitVec 64)} {slot capacity i k : Nat}
  {mask : BitVec 64}

/-! ### Reading and writing one bit -/

/-- `(a & ~b) == 0`: every bit of `a` is a bit of `b`. -/
theorem and_not_eq_zero_iff {w : Nat} {a b : BitVec w} :
    a &&& ~~~b = 0 ↔ ∀ i, a.getLsbD i = true → b.getLsbD i = true := by
  constructor
  · intro none i set
    have bit := congrArg (BitVec.getLsbD · i) none
    have inside := BitVec.lt_of_getLsbD set
    simpa [set, inside] using bit
  · intro all
    apply BitVec.eq_of_getLsbD_eq
    intro i inside
    cases set : a.getLsbD i with
    | false => simp [set]
    | true => simp [set, all i set]

/-- `bitmap[slot / 64] & (1 << slot % 64)`. -/
def testBit (bitmap : List (BitVec 64)) (slot : Nat) : Bool :=
  (bitmap.getD (slot / 64) 0).getLsbD (slot % 64)

/-- `bitmap[slot / 64] |= 1 << slot % 64`. -/
def setBit (bitmap : List (BitVec 64)) (slot : Nat) : List (BitVec 64) :=
  bitmap.set (slot / 64) (bitmap.getD (slot / 64) 0 ||| (1#64 <<< (slot % 64)))

/-- `bitmap[slot / 64] &= ~(1 << slot % 64)`. -/
def clearBit (bitmap : List (BitVec 64)) (slot : Nat) : List (BitVec 64) :=
  bitmap.set (slot / 64) (bitmap.getD (slot / 64) 0 &&& ~~~(1#64 <<< (slot % 64)))

@[simp] theorem length_setBit : (setBit bitmap slot).length = bitmap.length := length_set

@[simp] theorem length_clearBit : (clearBit bitmap slot).length = bitmap.length := length_set

/-- Writing one word changes the bits of that word only. -/
theorem testBit_set (bitmap : List (BitVec 64)) {word : Nat} (hword : word < bitmap.length)
    (value : BitVec 64) (slot : Nat) :
    testBit (bitmap.set word value) slot =
      if slot / 64 = word then value.getLsbD (slot % 64) else testBit bitmap slot := by
  unfold testBit
  rw [getD_eq_getElem?_getD, getElem?_set]
  by_cases same : word = slot / 64
  · rw [if_pos same, if_pos hword, if_pos same.symm, Option.getD_some]
  · rw [if_neg same, if_neg (Ne.symm same), getD_eq_getElem?_getD]

/-- The mask of a slot selects it among the slots of its word. -/
theorem getLsbD_mask {other : Nat} (hword : other / 64 = slot / 64) :
    (1#64 <<< (slot % 64)).getLsbD (other % 64) = decide (other = slot) := by
  have same : slot % 64 = other % 64 ↔ other = slot := by omega
  rw [← BitVec.twoPow_eq, BitVec.getLsbD_twoPow]
  simp only [Nat.mod_lt slot (by decide : 64 > 0), decide_true, Bool.true_and, same]

theorem testBit_setBit (hslot : slot / 64 < bitmap.length) (other : Nat) :
    testBit (setBit bitmap slot) other = (decide (other = slot) || testBit bitmap other) := by
  unfold setBit
  rw [testBit_set bitmap hslot]
  by_cases hword : other / 64 = slot / 64
  · rw [if_pos hword, BitVec.getLsbD_or, getLsbD_mask hword, Bool.or_comm, ← hword]
    rfl
  · have hne : other ≠ slot := fun h => hword (by rw [h])
    rw [if_neg hword]
    simp [hne]

theorem testBit_clearBit (hslot : slot / 64 < bitmap.length) (other : Nat) :
    testBit (clearBit bitmap slot) other = (!decide (other = slot) && testBit bitmap other) := by
  unfold clearBit
  rw [testBit_set bitmap hslot]
  by_cases hword : other / 64 = slot / 64
  · rw [if_pos hword, BitVec.getLsbD_and, BitVec.getLsbD_not, getLsbD_mask hword, Bool.and_comm,
      ← hword, decide_eq_true (Nat.mod_lt _ (by decide)), Bool.true_and]
    rfl
  · have hne : other ≠ slot := fun h => hword (by rw [h])
    rw [if_neg hword]
    simp [hne]

theorem testBit_append_zeros (n slot : Nat) :
    testBit (bitmap ++ List.replicate n 0) slot = testBit bitmap slot := by
  unfold testBit
  congr 1
  simp only [getD_eq_getElem?_getD]
  by_cases inside : slot / 64 < bitmap.length
  · rw [getElem?_append_left inside]
  · have outside : bitmap.length ≤ slot / 64 := Nat.le_of_not_lt inside
    rw [getElem?_append_right outside, getElem?_eq_none outside, getElem?_replicate]
    split <;> rfl

/-- How many bits are set below a bound. -/
def setBits (bitmap : List (BitVec 64)) (bound : Nat) : Nat :=
  (List.range bound).countP (testBit bitmap)

theorem setBits_le (bound : Nat) : setBits bitmap bound ≤ bound := by
  have bounded := countP_le_length (p := testBit bitmap) (l := range bound)
  rwa [length_range] at bounded

/-! ### Counting trailing zeros -/

/-- One halving: when the low `k` bits, selected by `mask`, are all clear, drop them
and count them. -/
def halve (k : Nat) (mask : BitVec 64) (p : Nat × BitVec 64) : Nat × BitVec 64 :=
  if p.2 &&& mask = 0 then (p.1 + k, p.2 >>> k) else p

def ctz64 (v : BitVec 64) : Nat :=
  if v = 0 then 64
  else
    (halve 1 0x1 (halve 2 0x3 (halve 4 0xF (halve 8 0xFF (halve 16 0xFFFF
      (halve 32 0xFFFFFFFF (0, v))))))).1

/-- `p` is what remains of `v` after dropping `p.1` clear low bits, and a set bit is
among the lowest `m` that remain. -/
structure Narrowed (v : BitVec 64) (m : Nat) (p : Nat × BitVec 64) : Prop where
  shifted : p.2 = v >>> p.1
  below : ∀ i < p.1, v.getLsbD i = false
  near : ∃ i < m, p.2.getLsbD i = true

theorem and_lowMask_eq_zero_iff (hmask : mask = (BitVec.allOnes k).setWidth 64) (hk : k ≤ 64) :
    v &&& mask = 0 ↔ ∀ i < k, v.getLsbD i = false := by
  subst hmask
  constructor
  · intro h i hi
    have bit := congrArg (fun x : BitVec 64 => x.getLsbD i) h
    simpa [hi, Nat.lt_of_lt_of_le hi hk] using bit
  · intro h
    apply BitVec.eq_of_getLsbD_eq
    intro i hi
    by_cases low : i < k
    · simp [h i low]
    · simp [low]

theorem Narrowed.halve {p : Nat × BitVec 64} (hmask : mask = (BitVec.allOnes k).setWidth 64)
    (hk : k ≤ 64) (h : Narrowed v (k + k) p) : Narrowed v k (halve k mask p) := by
  unfold Lib.halve
  by_cases low : p.2 &&& mask = 0
  · rw [if_pos low]
    rw [and_lowMask_eq_zero_iff hmask hk] at low
    obtain ⟨i, hi, set⟩ := h.near
    refine ⟨?_, ?_, i - k, ?_, ?_⟩
    · rw [h.shifted, BitVec.shiftRight_add]
    · intro j hj
      by_cases old : j < p.1
      · exact h.below j old
      · have bit := low (j - p.1) (by simp only at hj; omega)
        rw [h.shifted, BitVec.getLsbD_ushiftRight,
          Nat.add_sub_cancel' (Nat.le_of_not_lt old)] at bit
        exact bit
    · omega
    · have past : k ≤ i := by
        by_contra near
        rw [low i (Nat.lt_of_not_le near)] at set
        cases set
      rw [BitVec.getLsbD_ushiftRight, Nat.add_sub_cancel' past]
      exact set
  · rw [if_neg low]
    rw [and_lowMask_eq_zero_iff hmask hk] at low
    push Not at low
    obtain ⟨i, hi, set⟩ := low
    exact ⟨h.shifted, h.below, i, hi, by simpa using set⟩

/-- `ctz64` of a word other than zero is the number of its lowest set bit. -/
theorem ctz64_spec (hv : v ≠ 0) :
    v.getLsbD (ctz64 v) = true ∧ ∀ i < ctz64 v, v.getLsbD i = false := by
  have start : Narrowed v (32 + 32) (0, v) := by
    refine ⟨by simp, by simp, ?_⟩
    by_contra none
    push Not at none
    exact hv (BitVec.eq_of_getLsbD_eq fun i hi => by simpa using none i hi)
  have h := ((((((start.halve rfl (by decide)).halve rfl (by decide)).halve rfl (by decide)).halve
    rfl (by decide)).halve rfl (by decide)).halve rfl (by decide) : Narrowed v 1 _)
  unfold ctz64
  rw [if_neg hv]
  obtain ⟨i, hi, set⟩ := h.near
  rw [h.shifted, BitVec.getLsbD_ushiftRight, Nat.lt_one_iff.mp hi] at set
  exact ⟨set, h.below⟩

theorem ctz64_eq (set : v.getLsbD k = true)
    (below : ∀ i < k, v.getLsbD i = false) : ctz64 v = k := by
  have nonzero : v ≠ 0 := by
    rintro rfl
    simp at set
  obtain ⟨lowest, smaller⟩ := ctz64_spec nonzero
  rcases Nat.lt_trichotomy (ctz64 v) k with earlier | same | later
  · rw [below _ earlier] at lowest
    cases lowest
  · exact same
  · rw [smaller _ later] at set
    cases set

theorem ctz64_lt (hv : v ≠ 0) : ctz64 v < 64 :=
  BitVec.lt_of_getLsbD (ctz64_spec hv).1

/-! ### Searching for a clear bit -/

/-- The first word from number `i` on with a clear bit below `capacity`, and its
lowest clear bit. -/
def firstClear (capacity : Nat) : Nat → List (BitVec 64) → Option Nat
  | _, [] => none
  | i, word :: words =>
      if word ≠ BitVec.allOnes 64 ∧ i * 64 + ctz64 (~~~word) < capacity then
        some (i * 64 + ctz64 (~~~word))
      else firstClear capacity (i + 1) words

theorem not_ne_zero {word : BitVec 64} (h : word ≠ BitVec.allOnes 64) : ~~~word ≠ 0 := by
  intro hzero
  exact h (by rw [← BitVec.not_not (b := word), hzero]; rfl)

/-- A slot that the search returns is below the capacity, and its bit is clear. -/
theorem firstClear_some {words : List (BitVec 64)}
    (found : firstClear capacity i words = some slot) :
    slot < capacity ∧ i ≤ slot / 64 ∧ slot / 64 < i + words.length ∧
      (words.getD (slot / 64 - i) 0).getLsbD (slot % 64) = false := by
  induction words generalizing i with
  | nil => cases found
  | cons word words ih =>
    rw [firstClear] at found
    by_cases here : word ≠ BitVec.allOnes 64 ∧ i * 64 + ctz64 (~~~word) < capacity
    · rw [if_pos here, Option.some_inj] at found
      subst found
      have hv := not_ne_zero here.1
      have hlt := ctz64_lt hv
      have clear := (ctz64_spec hv).1
      have hdiv : (i * 64 + ctz64 (~~~word)) / 64 = i := by omega
      have hmod : (i * 64 + ctz64 (~~~word)) % 64 = ctz64 (~~~word) := by omega
      rw [hdiv, hmod]
      refine ⟨here.2, Nat.le_refl i, by simp, ?_⟩
      simpa [hlt] using clear
    · rw [if_neg here] at found
      obtain ⟨below, from_, upto, clear⟩ := ih found
      refine ⟨below, by omega, by simp; omega, ?_⟩
      rw [show slot / 64 - i = slot / 64 - (i + 1) + 1 by omega, getD_cons_succ]
      exact clear

/-- The search from word `i` of a whole bitmap. -/
theorem firstClear_drop_some (found : firstClear capacity i (bitmap.drop i) = some slot) :
    slot < capacity ∧ slot / 64 < bitmap.length ∧ testBit bitmap slot = false := by
  obtain ⟨below, from_, upto, clear⟩ := firstClear_some found
  rw [length_drop] at upto
  refine ⟨below, by omega, ?_⟩
  rw [getD_eq_getElem?_getD, getElem?_drop, Nat.add_sub_cancel' from_,
    ← getD_eq_getElem?_getD] at clear
  exact clear

theorem drop_eq_word_cons (inside : i < bitmap.length) :
    bitmap.drop i = bitmap.getD i 0 :: bitmap.drop (i + 1) := by
  rw [drop_eq_getElem_cons inside, getD_eq_getElem?_getD,
    getElem?_eq_getElem inside, Option.getD_some]

theorem getLsbD_not_word (bitmap : List (BitVec 64)) (i : Nat) (hk : k < 64) :
    (~~~bitmap.getD i 0).getLsbD k = !testBit bitmap (i * 64 + k) := by
  have hdiv : (i * 64 + k) / 64 = i := by omega
  have hmod : (i * 64 + k) % 64 = k := by omega
  rw [BitVec.getLsbD_not, testBit, hdiv, hmod]
  simp [hk]

/-- A search that starts at a word all of whose bits before `slot` are set stops at
`slot`, if that is the first clear bit. -/
theorem firstClear_drop_eq (below : slot < capacity) (inside : slot / 64 < bitmap.length)
    (clear : testBit bitmap slot = false) :
    ∀ (distance : Nat) {i : Nat}, slot / 64 = i + distance →
      (∀ j < slot, i ≤ j / 64 → testBit bitmap j = true) →
      firstClear capacity i (bitmap.drop i) = some slot := by
  intro distance
  induction distance with
  | zero =>
    intro i here before
    have split : slot = i * 64 + slot % 64 := by omega
    have low : slot % 64 < 64 := Nat.mod_lt _ (by decide)
    have bit : (~~~bitmap.getD i 0).getLsbD (slot % 64) = true := by
      rw [getLsbD_not_word _ _ low, ← split, clear]
      rfl
    have zeros : ∀ k < slot % 64, (~~~bitmap.getD i 0).getLsbD k = false := by
      intro k hk
      rw [getLsbD_not_word _ _ (Nat.lt_trans hk low), before (i * 64 + k) (by omega) (by omega)]
      rfl
    have partly : bitmap.getD i 0 ≠ BitVec.allOnes 64 := by
      intro full
      rw [full, BitVec.not_allOnes] at bit
      simp at bit
    rw [drop_eq_word_cons (by omega), firstClear, ctz64_eq bit zeros, ← split,
      if_pos ⟨partly, below⟩]
  | succ distance ih =>
    intro i ahead before
    have full : bitmap.getD i 0 = BitVec.allOnes 64 := by
      apply BitVec.eq_of_getLsbD_eq
      intro k hk
      have set := before (i * 64 + k) (by omega) (by omega)
      have flipped := getLsbD_not_word bitmap i hk
      rw [set, BitVec.getLsbD_not] at flipped
      rw [BitVec.getLsbD_allOnes]
      simpa [hk] using flipped
    rw [drop_eq_word_cons (by omega), firstClear, if_neg fun found => found.1 full]
    exact ih (by omega) fun j earlier after => before j earlier (by omega)

end A20OS.Lib
