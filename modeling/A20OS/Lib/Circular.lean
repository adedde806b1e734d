import Mathlib.Data.List.Rotate

/-!
Block transfers in circular buffers.

The contents of a circular buffer are the first cells of the list turned so that the start
comes first (`contents`). A block is copied in or out in at most two pieces (`copyIn`,
`copyOut`): taking one out removes it from the front (`contents_advance`), putting one in
appends it (`contents_copyIn`), and reading cell by cell gives the contents too (`gather_eq`).
-/

namespace A20OS.Lib

open List

universe u

variable {α : Type u} {n start used : Nat} {cells src : List α}

/-- Overwrite the cells from `off` on. -/
def blit (cells : List α) (off : Nat) (src : List α) : List α :=
  cells.take off ++ src ++ cells.drop (off + src.length)

theorem length_blit {off : Nat} (fits : off + src.length ≤ cells.length) :
    (blit cells off src).length = cells.length := by
  simp only [blit, length_append, length_take, length_drop]
  omega

/-- The occupied cells of a circular buffer, in order. -/
def contents (cells : List α) (start used : Nat) : List α := (cells.rotate start).take used

/-- How many of `n` cells from `start` on lie before the end of the buffer. -/
def firstPart (cap start n : Nat) : Nat := if cap - start > n then n else cap - start

/-- Copy `n` cells out, from `start` to the end of the buffer and on from its beginning. -/
def copyOut (cells : List α) (cap start n : Nat) : List α :=
  (cells.drop start).take (firstPart cap start n) ++ cells.take (n - firstPart cap start n)

/-- Copy a block in, from `start` to the end of the buffer and on from its beginning. -/
def copyIn (cells : List α) (cap start : Nat) (src : List α) : List α :=
  blit (blit cells start (src.take (firstPart cap start src.length))) 0
    (src.drop (firstPart cap start src.length))

/-- Copy the cells `start`, `start + 1`, …, modulo the capacity, to the front of a new buffer. -/
def gather (fresh cells : List α) (cap start n : Nat) : List α :=
  (List.range n).foldl (fun d i => (cells[(start + i) % cap]?).elim d (d.set i)) fresh

/-! ### Contents -/

theorem length_contents (fits : used ≤ cells.length) :
    (contents cells start used).length = used := by
  rw [contents, length_take, length_rotate, Nat.min_eq_left fits]

theorem copyOut_eq (inside : start ≤ cells.length)
    (fits : n ≤ cells.length) : copyOut cells cells.length start n = contents cells start n := by
  rw [contents, rotate_eq_drop_append_take inside, take_append, take_take,
    length_drop, copyOut, firstPart]
  by_cases whole : cells.length - start > n
  · rw [if_pos whole, Nat.sub_self, show n - (cells.length - start) = 0 by omega]
    simp
  · rw [if_neg whole, Nat.min_eq_left (by omega)]
    congr 1
    rw [take_of_length_le (by simp), take_of_length_le (by simp; omega)]

theorem contents_take (le : n ≤ used) :
    contents cells start n = (contents cells start used).take n := by
  rw [contents, contents, take_take, Nat.min_eq_left le]

/-- Moving the start over the first cells drops them from the contents. -/
theorem contents_advance (le : n ≤ used) (fits : used ≤ cells.length) :
    contents cells ((start + n) % cells.length) (used - n) =
      (contents cells start used).drop n := by
  have turned : cells.rotate ((start + n) % cells.length) = (cells.rotate start).rotate n := by
    rw [rotate_mod, rotate_rotate]
  rw [contents, contents, turned,
    rotate_eq_drop_append_take (by rw [length_rotate]; omega), drop_take,
    take_append_of_le_length (by rw [length_drop, length_rotate]; omega)]

/-! ### Putting a block in -/

@[simp] theorem blit_nil (cells : List α) (off : Nat) : blit cells off [] = cells := by
  simp [blit]

/-- A block that ends before the buffer does is copied in one piece. -/
theorem copyIn_whole (whole : start + src.length < cells.length) :
    copyIn cells cells.length start src = blit cells start src := by
  rw [copyIn, firstPart, if_pos (by omega), take_length, drop_length, blit_nil]

/-- A block that reaches the end of the buffer goes on at its beginning. -/
theorem copyIn_wraps {a b : List α} (reaches : start + a.length = cells.length)
    (short : b.length ≤ start) :
    copyIn cells cells.length start (a ++ b) = b ++ (cells.take start).drop b.length ++ a := by
  have part : firstPart cells.length start (a ++ b).length = a.length := by
    rw [firstPart, length_append]
    split <;> omega
  have ends : cells.drop (start + a.length) = [] := drop_of_length_le (by omega)
  rw [copyIn, part, take_left, drop_left, blit, blit, ends, append_nil,
    Nat.zero_add, take_zero, nil_append,
    drop_append_of_le_length (by rw [length_take]; omega), append_assoc]

/-- A block either ends before the buffer does or is cut there in two. -/
theorem copyIn_cases (inside : start ≤ cells.length) (fits : src.length ≤ cells.length) :
    start + src.length < cells.length ∨
      ∃ a b, src = a ++ b ∧ start + a.length = cells.length ∧ b.length ≤ start := by
  by_cases whole : start + src.length < cells.length
  · exact .inl whole
  refine .inr ⟨src.take (cells.length - start), src.drop (cells.length - start),
    (take_append_drop _ _).symm, ?_, ?_⟩
  · rw [length_take_of_le (by omega)]
    omega
  · rw [length_drop]
    omega

theorem length_copyIn (inside : start ≤ cells.length) (fits : src.length ≤ cells.length) :
    (copyIn cells cells.length start src).length = cells.length := by
  rcases copyIn_cases inside fits with whole | ⟨a, b, rfl, reaches, short⟩
  · rw [copyIn_whole whole, length_blit whole.le]
  · rw [copyIn_wraps reaches short]
    simp only [length_append, length_drop, length_take]
    omega

theorem rotate_append {l l' : List α} (len : l.length = n) : (l ++ l').rotate n = l' ++ l := by
  rw [← len, rotate_append_length_eq]

/-- Seen from its own start, a block that was copied in replaces the cells it covers. -/
theorem rotate_copyIn (inside : start ≤ cells.length) (fits : src.length ≤ cells.length) :
    (copyIn cells cells.length start src).rotate start =
      src ++ (cells.rotate start).drop src.length := by
  rw [rotate_eq_drop_append_take inside]
  have startLen : (cells.take start).length = start := length_take_of_le inside
  rcases copyIn_cases inside fits with whole | ⟨a, b, rfl, reaches, short⟩
  · rw [copyIn_whole whole, blit, append_assoc]
    rw [rotate_append startLen, drop_append_of_le_length (by rw [length_drop]; omega), drop_drop,
      append_assoc]
  rw [copyIn_wraps reaches short]
  have len : (b ++ (cells.take start).drop b.length).length = start := by
    rw [length_append, length_drop, startLen]
    omega
  have gone : (cells.drop start).length = a.length := by
    rw [length_drop]
    omega
  rw [rotate_append len, length_append, ← gone, drop_append,
    drop_of_length_le (Nat.le_add_right _ _), Nat.add_sub_cancel_left, nil_append,
    append_assoc]

/-- A block that fits behind the contents is appended to them. -/
theorem contents_copyIn (pos : 0 < cells.length) (fits : used + src.length ≤ cells.length) :
    contents (copyIn cells cells.length ((start + used) % cells.length) src) start
      (used + src.length) = contents cells start used ++ src := by
  have inside : (start + used) % cells.length ≤ cells.length := (Nat.mod_lt _ pos).le
  have short : src.length ≤ cells.length := by omega
  -- Seen from the place behind the contents, the contents are the last cells.
  have seen := rotate_copyIn inside short
  have length := length_copyIn inside short
  generalize copyIn cells cells.length ((start + used) % cells.length) src = after at seen length
  rw [← length, rotate_mod, length, rotate_mod, ← rotate_rotate,
    ← rotate_rotate, rotate_eq_drop_append_take (n := used) (l := cells.rotate start)
      (by rw [length_rotate]; omega)] at seen
  have turned : (contents cells start used ++ (src ++ (cells.rotate start).drop
      (used + src.length))).rotate used = (after.rotate start).rotate used := by
    rw [seen, rotate_append (length_contents (by omega)),
      drop_append_of_le_length (by rw [length_drop, length_rotate]; omega),
      drop_drop, append_assoc]
    rfl
  rw [contents, ← rotate_injective used turned, ← append_assoc,
    take_append_of_le_length, take_of_length_le] <;>
    rw [length_append, length_contents (by omega)]

/-! ### Copying into a new buffer -/

/-- The new buffer starts with the contents of the old one. -/
theorem gather_eq {fresh : List α} (fits : n ≤ cells.length) (room : n ≤ fresh.length) :
    gather fresh cells cells.length start n = contents cells start n ++ fresh.drop n := by
  unfold gather
  induction n with
  | zero => simp [contents]
  | succ n ih =>
    rw [range_succ, foldl_append, ih (by omega) (by omega)]
    have below : n < (cells.rotate start).length := by
      rw [length_rotate]
      omega
    have cell : cells[(start + n) % cells.length]? = some (cells.rotate start)[n] := by
      rw [← getElem?_eq_getElem below, getElem?_rotate (by omega), Nat.add_comm]
    have len : (contents cells start n).length = n := length_contents (by omega)
    have next :
        contents cells start (n + 1) = contents cells start n ++ [(cells.rotate start)[n]] :=
      take_succ_eq_append_getElem below
    simp only [foldl_cons, foldl_nil, cell, Option.elim_some]
    rw [set_append_right _ _ (by omega), len, Nat.sub_self, next,
      drop_eq_getElem_cons (show n < fresh.length by omega), set_cons_zero,
      append_assoc, singleton_append]

end A20OS.Lib
