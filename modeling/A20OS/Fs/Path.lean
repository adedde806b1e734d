import A20OS.Errno
import Mathlib.Algebra.Ring.Nat
import Mathlib.Data.List.Basic

/-!
Joining and normalising paths (`kernel/fs/vfs/path.c`).

A string is the list of its characters, a missing working directory is the empty one, and the path
limit, which depends on the board, is a parameter. The join prints into a buffer of the limit and
does not look at the length it needs: a path that is too long loses its end without an error, and
what is normalised is another path.
-/

namespace A20OS.Fs

open List

/-- What `vfs_path_join` prints. -/
def joined (cwd path : List Char) : List Char :=
  let base := if cwd = [] then ['/'] else cwd
  if path.head? = some '/' then path
  else if base = ['/'] then '/' :: path
  else if base.getLast? = some '/' then base ++ path
  else base ++ '/' :: path

def vfsPathJoin (cwd path : List Char) (outsz : Nat) : Except Errno (List Char) :=
  if outsz = 0 then .error .EINVAL else .ok ((joined cwd path).take (outsz - 1))

/-- The components of a path. -/
abbrev Parts := List (List Char)

/-- One token of the loop that collects the parts. -/
def pathStep (parts : Parts) (tok : List Char) : Except Errno Parts :=
  if tok = ['.'] ∨ tok = [] then .ok parts
  else if tok = ['.', '.'] then .ok parts.dropLast
  else if parts.length < 64 then .ok (parts ++ [tok])
  else .error .ENAMETOOLONG

/-- The loop that writes them. -/
def pathOutput (maxPathLen : Nat) (output : List Char) : Parts → Except Errno (List Char)
  | [] => .ok output
  | part :: rest =>
      let sep := if rest = [] then [] else ['/']
      if maxPathLen ≤ output.length + part.length + sep.length then .error .ENAMETOOLONG
      else pathOutput maxPathLen (output ++ part ++ sep) rest

/-- An empty last token ends the first loop; it would be skipped. -/
def vfsPathNormalizeAbsolute (maxPathLen : Nat) (path : List Char) : Except Errno (List Char) :=
  if path.head? ≠ some '/' then .error .EINVAL
  else do
    let input := path.take (maxPathLen - 1)
    let parts ← (input.tail.splitOn '/').foldlM pathStep []
    pathOutput maxPathLen ['/'] parts

/-! ### What a path means -/

/-- The absolute path with these components. -/
def pathOf (parts : Parts) : List Char := '/' :: ['/'].intercalate parts

/-- What a component does to those before it. -/
def foldComponent (parts : Parts) (c : List Char) : Parts :=
  if c = ['.'] ∨ c = [] then parts else if c = ['.', '.'] then parts.dropLast else parts ++ [c]

/-- The lexical folding of components. -/
def foldComponents (cs : Parts) : Parts := cs.foldl foldComponent []

/-- The components of the path, behind those of the directory unless it is absolute. -/
def components (cwd path : List Char) : Parts :=
  if path.head? = some '/' then path.splitOn '/' else cwd.splitOn '/' ++ path.splitOn '/'

variable {parts parts' toks : Parts} {s path out : List Char} {maxPathLen : Nat}

/-- Folding the components never has more than 64 of them at hand. -/
def shallow (toks : Parts) : Prop := ∀ n, (foldComponents (toks.take n)).length ≤ 64

theorem pathStep_eq (fits : parts.length ≤ 64) (tok : List Char) :
    pathStep parts tok =
      if (foldComponent parts tok).length ≤ 64 then .ok (foldComponent parts tok)
      else .error .ENAMETOOLONG := by
  unfold pathStep foldComponent
  repeat' split
  all_goals grind [length_dropLast]

theorem foldlM_pathStep (fits : parts.length ≤ 64) :
    toks.foldlM pathStep parts = .ok parts' ↔ parts' = toks.foldl foldComponent parts ∧
      ∀ n, ((toks.take n).foldl foldComponent parts).length ≤ 64 := by
  induction toks generalizing parts with
  | nil => simp [pure, Except.pure, fits, eq_comm]
  | cons tok toks ih =>
    rw [foldlM_cons, pathStep_eq fits]
    by_cases more : (foldComponent parts tok).length ≤ 64
    · rw [if_pos more]
      refine (ih more).trans (and_congr_right fun _ =>
        ⟨fun depth n => ?_, fun depth n => depth (n + 1)⟩)
      cases n with
      | zero => exact fits
      | succ n => exact depth n
    · rw [if_neg more]
      exact iff_of_false (fun ok => by cases ok) fun ⟨_, depth⟩ => more (depth 1)

theorem pathOutput_ok (ok : pathOutput maxPathLen s parts = .ok out) :
    out = s ++ ['/'].intercalate parts := by
  induction parts generalizing s with
  | nil => cases ok; simp
  | cons part rest ih =>
    obtain ⟨-, ⟨⟩⟩ | ⟨-, ok⟩ := ite_eq_iff.mp ok
    rw [ih ok]
    cases rest <;> simp [intercalate_cons_cons]

theorem pathOutput_short (short : (s ++ ['/'].intercalate parts).length < maxPathLen) :
    ∃ out, pathOutput maxPathLen s parts = .ok out := by
  induction parts generalizing s with
  | nil => exact ⟨s, rfl⟩
  | cons part rest ih =>
    have whole : s ++ ['/'].intercalate (part :: rest) =
        s ++ part ++ (if rest = [] then [] else ['/']) ++ ['/'].intercalate rest := by
      cases rest <;> simp [intercalate_cons_cons]
    rw [whole] at short
    rw [pathOutput, if_neg (by simp only [length_append] at short; omega)]
    exact ih short

/-- The length of a path with these components, the slash before each of them counted. -/
def weight (parts : Parts) : Nat := (parts.map fun part => part.length + 1).sum

theorem weight_intercalate (some : parts ≠ []) :
    (['/'].intercalate parts).length + 1 = weight parts := by
  induction parts with
  | nil => exact absurd rfl some
  | cons part rest ih =>
    cases rest with
    | nil => simp [weight]
    | cons next rest =>
      have := ih (by simp)
      simp only [intercalate_cons_cons, length_append, length_singleton, weight,
        map_cons, sum_cons] at this ⊢
      omega

theorem weight_foldl (toks parts : Parts) :
    weight (toks.foldl foldComponent parts) ≤ weight parts + weight toks := by
  induction toks generalizing parts with
  | nil => exact Nat.le_refl _
  | cons tok toks ih =>
    have one : weight (foldComponent parts tok) ≤ weight parts + (tok.length + 1) := by
      unfold foldComponent
      repeat' split
      · exact Nat.le_add_right _ _
      · rcases parts.eq_nil_or_concat with rfl | ⟨front, last, rfl⟩
        · exact Nat.zero_le _
        · simp [weight]
          omega
      · simp [weight]
    refine Nat.le_trans (ih _) ?_
    simp only [weight, map_cons, sum_cons] at one ⊢
    omega

theorem splitOn_slash (s t : List Char) :
    (s ++ '/' :: t).splitOn '/' = s.splitOn '/' ++ t.splitOn '/' :=
  splitOnP_append_cons s t rfl

theorem foldComponents_nil (front back : Parts) :
    foldComponents (front ++ [] :: back) = foldComponents (front ++ back) := by
  simp [foldComponents, foldComponent]

/-- Folding does not make a path longer. -/
theorem pathOf_length (rest : List Char) :
    (pathOf (foldComponents (rest.splitOn '/'))).length ≤ rest.length + 1 := by
  have weighs := weight_foldl (rest.splitOn '/') []
  rw [← weight_intercalate (splitOn_ne_nil _ _), intercalate_splitOn] at weighs
  by_cases none : foldComponents (rest.splitOn '/') = []
  · simp [none, pathOf]
  · have length := weight_intercalate none
    simp only [pathOf, length_cons, weight, foldComponents, map_nil, sum_nil] at *
    omega

/-- A path below the limit is read and written as a whole, unless it is too deep. -/
theorem normalize_ok (absolute : path.head? = some '/') (short : path.length < maxPathLen) :
    vfsPathNormalizeAbsolute maxPathLen path = .ok out ↔
      out = pathOf (foldComponents (path.splitOn '/')) ∧ shallow (path.splitOn '/') := by
  obtain ⟨rest, rfl⟩ := head?_eq_some_iff.mp absolute
  have split : ('/' :: rest).splitOn '/' = [] :: rest.splitOn '/' := splitOn_slash [] rest
  have shallow_iff : shallow ([] :: rest.splitOn '/') ↔
      ∀ n, (((rest.splitOn '/').take n).foldl foldComponent []).length ≤ 64 := by
    refine ⟨fun depth n => depth (n + 1), fun depth n => ?_⟩
    cases n with
    | zero => exact Nat.zero_le _
    | succ n => exact depth n
  obtain ⟨_, written⟩ := pathOutput_short (s := ['/'])
    (Nat.lt_of_le_of_lt (pathOf_length rest) short)
  cases pathOutput_ok written
  rw [split, shallow_iff, vfsPathNormalizeAbsolute, if_neg (by simp),
    take_of_length_le (by omega)]
  cases fold : (rest.splitOn '/').foldlM pathStep [] with
  | error e =>
    refine iff_of_false (fun ok => by simp only [tail_cons, fold] at ok; cases ok) ?_
    rintro ⟨-, depth⟩
    rw [(foldlM_pathStep (Nat.zero_le _)).mpr ⟨rfl, depth⟩] at fold
    cases fold
  | ok parts =>
    obtain ⟨rfl, depth⟩ := (foldlM_pathStep (Nat.zero_le _)).mp fold
    rw [and_iff_left depth]
    simp only [tail_cons, fold]
    change pathOutput maxPathLen ['/'] (foldComponents _) = _ ↔ _
    rw [written]
    simp [eq_comm, pathOf, foldComponents, foldComponent]

theorem joined_absolute {cwd : List Char} (absolute : cwd.head? = some '/') (path : List Char) :
    (joined cwd path).head? = some '/' := by
  unfold joined
  obtain ⟨rest, rfl⟩ := head?_eq_some_iff.mp absolute
  dsimp only
  repeat' split
  all_goals assumption

theorem foldComponents_joined (cwd path : List Char) :
    foldComponents ((joined cwd path).splitOn '/') = foldComponents (components cwd path) := by
  unfold joined components
  by_cases absolute : path.head? = some '/'
  · rw [if_pos absolute, if_pos absolute]
  rw [if_neg absolute, if_neg absolute]
  by_cases none_ : cwd = []
  · subst none_
    exact congrArg foldComponents (splitOn_slash [] path)
  rw [if_neg none_]
  by_cases top : cwd = ['/']
  · subst top
    exact (congrArg _ (splitOn_slash [] path)).trans (foldComponents_nil [[]] _).symm
  rw [if_neg top]
  split
  · next ends =>
    obtain ⟨front, rfl⟩ := getLast?_eq_some_iff.mp ends
    rw [append_assoc, splitOn_slash front [], append_assoc]
    exact (congrArg _ (splitOn_slash front path)).trans (foldComponents_nil ..).symm
  · rw [splitOn_slash]

/-- **Joining is exact** for an absolute directory below the limit exactly if the folding does
not need the end that the buffer cuts off, or the rest is too deep to be folded: then what the
two functions return together, if anything, is the folding of the directory's components and
the path's. -/
theorem join_normalize_exact (maxPathLen : Nat) (cwd path : List Char)
    (absolute : cwd.head? = some '/') (short : cwd.length < maxPathLen) :
    (∀ out, (vfsPathJoin cwd path maxPathLen).bind (vfsPathNormalizeAbsolute maxPathLen) = .ok out →
        out = pathOf (foldComponents (components cwd path))) ↔
      pathOf (foldComponents (((joined cwd path).take (maxPathLen - 1)).splitOn '/')) =
          pathOf (foldComponents ((joined cwd path).splitOn '/')) ∨
        ¬shallow (((joined cwd path).take (maxPathLen - 1)).splitOn '/') := by
  have nonempty : 0 < cwd.length := by
    cases cwd with
    | nil => cases absolute
    | cons => exact Nat.succ_pos _
  have head : ((joined cwd path).take (maxPathLen - 1)).head? = some '/' := by
    rw [head?_take, if_neg (by omega)]
    exact joined_absolute absolute path
  have fits : ((joined cwd path).take (maxPathLen - 1)).length < maxPathLen := by
    rw [length_take]
    omega
  rw [vfsPathJoin, if_neg (by omega), ← foldComponents_joined]
  change (∀ out, vfsPathNormalizeAbsolute maxPathLen _ = .ok out → _) ↔ _
  simp only [normalize_ok head fits]
  constructor
  · intro exact_
    by_cases deep : shallow (((joined cwd path).take (maxPathLen - 1)).splitOn '/')
    · exact .inl (exact_ _ ⟨rfl, deep⟩)
    · exact .inr deep
  · rintro (same | deep) out ⟨rfl, depth⟩
    · exact same
    · exact absurd depth deep


/-- The end `/.` is cut off, and nothing is lost. -/
theorem join_normalize_exact_dot :
    (vfsPathJoin ['/', 'a', 'a'] ['b', '/', '.'] 6).bind (vfsPathNormalizeAbsolute 6) =
        .ok ['/', 'a', 'a', '/', 'b'] ∧
      ['/', 'a', 'a', '/', 'b'] =
        pathOf (foldComponents (components ['/', 'a', 'a'] ['b', '/', '.'])) :=
  ⟨by decide +kernel, (join_normalize_exact 6 _ _ rfl (by decide)).mpr (.inl (by decide +kernel)) _
    (by decide +kernel)⟩

/-- A directory that fills the buffer of 512 bytes up to the last two. -/
def longDir : List Char := pathOf [replicate 509 'a']

/-- The path is cut off: the result is the directory itself. -/
theorem long_join_cut :
    (vfsPathJoin longDir ['b'] 512).bind (vfsPathNormalizeAbsolute 512) = .ok longDir ∧
      longDir ≠ pathOf (foldComponents (components longDir ['b'])) := by
  decide +kernel

end A20OS.Fs
