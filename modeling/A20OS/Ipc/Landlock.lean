import A20OS.Errno
import A20OS.Lib.Bitmap

/-!
Landlock (`kernel/ipc/landlock.c`).

A ruleset gets its rules one by one and is then made, once, the ruleset of a task; from then on it
takes no more rules. A path is checked against the first rule whose directory covers it. `Allows`
is the law the rules stand for: a right is granted by any rule that covers the path, and only
rights that the ruleset handles are asked for.
-/

namespace A20OS.Ipc.Landlock

open List

/-- A path without the NUL at its end. -/
abbrev Path := List Char

abbrev Access := BitVec 64

/-- `LANDLOCK_ACCESS_FS_ALL` -/
def accessFsAll : Access := 0xffff

/-- `LANDLOCK_MAX_RULES` -/
def maxRules : Nat := 64

/-- `LANDLOCK_RULE_MAX_PREFIX` -/
def ruleMaxPrefixLen : Nat := 256

/-- `LANDLOCK_RULE_PATH_BENEATH` -/
def rulePathBeneath : Nat := 1

/-- `landlock_ruleset_t`: `paths` and `access` up to `nr_rules`, and `restricted`. -/
structure Ruleset where
  rules : List (Path × Access) := []
  restricted : Bool := false
deriving DecidableEq

/-- `landlock_create_ruleset`; nothing keeps the rights it is asked to handle. -/
def createRuleset (handled : Access) (memory : Bool) : Except Errno Ruleset :=
  if handled &&& ~~~accessFsAll ≠ 0 then .error .EINVAL
  else if memory then .ok {} else .error .ENOMEM

/-- The arguments of `landlock_add_rule`, and what it finds: the attributes if they can be copied,
the path of the directory, and whether the vnode there is one. -/
structure AddRule where
  flags : Nat := 0
  ruleType : Nat := rulePathBeneath
  attrUser : Bool := true
  allowedAccess : Option Access
  full : Option Path
  isDir : Option Bool := some true
deriving DecidableEq

/-- `landlock_add_rule` on a ruleset that its descriptor leads to. -/
def addRule (rs : Ruleset) (c : AddRule) : Except Errno Ruleset :=
  if c.flags ≠ 0 ∨ c.ruleType ≠ rulePathBeneath then .error .EINVAL
  else if c.attrUser = false then .error .EFAULT
  else if rs.restricted then .error .EINVAL
  else if maxRules ≤ rs.rules.length then .error .E2BIG
  else match c.allowedAccess, c.full, c.isDir with
    | none, _, _ => .error .EFAULT
    | some access, full, isDir =>
      if access &&& ~~~accessFsAll ≠ 0 then .error .EINVAL
      else match full, isDir with
        | none, _ => .error .EBADF
        | _, none => .error .ENOENT
        | _, some false => .error .ENOTDIR
        | some full, some true =>
          .ok { rs with rules := rs.rules ++ [(full.take (ruleMaxPrefixLen - 1), access)] }

/-- The test of one rule: `strncmp`, and the character behind the directory. -/
def covers (dir path : Path) : Bool :=
  dir.isPrefixOf path &&
    (dir.length == 1 || path[dir.length]? == none || path[dir.length]? == some '/')

/-- `landlock_rules_match` -/
def rulesMatch (path : Path) (needed : Access) : List (Path × Access) → Except Errno Unit
  | [] => .error .EACCES
  | (dir, access) :: rules =>
    if covers dir path then if needed &&& ~~~access ≠ 0 then .error .EACCES else .ok ()
    else rulesMatch path needed rules

/-- `landlock_check_path` for a task with this ruleset. -/
def checkPath (rs : Option Ruleset) (path : Path) (needed : Access) : Except Errno Unit :=
  rs.elim (.ok ()) fun rs => rulesMatch path needed rs.rules

/-- `landlock_restrict_self`: the ruleset as it is then, for a task that had none. -/
def restrictSelf (flags : Nat) (own : Option Nat) (rs : Ruleset) : Except Errno Ruleset :=
  if flags ≠ 0 ∨ rs.restricted ∨ own.isSome then .error .EINVAL
  else .ok { rs with restricted := true }

/-! ### The law -/

/-- The directory is the path or an ancestor of it. -/
def Beneath (dir path : Path) : Prop := dir = path ∨ dir = ['/'] ∨ dir ++ ['/'] <+: path

/-- The rules the calls stand for, with whole paths. -/
def grants (calls : List AddRule) : List (Path × Access) :=
  calls.filterMap fun c => c.full.bind fun full => c.allowedAccess.map fun access => (full, access)

/-- Every requested right that is handled is granted by a rule above the path. -/
def Allows (handled : Access) (rules : List (Path × Access)) (path : Path) (needed : Access) :
    Prop :=
  ∀ i, needed.getLsbD i = true → handled.getLsbD i = true →
    ∃ rule ∈ rules, Beneath rule.1 path ∧ rule.2.getLsbD i = true

/-- The first rule whose directory, as it is stored, is above the path. -/
def FirstAbove (rules : List (Path × Access)) (path : Path) (rule : Path × Access) : Prop :=
  ∃ before after, rules = before ++ rule :: after ∧
    Beneath (rule.1.take (ruleMaxPrefixLen - 1)) path ∧
    ∀ other ∈ before, ¬Beneath (other.1.take (ruleMaxPrefixLen - 1)) path

section Law

variable {path dir : Path} {needed access : Access} {rules : List (Path × Access)}

theorem covers_iff (rooted : path.head? = some '/') (absolute : dir.head? = some '/') :
    covers dir path = true ↔ Beneath dir path := by
  simp only [covers, Bool.and_eq_true, Bool.or_eq_true, isPrefixOf_iff_prefix, beq_iff_eq]
  constructor
  · rintro ⟨⟨rest, rfl⟩, (one | behind) | behind⟩
    · obtain ⟨c, rfl⟩ := length_eq_one_iff.mp one
      exact .inr (.inl (by simpa using absolute))
    · exact .inl (by simpa using behind)
    · cases rest with
      | nil => simp at behind
      | cons c rest => exact .inr (.inr ⟨rest, by simp_all⟩)
  · rintro (rfl | rfl | ⟨rest, rfl⟩)
    · simp
    · cases path with
      | nil => cases rooted
      | cons c path => simp_all
    · simp

theorem firstAbove_cons {head rule : Path × Access} : FirstAbove (head :: rules) path rule ↔
    Beneath (head.1.take (ruleMaxPrefixLen - 1)) path ∧ rule = head ∨
      ¬Beneath (head.1.take (ruleMaxPrefixLen - 1)) path ∧ FirstAbove rules path rule := by
  constructor
  · rintro ⟨_ | ⟨_, before⟩, after, split, above, none⟩
    · cases split
      exact .inl ⟨above, rfl⟩
    · cases split
      exact .inr ⟨none _ (.head _), before, after, rfl, above, fun other member =>
        none other (.tail _ member)⟩
  · rintro (⟨above, rfl⟩ | ⟨off, before, after, rfl, above, none⟩)
    · exact ⟨[], rules, rfl, above, nofun⟩
    · exact ⟨head :: before, after, rfl, above, forall_mem_cons.mpr ⟨off, none⟩⟩

/-- A rule as `landlock_add_rule` stores it. -/
def stored (rule : Path × Access) : Path × Access := (rule.1.take (ruleMaxPrefixLen - 1), rule.2)

/-- The first rule that covers the path decides. -/
theorem rulesMatch_iff (rooted : path.head? = some '/')
    (absolute : ∀ rule ∈ rules, rule.1.head? = some '/') :
    rulesMatch path needed (rules.map stored) = .ok () ↔
      ∃ rule, FirstAbove rules path rule ∧ needed &&& ~~~rule.2 = 0 := by
  induction rules with
  | nil => simp [rulesMatch, FirstAbove]
  | cons rule rules ih =>
    have head : (rule.1.take (ruleMaxPrefixLen - 1)).head? = some '/' := by
      rw [head?_take, if_neg (by decide)]
      exact absolute rule (.head _)
    have here := covers_iff rooted head
    rw [map_cons, stored, rulesMatch]
    by_cases above : Beneath (rule.1.take (ruleMaxPrefixLen - 1)) path
    · rw [if_pos (here.mpr above), ite_not]
      simp only [firstAbove_cons, above, not_true_eq_false, true_and, false_and, or_false,
        exists_eq_left]
      split <;> simp_all
    · rw [if_neg (mt here.mp above), ih fun other member => absolute other (.tail _ member)]
      simp only [firstAbove_cons, above, not_false_eq_true, true_and, false_and, false_or]

variable {rs rs' : Ruleset}

theorem addRule_ok {c : AddRule} (added : addRule rs c = .ok rs') :
    rs.restricted = false ∧ ∃ full access, c.full = some full ∧ c.allowedAccess = some access ∧
      rs' = { rs with rules := rs.rules ++ [(full.take (ruleMaxPrefixLen - 1), access)] } := by
  unfold addRule at added
  repeat' split at added
  all_goals cases added
  exact ⟨by simpa using ‹¬ rs.restricted = true›, _, _, ‹c.full = _›, ‹c.allowedAccess = _›, rfl⟩

theorem restrictSelf_ok {flags : Nat} {own : Option Nat}
    (made : restrictSelf flags own rs = .ok rs') :
    own = none ∧ rs.restricted = false ∧ rs'.restricted = true ∧ rs'.rules = rs.rules := by
  unfold restrictSelf at made
  split at made
  · cases made
  · cases made
    simp_all

/-- The rules after a sequence of calls that all succeed. -/
theorem foldlM_addRule {calls : List AddRule} (added : calls.foldlM addRule rs = .ok rs') :
    rs'.rules = rs.rules ++ (grants calls).map stored := by
  induction calls generalizing rs with
  | nil =>
    cases added
    simp [grants]
  | cons c calls ih =>
    rw [foldlM_cons] at added
    cases first : addRule rs c with
    | error e =>
      rw [first] at added
      cases added
    | ok rs₁ =>
      rw [first] at added
      obtain ⟨-, full, access, path, rights, rfl⟩ := addRule_ok first
      have split : grants (c :: calls) = (full, access) :: grants calls := by
        simp [grants, path, rights]
      rw [split, ih added]
      simp [stored]

/-- The first rule above the path grants what is asked for, and its directory is whole. -/
theorem FirstAbove.allows {handled : Access} {rule : Path × Access}
    (first : FirstAbove rules path rule) (whole : rule.1.length < ruleMaxPrefixLen)
    (all : needed &&& ~~~rule.2 = 0) : Allows handled rules path needed := by
  obtain ⟨before, after, rfl, above, -⟩ := first
  rw [take_of_length_le (Nat.le_sub_one_of_lt whole)] at above
  intro i asked _
  exact ⟨rule, by simp, above, Lib.and_not_eq_zero_iff.mp all i asked⟩

end Law

/-- **The decision law.** The check agrees with it exactly if the first rule above the path grants
what is requested wherever the rules together grant what is handled, and if it does so, was not
cut to a directory above the path where the rules together do not. -/
theorem landlock_decision {handled needed : Access} {memory : Bool} {created rs enforced : Ruleset}
    {calls : List AddRule} {flags : Nat} {own : Option Nat} {path : Path}
    (make : createRuleset handled memory = .ok created)
    (added : calls.foldlM addRule created = .ok rs)
    (restricted : restrictSelf flags own rs = .ok enforced)
    (rooted : path.head? = some '/') (absolute : ∀ rule ∈ grants calls, rule.1.head? = some '/') :
    (checkPath (some enforced) path needed = .ok () ↔ Allows handled (grants calls) path needed) ↔
      (Allows handled (grants calls) path needed →
        ∃ rule, FirstAbove (grants calls) path rule ∧ needed &&& ~~~rule.2 = 0) ∧
      ∀ rule, FirstAbove (grants calls) path rule → needed &&& ~~~rule.2 = 0 →
        rule.1.length < ruleMaxPrefixLen ∨ Allows handled (grants calls) path needed := by
  have fresh : created.rules = [] := by
    unfold createRuleset at make
    repeat' split at make
    all_goals cases make
    rfl
  have kept : enforced.rules = (grants calls).map stored := by
    rw [(restrictSelf_ok restricted).2.2.2, foldlM_addRule added, fresh, nil_append]
  rw [checkPath, Option.elim_some, kept, rulesMatch_iff rooted absolute]
  constructor
  · intro agree
    exact ⟨agree.mpr, fun rule first all => .inr (agree.mp ⟨rule, first, all⟩)⟩
  · rintro ⟨decides, uncut⟩
    refine ⟨?_, decides⟩
    rintro ⟨rule, first, all⟩
    rcases uncut rule first all with whole | allows
    · exact first.allows whole all
    · exact allows

/-- The rule for the root grants more than the one below it. -/
theorem landlock_decision_nested :
    checkPath (some ⟨[(['/'], 6), ("/a".toList, 2)], true⟩) "/a/b".toList 4 = .ok () ↔
      Allows 6 (grants [⟨0, 1, true, some 6, some ['/'], some true⟩,
        ⟨0, 1, true, some 2, some "/a".toList, some true⟩]) "/a/b".toList 4 := by
  have first : FirstAbove [(['/'], 6), ("/a".toList, 2)] "/a/b".toList (['/'], (6 : Access)) :=
    ⟨[], [("/a".toList, 2)], rfl, .inr (.inl rfl), nofun⟩
  refine (@landlock_decision 6 4 true {}
    ⟨[(['/'], 6), ("/a".toList, 2)], false⟩ _ _ 0 none _ rfl rfl
    rfl rfl (by decide)).mpr ⟨fun _ => ⟨_, first, by decide⟩, fun rule above _ => .inl ?_⟩
  have whole : ∀ rule ∈ grants [⟨0, 1, true, some 6, some ['/'], some true⟩,
      ⟨0, 1, true, some 2, some "/a".toList, some true⟩], rule.1.length < ruleMaxPrefixLen := by
    decide
  obtain ⟨before, after, split, -⟩ := above
  exact whole rule (split ▸ mem_append_right _ (.head _))

/-- A rule for the root that does not grant a right hides the rule below it that does. -/
theorem landlock_decision_two_rules :
    let calls : List AddRule := [⟨0, 1, true, some 4, some ['/'], some true⟩,
      ⟨0, 1, true, some 2, some "/a".toList, some true⟩]
    (createRuleset 6 true).bind (fun rs => calls.foldlM addRule rs) =
        .ok ⟨[(['/'], 4), ("/a".toList, 2)], false⟩ ∧
      checkPath (some ⟨[(['/'], 4), ("/a".toList, 2)], true⟩) "/a/b".toList 2 = .error .EACCES ∧
      Allows 6 (grants calls) "/a/b".toList 2 := by
  refine ⟨rfl, rfl, fun i asked _ => ⟨("/a".toList, 2), by decide, ?_, asked⟩⟩
  exact .inr (.inr ⟨['b'], rfl⟩)

end A20OS.Ipc.Landlock
