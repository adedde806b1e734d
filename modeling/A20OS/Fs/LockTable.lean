import A20OS.Fs.Locks
import A20OS.Lib.Machine

/-!
What the lock table means.

`Holds` says which owner holds which type on which byte under which key. A granted request
changes it as an assignment to the range would (`fsLocksApply_spec`), and no two owners hold
conflicting types on a byte under one key in a reachable state (`Sound`).

Keys stand for files only as long as they tell files apart and one file has one key: an open
file whose node has inode number 0 is keyed by its own address.
-/

namespace A20OS.Fs

open Lib List

variable {l : FileLock} {vf : LockFile} {type : FlockType} {start stop : Int} {table : LockTable}
  {key : Nat} {owner : Owner} {locks : List FileLock} {chosen : FileLock → Bool} {x : Int}
  {files : LockFile → Prop} {s s' : LockSys} {owner' : Owner} {table' : LockTable}

/-- The owner holds type `t` on byte `x` under the key. -/
def LockTable.Holds (table : LockTable) (key : Nat) (owner : Owner) (t : FlockType) (x : Int) :
    Prop :=
  Marks (rangesOf table.locks key owner) t x

instance (table : LockTable) (key : Nat) (owner : Owner) (t : FlockType) (x : Int) :
    Decidable (table.Holds key owner t x) := by
  unfold LockTable.Holds
  infer_instance

/-! ### The passes over the table -/

theorem isOwn_iff : l.isOwn key owner = true ↔ l.used = true ∧ l.key = key ∧ l.owner = owner := by
  simp [FileLock.isOwn, and_assoc]

theorem isOwn_unused (unused : l.used = false) (key : Nat) (owner : Owner) :
    l.isOwn key owner = false := by
  simp [FileLock.isOwn, unused]

theorem rangesOf_cons_own (own : l.isOwn key owner = true) :
    rangesOf (l :: locks) key owner = l.range :: rangesOf locks key owner := by
  simp [rangesOf, own]

theorem rangesOf_cons_foreign (foreign : l.isOwn key owner = false) :
    rangesOf (l :: locks) key owner = rangesOf locks key owner := by
  simp [rangesOf, foreign]

theorem dropLocks_cons_pos (dropped : chosen l = true) :
    dropLocks chosen (l :: locks) = { l with used := false } :: dropLocks chosen locks := by
  simp [dropLocks, dropped]

theorem dropLocks_cons_neg (kept : chosen l = false) :
    dropLocks chosen (l :: locks) = l :: dropLocks chosen locks := by
  simp [dropLocks, kept]

/-- The ranges that are left are those whose entries are not dropped. -/
theorem rangesOf_dropLocks :
    rangesOf (dropLocks chosen locks) key owner =
      ((locks.filter (FileLock.isOwn key owner)).filter (!chosen ·)).map FileLock.range := by
  induction locks with
  | nil => rfl
  | cons l locks ih =>
    cases dropped : chosen l with
    | true =>
      rw [dropLocks_cons_pos dropped, rangesOf_cons_foreign (isOwn_unused rfl _ _), ih]
      cases own : l.isOwn key owner <;> simp [own, dropped]
    | false =>
      rw [dropLocks_cons_neg dropped]
      cases own : l.isOwn key owner with
      | true => simp [rangesOf_cons_own, own, dropped, ih]
      | false => simp [rangesOf_cons_foreign, own, ih]

/-- Dropping entries keeps the ranges none of whose entries are dropped. -/
theorem rangesOf_dropLocks_kept (kept : ∀ l, l.isOwn key owner = true → chosen l = false) :
    rangesOf (dropLocks chosen locks) key owner = rangesOf locks key owner := by
  rw [rangesOf_dropLocks, filter_eq_self.mpr, rangesOf]
  intro l member
  rw [kept l (mem_filter.mp member).2, Bool.not_false]

variable (key owner locks chosen) in
theorem rangesOf_dropLocks_sublist :
    (rangesOf (dropLocks chosen locks) key owner).Sublist (rangesOf locks key owner) := by
  rw [rangesOf_dropLocks]
  exact filter_sublist.map _

theorem rangesOf_dropLocks_own :
    rangesOf (dropLocks (FileLock.isOwn key owner) locks) key owner = [] := by
  rw [rangesOf_dropLocks, filter_eq_nil_iff.mpr, map_nil]
  intro l member
  rw [(mem_filter.mp member).2]
  decide

variable (key owner locks) in
theorem countP_used_dropLocks :
    (dropLocks (FileLock.isOwn key owner) locks).countP (·.used) +
      locks.countP (FileLock.isOwn key owner) =
      locks.countP (·.used) := by
  induction locks with
  | nil => rfl
  | cons l locks ih =>
    cases own : l.isOwn key owner with
    | true =>
      have used := (isOwn_iff.mp own).1
      simp only [dropLocks_cons_pos own, countP_cons, own, used, if_true,
        Bool.false_eq_true, if_false]
      omega
    | false =>
      simp only [dropLocks_cons_neg own, countP_cons, own, Bool.false_eq_true, if_false]
      omega

/-- With enough unused entries the write-back stores exactly the given ranges. -/
theorem rangesOf_writeBack {ranges : List (Span FlockType)}
    (none_before : rangesOf locks key owner = [])
    (room : locks.countP (·.used) + ranges.length ≤ locks.length) :
    rangesOf (writeBack key owner locks ranges) key owner = ranges := by
  induction locks generalizing ranges with
  | nil =>
    cases ranges with
    | nil => rfl
    | cons r ranges => simp at room
  | cons l locks ih =>
    cases ranges with
    | nil => exact none_before
    | cons r ranges =>
      have foreign : l.isOwn key owner = false := by
        by_contra own
        rw [rangesOf_cons_own (by simpa using own)] at none_before
        cases none_before
      rw [rangesOf_cons_foreign foreign] at none_before
      simp only [countP_cons, length_cons] at room
      cases used : l.used with
      | true =>
        simp only [used, if_true] at room
        rw [writeBack, if_pos used, rangesOf_cons_foreign foreign]
        apply ih none_before
        rw [length_cons]
        omega
      | false =>
        rw [writeBack, if_neg (by simp [used]), rangesOf_cons_own (by simp [FileLock.isOwn]),
          ih none_before (by omega)]
        rfl

theorem rangesOf_writeBack_other {key' : Nat}
    (other : key' ≠ key ∨ owner' ≠ owner) (ranges : List (Span FlockType)) :
    rangesOf (writeBack key owner locks ranges) key' owner' = rangesOf locks key' owner' := by
  fun_induction writeBack key owner locks ranges with
  | case1 | case2 => rfl
  | case3 l locks r ranges used ih =>
    cases own : l.isOwn key' owner' with
    | true => rw [rangesOf_cons_own own, rangesOf_cons_own own, ih]
    | false => rw [rangesOf_cons_foreign own, rangesOf_cons_foreign own, ih]
  | case4 l locks r ranges unused ih =>
    have idle : l.isOwn key' owner' = false := isOwn_unused (by simpa using unused) _ _
    rw [rangesOf_cons_foreign idle, ← ih]
    apply rangesOf_cons_foreign
    rcases other with apart | apart <;> simp [FileLock.isOwn, Ne.symm apart]

/-! ### A granted request -/

section Apply

variable {table' : LockTable} (granted : fsLocksApply table key owner type start stop = .ok table')
include granted

/-- A granted request leaves the owner's joined new ranges and every other entry. -/
theorem fsLocksApply_ranges :
    rangesOf table'.locks key owner =
        coalesce (sortSpans (newRanges table.locks key owner type start stop)) ∧
      ∀ key' owner', key' ≠ key ∨ owner' ≠ owner →
        rangesOf table'.locks key' owner' = rangesOf table.locks key' owner' := by
  unfold fsLocksApply at granted
  dsimp only at granted
  split at granted
  · cases granted
  · next fits =>
    cases granted
    have withdrawn := countP_used_dropLocks key owner table.locks
    have size := table.size
    refine ⟨rangesOf_writeBack rangesOf_dropLocks_own ?_, ?_⟩
    · rw [length_dropLocks]
      omega
    · intro key' owner' other
      rw [rangesOf_writeBack_other other]
      apply rangesOf_dropLocks_kept
      intro l own
      obtain ⟨-, rfl, rfl⟩ := isOwn_iff.mp own
      rcases other with apart | apart <;> simp [FileLock.isOwn, apart]

omit granted in
theorem marks_newRanges {t : FlockType} :
    Marks (newRanges locks key owner type start stop) t x ↔
      if start ≤ x ∧ x ≤ stop then t = type ∧ type ≠ .unlck
      else Marks (rangesOf locks key owner) t x := by
  rw [newRanges, marks_append, marks_flatMap_cut]
  by_cases inside : start ≤ x ∧ x ≤ stop
  · by_cases unlock : type = .unlck
    · simp [unlock, inside]
    · simp [unlock, inside, eq_comm]
  · rw [if_neg inside]
    by_cases unlock : type = .unlck
    · simp [unlock, inside]
    · simp only [inside, not_false_iff, and_true, ne_eq, unlock, if_true, marks_cons, marks_nil,
        or_false, and_false]

/-- A granted request is an assignment to the bytes of the range. -/
theorem fsLocksApply_spec (t : FlockType) (x : Int) :
    table'.Holds key owner t x ↔
      if start ≤ x ∧ x ≤ stop then t = type ∧ type ≠ .unlck else table.Holds key owner t x := by
  rw [LockTable.Holds, (fsLocksApply_ranges granted).1, marks_coalesce (sortSpans_sorted _),
    marks_of_perm (sortSpans_perm _), marks_newRanges, LockTable.Holds]

theorem fsLocksApply_other {key' : Nat} (other : key' ≠ key ∨ owner' ≠ owner) (t : FlockType)
    (x : Int) : table'.Holds key' owner' t x ↔ table.Holds key' owner' t x := by
  rw [LockTable.Holds, (fsLocksApply_ranges granted).2 key' owner' other, LockTable.Holds]

omit granted in
theorem spread_newRanges (order : start ≤ stop) (h : Spread (rangesOf locks key owner)) :
    Spread (newRanges locks key owner type start stop) := by
  unfold newRanges
  split
  · exact h.fill order type
  · simpa using h.cut order

/-- The owner's ranges stay disjoint. -/
theorem fsLocksApply_spread (order : start ≤ stop) (h : Spread (rangesOf table.locks key owner)) :
    Spread (rangesOf table'.locks key owner) := by
  rw [(fsLocksApply_ranges granted).1]
  exact (spread_newRanges order h).coalesce

end Apply

/-! ### Attempts -/

section Try

variable {wait : Bool} {progress : Progress}

/-- An attempt either leaves the table alone and returns an error or sleeps, or finds no
conflict and applies the request. -/
theorem fsLocksTry_cases (table : LockTable) (key : Nat) (owner : Owner) (type : FlockType)
    (start stop : Int) (wait : Bool) (progress : Progress) :
    (∃ outcome, fsLocksTry table key owner type start stop wait progress = (table, outcome) ∧
      outcome ≠ .returned (.ok ())) ∨
    ∃ table', fsLocksTry table key owner type start stop wait progress =
        (table', .returned (.ok ())) ∧
      fsLocksApply table key owner type start stop = .ok table' ∧
      (type ≠ .unlck → ∀ l ∈ table.locks, fsLockConflicts l key owner type start stop = false) := by
  rw [fsLocksTry]
  split
  · exact .inl ⟨_, rfl, by simp⟩
  dsimp only
  split
  · next held found =>
    left
    split
    · exact ⟨_, rfl, by simp⟩
    · split <;> exact ⟨_, rfl, by simp⟩
  · next found =>
    split
    · exact .inl ⟨_, rfl, by simp⟩
    · next table' granted =>
      refine .inr ⟨table', rfl, granted, ?_⟩
      intro locking l member
      rw [if_pos locking, find?_eq_none] at found
      simpa using found l member

/-- The table after an attempt that does not return 0. -/
theorem fsLocksTry_unchanged
    (failed : (fsLocksTry table key owner type start stop wait progress).2 ≠ .returned (.ok ())) :
    (fsLocksTry table key owner type start stop wait progress).1 = table := by
  rcases fsLocksTry_cases table key owner type start stop wait progress with
    ⟨outcome, same, -⟩ | ⟨table', done, -⟩
  · rw [same]
  · rw [done] at failed
    exact absurd rfl failed

/-- Another owner's entry that does not conflict with a request for byte `x` is a read lock
and so is the request, if it covers the byte. -/
theorem compatible_of_not_conflicts {held : FileLock}
    (own : held.isOwn key owner' = true) (other : owner' ≠ owner)
    (covers : held.start ≤ x ∧ x ≤ held.stop) (inside : start ≤ x ∧ x ≤ stop)
    (free : fsLockConflicts held key owner type start stop = false) :
    held.type = .rdlck ∧ type = .rdlck := by
  obtain ⟨used, rfl, rfl⟩ := isOwn_iff.mp own
  have meet : held.start ≤ stop ∧ start ≤ held.stop := by omega
  simpa [fsLockConflicts, fsLockOverlaps, used, other, meet.1, meet.2] using free

end Try

/-! ### Reachable tables -/

/-- No two owners hold conflicting types on a byte under one key, and the ranges of each
owner are disjoint. -/
structure LockTable.Sound (table : LockTable) : Prop where
  compatible : ∀ key owner owner' t t' x, owner ≠ owner' → table.Holds key owner t x →
    table.Holds key owner' t' x → t = .rdlck ∧ t' = .rdlck
  spread : ∀ key owner, Spread (rangesOf table.locks key owner)

theorem LockTable.sound_init : LockTable.init.Sound := by
  have empty : ∀ key owner, rangesOf LockTable.init.locks key owner = [] := by
    intro key owner
    simp [LockTable.init, rangesOf, FileLock.isOwn, FileLock.empty]
  constructor
  · intro key owner owner' t t' x _ held
    exact absurd held marks_nil
  · intro key owner
    exact spread_nil

theorem LockTable.Sound.drop (h : table.Sound) (chosen : FileLock → Bool) :
    (table.drop chosen).Sound := by
  have shrinks : ∀ {key owner t x}, (table.drop chosen).Holds key owner t x →
      table.Holds key owner t x := by
    rintro key owner t x ⟨s, member, marks⟩
    exact ⟨s, (rangesOf_dropLocks_sublist key owner table.locks chosen).subset member, marks⟩
  constructor
  · intro key owner owner' t t' x apart held held'
    exact h.compatible key owner owner' t t' x apart (shrinks held) (shrinks held')
  · intro key owner
    have fewer := rangesOf_dropLocks_sublist key owner table.locks chosen
    exact ⟨fun s member => (h.spread key owner).inhabited s (fewer.subset member),
      (h.spread key owner).apart.sublist fewer⟩

theorem LockTable.Sound.apply (h : table.Sound) (order : start ≤ stop)
    (granted : fsLocksApply table key owner type start stop = .ok table')
    (free : type ≠ .unlck → ∀ l ∈ table.locks,
      fsLockConflicts l key owner type start stop = false) : table'.Sound := by
  -- what another owner holds at a byte where the request now holds something
  have fresh : ∀ {owner' t t' x}, owner' ≠ owner → table'.Holds key owner t x →
      table.Holds key owner' t' x → t = .rdlck ∧ t' = .rdlck := by
    intro owner' t t' x apart held held'
    rw [fsLocksApply_spec granted] at held
    split at held
    · next inside =>
      obtain ⟨rfl, locking⟩ := held
      obtain ⟨s, member, rfl, covers⟩ := held'
      obtain ⟨l, listed, rfl⟩ := mem_map.mp member
      obtain ⟨listed, own⟩ := mem_filter.mp listed
      exact (compatible_of_not_conflicts own apart covers inside (free locking l listed)).symm
    · exact h.compatible key owner owner' t t' x apart.symm held held'
  constructor
  · intro key₀ owner₁ owner₂ t₁ t₂ x apart held₁ held₂
    by_cases here : key₀ = key
    · subst here
      by_cases first : owner₁ = owner
      · subst first
        rw [fsLocksApply_other granted (.inr apart.symm)] at held₂
        exact fresh apart.symm held₁ held₂
      rw [fsLocksApply_other granted (.inr first)] at held₁
      by_cases second : owner₂ = owner
      · subst second
        exact (fresh apart held₂ held₁).symm
      · rw [fsLocksApply_other granted (.inr second)] at held₂
        exact h.compatible key₀ owner₁ owner₂ t₁ t₂ x apart held₁ held₂
    · rw [fsLocksApply_other granted (.inl here)] at held₁ held₂
      exact h.compatible key₀ owner₁ owner₂ t₁ t₂ x apart held₁ held₂
  · intro key' owner'
    by_cases same : key' = key ∧ owner' = owner
    · rw [same.1, same.2]
      exact fsLocksApply_spread granted order (h.spread key owner)
    · have other : key' ≠ key ∨ owner' ≠ owner := by tauto
      rw [(fsLocksApply_ranges granted).2 key' owner' other]
      exact h.spread key' owner'

theorem LockTable.Sound.attempt (h : table.Sound) (order : start ≤ stop) (wait : Bool)
    (progress : Progress) : (fsLocksTry table key owner type start stop wait progress).1.Sound := by
  rcases fsLocksTry_cases table key owner type start stop wait progress with
    ⟨outcome, same, -⟩ | ⟨table', done, granted, free⟩
  · rw [same]
    exact h
  · rw [done]
    exact h.apply order granted free

/-! ### The system -/

namespace LockSys

/-- The invariant of the system: a sound table and waiters with a range to ask for. -/
structure Good (s : LockSys) : Prop where
  sound : s.table.Sound
  ranges : ∀ w ∈ s.waiters, w.start ≤ w.stop

theorem settle_table (waiters : List Waiter) (waiter : Progress → Option Waiter)
    (result : LockTable × Outcome) : (settle waiters waiter result).table = result.1 := by
  rcases result with ⟨table, _ | _⟩ <;> rfl

theorem mem_settle_waiters {waiters : List Waiter} {waiter : Progress → Option Waiter}
    {result : LockTable × Outcome} {w : Waiter}
    (member : w ∈ (settle waiters waiter result).waiters) :
    w ∈ waiters ∨ ∃ progress, waiter progress = some w := by
  rcases result with ⟨table, r | progress⟩
  · exact .inl member
  · rcases mem_append.mp member with old | new
    · exact .inl old
    · exact .inr ⟨progress, Option.mem_toList.mp new⟩

/-- A call's first attempt is an attempt, or an error before the table is looked at. -/
theorem fsLocksSet_cases (table : LockTable) (vf : LockFile) (lk : Flock) (owner : Owner)
    (wait scratch : Bool) :
    (∃ e, fsLocksSet table vf lk owner wait scratch = (table, .returned (.error e))) ∨
    ∃ type start stop, lk.lType = some type ∧ fsLockRange vf lk = .ok (start, stop) ∧
      fsLocksSet table vf lk owner wait scratch =
        fsLocksTry table (fsLockKey vf) owner type start stop wait ⟨0, 0⟩ := by
  cases typed : lk.lType with
  | none => exact .inl ⟨.EINVAL, by rw [fsLocksSet, typed]⟩
  | some type =>
    cases ranged : fsLockRange vf lk with
    | error e => exact .inl ⟨e, by rw [fsLocksSet, typed, ranged]⟩
    | ok range =>
      obtain ⟨start, stop⟩ := range
      cases scratch with
      | false => exact .inl ⟨.ENOMEM, by rw [fsLocksSet, typed, ranged]; rfl⟩
      | true => exact .inr ⟨type, start, stop, rfl, rfl, by rw [fsLocksSet, typed, ranged]; rfl⟩

theorem good_init : init.Good :=
  ⟨LockTable.sound_init, by simp [init]⟩

theorem Good.set (h : s.Good) {lk : Flock}
    {wait scratch : Bool} (taken : s.step (.set vf lk owner wait scratch) = some s') : s'.Good := by
  obtain ⟨representable, ⟨⟩⟩ := Option.ite_none_right_eq_some.mp taken
  constructor
  · rw [settle_table]
    rcases fsLocksSet_cases s.table vf lk owner wait scratch with
      ⟨e, failed⟩ | ⟨type, start, stop, -, ranged, tried⟩
    · rw [failed]
      exact h.sound
    · rw [tried]
      exact h.sound.attempt (representable _ ranged).1 _ _
  · intro w member
    rcases mem_settle_waiters member with old | ⟨progress, new⟩
    · exact h.ranges w old
    · split at new
      · next type start stop typed ranged =>
        cases new
        exact (representable _ ranged).1
      · cases new

theorem Good.retry (h : s.Good) {i : Nat} (taken : s.step (.retry i) = some s') : s'.Good := by
  rw [step] at taken
  split at taken
  · next w found =>
    cases taken
    have order := h.ranges w (mem_of_getElem? found)
    constructor
    · rw [settle_table]
      exact h.sound.attempt order _ _
    · intro v member
      rcases mem_settle_waiters member with old | ⟨progress, new⟩
      · exact h.ranges v (mem_of_mem_eraseIdx old)
      · cases new
        exact order
  · cases taken

theorem Good.step {l : LockLabel} (h : s.Good) (taken : s.step l = some s') : s'.Good := by
  cases l with
  | set vf lk owner wait scratch => exact h.set taken
  | retry i => exact h.retry taken
  | giveUp i =>
    rw [LockSys.step] at taken
    split at taken
    · cases taken
      exact ⟨h.sound, fun w member => h.ranges w (mem_of_mem_eraseIdx member)⟩
    · cases taken
  | releaseProcess | releaseProcessFile | releaseFile =>
    cases taken
    exact ⟨h.sound.drop _, h.ranges⟩

end LockSys

/-! ### Files -/

/-- Among the open files of a set, two have one key exactly when they are open on one file. -/
def KeysNameFiles (files : LockFile → Prop) : Prop :=
  ∀ a b, files a → files b → (fsLockKey a = fsLockKey b ↔ a.file = b.file)

/-- The owner holds type `t` on byte `x` of the file behind `vf`, by a lock taken through some
open file of the set. -/
def LockTable.HoldsOn (files : LockFile → Prop) (table : LockTable) (vf : LockFile) (owner : Owner)
    (t : FlockType) (x : Int) : Prop :=
  ∃ opened, files opened ∧ opened.file = vf.file ∧ table.Holds (fsLockKey opened) owner t x

/-- What a request of type `type` for a byte range through `vf` does to the locks when it is
granted. -/
structure Granted (files : LockFile → Prop) (table table' : LockTable) (vf : LockFile)
    (owner : Owner) (type : FlockType) (start stop : Int) : Prop where
  inside : ∀ t x, start ≤ x → x ≤ stop →
    (table'.HoldsOn files vf owner t x ↔ t = type ∧ type ≠ .unlck)
  outside : ∀ t x, ¬ (start ≤ x ∧ x ≤ stop) →
    (table'.HoldsOn files vf owner t x ↔ table.HoldsOn files vf owner t x)
  others : ∀ vf' owner' t x, files vf' → vf'.file ≠ vf.file ∨ owner' ≠ owner →
    (table'.HoldsOn files vf' owner' t x ↔ table.HoldsOn files vf' owner' t x)
  disjoint : Spread (rangesOf table.locks (fsLockKey vf) owner) →
    Spread (rangesOf table'.locks (fsLockKey vf) owner)

section
variable (named : KeysNameFiles files)
include named

theorem holdsOn_iff (opened : files vf) {t : FlockType} :
    table.HoldsOn files vf owner t x ↔ table.Holds (fsLockKey vf) owner t x := by
  constructor
  · rintro ⟨other, openedOther, same, held⟩
    rwa [(named other vf openedOther opened).mpr same] at held
  · exact fun held => ⟨vf, opened, rfl, held⟩

theorem granted_of_apply (opened : files vf) (order : start ≤ stop)
    (granted : fsLocksApply table (fsLockKey vf) owner type start stop = .ok table') :
    Granted files table table' vf owner type start stop where
  inside t x low high := by
    rw [holdsOn_iff named opened, fsLocksApply_spec granted, if_pos ⟨low, high⟩]
  outside t x out := by
    rw [holdsOn_iff named opened, holdsOn_iff named opened, fsLocksApply_spec granted, if_neg out]
  others vf' owner' t x opened' other := by
    rw [holdsOn_iff named opened', holdsOn_iff named opened']
    apply fsLocksApply_other granted
    exact other.imp_left fun apart same => apart ((named vf' vf opened' opened).mp same)
  disjoint := fsLocksApply_spread granted order

theorem granted_of_try (opened : files vf)
    (order : start ≤ stop) {wait : Bool} {progress : Progress}
    (done : (fsLocksTry table (fsLockKey vf) owner type start stop wait progress).2 =
      .returned (.ok ())) :
    Granted files table (fsLocksTry table (fsLockKey vf) owner type start stop wait progress).1 vf
      owner type start stop := by
  rcases fsLocksTry_cases table (fsLockKey vf) owner type start stop wait progress with
    ⟨outcome, same, failed⟩ | ⟨table', tried, granted, -⟩
  · rw [same] at done
    exact absurd done failed
  · rw [tried]
    exact granted_of_apply named opened order granted

end

namespace LockSys

/-- An attempt returns 0 if the owner has no ranges under the key and either unlocks or is the
first. -/
theorem fsLocksTry_fresh (none : rangesOf table.locks key owner = [])
    (first : type ≠ .unlck → ∀ l ∈ table.locks, l.used = false) :
    ∃ table', fsLocksTry table key owner type start stop false ⟨0, 0⟩ =
        (table', .returned (.ok ())) ∧
      fsLocksApply table key owner type start stop = .ok table' := by
  have free : (if type ≠ .unlck then
      table.locks.find? (fsLockConflicts · key owner type start stop) else Option.none) =
      Option.none := by
    split
    · next locks =>
      refine find?_eq_none.mpr fun l member => ?_
      simp [fsLockConflicts, first locks l member]
    · rfl
  have room : ¬ fsFileLockMax < table.locks.countP (·.used) -
      table.locks.countP (FileLock.isOwn key owner) +
      (coalesce (sortSpans (newRanges table.locks key owner type start stop))).length := by
    rw [newRanges, none, flatMap_nil, nil_append]
    by_cases locks : type ≠ .unlck
    · have unused : table.locks.countP (·.used) = 0 :=
        countP_eq_zero.mpr fun l member => by simp [first locks l member]
      rw [if_pos locks, unused, Nat.zero_sub]
      change ¬ fsFileLockMax < 0 + 1
      decide
    · have few : table.locks.countP (·.used) ≤ fsFileLockMax := table.size ▸ countP_le_length
      rw [if_neg locks]
      exact Nat.not_lt.mpr ((Nat.sub_le _ _).trans few)
  refine ⟨_, ?_, if_neg room⟩
  rw [fsLocksTry, if_neg (by decide)]
  dsimp only
  rw [free, fsLocksApply]
  dsimp only
  rw [if_neg room]

/-- Every attempt through one of the open files that returns 0 changes the locks as `Granted`
says. -/
def TriesGranted (files : LockFile → Prop) : Prop :=
  ∀ (table : LockTable) vf owner type start stop wait progress, files vf → start ≤ stop →
    (fsLocksTry table (fsLockKey vf) owner type start stop wait progress).2 = .returned (.ok ()) →
    Granted files table (fsLocksTry table (fsLockKey vf) owner type start stop wait progress).1
      vf owner type start stop

/-- Where the keys do not name the files, a lock shows on another file, or stays when it is
given up through another open file. -/
theorem keysNameFiles_of_granted (granted : TriesGranted files) : KeysNameFiles files := by
  intro a b openA openB
  have empty (key : Nat) : rangesOf LockTable.init.locks key ⟨.pid, 1⟩ = [] := by
    simp [rangesOf, LockTable.init, FileLock.isOwn, FileLock.empty]
  obtain ⟨t₁, tried, applied⟩ := @fsLocksTry_fresh .wrlck 0 0 _ _ _ (empty (fsLockKey a))
    fun _ l member => by rw [eq_of_mem_replicate member]; rfl
  have locked := granted .init a ⟨.pid, 1⟩ .wrlck 0 0 false ⟨0, 0⟩ openA le_rfl (by rw [tried])
  rw [tried] at locked
  have held : t₁.Holds (fsLockKey a) ⟨.pid, 1⟩ .wrlck 0 :=
    (fsLocksApply_spec applied _ _).mpr (by simp)
  constructor
  · intro keys
    by_contra apart
    obtain ⟨c, -, -, before⟩ := (locked.others b _ .wrlck 0 openB (.inl (Ne.symm apart))).mp
      ⟨b, openB, rfl, keys ▸ held⟩
    simp [LockTable.Holds, empty, Marks] at before
  · intro file
    by_contra keys
    have others := (fsLocksApply_ranges applied).2 (fsLockKey b) ⟨.pid, 1⟩ (.inl (Ne.symm keys))
    obtain ⟨t₂, tried₂, applied₂⟩ := @fsLocksTry_fresh .unlck 0 0 _ _ _ (others.trans (empty _))
      fun locks => absurd rfl locks
    have gone := granted t₁ b ⟨.pid, 1⟩ .unlck 0 0 false ⟨0, 0⟩ openB le_rfl (by rw [tried₂])
    rw [tried₂] at gone
    have still := (gone.inside .wrlck 0 le_rfl le_rfl).mp
      ⟨a, openA, file, (fsLocksApply_other applied₂ (.inl keys) _ _).mpr held⟩
    cases still.1

/-- The open files of a label belong to the set. -/
def Uses (files : LockFile → Prop) (_ : LockSys) : LockLabel → Prop
  | .set vf _ _ _ _ => files vf
  | .releaseProcessFile vf _ => files vf
  | .releaseFile vf _ _ => files vf
  | _ => True

/-- The ranges of each owner are disjoint, and no two owners hold a byte of one file where either
holds a write lock. -/
def Apart (files : LockFile → Prop) (table : LockTable) : Prop :=
  (∀ vf owner, Spread (rangesOf table.locks (fsLockKey vf) owner)) ∧
    ∀ vf owner owner' t t' x, files vf → owner ≠ owner' → table.HoldsOn files vf owner t x →
      table.HoldsOn files vf owner' t' x → t ≠ .wrlck ∧ t' ≠ .wrlck

/-- **The lock table.** Every attempt through one of the open files that returns 0 changes the
locks as `Granted` says, whatever the table holds, exactly if the keys name the files; then so do
the calls, and in every reachable state the ranges of each owner are disjoint and no two owners
hold a byte of one file where either holds a write lock. What does not return 0 changes nothing. -/
theorem locks_table (files : LockFile → Prop) :
    (KeysNameFiles files ↔ TriesGranted files) ∧
    (KeysNameFiles files →
      ∀ (table : LockTable) vf lk owner wait scratch type start stop, files vf →
      lk.lType = some type → fsLockRange vf lk = .ok (start, stop) → start ≤ stop →
      (fsLocksSet table vf lk owner wait scratch).2 = .returned (.ok ()) →
      Granted files table (fsLocksSet table vf lk owner wait scratch).1 vf owner type start stop) ∧
    (∀ (table : LockTable) vf lk owner wait scratch,
      (fsLocksSet table vf lk owner wait scratch).2 ≠ .returned (.ok ()) →
      (fsLocksSet table vf lk owner wait scratch).1 = table) ∧
    (∀ (table : LockTable) key owner type start stop wait progress,
      (fsLocksTry table key owner type start stop wait progress).2 ≠ .returned (.ok ()) →
      (fsLocksTry table key owner type start stop wait progress).1 = table) ∧
    (KeysNameFiles files → ∀ s, RunsTo step (Uses files) init s → Apart files s.table) := by
  refine ⟨⟨?_, keysNameFiles_of_granted⟩, ?_, ?_, ?_, ?_⟩
  · intro named table vf owner type start stop wait progress opened order done
    exact granted_of_try named opened order done
  · intro named table vf lk owner wait scratch type start stop opened typed ranged order done
    rcases fsLocksSet_cases table vf lk owner wait scratch with
      ⟨e, failed⟩ | ⟨type', start', stop', typed', ranged', tried⟩
    · rw [failed] at done
      cases done
    · obtain rfl : type' = type := Option.some.inj (typed'.symm.trans typed)
      cases ranged'.symm.trans ranged
      rw [tried] at done ⊢
      exact granted_of_try named opened order done
  · intro table vf lk owner wait scratch failed
    rcases fsLocksSet_cases table vf lk owner wait scratch with
      ⟨e, early⟩ | ⟨type, start, stop, -, -, tried⟩
    · rw [early]
    · rw [tried] at failed ⊢
      exact fsLocksTry_unchanged failed
  · intro table key owner type start stop wait progress failed
    exact fsLocksTry_unchanged failed
  · intro named s run
    have good : s.Good := run.invariant (fun h _ taken => h.step taken) good_init
    refine ⟨fun vf owner => good.sound.spread _ owner, ?_⟩
    intro vf owner owner' t t' x opened apart held held'
    rw [holdsOn_iff named opened] at held held'
    obtain ⟨rfl, rfl⟩ := good.sound.compatible _ _ _ _ _ _ apart held held'
    exact ⟨by decide, by decide⟩

instance (files : LockFile → Prop) [DecidablePred files] (s : LockSys) (l : LockLabel) :
    Decidable (Uses files s l) := by
  cases l <;> unfold Uses <;> infer_instance

/-! ### Concrete files -/

/-- An open file of a file on a disk with the given inode number. -/
def diskFile (addr ino : Nat) : LockFile := ⟨addr, some ⟨ino, 0x8000, ino, 4096⟩, 0⟩

/-- Two open files of one disk file and an open file of another one on the same mount. -/
def onDisk : List LockFile := [diskFile 0x1000 12, diskFile 0x2000 12, diskFile 0x3000 13]

/-- A request from the start of the file. -/
def lockFrom (type : FlockType) (start len : Int) : Flock := ⟨some type, some .seekSet, start, len⟩

/-- One process writes to the first hundred bytes and gives up a part of them; another is
refused on the part that is still locked and takes the rest. -/
def sharing : List LockLabel :=
  [.set (diskFile 0x1000 12) (lockFrom .wrlck 0 100) ⟨.pid, 1⟩ false true,
   .set (diskFile 0x1000 12) (lockFrom .unlck 40 20) ⟨.pid, 1⟩ false true,
   .set (diskFile 0x2000 12) (lockFrom .wrlck 50 100) ⟨.pid, 2⟩ false true,
   .set (diskFile 0x2000 12) (lockFrom .wrlck 45 10) ⟨.pid, 2⟩ false true]

theorem locks_table_onDisk :
    ∃ s, RunsTo step (Uses (· ∈ onDisk)) init s ∧
      s.table.Holds (fsLockKey (diskFile 0x1000 12)) ⟨.pid, 1⟩ .wrlck 39 ∧
      s.table.Holds (fsLockKey (diskFile 0x1000 12)) ⟨.pid, 2⟩ .wrlck 50 ∧
      Apart (· ∈ onDisk) s.table := by
  have named : KeysNameFiles (· ∈ onDisk) := by
    intro a b openA openB
    revert b
    revert a
    decide +kernel
  obtain ⟨s, run, first, second⟩ : ∃ s, RunsTo step (Uses (· ∈ onDisk)) init s ∧
      s.table.Holds (fsLockKey (diskFile 0x1000 12)) ⟨.pid, 1⟩ .wrlck 39 ∧
      s.table.Holds (fsLockKey (diskFile 0x1000 12)) ⟨.pid, 2⟩ .wrlck 50 :=
    runsTo_of_execWhile sharing (by decide +kernel)
  exact ⟨s, run, first, second, (locks_table _).2.2.2.2 named s run⟩

/-- The root of a pseudo file system, whose inode number is 0, opened twice. -/
def rootOpened (addr : Nat) : LockFile := ⟨addr, some ⟨0, 0x8000, 0, 0⟩, 0⟩

/-- Two processes hold a write lock on the same byte of one file. -/
theorem locks_table_root :
    ∃ s, RunsTo step always init s ∧ (rootOpened 0x1000).file = (rootOpened 0x2000).file ∧
      s.table.HoldsOn (fun _ => True) (rootOpened 0x1000) ⟨.pid, 1⟩ .wrlck 0 ∧
      s.table.HoldsOn (fun _ => True) (rootOpened 0x1000) ⟨.pid, 2⟩ .wrlck 0 := by
  obtain ⟨s, run, first, second⟩ : ∃ s, RunsTo step always init s ∧
      s.table.Holds (fsLockKey (rootOpened 0x1000)) ⟨.pid, 1⟩ .wrlck 0 ∧
      s.table.Holds (fsLockKey (rootOpened 0x2000)) ⟨.pid, 2⟩ .wrlck 0 :=
    runsTo_of_exec [.set (rootOpened 0x1000) (lockFrom .wrlck 0 0) ⟨.pid, 1⟩ false true,
      .set (rootOpened 0x2000) (lockFrom .wrlck 0 0) ⟨.pid, 2⟩ false true] (by decide +kernel)
  exact ⟨s, run, rfl, ⟨rootOpened 0x1000, trivial, rfl, first⟩,
    ⟨rootOpened 0x2000, trivial, rfl, second⟩⟩

end LockSys

end A20OS.Fs
