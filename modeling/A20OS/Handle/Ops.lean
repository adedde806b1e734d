import Mathlib.Logic.Relation
import A20OS.Handle.Table

/-!
The operations of the handle table: allocation and growth, installs, lookup and removal.

Each has one lemma that says what it did to the entries (`Installed`, `Removed`, …) and that it
keeps `Table.WF`. `Table.refs` counts the entries that own a reference to a given object. `mem n`
says whether the allocation of arrays for `n` slots succeeds.
-/

namespace A20OS.Handle

open Lib List

variable {limits : Limits} {h object slot : Nat} {mem : Nat → Bool} {type : ObjType}
  {rights : Rights} {e : Status} {t t' : Table}

/-- An object as handles name it. Timers and extension programs are named by small
integers, so the type is part of the name. -/
structure ObjRef where
  object : Nat
  type : ObjType
deriving DecidableEq

/-- The entry names the object. -/
def Entry.names (k : ObjRef) (e : Entry) : Bool := e.object = k.object ∧ e.type = k.type

variable {k : ObjRef}

namespace Table

/-- How many entries own a reference to the object. -/
def refs (t : Table) (k : ObjRef) : Nat := t.entries.countP (Entry.names k)

theorem not_names_of_object_eq_zero (hk : k.object ≠ 0) {e : Entry} (h : e.object = 0) :
    e.names k = false := by
  simp [Entry.names, h, Ne.symm hk]

theorem WF.object_eq_zero (wf : t.WF) (free : Used (t.entry h) = false) :
    (t.entry h).object = 0 := by
  have state : (t.entry h).state = .free := by simpa [Used] using free
  by_contra owned
  rcases (wf.owns h).mp owned with active | expired
  · rw [state] at active; cases active
  · rw [state] at expired; cases expired

variable {P : Table → Prop}

/-- What an operation leaves whether it fails or succeeds. -/
theorem of_result {α : Type} {done : Table × Except Status α}
    (error : ∀ {t' : Table} {e : Status}, done = (t', .error e) → P t')
    (ok : ∀ {t' : Table} {a : α}, done = (t', .ok a) → P t') : P done.1 := by
  obtain ⟨t', e | a⟩ := done
  · exact error rfl
  · exact ok rfl

/-- An operation that made something has succeeded. -/
theorem ok_of_made {α β : Type} {done : Table × Except Status α} {f : α → β} {b : β}
    (made : done.2.toOption.map f = some b) : ∃ a, done = (done.1, .ok a) ∧ f a = b := by
  obtain ⟨t', e | a⟩ := done
  · cases made
  · exact ⟨a, rfl, Option.some.inj made⟩

/-! ### Growth and allocation -/

def grow (mem : Nat → Bool) (t : Table) : Except Status Table :=
  if maxCap ≤ t.capacity then .error .noSpace
  else
    let newCap := min (t.capacity * growthFactor) maxCap
    let newBmSize := (newCap + 63) / 64
    if mem newCap then
      .ok { t with
        entries := t.entries ++ List.replicate (newCap - t.capacity) Entry.zero
        freeBitmap := t.freeBitmap ++ List.replicate (newBmSize - t.freeBitmap.length) 0 }
    else .error .noMemory

/-- `t'` is `t` with more room: nothing that can be seen through `entry` changed. -/
structure Grown (t t' : Table) : Prop where
  wf : t'.WF
  entry : ∀ h, t'.entry h = t.entry h
  refs : ∀ k : ObjRef, k.object ≠ 0 → t'.refs k = t.refs k
  room : t.capacity ≤ t'.capacity

theorem Grown.refl (wf : t.WF) : Grown t t :=
  ⟨wf, fun _ => rfl, fun _ _ => rfl, Nat.le_refl _⟩

theorem Grown.trans {t₁ t₂ t₃ : Table} (h₁ : Grown t₁ t₂) (h₂ : Grown t₂ t₃) : Grown t₁ t₃ :=
  ⟨h₂.wf, fun h => (h₂.entry h).trans (h₁.entry h),
    fun k hk => (h₂.refs k hk).trans (h₁.refs k hk), Nat.le_trans h₁.room h₂.room⟩

theorem entry_append_zeros (t : Table) (n h : Nat) :
    (t.entries ++ List.replicate n Entry.zero).getD h Entry.zero = t.entry h := by
  unfold entry
  simp only [getD_eq_getElem?_getD]
  by_cases inside : h < t.entries.length
  · rw [getElem?_append_left inside]
  · have outside : t.entries.length ≤ h := Nat.le_of_not_lt inside
    rw [getElem?_append_right outside, getElem?_eq_none outside, getElem?_replicate]
    split <;> rfl

theorem grow_ok (wf : t.WF) (grown : t.grow mem = .ok t') : Grown t t' := by
  obtain ⟨-, ⟨⟩⟩ | ⟨full, grown⟩ := ite_eq_iff.mp grown
  by_cases enough : mem (min (t.capacity * growthFactor) maxCap)
  · simp only [enough, if_true, Except.ok.injEq] at grown
    subst grown
    have words : t.freeBitmap.length * 64 = t.entries.length := wf.words
    have newCap : min (t.capacity * growthFactor) maxCap % 64 = 0 ∧
        t.entries.length ≤ min (t.capacity * growthFactor) maxCap := by
      unfold growthFactor maxCap capacity at *
      omega
    obtain ⟨aligned, larger⟩ := newCap
    generalize min (t.capacity * growthFactor) maxCap = newCap at aligned larger enough ⊢
    refine ⟨⟨?_, ?_, ?_, ?_⟩, entry_append_zeros t _, ?_, ?_⟩
    · simp only [length_append, length_replicate, capacity]
      omega
    · intro h hh
      change testBit (t.freeBitmap ++ _) h = Used ((t.entries ++ _).getD h Entry.zero)
      rw [testBit_append_zeros, entry_append_zeros]
      by_cases old : h < t.capacity
      · exact wf.marked h old
      · have past : t.entries.length ≤ h := Nat.le_of_not_lt old
        rw [entry_of_capacity_le past]
        unfold testBit
        rw [getD_eq_getElem?_getD, getElem?_eq_none (by omega)]
        simp [Used, Entry.zero]
    · rw [countP_append, countP_replicate, wf.counted]
      simp [Used, Entry.zero]
    · intro h
      change Owns ((t.entries ++ _).getD h Entry.zero)
      rw [entry_append_zeros]
      exact wf.owns h
    · intro k hk
      change (t.entries ++ _).countP _ = t.entries.countP _
      rw [countP_append, countP_replicate,
        not_names_of_object_eq_zero hk (rfl : Entry.zero.object = 0)]
      rfl
    · change t.entries.length ≤ (t.entries ++ _).length
      rw [length_append]
      exact Nat.le_add_right _ _
  · simp only [enough] at grown
    cases grown

/-- `t'` is `t` after any number of growths. -/
def Grows (mem : Nat → Bool) : Table → Table → Prop :=
  Relation.ReflTransGen fun t t' => t.grow mem = .ok t'

theorem Grows.induct (grows : Grows mem t t') (start : P t)
    (kept : ∀ {g g' : Table}, P g → g.grow mem = .ok g' → P g') : P t' := by
  induction grows with
  | refl => exact start
  | tail _ grown ih => exact kept ih grown

theorem Grows.grown (grows : Grows mem t t') (wf : t.WF) : Grown t t' :=
  grows.induct (P := Grown t) (.refl wf) fun before grown => before.trans (grow_ok before.wf grown)

/-- The word scan of `ht_alloc_slot`. -/
def freeSlot (t : Table) : Option Nat :=
  firstClear t.capacity (t.freeHint / 64) (t.freeBitmap.drop (t.freeHint / 64))

def allocSlot (t : Table) : Table × Option Nat :=
  match t.freeSlot with
  | some slot =>
      ({ t with freeBitmap := setBit t.freeBitmap slot, freeHint := slot + 1 }, some slot)
  | none => (t, none)

/-- A slot below the quota, growing the table when no slot is free. -/
def takeSlot (mem : Nat → Bool) (t : Table) : Table × Option Nat :=
  if t.count < t.maxHandles then
    match t.allocSlot with
    | (t, some slot) => (t, some slot)
    | (t, none) =>
        match t.grow mem with
        | .ok t => t.allocSlot
        | .error _ => (t, none)
  else (t, none)

theorem freeSlot_some (wf : t.WF) (found : t.freeSlot = some slot) :
    slot < t.capacity ∧ Used (t.entry slot) = false := by
  obtain ⟨below, _, clear⟩ := firstClear_drop_some found
  exact ⟨below, by rw [← wf.marked slot below, clear]⟩

/-- What taking a slot comes to: the search finds one below the quota, in the table as it
is or after growth, or there is none. -/
theorem takeSlot_cases {found : Option Nat} (taken : t.takeSlot mem = (t', found)) :
    ∃ g, Grows mem t g ∧ (found = none ∧ t' = g ∨
      ∃ slot, found = some slot ∧ t.count < t.maxHandles ∧ g.freeSlot = some slot ∧
        t' = { g with freeBitmap := setBit g.freeBitmap slot, freeHint := slot + 1 }) := by
  unfold takeSlot allocSlot at taken
  obtain ⟨quota, taken⟩ | ⟨-, ⟨⟩⟩ := ite_eq_iff.mp taken
  · cases first : t.freeSlot with
    | some slot =>
      rw [first] at taken
      cases taken
      exact ⟨t, .refl, .inr ⟨slot, rfl, quota, first, rfl⟩⟩
    | none =>
      rw [first] at taken
      cases grown : t.grow mem with
      | error e =>
        simp only [grown] at taken
        cases taken
        exact ⟨t, .refl, .inl ⟨rfl, rfl⟩⟩
      | ok g =>
        simp only [grown] at taken
        cases second : g.freeSlot with
        | none =>
          rw [second] at taken
          cases taken
          exact ⟨_, .single grown, .inl ⟨rfl, rfl⟩⟩
        | some slot =>
          rw [second] at taken
          cases taken
          exact ⟨g, .single grown, .inr ⟨slot, rfl, quota, second, rfl⟩⟩
  · exact ⟨t, .refl, .inl ⟨rfl, rfl⟩⟩

end Table

variable {now : Nat} {requiredRights : Rights}

/-! ### Installs -/

/-- The entry an install writes. -/
def Entry.opened (object : Nat) (type : ObjType) (rights : Rights) (limits : Limits) : Entry :=
  { limits with object, type, rights := maskRights type rights, state := .active }

namespace Table

theorem owns_opened (hobject : object ≠ 0) (type : ObjType) (rights : Rights)
    (limits : Limits) : Owns (Entry.opened object type rights limits) := by
  simp [Owns, Entry.opened, hobject]

def handleInstallTemporal (mem : Nat → Bool) (t : Table) (object : Nat) (type : ObjType)
    (rights : Rights) (limits : Limits) : Table × Except Status Nat :=
  match t.takeSlot mem with
  | (t, some slot) =>
      ({ t.put slot (.opened object type rights limits) with count := t.count + 1 }, .ok slot)
  | (t, none) => (t, .error .noSpace)

/-- The plain install: no temporal limits and the lowest label. -/
def handleInstall (mem : Nat → Bool) (t : Table) (object : Nat) (type : ObjType)
    (rights : Rights) : Table × Except Status Nat :=
  t.handleInstallTemporal mem object type rights {}

/-- Grow until `slot` is below the capacity. A table with a slot reaches the maximal
capacity in sixteen doublings. -/
def growTo (mem : Nat → Bool) (slot : Nat) : Nat → Table → Table × Bool
  | 0, t => (t, false)
  | fuel + 1, t =>
      if t.capacity ≤ slot then
        match t.grow mem with
        | .ok t => growTo mem slot fuel t
        | .error _ => (t, false)
      else (t, true)

def handleInstallAtTemporal (mem : Nat → Bool) (t : Table) (slot : Nat) (object : Nat)
    (type : ObjType) (rights : Rights) (limits : Limits) : Table × Except Status Nat :=
  if maxCap ≤ slot then (t, .error .invalidArgument)
  else
    match t.growTo mem slot 17 with
    | (t, false) => (t, .error .noSpace)
    | (t, true) =>
        if testBit t.freeBitmap slot then (t, .error .exists)
        else if t.maxHandles ≤ t.count then (t, .error .noSpace)
        else
          (t.occupy slot (.opened object type rights limits)
            (if t.freeHint ≤ slot then slot + 1 else t.freeHint), .ok slot)

/-- `t'` is `t` with the free slot `slot` given the entry `e`. -/
structure Installed (t t' : Table) (slot : Nat) (e : Entry) : Prop where
  wf : t'.WF
  fresh : Used (t.entry slot) = false
  entry : ∀ h, t'.entry h = if h = slot then e else t.entry h
  refs : ∀ k : ObjRef, k.object ≠ 0 → t'.refs k = t.refs k + if e.names k then 1 else 0

theorem refs_put (hslot : slot < t.capacity) (e : Entry) (k : ObjRef) :
    (t.put slot e).refs k =
      (t.refs k - if (t.entry slot).names k then 1 else 0) + if e.names k then 1 else 0 :=
  countP_put hslot e _

theorem refs_put_of_names (hslot : slot < t.capacity) {e : Entry}
    (names : e.names k = (t.entry slot).names k) : (t.put slot e).refs k = t.refs k := by
  rw [refs_put hslot, names]
  by_cases hit : (t.entry slot).names k = true
  · have := countP_pos hslot hit
    rw [if_pos hit]
    exact Nat.sub_add_cancel this
  · rw [if_neg hit, Nat.sub_zero, Nat.add_zero]

theorem Grown.occupy {g : Table} (grown : Grown t g) (hslot : slot < g.capacity)
    (free : Used (g.entry slot) = false) {e : Entry} (used : Used e = true) (owns : Owns e)
    (hint : Nat) : Installed t (g.occupy slot e hint) slot e := by
  refine ⟨grown.wf.occupy hslot free used owns hint, ?_, ?_, ?_⟩
  · rw [← grown.entry]
    exact free
  · intro h
    rw [entry_occupy, entry_put hslot, grown.entry]
  · intro k hk
    change (g.put slot e).refs k = _
    rw [refs_put hslot, grown.refs k hk,
      not_names_of_object_eq_zero hk (grown.wf.object_eq_zero free)]
    rfl

theorem handleInstallTemporal_ok (wf : t.WF) (hobject : object ≠ 0)
    (installed : t.handleInstallTemporal mem object type rights limits = (t', .ok slot)) :
    Installed t t' slot (.opened object type rights limits) := by
  unfold handleInstallTemporal at installed
  cases taken : t.takeSlot mem with
  | mk t₁ o =>
    rw [taken] at installed
    obtain ⟨g, grows, ⟨rfl, -⟩ | ⟨s, rfl, -, found, rfl⟩⟩ := takeSlot_cases taken
    · cases installed
    · cases installed
      have grown := grows.grown wf
      obtain ⟨below, free⟩ := freeSlot_some grown.wf found
      exact grown.occupy below free rfl (owns_opened hobject type rights limits) _

theorem handleInstallTemporal_error (wf : t.WF)
    (failed : t.handleInstallTemporal mem object type rights limits = (t', .error e)) :
    Grown t t' := by
  unfold handleInstallTemporal at failed
  cases taken : t.takeSlot mem with
  | mk t₁ o =>
    rw [taken] at failed
    obtain ⟨g, grows, ⟨rfl, rfl⟩ | ⟨s, rfl, -⟩⟩ := takeSlot_cases taken
    · cases failed
      exact grows.grown wf
    · cases failed

theorem growTo_grows (mem : Nat → Bool) (slot : Nat) :
    ∀ (fuel : Nat) {t t' : Table} {reached : Bool}, t.growTo mem slot fuel = (t', reached) →
      Grows mem t t' ∧ (reached = true → slot < t'.capacity) := by
  intro fuel
  induction fuel with
  | zero =>
    intro t t' reached ended
    cases ended
    exact ⟨.refl, fun h => by cases h⟩
  | succ fuel ih =>
    intro t t' reached ended
    rw [growTo] at ended
    obtain ⟨-, ended⟩ | ⟨past, ⟨⟩⟩ := ite_eq_iff.mp ended
    · cases grown : t.grow mem with
      | error e =>
        rw [grown] at ended
        cases ended
        exact ⟨.refl, fun h => by cases h⟩
      | ok g =>
        rw [grown] at ended
        obtain ⟨rest, inside⟩ := ih ended
        exact ⟨.head grown rest, inside⟩
    · exact ⟨.refl, fun _ => Nat.lt_of_not_le past⟩

variable {target : Nat}

/-- What a targeted install comes to: the table has grown, and the slot was free and below
the quota, or nothing else has changed. -/
theorem handleInstallAtTemporal_cases {result : Except Status Nat}
    (done : t.handleInstallAtTemporal mem target object type rights limits = (t', result)) :
    ∃ g, Grows mem t g ∧ ((∃ e, result = .error e) ∧ t' = g ∨
      result = .ok target ∧ target < g.capacity ∧ testBit g.freeBitmap target = false ∧
        g.count < g.maxHandles ∧ t' = g.occupy target (.opened object type rights limits)
          (if g.freeHint ≤ target then target + 1 else g.freeHint)) := by
  obtain ⟨-, ⟨⟩⟩ | ⟨-, done⟩ := ite_eq_iff.mp done
  · exact ⟨t, .refl, .inl ⟨⟨_, rfl⟩, rfl⟩⟩
  cases reached : t.growTo mem target 17 with
  | mk g inside =>
    obtain ⟨grows, below⟩ := growTo_grows mem target 17 reached
    refine ⟨g, grows, ?_⟩
    rw [reached] at done
    cases inside with
    | false =>
      cases done
      exact .inl ⟨⟨_, rfl⟩, rfl⟩
    | true =>
      obtain ⟨-, ⟨⟩⟩ | ⟨unused, done⟩ := ite_eq_iff.mp done
      · exact .inl ⟨⟨_, rfl⟩, rfl⟩
      obtain ⟨-, ⟨⟩⟩ | ⟨quota, ⟨⟩⟩ := ite_eq_iff.mp done
      · exact .inl ⟨⟨_, rfl⟩, rfl⟩
      · exact .inr ⟨rfl, below rfl, Bool.eq_false_iff.mpr unused, Nat.lt_of_not_le quota, rfl⟩

theorem handleInstallAtTemporal_ok (wf : t.WF) (hobject : object ≠ 0)
    (installed : t.handleInstallAtTemporal mem target object type rights limits = (t', .ok slot)) :
    slot = target ∧ Installed t t' slot (.opened object type rights limits) := by
  obtain ⟨g, grows, ⟨⟨e, ⟨⟩⟩, -⟩ | ⟨⟨⟩, below, unused, -, rfl⟩⟩ :=
    handleInstallAtTemporal_cases installed
  have grown := grows.grown wf
  have free : Used (g.entry slot) = false := by rw [← grown.wf.marked slot below, unused]
  exact ⟨rfl, grown.occupy below free rfl (owns_opened hobject type rights limits) _⟩

theorem handleInstallAtTemporal_error (wf : t.WF)
    (failed : t.handleInstallAtTemporal mem target object type rights limits = (t', .error e)) :
    Grown t t' := by
  obtain ⟨g, grows, ⟨-, rfl⟩ | ⟨⟨⟩, -⟩⟩ := handleInstallAtTemporal_cases failed
  exact grows.grown wf

/-! ### Lookup and removal -/

end Table

/-- A use of the handle, charged to its operation budget. -/
def Entry.charged (e : Entry) : Entry :=
  if e.opLimited ∧ 0 < e.remainingOps then { e with remainingOps := e.remainingOps - 1 } else e

/-- What a removal leaves of the entry; its limits stay behind. -/
def Entry.emptied (e : Entry) : Entry :=
  { e with object := 0, type := .invalid, rights := 0, state := .free }

namespace Table

/-- The checks of a lookup, in the order the code makes them. -/
def lookupDenied (now : Nat) (t : Table) (h : Nat) (expectedType : ObjType)
    (requiredRights : Rights) : Option Status :=
  if t.capacity ≤ h then some .badHandle
  else if (t.entry h).object = 0 ∨ (t.entry h).state = .free then some .badHandle
  else if (t.entry h).state = .closing then some .badHandle
  else if (t.entry h).state = .expired then some .expired
  else if expectedType ≠ .invalid ∧ (t.entry h).type ≠ expectedType then some .badHandle
  else if effectiveRights now (t.entry h) &&& requiredRights ≠ requiredRights then some .access
  else none

/-- `a20_handle_lookup_ref_mode`: the copy it returns carries the effective rights and
the operation count after this use. -/
def handleLookup (now : Nat) (t : Table) (h : Nat) (expectedType : ObjType)
    (requiredRights : Rights) : Table × Except Status Entry :=
  match t.lookupDenied now h expectedType requiredRights with
  | some e => (t, .error e)
  | none =>
      (t.put h (t.entry h).charged,
        .ok { (t.entry h).charged with rights := effectiveRights now (t.entry h) })

/-- The copy `out` of entry `e` that a lookup hands out at tick `now`. -/
structure Copied (now : Nat) (e out : Entry) : Prop where
  object : out.object = e.object
  type : out.type = e.type
  rights : out.rights = effectiveRights now e
  expiryTick : out.expiryTick = e.expiryTick
  remainingOps : out.remainingOps ≤ e.remainingOps
  temporalFlags : out.temporalFlags = e.temporalFlags
  securityLabel : out.securityLabel = e.securityLabel

/-- What a successful lookup of `h` in `t` guarantees. -/
structure Found (now : Nat) (t t' : Table) (h : Nat) (expectedType : ObjType)
    (requiredRights : Rights) (out : Entry) : Prop where
  wf : t'.WF
  others : ∀ j, j ≠ h → t'.entry j = t.entry j
  used : Used (t'.entry h) = true
  refs : ∀ k, t'.refs k = t.refs k
  live : (t.entry h).object ≠ 0
  typed : expectedType ≠ .invalid → (t.entry h).type = expectedType
  allowed : requiredRights.Within (effectiveRights now (t.entry h))
  copied : Copied now (t.entry h) out

theorem charged_kept (e : Entry) :
    e.charged.state = e.state ∧ e.charged.object = e.object ∧ e.charged.type = e.type := by
  unfold Entry.charged
  split <;> exact ⟨rfl, rfl, rfl⟩

theorem used_charged (e : Entry) : Used e.charged = Used e := by
  unfold Used
  rw [(charged_kept e).1]

theorem owns_charged {e : Entry} (owns : Owns e) : Owns e.charged := by
  unfold Owns
  rw [(charged_kept e).1, (charged_kept e).2.1]
  exact owns

theorem copied_charged (now : Nat) (e : Entry) :
    Copied now e { e.charged with rights := effectiveRights now e } := by
  unfold Entry.charged
  split
  · exact ⟨rfl, rfl, rfl, rfl, Nat.sub_le _ _, rfl, rfl⟩
  · exact ⟨rfl, rfl, rfl, rfl, Nat.le_refl _, rfl, rfl⟩

theorem within_of_and_eq {r s : Rights} (h : s &&& r = r) : r.Within s := by
  rw [← h, Rights.Within, BitVec.and_assoc, BitVec.and_comm r, ← BitVec.and_assoc]
  simp

variable {expectedType : ObjType}

/-- An entry that passes the checks is active, so it owns an object. -/
theorem lookupDenied_none (passed : t.lookupDenied now h expectedType requiredRights = none) :
    h < t.capacity ∧ (t.entry h).object ≠ 0 ∧ (t.entry h).state = .active ∧
      (expectedType ≠ .invalid → (t.entry h).type = expectedType) ∧
      requiredRights.Within (effectiveRights now (t.entry h)) := by
  obtain ⟨-, ⟨⟩⟩ | ⟨inside, passed⟩ := ite_eq_iff.mp passed
  obtain ⟨-, ⟨⟩⟩ | ⟨owned, passed⟩ := ite_eq_iff.mp passed
  obtain ⟨-, ⟨⟩⟩ | ⟨closing, passed⟩ := ite_eq_iff.mp passed
  obtain ⟨-, ⟨⟩⟩ | ⟨expired, passed⟩ := ite_eq_iff.mp passed
  obtain ⟨-, ⟨⟩⟩ | ⟨typed, passed⟩ := ite_eq_iff.mp passed
  obtain ⟨-, ⟨⟩⟩ | ⟨allowed, -⟩ := ite_eq_iff.mp passed
  push Not at owned typed allowed
  refine ⟨Nat.lt_of_not_le inside, owned.1, ?_, typed, within_of_and_eq allowed⟩
  cases state : (t.entry h).state with
  | free => exact absurd state owned.2
  | active => rfl
  | expired => exact absurd state expired
  | closing => exact absurd state closing

theorem handleLookup_ok {out : Entry} (wf : t.WF)
    (found : t.handleLookup now h expectedType requiredRights = (t', .ok out)) :
    Found now t t' h expectedType requiredRights out := by
  unfold handleLookup at found
  cases passed : t.lookupDenied now h expectedType requiredRights with
  | some e => rw [passed] at found; cases found
  | none =>
    rw [passed] at found
    cases found
    obtain ⟨inside, live, active, typed, allowed⟩ := lookupDenied_none passed
    have used := used_charged (t.entry h)
    refine ⟨wf.put inside used (owns_charged (wf.owns h)), ?_, ?_, ?_, live, typed, allowed,
      copied_charged now _⟩
    · intro j hj
      rw [entry_put inside, if_neg hj]
    · rw [entry_put inside, if_pos rfl, used]
      simp [Used, active]
    · intro k
      refine refs_put_of_names inside ?_
      unfold Entry.names
      rw [(charged_kept _).2.1, (charged_kept _).2.2]

theorem handleLookup_error
    (failed : t.handleLookup now h expectedType requiredRights = (t', .error e)) : t' = t := by
  unfold handleLookup at failed
  cases passed : t.lookupDenied now h expectedType requiredRights with
  | some e => rw [passed] at failed; cases failed; rfl
  | none => rw [passed] at failed; cases failed

/-- `ht_free_slot` moves the hint back to a slot below it. -/
def hintAfterFree (t : Table) (slot : Nat) : Nat := if slot < t.freeHint then slot else t.freeHint

/-- `a20_handle_remove`; the object it returns is the one whose reference the caller
then releases, outside the table lock. -/
def handleRemove (t : Table) (h : Nat) : Table × Except Status ObjRef :=
  if h < t.capacity ∧ (t.entry h).object ≠ 0 ∧ (t.entry h).state ≠ .free ∧
      (t.entry h).state ≠ .closing then
    (t.vacate h (t.entry h).emptied (t.hintAfterFree h),
      .ok ⟨(t.entry h).object, (t.entry h).type⟩)
  else (t, .error .badHandle)

/-- `t'` is `t` without the entry `h`, which owned a reference to `o`. -/
structure Removed (t t' : Table) (h : Nat) (o : ObjRef) : Prop where
  wf : t'.WF
  others : ∀ j, j ≠ h → t'.entry j = t.entry j
  live : o.object ≠ 0
  refs : ∀ k : ObjRef, k.object ≠ 0 → t.refs k = t'.refs k + if o = k then 1 else 0

theorem names_iff {e : Entry} : e.names k = true ↔ (⟨e.object, e.type⟩ : ObjRef) = k := by
  cases k
  simp [Entry.names]

theorem ite_names (e : Entry) (k : ObjRef) :
    (if e.names k then 1 else 0) = [(⟨e.object, e.type⟩ : ObjRef)].count k := by
  simp only [names_iff, count_singleton, beq_iff_eq]

theorem handleRemove_ok {o : ObjRef} (wf : t.WF)
    (removed : t.handleRemove h = (t', .ok o)) : Removed t t' h o := by
  obtain ⟨live, removed⟩ | ⟨-, ⟨⟩⟩ := ite_eq_iff.mp removed
  cases removed
  obtain ⟨inside, owned, used, -⟩ := live
  have used : Used (t.entry h) = true := by simpa [Used] using used
  refine ⟨wf.vacate inside used rfl (by simp [Owns, Entry.emptied]) _, ?_, owned, ?_⟩
  · intro j hj
    rw [entry_vacate, entry_put inside, if_neg hj]
  · intro k hk
    change t.refs k = (t.put h _).refs k + _
    rw [refs_put inside, not_names_of_object_eq_zero (e := (t.entry h).emptied) hk rfl]
    by_cases hit : (t.entry h).names k = true
    · have := countP_pos inside hit
      rw [if_pos hit, if_pos (names_iff.mp hit)]
      exact (Nat.sub_add_cancel this).symm
    · rw [if_neg hit, if_neg (mt names_iff.mpr hit)]
      rfl

theorem handleRemove_error (failed : t.handleRemove h = (t', .error e)) : t' = t := by
  obtain ⟨-, ⟨⟩⟩ | ⟨-, ⟨⟩⟩ := ite_eq_iff.mp failed
  rfl

end Table

end A20OS.Handle
