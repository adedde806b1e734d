import A20OS.Handle.Ops

/-!
Reserving slots for a receive (`a20_handle_reserve_many` and its commit and abort).

A receive takes its slots before it dequeues the message, so that a full table leaves
the message queued. A reserved slot is in use but owns no object: it is invisible to
lookups and removals until it is committed.
-/

namespace A20OS.Handle.Table

open Lib

variable {t t' : Table} {handles : List Nat} {h slot : Nat}

/-! ### Reserving -/

/-- Mark a free slot as reserved. -/
def reserveOne (t : Table) (slot : Nat) : Table :=
  t.occupy slot { t.entry slot with state := .closing } (slot + 1)

/-- Up to `n` allocations; stops at the first that finds no slot. -/
def reserveLoop : Nat → Table → Table × List Nat
  | 0, t => (t, [])
  | n + 1, t =>
      match t.freeSlot with
      | some slot =>
          let (t', rest) := reserveLoop n (t.reserveOne slot)
          (t', slot :: rest)
      | none => (t, [])

def abortOne (t : Table) (h : Nat) : Table :=
  if t.capacity ≤ h ∨ (t.entry h).state ≠ .closing ∨ (t.entry h).object ≠ 0 then t
  else t.vacate h { t.entry h with state := .free } (t.hintAfterFree h)

def handleAbortReserved (t : Table) (handles : List Nat) : Table := handles.foldl abortOne t

/-- Grow once when fewer than `n` slots are unused. -/
def makeRoom (mem : Nat → Bool) (t : Table) (n : Nat) : Table :=
  if t.capacity - t.count < n then
    match t.grow mem with
    | .ok t => t
    | .error _ => t
  else t

def handleReserveMany (mem : Nat → Bool) (t : Table) (n : Nat) :
    Table × Except Status (List Nat) :=
  if n = 0 then (t, .ok [])
  else
    let t := t.makeRoom mem n
    if t.capacity - t.count < n then (t, .error .noSpace)
    else
      let (t, handles) := t.reserveLoop n
      if handles.length < n then (t.handleAbortReserved handles, .error .noSpace)
      else (t, .ok handles)

/-- The slot is reserved: it waits for a commit or an abort. -/
structure Pending (t : Table) (h : Nat) : Prop where
  below : h < t.capacity
  closing : (t.entry h).state = .closing
  object : (t.entry h).object = 0

/-- The guard shared by commit and abort. -/
theorem pending_iff :
    ¬(t.capacity ≤ h ∨ (t.entry h).state ≠ .closing ∨ (t.entry h).object ≠ 0) ↔ t.Pending h := by
  constructor
  · intro skip
    rw [not_or, not_or, not_not, not_not] at skip
    exact ⟨Nat.lt_of_not_le skip.1, skip.2.1, skip.2.2⟩
  · rintro ⟨below, closing, unowned⟩
    rw [not_or, not_or, not_not, not_not]
    exact ⟨Nat.not_le_of_lt below, closing, unowned⟩

/-- `t'` is `t` with the free slots `handles` reserved. -/
structure Reserved (t t' : Table) (handles : List Nat) : Prop where
  wf : t'.WF
  distinct : handles.Nodup
  fresh : ∀ h ∈ handles, Used (t.entry h) = false
  pending : ∀ h ∈ handles, t'.Pending h
  others : ∀ h, h ∉ handles → t'.entry h = t.entry h
  refs : ∀ k : ObjRef, k.object ≠ 0 → t'.refs k = t.refs k

theorem Grown.reserved (grown : Grown t t') : Reserved t t' [] := by
  refine ⟨grown.wf, List.nodup_nil, ?_, ?_, fun h _ => grown.entry h, grown.refs⟩
  · intro h hh; cases hh
  · intro h hh; cases hh

theorem reserveOne_installed (wf : t.WF) (below : slot < t.capacity)
    (free : Used (t.entry slot) = false) :
    Installed t (t.reserveOne slot) slot { t.entry slot with state := .closing } := by
  have unowned := wf.object_eq_zero free
  exact (Grown.refl wf).occupy below free rfl (by simp [Owns, unowned]) _

/-- One slot is reserved, and then the others. -/
theorem Reserved.cons (wf : t.WF) (below : slot < t.capacity) (free : Used (t.entry slot) = false)
    (rest : Reserved (t.reserveOne slot) t' handles) : Reserved t t' (slot :: handles) := by
  have unowned := wf.object_eq_zero free
  have first := reserveOne_installed wf below free
  have here : (t.reserveOne slot).entry slot = { t.entry slot with state := .closing } := by
    rw [first.entry, if_pos rfl]
  -- The first slot is in use once it is reserved, so the rest avoid it.
  have apart : slot ∉ handles := by
    intro again
    have reused := rest.fresh slot again
    rw [here] at reused
    cases reused
  have later : t'.entry slot = { t.entry slot with state := .closing } := by
    rw [rest.others slot apart, here]
  refine ⟨rest.wf, List.nodup_cons.mpr ⟨apart, rest.distinct⟩, ?_, ?_, ?_, ?_⟩
  · refine List.forall_mem_cons.mpr ⟨free, fun h hh => ?_⟩
    have hfree := rest.fresh h hh
    rwa [first.entry, if_neg (ne_of_mem_of_not_mem hh apart)] at hfree
  · refine List.forall_mem_cons.mpr
      ⟨⟨?_, by rw [later], by rw [later]; exact unowned⟩, rest.pending⟩
    by_contra past
    rw [entry_of_capacity_le (Nat.le_of_not_lt past)] at later
    exact absurd (congrArg Entry.state later) (by simp [Entry.zero])
  · intro h hh
    rw [List.mem_cons, not_or] at hh
    rw [rest.others h hh.2, first.entry, if_neg hh.1]
  · intro k hk
    rw [rest.refs k hk, first.refs k hk,
      not_names_of_object_eq_zero (e := { t.entry slot with state := .closing }) hk unowned]
    rfl

theorem reserveLoop_reserved (n : Nat) :
    ∀ {t t' : Table} {handles : List Nat}, t.WF → t.reserveLoop n = (t', handles) →
      Reserved t t' handles := by
  induction n with
  | zero =>
    intro t t' handles wf h
    cases h
    exact (Grown.refl wf).reserved
  | succ n ih =>
    intro t t' handles wf h
    rw [reserveLoop] at h
    cases found : t.freeSlot with
    | none =>
      rw [found] at h
      cases h
      exact (Grown.refl wf).reserved
    | some slot =>
      rw [found] at h
      obtain ⟨below, free⟩ := freeSlot_some wf found
      have first := reserveOne_installed wf below free
      cases h
      exact (ih first.wf rfl).cons wf below free

theorem length_reserveLoop_le (n : Nat) : ∀ t : Table, (t.reserveLoop n).2.length ≤ n := by
  induction n with
  | zero => exact fun _ => Nat.le_refl 0
  | succ n ih =>
    intro t
    rw [reserveLoop]
    cases t.freeSlot with
    | none => exact Nat.zero_le _
    | some slot => exact Nat.succ_le_succ (ih _)

/-! ### Aborting and committing -/

/-- `t'` is `t` with some of the reserved slots `handles` given back. -/
structure Aborted (t t' : Table) (handles : List Nat) : Prop where
  wf : t'.WF
  others : ∀ h, h ∉ handles → t'.entry h = t.entry h
  refs : ∀ k : ObjRef, k.object ≠ 0 → t'.refs k = t.refs k

theorem abortOne_aborted (wf : t.WF) (h : Nat) : Aborted t (t.abortOne h) [h] := by
  unfold abortOne
  by_cases skip : t.capacity ≤ h ∨ (t.entry h).state ≠ .closing ∨ (t.entry h).object ≠ 0
  · rw [if_pos skip]
    exact ⟨wf, fun _ _ => rfl, fun _ _ => rfl⟩
  rw [if_neg skip]
  obtain ⟨below, closing, unowned⟩ := pending_iff.mp skip
  have used : Used (t.entry h) = true := by simp [Used, closing]
  refine ⟨wf.vacate below used rfl (by simp [Owns, unowned]) _, ?_, ?_⟩
  · intro j hj
    rw [entry_vacate, entry_put below, if_neg (List.ne_of_not_mem_cons hj)]
  · intro k hk
    change (t.put h _).refs k = _
    rw [refs_put below, not_names_of_object_eq_zero hk unowned,
      not_names_of_object_eq_zero (e := { t.entry h with state := .free }) hk unowned]
    rfl

theorem handleAbortReserved_aborted (handles : List Nat) :
    ∀ {t : Table}, t.WF → Aborted t (t.handleAbortReserved handles) handles := by
  induction handles with
  | nil => exact fun wf => ⟨wf, fun _ _ => rfl, fun _ _ => rfl⟩
  | cons h handles ih =>
    intro t wf
    have first := abortOne_aborted wf h
    have rest := ih first.wf
    refine ⟨rest.wf, ?_, fun k hk => (rest.refs k hk).trans (first.refs k hk)⟩
    intro j hj
    rw [List.mem_cons, not_or] at hj
    exact (rest.others j hj.2).trans (first.others j (by simp [hj.1]))

theorem makeRoom_grows (mem : Nat → Bool) (t : Table) (n : Nat) :
    Grows mem t (t.makeRoom mem n) := by
  unfold makeRoom
  by_cases short : t.capacity - t.count < n
  · rw [if_pos short]
    cases grown : t.grow mem with
    | ok g => exact .single grown
    | error e => exact .refl
  · rw [if_neg short]
    exact .refl

theorem Grown.reserved_trans {g : Table} (grown : Grown t g)
    (reserved : Reserved g t' handles) : Reserved t t' handles :=
  { reserved with
    fresh := fun h hh => by rw [← grown.entry]; exact reserved.fresh h hh
    others := fun h hh => (reserved.others h hh).trans (grown.entry h)
    refs := fun k hk => (reserved.refs k hk).trans (grown.refs k hk) }

variable {mem : Nat → Bool} {n : Nat} {rights : Rights} {limits : Limits}

/-- What a reservation comes to: there is too little room, or slots are taken, and given
back where the search ended before it had found as many as were asked for. -/
theorem handleReserveMany_cases {result : Except Status (List Nat)}
    (done : t.handleReserveMany mem n = (t', result)) :
    ∃ g, Grows mem t g ∧ (t' = g ∧ result = .error .noSpace ∨
      ∃ r handles, g.reserveLoop n = (r, handles) ∧
        (t' = r.handleAbortReserved handles ∧ result = .error .noSpace ∨
          handles.length = n ∧ t' = r ∧ result = .ok handles)) := by
  obtain ⟨rfl, ⟨⟩⟩ | ⟨-, done⟩ := ite_eq_iff.mp done
  · exact ⟨t, .refl, .inr ⟨t, [], rfl, .inr ⟨rfl, rfl, rfl⟩⟩⟩
  refine ⟨t.makeRoom mem n, makeRoom_grows mem t n, ?_⟩
  obtain ⟨-, ⟨⟩⟩ | ⟨-, done⟩ := ite_eq_iff.mp done
  · exact .inl ⟨rfl, rfl⟩
  refine .inr ⟨_, _, rfl, ?_⟩
  obtain ⟨-, ⟨⟩⟩ | ⟨enough, ⟨⟩⟩ := ite_eq_iff.mp done
  · exact .inl ⟨rfl, rfl⟩
  · exact .inr ⟨Nat.le_antisymm (length_reserveLoop_le n _) (Nat.le_of_not_lt enough), rfl, rfl⟩

theorem handleReserveMany_ok (wf : t.WF)
    (reserved : t.handleReserveMany mem n = (t', .ok handles)) :
    Reserved t t' handles ∧ handles.length = n := by
  obtain ⟨g, grows, ⟨-, ⟨⟩⟩ | ⟨r, hs, looped, ⟨-, ⟨⟩⟩ | ⟨length, rfl, ⟨⟩⟩⟩⟩ :=
    handleReserveMany_cases reserved
  have grown := grows.grown wf
  exact ⟨grown.reserved_trans (reserveLoop_reserved n grown.wf looped), length⟩

theorem handleReserveMany_error {e : Status} (wf : t.WF)
    (failed : t.handleReserveMany mem n = (t', .error e)) :
    t'.WF ∧ ∀ k : ObjRef, k.object ≠ 0 → t'.refs k = t.refs k := by
  obtain ⟨g, grows, ⟨rfl, -⟩ | ⟨r, hs, looped, ⟨rfl, -⟩ | ⟨-, -, ⟨⟩⟩⟩⟩ :=
    handleReserveMany_cases failed
  · have grown := grows.grown wf
    exact ⟨grown.wf, grown.refs⟩
  · have grown := grows.grown wf
    have reserved := grown.reserved_trans (reserveLoop_reserved n grown.wf looped)
    have aborted := handleAbortReserved_aborted hs reserved.wf
    exact ⟨aborted.wf, fun k hk => (aborted.refs k hk).trans (reserved.refs k hk)⟩

def handleCommitReservedTemporal (t : Table) (h : Nat) (object : Nat) (type : ObjType)
    (rights : Rights) (limits : Limits) : Table × Except Status Unit :=
  if t.capacity ≤ h ∨ (t.entry h).state ≠ .closing ∨ (t.entry h).object ≠ 0 then
    (t, .error .badHandle)
  else (t.put h (.opened object type rights limits), .ok ())

/-- `t'` is `t` with the reserved slot `h` given the entry `e`. -/
structure Committed (t t' : Table) (h : Nat) (e : Entry) : Prop where
  wf : t'.WF
  room : t'.capacity = t.capacity
  entry : ∀ j, t'.entry j = if j = h then e else t.entry j
  refs : ∀ k : ObjRef, k.object ≠ 0 → t'.refs k = t.refs k + if e.names k then 1 else 0

theorem handleCommitReservedTemporal_ok {object : Nat} {type : ObjType} {u : Unit} (wf : t.WF)
    (hobject : object ≠ 0)
    (committed : t.handleCommitReservedTemporal h object type rights limits = (t', .ok u)) :
    Committed t t' h (.opened object type rights limits) := by
  obtain ⟨-, ⟨⟩⟩ | ⟨skip, ⟨⟩⟩ := ite_eq_iff.mp committed
  obtain ⟨below, closing, unowned⟩ := pending_iff.mp skip
  have used : Used (Entry.opened object type rights limits) = Used (t.entry h) := by
    simp [Used, Entry.opened, closing]
  refine ⟨wf.put below used (owns_opened hobject type rights limits), capacity_put,
    entry_put below _, ?_⟩
  intro k hk
  rw [refs_put below, not_names_of_object_eq_zero hk unowned]
  rfl

theorem handleCommitReservedTemporal_error {object : Nat} {type : ObjType} {e : Status}
    (failed : t.handleCommitReservedTemporal h object type rights limits = (t', .error e)) :
    t' = t := by
  obtain ⟨-, failed⟩ | ⟨-, ⟨⟩⟩ := ite_eq_iff.mp failed
  cases failed
  rfl

end A20OS.Handle.Table
