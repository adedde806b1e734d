import A20OS.Handle.Reserve

/-!
Limits on handles over time (`a20_handle_set_temporal`, `a20_handle_set_label`,
`a20_temporal_sweep`).

Limits are only tightened and labels only raised. The sweeper looks for open handles that ran
out of time or of uses: one that is to close itself is removed, any other is marked expired. A
sweep is a sequence of batches, so that objects are released outside of the table lock.
-/

namespace A20OS.Handle

open Lib

variable {e : Entry} {h : Nat} {t : Table}

/-- The handle has an object: it can be used, or it is expired and not closed yet. -/
def Entry.IsOpen (e : Entry) : Prop := e.state = .active ∨ e.state = .expired

/-- Both entries are open, on the same object. -/
structure Entry.SameObject (e e' : Entry) : Prop where
  isOpen : e'.IsOpen
  object : e'.object = e.object
  type : e'.type = e.type

theorem Entry.IsOpen.refl (isOpen : e.IsOpen) : e.SameObject e := ⟨isOpen, rfl, rfl⟩

theorem Entry.SameObject.trans {e₁ e₂ e₃ : Entry} (first : e₁.SameObject e₂)
    (second : e₂.SameObject e₃) : e₁.SameObject e₃ :=
  ⟨second.isOpen, second.object.trans first.object, second.type.trans first.type⟩

/-- The entry is open, on the object. -/
def Entry.OpenOn (e : Entry) (o : ObjRef) : Prop :=
  e.IsOpen ∧ e.object = o.object ∧ e.type = o.type

theorem Entry.IsOpen.used (isOpen : e.IsOpen) : Table.Used e = true := by
  rcases isOpen with active | expired
  · simp [Table.Used, active]
  · simp [Table.Used, expired]

/-! ### Limits and labels -/

/-- `A20_TEMPORAL_KNOWN_FLAGS`. -/
def temporalKnownFlags : TemporalFlags := expiryAbsolute ||| opCount ||| autoClose

/-- The new limits would lift one the entry has. -/
def Entry.lifts (e : Entry) (expiryTick remainingOps : Nat) (temporalFlags : TemporalFlags) :
    Bool :=
  e.temporalFlags &&& ~~~temporalFlags ≠ 0 ∨
    (e.temporalFlags &&& expiryAbsolute ≠ 0 ∧ 0 < e.expiryTick ∧
      (expiryTick = 0 ∨ e.expiryTick < expiryTick)) ∨
    (e.temporalFlags &&& opCount ≠ 0 ∧ e.remainingOps < remainingOps)

def Entry.limited (e : Entry) (expiryTick remainingOps : Nat) (temporalFlags : TemporalFlags) :
    Entry :=
  { e with
    expiryTick := if temporalFlags &&& expiryAbsolute ≠ 0 then expiryTick else e.expiryTick
    remainingOps := if temporalFlags &&& opCount ≠ 0 then remainingOps else e.remainingOps
    temporalFlags }

/-- The entry has run out of time or of uses. -/
def Entry.spent (now : Nat) (e : Entry) : Bool :=
  (e.temporalFlags &&& expiryAbsolute ≠ 0 ∧ 0 < e.expiryTick ∧ e.expiryTick ≤ now) ∨
    (e.temporalFlags &&& opCount ≠ 0 ∧ e.remainingOps = 0)

namespace Table

/-- `e->object == NULL || e->state != A20_HS_ACTIVE`, with the bound check before it. -/
def inactive (t : Table) (h : Nat) : Prop :=
  t.capacity ≤ h ∨ (t.entry h).object = 0 ∨ (t.entry h).state ≠ .active

instance (t : Table) (h : Nat) : Decidable (t.inactive h) := by
  unfold inactive; infer_instance

def handleSetTemporal (t : Table) (h : Nat) (expiryTick remainingOps : Nat)
    (temporalFlags : TemporalFlags) : Table × Except Status Unit :=
  if temporalFlags &&& ~~~temporalKnownFlags ≠ 0 then (t, .error .invalidArgument)
  else if t.inactive h then (t, .error .badHandle)
  else if (t.entry h).lifts expiryTick remainingOps temporalFlags then (t, .error .access)
  else (t.put h ((t.entry h).limited expiryTick remainingOps temporalFlags), .ok ())

def handleSetLabel (t : Table) (h : Nat) (label : Nat) : Table × Except Status Unit :=
  if 2 < label then (t, .error .invalidArgument)
  else if t.inactive h then (t, .error .badHandle)
  else if label < (t.entry h).securityLabel then (t, .error .access)
  else (t.put h { t.entry h with securityLabel := label }, .ok ())

/-! ### The sweeper -/

/-- `A20_SWEEP_BATCH`. -/
def sweepBatchSize : Nat := 16

/-- The loop body of `a20_temporal_sweep`; the object of a handle that closes itself is
released later. -/
def sweepOne (now : Nat) (t : Table) (h : Nat) : Table × Option ObjRef :=
  if (t.entry h).object = 0 ∨ (t.entry h).state ≠ .active then (t, none)
  else if ¬(t.entry h).spent now then (t, none)
  else if (t.entry h).temporalFlags &&& autoClose ≠ 0 then
    (t.vacate h (t.entry h).emptied (t.hintAfterFree h),
      some ⟨(t.entry h).object, (t.entry h).type⟩)
  else (t.put h { t.entry h with state := .expired, rights := 0 }, none)

/-- The loop goes on while the batch has room for one more object. -/
def sweepStep (now : Nat) (acc : Table × List ObjRef) (h : Nat) : Table × List ObjRef :=
  if acc.2.length < sweepBatchSize then
    ((sweepOne now acc.1 h).1, acc.2 ++ (sweepOne now acc.1 h).2.toList)
  else acc

/-- One pass over the table under its lock. -/
def sweepBatch (now : Nat) (t : Table) : Table × List ObjRef :=
  (List.range t.capacity).foldl (sweepStep now) (t, [])

/-! ### What they keep -/

/-- `t'` is `t` with some entries rewritten or removed: an open entry still has its
object or is free, any other entry is as it was. -/
structure Decayed (t t' : Table) : Prop where
  wf : t'.WF
  room : t'.capacity = t.capacity
  opened : ∀ h, (t.entry h).IsOpen → (t.entry h).SameObject (t'.entry h) ∨ Used (t'.entry h) = false
  others : ∀ h, ¬(t.entry h).IsOpen → t'.entry h = t.entry h
  quota : t'.maxHandles = t.maxHandles
  fewer : t'.count ≤ t.count

theorem Decayed.refl (wf : t.WF) : Decayed t t :=
  ⟨wf, rfl, fun _ isOpen => .inl isOpen.refl, fun _ _ => rfl, rfl, Nat.le_refl _⟩

theorem not_isOpen_of_unused (unused : Used e = false) : ¬e.IsOpen := by
  intro isOpen
  rw [isOpen.used] at unused
  cases unused

theorem Decayed.trans {t₁ t₂ t₃ : Table} (first : Decayed t₁ t₂) (second : Decayed t₂ t₃) :
    Decayed t₁ t₃ := by
  refine ⟨second.wf, second.room.trans first.room, ?_, ?_, second.quota.trans first.quota,
    Nat.le_trans second.fewer first.fewer⟩
  · intro h isOpen
    rcases first.opened h isOpen with same | unused
    · rcases second.opened h same.isOpen with same' | unused'
      · exact .inl (same.trans same')
      · exact .inr unused'
    · right
      rw [second.others h (not_isOpen_of_unused unused)]
      exact unused
  · intro h closed
    have kept := first.others h closed
    rw [second.others h (by rw [kept]; exact closed), kept]

/-- Rewriting an open entry in place, on the same object. -/
theorem WF.decay_put (wf : t.WF) (below : h < t.capacity)
    (isOpen : (t.entry h).IsOpen) (same : (t.entry h).SameObject e) : Decayed t (t.put h e) := by
  have owns : Owns e := by
    unfold Owns
    rw [same.object]
    exact ⟨fun _ => same.isOpen, fun _ => (wf.owns h).mpr isOpen⟩
  refine ⟨wf.put below (by rw [same.isOpen.used, isOpen.used]) owns, capacity_put, ?_, ?_, rfl,
    Nat.le_refl _⟩
  · intro j jOpen
    rw [entry_put below]
    by_cases here : j = h
    · rw [if_pos here, here]
      exact .inl same
    · rw [if_neg here]
      exact .inl jOpen.refl
  · intro j closed
    have elsewhere : j ≠ h := fun here => closed (here ▸ isOpen)
    rw [entry_put below, if_neg elsewhere]

theorem active_of_not_inactive (live : ¬t.inactive h) : h < t.capacity ∧ (t.entry h).IsOpen := by
  rw [inactive, not_or, not_or, not_not] at live
  exact ⟨Nat.lt_of_not_le live.1, .inl live.2.2⟩

/-- New limits are written into an active entry whose limits they do not lift, or nothing is. -/
theorem handleSetTemporal_cases (t : Table) (h expiryTick remainingOps : Nat)
    (temporalFlags : TemporalFlags) :
    (t.handleSetTemporal h expiryTick remainingOps temporalFlags).1 = t ∨
      h < t.capacity ∧ (t.entry h).IsOpen ∧
        (t.entry h).lifts expiryTick remainingOps temporalFlags = false ∧
        (t.handleSetTemporal h expiryTick remainingOps temporalFlags).1 =
          t.put h ((t.entry h).limited expiryTick remainingOps temporalFlags) := by
  unfold handleSetTemporal
  split
  · exact .inl rfl
  split
  · exact .inl rfl
  · next live =>
    split
    · exact .inl rfl
    · next keeps =>
      obtain ⟨below, isOpen⟩ := active_of_not_inactive live
      exact .inr ⟨below, isOpen, Bool.eq_false_iff.mpr keeps, rfl⟩

theorem handleSetLabel_cases (t : Table) (h label : Nat) :
    (t.handleSetLabel h label).1 = t ∨ h < t.capacity ∧ (t.entry h).IsOpen ∧
      (t.entry h).securityLabel ≤ label ∧
      (t.handleSetLabel h label).1 = t.put h { t.entry h with securityLabel := label } := by
  unfold handleSetLabel
  split
  · exact .inl rfl
  split
  · exact .inl rfl
  · next live =>
    split
    · exact .inl rfl
    · next higher =>
      obtain ⟨below, isOpen⟩ := active_of_not_inactive live
      exact .inr ⟨below, isOpen, Nat.le_of_not_lt higher, rfl⟩

theorem handleSetTemporal_decayed (wf : t.WF) {expiryTick remainingOps : Nat}
    {temporalFlags : TemporalFlags} :
    Decayed t (t.handleSetTemporal h expiryTick remainingOps temporalFlags).1 := by
  rcases handleSetTemporal_cases t h expiryTick remainingOps temporalFlags with
    same | ⟨below, isOpen, -, written⟩
  · rw [same]
    exact .refl wf
  · rw [written]
    exact wf.decay_put below isOpen ⟨isOpen, rfl, rfl⟩

theorem handleSetLabel_decayed (wf : t.WF) {label : Nat} :
    Decayed t (t.handleSetLabel h label).1 := by
  rcases handleSetLabel_cases t h label with same | ⟨below, isOpen, -, written⟩
  · rw [same]
    exact .refl wf
  · rw [written]
    exact wf.decay_put below isOpen ⟨isOpen, rfl, rfl⟩

/-- Giving up an open entry. -/
theorem WF.decay_vacate (wf : t.WF) (below : h < t.capacity) (isOpen : (t.entry h).IsOpen)
    (hint : Nat) : Decayed t (t.vacate h (t.entry h).emptied hint) := by
  refine ⟨wf.vacate below isOpen.used rfl (by simp [Owns, Entry.emptied]) hint,
    capacity_put, ?_, ?_, rfl, Nat.sub_le _ _⟩
  · intro j jOpen
    rw [entry_vacate, entry_put below]
    by_cases here : j = h
    · rw [if_pos here]
      exact .inr rfl
    · rw [if_neg here]
      exact .inl jOpen.refl
  · intro j closed
    have elsewhere : j ≠ h := fun here => closed (here ▸ isOpen)
    rw [entry_vacate, entry_put below, if_neg elsewhere]

variable {now : Nat}

theorem sweepOne_decayed (wf : t.WF) (below : h < t.capacity) : Decayed t (sweepOne now t h).1 := by
  unfold sweepOne
  by_cases inactive : (t.entry h).object = 0 ∨ (t.entry h).state ≠ .active
  · rw [if_pos inactive]
    exact .refl wf
  rw [if_neg inactive]
  rw [not_or, not_not] at inactive
  have isOpen : (t.entry h).IsOpen := .inl inactive.2
  by_cases spent : ¬(t.entry h).spent now = true
  · rw [if_pos spent]
    exact .refl wf
  rw [if_neg spent]
  by_cases closes : (t.entry h).temporalFlags &&& autoClose ≠ 0
  · rw [if_pos closes]
    exact wf.decay_vacate below isOpen _
  · rw [if_neg closes]
    exact wf.decay_put below isOpen ⟨.inr rfl, rfl, rfl⟩

/-- What the sweep of every entry keeps, a pass over the table keeps. -/
theorem sweepBatch_induct {P : Table → Prop} (start : P t)
    (kept : ∀ {g : Table} {h : Nat}, P g → h < t.capacity → P (sweepOne now g h).1) :
    P (t.sweepBatch now).1 := by
  refine List.foldlRecOn (motive := fun acc => P acc.1) (b := (t, [])) (List.range t.capacity)
    (sweepStep now) start fun acc before h member => ?_
  unfold sweepStep
  split
  · exact kept before (List.mem_range.mp member)
  · exact before

theorem sweepBatch_decayed (wf : t.WF) : Decayed t (t.sweepBatch now).1 :=
  sweepBatch_induct (P := Decayed t) (.refl wf) fun before below =>
    before.trans (sweepOne_decayed before.wf (before.room ▸ below))

end Table

end A20OS.Handle
