import A20OS.Handle.Runs
import Mathlib.Data.ENat.Basic

/-!
The limits of a handle only tighten.

Lookups, new limits, new labels and sweeps, at ticks that do not go back, never give a handle
more than it had (`Tighter`). `a20_effective_rights` goes by the expiry alone, while
`a20_handle_set_temporal` protects an expiry only together with its flag. No entry has an expiry
without the flag (`Tables.run_flagged`): it is set with it, and installs copy all the limits.
-/

namespace A20OS.Handle

open Lib

variable {e e' : Entry} {h j now now' : Nat} {t t' : Table} {op : Table.Op} {l : Limits}

/-- The tick from which on the entry has no rights. -/
def Entry.deadline (e : Entry) : ENat := if 0 < e.expiryTick then e.expiryTick else ⊤

/-- How often the entry can still be used. -/
def Entry.uses (e : Entry) : ENat := if e.opLimited then e.remainingOps else ⊤

theorem uses_of_limited (limited : e.opLimited = true) : e.uses = e.remainingOps := if_pos limited

theorem uses_of_unlimited (unlimited : ¬e.opLimited = true) : e.uses = ⊤ := if_neg unlimited

/-- An expiry comes with its flag. -/
def Limits.Flagged (l : Limits) : Prop := 0 < l.expiryTick → l.temporalFlags &&& expiryAbsolute ≠ 0

theorem effectiveRights_eq :
    effectiveRights now e = if e.deadline ≤ now ∨ e.uses = 0 then 0 else e.rights := by
  have past : e.deadline ≤ now ↔ 0 < e.expiryTick ∧ e.expiryTick ≤ now := by
    unfold Entry.deadline
    split <;> simp_all
  have used : e.uses = 0 ↔ e.opLimited ∧ e.remainingOps = 0 := by
    unfold Entry.uses
    split <;> simp_all
  simp only [past, used, ite_or]
  rfl

/-- `e'` allows no more than `e`. -/
structure Tighter (e e' : Entry) : Prop where
  rights : e'.rights.Within e.rights
  flagged : e.Flagged → e'.Flagged
  deadline : e.Flagged → e'.deadline ≤ e.deadline
  uses : e'.uses ≤ e.uses
  flags : e.temporalFlags &&& ~~~e'.temporalFlags = 0
  label : e.securityLabel ≤ e'.securityLabel

theorem Tighter.refl (e : Entry) : Tighter e e :=
  ⟨Rights.within_refl _, id, fun _ => le_rfl, le_rfl, by simp, le_rfl⟩

theorem Tighter.trans {e'' : Entry} (first : Tighter e e') (second : Tighter e' e'') :
    Tighter e e'' where
  rights := second.rights.trans first.rights
  flagged := second.flagged ∘ first.flagged
  deadline flagged := (second.deadline (first.flagged flagged)).trans (first.deadline flagged)
  uses := second.uses.trans first.uses
  flags := and_not_eq_zero_iff.mpr fun i set =>
    and_not_eq_zero_iff.mp second.flags i (and_not_eq_zero_iff.mp first.flags i set)
  label := first.label.trans second.label

theorem Tighter.effective (tighter : Tighter e e') (flagged : e.Flagged) (later : now ≤ now') :
    (effectiveRights now' e').Within (effectiveRights now e) := by
  rw [effectiveRights_eq, effectiveRights_eq]
  split
  · exact Rights.zero_within _
  · next usable =>
    rw [if_neg]
    · exact tighter.rights
    rintro (past | used)
    · refine usable (.inl ((tighter.deadline flagged).trans (past.trans ?_)))
      exact Nat.cast_le.mpr later
    · exact usable (.inr (nonpos_iff_eq_zero.mp (used ▸ tighter.uses)))

/-! ### The operations -/

/-- A flag that is set stays set when no flag is cleared. -/
theorem and_ne_zero_of_kept {a b flag : TemporalFlags} (kept : a &&& ~~~b = 0)
    (set : a &&& flag ≠ 0) : b &&& flag ≠ 0 := by
  intro clear
  apply set
  have part : a &&& b = a := BitVec.eq_of_getLsbD_eq fun i _ => by
    have bit := and_not_eq_zero_iff.mp kept i
    cases here : a.getLsbD i <;> simp_all
  rw [← part, BitVec.and_assoc, clear]
  exact BitVec.and_zero

theorem tighter_limited {expiryTick remainingOps : Nat} {temporalFlags : TemporalFlags}
    (keeps : e.lifts expiryTick remainingOps temporalFlags = false) :
    Tighter e (e.limited expiryTick remainingOps temporalFlags) := by
  simp only [Entry.lifts, decide_eq_false_iff_not, not_or, not_and, Nat.not_lt, not_not] at keeps
  obtain ⟨flags, sooner, fewer⟩ := keeps
  have expiryKept := @and_ne_zero_of_kept _ _ expiryAbsolute flags
  have countKept := @and_ne_zero_of_kept _ _ opCount flags
  refine ⟨Rights.within_refl _, ?_, ?_, ?_, flags, le_rfl⟩
  · simp only [Limits.Flagged, Entry.limited]
    grind
  -- without the flag on `e` nothing would bound the new expiry
  · intro flagged
    by_cases future : 0 < e.expiryTick
    · have set := flagged future
      obtain ⟨future', sooner⟩ := sooner set future
      rw [Entry.deadline, Entry.limited, if_pos (expiryKept set), Entry.deadline, if_pos future]
      exact if_pos (Nat.pos_of_ne_zero future') ▸ Nat.cast_le.mpr sooner
    · rw [Entry.deadline.eq_1 e, if_neg future]
      exact le_top
  · by_cases limited : e.opLimited = true
    · have set := of_decide_eq_true limited
      have still : (e.limited expiryTick remainingOps temporalFlags).opLimited = true :=
        decide_eq_true (countKept set)
      rw [uses_of_limited still, uses_of_limited limited, Entry.limited, if_pos (countKept set)]
      exact Nat.cast_le.mpr (fewer set)
    · rw [uses_of_unlimited limited]
      exact le_top

theorem uses_spend (limited : e.opLimited = true) :
    Entry.uses { e with remainingOps := e.remainingOps - 1 } = (e.remainingOps - 1 : Nat) :=
  if_pos limited

theorem charged_uses (left : e.uses ≠ 0) : e.charged.uses + 1 ≤ e.uses := by
  by_cases limited : e.opLimited = true
  · rw [uses_of_limited limited, Nat.cast_ne_zero] at left
    have pos := Nat.pos_of_ne_zero left
    rw [Entry.charged, if_pos ⟨limited, pos⟩, uses_spend limited, uses_of_limited limited]
    exact_mod_cast (Nat.sub_add_cancel pos).le
  · rw [uses_of_unlimited limited]
    exact le_top

theorem tighter_charged (e : Entry) : Tighter e e.charged := by
  unfold Entry.charged
  split
  · next limited =>
    refine { Tighter.refl e with uses := ?_ }
    rw [uses_spend limited.1, uses_of_limited limited.1]
    exact Nat.cast_le.mpr (Nat.sub_le _ _)
  · exact .refl e

theorem tighter_state (state : HandleState) : Tighter e { e with state } :=
  { Tighter.refl e with rights := Rights.within_refl _ }

namespace Table

theorem tighter_put (tighter : Tighter (t.entry h) e) (j : Nat) :
    Tighter (t.entry j) ((t.put h e).entry j) := by
  by_cases below : h < t.capacity
  · rw [entry_put below]
    split
    · next here => exact here ▸ tighter
    · exact .refl _
  · rw [put, List.set_eq_of_length_le (not_lt.mp below)]
    exact .refl _

theorem sweepOne_tighter : Tighter (t.entry j) ((sweepOne now t h).1.entry j) := by
  unfold sweepOne
  split
  · exact .refl _
  split
  · exact .refl _
  split
  all_goals
    refine tighter_put ?_ j
    exact { Tighter.refl (t.entry h) with rights := Rights.zero_within _ }

theorem reserveLoop_tighter (n : Nat) : ∀ {t t' : Table} {handles : List Nat},
    t.reserveLoop n = (t', handles) → Tighter (t.entry j) (t'.entry j) := by
  induction n with
  | zero =>
    intro t t' handles done
    cases done
    exact .refl _
  | succ n ih =>
    intro t t' handles done
    rw [reserveLoop] at done
    cases found : t.freeSlot with
    | none =>
      rw [found] at done
      cases done
      exact .refl _
    | some slot =>
      rw [found] at done
      cases done
      have first : Tighter (t.entry j) ((t.reserveOne slot).entry j) :=
        tighter_put (tighter_state _) j
      exact first.trans (ih rfl)

theorem handleAbortReserved_tighter (handles : List Nat) :
    Tighter (t.entry j) ((t.handleAbortReserved handles).entry j) := by
  refine List.foldlRecOn (motive := fun g => Tighter (t.entry j) (g.entry j)) handles abortOne
    (.refl _) fun g before h _ => before.trans ?_
  unfold abortOne
  split
  · exact .refl _
  · exact tighter_put (tighter_state _) j

theorem Grown.tighter (grown : Grown t t') (j : Nat) : Tighter (t.entry j) (t'.entry j) :=
  grown.entry j ▸ .refl _

/-- The limits of the entry that an operation makes. -/
def Op.limits : Op → Option Limits
  | .install .. => some {}
  | .installTemporal _ _ _ _ limits | .installAt _ _ _ _ _ limits
  | .commitReserved _ _ _ _ limits => some limits
  | _ => none

theorem after_tighter (wf : t.WF) (plain : op.limits = none) (j : Nat) :
    Tighter (t.entry j) ((t.after op).entry j) := by
  cases op with
  | install | installTemporal | installAt | commitReserved => cases plain
  | lookup tick h expectedType requiredRights =>
    rw [after, handleLookup]
    split
    · exact .refl _
    · exact tighter_put (tighter_charged _) j
  | remove h =>
    rw [after, handleRemove]
    split
    · refine tighter_put ?_ j
      exact { Tighter.refl (t.entry h) with rights := Rights.zero_within _ }
    · exact .refl _
  | reserveMany mem n =>
    rw [after]
    cases done : t.handleReserveMany mem n with
    | mk t' result =>
      obtain ⟨g, grows, ⟨rfl, -⟩ | ⟨r, handles, looped, ended⟩⟩ := handleReserveMany_cases done
      · exact (grows.grown wf).tighter j
      have taken := ((grows.grown wf).tighter j).trans (reserveLoop_tighter n looped)
      rcases ended with ⟨rfl, -⟩ | ⟨-, rfl, -⟩
      · exact taken.trans (handleAbortReserved_tighter handles)
      · exact taken
  | abortReserved handles => exact handleAbortReserved_tighter handles
  | setTemporal h expiryTick remainingOps temporalFlags =>
    rw [after]
    rcases handleSetTemporal_cases t h expiryTick remainingOps temporalFlags with
      same | ⟨-, -, keeps, written⟩
    · rw [same]
      exact .refl _
    · rw [written]
      exact tighter_put (tighter_limited keeps) j
  | setLabel h label =>
    rw [after]
    rcases handleSetLabel_cases t h label with same | ⟨-, -, higher, written⟩
    · rw [same]
      exact .refl _
    · rw [written]
      refine tighter_put ?_ j
      exact { Tighter.refl (t.entry h) with label := higher }
  | sweepBatch tick =>
    exact sweepBatch_induct (P := fun t' => Tighter (t.entry j) (t'.entry j)) (.refl _)
      fun before _ => before.trans sweepOne_tighter
  | grow mem =>
    rw [after]
    cases grown : t.grow mem with
    | error e => exact .refl _
    | ok g => exact (grow_ok wf grown).tighter j

theorem Installed.limits {slot : Nat} {object : Nat} {type : ObjType} {rights : Rights}
    (installed : Installed t t' slot (.opened object type rights l)) (j : Nat) :
    t'.entry j = t.entry j ∨ (t'.entry j).toLimits = l := by
  rw [installed.entry]
  split
  · exact .inr rfl
  · exact .inl rfl

theorem after_limits (wf : t.WF) (installs : op.limits = some l) (j : Nat) :
    (t.after op).entry j = t.entry j ∨ ((t.after op).entry j).toLimits = l := by
  cases op with
  | install mem object | installTemporal mem object =>
    cases installs
    exact of_result (P := fun t' => t'.entry j = t.entry j ∨ (t'.entry j).toLimits = _)
      (fun failed => .inl ((handleInstallTemporal_error wf failed).entry j))
      fun done => (handleInstallTemporal_ok wf object.2 done).limits j
  | installAt mem slot object =>
    cases installs
    exact of_result (P := fun t' => t'.entry j = t.entry j ∨ (t'.entry j).toLimits = _)
      (fun failed => .inl ((handleInstallAtTemporal_error wf failed).entry j))
      fun done => (handleInstallAtTemporal_ok wf object.2 done).2.limits j
  | commitReserved h object =>
    cases installs
    rw [after, handleCommitReservedTemporal]
    split
    · exact .inl rfl
    · next pending =>
      rw [entry_put (pending_iff.mp pending).below]
      split
      · exact .inr rfl
      · exact .inl rfl
  | _ => cases installs

/-! ### Expiries come with their flag -/

/-- The tables of all processes, and the limits that calls and messages have copied from
entries. -/
structure Tables where
  table : Nat → Table := fun _ => create
  copied : List Limits := [{}]

inductive Tables.Label where
  | op (p : Nat) (op : Op)
  | copy (p h : Nat)

/-- Limits are installed as they were copied: by a dup, a derivation, a clone, a granted
memory object and a received message. -/
def Tables.step (s : Tables) : Label → Option Tables
  | .op p op =>
      if ∀ l ∈ op.limits, l ∈ s.copied then
        some { s with table := Function.update s.table p ((s.table p).after op) }
      else none
  | .copy p h => some { s with copied := ((s.table p).entry h).toLimits :: s.copied }

/-- Every expiry that is kept in an entry or carried has its flag. -/
structure Tables.Sound (s : Tables) : Prop where
  wf : ∀ p, (s.table p).WF
  entry : ∀ p h, ((s.table p).entry h).Flagged
  copied : ∀ l ∈ s.copied, l.Flagged

theorem after_flagged (wf : t.WF) (flagged : ∀ h, (t.entry h).Flagged)
    (limits : ∀ l ∈ op.limits, l.Flagged) (h : Nat) : ((t.after op).entry h).Flagged := by
  cases installs : op.limits with
  | none => exact (after_tighter wf installs h).flagged (flagged h)
  | some l =>
    rcases after_limits wf installs h with same | copied
    · exact same ▸ flagged h
    · exact copied ▸ limits l installs

theorem Tables.Sound.step {s s' : Tables} {a : Tables.Label} (sound : s.Sound)
    (taken : s.step a = some s') : s'.Sound := by
  cases a with
  | op p op =>
    obtain ⟨copies, ⟨⟩⟩ := Option.ite_none_right_eq_some.mp taken
    have limits : ∀ l ∈ op.limits, l.Flagged := fun l member => sound.copied l (copies l member)
    refine ⟨fun q => ?_, fun q h => ?_, sound.copied⟩ <;> by_cases here : q = p
    · subst here
      simpa using (after_kept (sound.wf q) op).wf
    · simpa [here] using sound.wf q
    · subst here
      simpa using after_flagged (sound.wf q) (sound.entry q) limits h
    · simpa [here] using sound.entry q h
  | copy p h =>
    cases taken
    exact { sound with copied := List.forall_mem_cons.mpr ⟨sound.entry p h, sound.copied⟩ }

theorem Tables.run_flagged {s : Tables} (run : RunsTo Tables.step always {} s) : s.Sound := by
  refine run.invariant (fun sound _ taken => sound.step taken)
    ⟨fun _ => create_wf, fun _ h => ?_, ?_⟩
  · exact entry_create h ▸ fun expires => absurd expires (Nat.lt_irrefl 0)
  · simp [Limits.Flagged]

/-! ### Uses -/

/-- The operations that only take from handles, at ticks from `now` on. -/
def Decays (now : Nat) : Op → Prop
  | .lookup tick _ _ _ | .sweepBatch tick => now ≤ tick
  | .setTemporal .. | .setLabel .. => True
  | _ => False

theorem Decays.limits (decays : Decays now op) : op.limits = none := by
  cases op <;> first | rfl | cases decays

/-- A successful lookup of `h` that asks for rights. -/
def serves (h : Nat) (t : Table) : Op → Bool
  | .lookup now j expectedType requiredRights =>
      j = h ∧ requiredRights ≠ 0 ∧ t.lookupDenied now j expectedType requiredRights = none
  | _ => false

theorem serves_spends (served : t.serves h op = true) :
    ((t.after op).entry h).uses + 1 ≤ (t.entry h).uses := by
  cases op with
  | lookup now j expectedType requiredRights =>
    obtain ⟨rfl, asks, passed⟩ := of_decide_eq_true served
    obtain ⟨below, -, -, -, allowed⟩ := lookupDenied_none passed
    -- without a use left there are no rights to ask for
    have left : (t.entry j).uses ≠ 0 := by
      intro none
      rw [effectiveRights_eq, if_pos (.inr none)] at allowed
      exact asks (BitVec.and_allOnes.symm.trans allowed)
    rw [after, handleLookup, passed, entry_put below, if_pos rfl]
    exact charged_uses left
  | _ => cases served

/-! ### Runs -/

/-- A table, the tick of its last operation and the lookups of one handle that it served. -/
structure Watch where
  now : Nat
  table : Table
  served : Nat

/-- The operation runs at its own tick if it reads the clock. -/
def Watch.step (h : Nat) (s : Watch) (op : Op) : Option Watch :=
  some
    { now := match op with | .lookup tick _ _ _ | .sweepBatch tick => tick | _ => s.now
      table := s.table.after op
      served := s.served + (s.table.serves h op).toNat }

/-- Steps at ticks that do not go back. -/
def Watch.decays (s : Watch) (op : Op) : Prop := Decays s.now op

/-- `s'` is not before `s`, its entry is no looser, and every lookup that was served in
between has cost a use. -/
structure Watch.Later (h : Nat) (s s' : Watch) : Prop where
  now : s.now ≤ s'.now
  tighter : Tighter (s.table.entry h) (s'.table.entry h)
  spent : s'.served + (s'.table.entry h).uses ≤ s.served + (s.table.entry h).uses

theorem Watch.run_later {s s' : Watch} (wf : s.table.WF)
    (run : RunsTo (Watch.step h) Watch.decays s s') : s'.table.WF ∧ Later h s s' := by
  refine RunsTo.invariant (P := fun t => t.table.WF ∧ Later h s t) ?_ run
    ⟨wf, le_rfl, .refl _, le_rfl⟩
  intro t t' op ⟨wf, before⟩ decays taken
  cases taken
  have tighter := after_tighter wf decays.limits h
  refine ⟨(after_kept wf op).wf, before.now.trans ?_, before.tighter.trans tighter,
    le_trans ?_ before.spent⟩
  · cases op with
    | lookup | sweepBatch => exact decays
    | _ => exact le_rfl
  · cases served : t.table.serves h op with
    | false => exact add_le_add le_rfl tighter.uses
    | true =>
      have spent := serves_spends served
      simp only [Bool.toNat_true, Nat.cast_add, Nat.cast_one]
      rw [add_assoc, add_comm 1]
      exact add_le_add le_rfl spent

/-- Take a table of any process in any state of the system. Over a run of lookups, new
limits, new labels and sweeps a handle gets no rights, no time and no uses and loses no flag
and no label. Once it is limited to `n` uses, at most `n` lookups that ask for rights
succeed. -/
theorem run_decays {all : Tables} (made : RunsTo Tables.step always {} all) {p now : Nat}
    {s' : Watch} (run : RunsTo (Watch.step h) Watch.decays ⟨now, all.table p, 0⟩ s') :
    (effectiveRights s'.now (s'.table.entry h)).Within
        (effectiveRights now ((all.table p).entry h)) ∧
      (s'.table.entry h).deadline ≤ ((all.table p).entry h).deadline ∧
      (s'.table.entry h).uses ≤ ((all.table p).entry h).uses ∧
      ((all.table p).entry h).temporalFlags &&& ~~~(s'.table.entry h).temporalFlags = 0 ∧
      ((all.table p).entry h).securityLabel ≤ (s'.table.entry h).securityLabel ∧
      ∀ {expiryTick n : Nat} {temporalFlags : TemporalFlags} {t : Table},
        s'.table.handleSetTemporal h expiryTick n temporalFlags = (t, .ok ()) →
        temporalFlags &&& opCount ≠ 0 → ∀ {s'' : Watch},
        RunsTo (Watch.step h) Watch.decays ⟨s'.now, t, 0⟩ s'' → s''.served ≤ n := by
  have sound := Tables.run_flagged made
  have flagged := sound.entry p h
  obtain ⟨wf, later, tighter, -⟩ := Watch.run_later (sound.wf p) run
  refine ⟨tighter.effective flagged later, tighter.deadline flagged, tighter.uses,
    tighter.flags, tighter.label, fun {expiryTick n temporalFlags t} done counted {s''} rest => ?_⟩
  have wf' : t.WF := by
    have decayed : Decayed s'.table (s'.table.handleSetTemporal h expiryTick n temporalFlags).1 :=
      handleSetTemporal_decayed wf
    rw [done] at decayed
    exact decayed.wf
  have written : t.entry h = (s'.table.entry h).limited expiryTick n temporalFlags := by
    obtain ⟨-, ⟨⟩⟩ | ⟨-, done⟩ := ite_eq_iff.mp done
    obtain ⟨-, ⟨⟩⟩ | ⟨live, done⟩ := ite_eq_iff.mp done
    obtain ⟨-, ⟨⟩⟩ | ⟨-, ⟨⟩⟩ := ite_eq_iff.mp done
    rw [entry_put (active_of_not_inactive live).1, if_pos rfl]
  have uses : (t.entry h).uses = n := by
    rw [written, uses_of_limited (decide_eq_true counted), Entry.limited, if_pos counted]
  have spent := (Watch.run_later wf' rest).2.spent
  simp only [uses, Nat.cast_zero, zero_add] at spent
  exact Nat.cast_le.mp (le_self_add.trans spent)

/-- A file that process 0 may read until tick 50, and a copy of the handle at process 1. -/
def lentFile : List Tables.Label :=
  [.op 0 (.install memoryEnough ⟨7, by decide⟩ .file Rights.read),
    .op 0 (.setTemporal 0 50 0 expiryAbsolute), .copy 0 0,
    .op 1 (.installTemporal memoryEnough ⟨7, by decide⟩ .file Rights.read
      ⟨50, 0, expiryAbsolute, 0⟩)]

theorem run_decays_sooner :
    ∃ all s, RunsTo Tables.step always {} all ∧
      RunsTo (Watch.step 0) Watch.decays ⟨20, all.table 1, 0⟩ s ∧
      ((all.table 1).entry 0).expiryTick = 50 ∧ (s.table.entry 0).expiryTick = 40 ∧
      (s.table.entry 0).deadline ≤ ((all.table 1).entry 0).deadline := by
  have lent : (exec Tables.step {} lentFile).any (fun all =>
      decide (((all.table 1).entry 0).expiryTick = 50 ∧
        (((all.table 1).after (.setTemporal 0 40 0 expiryAbsolute)).entry 0).expiryTick = 40)) := by
    decide +kernel
  obtain ⟨all, made, lent⟩ := runsTo_of_exec lentFile lent
  have ran : RunsTo (Watch.step 0) Watch.decays ⟨20, all.table 1, 0⟩ _ :=
    .tail (a := .setTemporal 0 40 0 expiryAbsolute) .refl trivial rfl
  exact ⟨all, _, made, ran, lent.1, lent.2, (run_decays made ran).2.1⟩

end Table

end A20OS.Handle
