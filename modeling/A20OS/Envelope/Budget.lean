import A20OS.Envelope.Mediator
import A20OS.Lib.Machine

/-!
The budgets of an envelope.

The header documents a budget of zero as no limit. The time budget is read that way; the
other two are not, so an envelope that was created without a limit on its operations or its
data has none of them left. The deadline goes through an `int` and a sum that wraps.
-/

namespace A20OS.Envelope

open Lib BitVec

variable {e e' e₀ : Env} {p : Policy} {pid : Nat} {hz now t : BitVec 64}

/-- What a mediated call runs under the lock of the envelope: the check of the deadline and
then, in a section of its own, the charge. -/
inductive Section where
  | check (now : BitVec 64)
  | charge (kind : ObjType) (call : Call)

def Section.step (e : Env) : Section → Option Env
  | .check now => some (e.checkExpired now).2
  | .charge kind call => some (call.locked kind e).2

theorem Outcome.expiry {kind : ObjType} {c : Call} {r : Except Errno Unit}
    (outcome : Outcome kind e c r e') : e'.expireTick = e.expireTick ∧ e'.expired = e.expired := by
  cases outcome <;> exact ⟨rfl, rfl⟩

theorem Section.step_expireTick {sec : Section} (taken : Section.step e sec = some e') :
    e'.expireTick = e.expireTick := by
  cases sec with
  | check now =>
    cases taken
    unfold Env.checkExpired Env.noteKill Env.markExpired
    dsimp only
    repeat' split
    all_goals rfl
  | charge kind call =>
    obtain rfl := Option.some.inj taken
    exact (call.locked_outcome kind e).expiry.1

/-! ### Budgets of zero -/

inductive Budget where
  | ops | data | time

def Budget.of (p : Policy) : Budget → BitVec 64
  | .ops => p.opBudget
  | .data => p.dataBudget
  | .time => p.timeBudgetNs

/-- The section denies, and it would not if more were left of the budget. -/
def Section.deniedFor (e : Env) : Budget → Section → Prop
  | .ops, .charge kind call =>
      (call.locked kind e).1 ≠ .ok () ∧
        ∃ n, (call.locked kind { e with remainingOps := n }).1 = .ok ()
  | .data, .charge kind call =>
      (call.locked kind e).1 ≠ .ok () ∧
        ∃ n, (call.locked kind { e with remainingData := n }).1 = .ok ()
  | .time, .check now =>
      (e.checkExpired now).1 = true ∧ ({ e with expireTick := 0 }.checkExpired now).1 = false
  | _, _ => False

theorem envInit_ok (created : envInit hz now pid p = .ok e) :
    e.expireTick = deadline hz now p.timeBudgetNs ∧ e.expired = false ∧
      e.remainingOps = p.opBudget.toNat ∧ e.remainingData = p.dataBudget.toNat := by
  obtain ⟨-, ⟨⟩⟩ | ⟨-, ⟨⟩⟩ := ite_eq_iff.mp created
  exact ⟨rfl, rfl, rfl, rfl⟩

theorem Section.step_decays {sec : Section} (taken : Section.step e sec = some e') :
    Decays e e' := by
  cases sec <;> obtain rfl := Option.some.inj taken
  · exact checkExpired_decays _ e
  · exact (Call.locked_outcome _ e _).decays

/-- Nothing is granted once no operation is left. -/
theorem locked_spent {kind : ObjType} {call : Call} (spent : e.remainingOps = 0) :
    (call.locked kind e).1 ≠ .ok () := by
  intro granted
  have outcome := call.locked_outcome kind e
  rw [granted] at outcome
  generalize (call.locked kind e).2 = e' at outcome
  cases outcome <;> omega

/-- The use of a descriptor that is not tracked is only charged. -/
theorem use_locked {kind : ObjType} (gfd : Int) (bytes : Nat) :
    (Call.use gfd bytes).locked kind e = e.chargeUse bytes := by
  have passes : ¬e.deniesDirection gfd (-1) := by
    rintro ⟨-, -, negative, -⟩
    cases negative
  rw [Call.use, Call.locked, if_neg passes]

/-- A budget of zero never makes a call fail exactly if it is the one that is read as no
limit, or if it is the data budget of an envelope whose calls all fail for the operations. -/
theorem unlimited_never_denies (created : envInit hz now pid p = .ok e₀)
    {b : Budget} (unlimited : b.of p = 0) :
    (∀ e, RunsTo Section.step always e₀ e → ∀ sec : Section, ¬sec.deniedFor e b) ↔
      b = .time ∨ b = .data ∧ p.opBudget = 0 := by
  obtain ⟨tick, -, ops, data⟩ := envInit_ok created
  constructor
  · intro never
    cases b with
    | ops =>
      refine absurd ?_ (never e₀ .refl (.charge .file (.use 0 0)))
      have zero : p.opBudget.toNat = 0 := congrArg BitVec.toNat unlimited
      refine ⟨locked_spent (ops.trans zero), 1, ?_⟩
      rw [use_locked]
      rfl
    | data =>
      refine .inr ⟨rfl, by_contra fun some => ?_⟩
      refine absurd ?_ (never e₀ .refl (.charge .file (.use 0 1)))
      have zero : p.dataBudget.toNat = 0 := congrArg BitVec.toNat unlimited
      have left : e₀.remainingOps ≠ 0 := ops ▸ fun none => some (eq_of_toNat_eq none)
      refine ⟨?_, 1, ?_⟩
      · rw [use_locked, Env.chargeUse, if_neg left]
        simp [data, zero]
      · rw [use_locked, Env.chargeUse, if_neg left]
        rfl
    | time => exact .inl rfl
  · rintro (rfl | ⟨rfl, spent⟩) e run (t | ⟨kind, call⟩)
    · have start : e₀.expireTick = 0 := by
        rw [tick, deadline, show p.timeBudgetNs = 0 from unlimited]
        simp [nsToTicks]
      have none : e.expireTick = 0 := by
        refine RunsTo.invariant (P := fun e => e.expireTick = 0) ?_ run start
        exact fun zero _ taken => (Section.step_expireTick taken).trans zero
      rintro ⟨denied, allowed⟩
      rw [← none, denied] at allowed
      cases allowed
    · exact id
    · exact id
    · have none : e.remainingOps = 0 := by
        refine RunsTo.invariant (P := fun e => e.remainingOps = 0) ?_ run ?_
        · exact fun zero _ taken => Nat.eq_zero_of_le_zero (zero ▸ (Section.step_decays taken).ops)
        · rw [ops, spent]
          rfl
      rintro ⟨-, n, granted⟩
      exact absurd granted (locked_spent none)

theorem unlimited_never_denies_file :
    ∃ e, envInit 100 0 1 filePolicy = .ok e ∧
      ¬(Section.check 1000).deniedFor (e.checkExpired 500).2 .time := by
  obtain ⟨e, created⟩ : ∃ e, envInit 100 0 1 filePolicy = .ok e := ⟨_, rfl⟩
  have run : RunsTo Section.step always e (e.checkExpired 500).2 :=
    .tail (a := .check 500) .refl trivial rfl
  exact ⟨e, created, (unlimited_never_denies created rfl).mpr (.inl rfl) _ run _⟩

/-- An envelope without a limit on its operations denies the first one. -/
theorem zero_ops_denied :
    ∃ e, envInit 100 0 1 { filePolicy with opBudget := 0 } = .ok e ∧
      (Section.charge .file (.acquire .file Rights.read 3)).deniedFor e .ops :=
  ⟨_, rfl, by decide +kernel, 1, by decide +kernel⟩

/-! ### The deadline -/

/-- The check comes before the time budget `ns` of an envelope created at `now` has passed. -/
def Section.early (hz now ns : BitVec 64) : Section → Prop
  | .check t => now ≤ t ∧ (t.toNat - now.toNat) * (1000000000 / hz).toNat < ns.toNat
  | .charge _ _ => True

/-- The budget in ticks, rounded up to more than the budget. -/
def budgetTicks (hz ns : BitVec 64) : Nat := ns.toNat / (1000000000 / hz).toNat + 1

theorem deadline_toNat {ns : BitVec 64} (limited : ns ≠ 0) :
    (deadline hz now ns).toNat =
      if budgetTicks hz ns % 2 ^ 32 = 0 then 0
      else if budgetTicks hz ns % 2 ^ 32 < 2 ^ 31 then
        (now.toNat + budgetTicks hz ns % 2 ^ 32) % 2 ^ 64
      else (now.toNat + (2 ^ 64 - 2 ^ 32 + budgetTicks hz ns % 2 ^ 32)) % 2 ^ 64 := by
  have ticks : (nsToTicks hz ns).toNat = budgetTicks hz ns % 2 ^ 32 := by
    rw [nsToTicks, if_neg limited, toNat_setWidth, toNat_add, toNat_udiv]
    exact Nat.mod_mod_of_dvd _ (by decide)
  have zero : nsToTicks hz ns = 0 ↔ budgetTicks hz ns % 2 ^ 32 = 0 := by
    rw [← ticks, ← toNat_inj]
    rfl
  have sign : (nsToTicks hz ns).msb = true ↔ ¬budgetTicks hz ns % 2 ^ 32 < 2 ^ 31 := by
    rw [msb_eq_true_iff_two_mul_ge, ticks]
    omega
  rw [deadline]
  split_ifs with some none small small
  · exact absurd (zero.mpr none) some
  · rw [toNat_add, toNat_signExtend, toNat_setWidth, if_neg (mt sign.mp (not_not_intro small)),
      ticks]
    omega
  · rw [toNat_add, toNat_signExtend, toNat_setWidth, if_pos (sign.mpr small), ticks]
    omega
  · rfl
  all_goals exact absurd (zero.mp (not_not.mp some)) ‹_›

theorem period_pos (frequency : 0 < hz.toNat ∧ hz.toNat ≤ 1000000000) :
    0 < (1000000000 / hz).toNat :=
  Nat.div_pos frequency.2 frequency.1

/-- No check denies before the budget has passed if the deadline is that many ticks away. -/
theorem not_denied_early (frequency : 0 < hz.toNat ∧ hz.toNat ≤ 1000000000)
    {ns : BitVec 64} (fresh : e₀.expired = false)
    (away : now.toNat + budgetTicks hz ns ≤ e₀.expireTick.toNat)
    (run : RunsTo Section.step (fun _ => Section.early hz now ns) e₀ e)
    (early : (Section.check t).early hz now ns) : (e.checkExpired t).1 = false := by
  -- a tick before the budget has passed is before the deadline
  have before {t : BitVec 64} (early : (Section.check t).early hz now ns) :
      ¬e₀.expireTick ≤ t := by
    have less := (Nat.le_div_iff_mul_le (period_pos frequency)).mpr (Nat.le_of_lt early.2)
    rw [budgetTicks] at away
    rw [le_def]
    omega
  have checks {e : Env} {t : BitVec 64} (same : e.expireTick = e₀.expireTick)
      (alive : e.expired = false) (early : (Section.check t).early hz now ns) :
      e.checkExpired t = (false, e) := by
    simp [Env.checkExpired, alive, same, before early]
  have kept : e.expireTick = e₀.expireTick ∧ e.expired = false := by
    refine RunsTo.invariant
      (P := fun e => e.expireTick = e₀.expireTick ∧ e.expired = false) ?_ run ⟨rfl, fresh⟩
    rintro e e' (t | ⟨kind, call⟩) old meets taken
    · obtain rfl := Option.some.inj taken
      rw [checks old.1 old.2 meets]
      exact old
    · obtain rfl := Option.some.inj taken
      have same := (call.locked_outcome kind e).expiry
      exact ⟨same.1.trans old.1, same.2.trans old.2⟩
  rw [checks kept.1 kept.2 early]

/-- The deadline is after the creation and not before the budget, and no check denies before
the budget has passed: that is so exactly if the budget is fewer than 2^31 ticks that are left
in the counter, or if its low half is a negative `int` that a young counter takes to its end. -/
theorem expires_after_budget (frequency : 0 < hz.toNat ∧ hz.toNat ≤ 1000000000)
    (created : envInit hz now pid p = .ok e₀) (limited : p.timeBudgetNs ≠ 0) :
    (now < e₀.expireTick ∧
      min (now.toNat + budgetTicks hz p.timeBudgetNs) (2 ^ 64 - 1) ≤ e₀.expireTick.toNat ∧
      ∀ e, RunsTo Section.step (fun _ => Section.early hz now p.timeBudgetNs) e₀ e →
        ∀ t, (Section.check t).early hz now p.timeBudgetNs → (e.checkExpired t).1 = false) ↔
    (budgetTicks hz p.timeBudgetNs < 2 ^ 31 ∧
        now.toNat + budgetTicks hz p.timeBudgetNs < 2 ^ 64) ∨
      (2 ^ 31 ≤ budgetTicks hz p.timeBudgetNs % 2 ^ 32 ∧
        now.toNat < 2 ^ 32 - budgetTicks hz p.timeBudgetNs % 2 ^ 32) := by
  obtain ⟨tick, fresh, -, -⟩ := envInit_ok created
  have value := @deadline_toNat hz now _ limited
  have ticks : budgetTicks hz p.timeBudgetNs ≤ 2 ^ 64 := by
    exact Nat.succ_le_of_lt ((Nat.div_le_self _ _).trans_lt p.timeBudgetNs.isLt)
  rw [← tick] at value
  rw [lt_def]
  constructor
  · rintro ⟨after, notBefore, onTime⟩
    by_contra outside
    -- what is left is a deadline at the last tick, which comes before the budget has passed
    have last : e₀.expireTick.toNat = 2 ^ 64 - 1 ∧
        e₀.expireTick.toNat - now.toNat + 1 < budgetTicks hz p.timeBudgetNs := by
      split_ifs at value <;> omega
    have early : (Section.check e₀.expireTick).early hz now p.timeBudgetNs := by
      refine ⟨after.le, ?_⟩
      have less : e₀.expireTick.toNat - now.toNat <
          p.timeBudgetNs.toNat / (1000000000 / hz).toNat := by
        exact Nat.lt_of_succ_lt_succ last.2
      exact (Nat.mul_lt_mul_of_pos_right (Nat.lt_succ_self _) (period_pos frequency)).trans_le
        ((Nat.le_div_iff_mul_le (period_pos frequency)).mp less)
    have denied := onTime e₀ .refl e₀.expireTick early
    have some : e₀.expireTick ≠ 0#64 := by
      intro zero
      simp [zero] at last
    simp [Env.checkExpired, fresh, some, Env.noteKill, Env.markExpired] at denied
  · intro inside
    have some : 0 < budgetTicks hz p.timeBudgetNs := Nat.succ_pos _
    have away : now.toNat + budgetTicks hz p.timeBudgetNs ≤ e₀.expireTick.toNat := by
      split_ifs at value <;> omega
    refine ⟨by omega, (min_le_left _ _).trans away, fun e run t early => ?_⟩
    exact not_denied_early frequency fresh away run early

/-- A hundred ticks a second and a budget of one second. -/
theorem expires_after_budget_second :
    ∃ e, envInit 100 7 1 { filePolicy with timeBudgetNs := 1000000000 } = .ok e ∧
      (e.checkExpired 106).1 = false := by
  obtain ⟨e, created⟩ :
      ∃ e, envInit 100 7 1 { filePolicy with timeBudgetNs := 1000000000 } = .ok e := ⟨_, rfl⟩
  have result := (expires_after_budget (by decide) created (by decide)).mpr (.inl (by decide))
  exact ⟨e, created, result.2.2 e .refl 106 ⟨by decide, by decide⟩⟩

/-- At ten million ticks a second a budget of 2^32 ticks expires after one. -/
theorem deadline_wraps :
    ∃ e, envInit 10000000 0 1 { filePolicy with timeBudgetNs := 429496729600 } = .ok e ∧
      e.expireTick = 1 ∧ (e.checkExpired 1).1 = true :=
  ⟨_, rfl, rfl, rfl⟩

end A20OS.Envelope
