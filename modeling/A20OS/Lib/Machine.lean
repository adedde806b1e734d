import Mathlib.Algebra.Order.Ring.Int

/-!
Labelled transition systems and their runs.

A step function answers `none` when the labelled step is not possible. `RunsTo step ok s t` says
that some sequence of steps leads from `s` to `t` in which every step met `ok` in the state it
started from. Invariants of runs come from invariants of steps (`RunsTo.invariant`), and facts
that compare two states from facts that compare the ends of a step (`RunsTo.relates`). `exec`
takes the steps of a given list: what only certain steps lead into has been entered by one of
them (`execWhile_since`).
-/

namespace A20OS.Lib

open List

universe u v

variable {σ : Type u} {α : Type v}

/-- No condition on the steps of a run. -/
def always : σ → α → Prop := fun _ _ => True

/-- `t` is reached from `s` by steps that each meet `ok`. -/
inductive RunsTo (step : σ → α → Option σ) (ok : σ → α → Prop) (s : σ) : σ → Prop
  | refl : RunsTo step ok s s
  | tail {t t' : σ} {a : α} (run : RunsTo step ok s t) (meets : ok t a)
      (taken : step t a = some t') : RunsTo step ok s t'

namespace RunsTo

variable {step : σ → α → Option σ} {ok : σ → α → Prop} {s t : σ}

/-- What holds at the start and is kept by every allowed step holds at the end. -/
theorem invariant {P : σ → Prop}
    (kept : ∀ {t t' : σ} {a : α}, P t → ok t a → step t a = some t' → P t')
    (run : RunsTo step ok s t) (start : P s) : P t := by
  induction run with
  | refl => exact start
  | tail _ meets taken inv => exact kept inv meets taken

/-- A reflexive and transitive relation between the ends of every allowed step
relates the ends of every run. -/
theorem relates {R : σ → σ → Prop} (refl : ∀ t, R t t)
    (trans : ∀ {t₁ t₂ t₃ : σ}, R t₁ t₂ → R t₂ t₃ → R t₁ t₃)
    (single : ∀ {t t' : σ} {a : α}, ok t a → step t a = some t' → R t t')
    (run : RunsTo step ok s t) : R s t := by
  induction run with
  | refl => exact refl s
  | tail _ meets taken related => exact trans related (single meets taken)

theorem trans {t' : σ} (first : RunsTo step ok s t) (second : RunsTo step ok t t') :
    RunsTo step ok s t' := by
  induction second with
  | refl => exact first
  | tail _ meets taken ih => exact .tail ih meets taken

/-- A first step in front of a run. -/
theorem head {t' : σ} {a : α} (meets : ok s a) (taken : step s a = some t)
    (rest : RunsTo step ok t t') : RunsTo step ok s t' :=
  trans (.tail .refl meets taken) rest

end RunsTo

/-- Take the steps with the given labels one after the other. -/
def exec (step : σ → α → Option σ) : σ → List α → Option σ
  | s, [] => some s
  | s, a :: as => (step s a).bind fun t => exec step t as

variable {step : σ → α → Option σ} {as : List α}

theorem exec_runsTo {s t : σ} (h : exec step s as = some t) : RunsTo step always s t := by
  induction as generalizing s with
  | nil =>
    cases h
    exact .refl
  | cons a as ih =>
    rw [exec, Option.bind_eq_some_iff] at h
    obtain ⟨s', taken, rest⟩ := h
    exact .head trivial taken (ih rest)

/-- Take the steps with the given labels as long as they meet the condition. -/
def execWhile (step : σ → α → Option σ) (ok : σ → α → Prop) [∀ s a, Decidable (ok s a)] :
    σ → List α → Option σ
  | s, [] => some s
  | s, a :: as => if ok s a then (step s a).bind fun t => execWhile step ok t as else none

variable {ok : σ → α → Prop}

theorem execWhile_cons [∀ s a, Decidable (ok s a)] {s t : σ} {a : α}
    (h : execWhile step ok s (a :: as) = some t) :
    ok s a ∧ ∃ s', step s a = some s' ∧ execWhile step ok s' as = some t := by
  rw [execWhile] at h
  split at h
  · next meets => exact ⟨meets, Option.bind_eq_some_iff.mp h⟩
  · cases h

theorem execWhile_runsTo [∀ s a, Decidable (ok s a)] {s t : σ}
    (h : execWhile step ok s as = some t) :
    RunsTo step ok s t := by
  induction as generalizing s with
  | nil =>
    cases h
    exact .refl
  | cons a as ih =>
    obtain ⟨meets, s', taken, rest⟩ := execWhile_cons h
    exact .head meets taken (ih rest)

section Evaluated

variable [∀ s a, Decidable (ok s a)] {s : σ} (as) {P : σ → Prop} [DecidablePred P]

/-- A result that was evaluated, and what was found of it. -/
theorem eq_some_of_any {result : Option σ} (found : result.any (fun t => decide (P t)) = true) :
    ∃ t, result = some t ∧ P t := by
  obtain ⟨t, reached, known⟩ := (Option.any_eq_true _ _).mp found
  exact ⟨t, reached, of_decide_eq_true known⟩

/-- A run that was evaluated, and what was found at its end. -/
theorem runsTo_of_execWhile (ran : (execWhile step ok s as).any (fun t => decide (P t)) = true) :
    ∃ t, RunsTo step ok s t ∧ P t := by
  obtain ⟨t, reached, known⟩ := eq_some_of_any ran
  exact ⟨t, execWhile_runsTo reached, known⟩

theorem runsTo_of_exec (ran : (exec step s as).any (fun t => decide (P t)) = true) :
    ∃ t, RunsTo step always s t ∧ P t := by
  obtain ⟨t, reached, known⟩ := eq_some_of_any ran
  exact ⟨t, exec_runsTo reached, known⟩

end Evaluated

/-- If only steps that meet `enters` lead into `P`, then a run that ends in `P` was there all
along, or it has such a step and was in `P` from there on. -/
theorem execWhile_since [∀ s a, Decidable (ok s a)] {P : σ → Prop} {enters : σ → α → Prop}
    (single : ∀ {t t' : σ} {a : α}, step t a = some t' → P t' → P t ∨ enters t a) {s t : σ}
    (h : execWhile step ok s as = some t) (now : P t) :
    (∀ zs u, zs <+: as → exec step s zs = some u → P u) ∨
    ∃ xs a ys t₁ t₂, as = xs ++ a :: ys ∧ exec step s xs = some t₁ ∧ ok t₁ a ∧ enters t₁ a ∧
      step t₁ a = some t₂ ∧ ∀ zs u, zs <+: ys → exec step t₂ zs = some u → P u := by
  induction as generalizing s with
  | nil =>
    cases h
    left
    intro zs u before reached
    obtain rfl := prefix_nil.mp before
    cases reached
    exact now
  | cons a as ih =>
    obtain ⟨meets, s', taken, rest⟩ := execWhile_cons h
    rcases ih rest with all | ⟨xs, b, ys, t₁, t₂, rfl, reached, meets₁, entered, taken₁, after⟩
    · -- in `P` from the next state on: this step entered it, or `s` was in `P` already
      rcases single taken (all [] s' nil_prefix rfl) with here | entered
      · left
        intro zs u before reached
        cases zs with
        | nil =>
          cases reached
          exact here
        | cons z zs =>
          obtain ⟨rfl, shorter⟩ := cons_prefix_cons.mp before
          rw [exec, taken] at reached
          exact all zs u shorter reached
      · exact .inr ⟨[], a, as, s, s', rfl, rfl, meets, entered, taken, all⟩
    · refine .inr ⟨a :: xs, b, ys, t₁, t₂, rfl, ?_, meets₁, entered, taken₁, after⟩
      rw [exec, taken]
      exact reached

/-! ### Logs -/

/-- The property holds of every entry of a log and the entries before it. -/
def EachAfter (P : List α → α → Prop) (log : List α) : Prop :=
  ∀ before e after, log = before ++ e :: after → P before e

@[simp] theorem eachAfter_nil {P : List α → α → Prop} : EachAfter P [] := by
  intro before e after split
  simp at split

@[simp] theorem eachAfter_concat {P : List α → α → Prop} {log : List α} {e : α} :
    EachAfter P (log ++ [e]) ↔ EachAfter P log ∧ P log e := by
  constructor
  · intro each
    refine ⟨fun before x after split => each before x (after ++ [e]) ?_, each log e [] rfl⟩
    simp [split]
  · rintro ⟨each, last⟩ before x after split
    rcases eq_nil_or_concat after with rfl | ⟨rest, y, rfl⟩
    · obtain ⟨rfl, same⟩ := append_inj' split rfl
      cases same
      exact last
    · rw [concat_eq_append, ← cons_append, ← append_assoc] at split
      exact each before x rest (append_inj' split rfl).1

end A20OS.Lib
