import Mathlib.Data.List.Basic

/-!
Bounded loops with a trace.

A loop body maps a state to the next state (`.inl`) or to a result (`.inr`); `loop body fuel s`
returns the states it started an iteration in and the result, `none` if the fuel was spent. A
body that keeps an invariant and lowers a measure stops by itself (`loop_stops`);
`loop_increasing` orders the states of a run by a rank that every iteration raises, and
`loop_congr` compares two bodies. `foldl_pointwise` is for passes that touch one entry at a time.
-/

namespace A20OS.Lib

open List

universe u v

variable {σ : Type u} {ρ : Type v} {r : ρ} {s : σ} {body : σ → σ ⊕ ρ}

/-- Run `body` for at most `fuel` iterations, recording each iteration's start. -/
def loop (body : σ → σ ⊕ ρ) : Nat → σ → List σ × Option ρ
  | 0, _ => ([], none)
  | fuel + 1, s =>
      match body s with
      | .inr r => ([s], some r)
      | .inl s' => (s :: (loop body fuel s').1, (loop body fuel s').2)

theorem loop_succ_inr (h : body s = .inr r) (fuel : Nat) :
    loop body (fuel + 1) s = ([s], some r) := by
  simp [loop, h]

theorem loop_succ_inl {s' : σ} (h : body s = .inl s') (fuel : Nat) :
    loop body (fuel + 1) s = (s :: (loop body fuel s').1, (loop body fuel s').2) := by
  simp [loop, h]

/-- A positive budget starts its first iteration in the initial state. -/
theorem mem_loop_succ (body : σ → σ ⊕ ρ) (fuel : Nat) (s : σ) : s ∈ (loop body (fuel + 1) s).1 := by
  cases h : body s with
  | inl s' => simp [loop_succ_inl h]
  | inr r => simp [loop_succ_inr h]

/-- `loop body fuel s` stops by itself with result `r`: its last iteration starts
in `t` and returns `r` there. -/
def Stops (body : σ → σ ⊕ ρ) (fuel : Nat) (s t : σ) (r : ρ) : Prop :=
  (loop body fuel s).1.getLast? = some t ∧ (loop body fuel s).2 = some r ∧ body t = .inr r

theorem stops_succ_inr (h : body s = .inr r) (fuel : Nat) : Stops body (fuel + 1) s s r := by
  unfold Stops
  rw [loop_succ_inr h]
  exact ⟨rfl, rfl, h⟩

theorem stops_succ_inl {s' t : σ} {fuel : Nat}
    (h : body s = .inl s') (later : Stops body fuel s' t r) : Stops body (fuel + 1) s t r := by
  obtain ⟨last, result, stop⟩ := later
  unfold Stops
  rw [loop_succ_inl h]
  exact ⟨by simp [getLast?_cons, last], result, stop⟩

/-- **The loop rule.** `Inv` is an invariant of the iterations that start in a
state meeting `Ok`, each such iteration lowers `μ` unless it is the last one, and
the budget exceeds the measure. Then a run all of whose iterations start in `Ok`
keeps `Inv`, takes at most `μ s + 1` iterations, and stops by itself. -/
theorem loop_stops (Inv Ok : σ → Prop) (μ : σ → Nat)
    (stepInv : ∀ s s', Inv s → Ok s → body s = .inl s' → Inv s' ∧ μ s' < μ s) :
    ∀ (fuel : Nat) (s : σ), μ s < fuel → Inv s → (∀ t ∈ (loop body fuel s).1, Ok t) →
      (∀ t ∈ (loop body fuel s).1, Inv t) ∧ (loop body fuel s).1.length ≤ μ s + 1 ∧
        ∃ t r, Stops body fuel s t r
  | 0, _, hμ, _, _ => absurd hμ (Nat.not_lt_zero _)
  | fuel + 1, s, hμ, inv, ok => by
      have okS : Ok s := ok s (mem_loop_succ body fuel s)
      cases h : body s with
      | inr r =>
        refine ⟨?_, ?_, s, r, stops_succ_inr h fuel⟩
        · rw [loop_succ_inr h]
          exact forall_mem_singleton.mpr inv
        · simp [loop_succ_inr h]
      | inl s' =>
        obtain ⟨inv', lower⟩ := stepInv s s' inv okS h
        rw [loop_succ_inl h] at ok
        obtain ⟨all, len, t, r, stop⟩ := loop_stops Inv Ok μ stepInv fuel s'
          (by omega) inv' (fun t ht => ok t (.tail _ ht))
        refine ⟨?_, ?_, t, r, stops_succ_inl h stop⟩
        · rw [loop_succ_inl h]
          exact forall_mem_cons.mpr ⟨inv, all⟩
        · rw [loop_succ_inl h]
          simp only [length_cons]
          omega

/-- If every iteration of a run that is not the last raises `rank`, the iterations start in
states of strictly increasing rank. -/
theorem loop_increasing (Ok : σ → Prop) (rank : σ → Nat)
    (raises : ∀ s s', Ok s → body s = .inl s' → rank s < rank s') :
    ∀ (fuel : Nat) (s : σ), (∀ t ∈ (loop body fuel s).1, Ok t) →
      (loop body fuel s).1.Pairwise (fun a b => rank a < rank b) ∧
        ∀ t ∈ (loop body fuel s).1, rank s ≤ rank t
  | 0, _, _ => by simp [loop]
  | fuel + 1, s, ok => by
      have okS : Ok s := ok s (mem_loop_succ body fuel s)
      cases h : body s with
      | inr r =>
        rw [loop_succ_inr h]
        simp
      | inl s' =>
        rw [loop_succ_inl h] at ok ⊢
        obtain ⟨increasing, later⟩ := loop_increasing Ok rank raises fuel s'
          fun t member => ok t (.tail _ member)
        have here := raises s s' okS h
        have above : ∀ t ∈ (loop body fuel s').1, rank s < rank t :=
          fun t member => Nat.lt_of_lt_of_le here (later t member)
        exact ⟨pairwise_cons.mpr ⟨above, increasing⟩,
          forall_mem_cons.mpr ⟨Nat.le_refl _, fun t member => Nat.le_of_lt (above t member)⟩⟩

/-- Two bodies that agree in the states of a run make the same run. -/
theorem loop_congr {body' : σ → σ ⊕ ρ} :
    ∀ (fuel : Nat) (s : σ), (∀ t ∈ (loop body fuel s).1, body t = body' t) →
      loop body fuel s = loop body' fuel s
  | 0, _, _ => rfl
  | fuel + 1, s, same => by
      have here := same s (mem_loop_succ body fuel s)
      cases h : body s with
      | inr r => rw [loop_succ_inr h, loop_succ_inr (here ▸ h)]
      | inl s' =>
        rw [loop_succ_inl h] at same
        rw [loop_succ_inl h, loop_succ_inl (here ▸ h),
          loop_congr fuel s' fun t member => same t (.tail _ member)]

/-- A pass over distinct indices, each step of which changes what is seen at its own index
only: what is seen at an index afterwards is what its own step made of it. -/
theorem foldl_pointwise {ι β : Type} [DecidableEq ι] (view : σ → ι → β) (body : σ → ι → σ)
    (f : ι → β → β) (here : ∀ s i, view (body s i) i = f i (view s i))
    (elsewhere : ∀ s i j, j ≠ i → view (body s i) j = view s j) :
    ∀ {is : List ι}, is.Nodup → ∀ (s : σ) (j : ι),
      view (is.foldl body s) j = if j ∈ is then f j (view s j) else view s j
  | [], _, _, _ => by simp
  | i :: is, nodup, s, j => by
      obtain ⟨fresh, rest⟩ := nodup_cons.mp nodup
      rw [foldl_cons, foldl_pointwise view body f here elsewhere rest]
      by_cases same : j = i
      · subst same
        rw [if_neg fresh, if_pos (.head _), here]
      · rw [elsewhere s i j same]
        simp [same]

end A20OS.Lib
