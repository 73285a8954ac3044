import Mathlib

/-!
# `while` loops with fuel

A loop body is a function from the loop's state that either continues with a new state or
leaves the loop with a result (`σ ⊕ ρ`). `whileFuel` runs the body at most `fuel` times and
has no result when the fuel runs out first. Running with more fuel gives the same result
(`whileFuel_add`), so two runs that give a result give the same one (`whileFuel_eq_of_some`).
This makes "the loop terminates" the statement that some fuel gives a
result, and "the loop runs forever" the statement that every fuel runs out.

* `whileFuel_spec`: the rule for total correctness. An invariant that every continuing
  iteration keeps while lowering a measure, with every exit satisfying a postcondition, gives
  a result within `measure + 1` iterations, and that result satisfies the postcondition.
* `whileFuel_inv`: the rule for partial correctness. An invariant that every continuing
  iteration keeps, with every exit satisfying a postcondition, gives the postcondition of
  every result.
* `whileFuel_eq_none_of_closed`: the rule for divergence. From a set of states that every
  iteration continues in, every fuel runs out.
-/

set_option autoImplicit false
set_option relaxedAutoImplicit false

namespace Lib

variable {σ ρ : Type*}

/-- Runs the loop body `step` at most `fuel` times from `s`. -/
def whileFuel (step : σ → σ ⊕ ρ) : ℕ → σ → Option ρ
  | 0, _ => none
  | fuel + 1, s =>
    match step s with
    | .inl s₁ => whileFuel step fuel s₁
    | .inr r => some r

section Rules

variable {step : σ → σ ⊕ ρ}

@[simp] theorem whileFuel_zero (s : σ) : whileFuel step 0 s = none := rfl

theorem whileFuel_succ_of_inl {s s₁ : σ} (fuel : ℕ) (h : step s = .inl s₁) :
    whileFuel step (fuel + 1) s = whileFuel step fuel s₁ := by
  simp [whileFuel, h]

theorem whileFuel_succ_of_inr {s : σ} {r : ρ} (fuel : ℕ) (h : step s = .inr r) :
    whileFuel step (fuel + 1) s = some r := by
  simp [whileFuel, h]

/-- More fuel does not change a result. -/
theorem whileFuel_add {r : ρ} :
    ∀ {fuel : ℕ} {s : σ} (k : ℕ), whileFuel step fuel s = some r → whileFuel step (fuel + k) s = some r
  | 0, _, _, h => nomatch h
  | fuel + 1, s, k, h => by
    rw [Nat.add_right_comm]
    cases hs : step s with
    | inl s₁ =>
      rw [whileFuel_succ_of_inl fuel hs] at h
      rw [whileFuel_succ_of_inl _ hs]
      exact whileFuel_add k h
    | inr r' =>
      rw [whileFuel_succ_of_inr fuel hs] at h
      rw [whileFuel_succ_of_inr _ hs]
      exact h

/-- Two runs that both give a result give the same one. -/
theorem whileFuel_eq_of_some {s : σ} {fuel₁ fuel₂ : ℕ} {r₁ r₂ : ρ}
    (h₁ : whileFuel step fuel₁ s = some r₁) (h₂ : whileFuel step fuel₂ s = some r₂) : r₁ = r₂ := by
  have h₁' := whileFuel_add fuel₂ h₁
  have h₂' := whileFuel_add fuel₁ h₂
  rw [Nat.add_comm, h₂'] at h₁'
  exact (Option.some.inj h₁').symm

/-- Total correctness: an invariant kept by each continuing iteration, which lowers the measure,
and a postcondition met by each exit give a result within `measure s + 1` iterations. The proof is
by strong induction on the measure of the start. -/
theorem whileFuel_spec (inv : σ → Prop) (measure : σ → ℕ) (post : ρ → Prop)
    (hstep : ∀ s, inv s → match step s with
      | .inl s₁ => inv s₁ ∧ measure s₁ < measure s
      | .inr r => post r) :
    ∀ (s : σ), inv s → ∃ r, whileFuel step (measure s + 1) s = some r ∧ post r := by
  intro s
  induction hμ : measure s using Nat.strong_induction_on generalizing s with
  | _ μ ih =>
    intro hs
    have hs_step := hstep s hs
    cases hcase : step s with
    | inl s₁ =>
      rw [hcase] at hs_step
      obtain ⟨hs₁, hlt⟩ := hs_step
      obtain ⟨r, hrun, hpost⟩ := ih (measure s₁) (hμ ▸ hlt) s₁ rfl hs₁
      refine ⟨r, ?_, hpost⟩
      obtain ⟨k, hk⟩ : ∃ k, μ = measure s₁ + 1 + k := ⟨μ - (measure s₁ + 1), by omega⟩
      rw [whileFuel_succ_of_inl _ hcase, hk]
      exact whileFuel_add k hrun
    | inr r =>
      rw [hcase] at hs_step
      exact ⟨r, whileFuel_succ_of_inr _ hcase, hs_step⟩

/-- Partial correctness: an invariant kept by each continuing iteration, and a postcondition
met by each exit from the invariant, hold of every result. -/
theorem whileFuel_inv (inv : σ → Prop) (post : ρ → Prop)
    (hstep : ∀ s, inv s → match step s with
      | .inl s₁ => inv s₁
      | .inr r => post r) :
    ∀ (fuel : ℕ) (s : σ) (r : ρ), inv s → whileFuel step fuel s = some r → post r
  | 0, _, _, _, h => nomatch h
  | fuel + 1, s, r, hs, h => by
    have hs_step := hstep s hs
    cases hcase : step s with
    | inl s₁ =>
      rw [hcase] at hs_step
      rw [whileFuel_succ_of_inl fuel hcase] at h
      exact whileFuel_inv inv post hstep fuel s₁ r hs_step h
    | inr r' =>
      rw [hcase] at hs_step
      rw [whileFuel_succ_of_inr fuel hcase, Option.some.injEq] at h
      exact h ▸ hs_step

/-- Divergence: from a set that every iteration continues in, every fuel runs out. -/
theorem whileFuel_eq_none_of_closed (S : σ → Prop)
    (hclosed : ∀ s, S s → ∃ s₁, step s = .inl s₁ ∧ S s₁) :
    ∀ (fuel : ℕ) (s : σ), S s → whileFuel step fuel s = none
  | 0, _, _ => rfl
  | fuel + 1, s, hs => by
    obtain ⟨s₁, hcont, hs₁⟩ := hclosed s hs
    rw [whileFuel_succ_of_inl fuel hcont]
    exact whileFuel_eq_none_of_closed S hclosed fuel s₁ hs₁

end Rules

end Lib
