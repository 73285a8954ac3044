import Mathlib

/-!
# Runs of a transition system, invariants and refinement

A system is a partial step function: `step s a = some (o, s')` when the action `a` may run in
the state `s`, answers `o` and leads to `s'`. `execRun` runs a list of actions and keeps the
trace of each action with its answer; a run that reaches an action that cannot run has no
result. The environment may promise something about the actions it issues (`allowed`);
`Allowed` says that every step of a run keeps that promise.

* `execRun_inv`: an invariant that every allowed step keeps holds after every allowed run.
  `execRun_answers` is its rule for the answers: when every allowed step from a state of the
  invariant answers within a set, so does every step of an allowed run.
* `execRun_isSome`: a run of a step that never blocks has a result. `allowed_cons` and
  `allowed_of_forall_mem` build the promise of a run step by step, or from a promise about
  the actions alone.
* `countP_le_of_potential`: when each step of a kind is paid for out of a potential, a run
  has no more steps of that kind than the potential it starts with allows.
* `Refinement.execRun_abs`: when every visible step of a concrete system is matched by a step
  of an abstract one with the same answer, and every internal step leaves the abstract state
  alone, the visible part of every allowed run is a run of the abstract system.
* `execRun_keyedStep`: a system of independent components, one per key, runs each component
  on the actions of its key.
-/

set_option autoImplicit false
set_option relaxedAutoImplicit false

namespace Lib

variable {σ τ α β ω ρ : Type*}

/-- Runs the actions in turn from `s`, keeping each action with its answer. -/
def execRun (step : σ → α → Option (ω × σ)) : σ → List α → Option (List (α × ω) × σ)
  | s, [] => some ([], s)
  | s, a :: as =>
    match step s a with
    | none => none
    | some (o, s₁) =>
      match execRun step s₁ as with
      | none => none
      | some (tr, s₂) => some ((a, o) :: tr, s₂)

/-- Every step of the run of `as` from `s` keeps the environment's promise `allowed`. -/
def Allowed (step : σ → α → Option (ω × σ)) (allowed : σ → α → Prop) : σ → List α → Prop
  | _, [] => True
  | s, a :: as => allowed s a ∧ ∀ o s₁, step s a = some (o, s₁) → Allowed step allowed s₁ as

section Run

variable {step : σ → α → Option (ω × σ)} {allowed : σ → α → Prop}

@[simp] theorem execRun_nil (s : σ) : execRun step s [] = some ([], s) := rfl

/-- A run of `a :: as` is a step of `a` followed by a run of `as`. -/
theorem execRun_cons_eq_some {s s' : σ} {a : α} {as : List α} {tr : List (α × ω)} :
    execRun step s (a :: as) = some (tr, s') ↔
      ∃ o s₁ tr₁, step s a = some (o, s₁) ∧ execRun step s₁ as = some (tr₁, s') ∧
        tr = (a, o) :: tr₁ := by
  constructor
  · intro h
    simp only [execRun] at h
    split at h
    · cases h
    · next o s₁ hstep =>
      split at h
      · cases h
      · next tr₁ s₂ hrun =>
        obtain ⟨rfl, rfl⟩ := Prod.mk.inj (Option.some.inj h)
        exact ⟨o, s₁, tr₁, hstep, hrun, rfl⟩
  · rintro ⟨o, s₁, tr₁, hstep, hrun, rfl⟩
    simp only [execRun, hstep, hrun]

/-- A promise that holds of every action is kept by every run. -/
theorem allowed_of_forall (h : ∀ s a, allowed s a) : ∀ (s : σ) (as : List α), Allowed step allowed s as
  | _, [] => trivial
  | s, a :: as => ⟨h s a, fun _ s₁ _ ↦ allowed_of_forall h s₁ as⟩

/-- The invariant rule: what holds at the start and is kept by every allowed step holds after
every allowed run. -/
theorem execRun_inv (inv : σ → Prop)
    (hstep : ∀ {s a o s₁}, inv s → allowed s a → step s a = some (o, s₁) → inv s₁) :
    ∀ {as : List α} {s s' : σ} {tr : List (α × ω)},
      inv s → Allowed step allowed s as → execRun step s as = some (tr, s') → inv s'
  | [], _, _, _, hs, _, hrun => by
    obtain ⟨-, rfl⟩ := Prod.mk.inj (Option.some.inj hrun)
    exact hs
  | _ :: _, _, _, _, hs, hallowed, hrun => by
    obtain ⟨o, s₁, tr₁, hfirst, hrest, -⟩ := execRun_cons_eq_some.mp hrun
    exact execRun_inv inv hstep (hstep hs hallowed.1 hfirst) (hallowed.2 o s₁ hfirst) hrest

/-- A step that keeps the promise, followed by a run that keeps it. -/
theorem allowed_cons {s s₁ : σ} {a : α} {o : ω} {as : List α} (ha : allowed s a)
    (hstep : step s a = some (o, s₁)) (hrest : Allowed step allowed s₁ as) :
    Allowed step allowed s (a :: as) := by
  refine ⟨ha, fun o' s' h ↦ ?_⟩
  rw [hstep] at h
  obtain ⟨-, rfl⟩ := Prod.mk.inj (Option.some.inj h)
  exact hrest

/-- A promise about the actions alone, kept by each action of the list, is kept by its run. -/
theorem allowed_of_forall_mem {p : α → Prop} :
    ∀ {as : List α} (s : σ), (∀ a ∈ as, p a) → Allowed step (fun _ a ↦ p a) s as
  | [], _, _ => trivial
  | a :: _, _, h =>
    ⟨h a List.mem_cons_self, fun _ s₁ _ ↦ allowed_of_forall_mem s₁ fun b hb ↦ h b (.tail a hb)⟩

/-- A run of a step that never blocks has a result. -/
theorem execRun_isSome (htotal : ∀ s a, (step s a).isSome) :
    ∀ (s : σ) (as : List α), ∃ tr s', execRun step s as = some (tr, s')
  | s, [] => ⟨[], s, rfl⟩
  | s, a :: as => by
    obtain ⟨⟨o, s₁⟩, hfirst⟩ := Option.isSome_iff_exists.mp (htotal s a)
    obtain ⟨tr, s', hrest⟩ := execRun_isSome htotal s₁ as
    exact ⟨(a, o) :: tr, s', execRun_cons_eq_some.mpr ⟨o, s₁, tr, hfirst, hrest, rfl⟩⟩

/-- The answer rule: when every allowed step from a state of the invariant answers within
`Q`, every answer of an allowed run from such a state is within `Q`. -/
theorem execRun_answers (inv : σ → Prop) (Q : α × ω → Prop)
    (hstep : ∀ {s a o s₁}, inv s → allowed s a → step s a = some (o, s₁) → inv s₁)
    (hanswer : ∀ {s a o s₁}, inv s → allowed s a → step s a = some (o, s₁) → Q (a, o)) :
    ∀ {as : List α} {s s' : σ} {tr : List (α × ω)},
      inv s → Allowed step allowed s as → execRun step s as = some (tr, s') → ∀ e ∈ tr, Q e
  | [], _, _, _, _, _, hrun => by
    obtain ⟨rfl, -⟩ := Prod.mk.inj (Option.some.inj hrun)
    simp
  | _ :: _, _, _, _, hs, hallowed, hrun => by
    obtain ⟨o, s₁, tr₁, hfirst, hrest, rfl⟩ := execRun_cons_eq_some.mp hrun
    have hrest_answers := execRun_answers inv Q hstep hanswer (hstep hs hallowed.1 hfirst)
      (hallowed.2 o s₁ hfirst) hrest
    rintro e (_ | ⟨_, he⟩)
    · exact hanswer hs hallowed.1 hfirst
    · exact hrest_answers e he

/-- The steps of a run that pass the test `p` are paid for out of a potential: when each step
lowers the potential by one if it passes `p`, and raises it by at most one if it passes `q`,
a run passes `p` no more often than its start's potential and its passes of `q` allow. -/
theorem countP_le_of_potential (inv : σ → Prop) (Φ : σ → ℕ) (p q : α × ω → Bool)
    (hstep : ∀ {s a o s₁}, inv s → allowed s a → step s a = some (o, s₁) → inv s₁)
    (hpay : ∀ {s a o s₁}, inv s → allowed s a → step s a = some (o, s₁) →
      Φ s₁ + (if p (a, o) then 1 else 0) ≤ Φ s + (if q (a, o) then 1 else 0)) :
    ∀ {as : List α} {s s' : σ} {tr : List (α × ω)},
      inv s → Allowed step allowed s as → execRun step s as = some (tr, s') →
        tr.countP p ≤ Φ s + tr.countP q
  | [], _, _, _, _, _, hrun => by
    obtain ⟨rfl, -⟩ := Prod.mk.inj (Option.some.inj hrun)
    simp
  | _ :: _, _, _, _, hs, hallowed, hrun => by
    obtain ⟨o, s₁, tr₁, hfirst, hrest, rfl⟩ := execRun_cons_eq_some.mp hrun
    have hrest_le := countP_le_of_potential inv Φ p q hstep hpay (hstep hs hallowed.1 hfirst)
      (hallowed.2 o s₁ hfirst) hrest
    have hfirst_le := hpay hs hallowed.1 hfirst
    simp only [List.countP_cons]
    omega

end Run

/-! ### Refinement -/

/-- A refinement of the system `step` by the abstract system `astep`, for the runs the
environment allows: an invariant of the concrete states, their abstraction, and the
observation of each concrete step as an abstract step with its answer, or as none for an
internal step. -/
structure Refinement (step : σ → α → Option (ω × σ)) (astep : τ → β → Option (ρ × τ))
    (allowed : σ → α → Prop) where
  inv : σ → Prop
  abs : σ → τ
  observe : α × ω → Option (β × ρ)
  inv_step : ∀ {s a o s₁}, inv s → allowed s a → step s a = some (o, s₁) → inv s₁
  visible : ∀ {s a o s₁ b r}, inv s → allowed s a → step s a = some (o, s₁) →
    observe (a, o) = some (b, r) → astep (abs s) b = some (r, abs s₁)
  internal : ∀ {s a o s₁}, inv s → allowed s a → step s a = some (o, s₁) →
    observe (a, o) = none → abs s₁ = abs s

namespace Refinement

variable {step : σ → α → Option (ω × σ)} {astep : τ → β → Option (ρ × τ)}
  {allowed : σ → α → Prop}

/-- The visible part of every allowed run, observed step by step, is a run of the abstract
system from the abstraction of the start to the abstraction of the end. -/
theorem execRun_abs (R : Refinement step astep allowed) :
    ∀ {as : List α} {s s' : σ} {tr : List (α × ω)},
      R.inv s → Allowed step allowed s as → execRun step s as = some (tr, s') →
        execRun astep (R.abs s) ((tr.filterMap R.observe).map Prod.fst) =
          some (tr.filterMap R.observe, R.abs s')
  | [], _, _, _, _, _, hrun => by
    obtain ⟨rfl, rfl⟩ := Prod.mk.inj (Option.some.inj hrun)
    rfl
  | a :: _, s, _, _, hs, hallowed, hrun => by
    obtain ⟨o, s₁, tr₁, hfirst, hrest, rfl⟩ := execRun_cons_eq_some.mp hrun
    have ih := R.execRun_abs (R.inv_step hs hallowed.1 hfirst) (hallowed.2 o s₁ hfirst) hrest
    cases hobs : R.observe (a, o) with
    | none =>
      rw [List.filterMap_cons_none hobs, ← R.internal hs hallowed.1 hfirst hobs]
      exact ih
    | some br =>
      rw [List.filterMap_cons_some hobs, List.map_cons]
      exact execRun_cons_eq_some.mpr
        ⟨br.2, R.abs s₁, _, R.visible hs hallowed.1 hfirst hobs, ih, rfl⟩

end Refinement

/-! ### Independent components, one per key -/

section Keyed

variable {κ φ : Type*} [DecidableEq κ]

/-- A system of components, one per key: an action runs the component of its key and leaves
the others. -/
def keyedStep (key : β → κ) (comp : φ → β → Option (ρ × φ)) (m : κ → φ) (b : β) :
    Option (ρ × (κ → φ)) :=
  (comp (m (key b)) b).map fun r ↦ (r.1, Function.update m (key b) r.2)

variable {key : β → κ} {comp : φ → β → Option (ρ × φ)}

/-- Each component of a keyed system runs the actions of its own key, and the others leave
it alone. -/
theorem execRun_keyedStep :
    ∀ {bs : List β} {m m' : κ → φ} {tr : List (β × ρ)},
      execRun (keyedStep key comp) m bs = some (tr, m') → ∀ k,
        execRun comp (m k) (bs.filter fun b ↦ key b = k) =
          some (tr.filter fun e ↦ key e.1 = k, m' k)
  | [], _, _, _, hrun, k => by
    obtain ⟨rfl, rfl⟩ := Prod.mk.inj (Option.some.inj hrun)
    rfl
  | b :: _, m, _, _, hrun, k => by
    obtain ⟨r, m₁, tr₁, hfirst, hrest, rfl⟩ := execRun_cons_eq_some.mp hrun
    obtain ⟨⟨r', c⟩, hcomp, hr⟩ := Option.map_eq_some_iff.mp hfirst
    obtain ⟨rfl, rfl⟩ := Prod.mk.inj hr
    have ih := execRun_keyedStep hrest k
    by_cases hk : key b = k
    · subst hk
      rw [Function.update_self] at ih
      rw [List.filter_cons_of_pos (by simp), List.filter_cons_of_pos (by simp)]
      exact execRun_cons_eq_some.mpr ⟨r', c, _, hcomp, ih, rfl⟩
    · rw [Function.update_of_ne (Ne.symm hk)] at ih
      simp only [hk, decide_false, Bool.false_eq_true, not_false_eq_true,
        List.filter_cons_of_neg]
      exact ih

end Keyed

end Lib
