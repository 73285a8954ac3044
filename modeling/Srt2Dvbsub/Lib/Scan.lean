import Mathlib

/-!
# Scans that keep the first strict optimum

A loop that walks a list, keeps the best value so far with something attached to it, and lets a
candidate replace it only when the candidate is strictly better, ends with the first best
element of the list, provided that element beats the starting value (`foldl_improveMax`). The
first best element is `List.argmax`. A search for a minimum is the same scan in the order dual.

A running maximum kept with `max` lies above a value exactly when the start or some element does
(`lt_foldl_max_iff`); it is at least the start and every element (`le_foldl_max`), and a
running minimum is at most them and at least every common lower bound (`foldl_min_le`,
`le_foldl_min`).
-/

set_option autoImplicit false
set_option relaxedAutoImplicit false

namespace Lib

variable {α β γ : Type*} [LinearOrder β]

/-- One step of the scan: the candidate `a` replaces the best value and its payload when its
value is strictly greater. -/
def improveMax (f : α → β) (g : α → γ) (best : β × γ) (a : α) : β × γ :=
  if best.1 < f a then (f a, g a) else best

/-- The scan ends with the first element of greatest value and its payload, when that value
beats the start, and with the start otherwise. The proof is by induction from the end of the list,
the way the scan grows. -/
theorem foldl_improveMax (f : α → β) (g : α → γ) (b₀ : β) (c₀ : γ) (l : List α) :
    l.foldl (improveMax f g) (b₀, c₀) =
      (l.argmax f).elim (b₀, c₀) fun m ↦ if b₀ < f m then (f m, g m) else (b₀, c₀) := by
  induction l using List.reverseRecOn with
  | nil => rfl
  | append_singleton l a ih =>
    rw [List.foldl_append, ih, List.argmax_concat]
    cases hm : l.argmax f with
    | none => rfl
    | some m =>
      simp only [Option.elim_some, List.foldl_cons, List.foldl_nil]
      by_cases hbm : b₀ < f m <;> by_cases hma : f m < f a
      · rw [if_pos hbm, if_pos hma, Option.elim_some, improveMax, if_pos hma,
          if_pos (hbm.trans hma)]
      · rw [if_pos hbm, if_neg hma, Option.elim_some, improveMax, if_neg hma, if_pos hbm]
      · rw [if_neg hbm, if_pos hma, Option.elim_some]
        rfl
      · have hab : ¬ b₀ < f a := fun h ↦ hbm (lt_of_lt_of_le h (not_lt.mp hma))
        rw [if_neg hbm, if_neg hma, Option.elim_some, improveMax, if_neg hab, if_neg hbm]

/-- In `List.range n` the place of an index is the index itself. -/
private theorem idxOf_range {n i : ℕ} (hi : i < n) : (List.range n).idxOf i = i := by
  have h := List.nodup_range.idxOf_getElem i (by rwa [List.length_range])
  rwa [List.getElem_range] at h

/-- Over the indices below `n`, the first least element is an index of least value that every
smaller index exceeds strictly. -/
theorem argmin_range_eq_some_iff (f : ℕ → β) {n m : ℕ} :
    (List.range n).argmin f = some m ↔ m < n ∧ (∀ j < n, f m ≤ f j) ∧ ∀ j < m, f m < f j := by
  simp only [List.argmin_eq_some_iff, List.mem_range]
  constructor
  · rintro ⟨hm, hle, hfirst⟩
    refine ⟨hm, hle, fun j hj ↦ lt_of_not_ge fun hjm ↦ ?_⟩
    have := hfirst j (hj.trans hm) hjm
    rw [idxOf_range hm, idxOf_range (hj.trans hm)] at this
    omega
  · rintro ⟨hm, hle, hfirst⟩
    refine ⟨hm, hle, fun j hj hjm ↦ ?_⟩
    rw [idxOf_range hm, idxOf_range hj]
    exact not_lt.mp fun hjlt ↦ absurd hjm (not_le.mpr (hfirst j hjlt))

/-- A value lies below the running maximum of a list exactly when it lies below the start or below
some element. -/
theorem lt_foldl_max_iff {b : β} : ∀ (l : List β) (a : β),
    b < l.foldl max a ↔ b < a ∨ ∃ x ∈ l, b < x
  | [], a => by simp
  | x :: l, a => by
    rw [List.foldl_cons, lt_foldl_max_iff l (max a x), lt_max_iff]
    simp only [List.mem_cons, exists_eq_or_imp, or_assoc]

/-- The running maximum is at least the start and every element. -/
theorem le_foldl_max : ∀ (l : List β) (a : β), a ≤ l.foldl max a ∧ ∀ x ∈ l, x ≤ l.foldl max a
  | [], a => ⟨le_rfl, fun _ h ↦ absurd h List.not_mem_nil⟩
  | x :: l, a => by
    obtain ⟨hstart, hmem⟩ := le_foldl_max l (max a x)
    rw [List.foldl_cons]
    refine ⟨(le_max_left a x).trans hstart, fun y hy ↦ ?_⟩
    rcases List.mem_cons.mp hy with rfl | hy
    · exact (le_max_right a y).trans hstart
    · exact hmem y hy

/-- The running minimum is at most the start and every element. -/
theorem foldl_min_le : ∀ (l : List β) (a : β), l.foldl min a ≤ a ∧ ∀ x ∈ l, l.foldl min a ≤ x
  | [], a => ⟨le_rfl, fun _ h ↦ absurd h List.not_mem_nil⟩
  | x :: l, a => by
    obtain ⟨hstart, hmem⟩ := foldl_min_le l (min a x)
    rw [List.foldl_cons]
    refine ⟨hstart.trans (min_le_left a x), fun y hy ↦ ?_⟩
    rcases List.mem_cons.mp hy with rfl | hy
    · exact hstart.trans (min_le_right a y)
    · exact hmem y hy

/-- A lower bound of the start and of every element bounds the running minimum. -/
theorem le_foldl_min {b : β} : ∀ {l : List β} {a : β}, b ≤ a → (∀ x ∈ l, b ≤ x) →
    b ≤ l.foldl min a
  | [], _, ha, _ => ha
  | x :: _, _, ha, hl => by
    rw [List.foldl_cons]
    exact le_foldl_min (le_min ha (hl x List.mem_cons_self))
      fun y hy ↦ hl y (List.mem_cons_of_mem x hy)

end Lib
