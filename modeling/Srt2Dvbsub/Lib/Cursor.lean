import Mathlib

/-!
# A cursor over sorted thresholds

A loop that keeps a cursor into a list of thresholds and, each time a clock value arrives,
passes every next threshold the clock has reached: `while (cur < n && thr[cur] <= c) cur++`.
`advance thr c cur` is where one such loop leaves the cursor, and `runAdvance` the cursor
after a run of clock values, where `none` is a step that does not run the loop.

On sorted thresholds the cursor passes threshold `i` exactly when some clock value of the run
reaches it (`lt_runAdvance_iff`), and so during the first step whose clock reaches it
(`passedAt_iff`): later thresholds are never passed before earlier ones, however the clock
values move.
-/

set_option autoImplicit false
set_option relaxedAutoImplicit false

namespace Lib

variable {α : Type*} [LinearOrder α]

/-- Where the loop leaves a cursor at `cur` for the clock value `c`: past every next threshold
that is at most `c`. -/
def advance (thr : List α) (c : α) (cur : ℕ) : ℕ :=
  cur + ((thr.drop cur).takeWhile (· ≤ c)).length

/-- The cursor after each clock value of a run in turn; `none` leaves it in place. -/
def runAdvance (thr : List α) : ℕ → List (Option α) → ℕ
  | cur, [] => cur
  | cur, none :: cs => runAdvance thr cur cs
  | cur, some c :: cs => runAdvance thr (advance thr c cur) cs

section Advance

variable {thr : List α} {c : α} {cur : ℕ}

theorem le_advance : cur ≤ advance thr c cur :=
  Nat.le_add_right cur _

theorem advance_of_length_le (h : thr.length ≤ cur) : advance thr c cur = cur := by
  rw [advance, List.drop_eq_nil_of_le h, List.takeWhile_nil, List.length_nil, Nat.add_zero]

/-- One pass of the loop: a threshold the clock reaches is passed, and the loop goes on. -/
theorem advance_of_le (hcur : cur < thr.length) (h : thr[cur] ≤ c) :
    advance thr c cur = advance thr c (cur + 1) := by
  rw [advance, advance, List.drop_eq_getElem_cons hcur, List.takeWhile_cons_of_pos (by simpa),
    List.length_cons]
  omega

/-- The loop stops at the first threshold the clock does not reach. -/
theorem advance_of_lt (hcur : cur < thr.length) (h : c < thr[cur]) : advance thr c cur = cur := by
  rw [advance, List.drop_eq_getElem_cons hcur,
    List.takeWhile_cons_of_neg (by simpa using h), List.length_nil, Nat.add_zero]

/-- On sorted thresholds, the first `k` of a list are all reached exactly when the `k`-th is. -/
theorem lt_length_takeWhile_iff :
    ∀ {l : List α}, l.Pairwise (· ≤ ·) → ∀ {k : ℕ} (hk : k < l.length),
      k < (l.takeWhile (· ≤ c)).length ↔ l[k] ≤ c
  | [], _, _, hk => absurd hk (Nat.not_lt_zero _)
  | x :: l, hs, k, hk => by
    have hrest := List.pairwise_cons.mp hs
    by_cases hx : x ≤ c
    · rw [List.takeWhile_cons_of_pos (by simpa using hx), List.length_cons]
      cases k with
      | zero => simpa using hx
      | succ k =>
        rw [List.getElem_cons_succ, ← lt_length_takeWhile_iff hrest.2 (Nat.lt_of_succ_lt_succ hk)]
        omega
    · rw [List.takeWhile_cons_of_neg (by simpa using hx), List.length_nil]
      have hgt : c < (x :: l)[k] := by
        cases k with
        | zero => exact lt_of_not_ge hx
        | succ k => exact lt_of_lt_of_le (lt_of_not_ge hx) (hrest.1 _ (List.getElem_mem _))
      simp only [Nat.not_lt_zero, false_iff, not_le]
      exact hgt

/-- On sorted thresholds, the loop passes threshold `i` when the cursor was past it already or
the clock reaches it. -/
theorem lt_advance_iff (hs : thr.Pairwise (· ≤ ·)) {i : ℕ} (hi : i < thr.length) :
    i < advance thr c cur ↔ i < cur ∨ thr[i] ≤ c := by
  by_cases hic : i < cur
  · exact iff_of_true (lt_of_lt_of_le hic le_advance) (.inl hic)
  · have hdrop : i - cur < (thr.drop cur).length := by rw [List.length_drop]; omega
    have htake := lt_length_takeWhile_iff (c := c) (List.Pairwise.sublist (List.drop_sublist _ _) hs)
      hdrop
    simp only [List.getElem_drop, Nat.add_sub_cancel' (by omega : cur ≤ i)] at htake
    rw [advance, ← htake]
    omega

end Advance

section Run

variable {thr : List α}

/-- On sorted thresholds, a run has passed threshold `i` when the cursor started past it or
one of its clock values reaches it. -/
theorem lt_runAdvance_iff (hs : thr.Pairwise (· ≤ ·)) {i : ℕ} (hi : i < thr.length) :
    ∀ (cur : ℕ) (cs : List (Option α)),
      i < runAdvance thr cur cs ↔ i < cur ∨ ∃ c, some c ∈ cs ∧ thr[i] ≤ c
  | cur, [] => by simp [runAdvance]
  | cur, none :: cs => by
    rw [runAdvance, lt_runAdvance_iff hs hi cur cs]
    simp
  | cur, some c :: cs => by
    rw [runAdvance, lt_runAdvance_iff hs hi _ cs, lt_advance_iff hs hi]
    constructor
    · rintro ((h | h) | ⟨c', hc', h⟩)
      · exact .inl h
      · exact .inr ⟨c, List.mem_cons_self, h⟩
      · exact .inr ⟨c', List.mem_cons_of_mem _ hc', h⟩
    · rintro (h | ⟨c', hc', h⟩)
      · exact .inl (.inl h)
      · rcases List.mem_cons.mp hc' with heq | hc'
        · cases heq
          exact .inl (.inr h)
        · exact .inr ⟨c', hc', h⟩

omit [LinearOrder α] in
/-- A clock value among the first `k` of a run, by its position. -/
theorem some_mem_take_iff {cs : List (Option α)} {k : ℕ} {c : α} :
    some c ∈ cs.take k ↔ ∃ k' < k, cs[k']? = some (some c) := by
  rw [List.mem_iff_getElem?]
  constructor
  · rintro ⟨k', hk'⟩
    have hlt : k' < k := by
      have := (List.getElem?_eq_some_iff.mp hk').1
      rw [List.length_take] at this
      omega
    exact ⟨k', hlt, by rwa [List.getElem?_take_of_lt hlt] at hk'⟩
  · rintro ⟨k', hlt, hk'⟩
    exact ⟨k', by rwa [List.getElem?_take_of_lt hlt]⟩

/-- On sorted thresholds, the run from the start passes threshold `i` during step `k` exactly
when step `k` is the first whose clock value reaches it. -/
theorem passedAt_iff (hs : thr.Pairwise (· ≤ ·)) {i : ℕ} (hi : i < thr.length)
    (cs : List (Option α)) (k : ℕ) :
    (runAdvance thr 0 (cs.take k) ≤ i ∧ i < runAdvance thr 0 (cs.take (k + 1))) ↔
      (∃ c, cs[k]? = some (some c) ∧ thr[i] ≤ c) ∧
        ∀ k' < k, ∀ c, cs[k']? = some (some c) → c < thr[i] := by
  have hbefore : runAdvance thr 0 (cs.take k) ≤ i ↔
      ∀ k' < k, ∀ c, cs[k']? = some (some c) → c < thr[i] := by
    rw [← not_lt, lt_runAdvance_iff hs hi]
    simp only [Nat.not_lt_zero, false_or, not_exists, not_and, not_le, some_mem_take_iff]
    constructor
    · intro h k' hk' c hc
      exact h c ⟨k', hk', hc⟩
    · rintro h c ⟨k', hk', hc⟩
      exact h k' hk' c hc
  have hafter : i < runAdvance thr 0 (cs.take (k + 1)) ↔
      ∃ c, (∃ k' < k + 1, cs[k']? = some (some c)) ∧ thr[i] ≤ c := by
    rw [lt_runAdvance_iff hs hi]
    simp only [Nat.not_lt_zero, false_or, some_mem_take_iff]
  rw [hbefore, hafter]
  constructor
  · rintro ⟨hfirst, c, ⟨k', hk', hc⟩, hle⟩
    rcases Nat.lt_succ_iff_lt_or_eq.mp hk' with hlt | rfl
    · exact absurd hle (not_le.mpr (hfirst k' hlt c hc))
    · exact ⟨⟨c, hc, hle⟩, hfirst⟩
  · rintro ⟨⟨c, hc, hle⟩, hfirst⟩
    exact ⟨hfirst, c, ⟨k, Nat.lt_succ_self k, hc⟩, hle⟩

end Run

end Lib
