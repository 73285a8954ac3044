import Srt2Dvbsub.CLib.Scan
import Srt2Dvbsub.Lib.Loop

/-!
# The language table of `--help`

`print_help` (`utils.c`) lists the accepted language codes in as many columns as the terminal
allows. It measures the display width of each entry (`elens`) and their maximum `maxlen`
(`maxEntryWidth`). It reads the terminal width from `ioctl`, or else from `COLUMNS` through
`atoi`, or else takes `80` (`terminalWidth`). It then starts from `term_w / (maxlen + 4)`
columns, clamped to `1 .. lang_count` (`initialColumns`). The column-fitting loop
(`fitColumnsStep`) lays the entries out column by column in `rows = ⌈lang_count / cols⌉`
rows. It stops when the widths of the columns plus the gaps fit the terminal
(`totalWidth`), and otherwise tries one column fewer, going back to `1` from `0`.
`print_language_table` runs the same loop again, starting from the width of the first entry
instead of `maxlen`.

The loop is run with `Lib.whileFuel` (`fitColumns`). Every layout is at least as wide as the
widest entry (`maxEntryWidth_le_totalWidth`), and the one-column layout is exactly that wide
(`totalWidth_one`). So the loop's fate is decided by `maxlen` against `term_w`:

* `fitColumns_of_fits`: when the widest entry fits, the loop ends within `cols + 1` iterations.
  It ends with the largest column count, at most the start, whose layout fits.
* `fitColumns_eq_none`: when it does not, one column does not fit either, and from one column
  the loop goes back to one column. So every fuel runs out: the loop never ends.
* `printHelpColumns_terminates_iff`: for both callers, the loop ends exactly when some layout
  fits the terminal, that is when `maxlen ≤ term_w`, and then its layout fits.

Scope. The entries enter as their display widths. A failing `calloc` ends the loop through
the fallback list; the results take every `calloc` of the loop to succeed. The casts
`(int)(maxlen + gap)` and `(int)total` are taken without overflow.
-/

set_option autoImplicit false
set_option relaxedAutoImplicit false

namespace Srt2Dvbsub.Cli

open CLib

/-- `gap`: the spaces between two columns. -/
def columnGap : ℕ := 4

/-- `maxlen`: the widest entry, a running maximum from `0`. -/
def maxEntryWidth (elens : List ℕ) : ℕ := elens.foldr max 0

/-- `term_w`: the `ws_col` of `ioctl(TIOCGWINSZ)` when it succeeds with a positive width, else
`atoi(getenv("COLUMNS"))` when the variable is set, else `80`. -/
def terminalWidth (wsCol : Option ℕ) (columnsEnv : Option (List Char)) : ℤ :=
  match wsCol with
  | some col => if col > 0 then col else columnsEnv.elim 80 atoi
  | none => columnsEnv.elim 80 atoi

/-- `rows = (lang_count + cols - 1) / cols`. -/
def columnRows (langCount cols : ℕ) : ℕ := (langCount + cols - 1) / cols

/-- `col_widths[c]`: the widest of the entries `c * rows`, ..., `c * rows + rows - 1` that
exist. -/
def columnWidth (elens : List ℕ) (rows c : ℕ) : ℕ :=
  ((elens.drop (c * rows)).take rows).foldr max 0

/-- `total`: the widths of the `cols` columns and the gaps between them. -/
def totalWidth (elens : List ℕ) (cols rows : ℕ) : ℕ :=
  ((List.range cols).map (columnWidth elens rows)).sum + columnGap * (cols - 1)

/-- The variables the loop leaves: `cols`, `rows`, and `fallback` after a failed `calloc`. -/
structure ColumnFit where
  cols : ℕ
  rows : ℕ
  fallback : Bool
  deriving DecidableEq, Repr

/-- One iteration of `while (cols >= 1)` on `(cols, rows)`, with the outcome of
`calloc((size_t)cols, sizeof(size_t))` for each size. -/
def fitColumnsStep (calloc : ℕ → Bool) (termW : ℤ) (elens : List ℕ) (s : ℕ × ℕ) :
    (ℕ × ℕ) ⊕ ColumnFit :=
  let cols := s.1
  if cols ≥ 1 then
    let rows := columnRows elens.length cols
    if calloc cols then
      if (totalWidth elens cols rows : ℤ) ≤ termW then .inr ⟨cols, rows, false⟩
      else
        -- one column fewer, and `1` again after `0`
        let cols := cols - 1
        .inl (if cols = 0 then 1 else cols, rows)
    else .inr ⟨cols, rows, true⟩
  else .inr ⟨cols, s.2, false⟩

/-- The loop from `cols` columns and `rows = 0`, for at most `fuel` iterations. -/
def fitColumns (calloc : ℕ → Bool) (termW : ℤ) (elens : List ℕ) (cols fuel : ℕ) :
    Option ColumnFit :=
  Lib.whileFuel (fitColumnsStep calloc termW elens) fuel (cols, 0)

/-- `cols = term_w / (int)(width + gap)`, then `1` if below `1`, then `lang_count` if above it. -/
def initialColumns (termW : ℤ) (width langCount : ℕ) : ℕ :=
  let cols := termW.tdiv (width + columnGap)
  let cols := if cols < 1 then 1 else cols
  (if cols > langCount then (langCount : ℤ) else cols).toNat

/-- The loop of `print_help`, starting from `maxlen`. -/
def printHelpColumns (calloc : ℕ → Bool) (termW : ℤ) (elens : List ℕ) (fuel : ℕ) :
    Option ColumnFit :=
  fitColumns calloc termW elens (initialColumns termW (maxEntryWidth elens) elens.length) fuel

/-- The loop of `print_language_table`, starting from `elens[0]`. -/
def printLanguageTableColumns (calloc : ℕ → Bool) (termW : ℤ) (elens : List ℕ) (fuel : ℕ) :
    Option ColumnFit :=
  fitColumns calloc termW elens (initialColumns termW (elens.headD 0) elens.length) fuel

/-! ### Widths of a layout -/

theorem maxEntryWidth_le {elens : List ℕ} {b : ℕ} (hb : ∀ w ∈ elens, w ≤ b) :
    maxEntryWidth elens ≤ b :=
  List.max_le_of_forall_le elens b hb

/-- The `rows` of a layout hold every entry: `lang_count ≤ cols * rows`. -/
theorem length_le_mul_columnRows (n : ℕ) {cols : ℕ} (hcols : 1 ≤ cols) :
    n ≤ cols * columnRows n cols := by
  have hdiv := Nat.div_add_mod (n + cols - 1) cols
  have hmod := Nat.mod_lt (n + cols - 1) (by omega : cols > 0)
  unfold columnRows
  omega

/-- Entry `i` lies in column `i / rows`, which is at least as wide. -/
theorem getElem_le_columnWidth {elens : List ℕ} {rows i : ℕ} (hrows : 0 < rows)
    (hi : i < elens.length) : elens[i] ≤ columnWidth elens rows (i / rows) := by
  have hsplit : i = i / rows * rows + i % rows := (Nat.div_add_mod' i rows).symm
  have hmod : i % rows < rows := Nat.mod_lt i hrows
  have hmem : elens[i] ∈ (elens.drop (i / rows * rows)).take rows := by
    refine List.mem_iff_getElem.mpr ⟨i % rows, ?_, ?_⟩
    · simp only [List.length_take, List.length_drop]
      omega
    · simp only [List.getElem_take, List.getElem_drop]
      congr 1
      omega
  exact List.le_max_of_le hmem le_rfl

/-- Every layout is at least as wide as the widest entry. -/
theorem maxEntryWidth_le_totalWidth (elens : List ℕ) {cols : ℕ} (hcols : 1 ≤ cols) :
    maxEntryWidth elens ≤ totalWidth elens cols (columnRows elens.length cols) := by
  apply maxEntryWidth_le
  intro w hw
  obtain ⟨i, hi, rfl⟩ := List.mem_iff_getElem.mp hw
  set rows := columnRows elens.length cols
  have hcover : elens.length ≤ cols * rows := length_le_mul_columnRows elens.length hcols
  have hrows : 0 < rows := Nat.pos_of_ne_zero fun h ↦ by
    rw [h, Nat.mul_zero] at hcover
    omega
  have hcol : i / rows < cols :=
    (Nat.div_lt_iff_lt_mul hrows).mpr (Nat.lt_of_lt_of_le hi hcover)
  calc elens[i]
      ≤ columnWidth elens rows (i / rows) := getElem_le_columnWidth hrows hi
    _ ≤ ((List.range cols).map (columnWidth elens rows)).sum :=
        List.le_sum_of_mem (List.mem_map.mpr ⟨i / rows, List.mem_range.mpr hcol, rfl⟩)
    _ ≤ totalWidth elens cols rows := Nat.le_add_right _ _

/-- One column is exactly as wide as the widest entry. -/
theorem totalWidth_one (elens : List ℕ) :
    totalWidth elens 1 (columnRows elens.length 1) = maxEntryWidth elens := by
  simp [totalWidth, columnWidth, columnRows, maxEntryWidth]

/-! ### The loop -/

section Loop

variable {calloc : ℕ → Bool} {termW : ℤ} {elens : List ℕ}

/-- An iteration from `cols ≥ 1` columns whose `calloc` succeeds: it stops on a layout that fits,
and otherwise continues with one column fewer, or one. -/
theorem fitColumnsStep_of_pos {cols rows : ℕ} (hcols : 1 ≤ cols) (hcalloc : calloc cols = true) :
    fitColumnsStep calloc termW elens (cols, rows) =
      if (totalWidth elens cols (columnRows elens.length cols) : ℤ) ≤ termW then
        .inr ⟨cols, columnRows elens.length cols, false⟩
      else .inl (if cols - 1 = 0 then 1 else cols - 1, columnRows elens.length cols) := by
  simp only [fitColumnsStep, ge_iff_le, hcols, ↓reduceIte, hcalloc]

/-- What the loop achieves when it ends: a layout of at least one column that fits, with the
most columns up to the start `cols₀` that fit. -/
def FitsGreedily (termW : ℤ) (elens : List ℕ) (cols₀ : ℕ) (r : ColumnFit) : Prop :=
  r.fallback = false ∧ 1 ≤ r.cols ∧ r.cols ≤ cols₀ ∧ r.rows = columnRows elens.length r.cols ∧
    (totalWidth elens r.cols r.rows : ℤ) ≤ termW ∧
    ∀ c, r.cols < c → c ≤ cols₀ → termW < totalWidth elens c (columnRows elens.length c)

variable (hcalloc : ∀ c, calloc c = true)
include hcalloc

/-- When the widest entry fits, the loop from `cols₀ ≥ 1` columns ends within `cols₀ + 1`
iterations, with the most columns up to `cols₀` whose layout fits. -/
theorem fitColumns_of_fits {cols₀ : ℕ} (hcols₀ : 1 ≤ cols₀)
    (hfits : (maxEntryWidth elens : ℤ) ≤ termW) :
    ∃ r, fitColumns calloc termW elens cols₀ (cols₀ + 1) = some r ∧
      FitsGreedily termW elens cols₀ r := by
  let inv : ℕ × ℕ → Prop := fun s ↦ 1 ≤ s.1 ∧ s.1 ≤ cols₀ ∧
    ∀ c, s.1 < c → c ≤ cols₀ → termW < totalWidth elens c (columnRows elens.length c)
  refine Lib.whileFuel_spec inv Prod.fst (FitsGreedily termW elens cols₀) ?_ (cols₀, 0)
    ⟨hcols₀, le_rfl, fun c hlt hle ↦ absurd hle (by omega)⟩
  rintro ⟨cols, rows⟩ ⟨hpos, hle, habove⟩
  rw [fitColumnsStep_of_pos hpos (hcalloc cols)]
  by_cases hfit : (totalWidth elens cols (columnRows elens.length cols) : ℤ) ≤ termW
  · rw [if_pos hfit]
    exact ⟨rfl, hpos, hle, rfl, hfit, habove⟩
  · rw [if_neg hfit]
    have htwo : 2 ≤ cols := by
      by_contra hone
      have hcols : cols = 1 := by omega
      rw [hcols, totalWidth_one] at hfit
      exact hfit hfits
    rw [if_neg (by omega)]
    refine ⟨⟨by omega, by omega, fun c hlt hle' ↦ ?_⟩, by dsimp only; omega⟩
    by_cases hc : c = cols
    · subst hc
      exact lt_of_not_ge hfit
    · exact habove c (by omega) hle'

/-- When the widest entry does not fit, the loop from `cols₀ ≥ 1` columns never ends: no
layout fits, and from one column it goes back to one column. -/
theorem fitColumns_eq_none {cols₀ : ℕ} (hcols₀ : 1 ≤ cols₀)
    (hwide : termW < maxEntryWidth elens) (fuel : ℕ) :
    fitColumns calloc termW elens cols₀ fuel = none := by
  refine Lib.whileFuel_eq_none_of_closed (fun s ↦ 1 ≤ s.1) ?_ fuel (cols₀, 0) hcols₀
  rintro ⟨cols, rows⟩ hpos
  have hover : termW < totalWidth elens cols (columnRows elens.length cols) :=
    lt_of_lt_of_le hwide (by exact_mod_cast maxEntryWidth_le_totalWidth elens hpos)
  rw [fitColumnsStep_of_pos hpos (hcalloc cols), if_neg (not_le.mpr hover)]
  exact ⟨_, rfl, by dsimp only; split_ifs <;> omega⟩

/-- The loop from `cols₀ ≥ 1` columns ends exactly when the widest entry fits, and then with a
layout that fits. -/
theorem fitColumns_terminates_iff {cols₀ : ℕ} (hcols₀ : 1 ≤ cols₀) :
    ((∃ fuel r, fitColumns calloc termW elens cols₀ fuel = some r) ↔
        (maxEntryWidth elens : ℤ) ≤ termW) ∧
      ∀ fuel r, fitColumns calloc termW elens cols₀ fuel = some r →
        FitsGreedily termW elens cols₀ r := by
  have hends : ∀ fuel r, fitColumns calloc termW elens cols₀ fuel = some r →
      (maxEntryWidth elens : ℤ) ≤ termW := by
    intro fuel r hrun
    by_contra hwide
    rw [fitColumns_eq_none hcalloc hcols₀ (lt_of_not_ge hwide)] at hrun
    cases hrun
  refine ⟨⟨fun ⟨fuel, r, hrun⟩ ↦ hends fuel r hrun, fun hfits ↦ ?_⟩, fun fuel r hrun ↦ ?_⟩
  · obtain ⟨r, hrun, -⟩ := fitColumns_of_fits hcalloc hcols₀ hfits
    exact ⟨_, r, hrun⟩
  · obtain ⟨r', hrun', hgreedy⟩ := fitColumns_of_fits hcalloc hcols₀ (hends fuel r hrun)
    exact Lib.whileFuel_eq_of_some hrun' hrun ▸ hgreedy

end Loop

/-- The start of both loops has at least one column when there are entries. -/
theorem one_le_initialColumns (termW : ℤ) (width : ℕ) {langCount : ℕ} (hn : 1 ≤ langCount) :
    1 ≤ initialColumns termW width langCount := by
  unfold initialColumns
  dsimp only
  split_ifs <;> omega

/-- Some layout of one column or more fits the terminal. -/
def SomeLayoutFits (termW : ℤ) (elens : List ℕ) : Prop :=
  ∃ c, 1 ≤ c ∧ (totalWidth elens c (columnRows elens.length c) : ℤ) ≤ termW

/-- Some layout fits exactly when the one-column layout does. -/
theorem someLayoutFits_iff (termW : ℤ) (elens : List ℕ) :
    SomeLayoutFits termW elens ↔ (maxEntryWidth elens : ℤ) ≤ termW := by
  constructor
  · rintro ⟨c, hc, hfit⟩
    exact le_trans (by exact_mod_cast maxEntryWidth_le_totalWidth elens hc) hfit
  · intro hfits
    exact ⟨1, le_rfl, by rw [totalWidth_one]; exact hfits⟩

/-- Both copies of the column-fitting loop, for every terminal width (also `0` or negative) and
entry widths, with every `calloc` succeeding. Each loop ends exactly when some layout of one
column or more fits the terminal, which is exactly when the widest entry fits. A loop that ends
leaves a layout of at least one column that fits. -/
theorem printHelpColumns_terminates_iff (calloc : ℕ → Bool) (hcalloc : ∀ c, calloc c = true)
    (termW : ℤ) (elens : List ℕ) (hn : elens ≠ []) :
    ((∃ fuel r, printHelpColumns calloc termW elens fuel = some r) ↔
        SomeLayoutFits termW elens) ∧
      ((∃ fuel r, printLanguageTableColumns calloc termW elens fuel = some r) ↔
        SomeLayoutFits termW elens) ∧
      (SomeLayoutFits termW elens ↔ (maxEntryWidth elens : ℤ) ≤ termW) ∧
      ∀ fuel r, printHelpColumns calloc termW elens fuel = some r ∨
          printLanguageTableColumns calloc termW elens fuel = some r →
        1 ≤ r.cols ∧ (totalWidth elens r.cols r.rows : ℤ) ≤ termW := by
  have hlen : 1 ≤ elens.length := List.length_pos_iff.mpr hn
  have hachievable := someLayoutFits_iff termW elens
  have hhelp := @fitColumns_terminates_iff calloc termW elens hcalloc _
    (one_le_initialColumns termW (maxEntryWidth elens) hlen)
  have htable := @fitColumns_terminates_iff calloc termW elens hcalloc _
    (one_le_initialColumns termW (elens.headD 0) hlen)
  refine ⟨hhelp.1.trans hachievable.symm, htable.1.trans hachievable.symm, hachievable, ?_⟩
  rintro fuel r (hrun | hrun)
  · obtain ⟨-, hpos, -, -, hfit, -⟩ := hhelp.2 fuel r hrun
    exact ⟨hpos, hfit⟩
  · obtain ⟨-, hpos, -, -, hfit, -⟩ := htable.2 fuel r hrun
    exact ⟨hpos, hfit⟩

/-- `COLUMNS=10` on a pipe, with a widest entry of `30` columns: no fuel ends either loop. -/
theorem printHelpColumns_terminates_iff_narrow :
    (∀ fuel, printHelpColumns (fun _ ↦ true) (terminalWidth none (some "10".toList)) [30, 12] fuel =
        none) ∧
      (∀ fuel, printLanguageTableColumns (fun _ ↦ true) (terminalWidth none (some "10".toList))
        [30, 12] fuel = none) := by
  have htermW : terminalWidth none (some "10".toList) = 10 := by decide
  have h := printHelpColumns_terminates_iff (fun _ ↦ true) (fun _ ↦ rfl) 10 [30, 12] (by simp)
  have hwide : ¬ ((maxEntryWidth [30, 12] : ℕ) : ℤ) ≤ 10 := by decide
  rw [htermW]
  constructor
  · intro fuel
    cases hrun : printHelpColumns (fun _ ↦ true) 10 [30, 12] fuel with
    | none => rfl
    | some r => exact absurd (h.2.2.1.mp (h.1.mp ⟨fuel, r, hrun⟩)) hwide
  · intro fuel
    cases hrun : printLanguageTableColumns (fun _ ↦ true) 10 [30, 12] fuel with
    | none => rfl
    | some r => exact absurd (h.2.2.1.mp (h.2.1.mp ⟨fuel, r, hrun⟩)) hwide

end Srt2Dvbsub.Cli
