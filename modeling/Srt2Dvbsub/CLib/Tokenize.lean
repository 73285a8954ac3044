import Mathlib

/-!
# Tokenizing and trimming C strings

C strings are modelled as the list of their bytes before the terminating NUL, over an
arbitrary element type. This module is the part of the C library that the option and list
parsers rest on.

`strtokR` is one call of POSIX `strtok_r` on the rest of the string kept in `saveptr`: it
skips the delimiters in front, returns the longest run of non-delimiters as the token and
resumes after the delimiter that ends it, or answers `NULL` when only delimiters are left.
`strtokAll` is the sequence of tokens that a loop
`tok = strtok_r(s, d, &save); while (tok) { ...; tok = strtok_r(NULL, d, &save); }`
sees. `strtokAll_eq_nonemptyFields` identifies it with the non-empty fields of
`List.splitOnP`: a run of delimiters counts as one, delimiters at either end are ignored,
and no token is empty (`mem_strtokAll_ne_nil`). `strtokAll_intercalate` is the round trip
with `List.intercalate` for fields that are non-empty and free of the delimiter, and
`strtokAll_intercalate_of_empty` shows that an empty field is dropped, every later field
moving one place to the front.

`trimBoth` strips the elements of a class at both ends of a list, and `isspace` is the
C-locale whitespace class.
-/

set_option autoImplicit false
set_option relaxedAutoImplicit false

namespace Srt2Dvbsub.CLib

/-! ### `strtok_r` -/

section Strtok

variable {α : Type*} (delim : α → Bool)

/-- One call of `strtok_r` on the rest `s` of the string: `none` is the `NULL` return, and
`some (token, rest)` the token with the rest stored back into `saveptr`. -/
def strtokR (s : List α) : Option (List α × List α) :=
  match s.dropWhile delim with
  | [] => none
  | a :: t =>
    some ((a :: t).takeWhile (fun c ↦ !delim c), ((a :: t).dropWhile (fun c ↦ !delim c)).drop 1)

/-- The tokens of at most `fuel` further calls of `strtok_r`, stopping at the first `NULL`. -/
def strtokLoop : ℕ → List α → List (List α)
  | 0, _ => []
  | fuel + 1, s =>
    match strtokR delim s with
    | none => []
    | some (token, rest) => token :: strtokLoop fuel rest

/-- Every token of a `strtok_r` loop over `s`, in order. Each call consumes at least one
element, so `s.length + 1` calls reach the `NULL`. -/
def strtokAll (s : List α) : List (List α) :=
  strtokLoop delim (s.length + 1) s

/-- The fields of `s` between delimiters that are not empty: what `strtok_r` is documented to
return. -/
def nonemptyFields (s : List α) : List (List α) :=
  (s.splitOnP delim).filter (fun field ↦ !field.isEmpty)

variable {delim}

theorem nonemptyFields_cons_of_delim {a : α} (s : List α) (ha : delim a) :
    nonemptyFields delim (a :: s) = nonemptyFields delim s := by
  simp [nonemptyFields, List.splitOnP_cons_eq_if_modifyHead, ha]

/-- Delimiters in front of the string only open empty fields. -/
theorem nonemptyFields_dropWhile (s : List α) :
    nonemptyFields delim (s.dropWhile delim) = nonemptyFields delim s := by
  induction s with
  | nil => rfl
  | cons a s ih =>
    by_cases ha : delim a
    · rw [List.dropWhile_cons_of_pos ha, ih, nonemptyFields_cons_of_delim s ha]
    · rw [List.dropWhile_cons_of_neg ha]

/-- A string that starts with a non-delimiter has its first run of non-delimiters as first
non-empty field, and the fields after the delimiter that ends the run as the others. -/
theorem nonemptyFields_of_head {a : α} (t : List α) (ha : delim a = false) :
    nonemptyFields delim (a :: t) =
      (a :: t).takeWhile (fun c ↦ !delim c) ::
        nonemptyFields delim (((a :: t).dropWhile (fun c ↦ !delim c)).drop 1) := by
  set token := (a :: t).takeWhile (fun c ↦ !delim c) with htoken
  have hsplit : token ++ (a :: t).dropWhile (fun c ↦ !delim c) = a :: t :=
    List.takeWhile_append_dropWhile
  have hclean : ∀ c ∈ token, delim c = false := by
    intro c hc
    simpa using List.mem_takeWhile_imp hc
  have hne : token ≠ [] := by simp [htoken, ha]
  have hkeep : (!token.isEmpty) = true := by simpa using hne
  cases hrest : (a :: t).dropWhile (fun c ↦ !delim c) with
  | nil =>
    rw [hrest, List.append_nil] at hsplit
    rw [← hsplit, nonemptyFields, List.splitOnP_eq_singleton hclean]
    simp [hkeep, nonemptyFields]
  | cons c r =>
    have hc : delim c = true := by
      have := List.head_dropWhile_not (fun c ↦ !delim c) (l := a :: t) (by simp [hrest])
      simpa [hrest] using this
    rw [hrest] at hsplit
    rw [← hsplit, nonemptyFields, List.splitOnP_append_cons_of_forall_mem hclean c hc]
    simp [hkeep, nonemptyFields]

/-- Enough fuel runs the loop to the end of the fields. -/
theorem strtokLoop_eq_nonemptyFields :
    ∀ (fuel : ℕ) (s : List α), s.length < fuel → strtokLoop delim fuel s = nonemptyFields delim s
  | 0, s, hs => absurd hs (Nat.not_lt_zero _)
  | fuel + 1, s, hs => by
    rw [strtokLoop, strtokR, ← nonemptyFields_dropWhile s]
    have hlen := List.length_dropWhile_le delim s
    cases hdrop : s.dropWhile delim with
    | nil => rfl
    | cons a t =>
      have ha : delim a = false := by
        have := List.head_dropWhile_not delim (l := s) (by simp [hdrop])
        simpa [hdrop] using this
      have hrest : (((a :: t).dropWhile (fun c ↦ !delim c)).drop 1).length < fuel := by
        have := List.length_dropWhile_le (fun c ↦ !delim c) (a :: t)
        rw [hdrop] at hlen
        simp only [List.length_drop, List.length_cons] at this hlen ⊢
        omega
      simp only
      rw [strtokLoop_eq_nonemptyFields fuel _ hrest, nonemptyFields_of_head t ha]

/-- The tokens of a `strtok_r` loop are the non-empty fields of the string. -/
theorem strtokAll_eq_nonemptyFields (s : List α) :
    strtokAll delim s = nonemptyFields delim s :=
  strtokLoop_eq_nonemptyFields _ s (Nat.lt_succ_self _)

/-- `strtok_r` never returns an empty token. -/
theorem mem_strtokAll_ne_nil {s token : List α} (h : token ∈ strtokAll delim s) :
    token ≠ [] := by
  rw [strtokAll_eq_nonemptyFields, nonemptyFields, List.mem_filter] at h
  simpa using h.2

end Strtok

/-! ### Round trip with a single separator -/

section RoundTrip

variable {α : Type*} [DecidableEq α]

/-- Splitting the fields joined by `sep` again gives them back, when none of them is empty or
holds `sep`. -/
theorem strtokAll_intercalate (sep : α) (fields : List (List α))
    (hsep : ∀ field ∈ fields, sep ∉ field) (hne : ∀ field ∈ fields, field ≠ []) :
    strtokAll (· == sep) ([sep].intercalate fields) = fields := by
  rw [strtokAll_eq_nonemptyFields, nonemptyFields, ← List.splitOn_eq_splitOnP]
  cases fields with
  | nil => simp
  | cons first rest =>
    rw [List.splitOn_intercalate sep hsep (List.cons_ne_nil _ _), List.filter_eq_self]
    intro field hfield
    simpa using hne field hfield

/-- An empty field between two separators is lost: the field after it takes its place. -/
theorem strtokAll_intercalate_of_empty (sep : α) (before after : List (List α))
    (hsep : ∀ field ∈ before ++ after, sep ∉ field)
    (hne : ∀ field ∈ before ++ after, field ≠ []) :
    strtokAll (· == sep) ([sep].intercalate (before ++ [] :: after)) = before ++ after := by
  rw [strtokAll_eq_nonemptyFields, nonemptyFields, ← List.splitOn_eq_splitOnP]
  have hsep' : ∀ field ∈ before ++ [] :: after, sep ∉ field := by
    intro field hfield
    rcases List.mem_append.mp hfield with h | h
    · exact hsep field (List.mem_append_left _ h)
    · rcases List.mem_cons.mp h with rfl | h
      · simp
      · exact hsep field (List.mem_append_right _ h)
  rw [List.splitOn_intercalate sep hsep' (by simp), List.filter_append, List.filter_cons]
  have hkeep : ∀ l ∈ before ++ after, (!l.isEmpty) = true := by
    intro field hfield
    simpa using hne field hfield
  rw [List.filter_eq_self.mpr (fun l hl ↦ hkeep l (List.mem_append_left _ hl)),
    List.filter_eq_self.mpr (fun l hl ↦ hkeep l (List.mem_append_right _ hl))]
  simp

end RoundTrip

/-! ### Trimming -/

section Trim

variable {α : Type*} (p : α → Bool)

/-- The list without the elements satisfying `p` at its start and at its end. -/
def trimBoth (s : List α) : List α :=
  ((s.dropWhile p).reverse.dropWhile p).reverse

variable {p}

/-- A list trims to nothing exactly when all its elements satisfy `p`. -/
@[simp] theorem trimBoth_eq_nil_iff (s : List α) :
    trimBoth p s = [] ↔ ∀ c ∈ s, p c := by
  rw [← List.dropWhile_eq_nil_iff]
  constructor
  · intro h
    cases hdrop : s.dropWhile p with
    | nil => rfl
    | cons a t =>
      have ha := List.head_dropWhile_not p (l := s) (by simp [hdrop])
      simp only [trimBoth, hdrop, List.reverse_eq_nil_iff, List.dropWhile_eq_nil_iff,
        List.mem_reverse] at h
      simp [hdrop] at ha
      simp [h a List.mem_cons_self] at ha
  · intro h
    simp [trimBoth, h]

/-- Every element of the trimmed list is an element of the list. -/
theorem mem_of_mem_trimBoth {s : List α} {c : α} (h : c ∈ trimBoth p s) : c ∈ s := by
  simp only [trimBoth, List.mem_reverse] at h
  exact List.dropWhile_subset p (List.mem_reverse.mp (List.dropWhile_subset p h))

theorem trimBoth_eq_rdropWhile (s : List α) :
    trimBoth p s = (s.dropWhile p).rdropWhile p :=
  rfl

/-- Trimming twice trims once: the trimmed list starts and ends outside `p`. -/
theorem trimBoth_idem (s : List α) : trimBoth p (trimBoth p s) = trimBoth p s := by
  have hhead : ∀ hl : 0 < (s.dropWhile p).length, ¬p ((s.dropWhile p).get ⟨0, hl⟩) :=
    List.dropWhile_eq_self_iff.mp (List.dropWhile_idempotent p s)
  have hkeep : ((s.dropWhile p).rdropWhile p).dropWhile p = (s.dropWhile p).rdropWhile p := by
    refine List.dropWhile_eq_self_iff.mpr fun hl ↦ ?_
    rw [(List.rdropWhile_prefix p (s.dropWhile p)).getElem hl]
    exact hhead _
  rw [trimBoth_eq_rdropWhile, trimBoth_eq_rdropWhile, hkeep, List.rdropWhile_idempotent]

/-- An element of the list is kept by the trim or satisfies `p`. -/
theorem mem_trimBoth_or {s : List α} {c : α} (hc : c ∈ s) : c ∈ trimBoth p s ∨ p c := by
  rw [← List.takeWhile_append_dropWhile (p := p) (l := s), List.mem_append] at hc
  rcases hc with htake | hdrop
  · exact Or.inr (List.mem_takeWhile_imp htake)
  · rw [← List.rdropWhile_append_rtakeWhile (p := p) (l := s.dropWhile p), List.mem_append] at hdrop
    rcases hdrop with hkept | hcut
    · exact Or.inl hkept
    · exact Or.inr (List.mem_rtakeWhile_imp hcut)

end Trim

/-- `isspace` in the C locale: space, tab, newline, vertical tab, form feed, carriage
return. -/
def isspace (c : Char) : Bool :=
  c == ' ' || c == '\t' || c == '\n' || c == '\x0b' || c == '\x0c' || c == '\r'

end Srt2Dvbsub.CLib
