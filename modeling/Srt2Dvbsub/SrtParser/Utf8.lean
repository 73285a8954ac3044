import Srt2Dvbsub.Lib.Utf8

/-!
# The UTF-8 scans of the parser and of the QC report

Three loops of the program walk a C string one UTF-8 sequence at a time, each its own way.

* `u8_len` and `visible_len` step over a whole sequence only when the continuation bytes its
  lead byte announces are there (`seqStep`), and over one byte otherwise; `visible_len` also
  skips markup in `<...>` and `{...}`.
* `sanitize_utf8` checks the sequence at each position with `validate_utf8_sequence`, which
  replaces a bad lead byte by `?` in place, and then steps by the length that the byte now at
  the position announces. The output has the length of the input, differs from it only in
  bytes replaced by `?`, and is structurally valid (`sanitizeUtf8_structUtf8`); a valid input
  comes back unchanged, so the function is idempotent.
* `qc_check_entry` counts the characters of each line and steps by the length a lead byte
  announces without looking at what follows (`qcLineScan`). A lead byte at the end of the text
  carries the cursor past the terminating NUL, and one before a newline carries it over the
  newline, so the line statistics differ from the lines measured with `u8_len`
  (`qcLineStats_overrunsNul`).
-/

set_option autoImplicit false
set_option relaxedAutoImplicit false

namespace Srt2Dvbsub.SrtParser

open Lib

/-! ### `u8_len` and `visible_len` -/

/-- The bytes after the first `d`, where `strchr(s, d) + 1` points; `none` when there is no `d`. -/
def afterFirst (d : Char) : List Char → Option (List Char)
  | [] => none
  | c :: rest => if c = d then some rest else afterFirst d rest

theorem length_lt_of_afterFirst {d : Char} :
    ∀ {s after : List Char}, afterFirst d s = some after → after.length < s.length
  | [], _, h => by cases h
  | c :: rest, after, h => by
    unfold afterFirst at h
    split_ifs at h
    · cases h
      exact Nat.lt_succ_self _
    · exact Nat.lt_succ_of_lt (length_lt_of_afterFirst h)

/-- `afterFirst` splits the string at its first `d`. -/
theorem afterFirst_eq_some {d : Char} :
    ∀ {s after : List Char}, afterFirst d s = some after → ∃ pre, d ∉ pre ∧ s = pre ++ d :: after
  | [], _, h => by cases h
  | c :: rest, after, h => by
    unfold afterFirst at h
    split_ifs at h with hc
    · cases h
      exact ⟨[], by simp, by rw [hc, List.nil_append]⟩
    · obtain ⟨pre, hpre, rfl⟩ := afterFirst_eq_some h
      exact ⟨c :: pre, by simp [hpre, Ne.symm hc], rfl⟩

theorem afterFirst_append_cons {d : Char} {pre : List Char} (after : List Char) (hpre : d ∉ pre) :
    afterFirst d (pre ++ d :: after) = some after := by
  induction pre with
  | nil => simp [afterFirst]
  | cons c pre ih =>
    have hc : c ≠ d := fun h ↦ hpre (h ▸ List.mem_cons_self)
    rw [List.cons_append, afterFirst, if_neg hc, ih (fun h ↦ hpre (List.mem_cons_of_mem c h))]

/-- The number of bytes `u8_len` and `visible_len` step over at the byte `c` followed by
`rest`: the whole sequence when its continuation bytes are there, else one byte. -/
def seqStep (c : Char) (rest : List Char) : ℕ :=
  if asciiByte c then 1
  else if lead2 c && contPrefix 1 rest then 2
  else if lead3 c && contPrefix 2 rest then 3
  else if lead4 c && contPrefix 3 rest then 4
  else 1

/-- `u8_len(s)`: the sequences of `s`, a truncated or invalid one counting one byte. -/
def u8Len : List Char → ℕ
  | [] => 0
  | c :: rest => u8Len (rest.drop (seqStep c rest - 1)) + 1
termination_by s => s.length
decreasing_by simp only [List.length_drop, List.length_cons]; omega

/-- Where the markup that starts at `c` ends: after the first `>` for a `<`, after the first `}`
for a `{`; `none` when the closing byte is missing or `c` opens no markup. -/
def markupEnd (c : Char) (rest : List Char) : Option (List Char) :=
  if c = '<' then afterFirst '>' rest
  else if c = '{' then afterFirst '}' rest
  else none

theorem length_lt_of_markupEnd {c : Char} {rest after : List Char}
    (h : markupEnd c rest = some after) : after.length < (c :: rest).length := by
  unfold markupEnd at h
  split_ifs at h
  · exact Nat.lt_succ_of_lt (length_lt_of_afterFirst h)
  · exact Nat.lt_succ_of_lt (length_lt_of_afterFirst h)

/-- `visible_len(s)`: the sequences of `s` outside `<...>` and `{...}` markup. -/
def visibleLen : List Char → ℕ
  | [] => 0
  | c :: rest =>
    match h : markupEnd c rest with
    | some after => visibleLen after
    | none => visibleLen (rest.drop (seqStep c rest - 1)) + 1
termination_by s => s.length
decreasing_by
  · exact length_lt_of_markupEnd h
  · simp only [List.length_drop, List.length_cons]; omega

/-! ### `validate_utf8_sequence` and `sanitize_utf8` -/

/-- `validate_utf8_sequence(s, len, sanitize)` on the bytes from a position to the end of the
string: whether the sequence there is whole, and the bytes after the check, whose first is `?`
when it was not and `sanitize` is set. -/
def validateUtf8Sequence (s : List Char) (sanitize : Bool) : Bool × List Char :=
  match s with
  | [] => (true, [])
  | c :: rest =>
    let valid :=
      if asciiByte c then true
      else if lead2 c then contPrefix 1 rest
      else if lead3 c then contPrefix 2 rest
      else if lead4 c then contPrefix 3 rest
      else false
    (valid, if !valid && sanitize then '?' :: rest else c :: rest)

/-- The loop of `sanitize_utf8` from a position to the end: the bytes it leaves, and the number
of sequences it found broken (`encoding_errors_fixed`). After the check, the loop steps by the
length the byte left at the position announces, one for a `?`. -/
def sanitizeFrom : List Char → List Char × ℕ
  | [] => ([], 0)
  | c :: rest =>
    let checked := validateUtf8Sequence (c :: rest) true
    let lead := checked.2.headD c
    let tail := sanitizeFrom (rest.drop (announcedLen lead - 1))
    (lead :: rest.take (announcedLen lead - 1) ++ tail.1, (if checked.1 then 0 else 1) + tail.2)
termination_by s => s.length
decreasing_by simp only [List.length_drop, List.length_cons]; omega

/-- `sanitize_utf8(in, stats)`: the sanitized copy, and the count it adds to
`encoding_errors_fixed`. -/
def sanitizeUtf8 (s : List Char) : List Char × ℕ :=
  sanitizeFrom s

/-! ### What the sanitizer leaves -/

section Sanitize

variable {c : Char} {rest : List Char}

/-- A sequence that passes the check is whole: its lead byte with the continuation bytes it
announces. -/
theorem validateUtf8Sequence_unit (h : (validateUtf8Sequence (c :: rest) true).1 = true) :
    announcedLen c - 1 ≤ rest.length ∧ StructUtf8 (c :: rest.take (announcedLen c - 1)) := by
  simp only [validateUtf8Sequence] at h
  by_cases h1 : asciiByte c = true
  · rw [announcedLen_of_asciiByte h1]
    exact ⟨Nat.zero_le _, .one h1 .nil⟩
  rw [if_neg h1] at h
  by_cases h2 : lead2 c = true
  · rw [if_pos h2] at h
    rcases rest with _ | ⟨c₁, r⟩
    · simp at h
    · simp only [contPrefix_succ_cons, contPrefix_zero, Bool.and_true] at h
      rw [announcedLen_of_lead2 h2]
      exact ⟨by simp, .two h2 h .nil⟩
  rw [if_neg h2] at h
  by_cases h3 : lead3 c = true
  · rw [if_pos h3] at h
    rcases rest with _ | ⟨c₁, _ | ⟨c₂, r⟩⟩
    · simp at h
    · simp at h
    · simp only [contPrefix_succ_cons, contPrefix_zero, Bool.and_true, Bool.and_eq_true] at h
      rw [announcedLen_of_lead3 h3]
      exact ⟨by simp, .three h3 h.1 h.2 .nil⟩
  rw [if_neg h3] at h
  by_cases h4 : lead4 c = true
  · rw [if_pos h4] at h
    rcases rest with _ | ⟨c₁, _ | ⟨c₂, _ | ⟨c₃, r⟩⟩⟩
    · simp at h
    · simp at h
    · simp at h
    · simp only [contPrefix_succ_cons, contPrefix_zero, Bool.and_true, Bool.and_eq_true] at h
      rw [announcedLen_of_lead4 h4]
      exact ⟨by simp, .four h4 h.1 h.2.1 h.2.2 .nil⟩
  rw [if_neg h4] at h
  cases h

/-- A structurally valid string passes the check at its first byte, and the loop steps over the
first sequence. -/
theorem validateUtf8Sequence_of_structUtf8 (h : StructUtf8 (c :: rest)) :
    (validateUtf8Sequence (c :: rest) true).1 = true ∧
      StructUtf8 (rest.drop (announcedLen c - 1)) := by
  cases h with
  | one h1 hrest =>
    rw [announcedLen_of_asciiByte h1]
    exact ⟨by simp [validateUtf8Sequence, h1], hrest⟩
  | two h2 hc₁ hrest =>
    rw [announcedLen_of_lead2 h2]
    exact ⟨by simp [validateUtf8Sequence, asciiByte_eq_false_of_lead2 h2, h2, hc₁], hrest⟩
  | three h3 hc₁ hc₂ hrest =>
    rw [announcedLen_of_lead3 h3]
    refine ⟨?_, hrest⟩
    simp [validateUtf8Sequence, asciiByte_eq_false_of_lead3 h3, lead2_eq_false_of_lead3 h3, h3,
      hc₁, hc₂]
  | four h4 hc₁ hc₂ hc₃ hrest =>
    rw [announcedLen_of_lead4 h4]
    refine ⟨?_, hrest⟩
    simp [validateUtf8Sequence, asciiByte_eq_false_of_lead4 h4, lead2_eq_false_of_lead4 h4,
      lead3_eq_false_of_lead4 h4, h4, hc₁, hc₂, hc₃]

/-- The byte the check leaves at the position: the byte itself after a pass, `?` after a
failure. -/
theorem headD_validateUtf8Sequence :
    (validateUtf8Sequence (c :: rest) true).2.headD c =
      if (validateUtf8Sequence (c :: rest) true).1 then c else '?' := by
  simp only [validateUtf8Sequence]
  split_ifs <;> simp_all

/-- One step of the loop: the byte left at the position is the byte or `?`, the loop steps over
bytes that are there, and the byte with the bytes stepped over is a whole sequence. -/
theorem sanitizeFrom_lead {lead : Char}
    (hlead : (validateUtf8Sequence (c :: rest) true).2.headD c = lead) :
    (lead = c ∨ lead = '?') ∧ announcedLen lead - 1 ≤ rest.length ∧
      StructUtf8 (lead :: rest.take (announcedLen lead - 1)) := by
  rw [headD_validateUtf8Sequence] at hlead
  cases hvalid : (validateUtf8Sequence (c :: rest) true).1 with
  | true =>
    rw [hvalid, if_pos rfl] at hlead
    rw [← hlead]
    exact ⟨.inl rfl, validateUtf8Sequence_unit hvalid⟩
  | false =>
    have hq : asciiByte '?' = true := by decide
    rw [hvalid] at hlead
    simp only [Bool.false_eq_true, ↓reduceIte] at hlead
    rw [← hlead, announcedLen_of_asciiByte hq]
    exact ⟨.inr rfl, Nat.zero_le _, .one hq .nil⟩

end Sanitize

theorem length_sanitizeFrom (s : List Char) : (sanitizeFrom s).1.length = s.length := by
  fun_induction sanitizeFrom s with
  | case1 => rfl
  | case2 c rest checked lead tail ih =>
    obtain ⟨-, hlen, -⟩ := @sanitizeFrom_lead c rest lead rfl
    simp only [tail, List.cons_append, List.length_cons, List.length_append, List.length_take, ih,
      List.length_drop]
    omega

/-- `sanitize_utf8` changes a byte only to `?`: the bytes the loop steps over are copied as they
are. -/
theorem forall₂_sanitizeFrom (s : List Char) :
    List.Forall₂ (fun a b ↦ b = a ∨ b = '?') s (sanitizeFrom s).1 := by
  fun_induction sanitizeFrom s with
  | case1 => exact .nil
  | case2 c rest checked lead tail ih =>
    obtain ⟨hlead, -, -⟩ := @sanitizeFrom_lead c rest lead rfl
    have hsame : List.Forall₂ (fun a b ↦ b = a ∨ b = '?') (rest.take (announcedLen lead - 1))
        (rest.take (announcedLen lead - 1)) :=
      List.forall₂_same.mpr fun _ _ ↦ .inl rfl
    have hrest : List.Forall₂ (fun a b ↦ b = a ∨ b = '?')
        (rest.take (announcedLen lead - 1) ++ rest.drop (announcedLen lead - 1))
        (rest.take (announcedLen lead - 1) ++ tail.1) :=
      List.rel_append hsame ih
    rw [List.take_append_drop] at hrest
    exact .cons hlead hrest

theorem structUtf8_sanitizeFrom (s : List Char) : StructUtf8 (sanitizeFrom s).1 := by
  fun_induction sanitizeFrom s with
  | case1 => exact .nil
  | case2 c rest checked lead tail ih =>
    obtain ⟨-, -, hunit⟩ := @sanitizeFrom_lead c rest lead rfl
    exact hunit.append ih

/-- `sanitize_utf8` leaves well-formed UTF-8 as it is and counts no replacement. -/
theorem sanitizeFrom_of_structUtf8 {s : List Char} (h : StructUtf8 s) : sanitizeFrom s = (s, 0) := by
  fun_induction sanitizeFrom s with
  | case1 => rfl
  | case2 c rest checked lead tail ih =>
    obtain ⟨hvalid, hrest⟩ := validateUtf8Sequence_of_structUtf8 h
    have hlead : lead = c := by
      show (validateUtf8Sequence (c :: rest) true).2.headD c = c
      rw [headD_validateUtf8Sequence, hvalid, if_pos rfl]
    have htail : tail = (rest.drop (announcedLen lead - 1), 0) := ih (hlead ▸ hrest)
    have hchecked : checked.1 = true := hvalid
    rw [htail, hchecked, hlead, if_pos rfl, List.cons_append, List.take_append_drop]
    rfl

/-- `sanitize_utf8` changes only bytes it replaces by `?`, keeps the length, and leaves
structurally valid UTF-8; a structurally valid string comes back unchanged with no error
counted, so a second pass changes nothing. -/
theorem sanitizeUtf8_structUtf8 (s : List Char) :
    (sanitizeUtf8 s).1.length = s.length ∧
      List.Forall₂ (fun a b ↦ b = a ∨ b = '?') s (sanitizeUtf8 s).1 ∧
      StructUtf8 (sanitizeUtf8 s).1 ∧
      (StructUtf8 s → sanitizeUtf8 s = (s, 0)) ∧
      sanitizeUtf8 (sanitizeUtf8 s).1 = ((sanitizeUtf8 s).1, 0) :=
  ⟨length_sanitizeFrom s, forall₂_sanitizeFrom s, structUtf8_sanitizeFrom s,
    sanitizeFrom_of_structUtf8, sanitizeFrom_of_structUtf8 (structUtf8_sanitizeFrom s)⟩

/-! ### The character scan of `qc_check_entry` -/

/-- How the character scan of `qc_check_entry` ends: with the longest line and the line count,
or with a step that carried the cursor past the terminating NUL. -/
inductive LineScan where
  | stats (maxlen lines : ℕ)
  | pastEnd
  deriving DecidableEq, Repr

/-- The loop of step 5 of `qc_check_entry`, with `maxlen`, `curlen` and `lines`. A newline
closes a line; any other byte counts one character and moves the cursor by the length it
announces, which may carry it past the end of the text. -/
def qcLineScan : List Char → ℕ → ℕ → ℕ → LineScan
  | [], maxlen, curlen, lines => .stats (if curlen > maxlen then curlen else maxlen) lines
  | c :: rest, maxlen, curlen, lines =>
    if c = '\n' then
      -- a newline that ends the text starts no line
      qcLineScan rest (if curlen > maxlen then curlen else maxlen) 0
        (if rest = [] then lines else lines + 1)
    else if rest.length < announcedLen c - 1 then .pastEnd
    else qcLineScan (rest.drop (announcedLen c - 1)) maxlen (curlen + 1) lines
termination_by s => s.length
decreasing_by
  · simp only [List.length_cons]; omega
  · simp only [List.length_drop, List.length_cons]; omega

/-- The statistics of step 5 of `qc_check_entry` on a cue text. -/
def qcLineStats (text : List Char) : LineScan :=
  qcLineScan text 0 0 1

/-- The statistics the scan stands for: the text split at its newlines, each line measured with
`u8_len`, where a newline that ends the text starts no line. -/
def splitLineStats (text : List Char) : ℕ × ℕ :=
  let lines := text.splitOn '\n'
  let lines := if text.getLast? = some '\n' then lines.dropLast else lines
  ((lines.map u8Len).foldl max 0, lines.length)

/-- The scan of a text that ends in the lead byte `0xC3` steps two bytes from the last one and so
past the terminating NUL. Before a newline the same byte carries the cursor over the newline:
the text `0xC3 \n B` is scanned as one line of two characters, while its lines measured with
`u8_len` are two, of one character each. -/
theorem qcLineStats_overrunsNul :
    qcLineStats ['\xC3'] = .pastEnd ∧
      qcLineStats ['\xC3', '\n', 'B'] = .stats 2 1 ∧
      splitLineStats ['\xC3', '\n', 'B'] = (1, 2) := by
  refine ⟨by decide +kernel, by decide +kernel, by decide +kernel⟩

end Srt2Dvbsub.SrtParser
