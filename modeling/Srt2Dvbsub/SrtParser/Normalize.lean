import Srt2Dvbsub.SrtParser.Parse
import Srt2Dvbsub.SrtParser.Utf8

/-!
# Whitespace and line wrapping of the cue text

Outside ASS mode the parser stores the text of a cue as
`rstrip(remove_ass_h(normalize_cue_text(textbuf, is_hd)))` (`srt_parser.c`). The function works
in three stages.

* `collapseSpaces` is step 1: an explicit newline is kept, and written over a space that just
  ended the buffer; every other run of whitespace becomes one space; any other byte is copied.
* The buffer is cut into source lines at its newlines (`emitLines`), and each line into tokens
  at the blanks outside `<...>` and `{...}` (`lineTokens`, with the scan `tokenEnd`).
* Each token goes through one of three branches (`emitToken`), by its visible length
  `visible_len`. A token of visible length one in a cue that is one non-ASCII symbol gets a line
  of its own. A token that does not fit, `line_len + wordlen + 1 > max_chars`, starts a new line
  while fewer than `MAX_LINES_SD` lines have begun; that limit holds for SD and HD alike. Any
  other token is appended, after a blank when the line already has visible text. A source line
  with a token is followed by its newline.

`normalizeCueText_keepsVisibleBytes` is the invariant of the three stages: the bytes that are not
whitespace come out as they went in, none lost, repeated or moved. The fit test adds one for the
blank even on an empty line: a word of exactly `max_chars` visible characters, which fits the
line, is still put on a new line, so a cue that is one such word comes out after a newline
(`normalizeCueText_wordBreak`). The parser's `rstrip` removes trailing newlines only, so
the stored text begins with an empty line, and a long word after a source line gives two
newlines in a row (`normalizeCueText_emptyLine`).

Scope. Allocation never fails here; the text is not `NULL`.
-/

set_option autoImplicit false
set_option relaxedAutoImplicit false

namespace Srt2Dvbsub.SrtParser

open CLib Lib

/-- `MAX_LINES_SD`, the line limit of SD and HD alike. -/
def MAX_LINES_SD : ℕ := 3

/-- `MAX_CHARS_SD`. -/
def MAX_CHARS_SD : ℕ := 37

/-- `MAX_CHARS_HD`. -/
def MAX_CHARS_HD : ℕ := 67

/-- `max_chars = is_hd ? MAX_CHARS_HD : MAX_CHARS_SD`. -/
def maxCharsOf (isHd : Bool) : ℕ :=
  if isHd then MAX_CHARS_HD else MAX_CHARS_SD

/-! ### `strip_tags` -/

/-- `strip_tags(in)`: every `{...}` and `<...>` with its closing byte is dropped; a `{` or `<`
without one is kept. -/
def stripTags : List Char → List Char
  | [] => []
  | c :: rest =>
    match _hend : markupEnd c rest with
    | some after => stripTags after
    | none => c :: stripTags rest
termination_by s => s.length
decreasing_by
  · exact length_lt_of_markupEnd _hend
  · simp

/-! ### Step 1: whitespace -/

/-- Step 1 of `normalize_cue_text` on the rest `p` of the raw text, with `last_space` and the
buffer so far, last byte first. -/
def collapseSpaces : List Char → Bool → List Char → List Char
  | [], _, buf => buf.reverse
  | ch :: p, lastSpace, buf =>
    if ch = '\n' then
      -- a space just written becomes the newline
      if lastSpace && buf.head? = some ' ' then collapseSpaces p false ('\n' :: buf.tail)
      else collapseSpaces p false ('\n' :: buf)
    else if ch = '\r' || isspace ch then
      if !lastSpace then collapseSpaces p true (' ' :: buf) else collapseSpaces p lastSpace buf
    else collapseSpaces p false (ch :: buf)

/-! ### Tokens -/

/-- The scan of a token from its first byte: up to a blank outside `<...>` and `{...}`, with the
flags `in_angle` and `in_brace`. The token, and the text from the blank on. -/
def tokenEnd : Bool → Bool → List Char → List Char × List Char
  | _, _, [] => ([], [])
  | inAngle, inBrace, c :: rest =>
    if !inAngle && !inBrace && c = ' ' then ([], c :: rest)
    else
      let flags : Bool × Bool :=
        if c = '<' then (true, inBrace)
        else if c == '>' && inAngle then (false, inBrace)
        else if c = '{' then (inAngle, true)
        else if c == '}' && inBrace then (inAngle, false)
        else (inAngle, inBrace)
      let scan := tokenEnd flags.1 flags.2 rest
      (c :: scan.1, scan.2)

theorem tokenEnd_append : ∀ (inAngle inBrace : Bool) (s : List Char),
    (tokenEnd inAngle inBrace s).1 ++ (tokenEnd inAngle inBrace s).2 = s
  | _, _, [] => rfl
  | inAngle, inBrace, c :: rest => by
    unfold tokenEnd
    by_cases hblank : (!inAngle && !inBrace && decide (c = ' ')) = true
    · rw [if_pos hblank]
      rfl
    · rw [if_neg hblank]
      exact congrArg (c :: ·) (tokenEnd_append _ _ rest)

theorem length_tokenEnd_snd_le (inAngle inBrace : Bool) (s : List Char) :
    (tokenEnd inAngle inBrace s).2.length ≤ s.length := by
  have hsplit := congrArg List.length (tokenEnd_append inAngle inBrace s)
  rw [List.length_append] at hsplit
  omega

/-- The token read at a byte that is no blank holds that byte. -/
theorem length_lt_of_tokenEnd {c : Char} (rest : List Char) (hc : c ≠ ' ') :
    (tokenEnd false false (c :: rest)).2.length < (c :: rest).length := by
  unfold tokenEnd
  rw [if_neg (by simp [hc])]
  exact Nat.lt_succ_of_le (length_tokenEnd_snd_le _ _ rest)

/-- The tokens of one source line: blanks are skipped, and a token runs to the next blank
outside tags. -/
def lineTokens (line : List Char) : List (List Char) :=
  match _hdrop : line.dropWhile (· == ' ') with
  | [] => []
  | c :: rest =>
    (tokenEnd false false (c :: rest)).1 :: lineTokens (tokenEnd false false (c :: rest)).2
termination_by line.length
decreasing_by
  have hc : c ≠ ' ' := by
    have hhead := List.head_dropWhile_not (· == ' ')
      (by simp [_hdrop] : line.dropWhile (· == ' ') ≠ [])
    simpa [_hdrop] using hhead
  have hdrop : (c :: rest).length ≤ line.length := _hdrop ▸ List.length_dropWhile_le _ _
  have := length_lt_of_tokenEnd rest hc
  omega

/-! ### Emission -/

/-- The state of the wrap loop: the output so far, `line_len` and `lines`. -/
structure WrapState where
  out : List Char
  lineLen : ℕ
  lines : ℕ
  deriving DecidableEq, Repr

/-- The three branches for one token, of visible length `wordlen = visible_len(tok)`. -/
def emitToken (sym : Bool) (maxChars : ℕ) (st : WrapState) (tok : List Char) : WrapState :=
  let wordlen := visibleLen tok
  if sym && wordlen == 1 then
    -- `sym_line`: a symbol of a whole-cue symbol on a line of its own
    let st := if st.lineLen > 0 then { st with out := st.out ++ ['\n'], lines := st.lines + 1 }
      else st
    { st with out := st.out ++ tok, lineLen := wordlen }
  else if wordlen > 0 ∧ st.lineLen + wordlen + 1 > maxChars ∧ st.lines < MAX_LINES_SD then
    -- break line
    ⟨st.out ++ '\n' :: tok, wordlen, st.lines + 1⟩
  else
    let st := if wordlen > 0 ∧ st.lineLen > 0 then
      { st with out := st.out ++ [' '], lineLen := st.lineLen + 1 } else st
    { st with out := st.out ++ tok, lineLen := st.lineLen + wordlen }

/-- One source line: its tokens in turn, and then, when a newline ends the line and it had a
token, that newline. -/
def emitLine (sym : Bool) (maxChars : ℕ) (st : WrapState) (line : List Char) (lineEnd : Bool) :
    WrapState :=
  let tokens := lineTokens line
  let st := tokens.foldl (emitToken sym maxChars) st
  if lineEnd && !tokens.isEmpty then ⟨st.out ++ ['\n'], 0, st.lines + 1⟩ else st

/-- The loop over the source lines of the buffer, from `line_start` on. -/
def emitLines (sym : Bool) (maxChars : ℕ) (st : WrapState) : List Char → WrapState
  | [] => st
  | c :: rest =>
    match _hline : (c :: rest).dropWhile (· != '\n') with
    | [] => emitLine sym maxChars st ((c :: rest).takeWhile (· != '\n')) false
    | _ :: after =>
      emitLines sym maxChars (emitLine sym maxChars st ((c :: rest).takeWhile (· != '\n')) true)
        after
termination_by text => text.length
decreasing_by
  have hdrop := List.length_dropWhile_le (· != '\n') (c :: rest)
  rw [_hline, List.length_cons] at hdrop
  omega

/-- `normalize_cue_text(raw, is_hd)`. A cue is a whole-cue symbol when its text without tags is
one sequence whose first byte is not ASCII. -/
def normalizeCueText (raw : List Char) (isHd : Bool) : List Char :=
  let buf := collapseSpaces raw false []
  let plain := stripTags raw
  let wholeCueIsSymbol := u8Len plain == 1 && plain.head?.any (fun c ↦ c.toNat &&& 0x80 != 0)
  (emitLines wholeCueIsSymbol (maxCharsOf isHd) ⟨[], 0, 1⟩ buf).out

/-! ### The bytes that are not whitespace -/

section Visible

variable {sym : Bool} {maxChars : ℕ}

@[simp] theorem isspace_blank : isspace ' ' = true := rfl

@[simp] theorem isspace_newline : isspace '\n' = true := rfl

/-- A byte that step 1 turns into a space is whitespace. -/
theorem isspace_of_collapsed {ch : Char} (h : (decide (ch = '\r') || isspace ch) = true) :
    isspace ch = true := by
  rcases Bool.or_eq_true_iff.mp h with hcr | hspace
  · rw [of_decide_eq_true hcr]
    rfl
  · exact hspace

/-- Step 1 keeps the bytes that are not whitespace. -/
theorem filter_collapseSpaces : ∀ (p : List Char) (lastSpace : Bool) (buf : List Char),
    (collapseSpaces p lastSpace buf).filter (fun c ↦ !isspace c) =
      (buf.reverse ++ p).filter (fun c ↦ !isspace c)
  | [], _, buf => by simp [collapseSpaces]
  | ch :: p, lastSpace, buf => by
    unfold collapseSpaces
    split_ifs with hnewline hover hwhite hfirst
    · obtain ⟨-, hhead⟩ := Bool.and_eq_true_iff.mp hover
      obtain ⟨t, rfl⟩ := List.head?_eq_some_iff.mp (of_decide_eq_true hhead)
      rw [filter_collapseSpaces, hnewline]
      simp [List.filter_append]
    · rw [filter_collapseSpaces, hnewline]
      simp
    · rw [filter_collapseSpaces]
      simp [List.filter_append, isspace_of_collapsed hwhite]
    · rw [filter_collapseSpaces]
      simp [List.filter_append, isspace_of_collapsed hwhite]
    · rw [filter_collapseSpaces]
      simp

/-- Skipping the blanks before a token loses no byte that is not whitespace. -/
theorem filter_dropWhile_blank (l : List Char) :
    (l.dropWhile (· == ' ')).filter (fun c ↦ !isspace c) = l.filter (fun c ↦ !isspace c) := by
  induction l with
  | nil => rfl
  | cons c l ih =>
    by_cases hc : c = ' '
    · subst hc
      rw [List.dropWhile_cons_of_pos (by decide), ih]
      rfl
    · rw [List.dropWhile_cons_of_neg (by simpa using hc)]

/-- The tokens of a line hold its bytes that are not whitespace. -/
theorem filter_flatten_lineTokens (line : List Char) :
    (lineTokens line).flatten.filter (fun c ↦ !isspace c) =
      line.filter (fun c ↦ !isspace c) := by
  fun_induction lineTokens line with
  | case1 line h =>
    rw [← filter_dropWhile_blank line, h]
    rfl
  | case2 line c rest h ih =>
    rw [List.flatten_cons, List.filter_append, ih, ← List.filter_append, tokenEnd_append,
      ← h, filter_dropWhile_blank]

/-- Each branch writes whitespace and the token. -/
theorem filter_emitToken (st : WrapState) (tok : List Char) :
    (emitToken sym maxChars st tok).out.filter (fun c ↦ !isspace c) =
      st.out.filter (fun c ↦ !isspace c) ++ tok.filter (fun c ↦ !isspace c) := by
  unfold emitToken
  dsimp only
  split_ifs <;> simp [List.filter_append]

theorem filter_foldl_emitToken : ∀ (tokens : List (List Char)) (st : WrapState),
    (tokens.foldl (emitToken sym maxChars) st).out.filter (fun c ↦ !isspace c) =
      st.out.filter (fun c ↦ !isspace c) ++ tokens.flatten.filter (fun c ↦ !isspace c)
  | [], st => by simp
  | tok :: tokens, st => by
    rw [List.foldl_cons, filter_foldl_emitToken tokens, filter_emitToken, List.flatten_cons,
      List.filter_append, List.append_assoc]

theorem filter_emitLine (st : WrapState) (line : List Char) (lineEnd : Bool) :
    (emitLine sym maxChars st line lineEnd).out.filter (fun c ↦ !isspace c) =
      st.out.filter (fun c ↦ !isspace c) ++ line.filter (fun c ↦ !isspace c) := by
  unfold emitLine
  dsimp only
  split_ifs
  · rw [List.filter_append, filter_foldl_emitToken, filter_flatten_lineTokens]
    simp
  · rw [filter_foldl_emitToken, filter_flatten_lineTokens]

/-- The loop over the source lines writes the bytes of the buffer that are not whitespace. -/
theorem filter_emitLines (st : WrapState) (text : List Char) :
    (emitLines sym maxChars st text).out.filter (fun c ↦ !isspace c) =
      st.out.filter (fun c ↦ !isspace c) ++ text.filter (fun c ↦ !isspace c) := by
  fun_induction emitLines sym maxChars st text with
  | case1 st => simp
  | case2 st c rest h =>
    have hline : (c :: rest).takeWhile (· != '\n') = c :: rest :=
      List.takeWhile_eq_self_iff.mpr (List.dropWhile_eq_nil_iff.mp h)
    rw [filter_emitLine, hline]
  | case3 st c rest x after h ih =>
    have hx : x = '\n' := by
      have hhead := List.head_dropWhile_not (· != '\n')
        (by simp [h] : (c :: rest).dropWhile (· != '\n') ≠ [])
      simpa [h] using hhead
    have hsplit : c :: rest = (c :: rest).takeWhile (· != '\n') ++ x :: after := by
      rw [← h, List.takeWhile_append_dropWhile]
    rw [ih, filter_emitLine, List.append_assoc, ← List.filter_append]
    conv_rhs => rw [hsplit]
    simp [List.filter_append, hx]

end Visible

/-- `normalize_cue_text` changes whitespace only: the bytes that are not whitespace come out as
they went in, none lost, repeated or moved. -/
theorem normalizeCueText_keepsVisibleBytes (raw : List Char) (isHd : Bool) :
    (normalizeCueText raw isHd).filter (fun c ↦ !isspace c) =
      raw.filter (fun c ↦ !isspace c) := by
  rw [normalizeCueText, filter_emitLines, filter_collapseSpaces]
  rfl

/-! ### Cues of plain words -/

/-- A byte of a plain word: no whitespace, and no `<` or `{` that could open a tag. -/
def plainByte (c : Char) : Bool :=
  !isspace c && c != '<' && c != '{'

section Words

variable {sym : Bool} {maxChars : ℕ}

theorem isspace_of_plainByte {c : Char} (h : plainByte c = true) : isspace c = false := by
  simp only [plainByte, Bool.and_eq_true, Bool.not_eq_true'] at h
  exact h.1.1

theorem newline_not_mem_of_plain {w : List Char} (hw : ∀ c ∈ w, plainByte c = true) :
    '\n' ∉ w := fun hmem ↦ by
  have hspace := isspace_of_plainByte (hw '\n' hmem)
  cases hspace

theorem ne_nil_of_visibleLen_pos {w : List Char} (h : 0 < visibleLen w) : w ≠ [] := by
  rintro rfl
  rw [visibleLen] at h
  omega

theorem collapseSpaces_cons_plain {c : Char} (p : List Char) (lastSpace : Bool) (buf : List Char)
    (hc : isspace c = false) :
    collapseSpaces (c :: p) lastSpace buf = collapseSpaces p false (c :: buf) := by
  have hnewline : c ≠ '\n' := by
    rintro rfl
    cases hc
  have hwhite : (decide (c = '\r') || isspace c) = false := by
    have hcr : c ≠ '\r' := by
      rintro rfl
      cases hc
    simp [hcr, hc]
  rw [collapseSpaces, if_neg hnewline, if_neg (by simp [hwhite])]

/-- Step 1 copies a run of bytes that are not whitespace. -/
theorem collapseSpaces_append_plain {p : List Char} (q buf : List Char)
    (hp : ∀ c ∈ p, isspace c = false) :
    collapseSpaces (p ++ q) false buf = collapseSpaces q false (p.reverse ++ buf) := by
  induction p generalizing buf with
  | nil => rfl
  | cons c p ih =>
    rw [List.cons_append, collapseSpaces_cons_plain _ _ _ (hp c List.mem_cons_self),
      ih _ (fun d hd ↦ hp d (List.mem_cons_of_mem c hd))]
    simp

theorem collapseSpaces_newline (q buf : List Char) :
    collapseSpaces ('\n' :: q) false buf = collapseSpaces q false ('\n' :: buf) := by
  rw [collapseSpaces, if_pos rfl, if_neg (by simp)]

/-- A plain word is one token. -/
theorem tokenEnd_of_plain : ∀ {w : List Char}, (∀ c ∈ w, plainByte c = true) →
    tokenEnd false false w = (w, [])
  | [], _ => rfl
  | c :: rest, hw => by
    have hc := hw c List.mem_cons_self
    simp only [plainByte, Bool.and_eq_true, Bool.not_eq_true', bne_iff_ne, ne_eq] at hc
    obtain ⟨⟨hspace, hangle⟩, hbrace⟩ := hc
    have hblank : c ≠ ' ' := by
      rintro rfl
      cases hspace
    rw [tokenEnd, if_neg (by simp [hblank]), if_neg hangle, if_neg (by simp), if_neg hbrace,
      if_neg (by simp)]
    dsimp only
    rw [tokenEnd_of_plain (fun d hd ↦ hw d (List.mem_cons_of_mem c hd))]

theorem lineTokens_of_dropWhile_nil {line : List Char} (h : line.dropWhile (· == ' ') = []) :
    lineTokens line = [] := by
  rw [lineTokens]
  split
  · rfl
  · rename_i c rest h'
    rw [h] at h'
    cases h'

theorem lineTokens_of_dropWhile_cons {line rest : List Char} {c : Char}
    (h : line.dropWhile (· == ' ') = c :: rest) :
    lineTokens line =
      (tokenEnd false false (c :: rest)).1 :: lineTokens (tokenEnd false false (c :: rest)).2 := by
  rw [lineTokens]
  split
  · rename_i h'
    rw [h] at h'
    cases h'
  · rename_i c' rest' h'
    rw [h, List.cons.injEq] at h'
    obtain ⟨rfl, rfl⟩ := h'
    rfl

theorem lineTokens_of_plain {w : List Char} (hw : ∀ c ∈ w, plainByte c = true)
    (hne : w ≠ []) :
    lineTokens w = [w] := by
  obtain ⟨c, rest, rfl⟩ := List.exists_cons_of_ne_nil hne
  have hblank : c ≠ ' ' := by
    intro hc
    have hspace := isspace_of_plainByte (hw c List.mem_cons_self)
    rw [hc] at hspace
    cases hspace
  have hdrop : (c :: rest).dropWhile (· == ' ') = c :: rest :=
    List.dropWhile_cons_of_neg (by simpa using hblank)
  rw [lineTokens_of_dropWhile_cons hdrop, tokenEnd_of_plain hw, lineTokens_of_dropWhile_nil rfl]

theorem emitLines_nil (st : WrapState) : emitLines sym maxChars st [] = st := by
  rw [emitLines]

/-- The last source line: no newline ends it. -/
theorem emitLines_of_not_mem {text : List Char} (st : WrapState) (hne : text ≠ [])
    (hnewline : '\n' ∉ text) :
    emitLines sym maxChars st text = emitLine sym maxChars st text false := by
  obtain ⟨c, rest, rfl⟩ := List.exists_cons_of_ne_nil hne
  have hall : ∀ d ∈ c :: rest, (d != '\n') = true := fun d hd ↦ by
    simpa using ne_of_mem_of_not_mem hd hnewline
  rw [emitLines]
  split
  · rw [List.takeWhile_eq_self_iff.mpr hall]
  · rename_i x after h
    rw [List.dropWhile_eq_nil_iff.mpr hall] at h
    cases h

/-- A source line and its newline, then the lines after it. -/
theorem emitLines_append_newline {line : List Char} (st : WrapState) (after : List Char)
    (hnewline : '\n' ∉ line) :
    emitLines sym maxChars st (line ++ '\n' :: after) =
      emitLines sym maxChars (emitLine sym maxChars st line true) after := by
  have hall : ∀ d ∈ line, (d != '\n') = true := fun d hd ↦ by
    simpa using ne_of_mem_of_not_mem hd hnewline
  have hdrop : (line ++ '\n' :: after).dropWhile (· != '\n') = '\n' :: after := by
    rw [List.dropWhile_append_of_pos hall]
    simp
  have htake : (line ++ '\n' :: after).takeWhile (· != '\n') = line := by
    rw [List.takeWhile_append_of_pos hall]
    simp
  obtain ⟨c, rest, hcons⟩ :=
    List.exists_cons_of_ne_nil (show line ++ '\n' :: after ≠ [] by simp)
  rw [hcons] at hdrop htake ⊢
  rw [emitLines]
  split
  · rename_i h
    rw [hdrop] at h
    cases h
  · rename_i x after' h
    rw [hdrop, List.cons.injEq] at h
    rw [← h.2, htake]

/-- A source line that is one plain word. -/
theorem emitLine_word {w : List Char} (st : WrapState) (lineEnd : Bool)
    (hw : ∀ c ∈ w, plainByte c = true) (hne : w ≠ []) :
    emitLine sym maxChars st w lineEnd =
      if lineEnd then
        ⟨(emitToken sym maxChars st w).out ++ ['\n'], 0,
          (emitToken sym maxChars st w).lines + 1⟩
      else emitToken sym maxChars st w := by
  simp [emitLine, lineTokens_of_plain hw hne]

/-- A token at the start of a line while fewer than `MAX_LINES_SD` lines have begun: a new line
before it exactly when its visible length reaches `maxChars`. The test adds one for a blank
that an empty line does not get. -/
theorem emitToken_lineStart (out tok : List Char) {lines : ℕ} (hmc : 2 ≤ maxChars)
    (hlines : lines < MAX_LINES_SD) :
    emitToken sym maxChars ⟨out, 0, lines⟩ tok =
      if maxChars ≤ visibleLen tok then ⟨out ++ '\n' :: tok, visibleLen tok, lines + 1⟩
      else ⟨out ++ tok, visibleLen tok, lines⟩ := by
  unfold emitToken
  dsimp only
  by_cases hsym : (sym && visibleLen tok == 1) = true
  · have hone : visibleLen tok = 1 := by simpa using (Bool.and_eq_true_iff.mp hsym).2
    rw [if_pos hsym, if_neg (by omega), if_neg (by omega)]
  · rw [if_neg hsym]
    by_cases hfit : maxChars ≤ visibleLen tok
    · rw [if_pos ⟨by omega, by omega, hlines⟩, if_pos hfit]
    · rw [if_neg (by omega), if_neg (by omega), if_neg hfit]
      simp

/-- A plain word as the rest of the buffer, at the start of a line. -/
theorem emitLines_word {w out : List Char} {lines : ℕ} (hmc : 2 ≤ maxChars)
    (hlines : lines < MAX_LINES_SD) (hw : ∀ c ∈ w, plainByte c = true) (hne : w ≠ []) :
    (emitLines sym maxChars ⟨out, 0, lines⟩ w).out =
      out ++ if maxChars ≤ visibleLen w then '\n' :: w else w := by
  rw [emitLines_of_not_mem _ hne (newline_not_mem_of_plain hw), emitLine_word _ false hw hne, if_neg (by simp),
    emitToken_lineStart _ _ hmc hlines]
  split_ifs <;> rfl

theorem removeAssH_of_forall : ∀ {s : List Char}, (∀ c ∈ s, c ≠ '\\') → removeAssH s = s
  | [], _ => rfl
  | c :: rest, h => by
    have hc := h c List.mem_cons_self
    have hrest := removeAssH_of_forall (fun d hd ↦ h d (List.mem_cons_of_mem c hd))
    cases rest with
    | nil => simp [removeAssH]
    | cons d rest' =>
      rw [removeAssH.eq_def]
      split
      · rename_i heq
        simp only [List.cons.injEq] at heq
        exact absurd heq.1 hc
      · rename_i heq
        simp only [List.cons.injEq] at heq
        obtain ⟨rfl, rfl⟩ := heq
        rw [hrest]
      · rename_i heq
        cases heq

/-- `rstrip` leaves a text that does not end in whitespace. -/
theorem rstrip_of_getLast? {s : List Char} {c : Char} (hlast : s.getLast? = some c)
    (hc : isspace c = false) : rstrip s = s := by
  have hrev : s.reverse.head? = some c := by rw [List.head?_reverse, hlast]
  obtain ⟨t, ht⟩ := List.head?_eq_some_iff.mp hrev
  have hkeep : (c == '\n' || c == '\r') = false := by
    revert hc
    simp only [isspace, Bool.or_eq_false_iff]
    intro hc
    exact ⟨hc.1.1.1.2, hc.2⟩
  rw [rstrip, ht, List.dropWhile_cons_of_neg (by simp [hkeep]), ← ht, List.reverse_reverse]

/-- Step 1 on a text without whitespace: the buffer, then the text. -/
theorem collapseSpaces_plain {p : List Char} (buf : List Char)
    (hp : ∀ c ∈ p, isspace c = false) :
    collapseSpaces p false buf = buf.reverse ++ p := by
  have h := collapseSpaces_append_plain [] buf hp
  rw [List.append_nil] at h
  rw [h, collapseSpaces, List.reverse_append, List.reverse_reverse]

theorem two_le_maxCharsOf (isHd : Bool) : 2 ≤ maxCharsOf isHd := by
  cases isHd <;> decide

/-- `rstrip(remove_ass_h(...))` keeps a text without `\\` that ends in a plain word. -/
theorem rstrip_removeAssH_append_plain {pre w : List Char} (hpre : ∀ c ∈ pre, c ≠ '\\')
    (hw : ∀ c ∈ w, plainByte c = true ∧ c ≠ '\\') (hne : w ≠ []) :
    rstrip (removeAssH (pre ++ w)) = pre ++ w := by
  have hlast : (pre ++ w).getLast? = some (w.getLast hne) := by
    rw [List.getLast?_append_of_ne_nil _ hne, List.getLast?_eq_some_getLast hne]
  have hplain := (hw _ (List.getLast_mem hne)).1
  rw [removeAssH_of_forall (List.forall_mem_append.mpr ⟨hpre, fun c hc ↦ (hw c hc).2⟩),
    rstrip_of_getLast? hlast (isspace_of_plainByte hplain)]

/-- A cue that is one plain word, whatever the symbol test gives: step 1 keeps it, and it is the
one token of the first line. -/
theorem normalizeCueText_of_plain {w : List Char} (isHd : Bool)
    (hw : ∀ c ∈ w, plainByte c = true) (hne : w ≠ []) :
    normalizeCueText w isHd = if maxCharsOf isHd ≤ visibleLen w then '\n' :: w else w := by
  unfold normalizeCueText
  dsimp only
  rw [collapseSpaces_plain [] (fun c hc ↦ isspace_of_plainByte (hw c hc)), List.reverse_nil,
    List.nil_append,
    emitLines_word (two_le_maxCharsOf isHd) (by decide : 1 < MAX_LINES_SD) hw hne]
  rfl

end Words

/-- A cue that is one plain word: it comes out as it went in, after a newline exactly when its
visible length reaches the line limit. A word of exactly `max_chars` characters fits the line
but is put after a break all the same. -/
theorem normalizeCueText_wordBreak {w : List Char} (isHd : Bool)
    (hw : ∀ c ∈ w, plainByte c = true) :
    normalizeCueText w isHd = if maxCharsOf isHd ≤ visibleLen w then '\n' :: w else w := by
  rcases eq_or_ne w [] with rfl | hne
  · have hpos : ¬maxCharsOf isHd ≤ visibleLen [] := by
      rw [visibleLen]
      have := two_le_maxCharsOf isHd
      omega
    rw [if_neg hpos, normalizeCueText, collapseSpaces, List.reverse_nil, emitLines_nil]
  · exact normalizeCueText_of_plain isHd hw hne

theorem normalizeCueText_wordBreak_hd :
    (∀ c ∈ List.replicate 67 'a', plainByte c = true) ∧
      normalizeCueText (List.replicate 67 'a') true = '\n' :: List.replicate 67 'a' := by
  have hw : ∀ c ∈ List.replicate 67 'a', plainByte c = true := by
    intro c hc
    rw [List.eq_of_mem_replicate hc]
    rfl
  refine ⟨hw, ?_⟩
  rw [normalizeCueText_wordBreak true hw, if_pos (by decide +kernel)]

/-- A word of visible length at least `max_chars` at the start of a line. Alone, the stored cue
text begins with a newline; after a short source line, the text holds an empty line. -/
theorem normalizeCueText_emptyLine {v w : List Char} (isHd : Bool)
    (hv : ∀ c ∈ v, plainByte c = true ∧ c ≠ '\\')
    (hw : ∀ c ∈ w, plainByte c = true ∧ c ≠ '\\')
    (hshort : 0 < visibleLen v ∧ visibleLen v < maxCharsOf isHd)
    (hlong : maxCharsOf isHd ≤ visibleLen w) :
    rstrip (removeAssH (normalizeCueText w isHd)) = '\n' :: w ∧
      rstrip (removeAssH (normalizeCueText (v ++ '\n' :: w) isHd)) = v ++ '\n' :: '\n' :: w := by
  have hwp : ∀ c ∈ w, plainByte c = true := fun c hc ↦ (hw c hc).1
  have hvp : ∀ c ∈ v, plainByte c = true := fun c hc ↦ (hv c hc).1
  have hmc := two_le_maxCharsOf isHd
  have hwne : w ≠ [] := ne_nil_of_visibleLen_pos (by omega)
  have hvne : v ≠ [] := ne_nil_of_visibleLen_pos hshort.1
  have hbuf : collapseSpaces (v ++ '\n' :: w) false [] = v ++ '\n' :: w := by
    rw [collapseSpaces_append_plain _ _ (fun c hc ↦ isspace_of_plainByte (hvp c hc)),
      collapseSpaces_newline, collapseSpaces_plain _ (fun c hc ↦ isspace_of_plainByte (hwp c hc))]
    simp
  have hfirst : ∀ sym,
      emitLine sym (maxCharsOf isHd) ⟨[], 0, 1⟩ v true = ⟨v ++ ['\n'], 0, 2⟩ := by
    intro sym
    rw [emitLine_word _ true hvp hvne, if_pos rfl, emitToken_lineStart _ _ hmc (by decide),
      if_neg (by omega)]
    rfl
  have hout : normalizeCueText (v ++ '\n' :: w) isHd = (v ++ ['\n', '\n']) ++ w := by
    unfold normalizeCueText
    dsimp only
    rw [hbuf, emitLines_append_newline _ _ (newline_not_mem_of_plain hvp), hfirst,
      emitLines_word hmc (by decide : 2 < MAX_LINES_SD) hwp hwne, if_pos hlong]
    simp
  have hpre : ∀ c ∈ v ++ ['\n', '\n'], c ≠ '\\' :=
    List.forall_mem_append.mpr ⟨fun c hc ↦ (hv c hc).2, by simp⟩
  constructor
  · rw [normalizeCueText_of_plain isHd hwp hwne, if_pos hlong]
    exact rstrip_removeAssH_append_plain (by simp : ∀ c ∈ ['\n'], c ≠ '\\') hw hwne
  · rw [hout, rstrip_removeAssH_append_plain hpre hw hwne]
    simp

theorem normalizeCueText_emptyLine_sd :
    (∀ c ∈ "Hi".toList, plainByte c = true ∧ c ≠ '\\') ∧
      (∀ c ∈ List.replicate 37 'a', plainByte c = true ∧ c ≠ '\\') ∧
      (0 < visibleLen "Hi".toList ∧ visibleLen "Hi".toList < maxCharsOf false) ∧
      maxCharsOf false ≤ visibleLen (List.replicate 37 'a') ∧
      rstrip (removeAssH (normalizeCueText (List.replicate 37 'a') false)) =
        '\n' :: List.replicate 37 'a' ∧
      rstrip (removeAssH (normalizeCueText ("Hi".toList ++ '\n' :: List.replicate 37 'a') false)) =
        "Hi".toList ++ '\n' :: '\n' :: List.replicate 37 'a' := by
  have hv : ∀ c ∈ "Hi".toList, plainByte c = true ∧ c ≠ '\\' := by
    simp [plainByte, isspace]
  have hw : ∀ c ∈ List.replicate 37 'a', plainByte c = true ∧ c ≠ '\\' := by
    intro c hc
    rw [List.eq_of_mem_replicate hc]
    decide
  have hshort : 0 < visibleLen "Hi".toList ∧ visibleLen "Hi".toList < maxCharsOf false := by
    decide +kernel
  have hlong : maxCharsOf false ≤ visibleLen (List.replicate 37 'a') := by decide +kernel
  exact ⟨hv, hw, hshort, hlong, normalizeCueText_emptyLine false hv hw hshort hlong⟩

end Srt2Dvbsub.SrtParser
