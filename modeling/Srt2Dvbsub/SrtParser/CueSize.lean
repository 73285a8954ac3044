import Srt2Dvbsub.Lib.Scan
import Srt2Dvbsub.SrtParser.Normalize
import Srt2Dvbsub.SrtParser.Stats

/-!
# The cue size check of `parse_srt_with_stats`

`validate_cue_size` counts the lines of a stored cue text and the visible length of its longest
line, and adds one warning to `validation_warnings` for each limit the text is over. Its scan
keeps a pointer to the start of the current line and, at every newline and at the end of a last
line without one, calls `visible_len(line_start)`. `visible_len` walks up to the terminating NUL,
not up to the newline: what the scan measures for a line is the rest of the cue from the start of
that line, the later lines and their newlines included.

`lineStarts` names the suffixes the scan measures: the text itself and every suffix after a
newline, when not empty. `cueSizeScan_eq` is the invariant of the scan, `cueSizeScan_lineStarts`
what it computes on a whole text, and `validateCueSize_warnings` the warnings it adds: a
line-length warning exactly when one of those suffixes is visibly longer than the limit, so a
cue whose whole text is longer than the limit is warned about whatever the lengths of its lines
(`validateCueSize_of_long`).

`srtCueTextOps` fills the text parameters of the parse loops with the modelled functions of
`srt_parser.c`. Over any file, `parse_srt_with_stats` counts in `validation_warnings` at least
every stored cue that `validate_cue_size` flags (`statsStep_flagged`, `flagged_parseSrtWithStats`),
and with the parser's own text functions at least every stored cue visibly longer than the
line-length limit (`parseSrtWithStats_longCuesWarned`).
-/

set_option autoImplicit false
set_option relaxedAutoImplicit false

namespace Srt2Dvbsub.SrtParser

/-! ### `validate_cue_size` -/

/-- The scan of `validate_cue_size` with the cursor at `p` and `lineStart` the text from the start
of the current line: the number of lines and the greatest `visible_len(line_start)` so far. -/
def cueSizeScan : List Char → List Char → ℤ → ℤ → ℤ × ℤ
  | [], lineStart, lineCount, maxLineLen =>
    -- `p > line_start`: a last line without a newline
    if lineStart = [] then (lineCount, maxLineLen)
    else (lineCount + 1, max maxLineLen (visibleLen lineStart))
  | c :: rest, lineStart, lineCount, maxLineLen =>
    if c = '\n' then cueSizeScan rest rest (lineCount + 1) (max maxLineLen (visibleLen lineStart))
    else cueSizeScan rest lineStart lineCount maxLineLen

/-- `validate_cue_size(text, max_line_length, max_line_count, stats)` on a text that is not
`NULL`: whether the text is within both limits, and the warnings it adds to
`validation_warnings`. A limit of `0` or less is not checked. -/
def validateCueSize (text : List Char) (maxLineLength maxLineCount : ℤ) : Bool × ℕ :=
  let scan := cueSizeScan text text 0 0
  let countOver := decide (0 < maxLineCount ∧ maxLineCount < scan.1)
  let lengthOver := decide (0 < maxLineLength ∧ maxLineLength < scan.2)
  (!countOver && !lengthOver, (if countOver then 1 else 0) + (if lengthOver then 1 else 0))

/-! ### The suffixes the scan measures -/

/-- The suffixes of `s` after each of its newlines. -/
def afterNewlines : List Char → List (List Char)
  | [] => []
  | c :: rest => if c = '\n' then rest :: afterNewlines rest else afterNewlines rest

/-- The line starts the scan has still to measure with the cursor at `p` inside the line that
starts at `lineStart`: that start and the start after every newline ahead, when not empty. -/
def pendingLineStarts (lineStart p : List Char) : List (List Char) :=
  (lineStart :: afterNewlines p).filter fun s ↦ !s.isEmpty

/-- The line starts of a text: the suffixes `validate_cue_size` measures with `visible_len`. -/
def lineStarts (text : List Char) : List (List Char) :=
  pendingLineStarts text text

theorem pendingLineStarts_nil (lineStart : List Char) :
    pendingLineStarts lineStart [] = if lineStart = [] then [] else [lineStart] := by
  cases lineStart <;> rfl

/-- At a newline the current line start is measured, and the next line starts after it. -/
theorem pendingLineStarts_newline {lineStart : List Char} (rest : List Char)
    (hne : lineStart ≠ []) :
    pendingLineStarts lineStart ('\n' :: rest) = lineStart :: pendingLineStarts rest rest := by
  have hkeep : (!lineStart.isEmpty) = true := by simpa using hne
  rw [pendingLineStarts, pendingLineStarts, afterNewlines, if_pos rfl,
    List.filter_cons_of_pos (p := fun s : List Char ↦ !s.isEmpty) hkeep]

theorem pendingLineStarts_cons {c : Char} (lineStart rest : List Char) (hc : c ≠ '\n') :
    pendingLineStarts lineStart (c :: rest) = pendingLineStarts lineStart rest := by
  simp only [pendingLineStarts, afterNewlines, if_neg hc]

/-- The invariant of the scan: from the cursor `p` inside the line that starts at `lineStart`,
the scan adds the pending line starts to the line count and folds their visible lengths into
the greatest one. -/
theorem cueSizeScan_eq : ∀ (p lineStart : List Char) (lineCount maxLineLen : ℤ),
    p <:+ lineStart →
    cueSizeScan p lineStart lineCount maxLineLen =
      (lineCount + (pendingLineStarts lineStart p).length,
        ((pendingLineStarts lineStart p).map fun s ↦ (visibleLen s : ℤ)).foldl max maxLineLen)
  | [], lineStart, lineCount, maxLineLen, _ => by
    rw [pendingLineStarts_nil]
    by_cases hempty : lineStart = []
    · simp [cueSizeScan, hempty]
    · simp [cueSizeScan, hempty]
  | c :: rest, lineStart, lineCount, maxLineLen, hsuffix => by
    by_cases hc : c = '\n'
    · subst hc
      have hne : lineStart ≠ [] := fun h ↦ by simpa [h] using hsuffix.length_le
      rw [cueSizeScan, if_pos rfl, cueSizeScan_eq rest rest _ _ List.suffix_rfl,
        pendingLineStarts_newline rest hne, List.length_cons, List.map_cons, List.foldl_cons]
      refine Prod.ext ?_ rfl
      push_cast
      ring
    · rw [cueSizeScan, if_neg hc, pendingLineStarts_cons _ _ hc,
        cueSizeScan_eq rest lineStart _ _ ((List.suffix_cons c rest).trans hsuffix)]

/-- On a whole text the scan counts the line starts and takes the greatest of their visible
lengths. -/
theorem cueSizeScan_lineStarts (text : List Char) :
    cueSizeScan text text 0 0 =
      (((lineStarts text).length : ℤ),
        ((lineStarts text).map fun s ↦ (visibleLen s : ℤ)).foldl max 0) := by
  rw [cueSizeScan_eq text text 0 0 List.suffix_rfl, Int.zero_add, lineStarts]

/-- Over a positive limit, the greatest measured length is over it exactly when one measured
suffix is. -/
theorem lt_cueSizeScan_iff {maxLineLength : ℤ} (text : List Char) (hpos : 0 < maxLineLength) :
    maxLineLength < (cueSizeScan text text 0 0).2 ↔
      ∃ s ∈ lineStarts text, maxLineLength < visibleLen s := by
  rw [cueSizeScan_lineStarts, Lib.lt_foldl_max_iff]
  simp only [List.mem_map, exists_exists_and_eq_and, not_lt.mpr hpos.le, false_or]

/-- The warnings `validate_cue_size` adds, and its verdict: a line-count warning when the text
has more line starts than a positive count limit, a line-length warning when one line start is
followed by more visible characters, up to the end of the cue, than a positive length limit;
the text passes exactly when no warning is added. -/
theorem validateCueSize_warnings (text : List Char) (maxLineLength maxLineCount : ℤ) :
    (validateCueSize text maxLineLength maxLineCount).2 =
        (if 0 < maxLineCount ∧ maxLineCount < (lineStarts text).length then 1 else 0) +
          (if 0 < maxLineLength ∧ ∃ s ∈ lineStarts text, maxLineLength < visibleLen s
            then 1 else 0) ∧
      ((validateCueSize text maxLineLength maxLineCount).1 = true ↔
        (validateCueSize text maxLineLength maxLineCount).2 = 0) := by
  have hcount : (cueSizeScan text text 0 0).1 = (lineStarts text).length := by
    rw [cueSizeScan_lineStarts]
  have hlength : (0 < maxLineLength ∧ maxLineLength < (cueSizeScan text text 0 0).2) ↔
      (0 < maxLineLength ∧ ∃ s ∈ lineStarts text, maxLineLength < visibleLen s) :=
    and_congr_right (lt_cueSizeScan_iff text)
  unfold validateCueSize
  dsimp only
  rw [hcount]
  constructor
  · simp only [decide_eq_true_eq, hlength]
  · by_cases hc : 0 < maxLineCount ∧ maxLineCount < ((lineStarts text).length : ℤ) <;>
      by_cases hl : 0 < maxLineLength ∧ maxLineLength < (cueSizeScan text text 0 0).2 <;>
      simp [hc, hl]

/-- Two lines of two characters under a length limit of three: the first line start is followed
by five visible characters up to the end of the cue. -/
example : validateCueSize "ab\ncd".toList 3 5 = (false, 1) := by decide +kernel

/-- A cue whose whole text, newlines included, is visibly longer than a positive length limit
fails the check with a warning, however short its lines. -/
theorem validateCueSize_of_long {text : List Char} {maxLineLength : ℤ} (maxLineCount : ℤ)
    (hpos : 0 < maxLineLength) (hlong : maxLineLength < visibleLen text) :
    (validateCueSize text maxLineLength maxLineCount).1 = false ∧
      0 < (validateCueSize text maxLineLength maxLineCount).2 := by
  have hne : text ≠ [] := by
    rintro rfl
    simp [visibleLen] at hlong
    omega
  have hfirst : text ∈ lineStarts text := by
    simp [lineStarts, pendingLineStarts, hne]
  obtain ⟨hwarnings, hverdict⟩ := validateCueSize_warnings text maxLineLength maxLineCount
  have hlength : (if 0 < maxLineLength ∧ ∃ s ∈ lineStarts text, maxLineLength < visibleLen s
      then 1 else 0) = 1 := if_pos ⟨hpos, text, hfirst, hlong⟩
  have hpos' : 0 < (validateCueSize text maxLineLength maxLineCount).2 := by
    rw [hwarnings]
    omega
  refine ⟨?_, hpos'⟩
  cases hok : (validateCueSize text maxLineLength maxLineCount).1
  · rfl
  · exact absurd (hverdict.mp hok) hpos'.ne'

/-! ### The parser with its own text functions -/

/-- The text functions of `srt_parser.c` in the parameters of the parse loops:
`normalize_cue_text`, `sanitize_utf8`, and the warnings of `validate_cue_size`. -/
def srtCueTextOps : CueTextOps where
  normalizeCueText := normalizeCueText
  sanitizeUtf8 := sanitizeUtf8
  validateCueSize text maxLineLength maxLineCount :=
    (validateCueSize text maxLineLength maxLineCount).2

/-! ### The warnings of a whole parse -/

@[simp] theorem SRTParserStats.skipInvalid_validationWarnings (stats : SRTParserStats) :
    stats.skipInvalid.validationWarnings = stats.validationWarnings + 1 := rfl

@[simp] theorem SRTParserStats.recordDuration_validationWarnings (cfg : SRTParserConfig)
    (duration : ℤ) (stats : SRTParserStats) :
    (stats.recordDuration cfg duration).validationWarnings = stats.validationWarnings := rfl

@[simp] theorem SRTParserStats.recordGap_validationWarnings (gap : ℤ) (stats : SRTParserStats) :
    (stats.recordGap gap).validationWarnings = stats.validationWarnings := rfl

theorem TimestampFix.record_validationWarnings_ge (fix : TimestampFix) (stats : SRTParserStats) :
    stats.validationWarnings ≤ (fix.record stats).validationWarnings := by
  cases fix <;> simp [TimestampFix.record]

/-- A timestamp line never lowers `validation_warnings`. -/
theorem statsTiming_validationWarnings_ge (stats : SRTParserStats) (line : List Char) :
    stats.validationWarnings ≤ (statsTiming stats line).2.validationWarnings := by
  unfold statsTiming
  rcases parseSrtTimestamp line with _ | ⟨t, fix⟩
  · exact le_rfl
  · have hfix := fix.record_validationWarnings_ge stats
    dsimp only
    cases cueTiming t with
    | none =>
      dsimp only
      rw [SRTParserStats.skipInvalid_validationWarnings]
      omega
    | some timing => exact hfix

theorem processCueId_validationWarnings (cueId lastId : ℤ) (stats : SRTParserStats) :
    (processCueId cueId lastId stats).2.validationWarnings = stats.validationWarnings := by
  obtain ⟨duplicates, sequences, hframe⟩ := processCueId_frame cueId lastId stats
  rw [hframe]

section Flagged

variable (ops : CueTextOps) (cfg : SRTParserConfig)

/-- The stored cues whose text `validate_cue_size` flags. -/
def flaggedCues (entries : List SRTEntry) : ℕ :=
  entries.countP fun e ↦ 0 < ops.validateCueSize e.text cfg.maxLineLength cfg.maxLineCount

/-- The warnings of a stored text: those of `validate_cue_size` when a limit is on. -/
theorem statsCueText_validationWarnings (stats : SRTParserStats) (textbuf : List Char) :
    (statsCueText ops cfg stats textbuf).2.validationWarnings = stats.validationWarnings +
      if 0 < cfg.maxLineLength ∨ 0 < cfg.maxLineCount then
        ops.validateCueSize (statsCueText ops cfg stats textbuf).1 cfg.maxLineLength
          cfg.maxLineCount
      else 0 := by
  unfold statsCueText
  dsimp only
  split_ifs <;> simp

variable {ops cfg}

/-- A stored cue: the repaired cue after the others, with `validation_warnings` as the check
of its text left it. -/
theorem statsCommit_of_ne_nil {st : StatsState} {textbuf : List Char} (hne : textbuf ≠ [])
    (startMs endMs : ℤ) :
    (statsCommit ops cfg st startMs endMs textbuf).entries = st.entries ++
        [(correctOverlap st.entries.getLast?
          ⟨startMs, endMs, (statsCueText ops cfg st.stats textbuf).1, cueAlignment textbuf⟩).1] ∧
      (statsCommit ops cfg st startMs endMs textbuf).stats.validationWarnings =
        (statsCueText ops cfg st.stats textbuf).2.validationWarnings := by
  unfold statsCommit
  rw [if_neg hne]
  refine ⟨rfl, ?_⟩
  dsimp only
  cases st.entries.getLast? <;> dsimp only <;> split_ifs <;> rfl

/-- Storing a cue adds the warnings of its text; giving it up adds one. -/
theorem statsCommit_flagged {st : StatsState}
    (h : (flaggedCues ops cfg st.entries : ℤ) ≤ st.stats.validationWarnings)
    (hon : 0 < cfg.maxLineLength ∨ 0 < cfg.maxLineCount) (startMs endMs : ℤ)
    (textbuf : List Char) :
    (flaggedCues ops cfg (statsCommit ops cfg st startMs endMs textbuf).entries : ℤ) ≤
      (statsCommit ops cfg st startMs endMs textbuf).stats.validationWarnings := by
  by_cases hempty : textbuf = []
  · unfold statsCommit
    rw [if_pos hempty]
    dsimp only
    rw [SRTParserStats.skipInvalid_validationWarnings]
    omega
  · obtain ⟨hentries, hwarnings⟩ := @statsCommit_of_ne_nil ops cfg st textbuf hempty startMs endMs
    rw [hentries, hwarnings, statsCueText_validationWarnings, if_pos hon]
    simp only [flaggedCues, List.countP_append, List.countP_singleton, correctOverlap_text,
      decide_eq_true_eq] at h ⊢
    push_cast
    split_ifs <;> omega

/-- The step lemma: every `fgets` result keeps the flagged stored cues counted. -/
theorem statsStep_flagged {st : StatsState}
    (h : (flaggedCues ops cfg st.entries : ℤ) ≤ st.stats.validationWarnings)
    (hon : 0 < cfg.maxLineLength ∨ 0 < cfg.maxLineCount) (raw : List Char) :
    (flaggedCues ops cfg (statsStep ops cfg st raw).entries : ℤ) ≤
      (statsStep ops cfg st raw).stats.validationWarnings := by
  have htimestamp : ∀ line, (flaggedCues ops cfg (statsTimestampLine st line).entries : ℤ) ≤
      (statsTimestampLine st line).stats.validationWarnings := fun line ↦
    h.trans (statsTiming_validationWarnings_ge { st.stats with totalCues := st.stats.totalCues + 1 }
      line)
  unfold statsStep
  cases st.loop with
  | top =>
    simp only
    by_cases hblank : rstrip raw = []
    · rw [if_pos hblank]
      exact h
    · rw [if_neg hblank]
      split
      · split
        · simpa [processCueId_validationWarnings] using h
        · exact h
      · exact htimestamp _
  | timestampLine => exact htimestamp _
  | textLine startMs endMs textbuf =>
    simp only
    split_ifs
    · exact statsCommit_flagged h hon startMs endMs textbuf
    · exact h

/-- The end of the file stores the pending cue and sets only the average duration. -/
theorem statsFinish_flagged {st : StatsState}
    (h : (flaggedCues ops cfg st.entries : ℤ) ≤ st.stats.validationWarnings)
    (hon : 0 < cfg.maxLineLength ∨ 0 < cfg.maxLineCount) :
    (flaggedCues ops cfg (statsFinish ops cfg st).1 : ℤ) ≤
      (statsFinish ops cfg st).2.validationWarnings := by
  have hflush : (flaggedCues ops cfg (statsFlush ops cfg st).entries : ℤ) ≤
      (statsFlush ops cfg st).stats.validationWarnings := by
    unfold statsFlush
    cases st.loop with
    | textLine startMs endMs textbuf => exact statsCommit_flagged h hon startMs endMs textbuf
    | top => exact h
    | timestampLine => exact h
  unfold statsFinish
  dsimp only
  split_ifs <;> exact hflush

end Flagged

/-- The run lemma: after every prefix of the file, with a limit on, the flagged stored cues are
counted in `validation_warnings`. -/
theorem flagged_parseSrtWithStats (ops : CueTextOps) (cfg : SRTParserConfig)
    (lines : List (List Char)) (hon : 0 < cfg.maxLineLength ∨ 0 < cfg.maxLineCount) :
    let st := lines.foldl (statsStep ops cfg) ⟨.top, [], 0, SRTParserStats.init⟩
    (flaggedCues ops cfg st.entries : ℤ) ≤ st.stats.validationWarnings := by
  induction lines using List.reverseRecOn with
  | nil => simp [flaggedCues, SRTParserStats.init]
  | append_singleton lines raw ih =>
    simp only [List.foldl_append, List.foldl_cons, List.foldl_nil]
    exact statsStep_flagged ih hon raw

/-- `parse_srt_with_stats` with the text functions of `srt_parser.c` counts, in
`validation_warnings`, at least every stored cue whose text is visibly longer than a positive
`max_line_length`, newlines included, whatever the lengths of its lines. -/
theorem parseSrtWithStats_longCuesWarned (cfg : SRTParserConfig) (lines : List (List Char))
    (hpos : 0 < cfg.maxLineLength) :
    let result := parseSrtWithStats srtCueTextOps cfg lines
    ((result.1.countP fun e ↦ cfg.maxLineLength < visibleLen e.text : ℕ) : ℤ) ≤
      result.2.validationWarnings := by
  intro result
  have hflagged : (flaggedCues srtCueTextOps cfg result.1 : ℤ) ≤ result.2.validationWarnings :=
    statsFinish_flagged (flagged_parseSrtWithStats srtCueTextOps cfg lines (Or.inl hpos))
      (Or.inl hpos)
  have hlong : (result.1.countP fun e ↦ cfg.maxLineLength < visibleLen e.text) ≤
      flaggedCues srtCueTextOps cfg result.1 := by
    refine List.countP_mono_left fun e _ hlong ↦ ?_
    exact decide_eq_true (validateCueSize_of_long cfg.maxLineCount hpos (of_decide_eq_true hlong)).2
  omega

/-- The theorem at a line-length limit of three, on a file with one cue of two lines of two
characters. -/
theorem parseSrtWithStats_longCuesWarned_twoLines :
    let cfg : SRTParserConfig := ⟨true, 720, 576, 3, 5, true, true, true, true⟩
    let file := ["1\n".toList, "00:00:01,000 --> 00:00:02,000\n".toList, "ab\n".toList,
      "cd\n".toList]
    0 < cfg.maxLineLength ∧
      (((parseSrtWithStats srtCueTextOps cfg file).1.countP
          fun e ↦ cfg.maxLineLength < visibleLen e.text : ℕ) : ℤ) ≤
        (parseSrtWithStats srtCueTextOps cfg file).2.validationWarnings := by
  intro cfg file
  exact ⟨by decide, parseSrtWithStats_longCuesWarned cfg file (by decide)⟩

end Srt2Dvbsub.SrtParser
