import Srt2Dvbsub.SrtParser.Parse

/-!
# `parse_srt_with_stats`

The loop of `parse_srt_with_stats` has the control structure of `parse_srt_internal`
(`LoopAt`), with four differences the model keeps: the timestamp line goes through the
fallback chain `parse_srt_timestamp`, a cue index goes through `process_cue_id`, a cue with an
empty text is skipped, and every branch updates `SRTParserStats`. The `continue` paths count
the cue as skipped; a stored cue updates the duration, gap and overlap statistics, and the end
of the file sets the average duration.

`statsStep_timeline` and `timeline_parseSrtWithStats` carry the `Timeline` invariant of
`Parse` through this loop. `parseSrt_zeroDurationCue` runs both parsers on a file whose second
cue overlaps the first and ends with it: each stores that cue with `startMs = endMs`.
-/

set_option autoImplicit false
set_option relaxedAutoImplicit false

namespace Srt2Dvbsub.SrtParser

open CLib

/-- The configuration `parse_srt_with_stats` builds from the globals when `cfg` is `NULL`. -/
def defaultConfig (useAss : Bool) (videoW videoH : ℤ) : SRTParserConfig :=
  ⟨useAss, videoW, videoH, 200, 5, true, true, true, true⟩

/-- The state of `parse_srt_with_stats` between two `fgets` calls. -/
structure StatsState where
  loop : LoopAt
  entries : List SRTEntry
  lastCueId : ℤ
  stats : SRTParserStats

/-- A cue given up: `skipped_cues` and `validation_warnings` go up. -/
def SRTParserStats.skipInvalid (stats : SRTParserStats) : SRTParserStats :=
  { stats with skippedCues := stats.skippedCues + 1,
               validationWarnings := stats.validationWarnings + 1 }

/-- The timing of a timestamp line through `parse_srt_timestamp`, the range check and
`end > start`, with the statistics of each outcome. -/
def statsTiming (stats : SRTParserStats) (line : List Char) :
    Option (ℤ × ℤ) × SRTParserStats :=
  match parseSrtTimestamp line with
  | none => (none, { stats with skippedCues := stats.skippedCues + 1 })
  | some (t, fix) =>
    match cueTiming t with
    | some timing => (some timing, fix.record stats)
    | none => (none, (fix.record stats).skipInvalid)

/-- The duration of a stored cue in the statistics, with its warnings. -/
def SRTParserStats.recordDuration (cfg : SRTParserConfig) (duration : ℤ)
    (stats : SRTParserStats) : SRTParserStats :=
  { stats with
    validCues := stats.validCues + 1
    minDuration := min stats.minDuration duration
    maxDuration := max stats.maxDuration duration
    timingWarnings := stats.timingWarnings +
      (if cfg.warnOnShortDuration ∧ duration < 100 then 1 else 0) +
      (if cfg.warnOnLongDuration ∧ duration > 30000 then 1 else 0) }

/-- The gap between a stored cue and the one before it in the statistics. -/
def SRTParserStats.recordGap (gap : ℤ) (stats : SRTParserStats) : SRTParserStats :=
  { stats with minGap := min stats.minGap gap, maxGap := max stats.maxGap gap }

section WithStats

variable (ops : CueTextOps) (cfg : SRTParserConfig)

/-- The text `parse_srt_with_stats` stores, after `sanitize_utf8` when `auto_fix_encoding` is
set, with the statistics of the sanitizer and of `validate_cue_size`. -/
def statsCueText (stats : SRTParserStats) (textbuf : List Char) :
    List Char × SRTParserStats :=
  let sanitized := if cfg.autoFixEncoding then ops.sanitizeUtf8 textbuf else (textbuf, 0)
  let stats := { stats with
    encodingErrorsFixed := stats.encodingErrorsFixed + sanitized.2
    encodingWarnings := stats.encodingWarnings + (if 0 < sanitized.2 then 1 else 0) }
  let norm := if cfg.useAss then replaceAssH sanitized.1
    else rstrip (removeAssH (ops.normalizeCueText sanitized.1 (isHd cfg.videoW cfg.videoH)))
  if 0 < cfg.maxLineLength ∨ 0 < cfg.maxLineCount then
    (norm, { stats with validationWarnings := stats.validationWarnings +
      ops.validateCueSize norm cfg.maxLineLength cfg.maxLineCount })
  else (norm, stats)

/-- Store a cue of `parse_srt_with_stats`, or skip it when its text is empty. -/
def statsCommit (st : StatsState) (startMs endMs : ℤ) (textbuf : List Char) : StatsState :=
  if textbuf = [] then { st with loop := .top, stats := st.stats.skipInvalid }
  else
    let text := statsCueText ops cfg st.stats textbuf
    let e : SRTEntry := ⟨startMs, endMs, text.1, cueAlignment textbuf⟩
    let repaired := correctOverlap st.entries.getLast? e
    let stats := if repaired.2 then
      { text.2 with overlapsCorrected := text.2.overlapsCorrected + 1 } else text.2
    let stats := stats.recordDuration cfg (repaired.1.endMs - repaired.1.startMs)
    let stats := match st.entries.getLast? with
      | some p => stats.recordGap (repaired.1.startMs - p.endMs)
      | none => stats
    ⟨.top, appendCue st.entries e, st.lastCueId, stats⟩

/-- The timestamp line: `total_cues` goes up, then the timing is checked. -/
def statsTimestampLine (st : StatsState) (line : List Char) : StatsState :=
  let timing := statsTiming { st.stats with totalCues := st.stats.totalCues + 1 } line
  { st with loop := afterTiming timing.1, stats := timing.2 }

/-- One `fgets` result consumed by `parse_srt_with_stats`. -/
def statsStep (st : StatsState) (raw : List Char) : StatsState :=
  match st.loop with
  | .top =>
    if rstrip raw = [] then st
    else
      match sscanf (stripBom (rstrip raw)) "%d".toList with
      | [idx] =>
        if cfg.autoFixDuplicates then
          let fixed := processCueId idx st.lastCueId st.stats
          { st with loop := .timestampLine, lastCueId := fixed.1, stats := fixed.2 }
        else { st with loop := .timestampLine }
      | _ => statsTimestampLine st (stripBom (rstrip raw))
  | .timestampLine => statsTimestampLine st (rstrip raw)
  | .textLine startMs endMs textbuf =>
    if rstrip raw = [] then statsCommit ops cfg st startMs endMs textbuf
    else { st with loop := .textLine startMs endMs (appendTextLine textbuf (rstrip raw)) }

/-- The end of the file inside the text loop stores the cue being read. -/
def statsFlush (st : StatsState) : StatsState :=
  match st.loop with
  | .textLine startMs endMs textbuf => statsCommit ops cfg st startMs endMs textbuf
  | _ => st

/-- The end of the file: the cue being read is stored, and the average duration set. -/
def statsFinish (st : StatsState) : List SRTEntry × SRTParserStats :=
  let st := statsFlush ops cfg st
  if 0 < st.stats.validCues then
    (st.entries, { st.stats with
      avgDuration :=
        ((st.entries.map (fun e : SRTEntry ↦ e.endMs - e.startMs)).sum).tdiv st.stats.validCues })
  else (st.entries, st.stats)

end WithStats

/-- `parse_srt_with_stats` on the lines `fgets` yields: the stored cues and the statistics. -/
def parseSrtWithStats (ops : CueTextOps) (cfg : SRTParserConfig) (lines : List (List Char)) :
    List SRTEntry × SRTParserStats :=
  statsFinish ops cfg (lines.foldl (statsStep ops cfg) ⟨.top, [], 0, SRTParserStats.init⟩)

/-! ### The timeline invariant -/

section Invariant

variable {ops : CueTextOps} {cfg : SRTParserConfig}

/-- The invariant of `parse_srt_with_stats`, as for `parse_srt_internal`. -/
def StatsState.Inv (st : StatsState) : Prop :=
  Timeline st.entries ∧ st.loop.Ok

theorem statsTiming_ok (stats : SRTParserStats) (line : List Char) :
    (afterTiming (statsTiming stats line).1).Ok := by
  unfold statsTiming
  cases parseSrtTimestamp line with
  | none => trivial
  | some tf =>
    obtain ⟨t, fix⟩ := tf
    simp only
    cases h : cueTiming t with
    | none => trivial
    | some p => exact cueTiming_lt h

theorem statsTimestampLine_inv {st : StatsState} (h : Timeline st.entries) (line : List Char) :
    (statsTimestampLine st line).Inv :=
  ⟨h, statsTiming_ok _ line⟩

theorem statsCommit_inv {st : StatsState} (h : Timeline st.entries) {startMs endMs : ℤ}
    (hlt : startMs < endMs) (textbuf : List Char) :
    (statsCommit ops cfg st startMs endMs textbuf).Inv := by
  unfold statsCommit
  split_ifs
  · exact ⟨h, trivial⟩
  · exact ⟨h.appendCue (Int.le_of_lt hlt), trivial⟩

theorem statsStep_timeline {st : StatsState} (h : st.Inv) (raw : List Char) :
    (statsStep ops cfg st raw).Inv := by
  obtain ⟨hentries, hloop⟩ := h
  unfold statsStep
  cases hst : st.loop with
  | top =>
    simp only
    by_cases hblank : rstrip raw = []
    · rw [if_pos hblank]
      exact ⟨hentries, by rw [hst]; trivial⟩
    · rw [if_neg hblank]
      split
      · split <;> exact ⟨hentries, trivial⟩
      · exact statsTimestampLine_inv hentries _
  | timestampLine => exact statsTimestampLine_inv hentries _
  | textLine startMs endMs textbuf =>
    rw [hst] at hloop
    simp only
    split_ifs
    · exact statsCommit_inv hentries hloop textbuf
    · exact ⟨hentries, hloop⟩

theorem statsFlush_timeline {st : StatsState} (h : st.Inv) :
    Timeline (statsFlush ops cfg st).entries := by
  obtain ⟨hentries, hloop⟩ := h
  unfold statsFlush
  cases hst : st.loop with
  | textLine startMs endMs textbuf =>
    rw [hst] at hloop
    exact (statsCommit_inv hentries hloop textbuf).1
  | top => exact hentries
  | timestampLine => exact hentries

theorem statsFinish_timeline {st : StatsState} (h : st.Inv) :
    Timeline (statsFinish ops cfg st).1 := by
  unfold statsFinish
  dsimp only
  split_ifs <;> exact statsFlush_timeline h

end Invariant

/-- Every run of `parse_srt_with_stats`, on any lines and with any configuration, stores a
timeline. -/
theorem timeline_parseSrtWithStats (ops : CueTextOps) (cfg : SRTParserConfig)
    (lines : List (List Char)) : Timeline (parseSrtWithStats ops cfg lines).1 := by
  apply statsFinish_timeline
  have hinit : StatsState.Inv ⟨.top, [], 0, SRTParserStats.init⟩ := ⟨Timeline.nil, trivial⟩
  induction lines using List.reverseRecOn with
  | nil => exact hinit
  | append_singleton lines raw ih =>
    rw [List.foldl_append, List.foldl_cons, List.foldl_nil]
    exact statsStep_timeline ih raw

/-! ### The timings do not depend on the text -/

/-- Two states of `parse_srt_with_stats` at the same place with cues of the same timings. -/
def StatsState.SameTiming (st st' : StatsState) : Prop :=
  st.loop = st'.loop ∧ st.entries.map timingOf = st'.entries.map timingOf

/-- Whether a timestamp line passes does not depend on the statistics so far. -/
theorem statsTiming_fst (stats stats' : SRTParserStats) (line : List Char) :
    (statsTiming stats line).1 = (statsTiming stats' line).1 := by
  unfold statsTiming
  cases parseSrtTimestamp line with
  | none => rfl
  | some tf =>
    simp only
    cases cueTiming tf.1 <;> rfl

section SameTiming

variable {ops ops' : CueTextOps} {cfg : SRTParserConfig}

theorem statsCommit_sameTiming {st st' : StatsState}
    (h : st.entries.map timingOf = st'.entries.map timingOf) (startMs endMs : ℤ)
    (textbuf : List Char) :
    (statsCommit ops cfg st startMs endMs textbuf).SameTiming
      (statsCommit ops' cfg st' startMs endMs textbuf) := by
  unfold statsCommit
  split_ifs
  · exact ⟨rfl, h⟩
  · exact ⟨rfl, map_timingOf_appendCue h rfl⟩

theorem statsTimestampLine_sameTiming {st st' : StatsState}
    (h : st.entries.map timingOf = st'.entries.map timingOf) (line : List Char) :
    (statsTimestampLine st line).SameTiming (statsTimestampLine st' line) :=
  ⟨congrArg afterTiming (statsTiming_fst _ _ line), h⟩

theorem statsStep_sameTiming {st st' : StatsState} (h : st.SameTiming st') (raw : List Char) :
    (statsStep ops cfg st raw).SameTiming (statsStep ops' cfg st' raw) := by
  obtain ⟨hloop, hentries⟩ := h
  unfold statsStep
  rw [← hloop]
  cases st.loop with
  | top =>
    simp only
    by_cases hblank : rstrip raw = []
    · rw [if_pos hblank, if_pos hblank]
      exact ⟨hloop, hentries⟩
    · rw [if_neg hblank, if_neg hblank]
      split
      · split <;> exact ⟨rfl, hentries⟩
      · exact statsTimestampLine_sameTiming hentries _
  | timestampLine => exact statsTimestampLine_sameTiming hentries _
  | textLine startMs endMs textbuf =>
    simp only
    split_ifs
    · exact statsCommit_sameTiming hentries startMs endMs textbuf
    · exact ⟨rfl, hentries⟩

theorem statsFinish_sameTiming {st st' : StatsState} (h : st.SameTiming st') :
    (statsFinish ops cfg st).1.map timingOf = (statsFinish ops' cfg st').1.map timingOf := by
  have hflush : (statsFlush ops cfg st).entries.map timingOf =
      (statsFlush ops' cfg st').entries.map timingOf := by
    obtain ⟨hloop, hentries⟩ := h
    unfold statsFlush
    rw [← hloop]
    cases st.loop with
    | textLine startMs endMs textbuf =>
      exact (statsCommit_sameTiming hentries startMs endMs textbuf).2
    | top => exact hentries
    | timestampLine => exact hentries
  unfold statsFinish
  dsimp only
  split_ifs <;> exact hflush

end SameTiming

/-- The timings `parse_srt_with_stats` stores do not depend on the text operations. -/
theorem timings_parseSrtWithStats_eq (ops ops' : CueTextOps) (cfg : SRTParserConfig)
    (lines : List (List Char)) :
    (parseSrtWithStats ops cfg lines).1.map timingOf =
      (parseSrtWithStats ops' cfg lines).1.map timingOf := by
  apply statsFinish_sameTiming
  induction lines using List.reverseRecOn with
  | nil => exact ⟨rfl, rfl⟩
  | append_singleton lines raw ih =>
    rw [List.foldl_append, List.foldl_cons, List.foldl_nil, List.foldl_append, List.foldl_cons,
      List.foldl_nil]
    exact statsStep_sameTiming ih raw

/-! ### A cue of zero duration -/

/-- Both parsers store the second cue of this file with zero duration: it overlaps the first
and ends when the first ends, so the repair moves its start to its end and leaves the end
where it is. -/
theorem parseSrt_zeroDurationCue (ops : CueTextOps) :
    let file := ["1\n".toList, "00:00:00,000 --> 00:00:02,000\n".toList, "A\n".toList,
      "\n".toList, "2\n".toList, "00:00:01,000 --> 00:00:02,000\n".toList, "B\n".toList]
    (parseSrtCfg ops (defaultConfig false 720 576) file).map timingOf =
        [(0, 2000), (2000, 2000)] ∧
      (parseSrtWithStats ops (defaultConfig false 720 576) file).1.map timingOf =
        [(0, 2000), (2000, 2000)] := by
  intro file
  let plain : CueTextOps := ⟨fun text _ ↦ text, fun text ↦ (text, 0), fun _ _ _ ↦ 0⟩
  constructor
  · rw [parseSrtCfg, timings_parseSrtInternal_eq ops plain _ false _ _ 720 576]
    decide
  · rw [timings_parseSrtWithStats_eq ops plain]
    decide

/-! ### A cue at a negative time -/

/-- Both parsers accept a timestamp line whose hours are negative: `%d` reads the sign, and the
range check covers minutes, seconds and milliseconds only. The first cue is not repaired, so
it is stored starting an hour before zero. -/
theorem parseSrt_negativeHoursCue (ops : CueTextOps) :
    let file := ["1\n".toList, "-1:00:00,000 --> 00:00:01,000\n".toList, "A\n".toList]
    (parseSrtCfg ops (defaultConfig false 720 576) file).map timingOf = [(-3600000, 1000)] ∧
      (parseSrtWithStats ops (defaultConfig false 720 576) file).1.map timingOf =
        [(-3600000, 1000)] := by
  intro file
  let plain : CueTextOps := ⟨fun text _ ↦ text, fun text ↦ (text, 0), fun _ _ _ ↦ 0⟩
  constructor
  · rw [parseSrtCfg, timings_parseSrtInternal_eq ops plain _ false _ _ 720 576]
    decide
  · rw [timings_parseSrtWithStats_eq ops plain]
    decide

end Srt2Dvbsub.SrtParser
