import Srt2Dvbsub.CLib.Scan

/-!
# Cues of the SRT parser: timestamps, statistics and the overlap repair

`srt_parser.c` turns an SRT file into an array of `SRTEntry` with millisecond start and end
times. This module models what both of its parse loops (`parse_srt_internal` and
`parse_srt_with_stats`) do with one cue apart from its text: reading the timestamp line,
checking the field ranges, converting to milliseconds, and repairing an overlap with the cue
stored before it.

`parseInternalTimestamp` is the single `sscanf` format of `parse_srt_internal`, and
`parseSrtTimestamp` the fallback chain of `parse_srt_with_stats` with the `TimestampFix` it
records in the statistics. `timestampRangesOk` is the range check both loops apply to
minutes, seconds and milliseconds, and `cueTiming` the resulting `(start, end)` pair when it
passes and `end > start`.

`correctOverlap` is the repair both loops apply to a new cue: a start before the previous
end moves to that end, and the end moves to one past the new start only when the new start
is after it. `correctOverlap_start_le_end` and `correctOverlap_gap_nonneg` are what the repair
guarantees, and what `Timeline.append_correctOverlap` carries through both loops.

`rstrip`, `stripBom`, `replaceAssH`, `removeAssH`, `cueAlignment` and `processCueId` are the
small string and bookkeeping helpers the loops call.
-/

set_option autoImplicit false
set_option relaxedAutoImplicit false

namespace Srt2Dvbsub.SrtParser

open CLib

/-! ### Data -/

/-- One parsed cue (`SRTEntry`). -/
structure SRTEntry where
  startMs : ℤ
  endMs : ℤ
  text : List Char
  alignment : ℤ
  deriving DecidableEq, Repr

/-- The parser configuration (`SRTParserConfig`); `validation_level` is read by no loop. -/
structure SRTParserConfig where
  useAss : Bool
  videoW : ℤ
  videoH : ℤ
  maxLineLength : ℤ
  maxLineCount : ℤ
  autoFixDuplicates : Bool
  autoFixEncoding : Bool
  warnOnShortDuration : Bool
  warnOnLongDuration : Bool
  deriving DecidableEq, Repr

/-- The statistics `parse_srt_with_stats` fills (`SRTParserStats`). -/
structure SRTParserStats where
  totalCues : ℤ
  validCues : ℤ
  skippedCues : ℤ
  duplicateIdsFixed : ℤ
  sequencesFixed : ℤ
  overlapsCorrected : ℤ
  encodingErrorsFixed : ℤ
  encodingWarnings : ℤ
  timingWarnings : ℤ
  validationWarnings : ℤ
  minDuration : ℤ
  maxDuration : ℤ
  avgDuration : ℤ
  minGap : ℤ
  maxGap : ℤ
  deriving DecidableEq, Repr

/-- `INT64_MAX`, the start value of the two minima. -/
def INT64_MAX : ℤ := 2 ^ 63 - 1

/-- The statistics after the `memset` and the two `INT64_MAX` stores. -/
def SRTParserStats.init : SRTParserStats :=
  ⟨0, 0, 0, 0, 0, 0, 0, 0, 0, 0, INT64_MAX, 0, 0, INT64_MAX, 0⟩

/-! ### Line helpers -/

/-- `rstrip`: drop every trailing newline and carriage return. -/
def rstrip (s : List Char) : List Char :=
  (s.reverse.dropWhile (fun c ↦ c == '\n' || c == '\r')).reverse

/-- Drop a UTF-8 byte order mark `EF BB BF` at the start of the line. -/
def stripBom : List Char → List Char
  | '\xEF' :: '\xBB' :: '\xBF' :: rest => rest
  | line => line

/-- `replace_ass_h`: every `\h` becomes a space. -/
def replaceAssH : List Char → List Char
  | '\\' :: 'h' :: rest => ' ' :: replaceAssH rest
  | c :: rest => c :: replaceAssH rest
  | [] => []

/-- `remove_ass_h`: every `\h` is deleted; the search resumes at the byte that follows. -/
def removeAssH : List Char → List Char
  | '\\' :: 'h' :: rest => removeAssH rest
  | c :: rest => c :: removeAssH rest
  | [] => []

/-- The text after the first occurrence of `\an` (`strstr(textbuf, "{\\an")` plus four). -/
def afterAnTag : List Char → Option (List Char)
  | '{' :: '\\' :: 'a' :: 'n' :: rest => some rest
  | _ :: rest => afterAnTag rest
  | [] => none

/-- The alignment of a cue: the digit of its first `{\an` tag when it is `1` to `9`, else
`2`. -/
def cueAlignment (textbuf : List Char) : ℤ :=
  match afterAnTag textbuf with
  | some (c :: _) =>
    let code : ℤ := (c.toNat : ℤ) - ('0'.toNat : ℤ)
    if 1 ≤ code ∧ code ≤ 9 then code else 2
  | _ => 2

/-- `process_cue_id` with `auto_fix` set: the new `last_id`, and the statistics. -/
def processCueId (cueId lastId : ℤ) (stats : SRTParserStats) : ℤ × SRTParserStats :=
  if cueId = lastId then
    (lastId + 1, { stats with duplicateIdsFixed := stats.duplicateIdsFixed + 1 })
  else if cueId > lastId + 1 then
    (lastId + 1, { stats with sequencesFixed := stats.sequencesFixed + 1 })
  else (cueId, stats)

/-! ### Timestamps -/

/-- The eight fields of a timestamp line. -/
structure Timestamps where
  h1 : ℤ
  m1 : ℤ
  s1 : ℤ
  ms1 : ℤ
  h2 : ℤ
  m2 : ℤ
  s2 : ℤ
  ms2 : ℤ
  deriving DecidableEq, Repr

/-- The eight values of a format with eight conversions, when all eight were read. -/
def timestampsOf : List ℤ → Option Timestamps
  | [h1, m1, s1, ms1, h2, m2, s2, ms2] => some ⟨h1, m1, s1, ms1, h2, m2, s2, ms2⟩
  | _ => none

/-- The six values of a format without hours, the hours set to `0`. -/
def timestampsWithoutHours : List ℤ → Option Timestamps
  | [m1, s1, ms1, m2, s2, ms2] => some ⟨0, m1, s1, ms1, 0, m2, s2, ms2⟩
  | _ => none

/-- The timestamp line of `parse_srt_internal`: one format, all eight fields. -/
def parseInternalTimestamp (line : List Char) : Option Timestamps :=
  timestampsOf (sscanf line "%d:%d:%d,%d --> %d:%d:%d,%d".toList)

/-- Which fallback of `parse_srt_timestamp` accepted the line. -/
inductive TimestampFix where
  | standard
  | dotSeparator
  | missingHours
  | missingHoursDot
  | arrow
  deriving DecidableEq, Repr

/-- The warning a fallback adds to the statistics. -/
def TimestampFix.record (fix : TimestampFix) (stats : SRTParserStats) : SRTParserStats :=
  match fix with
  | .standard => stats
  | .dotSeparator | .missingHoursDot =>
    { stats with encodingWarnings := stats.encodingWarnings + 1 }
  | .missingHours | .arrow => { stats with validationWarnings := stats.validationWarnings + 1 }

/-- `parse_srt_timestamp`: the formats in the order the function tries them. -/
def parseSrtTimestamp (line : List Char) : Option (Timestamps × TimestampFix) :=
  match timestampsOf (sscanf line "%d:%d:%d,%d --> %d:%d:%d,%d".toList) with
  | some t => some (t, .standard)
  | none =>
  match timestampsOf (sscanf line "%d:%d:%d.%d --> %d:%d:%d.%d".toList) with
  | some t => some (t, .dotSeparator)
  | none =>
  match timestampsWithoutHours (sscanf line "%d:%d,%d --> %d:%d,%d".toList) with
  | some t => some (t, .missingHours)
  | none =>
  match timestampsWithoutHours (sscanf line "%d:%d.%d --> %d:%d.%d".toList) with
  | some t => some (t, .missingHoursDot)
  | none =>
  match timestampsOf (sscanf line "%d:%d:%d,%d => %d:%d:%d,%d".toList) with
  | some t => some (t, .arrow)
  | none =>
  match timestampsOf (sscanf line "%d:%d:%d,%d -> %d:%d:%d,%d".toList) with
  | some t => some (t, .arrow)
  | none => none

/-- The range check of both loops: minutes and seconds in `0..59`, milliseconds in
`0..999`. The hours are not checked. -/
def timestampRangesOk (t : Timestamps) : Bool :=
  decide (0 ≤ t.m1 ∧ t.m1 ≤ 59 ∧ 0 ≤ t.s1 ∧ t.s1 ≤ 59 ∧ 0 ≤ t.ms1 ∧ t.ms1 ≤ 999 ∧
    0 ≤ t.m2 ∧ t.m2 ≤ 59 ∧ 0 ≤ t.s2 ∧ t.s2 ≤ 59 ∧ 0 ≤ t.ms2 ∧ t.ms2 ≤ 999)

/-- `((int64_t)h*3600 + m*60 + s) * 1000 + ms`. -/
def toMs (h m s ms : ℤ) : ℤ :=
  (h * 3600 + m * 60 + s) * 1000 + ms

/-- What a checked timestamp line leaves for the cue: `none` when a range is wrong or
`end <= start`. -/
def cueTiming (t : Timestamps) : Option (ℤ × ℤ) :=
  if timestampRangesOk t ∧ toMs t.h1 t.m1 t.s1 t.ms1 < toMs t.h2 t.m2 t.s2 t.ms2 then
    some (toMs t.h1 t.m1 t.s1 t.ms1, toMs t.h2 t.m2 t.s2 t.ms2)
  else none

/-- A timing that passes the checks starts before it ends. -/
theorem cueTiming_lt {t : Timestamps} {startMs endMs : ℤ}
    (h : cueTiming t = some (startMs, endMs)) : startMs < endMs := by
  unfold cueTiming at h
  split_ifs at h with hok
  cases h
  exact hok.2

/-! ### The overlap repair -/

/-- The cue moved to start at `startMs`, its end pushed to one past the new start when it
would otherwise come before it: "never allow negative duration on current cue". -/
def shiftStart (e : SRTEntry) (startMs : ℤ) : SRTEntry :=
  { e with startMs := startMs, endMs := if startMs > e.endMs then startMs + 1 else e.endMs }

@[simp] theorem shiftStart_startMs (e : SRTEntry) (startMs : ℤ) :
    (shiftStart e startMs).startMs = startMs := rfl

@[simp] theorem shiftStart_endMs (e : SRTEntry) (startMs : ℤ) :
    (shiftStart e startMs).endMs = if startMs > e.endMs then startMs + 1 else e.endMs := rfl

@[simp] theorem shiftStart_text (e : SRTEntry) (startMs : ℤ) :
    (shiftStart e startMs).text = e.text := rfl

@[simp] theorem shiftStart_alignment (e : SRTEntry) (startMs : ℤ) :
    (shiftStart e startMs).alignment = e.alignment := rfl

/-- The repair of both loops against the cue stored before (`entries[n-1]`), with whether it
fired: "Keep current cue's end time fixed, adjust next cue's start time". -/
def correctOverlap : Option SRTEntry → SRTEntry → SRTEntry × Bool
  | some p, e => if e.startMs < p.endMs then (shiftStart e p.endMs, true) else (e, false)
  | none, e => (e, false)

@[simp] theorem correctOverlap_none (e : SRTEntry) : correctOverlap none e = (e, false) := rfl

/-- The text and the alignment are not touched by the repair. -/
@[simp] theorem correctOverlap_text (prev : Option SRTEntry) (e : SRTEntry) :
    (correctOverlap prev e).1.text = e.text := by
  cases prev with
  | none => rfl
  | some p =>
    simp only [correctOverlap]
    split_ifs <;> rfl

@[simp] theorem correctOverlap_alignment (prev : Option SRTEntry) (e : SRTEntry) :
    (correctOverlap prev e).1.alignment = e.alignment := by
  cases prev with
  | none => rfl
  | some p =>
    simp only [correctOverlap]
    split_ifs <;> rfl

/-- The repair never gives a negative duration. -/
theorem correctOverlap_start_le_end (prev : Option SRTEntry) {e : SRTEntry}
    (he : e.startMs ≤ e.endMs) :
    (correctOverlap prev e).1.startMs ≤ (correctOverlap prev e).1.endMs := by
  cases prev with
  | none => exact he
  | some p =>
    simp only [correctOverlap]
    split_ifs with hlt
    · simp only [shiftStart_startMs, shiftStart_endMs]
      split_ifs <;> omega
    · exact he

/-- After the repair the cue starts no earlier than the previous one ends. -/
theorem correctOverlap_gap_nonneg (p e : SRTEntry) :
    p.endMs ≤ (correctOverlap (some p) e).1.startMs := by
  simp only [correctOverlap]
  split_ifs with hlt
  · simp
  · simp only
    omega

/-! ### Well-formed timelines -/

/-- Consecutive cues do not overlap: each starts no earlier than the one before ends. -/
def Touching (a b : SRTEntry) : Prop :=
  a.endMs ≤ b.startMs

/-- The timeline the loops build: no cue of negative duration, and no overlap between
consecutive cues. -/
structure Timeline (entries : List SRTEntry) : Prop where
  start_le_end : ∀ e ∈ entries, e.startMs ≤ e.endMs
  chain : entries.IsChain Touching

theorem Timeline.nil : Timeline [] :=
  ⟨fun _ h ↦ absurd h List.not_mem_nil, List.IsChain.nil⟩

/-- Appending a repaired cue of non-negative duration keeps the timeline. -/
theorem Timeline.append_correctOverlap {entries : List SRTEntry} (h : Timeline entries)
    {e : SRTEntry} (he : e.startMs ≤ e.endMs) :
    Timeline (entries ++ [(correctOverlap entries.getLast? e).1]) := by
  constructor
  · intro x hx
    rcases List.mem_append.mp hx with hx | hx
    · exact h.start_le_end x hx
    · rw [List.mem_singleton.mp hx]
      exact correctOverlap_start_le_end _ he
  · refine h.chain.append (List.isChain_singleton _) ?_
    intro p hp y hy
    rw [Option.mem_def] at hp
    simp only [List.head?_cons, Option.mem_def, Option.some.injEq] at hy
    rw [← hy, hp]
    exact correctOverlap_gap_nonneg p e

end Srt2Dvbsub.SrtParser
