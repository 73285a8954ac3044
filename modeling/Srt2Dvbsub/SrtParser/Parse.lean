import Srt2Dvbsub.SrtParser.Cue

/-!
# The parse loops of `srt_parser.c`

`parse_srt_internal` (reached through `parse_srt_cfg`) and `parse_srt_with_stats` read the
file with `fgets` in three places: at the top of the outer loop, once more after a cue index
for the timestamp line, and in the inner loop that collects the cue text up to a blank line.
The model makes that control location explicit (`LoopAt`) and consumes one `fgets` result per
step, so a whole parse is a left fold of a step function over the lines the file yields,
followed by the flush that the end of the file causes (`internalFinish`, `statsFinish`).
Every `continue` of the C loops is a return to `LoopAt.top`.

The cue text goes through `normalize_cue_text`, and in `parse_srt_with_stats` also through
`sanitize_utf8` and `validate_cue_size`; these text analyses are the fields of `CueTextOps`,
and every result here holds for all of them. Memory allocation is taken to succeed, and the
QC report that `qc_check_entry` writes is not modelled.

`Timeline` is the invariant of both loops: `internalStep_timeline` and `statsStep_timeline`
are the step lemmas, and `timeline_parseSrtInternal` and `timeline_parseSrtWithStats` the run
lemmas. Neither loop guarantees a positive duration: a cue that overlaps its predecessor and
ends at the same time is stored with `startMs = endMs`. `timings_parseSrtInternal_eq` shows
that the timings of the cues do not depend on the text operations.
-/

set_option autoImplicit false
set_option relaxedAutoImplicit false

namespace Srt2Dvbsub.SrtParser

open CLib

/-- The text analyses the loops call, each a parameter of the model: `normalize_cue_text`,
`sanitize_utf8` (the new text and the number of sequences it fixed) and the number of
warnings `validate_cue_size` adds for a line-length and a line-count limit. -/
structure CueTextOps where
  normalizeCueText : List Char → Bool → List Char
  sanitizeUtf8 : List Char → List Char × ℕ
  validateCueSize : List Char → ℤ → ℤ → ℕ

/-- Where a loop calls `fgets` next: at the top of the outer loop, for the timestamp line after
a cue index, or in the text loop of a cue whose timing passed the checks. -/
inductive LoopAt where
  | top
  | timestampLine
  | textLine (startMs endMs : ℤ) (textbuf : List Char)
  deriving DecidableEq, Repr

/-- `is_hd`: a width above 720 or a height above 576. -/
def isHd (videoW videoH : ℤ) : Bool :=
  decide (videoW > 720 ∨ videoH > 576)

/-- One text line into `textbuf[8192]`, with its newline, when it still fits. -/
def appendTextLine (textbuf line : List Char) : List Char :=
  if textbuf.length + line.length + 2 < 8192 then textbuf ++ line ++ ['\n'] else textbuf

/-- Where a checked timing sends the loop: to the text of the cue, or back to the top. -/
def afterTiming : Option (ℤ × ℤ) → LoopAt
  | some (startMs, endMs) => .textLine startMs endMs []
  | none => .top

/-- The stored cue, repaired against the last stored one. -/
def appendCue (entries : List SRTEntry) (e : SRTEntry) : List SRTEntry :=
  entries ++ [(correctOverlap entries.getLast? e).1]

/-! ### `parse_srt_internal` -/

section Internal

variable (ops : CueTextOps) (useAss hd : Bool)

/-- The state of `parse_srt_internal` between two `fgets` calls. -/
structure InternalState where
  loop : LoopAt
  entries : List SRTEntry

/-- The timing of a timestamp line: one `sscanf` format, the range check and `end > start`. -/
def internalTiming (line : List Char) : Option (ℤ × ℤ) :=
  (parseInternalTimestamp line).bind cueTiming

/-- The text `parse_srt_internal` stores: `replace_ass_h` of a copy with ASS, else the
normalized text with `\h` removed and trailing newlines stripped. -/
def internalCueText (textbuf : List Char) : List Char :=
  if useAss then replaceAssH textbuf else rstrip (removeAssH (ops.normalizeCueText textbuf hd))

/-- Store a cue of `parse_srt_internal`. -/
def internalCommit (entries : List SRTEntry) (startMs endMs : ℤ) (textbuf : List Char) :
    List SRTEntry :=
  appendCue entries ⟨startMs, endMs, internalCueText ops useAss hd textbuf, cueAlignment textbuf⟩

/-- One `fgets` result consumed by `parse_srt_internal`. -/
def internalStep (st : InternalState) (raw : List Char) : InternalState :=
  match st.loop with
  | .top =>
    if rstrip raw = [] then st
    else if (sscanf (stripBom (rstrip raw)) "%d".toList).length = 1 then
      { st with loop := .timestampLine }
    else { st with loop := afterTiming (internalTiming (stripBom (rstrip raw))) }
  | .timestampLine => { st with loop := afterTiming (internalTiming (rstrip raw)) }
  | .textLine startMs endMs textbuf =>
    if rstrip raw = [] then ⟨.top, internalCommit ops useAss hd st.entries startMs endMs textbuf⟩
    else { st with loop := .textLine startMs endMs (appendTextLine textbuf (rstrip raw)) }

/-- The end of the file: a cue whose text was being read is stored. -/
def internalFinish (st : InternalState) : List SRTEntry :=
  match st.loop with
  | .textLine startMs endMs textbuf => internalCommit ops useAss hd st.entries startMs endMs textbuf
  | _ => st.entries

end Internal

/-- `parse_srt_internal` on the lines `fgets` yields: the stored cues. -/
def parseSrtInternal (ops : CueTextOps) (useAss : Bool) (videoW videoH : ℤ)
    (lines : List (List Char)) : List SRTEntry :=
  internalFinish ops useAss (isHd videoW videoH)
    (lines.foldl (internalStep ops useAss (isHd videoW videoH)) ⟨.top, []⟩)

/-- `parse_srt_cfg` with a configuration. -/
def parseSrtCfg (ops : CueTextOps) (cfg : SRTParserConfig) (lines : List (List Char)) :
    List SRTEntry :=
  parseSrtInternal ops cfg.useAss cfg.videoW cfg.videoH lines

/-! ### The timeline invariant of `parse_srt_internal` -/

/-- A checked timing starts before it ends. -/
def LoopAt.Ok : LoopAt → Prop
  | .textLine startMs endMs _ => startMs < endMs
  | _ => True

theorem afterTiming_ok {t : Timestamps} :
    (afterTiming ((some t).bind cueTiming)).Ok := by
  simp only [Option.bind_some]
  cases h : cueTiming t with
  | none => trivial
  | some p => exact cueTiming_lt h

theorem afterTiming_internalTiming_ok (line : List Char) :
    (afterTiming (internalTiming line)).Ok := by
  unfold internalTiming
  cases parseInternalTimestamp line with
  | none => trivial
  | some t => exact afterTiming_ok

theorem Timeline.appendCue {entries : List SRTEntry} (h : Timeline entries) {e : SRTEntry}
    (he : e.startMs ≤ e.endMs) : Timeline (appendCue entries e) :=
  h.append_correctOverlap he

section InternalInvariant

variable {ops : CueTextOps} {useAss hd : Bool}

/-- The invariant of `parse_srt_internal`: the stored cues form a timeline and the cue being
read has a checked timing. -/
def InternalState.Inv (st : InternalState) : Prop :=
  Timeline st.entries ∧ st.loop.Ok

theorem internalStep_timeline {st : InternalState} (h : st.Inv) (raw : List Char) :
    (internalStep ops useAss hd st raw).Inv := by
  obtain ⟨hentries, hloop⟩ := h
  unfold internalStep
  cases hst : st.loop with
  | top =>
    simp only
    split_ifs
    · exact ⟨hentries, by rw [hst]; trivial⟩
    · exact ⟨hentries, trivial⟩
    · exact ⟨hentries, afterTiming_internalTiming_ok _⟩
  | timestampLine => exact ⟨hentries, afterTiming_internalTiming_ok _⟩
  | textLine startMs endMs textbuf =>
    rw [hst] at hloop
    simp only
    split_ifs
    · exact ⟨hentries.appendCue (Int.le_of_lt hloop), trivial⟩
    · exact ⟨hentries, hloop⟩

theorem internalFinish_timeline {st : InternalState} (h : st.Inv) :
    Timeline (internalFinish ops useAss hd st) := by
  obtain ⟨hentries, hloop⟩ := h
  unfold internalFinish
  cases hst : st.loop with
  | textLine startMs endMs textbuf =>
    rw [hst] at hloop
    exact hentries.appendCue (Int.le_of_lt hloop)
  | top => exact hentries
  | timestampLine => exact hentries

end InternalInvariant

/-- Every run of `parse_srt_internal`, on any lines, stores a timeline: no cue ends before it
starts, and no cue starts before the previous one ends. -/
theorem timeline_parseSrtInternal (ops : CueTextOps) (useAss : Bool) (videoW videoH : ℤ)
    (lines : List (List Char)) : Timeline (parseSrtInternal ops useAss videoW videoH lines) := by
  apply internalFinish_timeline
  have hinit : InternalState.Inv ⟨.top, []⟩ := ⟨Timeline.nil, trivial⟩
  induction lines using List.reverseRecOn with
  | nil => exact hinit
  | append_singleton lines raw ih =>
    rw [List.foldl_append, List.foldl_cons, List.foldl_nil]
    exact internalStep_timeline ih raw

/-! ### The timings do not depend on the text -/

/-- The start and end of a cue. -/
def timingOf (e : SRTEntry) : ℤ × ℤ :=
  (e.startMs, e.endMs)

/-- The repair reads only the end of the previous cue and the timing of the new one. -/
theorem timingOf_correctOverlap {p p' : Option SRTEntry} {e e' : SRTEntry}
    (hp : p.map timingOf = p'.map timingOf) (he : timingOf e = timingOf e') :
    timingOf (correctOverlap p e).1 = timingOf (correctOverlap p' e').1 := by
  simp only [timingOf, Prod.mk.injEq] at he
  cases p with
  | none =>
    cases p' with
    | none => simp [timingOf, he.1, he.2]
    | some _ => simp at hp
  | some q =>
    cases p' with
    | none => simp at hp
    | some q' =>
      simp only [Option.map_some, Option.some.injEq, timingOf, Prod.mk.injEq] at hp
      simp only [correctOverlap, he.1, hp.2]
      split_ifs <;> simp [timingOf, he.1, he.2]

theorem map_timingOf_appendCue {l l' : List SRTEntry} {e e' : SRTEntry}
    (hl : l.map timingOf = l'.map timingOf) (he : timingOf e = timingOf e') :
    (appendCue l e).map timingOf = (appendCue l' e').map timingOf := by
  have hlast : l.getLast?.map timingOf = l'.getLast?.map timingOf := by
    rw [← List.getLast?_map, ← List.getLast?_map, hl]
  simp only [appendCue, List.map_append, List.map_cons, List.map_nil, hl,
    timingOf_correctOverlap hlast he]

/-- Two states of `parse_srt_internal` at the same place with cues of the same timings. -/
def InternalState.SameTiming (st st' : InternalState) : Prop :=
  st.loop = st'.loop ∧ st.entries.map timingOf = st'.entries.map timingOf

section SameTiming

variable {ops ops' : CueTextOps} {useAss useAss' hd hd' : Bool}

theorem internalCommit_sameTiming {l l' : List SRTEntry} (hl : l.map timingOf = l'.map timingOf)
    (startMs endMs : ℤ) (textbuf : List Char) :
    (internalCommit ops useAss hd l startMs endMs textbuf).map timingOf =
      (internalCommit ops' useAss' hd' l' startMs endMs textbuf).map timingOf :=
  map_timingOf_appendCue hl rfl

theorem internalStep_sameTiming {st st' : InternalState} (h : st.SameTiming st') (raw : List Char) :
    (internalStep ops useAss hd st raw).SameTiming (internalStep ops' useAss' hd' st' raw) := by
  obtain ⟨hloop, hentries⟩ := h
  unfold internalStep
  rw [← hloop]
  cases st.loop with
  | top =>
    simp only
    split_ifs
    · exact ⟨hloop, hentries⟩
    · exact ⟨rfl, hentries⟩
    · exact ⟨rfl, hentries⟩
  | timestampLine => exact ⟨rfl, hentries⟩
  | textLine startMs endMs textbuf =>
    simp only
    split_ifs
    · exact ⟨rfl, internalCommit_sameTiming hentries startMs endMs textbuf⟩
    · exact ⟨rfl, hentries⟩

theorem internalFinish_sameTiming {st st' : InternalState} (h : st.SameTiming st') :
    (internalFinish ops useAss hd st).map timingOf =
      (internalFinish ops' useAss' hd' st').map timingOf := by
  obtain ⟨hloop, hentries⟩ := h
  unfold internalFinish
  rw [← hloop]
  cases st.loop with
  | textLine startMs endMs textbuf => exact internalCommit_sameTiming hentries startMs endMs textbuf
  | top => exact hentries
  | timestampLine => exact hentries

end SameTiming

/-- The timings `parse_srt_internal` stores depend on the lines only: not on the text
operations, nor on `use_ass` and the video size. -/
theorem timings_parseSrtInternal_eq (ops ops' : CueTextOps) (useAss useAss' : Bool)
    (videoW videoH videoW' videoH' : ℤ) (lines : List (List Char)) :
    (parseSrtInternal ops useAss videoW videoH lines).map timingOf =
      (parseSrtInternal ops' useAss' videoW' videoH' lines).map timingOf := by
  apply internalFinish_sameTiming
  induction lines using List.reverseRecOn with
  | nil => exact ⟨rfl, rfl⟩
  | append_singleton lines raw ih =>
    rw [List.foldl_append, List.foldl_cons, List.foldl_nil, List.foldl_append, List.foldl_cons,
      List.foldl_nil]
    exact internalStep_sameTiming ih raw

end Srt2Dvbsub.SrtParser
