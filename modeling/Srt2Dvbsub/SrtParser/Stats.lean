import Srt2Dvbsub.Lib.List
import Srt2Dvbsub.SrtParser.WithStats

/-!
# The statistics of `parse_srt_with_stats`

`parse_srt_with_stats` reports how many cues it met (`total_cues`), stored (`valid_cues`) and
gave up (`skipped_cues`), how many overlaps it repaired, and the least, greatest and average
duration of the stored cues and the least and greatest gap between them. Each counter is bumped
on its own `continue` path. This module shows that they agree with the cues returned, on every
input.

The counters the report relates are carried by `TallyInv`: the valid count is the number of
stored cues; every counted cue is valid, skipped, or the one whose text is being read
(`LoopAt.pending`); at most one overlap is repaired per stored cue after the first; every stored
duration lies between the two duration extrema; and the least gap is non-negative and, from the
second stored cue on, at most the greatest. The updates that only touch warning counters leave it
alone (`processCueId_frame`, `TimestampFix.record_frame`, `statsCueText_frame`).
`statsStep_tallyInv` is the step lemma and `tallyInv_parseSrtWithStats` the run lemma. The
average is the truncated mean of durations that lie between the extrema, and so lies between
them too (`Lib.tdiv_length_mem_bounds`).

Scope. The model has no allocation failure. In the source a failed `strdup`,
`normalize_cue_text` or `strip_tags` skips a cue after some of its counters were bumped.
-/

set_option autoImplicit false
set_option relaxedAutoImplicit false

namespace Srt2Dvbsub.SrtParser

/-- The cue whose timestamp line was counted and whose text is being read: `1` in the text
loop, `0` elsewhere. -/
def LoopAt.pending : LoopAt → ℤ
  | .textLine .. => 1
  | _ => 0

/-- The duration of a stored cue. -/
def SRTEntry.duration (e : SRTEntry) : ℤ := e.endMs - e.startMs

/-- The counters of `SRTParserStats` that the report relates to the stored cues. -/
structure TallyInv (entries : List SRTEntry) (pending : ℤ) (stats : SRTParserStats) : Prop where
  valid : stats.validCues = entries.length
  total : stats.totalCues = stats.validCues + stats.skippedCues + pending
  overlaps : stats.overlapsCorrected ≤ ((entries.length - 1 : ℕ) : ℤ)
  durations : ∀ e ∈ entries, stats.minDuration ≤ e.duration ∧ e.duration ≤ stats.maxDuration
  minGap_nonneg : 0 ≤ stats.minGap
  minGap_le : 2 ≤ entries.length → stats.minGap ≤ stats.maxGap

/-! ### Updates of warning counters only -/

/-- `process_cue_id` changes only `duplicate_ids_fixed` and `sequences_fixed`. -/
theorem processCueId_frame (cueId lastId : ℤ) (stats : SRTParserStats) :
    ∃ duplicates sequences, (processCueId cueId lastId stats).2 =
      { stats with duplicateIdsFixed := duplicates, sequencesFixed := sequences } := by
  unfold processCueId
  split_ifs
  · exact ⟨_, _, rfl⟩
  · exact ⟨_, _, rfl⟩
  · exact ⟨_, _, rfl⟩

/-- A repaired timestamp line changes only the warning counters. -/
theorem TimestampFix.record_frame (fix : TimestampFix) (stats : SRTParserStats) :
    ∃ encoding validation, fix.record stats =
      { stats with encodingWarnings := encoding, validationWarnings := validation } := by
  cases fix <;> exact ⟨_, _, rfl⟩

/-- Sanitizing, normalizing and checking a cue's text changes only the encoding and validation
counters. -/
theorem statsCueText_frame (ops : CueTextOps) (cfg : SRTParserConfig) (stats : SRTParserStats)
    (textbuf : List Char) :
    ∃ fixed encoding validation, (statsCueText ops cfg stats textbuf).2 =
      { stats with
        encodingErrorsFixed := fixed, encodingWarnings := encoding, validationWarnings := validation } := by
  unfold statsCueText
  dsimp only
  split_ifs <;> exact ⟨_, _, _, rfl⟩

/-! ### One step -/

section Step

variable {entries : List SRTEntry} {stats : SRTParserStats} {pending : ℤ}

/-- The warning counters do not enter the invariant. -/
theorem TallyInv.frame (h : TallyInv entries pending stats)
    {fixed encoding validation duplicates sequences : ℤ} :
    TallyInv entries pending { stats with
      encodingErrorsFixed := fixed, encodingWarnings := encoding, validationWarnings := validation,
      duplicateIdsFixed := duplicates, sequencesFixed := sequences } :=
  ⟨h.valid, h.total, h.overlaps, h.durations, h.minGap_nonneg, h.minGap_le⟩

theorem tallyInv_init : TallyInv [] 0 SRTParserStats.init where
  valid := rfl
  total := rfl
  overlaps := Int.le_refl _
  durations _ h := absurd h List.not_mem_nil
  minGap_nonneg := by decide
  minGap_le h := absurd h (by decide)

/-- A cue given up after its timestamp line was counted. -/
theorem TallyInv.skipInvalid (h : TallyInv entries 1 stats) :
    TallyInv entries 0 stats.skipInvalid where
  valid := h.valid
  total := by
    have htotal := h.total
    simp only [SRTParserStats.skipInvalid]
    omega
  overlaps := h.overlaps
  durations := h.durations
  minGap_nonneg := h.minGap_nonneg
  minGap_le := h.minGap_le

/-- A timestamp line is counted, and either its cue is given up or its text is read next. -/
theorem TallyInv.timestampLine (h : TallyInv entries 0 stats) (line : List Char) :
    TallyInv entries (afterTiming (statsTiming { stats with totalCues := stats.totalCues + 1 }
      line).1).pending (statsTiming { stats with totalCues := stats.totalCues + 1 } line).2 := by
  have hcounted : TallyInv entries 1 { stats with totalCues := stats.totalCues + 1 } :=
    { h with total := by simp only; have := h.total; omega }
  unfold statsTiming
  cases parseSrtTimestamp line with
  | none =>
    refine { hcounted with total := ?_ }
    have htotal := hcounted.total
    simp only [afterTiming, LoopAt.pending] at htotal ⊢
    omega
  | some tf =>
    obtain ⟨t, fix⟩ := tf
    obtain ⟨encoding, validation, hrecord⟩ := fix.record_frame
      { stats with totalCues := stats.totalCues + 1 }
    dsimp only
    rw [hrecord]
    cases cueTiming t with
    | none => exact hcounted.frame.skipInvalid
    | some timing =>
      exact hcounted.frame

/-- Recording a new duration keeps every stored duration between the extrema. -/
theorem durations_append {lo hi : ℤ} (h : ∀ x ∈ entries, lo ≤ x.duration ∧ x.duration ≤ hi)
    (e : SRTEntry) :
    ∀ x ∈ entries ++ [e], min lo e.duration ≤ x.duration ∧ x.duration ≤ max hi e.duration := by
  intro x hx
  rcases List.mem_append.mp hx with hx | hx
  · have hbounds := h x hx
    exact ⟨Int.le_trans (Int.min_le_left _ _) hbounds.1, Int.le_trans hbounds.2 (Int.le_max_left _ _)⟩
  · rw [List.mem_singleton.mp hx]
    exact ⟨Int.min_le_right _ _, Int.le_max_right _ _⟩

/-- Storing a cue `e`, repaired or not, after the cues `entries`: the counters of the commit
path of `parse_srt_with_stats`. A repair needs a cue before, and the gap to it is not
negative. -/
theorem TallyInv.append (cfg : SRTParserConfig) (h : TallyInv entries 1 stats) (e : SRTEntry)
    (corrected : Bool) (hcorrected : corrected = true → entries ≠ [])
    (hgap : ∀ p, entries.getLast? = some p → p.endMs ≤ e.startMs) :
    TallyInv (entries ++ [e]) 0
      (match entries.getLast? with
        | some p =>
          ((if corrected then { stats with overlapsCorrected := stats.overlapsCorrected + 1 }
            else stats).recordDuration cfg (e.endMs - e.startMs)).recordGap (e.startMs - p.endMs)
        | none =>
          (if corrected then { stats with overlapsCorrected := stats.overlapsCorrected + 1 }
            else stats).recordDuration cfg (e.endMs - e.startMs)) := by
  have hvalid := h.valid
  have htotal := h.total
  have hoverlaps := h.overlaps
  have hdurations := durations_append h.durations e
  have hrepair : (if corrected then { stats with overlapsCorrected := stats.overlapsCorrected + 1 }
      else stats) =
      { stats with overlapsCorrected := stats.overlapsCorrected + if corrected then 1 else 0 } := by
    cases corrected
    · simp
    · rfl
  rw [hrepair]
  cases hlast : entries.getLast? with
  | none =>
    have hnil : entries = [] := List.getLast?_eq_none_iff.mp hlast
    subst hnil
    have hclean : corrected = false := by
      cases corrected
      · rfl
      · exact absurd rfl (hcorrected rfl)
    subst hclean
    refine ⟨?_, ?_, ?_, hdurations, h.minGap_nonneg, fun h2 ↦ absurd h2 (by simp)⟩
    · simp [SRTParserStats.recordDuration, hvalid]
    · simp only [SRTParserStats.recordDuration]
      omega
    · simpa [SRTParserStats.recordDuration] using hoverlaps
  | some p =>
    have hlen : 1 ≤ entries.length :=
      List.length_pos_iff.mpr fun hnil ↦ by simp [hnil] at hlast
    have hgap_nonneg : 0 ≤ e.startMs - p.endMs := by
      have := hgap p hlast
      omega
    refine ⟨?_, ?_, ?_, hdurations, ?_, fun _ ↦ ?_⟩
    · simp [SRTParserStats.recordDuration, SRTParserStats.recordGap, hvalid]
    · simp only [SRTParserStats.recordDuration, SRTParserStats.recordGap]
      omega
    · simp only [SRTParserStats.recordDuration, SRTParserStats.recordGap, List.length_append,
        List.length_singleton]
      split_ifs <;> omega
    · exact Int.le_min.mpr ⟨h.minGap_nonneg, hgap_nonneg⟩
    · exact Int.le_trans (Int.min_le_right _ _) (Int.le_max_right _ _)

/-- A repair needs a cue before. -/
theorem correctOverlap_snd_isSome {prev : Option SRTEntry} {e : SRTEntry}
    (h : (correctOverlap prev e).2 = true) : prev.isSome := by
  cases prev with
  | none => simp at h
  | some p => rfl

variable {ops : CueTextOps} {cfg : SRTParserConfig}

/-- After the end of a cue's text the loop is back at the top. -/
theorem statsCommit_loop (st : StatsState) (startMs endMs : ℤ) (textbuf : List Char) :
    (statsCommit ops cfg st startMs endMs textbuf).loop = .top := by
  unfold statsCommit
  split_ifs <;> rfl

/-- The end of a cue's text: it is stored, or given up when empty. -/
theorem statsCommit_tallyInv {st : StatsState} (h : TallyInv st.entries 1 st.stats)
    (startMs endMs : ℤ) (textbuf : List Char) :
    TallyInv (statsCommit ops cfg st startMs endMs textbuf).entries 0
      (statsCommit ops cfg st startMs endMs textbuf).stats := by
  unfold statsCommit
  split_ifs with hempty
  · exact h.skipInvalid
  · obtain ⟨fixed, encoding, validation, hframe⟩ := statsCueText_frame ops cfg st.stats textbuf
    dsimp only
    rw [hframe, appendCue]
    refine h.frame.append cfg _ _ (fun hcorrected hnil ↦ ?_) (fun p hp ↦ ?_)
    · have hsome := correctOverlap_snd_isSome hcorrected
      simp [hnil] at hsome
    · rw [hp]
      exact correctOverlap_gap_nonneg p _

/-- The step lemma: every `fgets` result keeps the invariant, with the cue of the text loop
pending. -/
theorem statsStep_tallyInv {st : StatsState} (h : TallyInv st.entries st.loop.pending st.stats)
    (raw : List Char) :
    TallyInv (statsStep ops cfg st raw).entries (statsStep ops cfg st raw).loop.pending
      (statsStep ops cfg st raw).stats := by
  unfold statsStep
  cases hst : st.loop with
  | top =>
    rw [hst] at h
    simp only
    by_cases hblank : rstrip raw = []
    · rw [if_pos hblank, hst]
      exact h
    · rw [if_neg hblank]
      split
      · split
        · obtain ⟨duplicates, sequences, hframe⟩ := processCueId_frame _ st.lastCueId st.stats
          simp only [LoopAt.pending]
          rw [hframe]
          exact h.frame
        · exact h
      · exact h.timestampLine _
  | timestampLine =>
    rw [hst] at h
    exact h.timestampLine _
  | textLine startMs endMs textbuf =>
    rw [hst] at h
    simp only
    split_ifs
    · rw [statsCommit_loop]
      exact statsCommit_tallyInv h startMs endMs textbuf
    · exact h

/-- At the end of the file no cue is pending. -/
theorem statsFlush_tallyInv {st : StatsState} (h : TallyInv st.entries st.loop.pending st.stats) :
    TallyInv (statsFlush ops cfg st).entries 0 (statsFlush ops cfg st).stats := by
  unfold statsFlush
  cases hst : st.loop with
  | textLine startMs endMs textbuf =>
    rw [hst] at h
    exact statsCommit_tallyInv h startMs endMs textbuf
  | top =>
    rw [hst] at h
    exact h
  | timestampLine =>
    rw [hst] at h
    exact h

end Step

/-- The run lemma: after every prefix of the file the state keeps the invariant. -/
theorem tallyInv_parseSrtWithStats (ops : CueTextOps) (cfg : SRTParserConfig)
    (lines : List (List Char)) :
    let st := lines.foldl (statsStep ops cfg) ⟨.top, [], 0, SRTParserStats.init⟩
    TallyInv st.entries st.loop.pending st.stats := by
  induction lines using List.reverseRecOn with
  | nil => exact tallyInv_init
  | append_singleton lines raw ih =>
    simp only [List.foldl_append, List.foldl_cons, List.foldl_nil]
    exact statsStep_tallyInv ih raw

/-- What the report says of the stored cues, read off the invariant: the average of the
stored durations lies between their extrema. -/
theorem TallyInv.report {entries : List SRTEntry} {stats : SRTParserStats}
    (h : TallyInv entries 0 stats) (htimeline : Timeline entries) :
    (entries.length : ℤ) = stats.validCues ∧
      stats.totalCues = stats.validCues + stats.skippedCues ∧
      (0 < entries.length →
        stats.minDuration ≤
            ((entries.map fun e : SRTEntry ↦ e.endMs - e.startMs).sum).tdiv stats.validCues ∧
          ((entries.map fun e : SRTEntry ↦ e.endMs - e.startMs).sum).tdiv stats.validCues ≤
            stats.maxDuration) ∧
      (2 ≤ entries.length →
        0 ≤ stats.minGap ∧ stats.minGap ≤ stats.maxGap ∧
          stats.overlapsCorrected ≤ (entries.length : ℤ) - 1) := by
  refine ⟨h.valid.symm, by have := h.total; omega, fun hpos ↦ ?_, fun htwo ↦ ?_⟩
  · set durations := entries.map fun e : SRTEntry ↦ e.endMs - e.startMs
    have hne : durations ≠ [] := by simpa [durations] using List.ne_nil_of_length_pos hpos
    have hnonneg : ∀ d ∈ durations, 0 ≤ d := by
      simp only [durations, List.mem_map]
      rintro _ ⟨e, he, rfl⟩
      have := htimeline.start_le_end e he
      omega
    have hlo : ∀ d ∈ durations, stats.minDuration ≤ d := by
      simp only [durations, List.mem_map]
      rintro _ ⟨e, he, rfl⟩
      exact (h.durations e he).1
    have hhi : ∀ d ∈ durations, d ≤ stats.maxDuration := by
      simp only [durations, List.mem_map]
      rintro _ ⟨e, he, rfl⟩
      exact (h.durations e he).2
    have hmean := Lib.tdiv_length_mem_bounds hne hnonneg hlo hhi
    rw [List.length_map, ← h.valid] at hmean
    exact hmean
  · have hoverlaps := h.overlaps
    refine ⟨h.minGap_nonneg, h.minGap_le htwo, ?_⟩
    omega

/-- The report at the end of the file, from the invariant of the last state: the flush stores
the pending cue, and the average is taken when some cue is valid. -/
theorem statsFinish_report {ops : CueTextOps} {cfg : SRTParserConfig} {st : StatsState}
    (h : TallyInv st.entries st.loop.pending st.stats)
    (htimeline : Timeline (statsFlush ops cfg st).entries) :
    let result := statsFinish ops cfg st
    (result.1.length : ℤ) = result.2.validCues ∧
      result.2.totalCues = result.2.validCues + result.2.skippedCues ∧
      (0 < result.1.length →
        result.2.minDuration ≤ result.2.avgDuration ∧ result.2.avgDuration ≤ result.2.maxDuration) ∧
      (2 ≤ result.1.length →
        0 ≤ result.2.minGap ∧ result.2.minGap ≤ result.2.maxGap ∧
          result.2.overlapsCorrected ≤ (result.1.length : ℤ) - 1) := by
  have hflush : TallyInv (statsFlush ops cfg st).entries 0 (statsFlush ops cfg st).stats :=
    statsFlush_tallyInv h
  obtain ⟨hvalid, htotal, havg, hgaps⟩ := hflush.report htimeline
  unfold statsFinish
  dsimp only
  split_ifs with hpos
  · exact ⟨hvalid, htotal, havg, hgaps⟩
  · refine ⟨hvalid, htotal, fun hlen ↦ ?_, fun hlen ↦ ?_⟩ <;> dsimp only at hlen <;> omega

/-- The report of `parse_srt_with_stats` agrees with the cues it returns, for every file and
configuration: `n` is the valid count, every counted cue is valid or skipped, the average
duration lies between the least and the greatest, and from two cues on the least gap is
non-negative and at most the greatest, with at most one repaired overlap per cue after the
first. -/
theorem parseSrtWithStats_statsConsistent (ops : CueTextOps) (cfg : SRTParserConfig)
    (lines : List (List Char)) :
    let result := parseSrtWithStats ops cfg lines
    (result.1.length : ℤ) = result.2.validCues ∧
      result.2.totalCues = result.2.validCues + result.2.skippedCues ∧
      (0 < result.1.length →
        result.2.minDuration ≤ result.2.avgDuration ∧ result.2.avgDuration ≤ result.2.maxDuration) ∧
      (2 ≤ result.1.length →
        0 ≤ result.2.minGap ∧ result.2.minGap ≤ result.2.maxGap ∧
          result.2.overlapsCorrected ≤ (result.1.length : ℤ) - 1) := by
  have hrun := tallyInv_parseSrtWithStats ops cfg lines
  have hentries : (parseSrtWithStats ops cfg lines).1 = (statsFlush ops cfg
      (lines.foldl (statsStep ops cfg) ⟨.top, [], 0, SRTParserStats.init⟩)).entries := by
    unfold parseSrtWithStats statsFinish
    dsimp only
    split_ifs <;> rfl
  exact statsFinish_report hrun (hentries ▸ timeline_parseSrtWithStats ops cfg lines)

end Srt2Dvbsub.SrtParser
