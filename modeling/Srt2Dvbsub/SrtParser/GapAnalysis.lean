import Srt2Dvbsub.Lib.Scan
import Srt2Dvbsub.SrtParser.Stats

/-!
# The gap analysis of the QC report

In the QC-only mode `main` (`srt2dvbsub.c`) parses each subtitle file with
`parse_srt_with_stats`, prints the statistics with `srt_report_stats` and, when cues were stored,
the gap analysis of `srt_analyze_gaps` (`srt_parser.c`). Both report the least and the greatest
gap between consecutive cues: the parser keeps them while it stores the cues (`recordGap`), the
analysis computes them again over the stored cues, each from its own start values.

`cueGaps` is the list of gaps between consecutive stored cues. `GapsAgree` says that the two
gap fields of the statistics are the least and the greatest of these gaps, from the start values
the parser uses; `statsStep_gapsAgree` is the step lemma and `gapsAgree_parseSrtWithStats` the
run lemma. `srtAnalyzeGaps_spec` reads the loop of `srt_analyze_gaps` as the same two folds, and
`srtAnalyzeGaps_parseSrtWithStats` concludes that, on every file with two cues or more, the two
reports print the same least and greatest gap, the least one is never negative, and the average
the analysis prints lies between them when the greatest gap fits in an `int`.

Scope. The text of the report, with its `%.2f` seconds and the line for each gap above five
seconds, is not modelled; the counters of large and small gaps are.
-/

set_option autoImplicit false
set_option relaxedAutoImplicit false

namespace Srt2Dvbsub.SrtParser

open CLib

/-! ### `srt_analyze_gaps` -/

/-- The gaps `entries[i].start_ms - entries[i-1].end_ms` between consecutive cues. -/
def cueGaps : List SRTEntry → List ℤ
  | a :: b :: rest => (b.startMs - a.endMs) :: cueGaps (b :: rest)
  | _ => []

/-- The accumulators of the loop of `srt_analyze_gaps`. -/
structure GapAnalysis where
  largeGaps : ℕ
  smallGaps : ℕ
  totalGap : ℤ
  minGap : ℤ
  maxGap : ℤ
  deriving DecidableEq, Repr

/-- The accumulators before the loop. -/
def GapAnalysis.init : GapAnalysis :=
  ⟨0, 0, 0, INT64_MAX, 0⟩

/-- One pass of the loop of `srt_analyze_gaps` over the gap to the previous cue. -/
def gapStep (acc : GapAnalysis) (gap : ℤ) : GapAnalysis where
  largeGaps := acc.largeGaps + if gap > 5000 then 1 else 0
  smallGaps := acc.smallGaps + if gap > 0 ∧ gap < 100 then 1 else 0
  totalGap := acc.totalGap + gap
  minGap := if gap < acc.minGap then gap else acc.minGap
  maxGap := if gap > acc.maxGap then gap else acc.maxGap

/-- `srt_analyze_gaps(entries, n_cues, out)`: the accumulators and the average gap it prints,
`(int)(total_gap / (n_cues - 1))`, or `none` when it prints nothing. -/
def srtAnalyzeGaps (entries : List SRTEntry) : Option (GapAnalysis × ℤ) :=
  if entries.length < 2 then none
  else
    let acc := (cueGaps entries).foldl gapStep GapAnalysis.init
    some (acc, toCInt (acc.totalGap.tdiv ((entries.length : ℤ) - 1)))

theorem length_cueGaps : ∀ entries : List SRTEntry, (cueGaps entries).length = entries.length - 1
  | [] => rfl
  | [_] => rfl
  | _ :: b :: rest => by
    rw [cueGaps, List.length_cons, length_cueGaps (b :: rest)]
    simp

/-- A stored cue after the last one adds its gap to that one. -/
theorem cueGaps_append_singleton :
    ∀ {entries : List SRTEntry} {p : SRTEntry}, entries.getLast? = some p → ∀ e : SRTEntry,
      cueGaps (entries ++ [e]) = cueGaps entries ++ [e.startMs - p.endMs]
  | [], _, h, _ => by simp at h
  | [a], p, h, e => by
    obtain rfl : a = p := by simpa using h
    rfl
  | a :: b :: rest, p, h, e => by
    have htail : (b :: rest).getLast? = some p := by
      rw [List.getLast?_cons_cons] at h
      exact h
    rw [List.cons_append, List.cons_append, cueGaps, ← List.cons_append,
      cueGaps_append_singleton htail e, cueGaps, List.cons_append]

/-- Consecutive cues that do not overlap have non-negative gaps. -/
theorem cueGaps_nonneg : ∀ {entries : List SRTEntry}, entries.IsChain Touching →
    ∀ g ∈ cueGaps entries, 0 ≤ g
  | [], _ => by simp [cueGaps]
  | [_], _ => by simp [cueGaps]
  | a :: b :: rest, h => by
    rw [List.isChain_cons_cons] at h
    intro g hg
    rw [cueGaps, List.mem_cons] at hg
    rcases hg with rfl | hg
    · have htouch := h.1
      unfold Touching at htouch
      omega
    · exact cueGaps_nonneg h.2 g hg

/-- The loop keeps the least and the greatest gap: `min` and `max` folded from the start
values. -/
theorem foldl_gapStep (gaps : List ℤ) (acc : GapAnalysis) :
    (gaps.foldl gapStep acc).minGap = gaps.foldl min acc.minGap ∧
      (gaps.foldl gapStep acc).maxGap = gaps.foldl max acc.maxGap ∧
      (gaps.foldl gapStep acc).totalGap = acc.totalGap + gaps.sum := by
  induction gaps generalizing acc with
  | nil => simp
  | cons g gaps ih =>
    obtain ⟨hmin, hmax, htotal⟩ := ih (gapStep acc g)
    have hstepMin : (gapStep acc g).minGap = min acc.minGap g := by
      simp only [gapStep]
      split_ifs <;> omega
    have hstepMax : (gapStep acc g).maxGap = max acc.maxGap g := by
      simp only [gapStep]
      split_ifs <;> omega
    refine ⟨?_, ?_, ?_⟩
    · rw [List.foldl_cons, hmin, hstepMin, List.foldl_cons]
    · rw [List.foldl_cons, hmax, hstepMax, List.foldl_cons]
    · rw [List.foldl_cons, htotal, List.sum_cons]
      simp only [gapStep]
      ring

/-- `srt_analyze_gaps` on two cues or more: the loop over the gaps, and the average truncated to
`int`. -/
theorem srtAnalyzeGaps_spec {entries : List SRTEntry} (htwo : 2 ≤ entries.length) :
    ∃ acc, srtAnalyzeGaps entries =
        some (acc, toCInt ((cueGaps entries).sum.tdiv (cueGaps entries).length)) ∧
      acc.minGap = (cueGaps entries).foldl min INT64_MAX ∧
      acc.maxGap = (cueGaps entries).foldl max 0 := by
  obtain ⟨hmin, hmax, htotal⟩ := foldl_gapStep (cueGaps entries) GapAnalysis.init
  refine ⟨_, ?_, hmin, hmax⟩
  unfold srtAnalyzeGaps
  rw [if_neg (by omega)]
  dsimp only
  rw [htotal, length_cueGaps]
  simp only [GapAnalysis.init, Int.zero_add]
  rw [Nat.cast_sub (by omega : 1 ≤ entries.length), Nat.cast_one]

/-! ### The gaps of `parse_srt_with_stats` -/

/-- The two gap fields of the statistics are the least and the greatest gap between the stored
cues, folded from the start values of `parse_srt_with_stats`. -/
def GapsAgree (entries : List SRTEntry) (stats : SRTParserStats) : Prop :=
  stats.minGap = (cueGaps entries).foldl min INT64_MAX ∧ stats.maxGap = (cueGaps entries).foldl max 0

/-- Only the two gap fields enter the invariant. -/
theorem GapsAgree.of_gaps {entries : List SRTEntry} {stats stats' : SRTParserStats}
    (h : GapsAgree entries stats) (hmin : stats'.minGap = stats.minGap)
    (hmax : stats'.maxGap = stats.maxGap) : GapsAgree entries stats' :=
  ⟨hmin.trans h.1, hmax.trans h.2⟩

/-- A timestamp line leaves the gap fields alone. -/
theorem statsTiming_gaps (stats : SRTParserStats) (line : List Char) :
    (statsTiming stats line).2.minGap = stats.minGap ∧
      (statsTiming stats line).2.maxGap = stats.maxGap := by
  unfold statsTiming
  rcases parseSrtTimestamp line with _ | ⟨t, fix⟩
  · exact ⟨rfl, rfl⟩
  · obtain ⟨encoding, validation, hrecord⟩ := fix.record_frame stats
    dsimp only
    cases cueTiming t <;> simp [hrecord, SRTParserStats.skipInvalid]

theorem processCueId_gaps (cueId lastId : ℤ) (stats : SRTParserStats) :
    (processCueId cueId lastId stats).2.minGap = stats.minGap ∧
      (processCueId cueId lastId stats).2.maxGap = stats.maxGap := by
  obtain ⟨duplicates, sequences, hframe⟩ := processCueId_frame cueId lastId stats
  rw [hframe]
  exact ⟨rfl, rfl⟩

section Step

variable {ops : CueTextOps} {cfg : SRTParserConfig}

/-- Storing a cue records its gap to the last stored one, giving up a cue records nothing. -/
theorem statsCommit_gapsAgree {st : StatsState} (h : GapsAgree st.entries st.stats)
    (startMs endMs : ℤ) (textbuf : List Char) :
    GapsAgree (statsCommit ops cfg st startMs endMs textbuf).entries
      (statsCommit ops cfg st startMs endMs textbuf).stats := by
  unfold statsCommit
  split_ifs with hempty
  · exact h.of_gaps rfl rfl
  · obtain ⟨fixed, encoding, validation, hframe⟩ := statsCueText_frame ops cfg st.stats textbuf
    dsimp only
    rw [hframe, appendCue]
    obtain ⟨hmin, hmax⟩ := h
    cases hlast : st.entries.getLast? with
    | none =>
      have hnil : st.entries = [] := List.getLast?_eq_none_iff.mp hlast
      rw [hnil] at hmin hmax ⊢
      dsimp only
      split_ifs <;> exact ⟨hmin, hmax⟩
    | some p =>
      unfold GapsAgree
      dsimp only
      rw [cueGaps_append_singleton hlast, List.foldl_append, List.foldl_append, List.foldl_cons,
        List.foldl_cons, List.foldl_nil, List.foldl_nil]
      split_ifs <;> exact ⟨congrArg (min · _) hmin, congrArg (max · _) hmax⟩

/-- The step lemma: every `fgets` result keeps the gap fields in agreement with the stored
cues. -/
theorem statsStep_gapsAgree {st : StatsState} (h : GapsAgree st.entries st.stats)
    (raw : List Char) :
    GapsAgree (statsStep ops cfg st raw).entries (statsStep ops cfg st raw).stats := by
  have htimestamp : ∀ line, GapsAgree (statsTimestampLine st line).entries
      (statsTimestampLine st line).stats := fun line ↦
    h.of_gaps (statsTiming_gaps _ line).1 (statsTiming_gaps _ line).2
  unfold statsStep
  cases st.loop with
  | top =>
    simp only
    by_cases hblank : rstrip raw = []
    · rw [if_pos hblank]
      exact h
    · rw [if_neg hblank]
      split
      · split
        · exact h.of_gaps (processCueId_gaps _ _ _).1 (processCueId_gaps _ _ _).2
        · exact h
      · exact htimestamp _
  | timestampLine => exact htimestamp _
  | textLine startMs endMs textbuf =>
    simp only
    split_ifs
    · exact statsCommit_gapsAgree h startMs endMs textbuf
    · exact h

/-- The end of the file stores the pending cue and sets only the average duration. -/
theorem statsFinish_gapsAgree {st : StatsState} (h : GapsAgree st.entries st.stats) :
    GapsAgree (statsFinish ops cfg st).1 (statsFinish ops cfg st).2 := by
  have hflush : GapsAgree (statsFlush ops cfg st).entries (statsFlush ops cfg st).stats := by
    unfold statsFlush
    cases st.loop with
    | textLine startMs endMs textbuf => exact statsCommit_gapsAgree h startMs endMs textbuf
    | top => exact h
    | timestampLine => exact h
  unfold statsFinish
  dsimp only
  split_ifs <;> exact hflush

end Step

/-- The run lemma: at the end of the file the gap fields of the statistics are the least and
the greatest gap between the stored cues. -/
theorem gapsAgree_parseSrtWithStats (ops : CueTextOps) (cfg : SRTParserConfig)
    (lines : List (List Char)) :
    GapsAgree (parseSrtWithStats ops cfg lines).1 (parseSrtWithStats ops cfg lines).2 := by
  have hrun : ∀ lines : List (List Char),
      let st := lines.foldl (statsStep ops cfg) ⟨.top, [], 0, SRTParserStats.init⟩
      GapsAgree st.entries st.stats := by
    intro lines
    induction lines using List.reverseRecOn with
    | nil => exact ⟨rfl, rfl⟩
    | append_singleton lines raw ih =>
      simp only [List.foldl_append, List.foldl_cons, List.foldl_nil]
      exact statsStep_gapsAgree ih raw
  exact statsFinish_gapsAgree (hrun lines)

/-- The QC report of a file with two cues or more: the gap analysis of `srt_analyze_gaps` prints
the same least and greatest gap as the statistics of `parse_srt_with_stats`, the least gap is
not negative, and the average gap it prints lies between the two when the greatest fits in an
`int`. -/
theorem srtAnalyzeGaps_parseSrtWithStats (ops : CueTextOps) (cfg : SRTParserConfig)
    (lines : List (List Char)) (htwo : 2 ≤ (parseSrtWithStats ops cfg lines).1.length) :
    ∃ acc avg, srtAnalyzeGaps (parseSrtWithStats ops cfg lines).1 = some (acc, avg) ∧
      acc.minGap = (parseSrtWithStats ops cfg lines).2.minGap ∧
      acc.maxGap = (parseSrtWithStats ops cfg lines).2.maxGap ∧
      0 ≤ acc.minGap ∧ acc.minGap ≤ acc.maxGap ∧
      (acc.maxGap ≤ INT_MAX → acc.minGap ≤ avg ∧ avg ≤ acc.maxGap) := by
  set entries := (parseSrtWithStats ops cfg lines).1
  obtain ⟨hmin, hmax⟩ := gapsAgree_parseSrtWithStats ops cfg lines
  have hnonneg := cueGaps_nonneg (timeline_parseSrtWithStats ops cfg lines).chain
  obtain ⟨acc, hanalysis, haccMin, haccMax⟩ := srtAnalyzeGaps_spec htwo
  have hne : cueGaps entries ≠ [] := by
    rw [← List.length_pos_iff, length_cueGaps]
    omega
  have hlo := (Lib.foldl_min_le (cueGaps entries) INT64_MAX).2
  have hhi := (Lib.le_foldl_max (cueGaps entries) 0).2
  have hzero : 0 ≤ acc.minGap := haccMin ▸ Lib.le_foldl_min (by decide) hnonneg
  obtain ⟨g, hg⟩ := List.exists_mem_of_ne_nil _ hne
  refine ⟨acc, _, hanalysis, haccMin.trans hmin.symm, haccMax.trans hmax.symm, hzero,
    haccMin ▸ haccMax ▸ (hlo g hg).trans (hhi g hg), fun hfits ↦ ?_⟩
  obtain ⟨hmeanLo, hmeanHi⟩ := Lib.tdiv_length_mem_bounds hne hnonneg
    (haccMin ▸ hlo) (haccMax ▸ hhi)
  rw [toCInt_of_mem (by unfold INT_MIN; omega) (hmeanHi.trans hfits)]
  exact ⟨hmeanLo, hmeanHi⟩

/-- The theorem on a file of two cues one second apart. -/
theorem srtAnalyzeGaps_parseSrtWithStats_twoCues :
    let plain : CueTextOps := ⟨fun text _ ↦ text, fun text ↦ (text, 0), fun _ _ _ ↦ 0⟩
    let cfg := defaultConfig false 720 576
    let file := ["1\n".toList, "00:00:00,000 --> 00:00:01,000\n".toList, "A\n".toList,
      "\n".toList, "2\n".toList, "00:00:02,000 --> 00:00:03,000\n".toList, "B\n".toList]
    2 ≤ (parseSrtWithStats plain cfg file).1.length ∧
      ∃ acc avg, srtAnalyzeGaps (parseSrtWithStats plain cfg file).1 = some (acc, avg) ∧
        acc.minGap = (parseSrtWithStats plain cfg file).2.minGap ∧
        acc.maxGap = (parseSrtWithStats plain cfg file).2.maxGap ∧
        0 ≤ acc.minGap ∧ acc.minGap ≤ acc.maxGap ∧
        (acc.maxGap ≤ INT_MAX → acc.minGap ≤ avg ∧ avg ≤ acc.maxGap) := by
  intro plain cfg file
  have htwo : 2 ≤ (parseSrtWithStats plain cfg file).1.length := by decide
  exact ⟨htwo, srtAnalyzeGaps_parseSrtWithStats plain cfg file htwo⟩

end Srt2Dvbsub.SrtParser
