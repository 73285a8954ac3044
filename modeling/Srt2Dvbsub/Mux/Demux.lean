import Srt2Dvbsub.Mux.Setup
import Srt2Dvbsub.Lib.Cursor

/-!
# The demux and mux loop

`ctx_demux_mux_loop` reads the input packet by packet. A packet without `pts` takes its `dts`;
a packet of an invalid stream index, or of an input subtitle stream that a track overwrites,
is dropped. Every other packet gives the loop a clock `cmp90`: its `pts` on the 90 kHz clock,
or, for a packet without timestamps, the last valid one (`last_valid_cur90`). Then, for each
track in turn, a `while` loop writes every next cue whose `(start_ms + effective_delay_ms) * 90`
is at most `cmp90`: a subtitle stamped `input_start_pts90 + (start_ms + effective_delay_ms) * 90`
and a clear event stamped with the end the same way. Last the packet itself is written.

The model keeps the state the loop carries across packets (`DemuxState`), and groups what is
written by the packet being processed (`ctxDemuxMuxLoop`). One `while` loop moves the track's
cursor as `Lib.advance` does over the cue clocks and writes the cues it passes
(`emitDue_eq`); over a run, the cursor of each track follows `Lib.runAdvance` over the
packets' clocks (`cmpClocks`), so the cues a packet writes are those between two cursor
positions (`trackEvents_ctxDemuxMuxLoop`).

Cues in timeline order, as both SRT parsers return them, have sorted clocks. On such a track
the loop writes cue `i` while processing packet `k` exactly when packet `k` is the first whose
clock reaches `(start_ms + effective_delay_ms) * 90`, that is the subtitle's PTS minus
`input_start_pts90` (`subtitle_mem_ctxDemuxMuxLoop_iff`); every track of a setup qualifies
(`cuesReady_streamSetup`). The condition and the stamp use the same clock only when the input
starts at `0`: for an input starting at 10 s, a cue at 1 s is written with the first packet,
stamped 11 s while the clock reads 10 s (`ctxDemuxMuxLoop_subtitleBeforeItsPts`).

Rendering (Pango, libass, the render pool), the PNG output, progress reports, a stop request
and allocation failures are not modelled: a written subtitle stands for the rendered bitmap
that `encode_and_write_subtitle` encodes at that PTS.
-/

set_option autoImplicit false
set_option relaxedAutoImplicit false

namespace Srt2Dvbsub.Mux

open Cli SrtParser

/-! ### The loop -/

/-- `AV_NOPTS_VALUE`, the smallest `int64_t`. -/
def AV_NOPTS_VALUE : ℤ := -2 ^ 63

/-- A packet `av_read_frame` returns: its stream index and its timestamps. -/
structure Packet where
  streamIndex : ℤ
  pts : ℤ
  dts : ℤ
  deriving DecidableEq, Repr

/-- What the loop writes: a cue's subtitle or clear event at a 90 kHz PTS, from
`encode_and_write_subtitle`, or the packet of an input stream, from
`safe_av_interleaved_write_frame`. -/
inductive MuxEvent where
  | subtitle (track cue : ℕ) (pts90 : ℤ)
  | clear (track cue : ℕ) (pts90 : ℤ)
  | packet (streamIndex : ℕ) (pts : ℤ)
  deriving DecidableEq, Repr

/-- The track an event belongs to. -/
def MuxEvent.track? : MuxEvent → Option ℕ
  | .subtitle t _ _ => some t
  | .clear t _ _ => some t
  | .packet _ _ => none

/-- What the loop reads besides the packets: libavutil, the input streams, the context, the
tracks and `input_start_pts90`. -/
structure DemuxEnv where
  av : AvUtil
  streams : List InStream
  ctx : MuxCtx
  tracks : List SubTrack
  inputStartPts90 : ℤ

/-- The loop after the setup of `ctx_init` and `ctx_parse_tracks`. -/
def DemuxEnv.ofSetup (av : AvUtil) (input : InputFile) (ctx : MuxCtx) (tracks : List SubTrack) :
    DemuxEnv :=
  ⟨av, input.streams, ctx, tracks, (probeVideo av input).inputStartPts90⟩

/-- What the loop carries from packet to packet: `last_valid_cur90`, and `cur_sub` of each
track. -/
structure DemuxState where
  lastValidCur90 : ℤ
  curSub : List ℕ
  deriving DecidableEq, Repr

/-- Before the first packet: no valid time yet, every track at its first cue. -/
def DemuxState.init (env : DemuxEnv) : DemuxState :=
  ⟨AV_NOPTS_VALUE, List.replicate env.tracks.length 0⟩

/-- `is_overwrite_stream(ctx, in_stream_index)`: the stream is the input of a used overwrite
target. -/
def isOverwriteStream (ctx : MuxCtx) (inStreamIndex : ℕ) : Bool :=
  ctx.overwriteSubs &&
    ctx.overwriteTargets.any fun cand ↦ cand.used && cand.inStreamIndex == inStreamIndex

/-- What the loop takes from a packet before the tracks: `none` for a packet it drops, else
the stream index, the `pts` (the `dts` for a packet without `pts`) and `cur90`. -/
def readPacket (env : DemuxEnv) (pkt : Packet) : Option (ℕ × ℤ × ℤ) :=
  let pts := if pkt.pts = AV_NOPTS_VALUE ∧ pkt.dts ≠ AV_NOPTS_VALUE then pkt.dts else pkt.pts
  if pkt.streamIndex < 0 then none
  else
    match env.streams[pkt.streamIndex.toNat]? with
    | none => none
    | some inSt =>
      if isOverwriteStream env.ctx pkt.streamIndex.toNat then none
      else
        let cur90 :=
          if pts = AV_NOPTS_VALUE then AV_NOPTS_VALUE
          else env.av.rescaleQ pts inSt.timeBase (1, 90000)
        some (pkt.streamIndex.toNat, pts, cur90)

/-- The `while` loop of track `t` from `cur_sub = cur`, over the cues from there on: each cue
whose `(start_ms + effective_delay_ms) * 90` is at most `cmp90` is written with its clear
event, until the first that is not. -/
def emitDue (inputStartPts90 : ℤ) (t : ℕ) (track : SubTrack) (cmp90 : ℤ) :
    ℕ → List SRTEntry → ℕ × List MuxEvent
  | cur, e :: rest =>
    if (cur : ℤ) < track.count ∧ (e.startMs + track.effectiveDelayMs) * 90 ≤ cmp90 then
      let pts90 := inputStartPts90 + (e.startMs + track.effectiveDelayMs) * 90
      let clrPts90 := inputStartPts90 + (e.endMs + track.effectiveDelayMs) * 90
      let next := emitDue inputStartPts90 t track cmp90 (cur + 1) rest
      (next.1, .subtitle t cur pts90 :: .clear t cur clrPts90 :: next.2)
    else (cur, [])
  | cur, [] => (cur, [])

/-- The `for` loop over the tracks from track `t`, each with its `cur_sub`. -/
def emitTracks (inputStartPts90 cmp90 : ℤ) (t : ℕ) :
    List SubTrack → List ℕ → List ℕ × List MuxEvent
  | track :: tracks, cur :: curs =>
    let due := emitDue inputStartPts90 t track cmp90 cur (track.entries.drop cur)
    let rest := emitTracks inputStartPts90 cmp90 (t + 1) tracks curs
    (due.1 :: rest.1, due.2 ++ rest.2)
  | _, _ => ([], [])

/-- One iteration of the loop: the new state and what it writes. -/
def demuxPacket (env : DemuxEnv) (st : DemuxState) (pkt : Packet) :
    DemuxState × List MuxEvent :=
  match readPacket env pkt with
  | none => (st, [])
  | some (index, pts, cur90) =>
    let lastValidCur90 := if cur90 ≠ AV_NOPTS_VALUE then cur90 else st.lastValidCur90
    let cmp90 := if cur90 ≠ AV_NOPTS_VALUE then cur90 else lastValidCur90
    let tracks := emitTracks env.inputStartPts90 cmp90 0 env.tracks st.curSub
    (⟨lastValidCur90, tracks.1⟩, tracks.2 ++ [.packet index pts])

/-- `ctx_demux_mux_loop` over a sequence of packets: the final state, and what is written while
each packet is processed. -/
def ctxDemuxMuxLoop (env : DemuxEnv) : DemuxState → List Packet →
    DemuxState × List (List MuxEvent)
  | st, [] => (st, [])
  | st, pkt :: pkts =>
    let step := demuxPacket env st pkt
    let run := ctxDemuxMuxLoop env step.1 pkts
    (run.1, step.2 :: run.2)

/-! ### Clocks and cursors -/

/-- The clock each packet of a run gives the tracks, from `last_valid_cur90`: `none` for a
packet the loop drops. -/
def cmpClocks (env : DemuxEnv) : ℤ → List Packet → List (Option ℤ)
  | _, [] => []
  | lastValidCur90, pkt :: pkts =>
    match readPacket env pkt with
    | none => none :: cmpClocks env lastValidCur90 pkts
    | some (_, _, cur90) =>
      let cmp90 := if cur90 ≠ AV_NOPTS_VALUE then cur90 else lastValidCur90
      some cmp90 :: cmpClocks env cmp90 pkts

/-- `(start_ms + effective_delay_ms) * 90`, the value the `while` condition compares with
`cmp90`. -/
def cueClock (track : SubTrack) (e : SRTEntry) : ℤ :=
  (e.startMs + track.effectiveDelayMs) * 90

/-- The clocks of the track's cues, in order. -/
def cueClocks (track : SubTrack) : List ℤ :=
  track.entries.map (cueClock track)

/-- What the loop writes for cue `i` of track `t`. -/
def cueEvents (inputStartPts90 : ℤ) (t : ℕ) (track : SubTrack) (i : ℕ) : List MuxEvent :=
  match track.entries[i]? with
  | some e =>
    [.subtitle t i (inputStartPts90 + cueClock track e),
      .clear t i (inputStartPts90 + (e.endMs + track.effectiveDelayMs) * 90)]
  | none => []

/-- What is written for track `t`. -/
def trackEvents (t : ℕ) (evs : List MuxEvent) : List MuxEvent :=
  evs.filter (·.track? == some t)

/-- What the loop relies on in a track: its cues in timeline order, and a count that covers
them. -/
structure CuesReady (track : SubTrack) : Prop where
  timeline : Timeline track.entries
  count_covers : track.entries = [] ∨ (track.entries.length : ℤ) ≤ track.count

/-! ### One `while` loop -/

theorem length_cueClocks (track : SubTrack) : (cueClocks track).length = track.entries.length :=
  List.length_map _

/-- Every event of a track's `while` loop belongs to the track. -/
theorem track?_of_mem_emitDue {s : ℤ} {t : ℕ} {track : SubTrack} {c : ℤ} :
    ∀ {cur : ℕ} {l : List SRTEntry} {ev : MuxEvent}, ev ∈ (emitDue s t track c cur l).2 →
      ev.track? = some t
  | _, [], _, hev => by cases hev
  | cur, e :: rest, ev, hev => by
    unfold emitDue at hev
    split_ifs at hev
    · rcases List.mem_cons.mp hev with rfl | hev
      · rfl
      rcases List.mem_cons.mp hev with rfl | hev
      · rfl
      exact track?_of_mem_emitDue hev
    · cases hev

/-- The `while` loop of a track whose count covers its cues, from `cur_sub = cur`: the cursor
moves as `Lib.advance` over the cue clocks, and the cues it passes are written in order. -/
theorem emitDue_eq {s : ℤ} {t : ℕ} {track : SubTrack} {c : ℤ}
    (hcount : track.entries = [] ∨ (track.entries.length : ℤ) ≤ track.count) :
    ∀ (l : List SRTEntry) (cur : ℕ), l = track.entries.drop cur →
      emitDue s t track c cur l = (Lib.advance (cueClocks track) c cur,
        (List.range' cur (Lib.advance (cueClocks track) c cur - cur)).flatMap
          (cueEvents s t track))
  | [], cur, hl => by
    have hlen : (cueClocks track).length ≤ cur := by
      rw [length_cueClocks]
      exact List.drop_eq_nil_iff.mp hl.symm
    rw [emitDue, Lib.advance_of_length_le hlen, Nat.sub_self, List.range'_zero,
      List.flatMap_nil]
  | e :: rest, cur, hl => by
    have hcur : cur < track.entries.length := by
      by_contra hge
      rw [List.drop_eq_nil_of_le (not_lt.mp hge)] at hl
      cases hl
    obtain ⟨he, hrest⟩ := List.cons.inj (hl.trans (List.drop_eq_getElem_cons hcur))
    have hcount' : (cur : ℤ) < track.count := by
      rcases hcount with hnil | hle
      · simp [hnil] at hcur
      · omega
    have hcur' : cur < (cueClocks track).length := by rwa [length_cueClocks]
    have hclock : (cueClocks track)[cur] = cueClock track e := by
      simp [cueClocks, he]
    by_cases hdue : cueClock track e ≤ c
    · have hnext := emitDue_eq (s := s) (t := t) (c := c) hcount rest (cur + 1) hrest
      have hadv := Lib.advance_of_le hcur' (hclock ▸ hdue)
      obtain ⟨n, hn⟩ : ∃ n, Lib.advance (cueClocks track) c (cur + 1) = cur + 1 + n :=
        ⟨_, (Nat.add_sub_cancel'
          (Lib.le_advance : cur + 1 ≤ Lib.advance (cueClocks track) c (cur + 1))).symm⟩
      rw [emitDue, if_pos ⟨hcount', hdue⟩, hnext, hadv, hn,
        show cur + 1 + n - cur = n + 1 by omega, show cur + 1 + n - (cur + 1) = n by omega,
        List.range'_succ, List.flatMap_cons]
      simp [cueEvents, List.getElem?_eq_getElem hcur, he, cueClock]
    · rw [emitDue, if_neg (fun h ↦ hdue h.2),
        Lib.advance_of_lt hcur' (hclock ▸ lt_of_not_ge hdue), Nat.sub_self, List.range'_zero,
        List.flatMap_nil]

/-! ### The `for` loop and one packet -/

theorem length_emitTracks {s c : ℤ} : ∀ (t : ℕ) (tracks : List SubTrack) (curs : List ℕ),
    (emitTracks s c t tracks curs).1.length = min tracks.length curs.length
  | _, [], _ => by simp [emitTracks]
  | _, _ :: _, [] => by simp [emitTracks]
  | t, _ :: tracks, _ :: curs => by
    rw [emitTracks, List.length_cons, length_emitTracks (t + 1) tracks curs, List.length_cons,
      List.length_cons, Nat.succ_min_succ]

/-- Every event of the `for` loop from track `t` belongs to a track from `t` on. -/
theorem track?_of_mem_emitTracks {s c : ℤ} : ∀ {t : ℕ} {tracks : List SubTrack}
    {curs : List ℕ} {ev : MuxEvent}, ev ∈ (emitTracks s c t tracks curs).2 →
      ∃ t', ev.track? = some t' ∧ t ≤ t'
  | _, [], _, _, hev => by simp [emitTracks] at hev
  | _, _ :: _, [], _, hev => by simp [emitTracks] at hev
  | t, track :: tracks, cur :: curs, ev, hev => by
    rcases List.mem_append.mp hev with hev | hev
    · exact ⟨t, track?_of_mem_emitDue hev, le_rfl⟩
    · obtain ⟨t', ht', hle⟩ := track?_of_mem_emitTracks hev
      exact ⟨t', ht', Nat.le_of_succ_le hle⟩

/-- Track `t + j` of the `for` loop from track `t`: its new cursor and its events are those of
its own `while` loop. -/
theorem emitTracks_getElem? {s c : ℤ} : ∀ {t j : ℕ} {tracks : List SubTrack} {curs : List ℕ}
    {track : SubTrack} {cur : ℕ}, tracks[j]? = some track → curs[j]? = some cur →
      (emitTracks s c t tracks curs).1[j]? =
          some (emitDue s (t + j) track c cur (track.entries.drop cur)).1 ∧
        trackEvents (t + j) (emitTracks s c t tracks curs).2 =
          (emitDue s (t + j) track c cur (track.entries.drop cur)).2
  | _, _, [], _, _, _, htrack, _ => by cases htrack
  | _, _, _ :: _, [], _, _, _, hcur => by cases hcur
  | t, 0, tr :: tracks, cu :: curs, track, cur, htrack, hcur => by
    cases htrack
    cases hcur
    refine ⟨rfl, ?_⟩
    rw [emitTracks, trackEvents, List.filter_append, Nat.add_zero,
      List.filter_eq_self.mpr fun ev hev ↦ by simp [track?_of_mem_emitDue hev],
      List.filter_eq_nil_iff.mpr fun ev hev ↦ ?_, List.append_nil]
    obtain ⟨t', ht', hle⟩ := track?_of_mem_emitTracks hev
    simp only [ht', beq_iff_eq, Option.some.injEq]
    omega
  | t, j + 1, tr :: tracks, cu :: curs, track, cur, htrack, hcur => by
    obtain ⟨hcursor, hevents⟩ :=
      emitTracks_getElem? (s := s) (c := c) (t := t + 1) (j := j) htrack hcur
    rw [show t + 1 + j = t + (j + 1) by omega] at hcursor hevents
    refine ⟨hcursor, ?_⟩
    rw [emitTracks, trackEvents, List.filter_append,
      List.filter_eq_nil_iff.mpr fun ev hev ↦ ?_, List.nil_append]
    · exact hevents
    · simp only [track?_of_mem_emitDue hev, beq_iff_eq, Option.some.injEq]
      omega

theorem demuxPacket_of_none {env : DemuxEnv} (st : DemuxState) {pkt : Packet}
    (h : readPacket env pkt = none) : demuxPacket env st pkt = (st, []) := by
  rw [demuxPacket, h]

/-- A packet the loop keeps: `cmp90` becomes `last_valid_cur90`, every track runs its `while`
loop with it, and the packet is written last. -/
theorem demuxPacket_of_some {env : DemuxEnv} (st : DemuxState) {pkt : Packet} {index : ℕ}
    {pts cur90 : ℤ} (h : readPacket env pkt = some (index, pts, cur90)) :
    demuxPacket env st pkt =
      (⟨if cur90 ≠ AV_NOPTS_VALUE then cur90 else st.lastValidCur90,
        (emitTracks env.inputStartPts90 (if cur90 ≠ AV_NOPTS_VALUE then cur90 else st.lastValidCur90)
          0 env.tracks st.curSub).1⟩,
        (emitTracks env.inputStartPts90
          (if cur90 ≠ AV_NOPTS_VALUE then cur90 else st.lastValidCur90) 0 env.tracks st.curSub).2 ++
          [.packet index pts]) := by
  rw [demuxPacket, h]
  by_cases hnopts : cur90 = AV_NOPTS_VALUE <;> simp [hnopts]

/-! ### Runs of the loop -/

/-- What the loop writes for one track while it processes packet `k`: the cues between the
track's cursor before and after that packet, where the cursor runs over the packets' clocks
as `Lib.runAdvance` over the cue clocks. A dropped packet writes nothing and leaves every cursor;
a kept one runs the `while` loop of each track with its clock. -/
theorem trackEvents_ctxDemuxMuxLoop {env : DemuxEnv} {t : ℕ} {track : SubTrack}
    (htrack : env.tracks[t]? = some track)
    (hcount : track.entries = [] ∨ (track.entries.length : ℤ) ≤ track.count) :
    ∀ (pkts : List Packet) (st : DemuxState) (cur : ℕ), st.curSub.length = env.tracks.length →
      st.curSub[t]? = some cur → ∀ (k : ℕ) (evs : List MuxEvent),
        (ctxDemuxMuxLoop env st pkts).2[k]? = some evs →
        trackEvents t evs =
          (List.range' (Lib.runAdvance (cueClocks track) cur
              ((cmpClocks env st.lastValidCur90 pkts).take k))
            (Lib.runAdvance (cueClocks track) cur
                ((cmpClocks env st.lastValidCur90 pkts).take (k + 1)) -
              Lib.runAdvance (cueClocks track) cur
                ((cmpClocks env st.lastValidCur90 pkts).take k))).flatMap
            (cueEvents env.inputStartPts90 t track)
  | [], _, _, _, _, _, _, hk => by cases hk
  | pkt :: pkts, st, cur, hlen, hcur, k, evs, hk => by
    cases hread : readPacket env pkt with
    | none =>
      have hstep := demuxPacket_of_none st hread
      simp only [ctxDemuxMuxLoop, hstep] at hk
      rw [cmpClocks, hread]
      cases k with
      | zero =>
        cases hk
        simp [Lib.runAdvance, trackEvents]
      | succ k =>
        simp only [List.getElem?_cons_succ] at hk
        simpa [Lib.runAdvance] using
          trackEvents_ctxDemuxMuxLoop htrack hcount pkts st cur hlen hcur k evs hk
    | some r =>
      obtain ⟨index, pts, cur90⟩ := r
      obtain ⟨cmp90, hcmp⟩ : ∃ c,
          (if cur90 ≠ AV_NOPTS_VALUE then cur90 else st.lastValidCur90) = c := ⟨_, rfl⟩
      have hstep := demuxPacket_of_some st hread
      rw [hcmp] at hstep
      have hclocks : cmpClocks env st.lastValidCur90 (pkt :: pkts) =
          some cmp90 :: cmpClocks env cmp90 pkts := by
        rw [cmpClocks, hread]
        dsimp only
        rw [hcmp]
      obtain ⟨hcursor, hevents⟩ := emitTracks_getElem? (s := env.inputStartPts90) (c := cmp90)
        (t := 0) htrack hcur
      rw [Nat.zero_add, emitDue_eq hcount _ cur rfl] at hcursor hevents
      dsimp only at hcursor hevents
      rw [hclocks]
      simp only [ctxDemuxMuxLoop, hstep] at hk
      cases k with
      | zero =>
        cases hk
        rw [trackEvents, List.filter_append, ← trackEvents, hevents]
        simp [MuxEvent.track?, Lib.runAdvance]
      | succ k =>
        simp only [List.getElem?_cons_succ] at hk
        have hlen' : (emitTracks env.inputStartPts90 cmp90 0 env.tracks st.curSub).1.length =
            env.tracks.length := by
          rw [length_emitTracks, hlen, Nat.min_self]
        simpa [Lib.runAdvance] using
          trackEvents_ctxDemuxMuxLoop htrack hcount pkts _ _ hlen' hcursor k evs hk

/-! ### When a cue is written -/

/-- Cues in timeline order have sorted clocks. -/
theorem pairwise_cueClocks {track : SubTrack} (h : Timeline track.entries) :
    (cueClocks track).Pairwise (· ≤ ·) := by
  have hchain : track.entries.IsChain fun a b ↦ cueClock track a ≤ cueClock track b := by
    refine h.chain.imp_of_mem_imp fun a b ha _ hab ↦ ?_
    have hdur := h.start_le_end a ha
    unfold Touching at hab
    unfold cueClock
    omega
  exact List.isChain_iff_pairwise.mp ((List.isChain_map _).mpr hchain)

/-- The clock of a cue that is there. -/
theorem getElem_cueClocks {track : SubTrack} {i : ℕ} {e : SRTEntry}
    (he : track.entries[i]? = some e) :
    ∃ hi : i < (cueClocks track).length, (cueClocks track)[i] = cueClock track e := by
  obtain ⟨hlt, heq⟩ := List.getElem?_eq_some_iff.mp he
  exact ⟨by rwa [length_cueClocks], by simp [cueClocks, heq]⟩

/-- The subtitles among what a range of cues writes. -/
theorem subtitle_mem_flatMap_cueEvents {s : ℤ} {t t' : ℕ} {track : SubTrack} {a n i : ℕ}
    {p : ℤ} :
    MuxEvent.subtitle t' i p ∈ (List.range' a n).flatMap (cueEvents s t track) ↔
      t' = t ∧ a ≤ i ∧ i < a + n ∧ ∃ e, track.entries[i]? = some e ∧ p = s + cueClock track e := by
  simp only [List.mem_flatMap, List.mem_range'_1]
  constructor
  · rintro ⟨j, ⟨hlo, hhi⟩, hj⟩
    unfold cueEvents at hj
    split at hj
    · rename_i e he
      simp only [List.mem_cons, MuxEvent.subtitle.injEq, reduceCtorEq, List.not_mem_nil,
        or_false] at hj
      obtain ⟨rfl, rfl, rfl⟩ := hj
      exact ⟨rfl, hlo, hhi, e, he, rfl⟩
    · cases hj
  · rintro ⟨rfl, hlo, hhi, e, he, rfl⟩
    refine ⟨i, ⟨hlo, hhi⟩, ?_⟩
    simp [cueEvents, he]

/-- On a track whose cues are ready, the loop writes the subtitle of cue `i` while it processes
packet `k` exactly when packet `k` is the first whose clock reaches the cue's
`(start_ms + effective_delay_ms) * 90`; the subtitle is stamped `input_start_pts90` later than
that clock value. -/
theorem subtitle_mem_ctxDemuxMuxLoop_iff {env : DemuxEnv} {t : ℕ} {track : SubTrack}
    (htrack : env.tracks[t]? = some track) (hready : CuesReady track) {pkts : List Packet}
    {k : ℕ} {evs : List MuxEvent}
    (hk : (ctxDemuxMuxLoop env (DemuxState.init env) pkts).2[k]? = some evs) (i : ℕ) (p : ℤ) :
    MuxEvent.subtitle t i p ∈ evs ↔
      ∃ e, track.entries[i]? = some e ∧ p = env.inputStartPts90 + cueClock track e ∧
        (∃ c, (cmpClocks env AV_NOPTS_VALUE pkts)[k]? = some (some c) ∧ cueClock track e ≤ c) ∧
        ∀ k' < k, ∀ c, (cmpClocks env AV_NOPTS_VALUE pkts)[k']? = some (some c) →
          c < cueClock track e := by
  have ht : t < env.tracks.length := (List.getElem?_eq_some_iff.mp htrack).1
  have hevents := trackEvents_ctxDemuxMuxLoop htrack hready.count_covers pkts
    (DemuxState.init env) 0 List.length_replicate (by simp [DemuxState.init, ht]) k evs hk
  have hmem : MuxEvent.subtitle t i p ∈ evs ↔ MuxEvent.subtitle t i p ∈ trackEvents t evs := by
    simp [trackEvents, MuxEvent.track?]
  rw [hmem, hevents, subtitle_mem_flatMap_cueEvents]
  simp only [true_and]
  constructor
  · rintro ⟨hlo, hhi, e, he, rfl⟩
    obtain ⟨hi, hclock⟩ := getElem_cueClocks he
    have hpassed := (Lib.passedAt_iff (pairwise_cueClocks hready.timeline) hi
      (cmpClocks env (DemuxState.init env).lastValidCur90 pkts) k).mp ⟨hlo, by omega⟩
    rw [hclock] at hpassed
    exact ⟨e, he, rfl, hpassed⟩
  · rintro ⟨e, he, rfl, hpassed⟩
    obtain ⟨hi, hclock⟩ := getElem_cueClocks he
    rw [← hclock] at hpassed
    obtain ⟨hlo, hhi⟩ := (Lib.passedAt_iff (pairwise_cueClocks hready.timeline) hi
      (cmpClocks env (DemuxState.init env).lastValidCur90 pkts) k).mpr hpassed
    exact ⟨hlo, by omega, e, he, rfl⟩

/-! ### The tracks of a setup -/

/-- The cues of a track come from the SRT parser in timeline order, with their number as
count, or, for an ASS track without a file, there are none. -/
theorem cuesReady_of_loadTrack {env : TrackEnv} {trackUseAss : Bool} {tok : List Char}
    {entries : List SRTEntry} {count : ℤ}
    (h : loadTrack env trackUseAss tok = .ok (entries, count)) :
    Timeline entries ∧ (entries = [] ∨ (entries.length : ℤ) ≤ count) := by
  unfold loadTrack at h
  split at h
  · cases h
    exact ⟨timeline_parseSrtInternal _ _ _ _ _, .inr le_rfl⟩
  · split_ifs at h
    cases h
    exact ⟨Timeline.nil, .inl rfl⟩

/-- Every track a setup hands to the loop has its cues ready. -/
theorem cuesReady_streamSetup {av : AvUtil} {ops : CueTextOps}
    {readLines : List Char → Option (List (List Char))} {opts : CliOptions} {input : InputFile}
    {ctx : MuxCtx} {tracks : List SubTrack}
    (h : streamSetup av ops readLines opts input = .ok (ctx, tracks)) :
    ∀ track ∈ tracks, CuesReady track := by
  obtain ⟨ctx₀, info, -, hrun⟩ := streamSetup_ok h
  obtain ⟨ctx₁, tracks₁, forcedFlags, hiFlags, hloop, -, -, -, rfl⟩ := runTrackSetup_ok hrun
  have hready₁ : ∀ track ∈ tracks₁, CuesReady track := by
    refine ctxParseTracks_inv (fun _ tracks ↦ ∀ track ∈ tracks, CuesReady track) ?_ _ _
      (fun _ h ↦ absurd h List.not_mem_nil) hloop
    intro ctx tracks tok tokLang ctx' tracks' hP hone track htrack
    obtain ⟨entries, count, ctx₂, index, hload, -, -, rfl⟩ := parseTrack_ok hone
    rcases List.mem_append.mp htrack with htrack | htrack
    · exact hP track htrack
    · rw [List.mem_singleton.mp htrack]
      obtain ⟨htimeline, hcount⟩ := cuesReady_of_loadTrack hload
      exact ⟨htimeline, hcount⟩
  intro track htrack
  obtain ⟨i, hi, rfl⟩ := List.mem_mapIdx.mp htrack
  obtain ⟨htimeline, hcount⟩ := hready₁ _ (List.getElem_mem hi)
  exact ⟨htimeline, hcount⟩

/-- In every encoding run, the loop writes the subtitle of cue `i` of a track while it
processes packet `k` exactly when packet `k` is the first whose clock reaches the cue's
`(start_ms + effective_delay_ms) * 90`, and stamps it with that value plus the start of the
input. -/
theorem streamSetup_subtitleAtFirstDuePacket {av : AvUtil} {ops : CueTextOps}
    {readLines : List Char → Option (List (List Char))} {opts : CliOptions} {input : InputFile}
    {ctx : MuxCtx} {tracks : List SubTrack}
    (hsetup : streamSetup av ops readLines opts input = .ok (ctx, tracks))
    {t : ℕ} {track : SubTrack} (htrack : tracks[t]? = some track) (pkts : List Packet) {k : ℕ}
    {evs : List MuxEvent}
    (hk : (ctxDemuxMuxLoop (DemuxEnv.ofSetup av input ctx tracks)
      (DemuxState.init (DemuxEnv.ofSetup av input ctx tracks)) pkts).2[k]? = some evs)
    (i : ℕ) (p : ℤ) :
    MuxEvent.subtitle t i p ∈ evs ↔
      ∃ e, track.entries[i]? = some e ∧
        p = (probeVideo av input).inputStartPts90 + cueClock track e ∧
        (∃ c, (cmpClocks (DemuxEnv.ofSetup av input ctx tracks) AV_NOPTS_VALUE pkts)[k]? =
          some (some c) ∧ cueClock track e ≤ c) ∧
        ∀ k' < k, ∀ c, (cmpClocks (DemuxEnv.ofSetup av input ctx tracks) AV_NOPTS_VALUE pkts)[k']? =
          some (some c) → c < cueClock track e :=
  subtitle_mem_ctxDemuxMuxLoop_iff htrack
    (cuesReady_streamSetup hsetup track (List.mem_of_getElem? htrack)) hk i p

/-- An input starting at 10 s, its first packet at 10 s, and a cue at 1 s: the cue is written
with that packet, whose clock is 10 s. -/
theorem streamSetup_subtitleAtFirstDuePacket_startAt10s :
    let ops : CueTextOps := ⟨fun text _ ↦ text, fun text ↦ (text, 0), fun _ _ _ ↦ 0⟩
    let opts : CliOptions := ⟨some "in.ts".toList, some "out.ts".toList, some "a.srt".toList,
      some "eng".toList, none, none, false, false, none, 0, none, none, false, false, none, true⟩
    let input : InputFile :=
      ⟨[⟨.video, 256, [], 720, 576, some 900000, (1, 90000)⟩], 1, some 10000000⟩
    let readLines : List Char → Option (List (List Char)) :=
      fun _ ↦ some ["1".toList, "00:00:01,000 --> 00:00:02,000".toList, "A".toList]
    let pkts : List Packet := [⟨0, 900000, 900000⟩]
    ∃ r track evs,
      streamSetup AvUtil.entries ops readLines opts input = .ok r ∧ r.2[0]? = some track ∧
      (ctxDemuxMuxLoop (DemuxEnv.ofSetup AvUtil.entries input r.1 r.2)
        (DemuxState.init (DemuxEnv.ofSetup AvUtil.entries input r.1 r.2)) pkts).2[0]? = some evs ∧
      (MuxEvent.subtitle 0 0 990000 ∈ evs ↔
        ∃ e, track.entries[0]? = some e ∧
          990000 = (probeVideo AvUtil.entries input).inputStartPts90 + cueClock track e ∧
          (∃ c, (cmpClocks (DemuxEnv.ofSetup AvUtil.entries input r.1 r.2) AV_NOPTS_VALUE
              pkts)[0]? = some (some c) ∧ cueClock track e ≤ c) ∧
          ∀ k' < 0, ∀ c, (cmpClocks (DemuxEnv.ofSetup AvUtil.entries input r.1 r.2) AV_NOPTS_VALUE
            pkts)[k']? = some (some c) → c < cueClock track e) := by
  intro ops opts input readLines pkts
  refine ⟨_, _, _, rfl, rfl, rfl, ?_⟩
  exact @streamSetup_subtitleAtFirstDuePacket AvUtil.entries ops readLines opts input _ _ rfl _ _
    rfl pkts _ _ rfl 0 990000

/-- An input starting at 10 s (`input_start_pts90 = 900000`) with one packet at 10 s and a cue
from 1 s to 2 s: the loop writes the cue with that packet, stamped 11 s (`990000`), while the
clock the condition compared with reads 10 s (`900000`). No packet reaches the cue's own PTS,
and yet it is written. Only exact rescalings occur, so this holds whatever rounding
`av_rescale_q` does. -/
theorem ctxDemuxMuxLoop_subtitleBeforeItsPts (av : AvUtil) (ops : CueTextOps) :
    let input : InputFile :=
      ⟨[⟨.video, 256, [], 720, 576, some 900000, (1, 90000)⟩], 1, some 10000000⟩
    let readLines : List Char → Option (List (List Char)) :=
      fun _ ↦ some ["1".toList, "00:00:01,000 --> 00:00:02,000".toList, "A".toList]
    let pkts : List Packet := [⟨0, 900000, 900000⟩]
    ∃ opts, cliParse [.input "in.ts".toList, .output "out.ts".toList, .srt "a.srt".toList,
        .languages "eng".toList] [] = .ok opts ∧
      (streamSetup av ops readLines opts input).map (fun r ↦
          (cmpClocks (DemuxEnv.ofSetup av input r.1 r.2) AV_NOPTS_VALUE pkts,
            (ctxDemuxMuxLoop (DemuxEnv.ofSetup av input r.1 r.2)
              (DemuxState.init (DemuxEnv.ofSetup av input r.1 r.2)) pkts).2)) =
        .ok ([some 900000], [[.subtitle 0 0 990000, .clear 0 0 1080000, .packet 0 900000]]) := by
  intro input readLines pkts
  refine ⟨_, rfl, ?_⟩
  have hstart : av.rescaleQ 10000000 AV_TIME_BASE_Q (1, 90000) = 900000 :=
    av.rescaleQ_of_exact _ _ _ _ (by decide) (by decide) (by decide)
  have hpts : av.rescaleQ 900000 (1, 90000) (1, 90000) = 900000 :=
    av.rescaleQ_of_exact _ _ _ _ (by decide) (by decide) (by decide)
  simp only [DemuxEnv.ofSetup, probeVideo, input, pkts, hstart, cmpClocks, ctxDemuxMuxLoop,
    demuxPacket, readPacket, ite_self, lt_self_iff_false, Int.toNat_zero, List.getElem?_cons_zero,
    hpts]
  rfl

end Srt2Dvbsub.Mux
