import Srt2Dvbsub.Cli.Options
import Srt2Dvbsub.Lib.List
import Srt2Dvbsub.SrtParser.WithStats

/-!
# The output streams and the subtitle tracks

`srt2dvbsub_run_cli` sets up the output in three steps, each modelled here on the values it
reads and writes.

* `ctx_init` opens the input and mirrors every input stream on the output (`mirrorStream`):
  the stream's metadata is copied, a subtitle stream whose language passes the `--overwrite`
  filter becomes an overwrite candidate, and with PID preservation the output stream takes
  the input's PID, `max_input_pid` following the largest one. It then parses the per-track
  delay list (`ctxInit`).
* `ctx_parse_tracks` walks the SRT and language lists in step (`ctxParseTracks`). Each track
  checks its language, takes its forced and hearing-impaired flags from the arrays it is
  given, its delay from the delay list or the global delay, parses its SRT file, and reuses
  an overwrite candidate of its language or creates a stream, with the next PID above
  `max_input_pid` when PIDs are preserved (`attachStream`). The stream gets the track's
  language and, for a set flag, a `forced` or `hearing_impaired` entry (`trackMetadata`).
* `srt2dvbsub_run_cli` calls `ctx_parse_tracks` with flag arrays of zeros, applies `--pid`,
  and only then parses `--forced` and `--hi` into the arrays and copies them to the tracks,
  before it checks tracks of one language for distinct flags (`runTrackSetup`).

FFmpeg enters through the values it hands out, the input's streams with their type, PID,
metadata, size and start time (`InputFile`), and through the three functions of libavutil the
setup calls: `av_dict_get` and `av_dict_set` on metadata, and `av_rescale_q`. These are
parameters (`AvUtil`) that carry the behaviour the FFmpeg documentation gives them, and the
proofs use nothing else of them; `AvUtil.entries` shows that the laws can hold together. The
SRT file enters as the lines `fgets` reads from it.

The track loop is a run of `parseTrack`, and the results about it are run lemmas over any
SRT and language lists: track `i` gets the `i`-th delay of the list or the global delay
(`ctxParseTracks_effectiveDelay`).
-/

set_option autoImplicit false
set_option relaxedAutoImplicit false

namespace Srt2Dvbsub.Mux

open CLib Cli SrtParser

/-! ### FFmpeg values -/

/-- `AVMediaType`. -/
inductive MediaType where
  | unknown | video | audio | data | subtitle | attachment
  deriving DecidableEq, Repr

/-- An `AVDictionary`: its entries, keys matched without regard to case. -/
abbrev Dict := List (List Char × List Char)

/-- What the setup and the packet loop call of libavutil, with what the FFmpeg documentation
says of it: `av_dict_get` and `av_dict_set` with flags `0` on the entries of a dictionary, and
`av_rescale_q`. A time base is a numerator and a denominator. -/
structure AvUtil where
  /-- `av_dict_get(m, key, NULL, 0)`: the value of the key's entry, `NULL` being `none`. -/
  dictGet : Dict → List Char → Option (List Char)
  /-- `av_dict_set(&m, key, value, 0)`: the dictionary after the call. -/
  dictSet : Dict → List Char → List Char → Dict
  /-- `av_rescale_q(a, bq, cq)`. -/
  rescaleQ : ℤ → ℤ × ℤ → ℤ × ℤ → ℤ
  /-- The empty dictionary, `NULL`, has no entry. -/
  dictGet_nil : ∀ key, dictGet [] key = none
  /-- Without `AV_DICT_DONT_OVERWRITE` the value set is the one read back. -/
  dictGet_dictSet_self : ∀ m key value, dictGet (dictSet m key value) key = some value
  /-- Without `AV_DICT_MATCH_CASE` keys are compared up to case, and setting one leaves the
  entry of every other key. -/
  dictGet_dictSet_of_ne : ∀ m key key' value, strcasecmpEq key key' = false →
    dictGet (dictSet m key value) key' = dictGet m key'
  /-- The value is `a * bq / cq`, rounded only where that is not an integer. -/
  rescaleQ_of_exact : ∀ a bq cq n, 0 < bq.2 → 0 < cq.1 →
    a * bq.1 * cq.2 = n * (bq.2 * cq.1) → rescaleQ a bq cq = n

/-- The laws of `AvUtil` hold together: here a dictionary is kept as its list of entries, and
`a * bq / cq` is rounded down. This is not FFmpeg's code; the witnesses of the results over
`AvUtil` are evaluated on it. -/
def AvUtil.entries : AvUtil where
  dictGet m key := (m.find? fun entry ↦ strcasecmpEq entry.1 key).map Prod.snd
  dictSet m key value := m.filter (fun entry ↦ !strcasecmpEq entry.1 key) ++ [(key, value)]
  rescaleQ a bq cq := a * bq.1 * cq.2 / (bq.2 * cq.1)
  dictGet_nil _ := rfl
  dictGet_dictSet_self m key value := by
    have hnone : (m.filter fun entry ↦ !strcasecmpEq entry.1 key).find?
        (fun entry ↦ strcasecmpEq entry.1 key) = none := by
      rw [List.find?_eq_none]
      intro entry hentry
      simpa using (List.mem_filter.mp hentry).2
    rw [List.find?_append, hnone]
    simp [strcasecmpEq]
  dictGet_dictSet_of_ne m key key' value hne := by
    have hlast : List.find? (fun entry ↦ strcasecmpEq entry.1 key') [(key, value)] = none := by
      simp [hne]
    rw [List.find?_append, List.find?_filter, hlast, Option.or_none]
    congr 2
    funext entry
    have hkeys : key.map tolower ≠ key'.map tolower := by
      simpa [strcasecmpEq] using hne
    unfold strcasecmpEq
    by_cases hkey : entry.1.map tolower = key'.map tolower
    · have hother : entry.1.map tolower ≠ key.map tolower := by
        rw [hkey]
        exact fun h ↦ hkeys h.symm
      rw [beq_iff_eq.mpr hkey, beq_eq_false_iff_ne.mpr hother]
      rfl
    · rw [beq_eq_false_iff_ne.mpr hkey]
      simp
  rescaleQ_of_exact a bq cq n hb hc hexact := by
    rw [hexact]
    exact Int.mul_ediv_cancel n (Int.mul_pos hb hc).ne'

/-- `AV_TIME_BASE_Q`. -/
def AV_TIME_BASE_Q : ℤ × ℤ := (1, 1000000)

/-- The fields of an input `AVStream` the setup reads; `none` is `AV_NOPTS_VALUE`. -/
structure InStream where
  codecType : MediaType
  id : ℤ
  metadata : Dict
  width : ℤ
  height : ℤ
  startTime : Option ℤ
  timeBase : ℤ × ℤ
  deriving DecidableEq, Repr

/-- The fields of the input `AVFormatContext` the setup reads. -/
structure InputFile where
  streams : List InStream
  nbPrograms : ℕ
  startTime : Option ℤ
  deriving DecidableEq, Repr

/-- An output `AVStream`: its PID and its metadata. -/
structure OutStream where
  id : ℤ
  metadata : Dict
  deriving DecidableEq, Repr

/-- `OverwriteTarget`: an input subtitle stream a track may replace. -/
structure OverwriteTarget where
  inStreamIndex : ℕ
  outStreamIndex : ℕ
  pid : ℤ
  lang : List Char
  used : Bool
  deriving DecidableEq, Repr

/-- The fields of `MainCtx` the setup reads and writes, with the streams of `out_fmt`. -/
structure MuxCtx where
  preservePids : Bool
  maxInputPid : ℤ
  overwriteSubs : Bool
  overwriteLangs : Option (List Char)
  overwriteTargets : List OverwriteTarget
  streams : List OutStream
  delayVals : List ℤ
  deriving DecidableEq, Repr

/-- The PID of output stream `index` set to `pid`. -/
def MuxCtx.setStreamId (ctx : MuxCtx) (index : ℕ) (pid : ℤ) : MuxCtx :=
  { ctx with streams := ctx.streams.modify index fun st ↦ { st with id := pid } }

/-! ### `ctx_init` -/

/-- `MAX_OVERWRITE_TARGETS`. -/
def MAX_OVERWRITE_TARGETS : ℕ := 16

/-- `strncasecmp(a, b, n) == 0`. -/
def strncasecmpEq (n : ℕ) (a b : List Char) : Bool :=
  strcasecmpEq (a.take n) (b.take n)

/-- `strncasecmp` reads no byte of `a` past the first `n`. -/
theorem strncasecmpEq_append {n : ℕ} {a : List Char} (rest b : List Char) (h : n ≤ a.length) :
    strncasecmpEq n (a ++ rest) b = strncasecmpEq n a b := by
  rw [strncasecmpEq, List.take_append_of_le_length h, strncasecmpEq]

/-- A table of tags tested with `strncasecmp` finds none at a text whose first bytes match
none of them. -/
theorem find?_strncasecmpEq_append_eq_none {β : Type} (tags : List (List Char × β))
    {pre : List Char} (rest : List Char)
    (hpre : ∀ tag ∈ tags, tag.1.length ≤ pre.length ∧ strncasecmpEq tag.1.length pre tag.1 = false) :
    tags.find? (fun tag ↦ strncasecmpEq tag.1.length (pre ++ rest) tag.1) = none := by
  rw [List.find?_eq_none]
  intro tag htag
  obtain ⟨hlen, hne⟩ := hpre tag htag
  rw [strncasecmpEq_append rest tag.1 hlen, hne]
  decide

/-- `strncasecmp` tells strings apart at a first byte that differs up to case. -/
theorem strncasecmpEq_cons_of_ne {n : ℕ} {c d : Char} (a b : List Char) (hn : 0 < n)
    (hcd : tolower c ≠ tolower d) : strncasecmpEq n (c :: a) (d :: b) = false := by
  obtain ⟨n, rfl⟩ := Nat.exists_eq_add_of_lt hn
  simp [strncasecmpEq, strcasecmpEq, hcd]

/-- The scan of `overwrite_lang_allowed` over the filter list: skip commas and blanks, take the
field up to the next comma without its trailing blanks, and accept on `*` or on a three-letter
field equal to the language up to case. The fuel bounds the fields. -/
def overwriteLangScan (lang : List Char) : ℕ → List Char → Bool
  | 0, _ => false
  | fuel + 1, p =>
    match p.dropWhile fun c ↦ c == ',' || isspace c with
    | [] => false
    | start@(_ :: _) =>
      let field := (start.takeWhile (· != ',')).rdropWhile isspace
      if field = ['*'] ∨ (field.length = 3 ∧ strncasecmpEq 3 field lang) then true
      else overwriteLangScan lang fuel (start.dropWhile (· != ','))

/-- `overwrite_lang_allowed(list, lang)`: no filter allows every language. -/
def overwriteLangAllowed (list : Option (List Char)) (lang : List Char) : Bool :=
  if lang = [] then false
  else
    match list with
    | none | some [] => true
    | some l => overwriteLangScan lang (l.length + 1) l

/-- The values `ctx_init` sets before it opens the input. -/
def MuxCtx.init (opts : CliOptions) : MuxCtx :=
  ⟨opts.preservePids, if opts.preservePids then 31 else 0, opts.overwriteSubs,
    opts.overwriteLangs, [], [], []⟩

/-- The PID copy that ends an iteration of the mirroring loop. -/
def preserveInputPid (ctx : MuxCtx) (outIndex : ℕ) (inSt : InStream) : MuxCtx :=
  if ctx.preservePids ∧ inSt.id > 0 then
    { ctx.setStreamId outIndex inSt.id with
      maxInputPid := if inSt.id > ctx.maxInputPid then inSt.id else ctx.maxInputPid }
  else ctx

/-- One iteration of the mirroring loop of `ctx_init`, for input stream `i`. A subtitle
stream whose language the filter rejects leaves the iteration by `continue`, before the PID
copy. -/
def mirrorStream (av : AvUtil) (ctx : MuxCtx) (i : ℕ) (inSt : InStream) : MuxCtx :=
  let outIndex := ctx.streams.length
  let ctx := { ctx with streams := ctx.streams ++ [⟨0, inSt.metadata⟩] }
  if ctx.overwriteSubs ∧ ctx.overwriteTargets.length < MAX_OVERWRITE_TARGETS ∧
      inSt.codecType = .subtitle then
    match av.dictGet inSt.metadata "language".toList with
    | some lang =>
      if lang.length = 3 then
        if overwriteLangAllowed ctx.overwriteLangs lang then
          preserveInputPid
            { ctx with
              overwriteTargets := ctx.overwriteTargets ++ [⟨i, outIndex, inSt.id, lang, false⟩] }
            outIndex inSt
        else ctx
      else preserveInputPid ctx outIndex inSt
    | none => preserveInputPid ctx outIndex inSt
  else preserveInputPid ctx outIndex inSt

/-- The mirroring loop from input stream `i`. -/
def mirrorStreams (av : AvUtil) : MuxCtx → ℕ → List InStream → MuxCtx
  | ctx, _, [] => ctx
  | ctx, i, inSt :: rest => mirrorStreams av (mirrorStream av ctx i inSt) (i + 1) rest

/-- What `ctx_init` hands back besides the context: the video size and the start of the input
on the 90 kHz clock. -/
structure VideoInfo where
  videoW : ℤ
  videoH : ℤ
  inputStartPts90 : ℤ
  deriving DecidableEq, Repr

/-- The size of the first video stream, where it is positive, over the globals `video_w = 720`
and `video_h = 480` of `runtime_opts.c`; the start time of the input, else of that stream, else
`0`. -/
def probeVideo (av : AvUtil) (input : InputFile) : VideoInfo :=
  let video := input.streams.find? (·.codecType == .video)
  let videoW := match video with
    | some st => if st.width > 0 then st.width else 720
    | none => 720
  let videoH := match video with
    | some st => if st.height > 0 then st.height else 480
    | none => 480
  let start := match input.startTime, video with
    | some t, _ => av.rescaleQ t AV_TIME_BASE_Q (1, 90000)
    | none, some st =>
      match st.startTime with
      | some t => av.rescaleQ t st.timeBase (1, 90000)
      | none => 0
    | none, none => 0
  ⟨videoW, videoH, start⟩

/-- `ctx_init`, from the options and the opened input: `-1` for an `--overwrite` of an input
with several programs, or for a delay list `parse_delay_list` rejects. -/
def ctxInit (av : AvUtil) (opts : CliOptions) (input : InputFile) :
    Except ℤ (MuxCtx × VideoInfo) :=
  let ctx := MuxCtx.init opts
  if ctx.overwriteSubs ∧ input.nbPrograms > 1 then .error (-1)
  else
    let ctx := mirrorStreams av ctx 0 input.streams
    match opts.subtitleDelayList with
    | none => .ok (ctx, probeVideo av input)
    | some s =>
      match parseDelayList s with
      | .error _ => .error (-1)
      | .ok delayVals => .ok ({ ctx with delayVals := delayVals }, probeVideo av input)

/-! ### `ctx_parse_tracks` -/

/-- A subtitle track (`SubTrack`): its language, file, flags, delay, cues, and the index of its
output stream. -/
structure SubTrack where
  lang : List Char
  filename : List Char
  forced : ℤ
  hi : ℤ
  effectiveDelayMs : ℤ
  entries : List SRTEntry
  count : ℤ
  stream : ℕ
  deriving DecidableEq, Repr

/-- What `ctx_parse_tracks` reads besides the context: libavutil, the cue text operations and
the lines of each SRT file (`none` when it cannot be opened), `--ass`, the video size, the
global delay, `pid_list`, and the flag arrays it is given. -/
structure TrackEnv where
  av : AvUtil
  ops : CueTextOps
  readLines : List Char → Option (List (List Char))
  useAss : Bool
  videoW : ℤ
  videoH : ℤ
  subtitleDelayMs : ℤ
  pidList : Option (List Char)
  forcedFlags : List ℤ
  hiFlags : List ℤ

/-- `is_ass_file(path)`: the extension after the last dot is `.ass` or `.ssa`, up to case. -/
def isAssFile (path : List Char) : Bool :=
  let ext := (path.reverse.takeWhile (· != '.')).reverse
  path.contains '.' && !ext.isEmpty &&
    (strcasecmpEq ('.' :: ext) ".ass".toList || strcasecmpEq ('.' :: ext) ".ssa".toList)

/-- The delay of track `n`: `ctx->delay_vals[n]` below `delay_count`, else the global one. -/
def cliTrackDelay (subtitleDelayMs : ℤ) (delayVals : List ℤ) (n : ℕ) : ℤ :=
  delayVals.getD n subtitleDelayMs

/-- The cues of a track and their count: `parse_srt_cfg` with the parser settings of
`ctx_parse_tracks`. A file that cannot be opened fails the SRT path with `1`; the ASS path
does not test the count. -/
def loadTrack (env : TrackEnv) (trackUseAss : Bool) (tok : List Char) :
    Except ℤ (List SRTEntry × ℤ) :=
  match env.readLines tok with
  | some lines =>
    let entries := parseSrtCfg env.ops (defaultConfig trackUseAss env.videoW env.videoH) lines
    .ok (entries, entries.length)
  | none => if trackUseAss then .ok ([], -1) else .error 1

/-- `find_overwrite_target(ctx, lang)`: the first unused candidate of the language. -/
def findOverwriteTarget (ctx : MuxCtx) (lang : List Char) : Option (OverwriteTarget × ℕ) :=
  if ctx.overwriteSubs then
    ctx.overwriteTargets.zipIdx.find? fun entry ↦
      !entry.1.used && strncasecmpEq 3 entry.1.lang lang
  else none

/-- The output stream of a new track: an overwrite candidate of its language, marked used and
given back its PID, or a new stream, with the PID after `max(max_input_pid, 31)` when PIDs
are preserved and no `--pid` list is given. -/
def attachStream (env : TrackEnv) (ctx : MuxCtx) (lang : List Char) : Except ℤ (MuxCtx × ℕ) :=
  match findOverwriteTarget ctx lang with
  | some (target, t) =>
    let ctx := { ctx with
      overwriteTargets := ctx.overwriteTargets.modify t fun cand ↦ { cand with used := true } }
    let ctx := if target.pid > 0 then ctx.setStreamId target.outStreamIndex target.pid else ctx
    .ok (ctx, target.outStreamIndex)
  | none =>
    let index := ctx.streams.length
    let ctx := { ctx with streams := ctx.streams ++ [⟨0, []⟩] }
    if ctx.preservePids ∧ env.pidList = none then
      let basePid := if ctx.maxInputPid < 31 then 31 else ctx.maxInputPid
      let nextPid := basePid + 1
      if nextPid > 8186 then .error (-1)
      else .ok ({ ctx.setStreamId index nextPid with maxInputPid := nextPid }, index)
    else .ok (ctx, index)

/-- The metadata a track writes on its stream: the language, and `forced` and
`hearing_impaired` for a set flag. -/
def trackMetadata (av : AvUtil) (lang : List Char) (forced hi : ℤ) (m : Dict) : Dict :=
  let m := av.dictSet m "language".toList lang
  let m := if forced ≠ 0 then av.dictSet m "forced".toList "1".toList else m
  if hi ≠ 0 then av.dictSet m "hearing_impaired".toList "1".toList else m

/-- The metadata of output stream `index` once a track has written to it. -/
def MuxCtx.setTrackMetadata (av : AvUtil) (ctx : MuxCtx) (index : ℕ) (lang : List Char)
    (forced hi : ℤ) : MuxCtx :=
  { ctx with
    streams := ctx.streams.modify index fun st ↦
      { st with metadata := trackMetadata av lang forced hi st.metadata } }

/-- One iteration of the loop of `ctx_parse_tracks`, for the SRT token `tok` and the language
token `tokLang`. -/
def parseTrack (env : TrackEnv) (ctx : MuxCtx) (tracks : List SubTrack)
    (tok tokLang : List Char) : Except ℤ (MuxCtx × List SubTrack) :=
  let langPtr := trimStringInplace tokLang
  if langPtr = [] ∨ langPtr.length ≠ 3 then .error (-1)
  else if !validatePathLength tok then .error 1
  else
    let n := tracks.length
    let forced := env.forcedFlags.getD n 0
    let hi := env.hiFlags.getD n 0
    let effectiveDelayMs := 0 + cliTrackDelay env.subtitleDelayMs ctx.delayVals n
    match loadTrack env (env.useAss && isAssFile tok) tok with
    | .error code => .error code
    | .ok (entries, count) =>
      match attachStream env ctx langPtr with
      | .error code => .error code
      | .ok (ctx, index) =>
        .ok (ctx.setTrackMetadata env.av index langPtr forced hi,
          tracks ++ [⟨langPtr, tok, forced, hi, effectiveDelayMs, entries, count, index⟩])

/-- The loop of `ctx_parse_tracks`: while both lists have a token and fewer than eight tracks
are set up. -/
def ctxParseTracks (env : TrackEnv) :
    MuxCtx → List SubTrack → List (List Char) → List (List Char) →
      Except ℤ (MuxCtx × List SubTrack)
  | ctx, tracks, tok :: toks, tokLang :: langs =>
    if tracks.length < 8 then
      match parseTrack env ctx tracks tok tokLang with
      | .error code => .error code
      | .ok (ctx, tracks) => ctxParseTracks env ctx tracks toks langs
    else .ok (ctx, tracks)
  | ctx, tracks, _, _ => .ok (ctx, tracks)

/-! ### Runs of the track loop -/

/-- What one iteration adds: the cues `loadTrack` reads, the stream `attachStream` gives the
track, written with the track's language and flags, and the track itself. -/
theorem parseTrack_ok {env : TrackEnv} {ctx ctx' : MuxCtx} {tracks tracks' : List SubTrack}
    {tok tokLang : List Char} (h : parseTrack env ctx tracks tok tokLang = .ok (ctx', tracks')) :
    ∃ entries count ctx₁ index,
      loadTrack env (env.useAss && isAssFile tok) tok = .ok (entries, count) ∧
      attachStream env ctx (trimStringInplace tokLang) = .ok (ctx₁, index) ∧
      ctx' = ctx₁.setTrackMetadata env.av index (trimStringInplace tokLang)
        (env.forcedFlags.getD tracks.length 0) (env.hiFlags.getD tracks.length 0) ∧
      tracks' = tracks ++ [⟨trimStringInplace tokLang, tok, env.forcedFlags.getD tracks.length 0,
        env.hiFlags.getD tracks.length 0,
        cliTrackDelay env.subtitleDelayMs ctx.delayVals tracks.length, entries, count, index⟩] := by
  unfold parseTrack at h
  dsimp only at h
  split_ifs at h
  split at h
  · cases h
  · rename_i entries count hload
    split at h
    · cases h
    · rename_i ctx₁ index hattach
      cases h
      exact ⟨entries, count, ctx₁, index, hload, hattach, rfl, by rw [Int.zero_add]⟩

/-- The track loop keeps every invariant that one successful iteration keeps. -/
theorem ctxParseTracks_inv {env : TrackEnv} (P : MuxCtx → List SubTrack → Prop)
    (hstep : ∀ ctx tracks tok tokLang ctx' tracks', P ctx tracks →
      parseTrack env ctx tracks tok tokLang = .ok (ctx', tracks') → P ctx' tracks') :
    ∀ (toks langs : List (List Char)) {ctx ctx' : MuxCtx} {tracks tracks' : List SubTrack},
      P ctx tracks → ctxParseTracks env ctx tracks toks langs = .ok (ctx', tracks') →
      P ctx' tracks'
  | tok :: toks, tokLang :: langs, ctx, ctx', tracks, tracks', hP, h => by
    simp only [ctxParseTracks] at h
    split_ifs at h
    · split at h
      · cases h
      · rename_i ctx₁ tracks₁ hone
        exact ctxParseTracks_inv P hstep toks langs (hstep _ _ _ _ _ _ hP hone) h
    · cases h
      exact hP
  | [], _, _, _, _, _, hP, h => by
    cases h
    exact hP
  | _ :: _, [], _, _, _, _, hP, h => by
    cases h
    exact hP

theorem attachStream_delayVals {env : TrackEnv} {ctx ctx' : MuxCtx} {lang : List Char}
    {index : ℕ} (h : attachStream env ctx lang = .ok (ctx', index)) :
    ctx'.delayVals = ctx.delayVals := by
  unfold attachStream at h
  split at h
  · cases h
    split_ifs <;> rfl
  · dsimp only at h
    split_ifs at h <;> cases h <;> rfl

/-- The delays of the tracks set up so far: the delay list, then the global delay. -/
def DelaysFrom (subtitleDelayMs : ℤ) (delayVals : List ℤ) (tracks : List SubTrack) : Prop :=
  tracks.map (·.effectiveDelayMs) =
    (List.range tracks.length).map (cliTrackDelay subtitleDelayMs delayVals)

theorem parseTrack_delaysFrom {env : TrackEnv} {ctx ctx' : MuxCtx}
    {tracks tracks' : List SubTrack} {tok tokLang : List Char}
    (hdelays : DelaysFrom env.subtitleDelayMs ctx.delayVals tracks)
    (h : parseTrack env ctx tracks tok tokLang = .ok (ctx', tracks')) :
    ctx'.delayVals = ctx.delayVals ∧ DelaysFrom env.subtitleDelayMs ctx.delayVals tracks' := by
  obtain ⟨entries, count, ctx₁, index, -, hattach, rfl, rfl⟩ := parseTrack_ok h
  have hvals := attachStream_delayVals hattach
  refine ⟨hvals, ?_⟩
  unfold DelaysFrom at hdelays ⊢
  rw [List.length_append, List.length_singleton, List.range_succ, List.map_append,
    List.map_append, hdelays]
  rfl

/-- Track `i` of every run of the track loop gets `delay_vals[i]` below `delay_count` and the
global delay above it. -/
theorem ctxParseTracks_effectiveDelay {env : TrackEnv} (toks langs : List (List Char))
    {ctx ctx' : MuxCtx} {tracks' : List SubTrack}
    (h : ctxParseTracks env ctx [] toks langs = .ok (ctx', tracks')) :
    DelaysFrom env.subtitleDelayMs ctx.delayVals tracks' := by
  have hrun := ctxParseTracks_inv
    (fun ctx₁ tracks ↦ ctx₁.delayVals = ctx.delayVals ∧
      DelaysFrom env.subtitleDelayMs ctx.delayVals tracks)
    (fun ctx₁ tracks tok tokLang ctx₂ tracks₂ hP hstep ↦ by
      obtain ⟨hvals, hdelays⟩ := hP
      rw [← hvals] at hdelays ⊢
      exact parseTrack_delaysFrom hdelays hstep)
  have hinit : ctx.delayVals = ctx.delayVals ∧ DelaysFrom env.subtitleDelayMs ctx.delayVals [] :=
    ⟨rfl, rfl⟩
  exact (hrun toks langs hinit h).2

/-! ### `apply_custom_pids` and the end of the setup -/

/-- The failures of `apply_custom_pids`. -/
inductive PidAssignError where
  | noTracks
  | parse (e : PidError)
  | autoIncrementOverflow (first : ℤ)
  | countMismatch (count ntracks : ℕ)
  | inUse (pid : ℤ)
  deriving DecidableEq, Repr

/-- The return code. -/
def PidAssignError.code : PidAssignError → ℤ
  | .noTracks => -1
  | .parse e => e.code
  | .autoIncrementOverflow _ | .countMismatch _ _ | .inUse _ => 1

/-- The text written to `errmsg`. -/
def PidAssignError.message : PidAssignError → String
  | .noTracks => "No subtitle tracks available for PID assignment"
  | .parse e => e.message
  | .autoIncrementOverflow first =>
    "Auto-increment from PID " ++ toString first ++ " would exceed maximum (8186)"
  | .countMismatch count ntracks =>
    "PID count (" ++ toString count ++ ") must match track count (" ++ toString ntracks ++
      ") or be a single value for auto-increment"
  | .inUse pid =>
    "PID " ++ toString pid ++ " is already in use by an existing audio or video stream"

/-- The PIDs for the tracks: one PID counts up from itself, a list gives one per track. -/
def pidsToAssign (pids : List ℤ) (ntracks : ℕ) : Except PidAssignError (List ℤ) :=
  match pids with
  | [first] =>
    if first + ntracks > 8186 then .error (.autoIncrementOverflow first)
    else .ok ((List.range ntracks).map fun i ↦ first + i)
  | _ => if pids.length = ntracks then .ok pids else .error (.countMismatch pids.length ntracks)

/-- The first output stream of no track whose positive PID is to be assigned. -/
def pidConflict (ctx : MuxCtx) (tracks : List SubTrack) (assign : List ℤ) : Option ℤ :=
  (ctx.streams.zipIdx.find? fun entry ↦
    !(tracks.any (·.stream == entry.2)) && entry.1.id > 0 && assign.contains entry.1.id).map
    (·.1.id)

/-- The loop that writes the PIDs to the streams of the tracks. -/
def assignPids (ctx : MuxCtx) (tracks : List SubTrack) (assign : List ℤ) : MuxCtx :=
  (tracks.zip assign).foldl (fun ctx entry ↦ ctx.setStreamId entry.1.stream entry.2) ctx

/-- `apply_custom_pids(tracks, ntracks, out_fmt, pid_str, errmsg)`. -/
def applyCustomPids (tracks : List SubTrack) (ctx : MuxCtx) (pidStr : Option (List Char)) :
    Except PidAssignError MuxCtx :=
  match pidStr with
  | none | some [] => .ok ctx
  | some s =>
    if tracks = [] then .error .noTracks
    else
      match parsePidList s with
      | .error e => .error (.parse e)
      | .ok pids =>
        match pidsToAssign pids tracks.length with
        | .error e => .error e
        | .ok assign =>
          match pidConflict ctx tracks assign with
          | some pid => .error (.inUse pid)
          | none => .ok (assignPids ctx tracks assign)

/-- The check after the flags are applied: tracks of one language differ in a flag. -/
def FlagsDistinguishLangs (tracks : List SubTrack) : Prop :=
  tracks.Pairwise fun a b ↦ a.lang = b.lang → a.forced ≠ b.forced ∨ a.hi ≠ b.hi

instance (tracks : List SubTrack) : Decidable (FlagsDistinguishLangs tracks) :=
  inferInstanceAs (Decidable (List.Pairwise _ tracks))

/-- The loop that copies the parsed flag arrays to the tracks. -/
def applyFlags (forcedFlags hiFlags : List ℤ) (tracks : List SubTrack) : List SubTrack :=
  tracks.mapIdx fun i t ↦ { t with forced := forcedFlags.getD i 0, hi := hiFlags.getD i 0 }

/-- The environment `srt2dvbsub_run_cli` gives `ctx_parse_tracks`: the flag arrays are
`{0}`. -/
def TrackEnv.ofRun (av : AvUtil) (ops : CueTextOps)
    (readLines : List Char → Option (List (List Char))) (opts : CliOptions) (info : VideoInfo) :
    TrackEnv :=
  ⟨av, ops, readLines, opts.useAss, info.videoW, info.videoH, opts.subtitleDelayMs, opts.pidList,
    List.replicate 8 0, List.replicate 8 0⟩

/-- `srt2dvbsub_run_cli` from `ctx_parse_tracks` to the check of duplicate languages. -/
def runTrackSetup (env : TrackEnv) (opts : CliOptions) (ctx : MuxCtx) :
    Except ℤ (MuxCtx × List SubTrack) :=
  match ctxParseTracks env ctx [] (commaTokens (opts.srtList.getD []))
      (commaTokens (opts.langList.getD [])) with
  | .error code => .error code
  | .ok (ctx, tracks) =>
    match applyCustomPids tracks ctx opts.pidList with
    | .error e => .error e.code
    | .ok ctx =>
      match parseFlagList opts.forcedList tracks.length 8,
          parseFlagList opts.hiList tracks.length 8 with
      | some forcedFlags, some hiFlags =>
        let tracks := applyFlags forcedFlags hiFlags tracks
        if FlagsDistinguishLangs tracks then .ok (ctx, tracks) else .error 1
      | _, _ => .error 1

/-- The setup of the encoding run from the parsed options and the opened input: `ctx_init`,
then the tracks. -/
def streamSetup (av : AvUtil) (ops : CueTextOps)
    (readLines : List Char → Option (List (List Char))) (opts : CliOptions) (input : InputFile) :
    Except ℤ (MuxCtx × List SubTrack) := do
  let (ctx, info) ← ctxInit av opts input
  runTrackSetup (TrackEnv.ofRun av ops readLines opts info) opts ctx

/-! ### The steps of a setup -/

theorem runTrackSetup_ok {env : TrackEnv} {opts : CliOptions} {ctx ctx' : MuxCtx}
    {tracks' : List SubTrack} (h : runTrackSetup env opts ctx = .ok (ctx', tracks')) :
    ∃ ctx₁ tracks₁ forcedFlags hiFlags,
      ctxParseTracks env ctx [] (commaTokens (opts.srtList.getD []))
          (commaTokens (opts.langList.getD [])) = .ok (ctx₁, tracks₁) ∧
        applyCustomPids tracks₁ ctx₁ opts.pidList = .ok ctx' ∧
        parseFlagList opts.forcedList tracks₁.length 8 = some forcedFlags ∧
        parseFlagList opts.hiList tracks₁.length 8 = some hiFlags ∧
        tracks' = applyFlags forcedFlags hiFlags tracks₁ := by
  unfold runTrackSetup at h
  split at h
  · cases h
  · rename_i ctx₁ tracks₁ hloop
    split at h
    · cases h
    · rename_i ctx₂ hpids
      split at h
      · rename_i forcedFlags hiFlags hforced hhi
        dsimp only at h
        split_ifs at h
        cases h
        exact ⟨ctx₁, tracks₁, forcedFlags, hiFlags, hloop, hpids, hforced, hhi, rfl⟩
      · cases h

theorem streamSetup_ok {av : AvUtil} {ops : CueTextOps}
    {readLines : List Char → Option (List (List Char))} {opts : CliOptions} {input : InputFile}
    {ctx : MuxCtx} {tracks : List SubTrack}
    (h : streamSetup av ops readLines opts input = .ok (ctx, tracks)) :
    ∃ ctx₀ info, ctxInit av opts input = .ok (ctx₀, info) ∧
      runTrackSetup (TrackEnv.ofRun av ops readLines opts info) opts ctx₀ = .ok (ctx, tracks) := by
  obtain ⟨⟨ctx₀, info⟩, hinit, hrun⟩ := Lib.except_bind_eq_ok.mp h
  exact ⟨ctx₀, info, hinit, hrun⟩

theorem applyFlags_effectiveDelay (forcedFlags hiFlags : List ℤ) (tracks : List SubTrack) :
    (applyFlags forcedFlags hiFlags tracks).map (·.effectiveDelayMs) =
      tracks.map (·.effectiveDelayMs) := by
  refine List.ext_getElem (by simp [applyFlags]) fun i h₁ h₂ ↦ ?_
  simp [applyFlags]

/-- After the copy, track `i` holds the `i`-th parsed flags. -/
theorem applyFlags_flags (forcedFlags hiFlags : List ℤ) (tracks : List SubTrack) :
    (applyFlags forcedFlags hiFlags tracks).map (fun t ↦ (t.forced, t.hi)) =
      (List.range tracks.length).map fun i ↦ (forcedFlags.getD i 0, hiFlags.getD i 0) := by
  refine List.ext_getElem (by simp [applyFlags]) fun i h₁ h₂ ↦ ?_
  simp [applyFlags]

/-! ### Delays -/

theorem preserveInputPid_delayVals (ctx : MuxCtx) (outIndex : ℕ) (inSt : InStream) :
    (preserveInputPid ctx outIndex inSt).delayVals = ctx.delayVals := by
  unfold preserveInputPid
  split_ifs <;> rfl

theorem mirrorStream_delayVals (av : AvUtil) (ctx : MuxCtx) (i : ℕ) (inSt : InStream) :
    (mirrorStream av ctx i inSt).delayVals = ctx.delayVals := by
  unfold mirrorStream
  dsimp only
  split_ifs
  · split
    · split_ifs <;> simp only [preserveInputPid_delayVals]
    · simp only [preserveInputPid_delayVals]
  · simp only [preserveInputPid_delayVals]

theorem mirrorStreams_delayVals (av : AvUtil) :
    ∀ (ctx : MuxCtx) (i : ℕ) (inputs : List InStream),
      (mirrorStreams av ctx i inputs).delayVals = ctx.delayVals
  | _, _, [] => rfl
  | ctx, i, inSt :: rest => by
    rw [mirrorStreams, mirrorStreams_delayVals, mirrorStream_delayVals]

/-- `ctx_init` keeps no delay list without `--delay`, and the values of `parse_delay_list`
with it. -/
theorem ctxInit_delayVals {av : AvUtil} {opts : CliOptions} {input : InputFile} {ctx : MuxCtx}
    {info : VideoInfo} (h : ctxInit av opts input = .ok (ctx, info)) :
    (opts.subtitleDelayList = none ∧ ctx.delayVals = []) ∨
      ∃ s, opts.subtitleDelayList = some s ∧ parseDelayList s = .ok ctx.delayVals := by
  unfold ctxInit at h
  dsimp only at h
  split_ifs at h
  split at h
  · rename_i hnone
    cases h
    exact Or.inl ⟨hnone, mirrorStreams_delayVals _ _ _ _⟩
  · rename_i s hsome
    split at h
    · cases h
    · rename_i delayVals hparse
      cases h
      exact Or.inr ⟨s, hsome, hparse⟩

/-- Every track of a run of `srt2dvbsub` gets the global delay: the per-track list that
`ctx_parse_tracks` would read has passed `parse_single_delay` in `cli_parse`, so it holds
that delay alone. -/
theorem streamSetup_effectiveDelay_global (av : AvUtil) (ops : CueTextOps)
    (readLines : List Char → Option (List (List Char))) {options : List CliOption}
    {operands : List (List Char)} {opts : CliOptions} {input : InputFile} {ctx : MuxCtx}
    {tracks : List SubTrack} (hcli : cliParse options operands = .ok opts)
    (hrun : streamSetup av ops readLines opts input = .ok (ctx, tracks)) :
    ∀ t ∈ tracks, t.effectiveDelayMs = opts.subtitleDelayMs := by
  obtain ⟨ctx₀, info, hinit, hsetup⟩ := streamSetup_ok hrun
  obtain ⟨ctx₁, tracks₁, forcedFlags, hiFlags, hloop, -, -, -, rfl⟩ := runTrackSetup_ok hsetup
  have hdelays : DelaysFrom opts.subtitleDelayMs ctx₀.delayVals tracks₁ :=
    ctxParseTracks_effectiveDelay _ _ hloop
  have hconst : ∀ n, cliTrackDelay opts.subtitleDelayMs ctx₀.delayVals n = opts.subtitleDelayMs := by
    rcases ctxInit_delayVals hinit with ⟨-, hnil⟩ | ⟨s, hs, hparse⟩
    · intro n
      rw [cliTrackDelay, hnil, List.getD_nil]
    · have hsingle := cliParse_delayAgrees hcli s (by rw [hs]; rfl)
      rw [hparse] at hsingle
      have hvals : ctx₀.delayVals = [opts.subtitleDelayMs] := Except.ok.inj hsingle
      intro n
      rw [cliTrackDelay, hvals]
      exact Lib.getD_replicate_self 1 n _
  intro t ht
  have hmem : t.effectiveDelayMs ∈ tracks₁.map (·.effectiveDelayMs) := by
    rw [← applyFlags_effectiveDelay forcedFlags hiFlags]
    exact List.mem_map_of_mem ht
  rw [hdelays, List.mem_map] at hmem
  obtain ⟨n, -, hn⟩ := hmem
  rw [← hn, hconst]

theorem streamSetup_effectiveDelay_twoTracks :
    let options : List CliOption := [.input "in.ts".toList, .output "out.ts".toList,
      .srt "a.srt,b.srt".toList, .languages "eng,deu".toList, .delay "150".toList]
    let ops : CueTextOps := ⟨fun text _ ↦ text, fun text ↦ (text, 0), fun _ _ _ ↦ 0⟩
    let input : InputFile := ⟨[⟨.video, 256, [], 720, 576, none, (1, 90000)⟩], 1, none⟩
    ∃ opts ctx tracks, cliParse options [] = .ok opts ∧
      streamSetup AvUtil.entries ops (fun _ ↦ some []) opts input = .ok (ctx, tracks) ∧
      ∀ t ∈ tracks, t.effectiveDelayMs = opts.subtitleDelayMs := by
  intro options ops input
  refine ⟨_, _, _, rfl, rfl, ?_⟩
  exact @streamSetup_effectiveDelay_global AvUtil.entries ops (fun _ ↦ some []) options [] _
    input _ _ rfl rfl

/-! ### Stream metadata -/

/-- A dictionary without a `forced` and a `hearing_impaired` entry. -/
def NoFlagEntry (av : AvUtil) (m : Dict) : Prop :=
  av.dictGet m "forced".toList = none ∧ av.dictGet m "hearing_impaired".toList = none

theorem noFlagEntry_nil (av : AvUtil) : NoFlagEntry av [] :=
  ⟨av.dictGet_nil _, av.dictGet_nil _⟩

theorem NoFlagEntry.dictSet_language {av : AvUtil} {m : Dict} (hm : NoFlagEntry av m)
    (lang : List Char) : NoFlagEntry av (av.dictSet m "language".toList lang) := by
  unfold NoFlagEntry
  rw [av.dictGet_dictSet_of_ne _ _ _ _ (by decide), av.dictGet_dictSet_of_ne _ _ _ _ (by decide)]
  exact hm

/-- The metadata a track with both flags clear writes is its language alone. -/
theorem trackMetadata_zero (av : AvUtil) (lang : List Char) (m : Dict) :
    trackMetadata av lang 0 0 m = av.dictSet m "language".toList lang := by
  simp [trackMetadata]

/-- No output stream carries a flag entry. -/
def StreamsWithoutFlags (av : AvUtil) (ctx : MuxCtx) : Prop :=
  ∀ st ∈ ctx.streams, NoFlagEntry av st.metadata

section Flags

variable {av : AvUtil}

theorem StreamsWithoutFlags.setStreamId {ctx : MuxCtx} (h : StreamsWithoutFlags av ctx)
    (index : ℕ) (pid : ℤ) : StreamsWithoutFlags av (ctx.setStreamId index pid) :=
  Lib.forall_mem_modify (P := fun st : OutStream ↦ NoFlagEntry av st.metadata)
    (f := fun st ↦ { st with id := pid }) (fun _ hst ↦ hst) index h

theorem StreamsWithoutFlags.append {ctx : MuxCtx} (h : StreamsWithoutFlags av ctx)
    (st : OutStream) (hst : NoFlagEntry av st.metadata) :
    StreamsWithoutFlags av { ctx with streams := ctx.streams ++ [st] } := by
  intro s hs
  rcases List.mem_append.mp hs with hs | hs
  · exact h s hs
  · rw [List.mem_singleton.mp hs]
    exact hst

theorem preserveInputPid_withoutFlags {ctx : MuxCtx} (h : StreamsWithoutFlags av ctx)
    (outIndex : ℕ) (inSt : InStream) :
    StreamsWithoutFlags av (preserveInputPid ctx outIndex inSt) := by
  unfold preserveInputPid
  by_cases hpreserve : ctx.preservePids = true ∧ inSt.id > 0
  · rw [if_pos hpreserve]
    exact h.setStreamId outIndex inSt.id
  · rw [if_neg hpreserve]
    exact h

theorem mirrorStream_withoutFlags {ctx : MuxCtx} (h : StreamsWithoutFlags av ctx) (i : ℕ)
    {inSt : InStream} (hin : NoFlagEntry av inSt.metadata) :
    StreamsWithoutFlags av (mirrorStream av ctx i inSt) := by
  have happ := h.append ⟨0, inSt.metadata⟩ hin
  unfold mirrorStream
  dsimp only
  split_ifs
  · split
    · split_ifs
      · refine preserveInputPid_withoutFlags ?_ _ _
        exact happ
      · exact happ
      · exact preserveInputPid_withoutFlags happ _ _
    · exact preserveInputPid_withoutFlags happ _ _
  · exact preserveInputPid_withoutFlags happ _ _

theorem mirrorStreams_withoutFlags :
    ∀ {ctx : MuxCtx} (i : ℕ) {inputs : List InStream}, StreamsWithoutFlags av ctx →
      (∀ inSt ∈ inputs, NoFlagEntry av inSt.metadata) →
      StreamsWithoutFlags av (mirrorStreams av ctx i inputs)
  | _, _, [], h, _ => h
  | _, i, inSt :: _, h, hin =>
    mirrorStreams_withoutFlags (i + 1)
      (mirrorStream_withoutFlags h i (hin inSt List.mem_cons_self))
      fun st hst ↦ hin st (List.mem_cons_of_mem inSt hst)

theorem ctxInit_withoutFlags {opts : CliOptions} {input : InputFile} {ctx : MuxCtx}
    {info : VideoInfo} (hin : ∀ inSt ∈ input.streams, NoFlagEntry av inSt.metadata)
    (h : ctxInit av opts input = .ok (ctx, info)) : StreamsWithoutFlags av ctx := by
  have hmirror : StreamsWithoutFlags av (mirrorStreams av (MuxCtx.init opts) 0 input.streams) :=
    mirrorStreams_withoutFlags 0 (fun _ hst ↦ absurd hst List.not_mem_nil) hin
  unfold ctxInit at h
  dsimp only at h
  split_ifs at h
  split at h
  · cases h
    exact hmirror
  · split at h
    · cases h
    · cases h
      exact hmirror

theorem attachStream_withoutFlags {env : TrackEnv} {ctx ctx' : MuxCtx} {lang : List Char}
    {index : ℕ} (hctx : StreamsWithoutFlags av ctx)
    (h : attachStream env ctx lang = .ok (ctx', index)) : StreamsWithoutFlags av ctx' := by
  unfold attachStream at h
  split at h
  · cases h
    split_ifs
    · exact hctx.setStreamId _ _
    · exact hctx
  · have happ := hctx.append ⟨0, []⟩ (noFlagEntry_nil av)
    dsimp only at h
    split_ifs at h <;> cases h
    · exact happ.setStreamId _ _
    · exact happ.setStreamId _ _
    · exact happ

/-- A track loop given flag arrays of zeros writes no flag entry. -/
theorem parseTrack_withoutFlags {env : TrackEnv} {ctx ctx' : MuxCtx}
    {tracks tracks' : List SubTrack} {tok tokLang : List Char}
    (hzero : ∀ n, env.forcedFlags.getD n 0 = 0 ∧ env.hiFlags.getD n 0 = 0)
    (hctx : StreamsWithoutFlags env.av ctx)
    (h : parseTrack env ctx tracks tok tokLang = .ok (ctx', tracks')) :
    StreamsWithoutFlags env.av ctx' := by
  obtain ⟨entries, count, ctx₁, index, -, hattach, rfl, -⟩ := parseTrack_ok h
  obtain ⟨hforced, hhi⟩ := hzero tracks.length
  rw [hforced, hhi]
  refine Lib.forall_mem_modify (fun st hst ↦ ?_) index (attachStream_withoutFlags hctx hattach)
  show NoFlagEntry env.av (trackMetadata env.av _ 0 0 st.metadata)
  rw [trackMetadata_zero]
  exact hst.dictSet_language _

theorem applyCustomPids_withoutFlags {tracks : List SubTrack} {ctx ctx' : MuxCtx}
    {pidStr : Option (List Char)} (hctx : StreamsWithoutFlags av ctx)
    (h : applyCustomPids tracks ctx pidStr = .ok ctx') : StreamsWithoutFlags av ctx' := by
  have hassign : ∀ assign, StreamsWithoutFlags av (assignPids ctx tracks assign) := fun assign ↦
    List.foldlRecOn (motive := StreamsWithoutFlags av) _ _ hctx
      fun c hc entry _ ↦ hc.setStreamId entry.1.stream entry.2
  unfold applyCustomPids at h
  split at h
  · cases h
    exact hctx
  · cases h
    exact hctx
  · split_ifs at h
    split at h
    · cases h
    · split at h
      · cases h
      · split at h
        · cases h
        · cases h
          exact hassign _

end Flags

/-- `--forced` and `--hi` never reach the streams. The tracks hold the flags parsed from the
lists, but `ctx_parse_tracks` wrote the stream metadata from the arrays of zeros it was given,
so a run on an input without such entries ends with none on any stream, whatever the
lists. -/
theorem streamSetup_flagsNotOnStreams (av : AvUtil) (ops : CueTextOps)
    (readLines : List Char → Option (List (List Char))) {opts : CliOptions}
    {input : InputFile} {ctx : MuxCtx} {tracks : List SubTrack}
    (hin : ∀ inSt ∈ input.streams, NoFlagEntry av inSt.metadata)
    (hrun : streamSetup av ops readLines opts input = .ok (ctx, tracks)) :
    (∃ forcedFlags hiFlags,
      parseFlagList opts.forcedList tracks.length 8 = some forcedFlags ∧
        parseFlagList opts.hiList tracks.length 8 = some hiFlags ∧
        tracks.map (fun t ↦ (t.forced, t.hi)) =
          (List.range tracks.length).map fun i ↦ (forcedFlags.getD i 0, hiFlags.getD i 0)) ∧
      ∀ st ∈ ctx.streams, NoFlagEntry av st.metadata := by
  obtain ⟨ctx₀, info, hinit, hsetup⟩ := streamSetup_ok hrun
  obtain ⟨ctx₁, tracks₁, forcedFlags, hiFlags, hloop, hpids, hforced, hhi, rfl⟩ :=
    runTrackSetup_ok hsetup
  have hlength : (applyFlags forcedFlags hiFlags tracks₁).length = tracks₁.length := by
    simp [applyFlags]
  refine ⟨⟨forcedFlags, hiFlags, ?_, ?_, ?_⟩, ?_⟩
  · rw [hlength]
    exact hforced
  · rw [hlength]
    exact hhi
  · rw [hlength]
    exact applyFlags_flags forcedFlags hiFlags tracks₁
  · have hzero : ∀ n, (TrackEnv.ofRun av ops readLines opts info).forcedFlags.getD n 0 = 0 ∧
        (TrackEnv.ofRun av ops readLines opts info).hiFlags.getD n 0 = 0 :=
      fun n ↦ ⟨Lib.getD_replicate_self 8 n 0, Lib.getD_replicate_self 8 n 0⟩
    have hloopFlags : StreamsWithoutFlags av ctx₁ :=
      ctxParseTracks_inv (fun c _ ↦ StreamsWithoutFlags av c)
        (fun _ _ _ _ _ _ hc hstep ↦ parseTrack_withoutFlags hzero hc hstep) _ _
        (ctxInit_withoutFlags hin hinit) hloop
    exact applyCustomPids_withoutFlags hloopFlags hpids

theorem streamSetup_flagsNotOnStreams_forcedHi :
    let options : List CliOption := [.input "in.ts".toList, .output "out.ts".toList,
      .srt "a.srt,b.srt".toList, .languages "eng,eng".toList, .forced "1,0".toList,
      .hi "0,1".toList]
    let ops : CueTextOps := ⟨fun text _ ↦ text, fun text ↦ (text, 0), fun _ _ _ ↦ 0⟩
    let input : InputFile := ⟨[⟨.video, 256, [], 720, 576, none, (1, 90000)⟩], 1, none⟩
    ∃ opts ctx tracks, cliParse options [] = .ok opts ∧
      (∀ inSt ∈ input.streams, NoFlagEntry AvUtil.entries inSt.metadata) ∧
      streamSetup AvUtil.entries ops (fun _ ↦ some []) opts input = .ok (ctx, tracks) ∧
      (∃ forcedFlags hiFlags,
        parseFlagList opts.forcedList tracks.length 8 = some forcedFlags ∧
          parseFlagList opts.hiList tracks.length 8 = some hiFlags ∧
          tracks.map (fun t ↦ (t.forced, t.hi)) =
            (List.range tracks.length).map fun i ↦ (forcedFlags.getD i 0, hiFlags.getD i 0)) ∧
      ∀ st ∈ ctx.streams, NoFlagEntry AvUtil.entries st.metadata := by
  intro options ops input
  have hin : ∀ inSt ∈ input.streams, NoFlagEntry AvUtil.entries inSt.metadata := by
    intro inSt hmem
    rw [List.mem_singleton.mp hmem]
    exact noFlagEntry_nil AvUtil.entries
  refine ⟨_, _, _, rfl, hin, rfl, ?_⟩
  exact @streamSetup_flagsNotOnStreams AvUtil.entries ops (fun _ ↦ some []) _ input _ _ hin rfl

/-- A run with `--forced 1` for its one track, whatever libavutil does within its laws: the
track holds the flag, while its stream has the track's language and no `forced` entry. -/
theorem streamSetup_forcedFlagOnTrackOnly (av : AvUtil) (ops : CueTextOps) :
    let input : InputFile := ⟨[⟨.video, 256, [], 720, 576, none, (1, 90000)⟩], 1, none⟩
    ∃ opts, cliParse [.input "in.ts".toList, .output "out.ts".toList, .srt "a.srt".toList,
        .languages "eng".toList, .forced "1".toList] [] = .ok opts ∧
      (streamSetup av ops (fun _ ↦ some []) opts input).map
          (fun r ↦ r.2.map fun t ↦ (t.forced,
            av.dictGet (r.1.streams.getD t.stream ⟨0, []⟩).metadata "language".toList,
            av.dictGet (r.1.streams.getD t.stream ⟨0, []⟩).metadata "forced".toList)) =
        .ok [(1, some "eng".toList, none)] := by
  intro input
  refine ⟨_, rfl, ?_⟩
  show Except.ok [(1, av.dictGet (av.dictSet [] "language".toList "eng".toList) "language".toList,
    av.dictGet (av.dictSet [] "language".toList "eng".toList) "forced".toList)] = _
  rw [av.dictGet_dictSet_self, av.dictGet_dictSet_of_ne _ _ _ _ (by decide), av.dictGet_nil]

/-! ### PIDs -/

/-- A run with PID preservation and `--overwrite deu` on an input whose subtitle stream is
English: the filter's `continue` skips the PID copy, so the mirrored subtitle stream loses
PID 300, and the new track gets 257, below it. -/
theorem streamSetup_filteredSubtitleLosesPid (av : AvUtil) (ops : CueTextOps) :
    let input : InputFile := ⟨[⟨.video, 256, [], 720, 576, none, (1, 90000)⟩,
      ⟨.subtitle, 300, av.dictSet [] "language".toList "eng".toList, 0, 0, none, (1, 90000)⟩], 1,
      none⟩
    ∃ opts, cliParse [.input "in.ts".toList, .output "out.ts".toList, .srt "a.srt".toList,
        .languages "eng".toList, .overwrite "deu".toList] [] = .ok opts ∧
      (streamSetup av ops (fun _ ↦ some []) opts input).map
          (fun r ↦ (r.1.streams.map (·.id), r.2.map (·.stream))) = .ok ([256, 0, 257], [2]) := by
  intro input
  refine ⟨_, rfl, ?_⟩
  have hlang := av.dictGet_dictSet_self [] "language".toList "eng".toList
  simp only [streamSetup, ctxInit, input, mirrorStreams, mirrorStream, hlang]
  rfl

/-- A single `--pid` value `p` for `n` tracks assigns `p, ..., p + n - 1`, but the check refuses
`p + n > 8186`. The block that ends at 8186, the largest PID `parse_pid_list` accepts, is
refused whatever the streams, although each of its PIDs is in range. -/
theorem applyCustomPids_rejectsTopBlock {tracks : List SubTrack} {ctx : MuxCtx}
    {pidStr : List Char} {p : ℤ} (htracks : tracks ≠ []) (hparse : parsePidList pidStr = .ok [p])
    (htop : p + tracks.length = 8187) :
    (∀ i < tracks.length, 32 ≤ p + i ∧ p + i ≤ 8186) ∧
      applyCustomPids tracks ctx (some pidStr) = .error (.autoIncrementOverflow p) := by
  have hp : 32 ≤ p ∧ p ≤ 8186 := (parsePidList_ok hparse).1 p List.mem_cons_self
  refine ⟨fun i hi ↦ ⟨by omega, by omega⟩, ?_⟩
  cases pidStr with
  | nil => cases hparse
  | cons c rest =>
    have hover : p + (tracks.length : ℤ) > 8186 := by omega
    simp [applyCustomPids, htracks, hparse, pidsToAssign, hover]

theorem applyCustomPids_rejectsTopBlock_oneTrack :
    let tracks : List SubTrack := [⟨"eng".toList, "a.srt".toList, 0, 0, 0, [], 0, 1⟩]
    let ctx : MuxCtx := ⟨false, 0, false, none, [], [⟨256, []⟩, ⟨0, []⟩], []⟩
    tracks ≠ [] ∧ parsePidList "8186".toList = .ok [8186] ∧ (8186 : ℤ) + tracks.length = 8187 ∧
      (∀ i < tracks.length, 32 ≤ (8186 : ℤ) + i ∧ (8186 : ℤ) + i ≤ 8186) ∧
        applyCustomPids tracks ctx (some "8186".toList) = .error (.autoIncrementOverflow 8186) := by
  intro tracks ctx
  have hparse : parsePidList "8186".toList = .ok [8186] := by decide
  have htop : (8186 : ℤ) + tracks.length = 8187 := rfl
  exact ⟨List.cons_ne_nil _ _, hparse, htop,
    applyCustomPids_rejectsTopBlock (List.cons_ne_nil _ _) hparse htop⟩

end Srt2Dvbsub.Mux
