import Srt2Dvbsub.CLib.Scan

/-!
# The per-track list options

`--delay`, `--languages`, `--forced`, `--hi`, `--pid` and `--sub-position` each take a list
with one entry per subtitle track. Their parsers all split the argument with `strtok_r` and
trim each field with `trim_string_inplace`: `parse_single_delay` and `parse_delay_list`
(`delay_parse.c`), `validate_language_list` and `parse_language_list` (`lang_parse.c`, with
`is_valid_dvb_lang` of `dvb_lang.c`), `parse_flag_list` (`srt2dvbsub.c`), `parse_pid_list`
and `parse_subtitle_positions` (`utils.c`). The model follows each loop field by field, with the
return codes and the texts of the error messages.

Each parser reads its argument only through the tokens of `strtok_r`, which never returns
an empty token (`CLib.mem_strtokAll_ne_nil`). The branches for an empty field ("consecutive
commas or leading/trailing comma", `idx++` for an empty flag, "Empty track position
specification") fire only for a field of blanks. `parseDelayList_insert_empty` and
`parseFlagList_insert_empty` and their kin show what an empty field between two separators
does: nothing, the fields after it moving one track forward.

`parse_subtitle_positions` converts its margins with `strtod` and compares `double`s; both
come from the C library and are the fields of `DoubleModel`.
-/

set_option autoImplicit false
set_option relaxedAutoImplicit false

namespace Srt2Dvbsub.Cli

open CLib

/-- `trim_string_inplace`: the field without its leading and trailing whitespace. The helpers
`trim_string` of `delay_parse.c` and `lang_parse.c` return it unchanged. -/
def trimStringInplace (s : List Char) : List Char :=
  trimBoth isspace s

/-- The comma-separated fields `strtok_r(copy, ",", &saveptr)` yields. -/
def commaTokens (s : List Char) : List (List Char) :=
  strtokAll (· == ',') s

/-! ### `parse_single_delay` and `parse_delay_list` -/

/-- `-EINVAL`. -/
def EINVAL : ℤ := 22

/-- `-ERANGE`. -/
def ERANGE : ℤ := 34

/-- `-ENOTSUP`. -/
def ENOTSUP : ℤ := 95

/-- The failures of the delay parsers. -/
inductive DelayError where
  | empty
  | outOfRange (str : List Char)
  | invalid (str trimmed : List Char)
  | emptyEntry (position : ℕ)
  | entryParse (position : ℕ) (inner : DelayError)
  deriving DecidableEq, Repr

/-- The return code of a failure. -/
def DelayError.code : DelayError → ℤ
  | .empty | .invalid _ _ | .emptyEntry _ => -EINVAL
  | .outOfRange _ => -ERANGE
  | .entryParse _ inner => inner.code

/-- The text written to `errmsg`. -/
def DelayError.message : DelayError → String
  | .empty => "Empty delay value"
  | .outOfRange str =>
    "Delay value out of range: '" ++ String.ofList str ++ "' (exceeds int limits)"
  | .invalid str trimmed =>
    "Invalid delay value: '" ++ String.ofList str ++ "' (expected milliseconds, got '" ++
      String.ofList trimmed ++ "')"
  | .emptyEntry position =>
    "Empty delay entry at position " ++ toString position ++
      " (consecutive commas or leading/trailing comma)"
  | .entryParse position inner =>
    "Delay entry " ++ toString position ++ " parse error: " ++ inner.message

/-- `parse_single_delay(str, &delay, errmsg)`: the delay, or the failure. -/
def parseSingleDelay (str : List Char) : Except DelayError ℤ :=
  let trimmed := trimStringInplace str
  if trimmed = [] then .error .empty
  else
    let r := strtol trimmed
    if r.erange then .error (.outOfRange str)
    else if r.endptr = trimmed ∨ r.endptr ≠ [] then .error (.invalid str trimmed)
    else if r.value < INT_MIN ∨ INT_MAX < r.value then .error (.outOfRange str)
    else .ok r.value

theorem trimStringInplace_idem (s : List Char) :
    trimStringInplace (trimStringInplace s) = trimStringInplace s :=
  trimBoth_idem s

/-- What `parse_single_delay` accepts: a trimmed argument that `strtol` reads to its end,
without `ERANGE`, to a value in the range of `int`. -/
theorem parseSingleDelay_eq_ok {str : List Char} {v : ℤ} :
    parseSingleDelay str = .ok v ↔
      trimStringInplace str ≠ [] ∧ (strtol (trimStringInplace str)).erange = false ∧
        (strtol (trimStringInplace str)).endptr ≠ trimStringInplace str ∧
        (strtol (trimStringInplace str)).endptr = [] ∧
        INT_MIN ≤ (strtol (trimStringInplace str)).value ∧
        (strtol (trimStringInplace str)).value ≤ INT_MAX ∧
        (strtol (trimStringInplace str)).value = v := by
  unfold parseSingleDelay
  dsimp only
  split_ifs with htrim herange hend hrange
  · simp [htrim]
  · simp [herange]
  · simp only [false_iff, not_and]
    intro _ _ hne hnil
    rcases hend with h | h
    · exact absurd h hne
    · exact absurd hnil h
  · simp only [false_iff, not_and]
    intro _ _ _ _ hlo hhi
    omega
  · obtain ⟨hne, hnil⟩ := not_or.mp hend
    obtain ⟨hlo, hhi⟩ := not_or.mp hrange
    simp only [Except.ok.injEq]
    constructor
    · rintro rfl
      exact ⟨htrim, by simpa using herange, hne, not_not.mp hnil, Int.not_lt.mp hlo, Int.not_lt.mp hhi,
        rfl⟩
    · rintro ⟨-, -, -, -, -, -, rfl⟩
      rfl

/-- The loop of `parse_delay_list` over the fields, counting `entry_index` from `position`. -/
def parseDelayFields : ℕ → List (List Char) → Except DelayError (List ℤ)
  | _, [] => .ok []
  | position, token :: rest =>
    let trimmed := trimStringInplace token
    if trimmed = [] then .error (.emptyEntry (position + 1))
    else
      match parseSingleDelay trimmed with
      | .error e => .error (.entryParse (position + 1) e)
      | .ok v =>
        match parseDelayFields (position + 1) rest with
        | .error e => .error e
        | .ok vs => .ok (v :: vs)

/-- `parse_delay_list(delay_str, &delay_vals, &delay_count, errmsg)`: the values in order. -/
def parseDelayList (delayStr : List Char) : Except DelayError (List ℤ) :=
  parseDelayFields 0 (commaTokens delayStr)

/-! ### `is_valid_dvb_lang`, `validate_language_list`, `parse_language_list` -/

/-- `isalpha` in the C locale. -/
def isalpha (c : Char) : Bool :=
  ('a' ≤ c && c ≤ 'z') || ('A' ≤ c && c ≤ 'Z')

/-- `tolower` in the C locale. -/
def tolower (c : Char) : Char :=
  if 'A' ≤ c && c ≤ 'Z' then Char.ofNat (c.toNat + 32) else c

/-- The codes of the table `dvb_langs` (the names in it are read by no modelled function). -/
def dvbLangs : List (List Char) :=
  ["eng", "deu", "fra", "spa", "ita", "por", "rus", "jpn", "zho", "kor", "nld", "swe", "dan",
    "nor", "fin", "pol", "ces", "slk", "slv", "hrv", "ron", "bul", "ukr", "bel", "est", "lav",
    "lit", "hun", "heb", "ara", "tur", "ell", "cat", "gle", "eus", "glg", "srp", "mkd", "alb",
    "hin", "tam", "tel", "pan", "urd", "vie", "tha", "ind", "msa", "sin", "khm", "lao", "mon",
    "fas"].map String.toList

/-- `is_valid_dvb_lang`: three letters whose lower case is in the table. -/
def isValidDvbLang (code : List Char) : Bool :=
  code.length == 3 && code.all isalpha && dvbLangs.contains (code.map tolower)

/-- The failures of the language list parsers, at a 1-based position. -/
inductive LangError where
  | emptyCode (position : ℕ)
  | invalidCode (position : ℕ) (code : List Char)
  deriving DecidableEq, Repr

/-- The text written to `errmsg`. -/
def LangError.message : LangError → String
  | .emptyCode position =>
    "Position " ++ toString position ++
      ": empty language code (consecutive commas or leading/trailing comma)"
  | .invalidCode position code =>
    "Position " ++ toString position ++ ": invalid language code '" ++ String.ofList code ++
      "' (must be 3-letter DVB language code)"

/-- The check `validate_language_list` and `parse_language_list` make of one field. -/
def checkLangField (position : ℕ) (token : List Char) : Except LangError (List Char) :=
  let trimmed := trimStringInplace token
  if trimmed = [] then .error (.emptyCode position)
  else if isValidDvbLang trimmed then .ok trimmed
  else .error (.invalidCode position trimmed)

/-- The loop of `validate_language_list` from `position`. -/
def validateLangFields : ℕ → List (List Char) → Except LangError Unit
  | _, [] => .ok ()
  | position, token :: rest =>
    match checkLangField (position + 1) token with
    | .error e => .error e
    | .ok _ => validateLangFields (position + 1) rest

/-- `validate_language_list(lang_str, errmsg)`: `0`, or `-EINVAL` with the failure. -/
def validateLanguageList (langStr : List Char) : Except LangError Unit :=
  validateLangFields 0 (commaTokens langStr)

/-- One entry of `parse_language_list` (`lang_entry`): the code and its position. -/
structure LangEntry where
  code : List Char
  position : ℕ
  deriving DecidableEq, Repr

/-- A code met twice: the code, the position of its first entry and the new position. -/
abbrev Duplicate := List Char × ℕ × ℕ

/-- The loop of `parse_language_list` from `position`, with the entries so far and the last
duplicate reported in `errmsg`. -/
def parseLangFields : ℕ → List LangEntry → Option Duplicate → List (List Char) →
    Except LangError (List LangEntry × Option Duplicate)
  | _, entries, dup, [] => .ok (entries, dup)
  | position, entries, dup, token :: rest =>
    match checkLangField (position + 1) token with
    | .error e => .error e
    | .ok code =>
      let dup := match entries.findIdx? (fun e ↦ e.code == code) with
        | some i => some (code, i + 1, position + 1)
        | none => dup
      parseLangFields (position + 1) (entries ++ [⟨code, position + 1⟩]) dup rest

/-- `parse_language_list(lang_str, &entries, &count, errmsg)`: the entries, and the duplicate
of the last "Duplicate language code" message; with one, the function returns `-ENOTSUP`
and keeps the entries. -/
def parseLanguageList (langStr : List Char) :
    Except LangError (List LangEntry × Option Duplicate) :=
  parseLangFields 0 [] none (commaTokens langStr)

/-! ### `parse_flag_list` -/

/-- The loop of `parse_flag_list`: each field sets the flag of the next track, a blank field
only moves to the next track, and fields beyond `track_count` are not read. -/
def parseFlagFields (flags : List ℤ) : ℕ → List (List Char) → List ℤ
  | _, [] => flags
  | idx, token :: rest =>
    if idx < flags.length then
      let trimmed := trimStringInplace token
      if trimmed = [] then parseFlagFields flags (idx + 1) rest
      else parseFlagFields (flags.set idx (if atoi trimmed ≠ 0 then 1 else 0)) (idx + 1) rest
    else flags

/-- `parse_flag_list(flag_str, track_count, flags, max_tracks)`: the first `track_count`
flags, or `none` for the `-1` return. -/
def parseFlagList (flagStr : Option (List Char)) (trackCount maxTracks : ℤ) :
    Option (List ℤ) :=
  if trackCount ≤ 0 ∨ trackCount > maxTracks then none
  else
    let flags := List.replicate trackCount.toNat 0
    match flagStr with
    | none | some [] => some flags
    | some s => some (parseFlagFields flags 0 (commaTokens s))

/-! ### `parse_pid_list` -/

/-- The failures of `parse_pid_list`. -/
inductive PidError where
  | invalid (token : List Char)
  | outOfRange (val : ℤ)
  | duplicate (val : ℤ)
  | noValues
  deriving DecidableEq, Repr

/-- The return code: `1` for a range or duplicate error, `-1` for a parse error. -/
def PidError.code : PidError → ℤ
  | .outOfRange _ | .duplicate _ => 1
  | .invalid _ | .noValues => -1

/-- The text written to `errmsg`. -/
def PidError.message : PidError → String
  | .invalid token =>
    "Invalid PID value: '" ++ String.ofList token ++ "' is not a valid integer"
  | .outOfRange val =>
    "PID value " ++ toString val ++
      " out of valid range (32-8186). Range 0-31 are reserved for system PIDs."
  | .duplicate val => "Duplicate PID value: " ++ toString val ++ " is specified multiple times"
  | .noValues => "No valid PID values parsed"

/-- The loop of `parse_pid_list`, with the PIDs so far and the capacity `max_pids` of the
array. -/
def parsePidFields (maxPids : ℕ) : List ℤ → List (List Char) → Except PidError (List ℤ)
  | pids, [] => .ok pids
  | pids, token :: rest =>
    if pids.length < maxPids then
      let token := trimStringInplace token
      let r := strtol token
      if r.erange ∨ r.endptr = token ∨ r.endptr ≠ [] then .error (.invalid token)
      else if r.value < 32 ∨ r.value > 8186 then .error (.outOfRange r.value)
      else if r.value ∈ pids then .error (.duplicate r.value)
      else parsePidFields maxPids (pids ++ [r.value]) rest
    else .ok pids

/-- `parse_pid_list(pid_str, &pids, &count, errmsg)`: the PIDs in order, at least one. -/
def parsePidList (pidStr : List Char) : Except PidError (List ℤ) :=
  match parsePidFields (pidStr.count ',' + 1) [] (commaTokens pidStr) with
  | .error e => .error e
  | .ok [] => .error .noValues
  | .ok pids => .ok pids

/-- What the loop of `parse_pid_list` keeps: every PID in `32..8186`, and no PID twice. -/
theorem parsePidFields_ok {maxPids : ℕ} :
    ∀ {pids result : List ℤ} {tokens : List (List Char)},
      (∀ v ∈ pids, 32 ≤ v ∧ v ≤ 8186) → pids.Nodup →
      parsePidFields maxPids pids tokens = .ok result →
        (∀ v ∈ result, 32 ≤ v ∧ v ≤ 8186) ∧ result.Nodup
  | _, _, [], hrange, hnodup, h => by
    cases h
    exact ⟨hrange, hnodup⟩
  | pids, _, token :: rest, hrange, hnodup, h => by
    unfold parsePidFields at h
    dsimp only at h
    split_ifs at h with hcap hinvalid hout hdup
    · have hrange' : ∀ v ∈ pids ++ [(strtol (trimStringInplace token)).value],
          32 ≤ v ∧ v ≤ 8186 := by
        intro v hv
        rcases List.mem_append.mp hv with hv | hv
        · exact hrange v hv
        · rw [List.mem_singleton.mp hv]
          omega
      have hnodup' : (pids ++ [(strtol (trimStringInplace token)).value]).Nodup := by
        refine List.nodup_append.mpr ⟨hnodup, List.pairwise_singleton _ _, ?_⟩
        intro a ha b hb heq
        rw [List.mem_singleton.mp hb] at heq
        exact hdup (heq ▸ ha)
      exact parsePidFields_ok hrange' hnodup' h
    · cases h
      exact ⟨hrange, hnodup⟩

/-- The PIDs `parse_pid_list` returns are in `32..8186` and pairwise distinct. -/
theorem parsePidList_ok {pidStr : List Char} {pids : List ℤ}
    (h : parsePidList pidStr = .ok pids) : (∀ v ∈ pids, 32 ≤ v ∧ v ≤ 8186) ∧ pids.Nodup := by
  unfold parsePidList at h
  split at h
  · cases h
  · cases h
  · next result hfields =>
    cases h
    exact parsePidFields_ok (by simp) List.nodup_nil hfields

/-! ### `parse_subtitle_positions` -/

/-- `SubtitlePosition`: the nine places of the canvas, `SUB_POS_TOP_LEFT = 1` to
`SUB_POS_BOT_RIGHT = 9`. -/
inductive SubtitlePosition where
  | topLeft | topCenter | topRight
  | midLeft | midCenter | midRight
  | botLeft | botCenter | botRight
  deriving DecidableEq, Repr

/-- What `parse_subtitle_positions` uses of the C `double`: `strtod` with its end pointer and
`errno`, and the comparison `<`. The literals of the source are read with `strtod`. -/
structure DoubleModel (D : Type) where
  /-- `strtod(part, &endptr)`: the value, the text at `endptr`, and whether `errno` was set. -/
  strtod : List Char → D × List Char × Bool
  /-- `a < b`, false when either is a NaN. -/
  lt : D → D → Bool
  /-- The text of `%.1f`. -/
  formatFixed1 : D → String

variable {D : Type}

/-- The value of a `double` literal. -/
def DoubleModel.literal (dm : DoubleModel D) (s : String) : D :=
  (dm.strtod s.toList).1

/-- `SubtitlePositionConfig`: a position and four margins in percent of the canvas. -/
structure SubtitlePositionConfig (D : Type) where
  position : SubtitlePosition
  marginTop : D
  marginLeft : D
  marginBottom : D
  marginRight : D

/-- The configuration each of the first `ntracks` tracks starts from. -/
def defaultPositionConfig (dm : DoubleModel D) : SubtitlePositionConfig D :=
  ⟨.botCenter, dm.literal "3.5", dm.literal "2", dm.literal "3.5", dm.literal "2"⟩

/-- `strcasecmp(a, b) == 0`. -/
def strcasecmpEq (a b : List Char) : Bool :=
  a.map tolower == b.map tolower

/-- The names tested in turn for each position. -/
def positionNames : List (SubtitlePosition × List String) :=
  [(.topLeft, ["top-left", "1"]), (.topCenter, ["top-center", "2"]),
    (.topRight, ["top-right", "3"]), (.midLeft, ["middle-left", "mid-left", "4"]),
    (.midCenter, ["middle-center", "mid-center", "center", "5"]),
    (.midRight, ["middle-right", "mid-right", "6"]),
    (.botLeft, ["bottom-left", "bot-left", "7"]),
    (.botCenter, ["bottom-center", "bot-center", "8"]),
    (.botRight, ["bottom-right", "bot-right", "9"])]

/-- The chain of `strcasecmp` tests on the position name. -/
def positionOfName (part : List Char) : Option SubtitlePosition :=
  (positionNames.find? fun entry ↦ entry.2.any fun name ↦ strcasecmpEq part name.toList).map
    Prod.fst

/-- The failures of `parse_subtitle_positions`, with the track and margin indices. -/
inductive PositionError (D : Type) where
  | invalidArgs
  | emptyTrack (trackIdx : ℕ)
  | invalidPosition (part : List Char) (trackIdx : ℕ)
  | invalidMargin (part : List Char) (trackIdx marginIdx : ℕ)
  | marginOutOfRange (val : D) (trackIdx marginIdx : ℕ)

/-- The return code: `1` for a value error, `-1` for a parse error. -/
def PositionError.code : PositionError D → ℤ
  | .marginOutOfRange _ _ _ => 1
  | _ => -1

/-- The text written to `errmsg`; the argument check leaves it untouched. -/
def PositionError.message (dm : DoubleModel D) : PositionError D → Option String
  | .invalidArgs => none
  | .emptyTrack trackIdx =>
    some ("Empty track position specification at index " ++ toString trackIdx)
  | .invalidPosition part trackIdx =>
    some ("Invalid position '" ++ String.ofList part ++ "' at track " ++ toString trackIdx ++
      ". Valid: top-left, top-center, top-right, middle-left, middle-center, middle-right, " ++
      "bottom-left, bottom-center, bottom-right")
  | .invalidMargin part trackIdx marginIdx =>
    some ("Invalid margin value '" ++ String.ofList part ++ "' at track " ++
      toString trackIdx ++ " margin " ++ toString marginIdx)
  | .marginOutOfRange val trackIdx marginIdx =>
    some ("Margin value " ++ dm.formatFixed1 val ++ "% at track " ++ toString trackIdx ++
      " margin " ++ toString marginIdx ++ " out of range (0.0-50.0%)")

/-- The inner loop over the margins of one track spec, at most four of them. -/
def parseMargins (dm : DoubleModel D) (trackIdx : ℕ) :
    ℕ → List (List Char) → Except (PositionError D) (List D)
  | _, [] => .ok []
  | marginIdx, token :: rest =>
    if marginIdx < 4 then
      let part := trimStringInplace token
      let r := dm.strtod part
      if r.2.2 || r.2.1 == part || r.2.1 != [] then
        .error (.invalidMargin part trackIdx marginIdx)
      else if dm.lt r.1 (dm.literal "0.0") || dm.lt (dm.literal "50.0") r.1 then
        .error (.marginOutOfRange r.1 trackIdx marginIdx)
      else (parseMargins dm trackIdx (marginIdx + 1) rest).map (r.1 :: ·)
    else .ok []

/-- The margins a track spec gave replace the defaults, in the order top, left, bottom,
right. -/
def applyMargins (cfg : SubtitlePositionConfig D) (margins : List D) :
    SubtitlePositionConfig D :=
  { cfg with
    marginTop := margins.getD 0 cfg.marginTop, marginLeft := margins.getD 1 cfg.marginLeft,
    marginBottom := margins.getD 2 cfg.marginBottom,
    marginRight := margins.getD 3 cfg.marginRight }

/-- The outer loop over the `;`-separated track specs: the configurations written so far and
the result. The position of a track is stored before its margins are read. -/
def parseTrackSpecs (dm : DoubleModel D) (ntracks : ℕ) :
    ℕ → List (SubtitlePositionConfig D) → List (List Char) →
      List (SubtitlePositionConfig D) × Except (PositionError D) Unit
  | _, configs, [] => (configs, .ok ())
  | trackIdx, configs, trackSpec :: rest =>
    if trackIdx < ntracks then
      match strtokAll (· == ',') (trimStringInplace trackSpec) with
      | [] => (configs, .error (.emptyTrack trackIdx))
      | part :: margins =>
        match positionOfName (trimStringInplace part) with
        | none => (configs, .error (.invalidPosition (trimStringInplace part) trackIdx))
        | some pos =>
          let configs := configs.modify trackIdx fun cfg ↦ { cfg with position := pos }
          match parseMargins dm trackIdx 0 margins with
          | .error e => (configs, .error e)
          | .ok vals =>
            parseTrackSpecs dm ntracks (trackIdx + 1)
              (configs.modify trackIdx fun cfg ↦ applyMargins cfg vals) rest
    else (configs, .ok ())

/-- `parse_subtitle_positions(spec_str, configs, ntracks, errmsg)`: the configurations after
the call, and the result. -/
def parseSubtitlePositions (dm : DoubleModel D) (specStr : Option (List Char))
    (configs : List (SubtitlePositionConfig D)) (ntracks : ℤ) :
    List (SubtitlePositionConfig D) × Except (PositionError D) Unit :=
  if ntracks < 1 ∨ ntracks > 8 then (configs, .error .invalidArgs)
  else
    let configs := configs.mapIdx fun i cfg ↦
      if i < ntracks.toNat then defaultPositionConfig dm else cfg
    match specStr with
    | none | some [] => (configs, .ok ())
    | some s => parseTrackSpecs dm ntracks.toNat 0 configs (strtokAll (· == ';') s)

/-! ### Empty fields -/

/-- The join of fields with commas. -/
def joinCommas (fields : List (List Char)) : List Char :=
  [','].intercalate fields

theorem commaTokens_joinCommas (fields : List (List Char))
    (hsep : ∀ field ∈ fields, ',' ∉ field) (hne : ∀ field ∈ fields, field ≠ []) :
    commaTokens (joinCommas fields) = fields :=
  strtokAll_intercalate ',' fields hsep hne

/-- An empty field between two commas yields no token. -/
theorem commaTokens_joinCommas_insert_empty (before after : List (List Char))
    (hsep : ∀ field ∈ before ++ after, ',' ∉ field)
    (hne : ∀ field ∈ before ++ after, field ≠ []) :
    commaTokens (joinCommas (before ++ [] :: after)) =
      commaTokens (joinCommas (before ++ after)) := by
  rw [commaTokens_joinCommas _ hsep hne]
  exact strtokAll_intercalate_of_empty ',' before after hsep hne

/-- The empty argument needs no test of its own: it has no field. -/
theorem parseFlagList_some (s : List Char) (trackCount maxTracks : ℤ) :
    parseFlagList (some s) trackCount maxTracks =
      if trackCount ≤ 0 ∨ trackCount > maxTracks then none
      else some (parseFlagFields (List.replicate trackCount.toNat 0) 0 (commaTokens s)) := by
  unfold parseFlagList
  split_ifs
  · rfl
  · cases s with
    | nil => rfl
    | cons c t => rfl

section InsertEmpty

variable (before after : List (List Char))
  (hsep : ∀ field ∈ before ++ after, ',' ∉ field)
  (hne : ∀ field ∈ before ++ after, field ≠ [])
include hsep hne

/-- An empty field between two commas does not reach `parse_delay_list`: the list parses as
if the field were not there, so every later delay moves one track forward. -/
theorem parseDelayList_insert_empty :
    parseDelayList (joinCommas (before ++ [] :: after)) =
      parseDelayList (joinCommas (before ++ after)) := by
  unfold parseDelayList
  rw [commaTokens_joinCommas_insert_empty before after hsep hne]

/-- The same for `validate_language_list`. -/
theorem validateLanguageList_insert_empty :
    validateLanguageList (joinCommas (before ++ [] :: after)) =
      validateLanguageList (joinCommas (before ++ after)) := by
  unfold validateLanguageList
  rw [commaTokens_joinCommas_insert_empty before after hsep hne]

/-- The same for `parse_language_list`: the later codes get the positions one lower. -/
theorem parseLanguageList_insert_empty :
    parseLanguageList (joinCommas (before ++ [] :: after)) =
      parseLanguageList (joinCommas (before ++ after)) := by
  unfold parseLanguageList
  rw [commaTokens_joinCommas_insert_empty before after hsep hne]

/-- An empty field between two commas does not reach `parse_flag_list`: the flags after it
move one track forward. -/
theorem parseFlagList_insert_empty (trackCount maxTracks : ℤ) :
    parseFlagList (some (joinCommas (before ++ [] :: after))) trackCount maxTracks =
      parseFlagList (some (joinCommas (before ++ after))) trackCount maxTracks := by
  rw [parseFlagList_some, parseFlagList_some,
    commaTokens_joinCommas_insert_empty before after hsep hne]

end InsertEmpty

/-- The empty spec needs no test of its own: it has no track spec. -/
theorem parseSubtitlePositions_some (dm : DoubleModel D) (s : List Char)
    (configs : List (SubtitlePositionConfig D)) (ntracks : ℤ) :
    parseSubtitlePositions dm (some s) configs ntracks =
      if ntracks < 1 ∨ ntracks > 8 then (configs, .error .invalidArgs)
      else parseTrackSpecs dm ntracks.toNat 0
        (configs.mapIdx fun i cfg ↦ if i < ntracks.toNat then defaultPositionConfig dm else cfg)
        (strtokAll (· == ';') s) := by
  unfold parseSubtitlePositions
  split_ifs
  · rfl
  · cases s with
    | nil => rfl
    | cons c t => rfl

/-- An empty track spec between two semicolons does not reach the loop of
`parse_subtitle_positions`: the specs after it move one track forward. -/
theorem parseSubtitlePositions_insert_empty (dm : DoubleModel D)
    (before after : List (List Char)) (hsep : ∀ spec ∈ before ++ after, ';' ∉ spec)
    (hne : ∀ spec ∈ before ++ after, spec ≠ []) (configs : List (SubtitlePositionConfig D))
    (ntracks : ℤ) :
    parseSubtitlePositions dm (some ([';'].intercalate (before ++ [] :: after))) configs ntracks =
      parseSubtitlePositions dm (some ([';'].intercalate (before ++ after))) configs ntracks := by
  rw [parseSubtitlePositions_some, parseSubtitlePositions_some,
    strtokAll_intercalate_of_empty ';' before after hsep hne,
    strtokAll_intercalate ';' (before ++ after) hsep hne]

/-- Each parser on a list with an empty field between two separators: the field is skipped,
not rejected, so the list parses as the list without it, and every field after it goes to the
track before its own. -/
theorem listParsers_emptyField (dm : DoubleModel D) :
    (∀ before after : List (List Char), (∀ field ∈ before ++ after, ',' ∉ field) →
      (∀ field ∈ before ++ after, field ≠ []) →
      parseDelayList (joinCommas (before ++ [] :: after)) =
          parseDelayList (joinCommas (before ++ after)) ∧
        validateLanguageList (joinCommas (before ++ [] :: after)) =
          validateLanguageList (joinCommas (before ++ after)) ∧
        parseLanguageList (joinCommas (before ++ [] :: after)) =
          parseLanguageList (joinCommas (before ++ after)) ∧
        ∀ trackCount maxTracks : ℤ,
          parseFlagList (some (joinCommas (before ++ [] :: after))) trackCount maxTracks =
            parseFlagList (some (joinCommas (before ++ after))) trackCount maxTracks) ∧
      ∀ before after : List (List Char), (∀ spec ∈ before ++ after, ';' ∉ spec) →
        (∀ spec ∈ before ++ after, spec ≠ []) →
        ∀ (configs : List (SubtitlePositionConfig D)) (ntracks : ℤ),
          parseSubtitlePositions dm (some ([';'].intercalate (before ++ [] :: after))) configs
              ntracks =
            parseSubtitlePositions dm (some ([';'].intercalate (before ++ after))) configs ntracks :=
  ⟨fun before after hsep hne ↦
    ⟨parseDelayList_insert_empty before after hsep hne,
      validateLanguageList_insert_empty before after hsep hne,
      parseLanguageList_insert_empty before after hsep hne,
      parseFlagList_insert_empty before after hsep hne⟩,
    fun before after hsep hne ↦ parseSubtitlePositions_insert_empty dm before after hsep hne⟩

/-- The failing inputs: `--delay 100,,200` gives the delays of `100,200`, `--languages eng,,deu`
is accepted with `deu` second, `--forced 1,,1` over three tracks sets the flags of tracks 1 and
2, and `--sub-position top-left,;;bottom-left` puts `bottom-left` on the second track, its empty
margin ignored. -/
theorem listParsers_emptyField_failingInputs :
    let dm : DoubleModel Unit := ⟨fun _ ↦ ((), [], false), fun _ _ ↦ false, fun _ ↦ ""⟩
    parseDelayList "100,,200".toList = .ok [100, 200] ∧
      validateLanguageList "eng,,deu".toList = .ok () ∧
      parseLanguageList "eng,,deu".toList =
        .ok ([⟨"eng".toList, 1⟩, ⟨"deu".toList, 2⟩], none) ∧
      parseFlagList (some "1,,1".toList) 3 8 = some [1, 1, 0] ∧
      parseSubtitlePositions dm (some "top-left,;;bottom-left".toList)
          (List.replicate 8 (defaultPositionConfig dm)) 8 =
        ([{ defaultPositionConfig dm with position := .topLeft },
          { defaultPositionConfig dm with position := .botLeft }] ++
            List.replicate 6 (defaultPositionConfig dm), .ok ()) := by
  intro dm
  obtain ⟨hcomma, hsemi⟩ := listParsers_emptyField dm
  obtain ⟨hdelay, -, -, -⟩ := hcomma ["100".toList] ["200".toList] (by decide) (by decide)
  obtain ⟨-, hvalid, hlang, -⟩ := hcomma ["eng".toList] ["deu".toList] (by decide) (by decide)
  obtain ⟨-, -, -, hflags⟩ := hcomma ["1".toList] ["1".toList] (by decide) (by decide)
  have hpos := hsemi ["top-left,".toList] ["bottom-left".toList] (by decide) (by decide)
    (List.replicate 8 (defaultPositionConfig dm)) 8
  refine ⟨?_, ?_, ?_, ?_, ?_⟩
  · rw [show "100,,200".toList = joinCommas (["100".toList] ++ [] :: ["200".toList]) from rfl,
      hdelay]
    decide
  · rw [show "eng,,deu".toList = joinCommas (["eng".toList] ++ [] :: ["deu".toList]) from rfl,
      hvalid]
    decide
  · rw [show "eng,,deu".toList = joinCommas (["eng".toList] ++ [] :: ["deu".toList]) from rfl,
      hlang]
    decide
  · rw [show "1,,1".toList = joinCommas (["1".toList] ++ [] :: ["1".toList]) from rfl,
      hflags 3 8]
    decide
  · rw [show "top-left,;;bottom-left".toList =
        [';'].intercalate (["top-left,".toList] ++ [] :: ["bottom-left".toList]) from rfl, hpos]
    rfl

end Srt2Dvbsub.Cli
