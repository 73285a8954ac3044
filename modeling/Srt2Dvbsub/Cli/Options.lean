import Srt2Dvbsub.Cli.ListParse
import Srt2Dvbsub.Lib.Run

/-!
# The command line

`cli_parse` runs `getopt_long` over the arguments and hands each option to its case of a
`switch`, which checks the argument and stores it for `main`. The model keeps the options the
track setup reads (`CliOption`), the values they store (`CliOptions`, with the initial values
of `main` and `runtime_opts.c`), and the checks after the loop: the `-srt` correction, the
required options and `validate_language_list` of the language list. An option handler that
fails ends `cli_parse` with `1`; `cliParse` returns the failure with the text the handler logs.

The `--delay` handler validates its whole argument with `parse_single_delay` before it keeps
it as `subtitle_delay_list`, and `parse_single_delay` accepts no comma
(`parseSingleDelay_ok_not_mem_comma`). An argument the handler accepts therefore parses, in
`parse_delay_list`, to the one value the handler stored as `subtitle_delay_ms`
(`parseDelayList_of_parseSingleDelay`), and every run of `cli_parse` keeps that relation
(`DelayAgrees`, `cliParse_delayAgrees`).
-/

set_option autoImplicit false
set_option relaxedAutoImplicit false

namespace Srt2Dvbsub.Cli

open CLib

/-- `PATH_MAX` of Linux. -/
def PATH_MAX : ℕ := 4096

/-- `validate_path_length(path, label) == 0`: the empty path passes. -/
def validatePathLength (path : List Char) : Bool :=
  path.length < PATH_MAX

/-- The options of `cli_parse` whose values the track setup reads. -/
inductive CliOption where
  | input (arg : List Char)
  | output (arg : List Char)
  | srt (arg : List Char)
  | languages (arg : List Char)
  | forced (arg : List Char)
  | hi (arg : List Char)
  | qcOnly
  | ass
  | subPosition (arg : List Char)
  | delay (arg : List Char)
  | pid (arg : List Char)
  | pngOnly
  | overwrite (arg : List Char)
  | noPreservePids
  deriving DecidableEq, Repr

/-- The values `cli_parse` stores for `main`. -/
structure CliOptions where
  input : Option (List Char)
  output : Option (List Char)
  srtList : Option (List Char)
  langList : Option (List Char)
  forcedList : Option (List Char)
  hiList : Option (List Char)
  qcOnly : Bool
  useAss : Bool
  subPositionSpec : Option (List Char)
  subtitleDelayMs : ℤ
  subtitleDelayList : Option (List Char)
  pidList : Option (List Char)
  pngOnly : Bool
  overwriteSubs : Bool
  overwriteLangs : Option (List Char)
  preservePids : Bool
  deriving DecidableEq, Repr

/-- The values before the first option: `subtitle_delay_ms = 0` in `main`, and
`preserve_pids = 1` in `runtime_opts.c`. -/
def CliOptions.init : CliOptions :=
  ⟨none, none, none, none, none, none, false, false, none, 0, none, none, false, false, none,
    true⟩

/-- The failures of `cli_parse` that end it with `1`. -/
inductive CliError where
  | pathTooLong (label : String)
  | delay (e : DelayError)
  | overwriteMissing
  | overwriteLangs (e : LangError)
  | usage
  | languages (e : LangError)
  deriving DecidableEq, Repr

/-- The text logged for the failure. -/
def CliError.message : CliError → String
  | .pathTooLong label =>
    "Error: " ++ label ++ " exceeds maximum supported length (" ++ toString (PATH_MAX - 1) ++
      " characters)"
  | .delay e => "Subtitle delay parsing error: " ++ e.message
  | .overwriteMissing => "--overwrite requires a language list (e.g. eng,deu or 'all')"
  | .overwriteLangs e => "Overwrite language list validation error: " ++ e.message
  | .usage => "Usage"
  | .languages e => "Language list validation error: " ++ e.message

/-- A path option: stored when `validate_path_length` passes. -/
def pathOption (label : String) (arg : List Char) (store : List Char → CliOptions)
    : Except CliError CliOptions :=
  if validatePathLength arg then .ok (store arg) else .error (.pathTooLong label)

/-- The case of the `switch` in `cli_parse` for one option. -/
def cliParseOption (opts : CliOptions) : CliOption → Except CliError CliOptions
  | .input arg => pathOption "--input" arg fun arg ↦ { opts with input := some arg }
  | .output arg => pathOption "--output" arg fun arg ↦ { opts with output := some arg }
  | .srt arg => pathOption "--srt" arg fun arg ↦ { opts with srtList := some arg }
  | .languages arg => .ok { opts with langList := some arg }
  | .forced arg => .ok { opts with forcedList := some arg }
  | .hi arg => .ok { opts with hiList := some arg }
  | .qcOnly => .ok { opts with qcOnly := true }
  | .ass => .ok { opts with useAss := true }
  | .subPosition arg => .ok { opts with subPositionSpec := some arg }
  | .delay arg =>
    match parseSingleDelay arg with
    | .error e => .error (.delay e)
    | .ok parsedDelay =>
      .ok { opts with subtitleDelayMs := parsedDelay, subtitleDelayList := some arg }
  | .pid arg => .ok { opts with pidList := some arg }
  | .pngOnly => .ok { opts with pngOnly := true }
  | .overwrite arg =>
    if arg = [] then .error .overwriteMissing
    else if strcasecmpEq arg "all".toList || arg == ['*'] then
      .ok { opts with overwriteSubs := true, overwriteLangs := none }
    else
      match validateLanguageList arg with
      | .error e => .error (.overwriteLangs e)
      | .ok () => .ok { opts with overwriteSubs := true, overwriteLangs := some arg }
  | .noPreservePids => .ok { opts with preservePids := false }

/-- The `-srt` correction: `getopt` reads `-srt file` as `-s rt`, and the loop takes the next
operand not starting with `-` as the path instead. -/
def correctSrt (opts : CliOptions) (operands : List (List Char)) :
    Except CliError CliOptions :=
  match opts.srtList, operands with
  | some srt, operand :: _ =>
    if srt = "rt".toList ∧ operand.head? ≠ some '-' then
      pathOption "SRT path" operand fun path ↦ { opts with srtList := some path }
    else .ok opts
  | _, _ => .ok opts

/-- The options each mode requires: SRT and languages, and in the encoding mode the input
and output as well. -/
def hasRequired (opts : CliOptions) : Bool :=
  opts.srtList.isSome && opts.langList.isSome &&
    (opts.qcOnly || opts.pngOnly || (opts.input.isSome && opts.output.isSome))

/-- `cli_parse` up to its final `return -1`: the options in the order `getopt_long` returns
them, and the operands left after them. -/
def cliParse (options : List CliOption) (operands : List (List Char)) :
    Except CliError CliOptions := do
  let opts ← options.foldlM cliParseOption CliOptions.init
  let opts ← correctSrt opts operands
  if !hasRequired opts then throw .usage
  match validateLanguageList (opts.langList.getD []) with
  | .error e => throw (.languages e)
  | .ok () => pure opts

/-! ### `--delay` -/

/-- An argument `parse_single_delay` accepts holds no comma: every byte of it is a blank, a
sign or a digit. -/
theorem parseSingleDelay_ok_not_mem_comma {s : List Char} {v : ℤ}
    (h : parseSingleDelay s = .ok v) : ',' ∉ s := by
  obtain ⟨htrim, -, -, hend, -⟩ := parseSingleDelay_eq_ok.mp h
  intro hc
  rcases mem_trimBoth_or hc with hkept | hspace
  · rcases mem_of_strtol_endptr_nil hend htrim hkept with h1 | h1 | h1 | h1 <;>
      revert h1 <;> decide
  · revert hspace
    decide

/-- The trimmed argument of an accepted `--delay` parses to the same value. -/
theorem parseSingleDelay_trim {s : List Char} {v : ℤ} (h : parseSingleDelay s = .ok v) :
    parseSingleDelay (trimStringInplace s) = .ok v := by
  rw [parseSingleDelay_eq_ok, trimStringInplace_idem]
  exact parseSingleDelay_eq_ok.mp h

/-- An argument the `--delay` handler accepts is a list of one delay for `parse_delay_list`,
the value the handler stored. -/
theorem parseDelayList_of_parseSingleDelay {s : List Char} {v : ℤ}
    (h : parseSingleDelay s = .ok v) : parseDelayList s = .ok [v] := by
  obtain ⟨htrim, -⟩ := parseSingleDelay_eq_ok.mp h
  have hne : s ≠ [] := by
    rintro rfl
    exact htrim rfl
  have htokens : commaTokens s = [s] := by
    have hjoin := commaTokens_joinCommas [s]
      (by simpa using parseSingleDelay_ok_not_mem_comma h) (by simpa using hne)
    simpa [joinCommas] using hjoin
  unfold parseDelayList
  rw [htokens]
  simp only [parseDelayFields, htrim, if_false, parseSingleDelay_trim h]

/-- The `--delay` handler on a per-track list in the documented form `MS,MS2`: it rejects the
list that `parse_delay_list` would read as two delays. -/
theorem cliDelay_rejectsTrackList (opts : CliOptions) :
    cliParseOption opts (.delay "100,200".toList) =
        .error (.delay (.invalid "100,200".toList "100,200".toList)) ∧
      parseDelayList "100,200".toList = .ok [100, 200] := by
  have hreject : parseSingleDelay "100,200".toList =
      .error (.invalid "100,200".toList "100,200".toList) := by
    decide
  refine ⟨?_, by decide⟩
  simp only [cliParseOption, hreject]

/-- What `cli_parse` keeps of `--delay`: no list, or a list that parses to the stored
global delay alone. -/
def DelayAgrees (opts : CliOptions) : Prop :=
  ∀ s ∈ opts.subtitleDelayList, parseDelayList s = .ok [opts.subtitleDelayMs]

theorem delayAgrees_init : DelayAgrees CliOptions.init := by
  intro s hs
  cases hs

theorem cliParseOption_delayAgrees {opts opts' : CliOptions} {o : CliOption}
    (hagree : DelayAgrees opts) (h : cliParseOption opts o = .ok opts') : DelayAgrees opts' := by
  cases o with
  | delay arg =>
    simp only [cliParseOption] at h
    split at h
    · cases h
    · rename_i v hv
      cases h
      intro s hs
      cases hs
      exact parseDelayList_of_parseSingleDelay hv
  | overwrite arg =>
    simp only [cliParseOption] at h
    split_ifs at h
    · cases h
      exact hagree
    · split at h
      · cases h
      · cases h
        exact hagree
  | input arg | output arg | srt arg =>
    simp only [cliParseOption, pathOption] at h
    split_ifs at h
    cases h
    exact hagree
  | _ =>
    cases h
    exact hagree

theorem correctSrt_delayAgrees {opts opts' : CliOptions} {operands : List (List Char)}
    (hagree : DelayAgrees opts) (h : correctSrt opts operands = .ok opts') :
    DelayAgrees opts' := by
  unfold correctSrt at h
  split at h
  · split_ifs at h
    · simp only [pathOption] at h
      split_ifs at h
      cases h
      exact hagree
    · cases h
      exact hagree
  · cases h
    exact hagree

/-- Every options list `cli_parse` accepts keeps a `--delay` list only as a single value,
the global delay. -/
theorem cliParse_delayAgrees {options : List CliOption} {operands : List (List Char)}
    {opts : CliOptions} (h : cliParse options operands = .ok opts) : DelayAgrees opts := by
  obtain ⟨opts₁, hfold, h⟩ := Lib.except_bind_eq_ok.mp h
  obtain ⟨opts₂, hsrt, h⟩ := Lib.except_bind_eq_ok.mp h
  have hagree₁ : DelayAgrees opts₁ :=
    Lib.foldlM_except_inv cliParseOption DelayAgrees
      (fun _ _ _ ha hstep ↦ cliParseOption_delayAgrees ha hstep) options delayAgrees_init hfold
  have hagree₂ : DelayAgrees opts₂ := correctSrt_delayAgrees hagree₁ hsrt
  split_ifs at h
  · cases h
  · split at h
    · cases h
    · cases h
      exact hagree₂

end Srt2Dvbsub.Cli
